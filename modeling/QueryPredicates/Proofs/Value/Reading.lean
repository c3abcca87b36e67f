import QueryPredicates.Proofs.Text.Plain
import QueryPredicates.Value.Conversion

/-! Reading values from text. Each reader accepts plain texts only and does not see the case of
their letters: numbers have no letters but those of an exponent and of the words for infinity and
NaN, and truth values and the shapes of geometries are looked up in one case. So two texts with one
lower case are read alike. -/

namespace QueryPredicates

/-! ## Integers -/

namespace Text

theorem isDigit_toLower (c : Char) : isDigit c.toLower = isDigit c := by
  rw [Bool.eq_iff_iff, isDigit_iff, isDigit_iff, toNat_toLower]
  split <;> omega

theorem isPlain_of_isDigit {c : Char} (h : isDigit c = true) : isPlain c = true := by
  have hdigit := isDigit_iff.mp h
  exact isPlain_iff.mpr (.inr (by omega))

/-- Digits have no case. -/
theorem map_toLower_of_digits {cs : List Char} (h : ∀ c ∈ cs, isDigit c = true) :
    cs.map Char.toLower = cs := by
  have hsame : ∀ c ∈ cs, c.toLower = id c := by
    intro c hc
    have hdigit := isDigit_iff.mp (h c hc)
    exact (toLower_eq_iff (d := c) (.inl (by omega))).mpr rfl
  rw [List.map_congr_left hsame, List.map_id]

theorem all_isDigit_map (cs : List Char) : (cs.map Char.toLower).all isDigit = cs.all isDigit := by
  rw [List.all_map]
  exact congrArg cs.all (funext isDigit_toLower)

theorem sign_of_ne {c : Char} (hminus : c ≠ '-') (hplus : c ≠ '+') (cs : List Char) :
    sign (c :: cs) = (false, c :: cs) := by
  unfold sign
  split
  · rename_i heq
    cases heq
    exact absurd rfl hminus
  · rename_i heq
    cases heq
    exact absurd rfl hplus
  · rfl

theorem sign_map_toLower (cs : List Char) :
    sign (cs.map Char.toLower) = ((sign cs).1, (sign cs).2.map Char.toLower) := by
  cases cs with
  | nil => rfl
  | cons c cs =>
    by_cases hminus : c = '-'
    · rw [hminus]
      rfl
    · by_cases hplus : c = '+'
      · rw [hplus]
        rfl
      · have hminus' : c.toLower ≠ '-' := mt (toLower_eq_iff (.inl (by decide))).mp hminus
        have hplus' : c.toLower ≠ '+' := mt (toLower_eq_iff (.inl (by decide))).mp hplus
        rw [List.map_cons, sign_of_ne hminus hplus, sign_of_ne hminus' hplus']
        rfl

theorem isPlain_of_sign {cs : List Char} (h : ∀ c ∈ (sign cs).2, isPlain c = true) :
    ∀ c ∈ cs, isPlain c = true := by
  unfold sign at h
  split at h
  · exact List.forall_mem_cons.mpr ⟨by decide, h⟩
  · exact List.forall_mem_cons.mpr ⟨by decide, h⟩
  · exact h

theorem readInteger?_eq (cs : List Char) : readInteger? cs =
    if (sign cs).2.isEmpty || !(sign cs).2.all isDigit then none
    else some (if (sign cs).1 then -(value (sign cs).2 : Int) else value (sign cs).2) := rfl

theorem readInteger?_readsPlain : ReadsPlain readInteger? where
  plain {cs n} h := by
    rw [readInteger?_eq] at h
    split at h
    · cases h
    · rename_i hc
      have hdigits : (sign cs).2.all isDigit = true := by
        simp only [Bool.or_eq_true, not_or, Bool.not_eq_true', Bool.not_eq_false] at hc
        exact hc.2
      exact isPlain_of_sign fun c hc => isPlain_of_isDigit (List.all_eq_true.mp hdigits c hc)
  lower cs := by
    rw [readInteger?_eq, readInteger?_eq, sign_map_toLower]
    simp only [all_isDigit_map, List.isEmpty_map]
    cases hdigits : (sign cs).2.all isDigit with
    | false => simp
    | true => rw [map_toLower_of_digits (List.all_eq_true.mp hdigits)]

end Text

/-! ## Doubles -/

namespace Double
open Text

theorem toLower_eq_e_iff (c : Char) :
    (c.toLower == 'e' || c.toLower == 'E') = (c == 'e' || c == 'E') := by
  rw [Bool.eq_iff_iff]
  simp only [Bool.or_eq_true, beq_iff_eq, ← Char.toNat_inj, toNat_toLower]
  have he : 'e'.toNat = 101 := rfl
  have hE : 'E'.toNat = 69 := rfl
  rw [he, hE]
  split <;> omega

theorem readExponent?_cons (c : Char) (cs : List Char) : readExponent? (c :: cs) =
    if !(c == 'e' || c == 'E') || (sign cs).2.isEmpty || !(sign cs).2.all isDigit then none
    else some (if (sign cs).1 then -(exponentValue (sign cs).2 : Int)
      else exponentValue (sign cs).2) := rfl

theorem readExponent?_readsPlain : ReadsPlain readExponent? where
  plain {cs n} h := by
    cases cs with
    | nil => simp
    | cons c cs =>
      rw [readExponent?_cons] at h
      split at h
      · cases h
      · rename_i hc
        simp only [Bool.or_eq_true, not_or, Bool.not_eq_true', Bool.not_eq_false] at hc
        obtain ⟨⟨hletter, -⟩, hdigits⟩ := hc
        refine List.forall_mem_cons.mpr ⟨?_, isPlain_of_sign fun d hd => ?_⟩
        · rcases hletter with he | he
          · rw [eq_of_beq he]
            decide
          · rw [eq_of_beq he]
            decide
        · exact isPlain_of_isDigit (List.all_eq_true.mp hdigits d hd)
  lower cs := by
    cases cs with
    | nil => rfl
    | cons c cs =>
      rw [List.map_cons, readExponent?_cons, readExponent?_cons, sign_map_toLower, toLower_eq_e_iff]
      simp only [all_isDigit_map, List.isEmpty_map]
      cases hdigits : (sign cs).2.all isDigit with
      | false => simp
      | true => rw [map_toLower_of_digits (List.all_eq_true.mp hdigits)]

theorem takeWhile_isDigit_map (cs : List Char) :
    (cs.map Char.toLower).takeWhile isDigit = cs.takeWhile isDigit := by
  have hdigit : isDigit ∘ Char.toLower = isDigit := funext isDigit_toLower
  rw [List.takeWhile_map, hdigit]
  exact map_toLower_of_digits (List.all_eq_true.mp List.all_takeWhile)

theorem dropWhile_isDigit_map (cs : List Char) : (cs.map Char.toLower).dropWhile isDigit =
    (cs.dropWhile isDigit).map Char.toLower := by
  have hdigit : isDigit ∘ Char.toLower = isDigit := funext isDigit_toLower
  rw [List.dropWhile_map, hdigit]

/-- The digits after a point, if there is one, and what follows. -/
def splitFraction (rest : List Char) : List Char × List Char :=
  match rest with
  | '.' :: after => (after.takeWhile isDigit, after.dropWhile isDigit)
  | _ => ([], rest)

theorem splitFraction_of_ne {c : Char} (h : c ≠ '.') (cs : List Char) :
    splitFraction (c :: cs) = ([], c :: cs) := by
  unfold splitFraction
  split
  · rename_i heq
    cases heq
    exact absurd rfl h
  · rfl

theorem splitFraction_map (rest : List Char) : splitFraction (rest.map Char.toLower) =
    ((splitFraction rest).1, (splitFraction rest).2.map Char.toLower) := by
  cases rest with
  | nil => rfl
  | cons c cs =>
    by_cases hpoint : c = '.'
    · rw [hpoint]
      show ((cs.map Char.toLower).takeWhile isDigit, (cs.map Char.toLower).dropWhile isDigit) =
        (cs.takeWhile isDigit, (cs.dropWhile isDigit).map Char.toLower)
      rw [takeWhile_isDigit_map, dropWhile_isDigit_map]
    · have hpoint' : c.toLower ≠ '.' := mt (toLower_eq_iff (.inl (by decide))).mp hpoint
      rw [List.map_cons, splitFraction_of_ne hpoint, splitFraction_of_ne hpoint']
      rfl

theorem isPlain_of_digits_dropWhile {cs : List Char}
    (h : ∀ c ∈ cs.dropWhile isDigit, isPlain c = true) : ∀ c ∈ cs, isPlain c = true := by
  intro c hc
  rw [← List.takeWhile_append_dropWhile (p := isDigit) (l := cs)] at hc
  rcases List.mem_append.mp hc with hc | hc
  · exact isPlain_of_isDigit (List.all_eq_true.mp List.all_takeWhile c hc)
  · exact h c hc

theorem isPlain_of_splitFraction {rest : List Char}
    (h : ∀ c ∈ (splitFraction rest).2, isPlain c = true) : ∀ c ∈ rest, isPlain c = true := by
  unfold splitFraction at h
  split at h
  · exact List.forall_mem_cons.mpr ⟨by decide, isPlain_of_digits_dropWhile h⟩
  · exact h

theorem readDecimal?_eq (negative : Bool) (cs : List Char) : readDecimal? negative cs =
    if (cs.takeWhile isDigit).isEmpty && (splitFraction (cs.dropWhile isDigit)).1.isEmpty then none
    else (readExponent? (splitFraction (cs.dropWhile isDigit)).2).map fun exponent =>
      ofDecimal negative (value (cs.takeWhile isDigit ++ (splitFraction (cs.dropWhile isDigit)).1))
        (exponent - (splitFraction (cs.dropWhile isDigit)).1.length) := rfl

theorem readDecimal?_readsPlain (negative : Bool) : ReadsPlain (readDecimal? negative) where
  plain {cs x} h := by
    rw [readDecimal?_eq] at h
    split at h
    · cases h
    · obtain ⟨exponent, he, -⟩ := Option.map_eq_some_iff.mp h
      have htail := readExponent?_readsPlain.plain he
      exact isPlain_of_digits_dropWhile (isPlain_of_splitFraction htail)
  lower cs := by
    rw [readDecimal?_eq, readDecimal?_eq, takeWhile_isDigit_map, dropWhile_isDigit_map,
      splitFraction_map]
    simp only [readExponent?_readsPlain.lower]

theorem readWord?_readsPlain (negative : Bool) : ReadsPlain (readWord? negative) where
  plain {cs x} h := by
    have hword : cs.map Char.toLower ∈ ["inf".toList, "infinity".toList, "nan".toList] := by
      unfold readWord? at h
      simp only at h
      split at h
      · rename_i hc
        rcases Bool.or_eq_true_iff.mp hc with hc | hc <;> simp [eq_of_beq hc]
      · split at h
        · rename_i hc
          simp [eq_of_beq hc]
        · cases h
    exact isPlain_of_map isPlain_toLower (by decide) hword
  lower cs := by
    unfold readWord?
    simp only [List.map_map, show Char.toLower ∘ Char.toLower = Char.toLower from
      funext toLower_toLower]

theorem read?_eq (cs : List Char) : read? cs =
    (readDecimal? (sign cs).1 (sign cs).2).or (readWord? (sign cs).1 (sign cs).2) := rfl

theorem read?_readsPlain : ReadsPlain read? where
  plain {cs x} h := by
    rw [read?_eq, Option.or_eq_some_iff] at h
    refine isPlain_of_sign ?_
    rcases h with h | ⟨-, h⟩
    · exact (readDecimal?_readsPlain _).plain h
    · exact (readWord?_readsPlain _).plain h
  lower cs := by
    rw [read?_eq, read?_eq, sign_map_toLower]
    simp only [(readDecimal?_readsPlain _).lower, (readWord?_readsPlain _).lower]

end Double

/-! ## Truth values -/

namespace Value
open Text

theorem readBool?_readsPlain : ReadsPlain readBool? where
  plain {cs b} h := by
    have hword : String.ofList (cs.map Char.toLower) ∈
        ["true", "t", "yes", "y", "1", "false", "f", "no", "n", "0"] := by
      unfold readBool? at h
      simp only at h
      split at h
      · rename_i hc
        exact List.mem_append_left _ (List.contains_iff_mem.mp hc)
      · split at h
        · rename_i hc
          exact List.mem_append_right ["true", "t", "yes", "y", "1"] (List.contains_iff_mem.mp hc)
        · cases h
    have hchars := List.mem_map_of_mem (f := String.toList) hword
    rw [String.toList_ofList] at hchars
    exact isPlain_of_map isPlain_toLower (by decide) hchars
  lower cs := by
    unfold readBool?
    simp only [List.map_map, show Char.toLower ∘ Char.toLower = Char.toLower from
      funext toLower_toLower]

theorem readInt64?_readsPlain : ReadsPlain readInt64? where
  plain {cs n} h := by
    unfold readInt64? at h
    split at h
    · rename_i m hm
      exact isPlain_of_trim (readInteger?_readsPlain.plain hm)
    · cases h
  lower cs := by
    unfold readInt64?
    rw [trim_map_toLower, readInteger?_readsPlain.lower]

end Value

/-! ## Geometries -/

namespace Shape
open Text

theorem ofKeyword?_readsPlain : ReadsPlain ofKeyword? where
  plain {cs shape} h := by
    have hkeyword := List.find?_some h
    refine isPlain_of_map isPlain_toUpper ?_
      (List.mem_singleton.mpr (eq_of_beq hkeyword).symm : _ ∈ [shape.keyword.toList])
    cases shape <;> decide
  lower cs := by
    unfold ofKeyword?
    simp only [List.map_map, show Char.toUpper ∘ Char.toLower = Char.toUpper from
      funext toUpper_toLower]

end Shape

namespace Geometry
open Text

theorem readPair?_readsPlain : ReadsPlain readPair? where
  plain {cs p} h := by
    unfold readPair? at h
    split at h
    · rename_i x y hwords
      obtain ⟨a, hx, h⟩ := Option.bind_eq_some_iff.mp h
      obtain ⟨b, hy, -⟩ := Option.bind_eq_some_iff.mp h
      refine isPlain_of_words fun word hword => ?_
      rw [hwords] at hword
      simp only [List.mem_cons, List.not_mem_nil, or_false] at hword
      rcases hword with rfl | rfl
      · exact Double.read?_readsPlain.plain hx
      · exact Double.read?_readsPlain.plain hy
    · cases h
  lower cs := by
    unfold readPair?
    rw [words_map_toLower]
    cases words cs with
    | nil => rfl
    | cons x rest =>
      cases rest with
      | nil => rfl
      | cons y rest =>
        cases rest with
        | nil => simp only [List.map_cons, List.map_nil, Double.read?_readsPlain.lower]
        | cons => rfl

/-- A mark is no letter. -/
theorem toLower_beq_mark {c d : Char} (hd : d.toNat < 65) : (c.toLower == d) = (c == d) := by
  rw [Bool.eq_iff_iff, beq_iff_eq, beq_iff_eq, toLower_eq_iff (.inl hd)]

theorem flatten_map_toLower (cs : List Char) :
    flatten (cs.map Char.toLower) = (flatten cs).map Char.toLower := by
  unfold flatten
  rw [List.map_map, List.map_map]
  refine List.map_congr_left fun c _ => ?_
  simp only [Function.comp_apply, toLower_beq_mark (show '('.toNat < 65 by decide),
    toLower_beq_mark (show ')'.toNat < 65 by decide)]
  split <;> rfl

theorem balanced_of_ne {c : Char} (hopen : c ≠ '(') (hclose : c ≠ ')') (depth : Nat)
    (cs : List Char) : balanced depth (c :: cs) = balanced depth cs := by
  rw [balanced.eq_def]
  split
  · rename_i heq
    cases heq
  · rename_i heq
    cases heq
    exact absurd rfl hopen
  · rename_i heq
    cases heq
    exact absurd rfl hclose
  · rename_i heq
    cases heq
    rfl

theorem balanced_map_toLower (depth : Nat) (cs : List Char) :
    balanced depth (cs.map Char.toLower) = balanced depth cs := by
  induction cs generalizing depth with
  | nil => rfl
  | cons c cs ih =>
    by_cases hopen : c = '('
    · rw [hopen]
      exact ih (depth + 1)
    · by_cases hclose : c = ')'
      · rw [hclose]
        cases depth with
        | zero => rfl
        | succ depth => exact ih depth
      · have hopen' : c.toLower ≠ '(' := mt (toLower_eq_iff (.inl (by decide))).mp hopen
        have hclose' : c.toLower ≠ ')' := mt (toLower_eq_iff (.inl (by decide))).mp hclose
        rw [List.map_cons, balanced_of_ne hopen hclose, balanced_of_ne hopen' hclose', ih]

/-- The points of a list of coordinate pairs. -/
def readPairs? (cs : List Char) : Option (List Point) :=
  (cut (· == ',') cs).mapM readPair?

theorem exists_of_mapM {pieces : List (List Char)} {points : List Point}
    (h : pieces.mapM readPair? = some points) : ∀ piece ∈ pieces, ∃ p, readPair? piece = some p := by
  induction pieces generalizing points with
  | nil => simp
  | cons piece pieces ih =>
    rw [List.mapM_cons] at h
    obtain ⟨p, hp, h⟩ := Option.bind_eq_some_iff.mp h
    obtain ⟨ps, hps, -⟩ := Option.bind_eq_some_iff.mp h
    exact List.forall_mem_cons.mpr ⟨⟨p, hp⟩, ih hps⟩

theorem readPairs?_readsPlain : ReadsPlain readPairs? where
  plain {cs points} h := by
    refine forall_mem_of_cut (p := (· == ',')) (fun c hc => ?_) fun piece hpiece => ?_
    · rw [eq_of_beq hc]
      decide
    · obtain ⟨p, hp⟩ := exists_of_mapM h piece hpiece
      exact readPair?_readsPlain.plain hp
  lower cs := by
    unfold readPairs?
    rw [cut_map fun c => toLower_beq_mark (by decide)]
    induction cut (· == ',') cs with
    | nil => rfl
    | cons piece pieces ih =>
      rw [List.map_cons, List.mapM_cons, List.mapM_cons, ih, readPair?_readsPlain.lower]

theorem isPlain_of_flatten {cs : List Char} (h : ∀ c ∈ flatten cs, isPlain c = true) :
    ∀ c ∈ cs, isPlain c = true := by
  intro c hc
  have hflat := h _ (List.mem_map_of_mem hc)
  split at hflat
  · rename_i hmark
    rcases Bool.or_eq_true_iff.mp hmark with hm | hm <;> rw [eq_of_beq hm] <;> decide
  · exact hflat

theorem readBody?_eq (shape : Shape) (body : List Char) : readBody? shape body =
    if body.map Char.toUpper == "EMPTY".toList then some ⟨shape, []⟩
    else if body.head? == some '(' && body.getLast? == some ')' && balanced 0 body then
      (readPairs? (flatten body)).bind fun points =>
        if shape == .point && points.length != 1 then none else some ⟨shape, points⟩
    else none := rfl

theorem readBody?_readsPlain (shape : Shape) : ReadsPlain (readBody? shape) where
  plain {cs g} h := by
    rw [readBody?_eq] at h
    split at h
    · rename_i hempty
      exact isPlain_of_map isPlain_toUpper (by decide) (List.mem_singleton.mpr (eq_of_beq hempty))
    · split at h
      · obtain ⟨points, hpoints, -⟩ := Option.bind_eq_some_iff.mp h
        exact isPlain_of_flatten (readPairs?_readsPlain.plain hpoints)
      · cases h
  lower cs := by
    have hupper : (cs.map Char.toLower).map Char.toUpper = cs.map Char.toUpper := by
      rw [List.map_map]
      exact List.map_congr_left fun c _ => toUpper_toLower c
    have hmark {d : Char} (hd : d.toNat < 65) (o : Option Char) :
        (o.map Char.toLower == some d) = (o == some d) := by
      cases o with
      | none => rfl
      | some c => simp only [Option.map_some, Option.some_beq_some, toLower_beq_mark hd]
    rw [readBody?_eq, readBody?_eq, hupper, List.head?_map, List.getLast?_map,
      hmark (by decide), hmark (by decide), balanced_map_toLower, flatten_map_toLower,
      readPairs?_readsPlain.lower]

theorem endsKeyword_toLower (c : Char) : endsKeyword c.toLower = endsKeyword c := by
  unfold endsKeyword
  rw [toLower_beq_mark (by decide), isBlank_toLower]

/-- Reads a geometry from trimmed text. -/
def readTrimmed? (cs : List Char) : Option Geometry :=
  (Shape.ofKeyword? (cs.takeWhile (!endsKeyword ·))).bind fun shape =>
    readBody? shape (trim (cs.dropWhile (!endsKeyword ·)))

theorem readTrimmed?_readsPlain : ReadsPlain readTrimmed? where
  plain {cs g} h := by
    obtain ⟨shape, hshape, hbody⟩ := Option.bind_eq_some_iff.mp h
    intro c hc
    rw [← List.takeWhile_append_dropWhile (p := (!endsKeyword ·)) (l := cs)] at hc
    rcases List.mem_append.mp hc with hc | hc
    · exact Shape.ofKeyword?_readsPlain.plain hshape c hc
    · exact isPlain_of_trim ((readBody?_readsPlain shape).plain hbody) c hc
  lower cs := by
    have hends : (fun c => !endsKeyword c) ∘ Char.toLower = fun c => !endsKeyword c :=
      funext fun c => congrArg not (endsKeyword_toLower c)
    unfold readTrimmed?
    rw [List.takeWhile_map, List.dropWhile_map, hends, Shape.ofKeyword?_readsPlain.lower,
      trim_map_toLower]
    simp only [(readBody?_readsPlain _).lower]

theorem readWkt?_eq (source : String) : readWkt? source = readTrimmed? (trim source.toList) := rfl

end Geometry
end QueryPredicates
