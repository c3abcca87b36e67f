import QueryPredicates.Proofs.Text.Digits
import QueryPredicates.Proofs.Text.Words
import QueryPredicates.Proofs.Value.Reading

/-! Geometries are read from their texts. The text of a coordinate is free of the marks that part texts
fall into, the blanks, commas and parentheses, so the pairs and the coordinates in them are found again
where they were put. What remains to be asked of a coordinate is that it is read from its own text, which
a NaN with a payload is not. Only the text of a POINT of two points or more is refused. -/

namespace QueryPredicates
open Text

/-- The characters that part the text of a geometry. -/
def Text.isMark (c : Char) : Bool := c == '(' || c == ')' || c == ',' || isBlank c

theorem Text.isMark_eq_false {c : Char} : isMark c = false ↔
    c ≠ '(' ∧ c ≠ ')' ∧ c ≠ ',' ∧ isBlank c = false := by
  simp [isMark, and_assoc]

theorem Text.isMark_of_isDigit {c : Char} (h : isDigit c = true) : isMark c = false := by
  have hdigit := isDigit_iff.mp h
  have hblank : isBlank c = false := by
    rw [Bool.eq_false_iff, ne_eq, isBlank_iff]
    omega
  refine isMark_eq_false.mpr ⟨?_, ?_, ?_, hblank⟩ <;>
  · rintro rfl
    revert hdigit
    decide

namespace Double

/-- The coordinate is read from its text. -/
def IsReadable (x : Double) : Prop := read? (coordinate.text x).toList = some x

instance (x : Double) : Decidable x.IsReadable :=
  inferInstanceAs (Decidable (read? (coordinate.text x).toList = some x))

example : ¬ (⟨0x7ff0000000000001⟩ : Double).IsReadable := by decide +kernel

/-! ## The text of a coordinate -/

theorem mem_positionalText {digits : List Char} {point : Int} {c : Char}
    (h : c ∈ positionalText false digits point) : c = '0' ∨ c = '.' ∨ c ∈ digits := by
  unfold positionalText zeros at h
  split at h
  · simp only [List.mem_cons, List.mem_append, List.mem_replicate] at h
    grind
  · split at h
    · simp only [List.mem_append, List.mem_replicate] at h
      grind
    · simp only [List.mem_append, List.mem_cons] at h
      rcases h with h | h | h
      · exact .inr (.inr (List.mem_of_mem_take h))
      · exact .inr (.inl h)
      · exact .inr (.inr (List.mem_of_mem_drop h))

theorem isMark_of_mem_numeralText {n : Numeral} {c : Char} (h : c ∈ coordinate.numeralText n) :
    isMark c = false := by
  unfold Layout.numeralText at h
  split at h
  · rw [List.mem_singleton.mp h]
    decide
  · rcases mem_positionalText h with rfl | rfl | h
    · decide
    · decide
    · exact isMark_of_isDigit (isDigit_of_mem_toDigits h)

theorem isMark_of_mem_text {x : Double} {c : Char} (h : c ∈ (coordinate.text x).toList) :
    isMark c = false := by
  have hword {word : List Char} (hbare : (word.all fun c => !isMark c) = true) :
      ∀ c ∈ word, isMark c = false := by
    simpa using hbare
  have hbody : ∀ c ∈ (if x.isInfinite then "inf".toList else coordinate.numeralText x.shortest),
      isMark c = false := by
    split
    · exact hword (by decide)
    · exact fun c hc => isMark_of_mem_numeralText hc
  unfold Layout.text at h
  split at h
  · exact hword (by decide) c h
  · rw [String.toList_ofList] at h
    split at h
    · exact List.forall_mem_cons.mpr ⟨by decide, hbody⟩ c h
    · exact hbody c h

theorem IsReadable.text_ne_nil {x : Double} (h : x.IsReadable) : (coordinate.text x).toList ≠ [] := by
  intro hnil
  rw [IsReadable, hnil] at h
  cases h

end Double

namespace Geometry

/-! ## Pairs -/

/-- Every coordinate is read from its text. -/
def IsReadable (g : Geometry) : Prop := ∀ p ∈ g.points, p.x.IsReadable ∧ p.y.IsReadable

instance (g : Geometry) : Decidable g.IsReadable :=
  inferInstanceAs (Decidable (∀ p ∈ g.points, p.x.IsReadable ∧ p.y.IsReadable))

theorem toList_pairText (p : Point) : (pairText p).toList =
    (Double.coordinate.text p.x).toList ++ ' ' :: (Double.coordinate.text p.y).toList := by
  simp [pairText]

/-- In a pair the only mark is a blank. -/
theorem mark_of_mem_pairText {p : Point} {c : Char} (h : c ∈ (pairText p).toList) :
    c = ' ' ∨ isMark c = false := by
  rw [toList_pairText] at h
  rcases List.mem_append.mp h with h | h
  · exact .inr (Double.isMark_of_mem_text h)
  · exact (List.mem_cons.mp h).imp_right Double.isMark_of_mem_text

theorem readPair?_pairText {p : Point} (hx : p.x.IsReadable) (hy : p.y.IsReadable)
    {lead tail : List Char} (hlead : ∀ c ∈ lead, isBlank c = true)
    (htail : ∀ c ∈ tail, isBlank c = true) :
    readPair? (lead ++ (pairText p).toList ++ tail) = some p := by
  have hword {x : Double} (hx : x.IsReadable) : words (Double.coordinate.text x).toList =
      [(Double.coordinate.text x).toList] :=
    words_of_word hx.text_ne_nil fun c hc => (isMark_eq_false.mp (Double.isMark_of_mem_text hc)).2.2.2
  have hwords : words (lead ++ (pairText p).toList ++ tail) =
      [(Double.coordinate.text p.x).toList, (Double.coordinate.text p.y).toList] := by
    rw [words_append_right htail, words_append_left hlead, toList_pairText,
      words_append_cons (by decide), hword hx, hword hy]
    rfl
  have hreadX : Double.read? (Double.coordinate.text p.x).toList = some p.x := hx
  have hreadY : Double.read? (Double.coordinate.text p.y).toList = some p.y := hy
  unfold readPair?
  rw [hwords]
  simp only [hreadX, hreadY]
  rfl

/-- The text of the points, without the parentheses around it. -/
def pointsText (points : List Point) : List Char := (join ", " (points.map pairText)).toList

theorem pointsText_cons_cons (p q : Point) (points : List Point) : pointsText (p :: q :: points) =
    (pairText p).toList ++ ',' :: ([' '] ++ pointsText (q :: points)) := by
  simp [pointsText, join]

theorem mark_of_mem_pointsText {points : List Point} {c : Char} (h : c ∈ pointsText points) :
    c = ',' ∨ c = ' ' ∨ isMark c = false := by
  rcases mem_join h with h | ⟨piece, hpiece, hc⟩
  · rw [← or_assoc]
    exact .inl (by simpa using h)
  · obtain ⟨p, -, rfl⟩ := List.mem_map.mp hpiece
    exact .inr (mark_of_mem_pairText hc)

/-- The pairs are found between the commas, whatever blanks stand around them. -/
theorem readPairs?_pointsText {points : List Point} (hne : points ≠ [])
    (hread : ∀ p ∈ points, p.x.IsReadable ∧ p.y.IsReadable) {lead tail : List Char}
    (hlead : ∀ c ∈ lead, isBlank c = true) (htail : ∀ c ∈ tail, isBlank c = true) :
    readPairs? (lead ++ pointsText points ++ tail) = some points := by
  have hblank {cs : List Char} (h : ∀ c ∈ cs, isBlank c = true) : ∀ c ∈ cs, (c == ',') = false := by
    intro c hc
    rw [beq_eq_false_iff_ne]
    rintro rfl
    exact absurd (h _ hc) (by decide)
  have hpair (p : Point) : ∀ c ∈ (pairText p).toList, (c == ',') = false := by
    intro c hc
    rw [beq_eq_false_iff_ne]
    rintro rfl
    rcases mark_of_mem_pairText hc with h | h <;> exact absurd h (by decide)
  unfold readPairs?
  induction points generalizing lead with
  | nil => exact absurd rfl hne
  | cons p points ih =>
    obtain ⟨⟨hx, hy⟩, hread⟩ := List.forall_mem_cons.mp hread
    cases points with
    | nil =>
      have hpiece : ∀ c ∈ lead ++ (pairText p).toList ++ tail, (c == ',') = false := by
        simp only [List.forall_mem_append]
        exact ⟨⟨hblank hlead, hpair p⟩, hblank htail⟩
      rw [show pointsText [p] = (pairText p).toList from rfl, cut_eq_splitOnP,
        List.splitOnP_eq_singleton hpiece, List.mapM_cons, readPair?_pairText hx hy hlead htail]
      rfl
    | cons q points =>
      have hpiece : ∀ c ∈ lead ++ (pairText p).toList, (c == ',') = false := by
        simp only [List.forall_mem_append]
        exact ⟨hblank hlead, hpair p⟩
      have hspace : ∀ c ∈ [' '], isBlank c = true := List.forall_mem_singleton.mpr (by decide)
      have hnone : ∀ c ∈ [], isBlank c = true := List.forall_mem_nil _
      have hrest := ih (List.cons_ne_nil q points) hread hspace
      have hfirst := readPair?_pairText hx hy hlead hnone
      rw [List.append_nil] at hfirst
      rw [pointsText_cons_cons, ← List.append_assoc, List.append_assoc, List.cons_append,
        cut_eq_splitOnP, List.splitOnP_append_cons_of_forall_mem hpiece _ (by rfl),
        ← cut_eq_splitOnP, List.mapM_cons, hfirst, hrest]
      rfl

/-! ## Parentheses -/

/-- A text in so many pairs of parentheses. -/
def bracketed : Nat → List Char → List Char
  | 0, cs => cs
  | n + 1, cs => '(' :: (bracketed n cs ++ [')'])

section Bare

variable {cs : List Char} (h : ∀ c ∈ cs, c ≠ '(' ∧ c ≠ ')')
include h

theorem balanced_append (depth : Nat) (rest : List Char) :
    balanced depth (cs ++ rest) = balanced depth rest := by
  induction cs with
  | nil => rfl
  | cons c cs ih =>
    obtain ⟨⟨hopen, hclose⟩, hcs⟩ := List.forall_mem_cons.mp h
    exact (balanced_of_ne hopen hclose depth (cs ++ rest)).trans (ih hcs)

theorem balanced_bracketed (n depth : Nat) (rest : List Char) :
    balanced depth (bracketed n cs ++ rest) = balanced depth rest := by
  induction n generalizing depth rest with
  | zero => exact balanced_append h depth rest
  | succ n ih =>
    rw [bracketed, List.cons_append, List.append_assoc]
    exact ih (depth + 1) ([')'] ++ rest)

theorem flatten_bracketed (n : Nat) : flatten (bracketed n cs) =
    List.replicate n ' ' ++ cs ++ List.replicate n ' ' := by
  have happend (as bs : List Char) : flatten (as ++ bs) = flatten as ++ flatten bs := List.map_append
  induction n with
  | zero =>
    have hsame : ∀ c ∈ cs, (if c == '(' || c == ')' then ' ' else c) = id c := by
      intro c hc
      obtain ⟨hopen, hclose⟩ := h c hc
      simp [hopen, hclose]
    have hcs : flatten cs = cs := (List.map_congr_left hsame).trans (List.map_id cs)
    simpa [bracketed] using hcs
  | succ n ih =>
    have hinner : flatten (bracketed (n + 1) cs) = ' ' :: (flatten (bracketed n cs) ++ [' ']) :=
      congrArg (' ' :: ·) (happend _ _)
    rw [hinner, ih, List.append_assoc, ← List.replicate_succ']
    rfl

end Bare

theorem bare_pointsText (points : List Point) : ∀ c ∈ pointsText points, c ≠ '(' ∧ c ≠ ')' := by
  intro c hc
  obtain rfl | rfl | hmark := mark_of_mem_pointsText hc
  · decide
  · decide
  · obtain ⟨hopen, hclose, -⟩ := isMark_eq_false.mp hmark
    exact ⟨hopen, hclose⟩

theorem readBody?_bracketed (n : Nat) (g : Geometry) (hne : g.points ≠ []) (hread : g.IsReadable) :
    readBody? g.shape (bracketed (n + 1) (pointsText g.points)) =
      if g.shape == .point && g.points.length != 1 then none else some g := by
  let body := bracketed (n + 1) (pointsText g.points)
  have hempty : (body.map Char.toUpper == "EMPTY".toList) = false := rfl
  have hfirst : body.head? = some '(' := rfl
  have hlast : body.getLast? = some ')' := by
    have hends : body = ('(' :: bracketed n (pointsText g.points)) ++ [')'] := rfl
    rw [hends, List.getLast?_concat]
  have hbalanced : balanced 0 body = true := by
    have hnone := balanced_bracketed (bare_pointsText g.points) (n + 1) 0 []
    rwa [List.append_nil] at hnone
  have hblanks : ∀ c ∈ List.replicate (n + 1) ' ', isBlank c = true := by
    intro c hc
    rw [List.eq_of_mem_replicate hc]
    decide
  rw [readBody?_eq, hempty, hfirst, hlast, hbalanced, flatten_bracketed (bare_pointsText _),
    readPairs?_pointsText hne hread hblanks hblanks]
  rfl

/-! ## The whole text -/

/-- What follows the keyword and a blank; a polygon is in one more pair of parentheses. -/
def bodyText (g : Geometry) : List Char :=
  if g.points = [] then "EMPTY".toList
  else bracketed ((if g.shape = .polygon then 1 else 0) + 1) (pointsText g.points)

theorem toList_wkt (g : Geometry) : g.wkt.toList = g.shape.keyword.toList ++ ' ' :: g.bodyText := by
  unfold wkt bodyText
  simp only [String.toList_append, List.isEmpty_iff]
  split
  · rfl
  · split
    · simp [bracketed, pointsText]
    · simp [bracketed, pointsText]

theorem bodyText_ends (g : Geometry) : ∃ first inner last, g.bodyText = first :: (inner ++ [last]) ∧
    isBlank first = false ∧ isBlank last = false := by
  unfold bodyText
  split
  · exact ⟨'E', "MPT".toList, 'Y', rfl, by decide, by decide⟩
  · exact ⟨'(', _, ')', rfl, by decide, by decide⟩

theorem readTrimmed?_keyword (shape : Shape) (body : List Char) :
    readTrimmed? (shape.keyword.toList ++ ' ' :: body) = readBody? shape (trim body) := by
  have hkeyword : (shape.keyword.toList.all fun c => !endsKeyword c) = true := by
    cases shape <;> decide
  rw [List.all_eq_true] at hkeyword
  have hfound : Shape.ofKeyword? shape.keyword.toList = some shape := by
    cases shape <;> decide
  unfold readTrimmed?
  rw [List.takeWhile_append_of_pos hkeyword, List.dropWhile_append_of_pos hkeyword,
    List.takeWhile_cons_of_neg (by decide), List.dropWhile_cons_of_neg (by decide),
    List.append_nil, hfound, trim_cons (by decide)]
  rfl

theorem readWkt?_wkt_eq (g : Geometry) : readWkt? g.wkt = readBody? g.shape g.bodyText := by
  obtain ⟨first, inner, last, hbody, hfirst, hlast⟩ := g.bodyText_ends
  have hletter : ∃ letter letters, g.shape.keyword.toList = letter :: letters ∧
      isBlank letter = false := by
    cases g.shape <;> exact ⟨_, _, rfl, by decide⟩
  obtain ⟨letter, letters, hkeyword, hletter⟩ := hletter
  have htrim : trim g.wkt.toList = g.wkt.toList := by
    rw [toList_wkt, hkeyword, hbody]
    have hends := trim_of_ends hletter hlast (letters ++ ' ' :: first :: inner)
    simpa using hends
  rw [readWkt?_eq, htrim, toList_wkt, readTrimmed?_keyword, hbody, trim_of_ends hfirst hlast]

theorem readWkt?_wkt {g : Geometry} (hread : g.IsReadable)
    (hshape : g.shape = .point → g.points.length ≤ 1) : readWkt? g.wkt = some g := by
  rw [readWkt?_wkt_eq, bodyText]
  obtain ⟨shape, points⟩ := g
  by_cases hnone : points = []
  · rw [if_pos hnone, hnone]
    rfl
  · have hlength := List.length_pos_iff.mpr hnone
    have hone : (shape == .point && points.length != 1) = false := by
      by_contra hrefused
      simp only [Bool.not_eq_false, Bool.and_eq_true, beq_iff_eq, bne_iff_ne] at hrefused
      have hle := hshape hrefused.1
      simp only at hle
      omega
    rw [if_neg hnone, readBody?_bracketed _ ⟨shape, points⟩ hnone hread]
    simp [hone]

/-- No text is read as a POINT of two points or more. -/
theorem length_le_of_readWkt? {source : String} {g : Geometry} (h : readWkt? source = some g)
    (hshape : g.shape = .point) : g.points.length ≤ 1 := by
  rw [readWkt?_eq] at h
  obtain ⟨shape, -, h⟩ := Option.bind_eq_some_iff.mp h
  rw [readBody?_eq] at h
  split at h
  · cases h
    exact Nat.zero_le 1
  · split at h
    · obtain ⟨points, -, h⟩ := Option.bind_eq_some_iff.mp h
      split at h
      · cases h
      · rename_i hone
        cases h
        obtain rfl : shape = .point := hshape
        have hlength : points.length = 1 := by simpa using hone
        exact Nat.le_of_eq hlength
    · cases h

/-- A geometry whose coordinates are read from their texts is read from its own text, unless it is a POINT of
two points or more. No text is read as such a POINT, so what is read from a text, however that is spaced, is
read again from the text that is written for it. -/
theorem wkt_round_trip :
    (∀ g : Geometry, g.IsReadable →
      (readWkt? g.wkt = some g ↔ (g.shape = .point → g.points.length ≤ 1))) ∧
    ∀ (source : String) (g : Geometry), readWkt? source = some g →
      (g.shape = .point → g.points.length ≤ 1) ∧ (g.IsReadable → readWkt? g.wkt = some g) := by
  refine ⟨fun g hread => ⟨length_le_of_readWkt?, readWkt?_wkt hread⟩, fun source g h => ?_⟩
  have hshape := length_le_of_readWkt? h
  exact ⟨hshape, fun hread => readWkt?_wkt hread hshape⟩

theorem wkt_round_trip_polygon :
    let g : Geometry := ⟨.polygon, [⟨.zero, ⟨0x3ff8000000000000⟩⟩,
      ⟨⟨0xc000000000000000⟩, ⟨0x3fb999999999999a⟩⟩]⟩
    g.IsReadable ∧ g.wkt = "POLYGON ((0 1.5, -2 0.1))" ∧ readWkt? g.wkt = some g ∧
      readWkt? " polygon(0 1.5 ,((-2\t1e-1)))" = some g := by
  intro g
  have hread : g.IsReadable := by decide +kernel
  have hshape : g.shape = .point → g.points.length ≤ 1 := nofun
  exact ⟨hread, by decide +kernel, (wkt_round_trip.1 g hread).mpr hshape, by decide +kernel⟩

end Geometry
end QueryPredicates
