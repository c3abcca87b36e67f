import QueryPredicates.Text.Lowercase
import QueryPredicates.Text.Split

/-! Plain text. Lower-casing by the full case data and lower-casing of ASCII letters alone do the
same to plain characters: the blanks, and the ASCII characters but for the letter k, whose case the
Kelvin sign shares. No other character becomes plain when it is lower-cased. So of two texts with one
lower case both have one ASCII lower case as soon as one of them is plain, and a reader that accepts
plain texts only, and those whatever the case of their ASCII letters is, reads both alike. -/

namespace QueryPredicates.Text

/-! ## ASCII case -/

theorem toNat_ofNat {n : Nat} (h : n.isValidChar) : (Char.ofNat n).toNat = n := by
  rw [Char.ofNat, dif_pos h]
  rfl

theorem toNat_toLower (c : Char) : c.toLower.toNat =
    if 65 ≤ c.toNat ∧ c.toNat ≤ 90 then c.toNat + 32 else c.toNat := by
  unfold Char.toLower
  simp only [ge_iff_le, UInt32.le_iff_toNat_le, ← Char.toNat_val]
  split
  · rename_i h
    rw [if_pos (by simpa using h)]
    simp at h ⊢
    omega
  · rename_i h
    rw [if_neg (by simpa using h)]

theorem toNat_toUpper (c : Char) : c.toUpper.toNat =
    if 97 ≤ c.toNat ∧ c.toNat ≤ 122 then c.toNat - 32 else c.toNat := by
  unfold Char.toUpper
  simp only [UInt32.le_iff_toNat_le, ← Char.toNat_val]
  split
  · rename_i h
    rw [if_pos (by simpa using h)]
    simp at h ⊢
    omega
  · rename_i h
    rw [if_neg (by simpa using h)]

theorem toLower_toLower (c : Char) : c.toLower.toLower = c.toLower := by
  rw [← Char.toNat_inj]
  grind [toNat_toLower]

theorem toUpper_toLower (c : Char) : c.toLower.toUpper = c.toUpper := by
  rw [← Char.toNat_inj]
  grind [toNat_toLower, toNat_toUpper]

/-- Only letters change their case. -/
theorem toLower_eq_iff {c d : Char} (hd : d.toNat < 65 ∨ 90 < d.toNat ∧ d.toNat < 97) :
    c.toLower = d ↔ c = d := by
  rw [← Char.toNat_inj, ← Char.toNat_inj, toNat_toLower]
  split <;> omega

theorem isBlank_iff {c : Char} : isBlank c = true ↔ 9 ≤ c.toNat ∧ c.toNat ≤ 13 ∨ c.toNat = 0x20 ∨
    c.toNat = 0x85 ∨ c.toNat = 0xa0 ∨ c.toNat = 0x1680 ∨ 0x2000 ≤ c.toNat ∧ c.toNat ≤ 0x200a ∨
    c.toNat = 0x2028 ∨ c.toNat = 0x2029 ∨ c.toNat = 0x202f ∨ c.toNat = 0x205f ∨
    c.toNat = 0x3000 := by
  simp [isBlank, or_assoc]

theorem isBlank_toLower (c : Char) : isBlank c.toLower = isBlank c := by
  rw [Bool.eq_iff_iff, isBlank_iff, isBlank_iff, toNat_toLower]
  split <;> omega

/-! ## Plain characters -/

def isPlain (c : Char) : Bool :=
  isBlank c || c.toNat < 128 && c.toNat != 75 && c.toNat != 107

theorem isPlain_iff {c : Char} : isPlain c = true ↔
    isBlank c = true ∨ c.toNat < 128 ∧ c.toNat ≠ 75 ∧ c.toNat ≠ 107 := by
  simp [isPlain, and_assoc]

theorem isPlain_toLower (c : Char) : isPlain c.toLower = isPlain c := by
  rw [Bool.eq_iff_iff, isPlain_iff, isPlain_iff, isBlank_toLower, isBlank_iff, toNat_toLower]
  split <;> omega

theorem isPlain_toUpper (c : Char) : isPlain c.toUpper = isPlain c := by
  rw [Bool.eq_iff_iff, isPlain_iff, isPlain_iff, isBlank_iff, isBlank_iff, toNat_toUpper]
  split <;> omega

/-- A text that is a plain one but for its case. -/
theorem isPlain_of_map {f : Char → Char} (hf : ∀ c, isPlain (f c) = isPlain c)
    {words : List (List Char)} (hwords : (words.all fun word => word.all isPlain) = true)
    {cs : List Char} (h : cs.map f ∈ words) : ∀ c ∈ cs, isPlain c = true := by
  intro c hc
  rw [← hf]
  exact List.all_eq_true.mp (List.all_eq_true.mp hwords _ h) _ (List.mem_map_of_mem hc)

/-- Ranges of code points, their ends left out, that no plain character lies in: the capital K, the
small one, and what lies between the blanks beyond ASCII, but for the surrogates. -/
def plainGaps : List (Nat × Nat) :=
  [(74, 76), (106, 108), (0x7f, 0x85), (0x85, 0xa0), (0xa0, 0x1680), (0x1680, 0x2000),
    (0x200a, 0x2028), (0x2029, 0x202f), (0x202f, 0x205f), (0x205f, 0x3000), (0x3000, 0xd800),
    (0xdfff, 0x110000)]

/-- Whether the code points from the first to the last lie in one gap. -/
def avoidsPlain (first last : Nat) : Bool :=
  plainGaps.any fun (low, high) => low < first && last < high

theorem not_isPlain_of_avoidsPlain {first last n : Nat} (h : avoidsPlain first last = true)
    (hfirst : first ≤ n) (hlast : n ≤ last) : isPlain (Char.ofNat n) = false := by
  obtain ⟨⟨low, high⟩, hgap, hin⟩ := List.any_eq_true.mp h
  simp only [Bool.and_eq_true, decide_eq_true_eq] at hin
  simp only [plainGaps, List.mem_cons, Prod.mk.injEq, List.not_mem_nil, or_false] at hgap
  have hvalid : n.isValidChar := by
    unfold Nat.isValidChar
    omega
  have hn := toNat_ofNat hvalid
  rw [Bool.eq_false_iff, ne_eq, isPlain_iff, isBlank_iff, hn]
  omega

/-- Beyond the ASCII letters the case data lead from characters that are not plain to others. -/
theorem tail_lowerRuns_avoids : (lowerRuns.tail.all fun run => avoidsPlain run.first run.last &&
    avoidsPlain (run.first + run.shift).toNat (run.last + run.shift).toNat) = true := by
  decide +kernel

/-- Lower-casing lowers a character as an ASCII letter, or turns one that is not plain into others
of the kind. -/
theorem lowerOf_cases (c : Char) : lowerOf c = [c.toLower] ∨
    isPlain c = false ∧ ∃ d ∈ lowerOf c, isPlain d = false := by
  unfold lowerOf
  by_cases hdot : c = 'İ'
  · rw [if_pos hdot, hdot]
    exact .inr ⟨by decide, '\u0307', by simp, by decide⟩
  rw [if_neg hdot]
  cases hfind : lowerRuns.find? (·.covers c.toNat) with
  | none =>
    have hhead := List.find?_eq_none.mp hfind ⟨0x41, 0x5a, 1, 32⟩
      (List.mem_cons_self : _ ∈ _ :: lowerRuns.tail)
    have hsame : c.toLower = c := by
      rw [← Char.toNat_inj, toNat_toLower]
      simp only [CaseRun.covers] at hhead
      grind
    exact .inl (by rw [hsame])
  | some run =>
    have hcovers := List.find?_some hfind
    have hmem : run ∈ lowerRuns := List.mem_of_find?_eq_some hfind
    simp only [CaseRun.covers, Bool.and_eq_true, decide_eq_true_eq] at hcovers
    obtain ⟨⟨hfirst, hlast⟩, -⟩ := hcovers
    rw [show lowerRuns = ⟨0x41, 0x5a, 1, 32⟩ :: lowerRuns.tail from rfl] at hmem
    rcases List.mem_cons.mp hmem with rfl | hmem
    · left
      simp only at hfirst hlast
      have hlower : c.toLower = Char.ofNat (c.toNat + 32) := by
        rw [← Char.toNat_inj, toNat_toLower, toNat_ofNat]
        · grind
        · unfold Nat.isValidChar
          omega
      rw [hlower]
      rfl
    · right
      obtain ⟨hsource, htarget⟩ :=
        Bool.and_eq_true_iff.mp (List.all_eq_true.mp tail_lowerRuns_avoids run hmem)
      refine ⟨?_, _, List.mem_singleton_self _, ?_⟩
      · rw [← Char.ofNat_toNat c]
        exact not_isPlain_of_avoidsPlain hsource hfirst hlast
      · exact not_isPlain_of_avoidsPlain htarget (by omega) (by omega)

/-- Text that is plain, or that comes out plain, is lower-cased as ASCII is. -/
theorem lowerAfter_eq_map {before cs : List Char}
    (h : (∀ c ∈ cs, isPlain c = true) ∨ ∀ d ∈ lowerAfter before cs, isPlain d = true) :
    lowerAfter before cs = cs.map Char.toLower := by
  induction cs generalizing before with
  | nil => rfl
  | cons c cs ih =>
    unfold lowerAfter at h ⊢
    by_cases hsigma : c = 'Σ'
    · simp only [if_pos hsigma] at h
      rcases h with h | h
      · have hplain := h c List.mem_cons_self
        rw [hsigma] at hplain
        exact absurd hplain (by decide)
      · have hplain := h _ (List.mem_append_left _ (List.mem_singleton_self _))
        split at hplain <;> exact absurd hplain (by decide)
    · simp only [if_neg hsigma] at h ⊢
      have hrest : lowerAfter (c :: before) cs = cs.map Char.toLower := by
        refine ih (h.imp ?_ ?_)
        · exact fun h d hd => h d (List.mem_cons_of_mem c hd)
        · exact fun h d hd => h d (List.mem_append_right _ hd)
      rcases lowerOf_cases c with hc | ⟨hsource, d, hd, htarget⟩
      · rw [hc, hrest]
        rfl
      · rcases h with h | h
        · rw [h c List.mem_cons_self] at hsource
          cases hsource
        · rw [h d (List.mem_append_left _ hd)] at htarget
          cases htarget

/-- Of two texts with one lower case, one of which is plain, both have one ASCII lower case. -/
theorem map_toLower_eq {a b : List Char} (ha : ∀ c ∈ a, isPlain c = true)
    (h : lowercase a = lowercase b) : a.map Char.toLower = b.map Char.toLower := by
  have hla : lowercase a = a.map Char.toLower := lowerAfter_eq_map (.inl ha)
  have hplain : ∀ d ∈ lowercase b, isPlain d = true := by
    rw [← h, hla, List.forall_mem_map]
    intro c hc
    rw [isPlain_toLower]
    exact ha c hc
  have hlb : lowercase b = b.map Char.toLower := lowerAfter_eq_map (.inr hplain)
  rw [← hla, h, hlb]

/-! ## Readers -/

/-- A reader of plain texts that does not see the case of ASCII letters. -/
structure ReadsPlain {α : Type} (read : List Char → Option α) : Prop where
  plain : ∀ {cs : List Char} {a : α}, read cs = some a → ∀ c ∈ cs, isPlain c = true
  lower : ∀ cs : List Char, read (cs.map Char.toLower) = read cs

theorem ReadsPlain.eq_of_lowercase {α : Type} {read : List Char → Option α}
    (hread : ReadsPlain read) {a b : List Char} (h : lowercase a = lowercase b) :
    read a = read b := by
  have hsame {a b : List Char} {x : α} (h : lowercase a = lowercase b) (hx : read a = some x) :
      read b = some x := by
    rw [← hread.lower b, ← map_toLower_eq (hread.plain hx) h, hread.lower a, hx]
  cases ha : read a with
  | some x => exact (hsame h ha).symm
  | none =>
    cases hb : read b with
    | none => rfl
    | some y =>
      rw [hsame h.symm hb] at ha
      cases ha

/-! ## Trimming and cutting -/

theorem map_dropWhile_isBlank (cs : List Char) : (cs.map Char.toLower).dropWhile isBlank =
    (cs.dropWhile isBlank).map Char.toLower := by
  have hblank : isBlank ∘ Char.toLower = isBlank := funext isBlank_toLower
  rw [List.dropWhile_map, hblank]

theorem trim_map_toLower (cs : List Char) :
    trim (cs.map Char.toLower) = (trim cs).map Char.toLower := by
  unfold trim
  rw [map_dropWhile_isBlank, ← List.map_reverse, map_dropWhile_isBlank, List.map_reverse]

theorem isPlain_of_dropWhile {cs : List Char}
    (h : ∀ c ∈ cs.dropWhile isBlank, isPlain c = true) : ∀ c ∈ cs, isPlain c = true := by
  intro c hc
  rw [← List.takeWhile_append_dropWhile (p := isBlank) (l := cs)] at hc
  rcases List.mem_append.mp hc with hc | hc
  · exact isPlain_iff.mpr (.inl (List.all_eq_true.mp List.all_takeWhile c hc))
  · exact h c hc

theorem isPlain_of_trim {cs : List Char} (h : ∀ c ∈ trim cs, isPlain c = true) :
    ∀ c ∈ cs, isPlain c = true := by
  refine isPlain_of_dropWhile fun c hc => ?_
  have hreversed : ∀ d ∈ (cs.dropWhile isBlank).reverse, isPlain d = true :=
    isPlain_of_dropWhile fun d hd => h d (List.mem_reverse.mpr hd)
  exact hreversed c (List.mem_reverse.mpr hc)

theorem ReadsPlain.trim {α : Type} {read : List Char → Option α} (hread : ReadsPlain read) :
    ReadsPlain fun cs => read (trim cs) where
  plain h := isPlain_of_trim (hread.plain h)
  lower cs := by rw [trim_map_toLower, hread.lower]

theorem cut_map {p : Char → Bool} {f : Char → Char} (h : ∀ c, p (f c) = p c) (cs : List Char) :
    cut p (cs.map f) = (cut p cs).map (List.map f) := by
  induction cs with
  | nil => rfl
  | cons c cs ih =>
    rw [List.map_cons]
    unfold cut
    rw [h c, ih]
    cases p c with
    | true => rfl
    | false => cases cut p cs <;> rfl

/-- What holds of the separators and of the pieces holds of the text. -/
theorem forall_mem_of_cut {p : Char → Bool} {P : Char → Prop} (hp : ∀ c, p c = true → P c)
    {cs : List Char} (h : ∀ piece ∈ cut p cs, ∀ c ∈ piece, P c) : ∀ c ∈ cs, P c := by
  induction cs with
  | nil => simp
  | cons c cs ih =>
    unfold cut at h
    rw [List.forall_mem_cons]
    cases hc : p c with
    | true =>
      rw [if_pos hc, List.forall_mem_cons] at h
      exact ⟨hp c hc, ih h.2⟩
    | false =>
      rw [if_neg (by simp [hc])] at h
      cases hcut : cut p cs with
      | nil => exact absurd hcut (cut_ne_nil p cs)
      | cons piece pieces =>
        rw [hcut] at h ih
        obtain ⟨hhead, htail⟩ := List.forall_mem_cons.mp h
        obtain ⟨hhere, hpiece⟩ := List.forall_mem_cons.mp hhead
        exact ⟨hhere, ih (List.forall_mem_cons.mpr ⟨hpiece, htail⟩)⟩

theorem words_map_toLower (cs : List Char) :
    words (cs.map Char.toLower) = (words cs).map (List.map Char.toLower) := by
  have hempty : (fun piece : List Char => !piece.isEmpty) ∘ List.map Char.toLower =
      fun piece => !piece.isEmpty := by
    funext piece
    simp
  unfold words
  rw [cut_map isBlank_toLower, List.filter_map, hempty]

theorem isPlain_of_words {cs : List Char} (h : ∀ word ∈ words cs, ∀ c ∈ word, isPlain c = true) :
    ∀ c ∈ cs, isPlain c = true := by
  refine forall_mem_of_cut (fun c hc => isPlain_iff.mpr (.inl hc)) fun piece hpiece c hc => ?_
  refine h piece (List.mem_filter.mpr ⟨hpiece, ?_⟩) c hc
  cases piece with
  | nil => cases hc
  | cons => rfl

end QueryPredicates.Text
