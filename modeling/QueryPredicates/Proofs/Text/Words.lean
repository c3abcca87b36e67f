import QueryPredicates.Text.Split

/-! The words of a text that is put together from others. A blank ends one word and may begin another,
so the words on either side of it are those of the two parts; blanks before or behind add none. A text
that neither begins nor ends in a blank has nothing to trim. -/

namespace QueryPredicates.Text

theorem cut_eq_splitOnP (p : Char → Bool) (cs : List Char) : cut p cs = cs.splitOnP p := by
  induction cs with
  | nil => rfl
  | cons c cs ih =>
    rw [List.splitOnP_cons_eq_if_modifyHead, cut, ih]
    split
    · rfl
    · obtain ⟨piece, pieces, hpieces⟩ := List.exists_cons_of_ne_nil (List.splitOnP_ne_nil p cs)
      rw [hpieces]
      rfl

theorem words_append_cons {c : Char} (h : isBlank c = true) (before after : List Char) :
    words (before ++ c :: after) = words before ++ words after := by
  simp only [words, cut_eq_splitOnP, List.splitOnP_append_cons _ _ h, List.filter_append]

theorem words_of_word {word : List Char} (hne : word ≠ []) (h : ∀ c ∈ word, isBlank c = false) :
    words word = [word] := by
  simp [words, cut_eq_splitOnP, List.splitOnP_eq_singleton h, hne]

theorem words_append_left {lead : List Char} (h : ∀ c ∈ lead, isBlank c = true) (cs : List Char) :
    words (lead ++ cs) = words cs := by
  induction lead with
  | nil => rfl
  | cons c lead ih =>
    obtain ⟨hc, hlead⟩ := List.forall_mem_cons.mp h
    exact (words_append_cons hc [] (lead ++ cs)).trans (ih hlead)

theorem words_append_right {tail : List Char} (h : ∀ c ∈ tail, isBlank c = true) (cs : List Char) :
    words (cs ++ tail) = words cs := by
  cases tail with
  | nil => rw [List.append_nil]
  | cons c tail =>
    obtain ⟨hc, htail⟩ := List.forall_mem_cons.mp h
    have hnone : words tail = [] := by
      have hblank := words_append_left htail []
      rwa [List.append_nil] at hblank
    rw [words_append_cons hc, hnone, List.append_nil]

/-! ## Trimming -/

theorem trim_cons {c : Char} (h : isBlank c = true) (cs : List Char) : trim (c :: cs) = trim cs := by
  unfold trim
  rw [List.dropWhile_cons_of_pos h]

theorem trim_of_ends {first last : Char} (hfirst : isBlank first = false)
    (hlast : isBlank last = false) (inner : List Char) :
    trim (first :: (inner ++ [last])) = first :: (inner ++ [last]) := by
  have hreverse : (first :: (inner ++ [last])).reverse = last :: (first :: inner).reverse := by
    simp
  unfold trim
  rw [List.dropWhile_cons_of_neg (by simp [hfirst]), hreverse,
    List.dropWhile_cons_of_neg (by simp [hlast]), ← hreverse, List.reverse_reverse]

theorem dropWhile_isBlank_of_ne_nil {cs : List Char} (hne : cs ≠ [])
    (h : ∀ c ∈ cs, isBlank c = false) (rest : List Char) :
    (cs ++ rest).dropWhile isBlank = cs ++ rest := by
  cases cs with
  | nil => exact absurd rfl hne
  | cons c cs => exact List.dropWhile_cons_of_neg (by simp [h c List.mem_cons_self])

/-- The blanks around a text without any are what is trimmed. -/
theorem trim_append {lead cs tail : List Char} (hlead : ∀ c ∈ lead, isBlank c = true)
    (htail : ∀ c ∈ tail, isBlank c = true) (hne : cs ≠ []) (h : ∀ c ∈ cs, isBlank c = false) :
    trim (lead ++ cs ++ tail) = cs := by
  have hlast : cs.reverse.dropWhile isBlank = cs.reverse := by
    have hkept := dropWhile_isBlank_of_ne_nil (List.reverse_ne_nil_iff.mpr hne)
      (fun c hc => h c (List.mem_reverse.mp hc)) []
    rwa [List.append_nil] at hkept
  unfold trim
  rw [List.append_assoc, List.dropWhile_append_of_pos hlead, dropWhile_isBlank_of_ne_nil hne h,
    List.reverse_append, List.dropWhile_append_of_pos (fun c hc => htail c (List.mem_reverse.mp hc)),
    hlast, List.reverse_reverse]

/-- A text is the trimmed one with blanks before and behind it. -/
theorem exists_blanks_around (cs : List Char) : ∃ lead tail, cs = lead ++ trim cs ++ tail ∧
    (∀ c ∈ lead, isBlank c = true) ∧ ∀ c ∈ tail, isBlank c = true := by
  have hall (ds : List Char) : ∀ c ∈ ds.takeWhile isBlank, isBlank c = true :=
    List.all_eq_true.mp List.all_takeWhile
  generalize hrest : cs.dropWhile isBlank = rest
  have htrim : trim cs ++ (rest.reverse.takeWhile isBlank).reverse = rest := by
    rw [trim, hrest, ← List.reverse_append, List.takeWhile_append_dropWhile, List.reverse_reverse]
  refine ⟨cs.takeWhile isBlank, (rest.reverse.takeWhile isBlank).reverse, ?_, hall cs, ?_⟩
  · rw [List.append_assoc, htrim, ← hrest, List.takeWhile_append_dropWhile]
  · intro c hc
    exact hall _ c (List.mem_reverse.mp hc)

/-! ## Joining -/

theorem mem_join {separator : String} {pieces : List String} {c : Char}
    (h : c ∈ (join separator pieces).toList) :
    c ∈ separator.toList ∨ ∃ piece ∈ pieces, c ∈ piece.toList := by
  induction pieces with
  | nil => simp [join] at h
  | cons piece pieces ih =>
    cases pieces with
    | nil => exact .inr ⟨piece, List.mem_cons_self, h⟩
    | cons next pieces =>
      rw [join, String.toList_append, String.toList_append, List.mem_append, List.mem_append] at h
      · rcases h with (h | h) | h
        · exact .inr ⟨piece, List.mem_cons_self, h⟩
        · exact .inl h
        · refine (ih h).imp_right ?_
          rintro ⟨other, hother, hc⟩
          exact ⟨other, List.mem_cons_of_mem _ hother, hc⟩
      · simp

end QueryPredicates.Text
