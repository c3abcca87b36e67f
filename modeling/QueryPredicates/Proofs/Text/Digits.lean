import QueryPredicates.Text.Digits
import Mathlib.Data.List.Basic

/-! Integers written in decimal. What is written is read as the integer that was written, so no two
integers are written alike; and it is made of digits and a sign, so it is over where another character
follows. -/

namespace QueryPredicates.Text

theorem value_toDigits (n : Nat) : value (Nat.toDigits 10 n) = n :=
  Nat.ofDigitChars_eq_foldl.symm.trans Nat.ofDigitChars_ten_toDigits

theorem isDigit_of_mem_toDigits {n : Nat} {c : Char} (h : c ∈ Nat.toDigits 10 n) :
    isDigit c = true := by
  have hc := Nat.isDigit_of_mem_toDigits (by omega) (by omega) h
  simp only [Char.isDigit, Bool.and_eq_true, decide_eq_true_eq, ge_iff_le,
    UInt32.le_iff_toNat_le] at hc
  exact isDigit_iff.mpr hc

theorem toList_toString (n : Int) : (toString n).toList =
    if 0 ≤ n then Nat.toDigits 10 n.toNat else '-' :: Nat.toDigits 10 (-n).toNat := by
  rw [Int.toString_eq_repr, Int.repr_eq_if]
  split
  · rw [Nat.toList_repr]
  · rw [String.toList_append, Nat.toList_repr]
    rfl

theorem sign_of_isDigit {c : Char} {cs : List Char} (h : isDigit c = true) :
    sign (c :: cs) = (false, c :: cs) := by
  have hminus : c ≠ '-' := fun hc => by simp [hc, isDigit] at h
  have hplus : c ≠ '+' := fun hc => by simp [hc, isDigit] at h
  simp [sign, hminus, hplus]

/-- An integer is read from its text. -/
theorem readInteger?_toString (n : Int) : readInteger? (toString n).toList = some n := by
  have hdigits (m : Nat) : (Nat.toDigits 10 m).all isDigit = true :=
    List.all_eq_true.mpr fun c hc => isDigit_of_mem_toDigits hc
  have hne (m : Nat) : (Nat.toDigits 10 m).isEmpty = false :=
    List.isEmpty_eq_false_iff.mpr Nat.toDigits_ne_nil
  rw [toList_toString]
  split
  · rename_i hn
    have hsign : sign (Nat.toDigits 10 n.toNat) = (false, Nat.toDigits 10 n.toNat) := by
      obtain ⟨c, cs, hcs⟩ := List.exists_cons_of_ne_nil (Nat.toDigits_ne_nil (n := n.toNat) (b := 10))
      have hc := List.all_eq_true.mp (hdigits n.toNat) c (hcs ▸ List.mem_cons_self)
      rw [hcs, sign_of_isDigit hc]
    simp [readInteger?, hsign, hdigits, hne, value_toDigits, Int.toNat_of_nonneg hn]
  · rename_i hn
    simp [readInteger?, sign, hdigits, hne, value_toDigits]
    omega

/-- Two runs of characters of one kind, each as long as can be, that begin one text are one run. -/
theorem run_append_inj {p : Char → Bool} {run run' rest rest' : List Char}
    (h : ∀ c ∈ run, p c = true) (h' : ∀ c ∈ run', p c = true)
    (hrest : ∀ c ∈ rest.head?, p c = false) (hrest' : ∀ c ∈ rest'.head?, p c = false)
    (heq : run ++ rest = run' ++ rest') : run = run' ∧ rest = rest' := by
  have hstop {rest : List Char} (hrest : ∀ c ∈ rest.head?, p c = false) :
      rest.takeWhile p = [] := by
    cases rest with
    | nil => rfl
    | cons c cs => simp [hrest c rfl]
  have htake := congrArg (List.takeWhile p) heq
  rw [List.takeWhile_append_of_pos h, List.takeWhile_append_of_pos h', hstop hrest, hstop hrest',
    List.append_nil, List.append_nil] at htake
  subst htake
  exact ⟨rfl, List.append_cancel_left heq⟩

/-- The characters that integers are written with. -/
def isNumeral (c : Char) : Bool := c == '-' || isDigit c

theorem isNumeral_of_mem_toString {n : Int} {c : Char} (h : c ∈ (toString n).toList) :
    isNumeral c = true := by
  rw [toList_toString] at h
  unfold isNumeral
  split at h
  · simp [isDigit_of_mem_toDigits h]
  · rcases List.mem_cons.mp h with rfl | h
    · rfl
    · simp [isDigit_of_mem_toDigits h]

/-- Where two integers begin one text and neither goes on, they are one. -/
theorem toString_append_inj {m n : Int} {rest rest' : List Char}
    (hrest : ∀ c ∈ rest.head?, isNumeral c = false)
    (hrest' : ∀ c ∈ rest'.head?, isNumeral c = false)
    (h : (toString m).toList ++ rest = (toString n).toList ++ rest') : m = n ∧ rest = rest' := by
  obtain ⟨hrun, rfl⟩ := run_append_inj (fun _ => isNumeral_of_mem_toString)
    (fun _ => isNumeral_of_mem_toString) hrest hrest' h
  have hread := readInteger?_toString m
  rw [hrun, readInteger?_toString] at hread
  exact ⟨(Option.some.inj hread).symm, rfl⟩

end QueryPredicates.Text
