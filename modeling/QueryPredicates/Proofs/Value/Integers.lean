import QueryPredicates.Proofs.Text.Digits
import QueryPredicates.Proofs.Text.Words
import QueryPredicates.Proofs.Value.Reading
import Mathlib.Algebra.Group.Int.Defs
import Mathlib.Data.List.Induction

/-! Integers in text. The numerals are given by a grammar: decimals digit by digit, with or without a sign.
Reading accepts exactly those, however many zeros they begin with; a text is converted to an integer type
exactly if it is the numeral of an integer that the type has, with nothing but blanks around it. What is
written for an integer is such a numeral, so integers come back unchanged through text. -/

namespace QueryPredicates

namespace Text

/-! ## Numerals -/

/-- One digit or more, and the number that they denote. -/
inductive Decimal : List Char → Nat → Prop
  | digit {c : Char} (h : isDigit c = true) : Decimal [c] (digitValue c)
  | append {cs : List Char} {n : Nat} {c : Char} (hcs : Decimal cs n) (h : isDigit c = true) :
      Decimal (cs ++ [c]) (10 * n + digitValue c)

/-- A decimal that may have a sign, and the integer that it denotes. -/
inductive Denotes : List Char → Int → Prop
  | unsigned {cs : List Char} {n : Nat} (h : Decimal cs n) : Denotes cs n
  | plus {cs : List Char} {n : Nat} (h : Decimal cs n) : Denotes ('+' :: cs) n
  | minus {cs : List Char} {n : Nat} (h : Decimal cs n) : Denotes ('-' :: cs) (-n)

theorem value_append_digit (cs : List Char) (c : Char) :
    value (cs ++ [c]) = 10 * value cs + digitValue c := by
  simp [value]

theorem decimal_iff {cs : List Char} {n : Nat} :
    Decimal cs n ↔ cs ≠ [] ∧ (∀ c ∈ cs, isDigit c = true) ∧ value cs = n := by
  constructor
  · intro h
    induction h with
    | digit h => simpa [value] using h
    | append hcs h ih =>
      obtain ⟨-, hdigits, rfl⟩ := ih
      refine ⟨by simp, ?_, value_append_digit _ _⟩
      exact List.forall_mem_append.mpr ⟨hdigits, List.forall_mem_singleton.mpr h⟩
  · rintro ⟨hne, hdigits, rfl⟩
    induction cs using List.reverseRecOn with
    | nil => exact absurd rfl hne
    | append_singleton cs c ih =>
      obtain ⟨hcs, hc⟩ := List.forall_mem_append.mp hdigits
      have hdigit := hc c (List.mem_singleton_self c)
      rw [value_append_digit]
      by_cases hnil : cs = []
      · rw [hnil]
        simpa [value] using Decimal.digit hdigit
      · exact .append (ih hnil hcs) hdigit

theorem Decimal.sign_eq {cs : List Char} {n : Nat} (h : Decimal cs n) : sign cs = (false, cs) := by
  obtain ⟨hne, hdigits, -⟩ := decimal_iff.mp h
  obtain ⟨c, cs, rfl⟩ := List.exists_cons_of_ne_nil hne
  exact sign_of_isDigit (hdigits c List.mem_cons_self)

theorem denotes_iff {cs : List Char} {n : Int} : Denotes cs n ↔
    ∃ m, Decimal (sign cs).2 m ∧ n = if (sign cs).1 then -(m : Int) else m := by
  constructor
  · rintro (h | h | h)
    · exact ⟨_, by rwa [h.sign_eq], by rw [h.sign_eq]; rfl⟩
    · exact ⟨_, h, rfl⟩
    · exact ⟨_, h, rfl⟩
  · rintro ⟨m, h, rfl⟩
    unfold sign at h ⊢
    split at h
    · exact .minus h
    · exact .plus h
    · exact .unsigned h

/-- Exactly the numerals are read, each as what it denotes. -/
theorem readInteger?_eq_some_iff {cs : List Char} {n : Int} :
    readInteger? cs = some n ↔ Denotes cs n := by
  have hdecimal (m : Nat) : Decimal (sign cs).2 m ↔
      ((sign cs).2.isEmpty || !(sign cs).2.all isDigit) = false ∧ value (sign cs).2 = m := by
    rw [decimal_iff, ← and_assoc]
    simp
  rw [readInteger?_eq, denotes_iff]
  simp only [hdecimal]
  cases (sign cs).2.isEmpty || !(sign cs).2.all isDigit with
  | true => simp
  | false => simp [eq_comm (b := n)]

/-! ## Blanks around a numeral -/

/-- The text is a numeral of the integer, with nothing but blanks around it. -/
def Spells (s : String) (n : Int) : Prop :=
  ∃ lead numeral tail, s.toList = lead ++ numeral ++ tail ∧ (∀ c ∈ lead, isBlank c = true) ∧
    (∀ c ∈ tail, isBlank c = true) ∧ Denotes numeral n

theorem Denotes.ne_nil {cs : List Char} {n : Int} (h : Denotes cs n) : cs ≠ [] := by
  cases h with
  | unsigned h => exact (decimal_iff.mp h).1
  | plus | minus => exact List.cons_ne_nil _ _

theorem Denotes.not_isBlank {cs : List Char} {n : Int} (h : Denotes cs n) :
    ∀ c ∈ cs, isBlank c = false := by
  have hdigits {cs : List Char} {n : Nat} (h : Decimal cs n) : ∀ c ∈ cs, isBlank c = false := by
    intro c hc
    have hdigit := isDigit_iff.mp ((decimal_iff.mp h).2.1 c hc)
    rw [Bool.eq_false_iff, ne_eq, isBlank_iff]
    omega
  cases h with
  | unsigned h => exact hdigits h
  | plus h | minus h => exact List.forall_mem_cons.mpr ⟨by decide, hdigits h⟩

theorem readInteger?_trim_iff {s : String} {n : Int} :
    readInteger? (trim s.toList) = some n ↔ Spells s n := by
  rw [readInteger?_eq_some_iff]
  constructor
  · intro h
    obtain ⟨lead, tail, heq, hlead, htail⟩ := exists_blanks_around s.toList
    exact ⟨lead, _, tail, heq, hlead, htail, h⟩
  · rintro ⟨lead, numeral, tail, heq, hlead, htail, h⟩
    rwa [heq, trim_append hlead htail h.ne_nil h.not_isBlank]

/-- What is written for an integer spells it, with blanks around it too. -/
theorem spells_toString (n : Int) {lead tail : String} (hlead : ∀ c ∈ lead.toList, isBlank c = true)
    (htail : ∀ c ∈ tail.toList, isBlank c = true) : Spells (lead ++ toString n ++ tail) n := by
  refine ⟨lead.toList, (toString n).toList, tail.toList, ?_, hlead, htail, ?_⟩
  · rw [String.toList_append, String.toList_append]
  · exact readInteger?_eq_some_iff.mp (readInteger?_toString n)

end Text

namespace Value
open Text

/-! ## Conversion -/

theorem inInt64_iff {n : Int} : inInt64 n = true ↔ -2 ^ 63 ≤ n ∧ n < 2 ^ 63 := by
  have hmin : Int64.minValue.toInt = -2 ^ 63 := by decide
  have hmax : Int64.maxValue.toInt = 2 ^ 63 - 1 := by decide
  rw [inInt64, Bool.and_eq_true, decide_eq_true_eq, decide_eq_true_eq, hmin, hmax]
  omega

theorem inInt32_iff {n : Int} : inInt32 n = true ↔ -2 ^ 31 ≤ n ∧ n < 2 ^ 31 := by
  have hmin : Int32.minValue.toInt = -2 ^ 31 := by decide
  have hmax : Int32.maxValue.toInt = 2 ^ 31 - 1 := by decide
  rw [inInt32, Bool.and_eq_true, decide_eq_true_eq, decide_eq_true_eq, hmin, hmax]
  omega

theorem readInt64?_eq_some_iff {s : String} {m : Int64} :
    readInt64? s.toList = some m ↔ Spells s m.toInt := by
  rw [← readInteger?_trim_iff, readInt64?]
  cases readInteger? (trim s.toList) with
  | none => exact iff_of_false nofun nofun
  | some n =>
    by_cases hn : inInt64 n = true
    · obtain ⟨hlow, hhigh⟩ := inInt64_iff.mp hn
      simp only [hn, if_true, Option.some.injEq]
      constructor
      · rintro rfl
        exact (Int64.toInt_ofInt_of_le hlow hhigh).symm
      · rintro rfl
        exact Int64.ofInt_toInt m
    · simp only [hn, Bool.false_eq_true, if_false, Option.some.injEq]
      refine iff_of_false nofun ?_
      rintro rfl
      exact hn (inInt64_iff.mpr ⟨m.le_toInt, m.toInt_lt⟩)

section

variable {make : String → Value} (hmake : make = text ∨ make = textIgnoreCase)
include hmake

theorem convert_bigInt_eq (s : String) : (make s).convert .bigInt =
    (readInt64? s.toList).elim (.error (.unsupported (make s) .bigInt)) fun m => .ok (bigInt m) := by
  obtain rfl | rfl := hmake <;>
  · simp only [convert, toBigInt, isNull, type]
    cases readInt64? s.toList <;> rfl

theorem convert_int_eq (s : String) : (make s).convert .int =
    (readInt64? s.toList).elim (.error (.unsupported (make s) .bigInt)) fun m =>
      if inInt32 m.toInt then .ok (int (.ofInt m.toInt)) else .error (.outOfRange (make s) .int) := by
  obtain rfl | rfl := hmake <;>
  · simp only [convert, toInt, toBigInt, isNull, type]
    cases readInt64? s.toList with
    | none => rfl
    | some m =>
      show int <$> (if inInt32 m.toInt then .ok (.ofInt m.toInt) else .error _ : Converted Int32) = _
      rw [Option.elim_some]
      split <;> rfl

theorem convert_bigInt_eq_ok_iff {s : String} {w : Value} : (make s).convert .bigInt = .ok w ↔
    ∃ n, Spells s n ∧ -2 ^ 63 ≤ n ∧ n < 2 ^ 63 ∧ w = bigInt (.ofInt n) := by
  rw [convert_bigInt_eq hmake]
  constructor
  · intro h
    cases hread : readInt64? s.toList with
    | none =>
      rw [hread] at h
      cases h
    | some m =>
      rw [hread] at h
      cases h
      exact ⟨m.toInt, readInt64?_eq_some_iff.mp hread, m.le_toInt, m.toInt_lt,
        by rw [Int64.ofInt_toInt]⟩
  · rintro ⟨n, hs, hlow, hhigh, rfl⟩
    have hread : readInt64? s.toList = some (.ofInt n) := by
      rwa [readInt64?_eq_some_iff, Int64.toInt_ofInt_of_le hlow hhigh]
    rw [hread]
    rfl

theorem convert_int_eq_ok_iff {s : String} {w : Value} : (make s).convert .int = .ok w ↔
    ∃ n, Spells s n ∧ -2 ^ 31 ≤ n ∧ n < 2 ^ 31 ∧ w = int (.ofInt n) := by
  rw [convert_int_eq hmake]
  constructor
  · intro h
    cases hread : readInt64? s.toList with
    | none =>
      rw [hread] at h
      cases h
    | some m =>
      rw [hread, Option.elim_some] at h
      split at h
      · rename_i hin
        cases h
        obtain ⟨hlow, hhigh⟩ := inInt32_iff.mp hin
        exact ⟨m.toInt, readInt64?_eq_some_iff.mp hread, hlow, hhigh, rfl⟩
      · cases h
  · rintro ⟨n, hs, hlow, hhigh, rfl⟩
    have hn : (Int64.ofInt n).toInt = n := Int64.toInt_ofInt_of_le (by omega) (by omega)
    have hread : readInt64? s.toList = some (.ofInt n) := by
      rwa [readInt64?_eq_some_iff, hn]
    rw [hread, Option.elim_some, hn, if_pos (inInt32_iff.mpr ⟨hlow, hhigh⟩)]

/-- The errors: a text without a big integer is refused as such, whichever integer type is asked for;
a big integer that is no integer is out of range. -/
theorem convert_integer_errors (s : String) :
    ((∀ w, (make s).convert .bigInt ≠ .ok w) →
      (make s).convert .bigInt = .error (.unsupported (make s) .bigInt) ∧
        (make s).convert .int = .error (.unsupported (make s) .bigInt)) ∧
    ∀ w, (make s).convert .bigInt = .ok w → (∀ w', (make s).convert .int ≠ .ok w') →
      (make s).convert .int = .error (.outOfRange (make s) .int) := by
  rw [convert_bigInt_eq hmake, convert_int_eq hmake]
  cases readInt64? s.toList with
  | none => exact ⟨fun _ => ⟨rfl, rfl⟩, nofun⟩
  | some m =>
    refine ⟨fun h => absurd rfl (h (bigInt m)), fun w _ h => ?_⟩
    rw [Option.elim_some] at h ⊢
    split
    · rename_i hin
      rw [if_pos hin] at h
      exact absurd rfl (h _)
    · rfl

/-- An integer that is written as text. -/
theorem convert_integer_text (v : Value) (h : v.type = .int ∨ v.type = .bigInt) :
    v.convert (make v.sql).type = .ok (make v.sql) := by
  obtain rfl | rfl := hmake <;> cases v <;> first | rfl | simp [type] at h

/-- Text is converted to an integer type exactly if it is a numeral with blanks around it whose integer
the type has. What has no big integer is unsupported, and what has one but no integer out of range. So
integers of both widths come back from their texts, with any blanks around those. -/
theorem integers_of_text :
    (∀ s w, (make s).convert .bigInt = .ok w ↔
      ∃ n, Spells s n ∧ -2 ^ 63 ≤ n ∧ n < 2 ^ 63 ∧ w = bigInt (.ofInt n)) ∧
    (∀ s w, (make s).convert .int = .ok w ↔
      ∃ n, Spells s n ∧ -2 ^ 31 ≤ n ∧ n < 2 ^ 31 ∧ w = int (.ofInt n)) ∧
    (∀ s, ((∀ w, (make s).convert .bigInt ≠ .ok w) →
        (make s).convert .bigInt = .error (.unsupported (make s) .bigInt) ∧
          (make s).convert .int = .error (.unsupported (make s) .bigInt)) ∧
      ∀ w, (make s).convert .bigInt = .ok w → (∀ w', (make s).convert .int ≠ .ok w') →
        (make s).convert .int = .error (.outOfRange (make s) .int)) ∧
    ∀ lead tail : String, (∀ c ∈ lead.toList, isBlank c = true) →
      (∀ c ∈ tail.toList, isBlank c = true) →
        (∀ n : Int64, ∃ t, (bigInt n).convert (make t).type = .ok (make t) ∧
          (make (lead ++ t ++ tail)).convert .bigInt = .ok (bigInt n)) ∧
        ∀ n : Int32, ∃ t, (int n).convert (make t).type = .ok (make t) ∧
          (make (lead ++ t ++ tail)).convert .int = .ok (int n) := by
  refine ⟨fun s w => convert_bigInt_eq_ok_iff hmake, fun s w => convert_int_eq_ok_iff hmake,
    convert_integer_errors hmake, fun lead tail hlead htail => ⟨fun n => ?_, fun n => ?_⟩⟩
  · refine ⟨_, convert_integer_text hmake (bigInt n) (.inr rfl), ?_⟩
    exact (convert_bigInt_eq_ok_iff hmake).mpr ⟨n.toInt, spells_toString n.toInt hlead htail,
      n.le_toInt, n.toInt_lt, by rw [Int64.ofInt_toInt]⟩
  · refine ⟨_, convert_integer_text hmake (int n) (.inl rfl), ?_⟩
    exact (convert_int_eq_ok_iff hmake).mpr ⟨n.toInt, spells_toString n.toInt hlead htail,
      n.le_toInt, n.toInt_lt, by rw [Int32.ofInt_toInt]⟩

end

/-- The least big integer is read behind zeros and blanks; the number after the greatest integer is out of
range for integers; a sign alone is no numeral. -/
theorem integers_of_text_limits :
    (text "\t-009223372036854775808 ").convert .bigInt = .ok (bigInt Int64.minValue) ∧
      (text "+2147483648").convert .int = .error (.outOfRange (text "+2147483648") .int) ∧
      (text " + ").convert .int = .error (.unsupported (text " + ") .bigInt) ∧
      ∃ t, (int Int32.minValue).convert .text = .ok (text t) ∧
        (text (" " ++ t ++ "\n")).convert .int = .ok (int Int32.minValue) := by
  have hmake : text = text ∨ text = textIgnoreCase := .inl rfl
  obtain ⟨hwide, hnarrow, herror, hback⟩ := integers_of_text hmake
  have hspells {s : String} {n : Int} (h : readInteger? (trim s.toList) = some n) : Spells s n :=
    readInteger?_trim_iff.mp h
  have hread {s : String} {n m : Int} (h : readInteger? (trim s.toList) = some n)
      (hm : Spells s m) : n = m :=
    Option.some.inj (h.symm.trans (readInteger?_trim_iff.mpr hm))
  refine ⟨?_, ?_, ?_, (hback " " "\n" (by simp [isBlank]) (by simp [isBlank])).2 _⟩
  · exact (hwide _ _).mpr ⟨-2 ^ 63, hspells (by decide), by decide, by decide, rfl⟩
  · refine (herror _).2 _ ((hwide _ _).mpr ⟨2 ^ 31, hspells (by decide), by decide, by decide, rfl⟩) ?_
    intro w hw
    obtain ⟨n, hn, -, hlt, -⟩ := (hnarrow _ w).mp hw
    have hsame : (2 ^ 31 : Int) = n := hread (by decide) hn
    omega
  · refine ((herror _).1 ?_).2
    intro w hw
    obtain ⟨n, hn, -⟩ := (hwide _ w).mp hw
    have hnone : readInteger? (trim " + ".toList) = none := by decide
    rw [← readInteger?_trim_iff, hnone] at hn
    cases hn

end Value
end QueryPredicates
