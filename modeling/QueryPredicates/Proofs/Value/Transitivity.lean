import QueryPredicates.Proofs.Value.Canonical
import QueryPredicates.Proofs.Value.Reversal
import Mathlib.Data.List.Forall2

/-! When equality is transitive. Two values are compared in their common type, so that three of them
may be compared in three types: the integer one equals the texts 1 and 01, which differ as texts.
Equality passes on if one type serves two of the three comparisons: if the value in the middle has the
type of another one, or if the others have one type and it is promoted to theirs. To compare with an
integer the two widths are one type. Collections are compared item by item, and so are their types. -/

namespace QueryPredicates
namespace Value

/-- The values compare, and as equal. -/
def Equals (l r : Value) : Prop := compareAs .equality l r = some .eq

theorem truth_equal_iff {l r : Value} : Comparator.equal.truth l r = .holds ↔ l.Equals r := by
  show (compareAs .equality l r).elim .unknown (fun o => Truth.ofBool (o == .eq)) = .holds ↔ _
  unfold Equals
  cases compareAs .equality l r with
  | none => simp
  | some o => cases o <;> decide

theorem Equals.symm {l r : Value} (h : l.Equals r) : r.Equals l := by
  unfold Equals at h ⊢
  rw [compareAs_swap .equality l r, h]
  rfl

theorem equals_comm {l r : Value} : l.Equals r ↔ r.Equals l := ⟨.symm, .symm⟩

theorem not_equals_null_left (r : Value) : ¬null.Equals r := by
  simp [Equals, compareAs, compareWithin, isNull]

theorem not_equals_null_right (l : Value) : ¬l.Equals null := by
  rw [equals_comm]
  exact not_equals_null_left l

/-! ## Collections -/

theorem compareItems_eq_iff {order : Value → Value → Option Ordering} {as bs : List Value} :
    compareItems .equality order as bs = some .eq ↔
      List.Forall₂ (fun a b => order a b = some .eq) as bs := by
  simp only [compareItems]
  split
  · rename_i hlen
    induction as generalizing bs with
    | nil =>
      rw [List.eq_nil_of_length_eq_zero hlen.symm]
      exact iff_of_true rfl .nil
    | cons a as ih =>
      cases bs with
      | nil => cases hlen
      | cons b bs =>
        rw [List.forall₂_cons, ← ih (Nat.succ.inj hlen)]
        rw [equateItems]
        cases order a b with
        | none =>
          cases equateItems order as bs with
          | none => simp
          | some o => cases o <;> simp
        | some o => cases o <;> simp
  · rename_i hlen
    refine iff_of_false ?_ fun h => hlen h.length_eq
    rw [Option.some.injEq, Nat.compare_eq_eq]
    exact hlen

theorem items_of_isScalar {v : Value} (hv : v.type.isScalar = true) : v.items = [v] := by
  cases v <;> first | rfl | cases hv

theorem isNull_of_isScalar {v : Value} (hv : v.type.isScalar = true) : v.isNull = false := by
  cases v <;> first | rfl | cases hv

theorem isScalar_of_common {s t : SqlType} (hs : s.isProper = true) (ht : t.isProper = true)
    (harray : s.common t ≠ .array) (hrow : s.common t ≠ .row) :
    s.isScalar = true ∧ t.isScalar = true := by
  revert hs ht harray hrow
  cases s <;> cases t <;> decide

/-- Values are equal if they are so item by item, a scalar being its only item. -/
theorem equals_iff_items {l r : Value} : l.Equals r ↔ List.Forall₂ Equals l.items r.items := by
  cases hl : l.isNull with
  | true =>
    rw [isNull_iff.mp hl]
    refine iff_of_false (not_equals_null_left r) fun h => ?_
    obtain ⟨v, _, hv, -⟩ := List.forall₂_cons_left_iff.mp h
    exact not_equals_null_left v hv
  | false =>
    cases hr : r.isNull with
    | true =>
      rw [isNull_iff.mp hr]
      refine iff_of_false (not_equals_null_right l) fun h => ?_
      obtain ⟨v, _, hv, -⟩ := List.forall₂_cons_right_iff.mp h
      exact not_equals_null_right v hv
    | false =>
      have hcompare := compareAs_eq .equality hl hr
      by_cases harray : l.type.common r.type = .array
      · rw [align, harray, convert_array hl, convert_array hr] at hcompare
        rw [Equals, hcompare]
        exact compareItems_eq_iff
      · by_cases hrow : l.type.common r.type = .row
        · rw [align, hrow, convert_row hl, convert_row hr] at hcompare
          rw [Equals, hcompare]
          exact compareItems_eq_iff
        · obtain ⟨hls, hrs⟩ :=
            isScalar_of_common (isProper_type hl) (isProper_type hr) harray hrow
          rw [items_of_isScalar hls, items_of_isScalar hrs, List.forall₂_cons]
          exact (and_iff_left .nil).symm

/-! ## Scalars -/

theorem isScalar_common {s t : SqlType} (hs : s.isScalar = true) (ht : t.isScalar = true) :
    (s.common t).isScalar = true := by
  rcases common_eq_or s t with h | h <;> rw [h] <;> assumption

/-- Scalars are equal if they have one canonical form in their common type. -/
theorem equals_iff_aligned {l r : Value} (hl : l.type.isScalar = true)
    (hr : r.type.isScalar = true) : l.Equals r ↔ ∃ a b, l.convert (l.type.common r.type) = .ok a ∧
      r.convert (l.type.common r.type) = .ok b ∧ a.canonical = b.canonical := by
  have hl' := isNull_of_isScalar hl
  have hr' := isNull_of_isScalar hr
  rw [Equals, compareAs_eq .equality hl' hr', Option.bind_eq_some_iff]
  constructor
  · rintro ⟨⟨a, b⟩, halign, h⟩
    obtain ⟨ha, hb⟩ := align_eq_some_iff.mp halign
    obtain ⟨hta, htb⟩ := type_align hl' hr' halign
    have hscalar : a.type.isScalar = true := hta ▸ isScalar_common hl hr
    refine ⟨a, b, ha, hb, (orderScalars_eq_iff hscalar htb).mp ?_⟩
    rw [← h]
    cases a <;> first | rfl | cases hscalar
  · rintro ⟨a, b, ha, hb, h⟩
    have halign := align_eq_some_iff.mpr ⟨ha, hb⟩
    obtain ⟨hta, htb⟩ := type_align hl' hr' halign
    have hscalar : a.type.isScalar = true := hta ▸ isScalar_common hl hr
    refine ⟨(a, b), halign, ?_⟩
    rw [← (orderScalars_eq_iff hscalar htb).mpr h]
    cases a <;> first | rfl | cases hscalar

theorem equals_iff_canonical {l r : Value} (hl : l.type.isScalar = true) (ht : r.type = l.type) :
    l.Equals r ↔ l.canonical = r.canonical := by
  have hr : r.type.isScalar = true := ht ▸ hl
  rw [equals_iff_aligned hl hr, ht, SqlType.common_self, convert_self]
  have hself : r.convert l.type = .ok r := ht ▸ convert_self r
  rw [hself]
  constructor
  · rintro ⟨a, b, ha, hb, h⟩
    cases ha
    cases hb
    exact h
  · exact fun h => ⟨l, r, rfl, rfl, h⟩

/-- The value in the middle has the type of another one. -/
theorem Equals.trans_of_type_eq {s p q : Value} (hs : s.type.isScalar = true)
    (hq : q.type.isScalar = true) (ht : p.type = s.type) (hsp : s.Equals p) (hsq : s.Equals q) :
    p.Equals q := by
  have hp : p.type.isScalar = true := ht ▸ hs
  obtain ⟨a, b, ha, hb, hab⟩ := (equals_iff_aligned hs hq).mp hsq
  have hup : s.type.common (s.type.common q.type) = s.type.common q.type := by
    rw [← SqlType.common_assoc, SqlType.common_self]
  obtain ⟨c, hc, hac⟩ := convert_congr hs ht hup (isScalar_common hs hq)
    ((equals_iff_canonical hs ht).mp hsp) ha
  refine (equals_iff_aligned hp hq).mpr ⟨c, b, ?_, ?_, hac.symm.trans hab⟩
  · rw [ht, hc]
  · rw [ht, hb]

/-- The others have one type, to which the value in the middle is promoted. -/
theorem Equals.trans_of_common {s p q : Value} (hs : s.type.isScalar = true)
    (hp : p.type.isScalar = true) (ht : q.type = p.type) (hup : s.type.common p.type = p.type)
    (hsp : s.Equals p) (hsq : s.Equals q) : p.Equals q := by
  have hq : q.type.isScalar = true := ht ▸ hp
  obtain ⟨a, b, ha, hb, hab⟩ := (equals_iff_aligned hs hp).mp hsp
  obtain ⟨c, d, hc, hd, hcd⟩ := (equals_iff_aligned hs hq).mp hsq
  have hself : q.convert p.type = .ok q := ht ▸ convert_self q
  rw [hup] at ha hb
  rw [ht, hup] at hc hd
  rw [ha] at hc
  rw [convert_self] at hb
  rw [hself] at hd
  cases hb
  cases hc
  cases hd
  exact (equals_iff_canonical hp ht).mpr (hab.symm.trans hcd)

/-! ## Integers of two widths -/

/-- The value with an integer in sixty-four bits. -/
def widened : Value → Value
  | int n => bigInt n.toInt64
  | v => v

/-- An integer is its only form. -/
theorem eq_of_canonical {l v : Value} (hl : l.type = .int ∨ l.type = .bigInt)
    (h : l.canonical = v.canonical) : l = v := by
  cases l <;> first
    | (cases v <;> first | exact h | cases h)
    | simp [type] at hl

/-- An integer equals what is converted to it. -/
theorem equals_iff_convert {l r : Value} (hl : l.type = .int ∨ l.type = .bigInt)
    (hr : r.type.isScalar = true) (hup : l.type.common r.type = l.type) :
    l.Equals r ↔ r.convert l.type = .ok l := by
  have hscalar : l.type.isScalar = true := by
    rcases hl with h | h <;> rw [h] <;> rfl
  rw [equals_iff_aligned hscalar hr, hup, convert_self]
  constructor
  · rintro ⟨a, b, ha, hb, h⟩
    cases ha
    rw [hb, eq_of_canonical hl h]
  · intro h
    exact ⟨l, l, rfl, h, rfl⟩

theorem convert_eq_int_iff {v : Value} {n : Int32} (hv : v.isNull = false) :
    v.convert .int = .ok (int n) ↔ v.convert .bigInt = .ok (bigInt n.toInt64) := by
  have hint : v.convert .int = int <$> v.toInt := by
    cases v with
    | null => cases hv
    | int m =>
      have hself : (int m).toInt = .ok m := toInt_eq_ok_iff.mpr rfl
      rw [hself]
      rfl
    | _ => rfl
  have hbig : v.convert .bigInt = bigInt <$> v.toBigInt := by
    cases v <;> first | rfl | cases hv
  have hmap {α : Type} {f : α → Value} (hf : Function.Injective f) (m : Converted α) (x : α) :
      f <$> m = .ok (f x) ↔ m = .ok x := by
    cases m with
    | error e => exact iff_of_false (by rintro ⟨⟩) (by rintro ⟨⟩)
    | ok y =>
      show Except.ok (f y) = .ok (f x) ↔ _
      rw [Except.ok.injEq, Except.ok.injEq, hf.eq_iff]
  rw [hint, hbig, hmap fun _ _ => int.inj, hmap fun _ _ => bigInt.inj, toInt_eq_ok_iff]

/-- A comparison does not see the width of an integer. -/
theorem equals_widened_left {l r : Value} (hl : l.type.isScalar = true)
    (hr : r.type.isScalar = true) : l.widened.Equals r ↔ l.Equals r := by
  cases l with
  | int n =>
    show (bigInt n.toInt64).Equals r ↔ _
    cases r with
    | null | array _ | row _ => cases hr
    | bool _ | int _ | text _ | textIgnoreCase _ =>
      rw [equals_iff_convert (.inr rfl) rfl rfl, equals_iff_convert (.inl rfl) rfl rfl]
      exact (convert_eq_int_iff rfl).symm
    | bigInt m =>
      rw [equals_iff_convert (.inr rfl) rfl rfl, equals_comm,
        equals_iff_convert (.inr rfl) rfl rfl]
      show Except.ok (bigInt m) = .ok (bigInt n.toInt64) ↔
        Except.ok (bigInt n.toInt64) = .ok (bigInt m)
      exact eq_comm
    | double x =>
      have hsame : (bigInt n.toInt64).convert .double = (int n).convert .double := by
        show Except.ok (double (.ofInt n.toInt64.toInt)) = _
        rw [Int32.toInt_toInt64]
        rfl
      rw [equals_iff_aligned rfl rfl, equals_iff_aligned rfl rfl]
      show (∃ a b, (bigInt n.toInt64).convert .double = .ok a ∧ _) ↔ _
      rw [hsame]
      rfl
    | geometry g =>
      rw [equals_iff_aligned rfl rfl, equals_iff_aligned rfl rfl]
      exact iff_of_false (by rintro ⟨_, _, ⟨⟩, _⟩) (by rintro ⟨_, _, ⟨⟩, _⟩)
  | _ => rfl

/-- The type of a value, with one for the integers of both widths. -/
def width (v : Value) : SqlType := v.widened.type

theorem isScalar_width {v : Value} : v.width.isScalar = v.type.isScalar := by
  cases v <;> rfl

theorem equals_widened {l r : Value} (hl : l.type.isScalar = true) (hr : r.type.isScalar = true) :
    l.widened.Equals r.widened ↔ l.Equals r := by
  have hr' : r.widened.type.isScalar = true := isScalar_width.trans hr
  rw [equals_widened_left hl hr', equals_comm, equals_widened_left hr hl, equals_comm]

end Value

/-! ## Transitivity -/

/-- One type serves two of the three comparisons: of the first type with each of the others, and of
the others. -/
def SqlType.Concordant (s p q : SqlType) : Prop := p = s ∨ q = s ∨ q = p ∧ s.common p = p

namespace Value

/-- Three scalars have such types, or any three items at one place are concordant. -/
inductive Concordant : Value → Value → Value → Prop
  | scalars {s p q : Value} (hs : s.type.isScalar = true) (hp : p.type.isScalar = true)
      (hq : q.type.isScalar = true) (h : s.width.Concordant p.width q.width) : Concordant s p q
  | items {s p q : Value} (h : ∀ (i : Nat) (s' p' q' : Value), s.items[i]? = some s' →
      p.items[i]? = some p' → q.items[i]? = some q' → Concordant s' p' q') : Concordant s p q

/-- Two values that equal a third one are equal. -/
theorem Concordant.equals {s p q : Value} (h : Concordant s p q) (hsp : s.Equals p)
    (hsq : s.Equals q) : p.Equals q := by
  induction h with
  | scalars hs hp hq h =>
    rw [← equals_widened hs hp] at hsp
    rw [← equals_widened hs hq] at hsq
    rw [← equals_widened hp hq]
    have hs := isScalar_width.trans hs
    have hp := isScalar_width.trans hp
    have hq := isScalar_width.trans hq
    rcases h with h | h | ⟨h, hup⟩
    · exact hsp.trans_of_type_eq hs hq h hsq
    · exact (hsq.trans_of_type_eq hs hp h hsp).symm
    · exact hsp.trans_of_common hs hp h hup hsq
  | items h ih =>
    rw [equals_iff_items, List.forall₂_iff_get] at hsp hsq ⊢
    obtain ⟨hlp, hp⟩ := hsp
    obtain ⟨hlq, hq⟩ := hsq
    refine ⟨hlp.symm.trans hlq, fun i hip hiq => ?_⟩
    have his : i < _ := hlp ▸ hip
    exact ih i _ _ _ (List.getElem?_eq_getElem his) (List.getElem?_eq_getElem hip)
      (List.getElem?_eq_getElem hiq) (hp i his hip) (hq i his hiq)

end Value
end QueryPredicates
