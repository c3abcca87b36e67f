import QueryPredicates.Comparator

/-! Comparison of values without a bound on their depth. The comparing functions count
down a depth that covers both operands; here it is shown that any covering depth gives one
answer, so that the order and the sameness of two values satisfy the equations one
expects: promote both, then compare scalars as such and collections item by item. -/

namespace QueryPredicates
namespace Value

/-! ## Conversion -/

theorem isProper_type {v : Value} (hv : v.isNull = false) : v.type.isProper = true := by
  cases v <;> first | rfl | simp [isNull] at hv

theorem type_ne_unknown (v : Value) : v.type ≠ .unknown := by
  cases v <;> simp [type]

/-- A converted value has the type asked for. -/
theorem type_convert {v w : Value} {target : SqlType} (hv : v.isNull = false)
    (ht : target ≠ .unknown) (h : v.convert target = .ok w) : w.type = target := by
  unfold convert at h
  split at h
  · rename_i hc
    cases h
    simpa [hv] using hc
  · cases target <;> simp only [Functor.map, Except.map] at h
    case unknown => exact absurd rfl ht
    case null => cases h
    all_goals first
      | (cases h; rfl)
      | (split at h
         · cases h
         · cases h; rfl)

/-- Conversion never makes a NULL of another value. -/
theorem isNull_convert {v w : Value} {target : SqlType} (hv : v.isNull = false)
    (h : v.convert target = .ok w) : w.isNull = false := by
  by_cases hu : target = .unknown
  · subst hu
    unfold convert at h
    split at h <;> cases h <;> exact hv
  · have ht := type_convert hv hu h
    cases w with
    | null =>
      have hn : target = .null := ht.symm
      subst hn
      unfold convert at h
      split at h
      · rename_i hc
        cases h
        simp [isNull] at hv
      · cases h
    | _ => rfl

theorem convert_array {v : Value} (hv : v.isNull = false) :
    v.convert .array = .ok (array v.items) := by
  cases v <;> first | rfl | simp [isNull] at hv

theorem convert_row {v : Value} (hv : v.isNull = false) : v.convert .row = .ok (row v.items) := by
  cases v <;> first | rfl | simp [isNull] at hv

theorem depths_items_le (v : Value) : depths v.items ≤ v.depth := by
  cases v <;> simp [items, depths, depth]

theorem depths_items_lt {v : Value} (h : v.type = .array ∨ v.type = .row) :
    depths v.items < v.depth := by
  cases v <;> simp [type] at h <;> simp [items, depth]

/-! ## Alignment -/

theorem align_eq_some_iff {l r a b : Value} : align l r = some (a, b) ↔
    l.convert (l.type.common r.type) = .ok a ∧ r.convert (l.type.common r.type) = .ok b := by
  simp only [align]
  cases hl : l.convert (l.type.common r.type) <;> cases hr : r.convert (l.type.common r.type) <;>
    simp

theorem common_eq_or (s t : SqlType) : s.common t = s ∨ s.common t = t := by
  unfold SqlType.common
  split
  · exact .inr rfl
  · split
    · exact .inl rfl
    · split
      · exact .inl rfl
      · exact .inr rfl

theorem isProper_common {s t : SqlType} (hs : s.isProper = true) (ht : t.isProper = true) :
    (s.common t).isProper = true := by
  rcases common_eq_or s t with h | h <;> rw [h] <;> assumption

/-- Aligned values have the common type of the two. -/
theorem type_align {l r a b : Value} (hl : l.isNull = false) (hr : r.isNull = false)
    (h : align l r = some (a, b)) : a.type = l.type.common r.type ∧ b.type = a.type := by
  obtain ⟨ha, hb⟩ := align_eq_some_iff.mp h
  have hp := isProper_common (isProper_type hl) (isProper_type hr)
  have hu : l.type.common r.type ≠ .unknown := by
    intro he
    rw [he] at hp
    cases hp
  exact ⟨type_convert hl hu ha, (type_convert hr hu hb).trans (type_convert hl hu ha).symm⟩

/-- Collections that two values are aligned to hold the items of the two, and lie less deep:
at least one of the two was a collection. -/
theorem items_align {l r a b : Value} (hl : l.isNull = false) (hr : r.isNull = false)
    (h : align l r = some (a, b)) (hc : a.type = .array ∨ a.type = .row) :
    a.items = l.items ∧ b.items = r.items ∧
      depths l.items + depths r.items < l.depth + r.depth := by
  obtain ⟨ha, hb⟩ := align_eq_some_iff.mp h
  have ht := (type_align hl hr h).1
  have hlt : depths l.items + depths r.items < l.depth + r.depth := by
    have hl' := depths_items_le l
    have hr' := depths_items_le r
    rw [ht] at hc
    rcases common_eq_or l.type r.type with he | he <;> rw [he] at hc
    · have := depths_items_lt hc
      omega
    · have := depths_items_lt hc
      omega
  rw [← ht] at ha hb
  rcases hc with hc | hc <;> rw [hc] at ha hb
  · rw [convert_array hl] at ha
    rw [convert_array hr] at hb
    cases ha
    cases hb
    exact ⟨rfl, rfl, hlt⟩
  · rw [convert_row hl] at ha
    rw [convert_row hr] at hb
    cases ha
    cases hb
    exact ⟨rfl, rfl, hlt⟩

theorem depth_add_lt_of_align {l r a b : Value} (hl : l.isNull = false) (hr : r.isNull = false)
    (h : align l r = some (a, b)) (hc : a.type = .array ∨ a.type = .row) {x y : Value}
    (hx : x ∈ a.items) (hy : y ∈ b.items) : x.depth + y.depth < l.depth + r.depth := by
  obtain ⟨ha, hb, hlt⟩ := items_align hl hr h hc
  have hdx := depth_le_depths (ha ▸ hx)
  have hdy := depth_le_depths (hb ▸ hy)
  omega

/-! ## Congruence -/

theorem orderItems_congr {f g : Value → Value → Option Ordering} :
    ∀ as bs : List Value, (∀ a ∈ as, ∀ b ∈ bs, f a b = g a b) →
      orderItems f as bs = orderItems g as bs
  | [], [], _ | [], _ :: _, _ | _ :: _, [], _ => rfl
  | a :: as, b :: bs, h => by
    have ht := orderItems_congr as bs fun x hx y hy =>
      h x (List.mem_cons_of_mem a hx) y (List.mem_cons_of_mem b hy)
    simp only [orderItems, h a List.mem_cons_self b List.mem_cons_self, ht]

theorem equateItems_congr {f g : Value → Value → Option Ordering} :
    ∀ as bs : List Value, (∀ a ∈ as, ∀ b ∈ bs, f a b = g a b) →
      equateItems f as bs = equateItems g as bs
  | [], [], _ | [], _ :: _, _ | _ :: _, [], _ => rfl
  | a :: as, b :: bs, h => by
    have ht := equateItems_congr as bs fun x hx y hy =>
      h x (List.mem_cons_of_mem a hx) y (List.mem_cons_of_mem b hy)
    simp only [equateItems, h a List.mem_cons_self b List.mem_cons_self, ht]

theorem compareItems_congr {f g : Value → Value → Option Ordering} (mode : Mode)
    {as bs : List Value} (h : ∀ a ∈ as, ∀ b ∈ bs, f a b = g a b) :
    compareItems mode f as bs = compareItems mode g as bs := by
  cases mode with
  | ordering => exact orderItems_congr as bs h
  | equality => simp only [compareItems, equateItems_congr as bs h]

theorem sameItems_congr {f g : Value → Value → Bool} :
    ∀ as bs : List Value, (∀ a ∈ as, ∀ b ∈ bs, f a b = g a b) →
      sameItems f as bs = sameItems g as bs
  | [], [], _ | [], _ :: _, _ | _ :: _, [], _ => rfl
  | a :: as, b :: bs, h => by
    have ht := sameItems_congr as bs fun x hx y hy =>
      h x (List.mem_cons_of_mem a hx) y (List.mem_cons_of_mem b hy)
    simp only [sameItems, h a List.mem_cons_self b List.mem_cons_self, ht]

/-! ## Order -/

/-- The order of two values of one type, given that of items. -/
def compareAligned (mode : Mode) (order : Value → Value → Option Ordering) :
    Value → Value → Option Ordering
  | array as, array bs => compareItems mode order as bs
  | row as, row bs => compareItems mode order as bs
  | a, b => orderScalars a b

theorem compareAligned_congr {f g : Value → Value → Option Ordering} (mode : Mode) {a b : Value}
    (h : a.type = .array ∨ a.type = .row → ∀ x ∈ a.items, ∀ y ∈ b.items, f x y = g x y) :
    compareAligned mode f a b = compareAligned mode g a b := by
  unfold compareAligned
  split
  · exact compareItems_congr mode (h (.inl rfl))
  · exact compareItems_congr mode (h (.inr rfl))
  · rfl

theorem compareWithin_succ (mode : Mode) (n : Nat) {l r : Value} (hl : l.isNull = false)
    (hr : r.isNull = false) : compareWithin mode (n + 1) l r =
      (align l r).bind fun p => compareAligned mode (compareWithin mode n) p.1 p.2 := by
  simp only [compareWithin, hl, hr, Bool.or_false, Bool.false_eq_true, if_false]
  cases align l r with
  | none => rfl
  | some p =>
    obtain ⟨a, b⟩ := p
    cases a <;> cases b <;> rfl

/-- Any bound above the depths gives the same order. -/
theorem compareWithin_stable (mode : Mode) {n m : Nat} {l r : Value}
    (hn : l.depth + r.depth < n) (hm : l.depth + r.depth < m) :
    compareWithin mode n l r = compareWithin mode m l r := by
  induction n generalizing m l r with
  | zero => omega
  | succ n ih =>
    cases m with
    | zero => omega
    | succ m =>
      by_cases hnull : (l.isNull || r.isNull) = true
      · simp only [compareWithin, hnull, if_true]
      · obtain ⟨hl, hr⟩ := Bool.or_eq_false_iff.mp (Bool.eq_false_iff.mpr hnull)
        rw [compareWithin_succ mode n hl hr, compareWithin_succ mode m hl hr]
        cases ha : align l r with
        | none => rfl
        | some p =>
          obtain ⟨a, b⟩ := p
          refine compareAligned_congr mode fun hc x hx y hy => ?_
          have hd := depth_add_lt_of_align hl hr ha hc hx hy
          exact ih (by omega) (by omega)

theorem compareAs_null_right (mode : Mode) (l : Value) : compareAs mode l null = none := by
  simp [compareAs, compareWithin, isNull]

/-- The equation of the order: promote, then compare what is aligned. -/
theorem compareAs_eq (mode : Mode) {l r : Value} (hl : l.isNull = false) (hr : r.isNull = false) :
    compareAs mode l r =
      (align l r).bind fun p => compareAligned mode (compareAs mode) p.1 p.2 := by
  rw [compareAs, compareWithin_succ mode _ hl hr]
  cases ha : align l r with
  | none => rfl
  | some p =>
    obtain ⟨a, b⟩ := p
    refine compareAligned_congr mode fun hc x hx y hy => ?_
    have hd := depth_add_lt_of_align hl hr ha hc hx hy
    exact compareWithin_stable mode (by omega) (by omega)

/-! ## Sameness -/

/-- Sameness of two values of one type, given that of items. -/
def sameAligned (same : Value → Value → Bool) : Value → Value → Bool
  | array as, array bs => sameItems same as bs
  | row as, row bs => sameItems same as bs
  | a, b => orderScalars a b == some .eq

theorem sameAligned_congr {f g : Value → Value → Bool} {a b : Value}
    (h : a.type = .array ∨ a.type = .row → ∀ x ∈ a.items, ∀ y ∈ b.items, f x y = g x y) :
    sameAligned f a b = sameAligned g a b := by
  unfold sameAligned
  split
  · exact sameItems_congr _ _ (h (.inl rfl))
  · exact sameItems_congr _ _ (h (.inr rfl))
  · rfl

theorem sameWithin_succ (n : Nat) {l r : Value} (hl : l.isNull = false) (hr : r.isNull = false) :
    sameWithin (n + 1) l r = (align l r).any fun p => sameAligned (sameWithin n) p.1 p.2 := by
  unfold sameWithin
  split
  · cases hl
  · cases hl
  · cases hr
  · cases align l r with
    | none => rfl
    | some p =>
      obtain ⟨a, b⟩ := p
      cases a <;> cases b <;> rfl

@[simp] theorem sameWithin_null_left (n : Nat) (r : Value) :
    sameWithin (n + 1) null r = r.isNull := by
  cases r <;> rfl

@[simp] theorem sameWithin_null_right (n : Nat) (l : Value) :
    sameWithin (n + 1) l null = l.isNull := by
  cases l <;> rfl

/-- Any bound above the depths gives the same answer. -/
theorem sameWithin_stable {n m : Nat} {l r : Value} (hn : l.depth + r.depth < n)
    (hm : l.depth + r.depth < m) : sameWithin n l r = sameWithin m l r := by
  induction n generalizing m l r with
  | zero => omega
  | succ n ih =>
    cases m with
    | zero => omega
    | succ m =>
      cases hl : l.isNull with
      | true =>
        rw [isNull_iff.mp hl, sameWithin_null_left, sameWithin_null_left]
      | false =>
        cases hr : r.isNull with
        | true => rw [isNull_iff.mp hr, sameWithin_null_right, sameWithin_null_right]
        | false =>
          rw [sameWithin_succ n hl hr, sameWithin_succ m hl hr]
          cases ha : align l r with
          | none => rfl
          | some p =>
            obtain ⟨a, b⟩ := p
            refine sameAligned_congr fun hc x hx y hy => ?_
            have hd := depth_add_lt_of_align hl hr ha hc hx hy
            exact ih (by omega) (by omega)

/-- NULL is the same as NULL and as nothing else. -/
@[simp] theorem isSame_null_left (r : Value) : isSame null r = r.isNull :=
  sameWithin_null_left _ r

@[simp] theorem isSame_null_right (l : Value) : isSame l null = l.isNull :=
  sameWithin_null_right _ l

/-- The equation of sameness: promote, then compare what is aligned. -/
theorem isSame_eq {l r : Value} (hl : l.isNull = false) (hr : r.isNull = false) :
    isSame l r = (align l r).any fun p => sameAligned isSame p.1 p.2 := by
  rw [isSame, sameWithin_succ _ hl hr]
  cases ha : align l r with
  | none => rfl
  | some p =>
    obtain ⟨a, b⟩ := p
    refine sameAligned_congr fun hc x hx y hy => ?_
    have hd := depth_add_lt_of_align hl hr ha hc hx hy
    exact sameWithin_stable (by omega) (by omega)

end Value

/-! ## Truth in the presence of NULL -/

namespace Comparator

theorem truth_null_left {c : Comparator} (hc : c.isNullSafe = false) (r : Value) :
    c.truth .null r = .unknown := by
  cases c <;> first | rfl | simp [isNullSafe] at hc

theorem truth_null_right {c : Comparator} (hc : c.isNullSafe = false) (l : Value) :
    c.truth l .null = .unknown := by
  cases c with
  | equalNullSafe | notEqualNullSafe => simp [isNullSafe] at hc
  | spatialIntersects => simp [truth, truthUnder, question, overlapTruth, Value.isNull]
  | _ =>
    simp only [truth, truthUnder, question, Hooks.standard, Value.compareAs_null_right,
      Option.elim_none]

/-- Under a null-safe comparator a NULL on the right asks for NULL on the left. -/
theorem truth_null_right_nullSafe {c : Comparator} (hc : c.isNullSafe = true) (l : Value) :
    c.truth l .null = .ofBool (l.isNull != (c == .notEqualNullSafe)) := by
  cases c <;> first
    | (simp [isNullSafe] at hc; done)
    | (simp only [truth, truthUnder, question, Hooks.standard, Value.isSame_null_right]
       cases l.isNull <;> rfl)

end Comparator
end QueryPredicates
