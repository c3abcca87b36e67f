import QueryPredicates.Proofs.Value.Transitivity

/-! The order, the equality and the sameness of two values in accord. Two values are compared as a
whole, and then alike for all three, or item by item, and then the three differ in what they make of
an item that is NULL and of the lengths. They never contradict each other: what the order finds equal
or apart, equality finds equal or apart, and what is the same is equal unless a NULL inside leaves
that open. -/

namespace QueryPredicates
namespace Value

/-! ## NULL at any depth -/

mutual
/-- Whether the value is no NULL and has none inside, at any depth. -/
def isNullFree : Value → Bool
  | null => false
  | array items => areNullFree items
  | row items => areNullFree items
  | _ => true

/-- Whether no NULL is among the values or inside one of them. -/
def areNullFree : List Value → Bool
  | [] => true
  | v :: vs => v.isNullFree && areNullFree vs
end

theorem areNullFree_iff {vs : List Value} :
    areNullFree vs = true ↔ ∀ v ∈ vs, v.isNullFree = true := by
  induction vs with
  | nil => simp [areNullFree]
  | cons v vs ih => rw [areNullFree, Bool.and_eq_true_iff, ih, List.forall_mem_cons]

theorem isNull_of_isNullFree {v : Value} (h : v.isNullFree = true) : v.isNull = false := by
  cases v <;> first | rfl | cases h

theorem isNullFree_items {v : Value} (h : v.isNullFree = true) :
    ∀ x ∈ v.items, x.isNullFree = true := by
  intro x hx
  cases v with
  | array vs | row vs => exact areNullFree_iff.mp h x hx
  | _ =>
    obtain rfl := List.mem_singleton.mp hx
    exact h

/-! ## As a whole or item by item -/

theorem eq_array_of_type {v : Value} (h : v.type = .array) : v = array v.items := by
  cases v <;> first | rfl | cases h

theorem eq_row_of_type {v : Value} (h : v.type = .row) : v = row v.items := by
  cases v <;> first | rfl | cases h

/-- Aligned collections are compared item by item. -/
theorem aligned_of_collections {a b : Value} (hb : b.type = a.type)
    (hc : a.type = .array ∨ a.type = .row) (mode : Mode) :
    compareAligned mode (compareAs mode) a b =
        compareItems mode (compareAs mode) a.items b.items ∧
      sameAligned isSame a b = sameItems isSame a.items b.items := by
  rcases hc with hc | hc
  · rw [eq_array_of_type hc, eq_array_of_type (hb.trans hc)]
    exact ⟨rfl, rfl⟩
  · rw [eq_row_of_type hc, eq_row_of_type (hb.trans hc)]
    exact ⟨rfl, rfl⟩

/-- Aligned scalars are compared as such. -/
theorem aligned_of_scalars {a : Value} (b : Value) (hc : ¬(a.type = .array ∨ a.type = .row))
    (mode : Mode) :
    compareAligned mode (compareAs mode) a b = orderScalars a b ∧
      sameAligned isSame a b = (orderScalars a b == some .eq) := by
  cases a with
  | array _ => exact (hc (.inl rfl)).elim
  | row _ => exact (hc (.inr rfl)).elim
  | _ => exact ⟨rfl, rfl⟩

/-- Two values are compared as a whole, where all three comparisons come to the same, or item by
item, where the items lie less deep. -/
theorem compare_cases {l r : Value} (hl : l.isNull = false) (hr : r.isNull = false) :
    (∃ o, (∀ mode, compareAs mode l r = o) ∧ isSame l r = (o == some .eq)) ∨
      (∀ mode, compareAs mode l r = compareItems mode (compareAs mode) l.items r.items) ∧
        isSame l r = sameItems isSame l.items r.items ∧
        ∀ x ∈ l.items, ∀ y ∈ r.items, x.depth + y.depth < l.depth + r.depth := by
  have hcompare (mode : Mode) := compareAs_eq mode hl hr
  have hsame := isSame_eq hl hr
  cases halign : align l r with
  | none =>
    simp only [halign] at hcompare hsame
    exact .inl ⟨none, hcompare, hsame⟩
  | some p =>
    obtain ⟨a, b⟩ := p
    simp only [halign, Option.bind_some, Option.any_some] at hcompare hsame
    obtain ⟨-, hb⟩ := type_align hl hr halign
    by_cases hc : a.type = .array ∨ a.type = .row
    · obtain ⟨hai, hbi, -⟩ := items_align hl hr halign hc
      have haligned := aligned_of_collections hb hc
      rw [hai, hbi] at haligned
      refine .inr ⟨fun mode => (hcompare mode).trans (haligned mode).1,
        hsame.trans (haligned .equality).2, fun x hx y hy => ?_⟩
      exact depth_add_lt_of_align hl hr halign hc (hai ▸ hx) (hbi ▸ hy)
    · have haligned := aligned_of_scalars b hc
      exact .inl ⟨orderScalars a b, fun mode => (hcompare mode).trans (haligned mode).1,
        hsame.trans (haligned .equality).2⟩

theorem compareAs_null_left (mode : Mode) (r : Value) : compareAs mode null r = none := by
  simp [compareAs, compareWithin, isNull]

/-- Induction along the comparison of two values: one is NULL, or they are compared as a whole, or the
statement holds of their items. -/
theorem compare_induction {P : Value → Value → Prop} (left : ∀ r, P null r) (right : ∀ l, P l null)
    (whole : ∀ l r o, (∀ mode, compareAs mode l r = o) → isSame l r = (o == some .eq) → P l r)
    (items : ∀ l r, (∀ mode, compareAs mode l r = compareItems mode (compareAs mode) l.items r.items) →
      isSame l r = sameItems isSame l.items r.items → (∀ x ∈ l.items, ∀ y ∈ r.items, P x y) → P l r)
    (l r : Value) : P l r := by
  generalize hd : l.depth + r.depth = d
  induction d using Nat.strongRecOn generalizing l r with
  | ind d ih =>
    cases hl : l.isNull with
    | true =>
      rw [isNull_iff.mp hl]
      exact left r
    | false =>
      cases hr : r.isNull with
      | true =>
        rw [isNull_iff.mp hr]
        exact right l
      | false =>
        obtain ⟨o, hcompare, hsame⟩ | ⟨hcompare, hsame, hdepth⟩ := compare_cases hl hr
        · exact whole l r o hcompare hsame
        · refine items l r hcompare hsame fun x hx y hy => ?_
          exact ih _ (hd ▸ hdepth x hx y hy) x y rfl

/-! ## Accord -/

/-- How the order, the equality and the sameness of two values go together: the values are equal for
all three, or equal for none and apart for equality, or have neither order nor equality. -/
inductive Accord : Option Ordering → Option Ordering → Bool → Prop
  | equal : Accord (some .eq) (some .eq) true
  | apart {ordering : Option Ordering} {p : Ordering} (ho : ordering ≠ some .eq) (hp : p ≠ .eq) :
      Accord ordering (some p) false
  | leftOpen (same : Bool) : Accord none none same

namespace Accord

section
variable {o e : Option Ordering} {same : Bool} (h : Accord o e same)
include h

theorem ordered_equal_iff : o = some .eq ↔ e = some .eq := by
  cases h with
  | equal => exact Iff.rfl
  | apart ho hp => exact iff_of_false ho fun he => hp (Option.some.inj he)
  | leftOpen => exact Iff.rfl

theorem unequal (ho : o = some .lt ∨ o = some .gt) : ∃ p, e = some p ∧ p ≠ .eq := by
  cases h with
  | @apart _ p _ hp => exact ⟨p, rfl, hp⟩
  | equal | leftOpen => simp at ho

theorem same_of_equal (he : e = some .eq) : same = true := by
  cases h with
  | equal => rfl
  | apart _ hp => exact absurd (Option.some.inj he) hp
  | leftOpen => cases he

theorem equal_or_open_of_same (hs : same = true) : e = some .eq ∨ e = none := by
  cases h with
  | equal => exact .inl rfl
  | apart => cases hs
  | leftOpen => exact .inr rfl

theorem not_same_of_unequal {p : Ordering} (he : e = some p) (hp : p ≠ .eq) : same = false := by
  refine Bool.eq_false_iff.mpr fun hs => ?_
  rcases h.equal_or_open_of_same hs with h' | h' <;> rw [he] at h'
  · exact hp (Option.some.inj h')
  · cases h'

end

/-- Where all three come to the same they are in accord. -/
theorem whole (o : Option Ordering) : Accord o o (o == some .eq) := by
  cases o with
  | none => exact .leftOpen _
  | some o =>
    by_cases ho : o = .eq
    · subst ho
      exact .equal
    · have hne : some o ≠ some .eq := fun h => ho (Option.some.inj h)
      rw [beq_eq_false_iff_ne.mpr hne]
      exact .apart hne ho

variable {f g : Value → Value → Option Ordering} {s : Value → Value → Bool}

/-- Lists of one length: the first items that are apart settle all three, and items that are left
open settle the order alone. -/
theorem equateItems : ∀ {as bs : List Value}, as.length = bs.length →
    (∀ a ∈ as, ∀ b ∈ bs, Accord (f a b) (g a b) (s a b)) →
    Accord (orderItems f as bs) (equateItems g as bs) (sameItems s as bs)
  | [], [], _, _ => .equal
  | a :: as, b :: bs, hlen, h => by
    have hhead := h a List.mem_cons_self b List.mem_cons_self
    have htail : Accord (orderItems f as bs) (Value.equateItems g as bs) (sameItems s as bs) :=
      equateItems (Nat.succ.inj hlen) fun x hx y hy =>
        h x (List.mem_cons_of_mem a hx) y (List.mem_cons_of_mem b hy)
    unfold orderItems Value.equateItems sameItems
    generalize f a b = o, g a b = e, s a b = same at hhead
    cases hhead with
    | equal => exact htail
    | @apart _ p ho hp =>
      -- these items settle equality, and the order goes no further
      cases o with
      | none => cases p <;> first | exact absurd rfl hp | exact .apart ho hp
      | some o =>
        cases o <;> cases p <;> first
          | exact absurd rfl hp
          | exact absurd rfl ho
          | exact .apart ho hp
    | leftOpen =>
      generalize orderItems f as bs = o, Value.equateItems g as bs = e,
        sameItems s as bs = same' at htail
      cases htail with
      | equal => exact .leftOpen _
      | leftOpen => exact .leftOpen _
      | @apart _ p _ hp =>
        have hopen : (none : Option Ordering) ≠ some .eq := (Option.some_ne_none _).symm
        rw [Bool.and_false]
        cases p <;> first | exact absurd rfl hp | exact .apart hopen hp

theorem length_eq_of_orderItems : ∀ {as bs : List Value}, orderItems f as bs = some .eq →
    as.length = bs.length
  | [], [], _ => rfl
  | a :: as, b :: bs, h => by
    unfold orderItems at h
    split at h
    · rw [List.length_cons, List.length_cons, length_eq_of_orderItems h]
    · rename_i hne
      exact (hne h).elim

theorem length_eq_of_sameItems : ∀ {as bs : List Value}, sameItems s as bs = true →
    as.length = bs.length
  | [], [], _ => rfl
  | a :: as, b :: bs, h => by
    rw [sameItems, Bool.and_eq_true_iff] at h
    rw [List.length_cons, List.length_cons, length_eq_of_sameItems h.2]

/-- Lists whose items are in accord are in accord: lists of two lengths are apart for equality, and
equal for none. -/
theorem compareItems {as bs : List Value}
    (h : ∀ a ∈ as, ∀ b ∈ bs, Accord (f a b) (g a b) (s a b)) :
    Accord (compareItems .ordering f as bs) (compareItems .equality g as bs) (sameItems s as bs) := by
  simp only [Value.compareItems]
  by_cases hlen : as.length = bs.length
  · rw [if_pos hlen]
    exact equateItems hlen h
  · have hsame : sameItems s as bs = false :=
      Bool.eq_false_iff.mpr fun hs => hlen (length_eq_of_sameItems hs)
    rw [if_neg hlen, hsame]
    refine .apart (fun ho => hlen (length_eq_of_orderItems ho)) ?_
    exact fun hp => hlen (Nat.compare_eq_eq.mp hp)

end Accord

/-- The three comparisons of any two values are in accord. -/
theorem accord (l r : Value) :
    Accord (compareAs .ordering l r) (compareAs .equality l r) (isSame l r) := by
  induction l, r using compare_induction with
  | left r =>
    rw [compareAs_null_left, compareAs_null_left]
    exact .leftOpen _
  | right l =>
    rw [compareAs_null_right, compareAs_null_right]
    exact .leftOpen _
  | whole l r o hcompare hsame =>
    rw [hcompare, hcompare, hsame]
    exact .whole o
  | items l r hcompare hsame ih =>
    rw [hcompare, hcompare, hsame]
    exact .compareItems ih

/-! ## Sameness -/

theorem sameItems_iff {same : Value → Value → Bool} {as bs : List Value} :
    sameItems same as bs = true ↔ List.Forall₂ (fun a b => same a b = true) as bs := by
  induction as generalizing bs with
  | nil => cases bs <;> simp [sameItems]
  | cons a as ih =>
    cases bs with
    | nil => simp [sameItems]
    | cons b bs => rw [sameItems, Bool.and_eq_true_iff, ih, List.forall₂_cons]

/-- What is the same is equal if there is no NULL in it. -/
theorem equals_of_isSame {l r : Value} (hl : l.isNullFree = true) (hr : r.isNullFree = true)
    (h : isSame l r = true) : l.Equals r := by
  induction l, r using compare_induction with
  | left r => cases hl
  | right l => cases hr
  | whole l r o hcompare hsame =>
    rw [hsame] at h
    rw [Equals, hcompare]
    exact beq_iff_eq.mp h
  | items l r hcompare hsame ih =>
    rw [hsame, sameItems_iff, List.forall₂_iff_get] at h
    rw [Equals, hcompare, compareItems_eq_iff, List.forall₂_iff_get]
    obtain ⟨hlen, hitems⟩ := h
    refine ⟨hlen, fun i hil hir => ?_⟩
    have hxl : l.items.get ⟨i, hil⟩ ∈ l.items := List.get_mem _ _
    have hxr : r.items.get ⟨i, hir⟩ ∈ r.items := List.get_mem _ _
    exact ih _ hxl _ hxr (isNullFree_items hl _ hxl) (isNullFree_items hr _ hxr)
      (hitems i hil hir)

/-- Values of one type are compared as they are. -/
theorem align_of_type_eq {a b : Value} (h : b.type = a.type) : align a b = some (a, b) := by
  rw [align_eq_some_iff, h, SqlType.common_self]
  exact ⟨convert_self a, h ▸ convert_self b⟩

theorem isScalar_of_not_collection {v : Value} (hv : v.isNull = false)
    (hc : ¬(v.type = .array ∨ v.type = .row)) : v.type.isScalar = true := by
  cases v with
  | null => cases hv
  | array _ => exact (hc (.inl rfl)).elim
  | row _ => exact (hc (.inr rfl)).elim
  | _ => rfl

/-- A value is the same as itself. -/
theorem isSame_self (v : Value) : isSame v v = true := by
  induction hd : v.depth using Nat.strongRecOn generalizing v with
  | ind d ih =>
    cases hv : v.isNull with
    | true =>
      rw [isNull_iff.mp hv]
      rfl
    | false =>
      rw [isSame_eq hv hv, align_of_type_eq rfl, Option.any_some]
      by_cases hc : v.type = .array ∨ v.type = .row
      · rw [(aligned_of_collections rfl hc .equality).2, sameItems_iff, List.forall₂_same]
        intro x hx
        refine ih x.depth ?_ x rfl
        have hle := depth_le_depths hx
        have hlt := depths_items_lt hc
        omega
      · have hscalar := isScalar_of_not_collection hv hc
        rw [(aligned_of_scalars v hc .equality).2, (orderScalars_eq_iff hscalar rfl).mpr rfl]
        rfl

end Value

/-! ## The law -/

theorem Truth.and_ofBool_isLE_isGE (o : Ordering) :
    (Truth.ofBool o.isLE).and (.ofBool o.isGE) = .holds ↔ o = .eq := by
  cases o <;> decide

namespace Comparator
open Value

/-- A value is at most and at least another if the order finds the two equal. -/
theorem truth_between_iff (l r : Value) :
    (lessOrEqual.truth l r).and (greaterOrEqual.truth l r) = .holds ↔
      compareAs .ordering l r = some .eq := by
  show ((compareAs .ordering l r).elim Truth.unknown fun o => .ofBool o.isLE).and
    ((compareAs .ordering l r).elim .unknown fun o => .ofBool o.isGE) = .holds ↔ _
  cases compareAs .ordering l r with
  | none => decide
  | some o => rw [Option.elim_some, Option.elim_some, Truth.and_ofBool_isLE_isGE, Option.some.injEq]

theorem truth_equal_fails_iff {l r : Value} :
    equal.truth l r = .fails ↔ ∃ o, compareAs .equality l r = some o ∧ o ≠ .eq := by
  show (compareAs .equality l r).elim .unknown (fun o => Truth.ofBool (o == .eq)) = .fails ↔ _
  cases compareAs .equality l r with
  | none => simp
  | some o => cases o <;> simp [Truth.ofBool]

theorem truth_equalNullSafe (l r : Value) : equalNullSafe.truth l r = .ofBool (isSame l r) := by
  show Truth.ofBool (isSame l r == true) = _
  cases isSame l r <;> rfl

/-- Any two values, NULL at any depth or not, are equal for the order exactly if they are for
equality, and apart for equality if they are for the order. Equal values are the same, and the same
values are not apart; they are equal unless there is a NULL in one. Every value is the same as itself.
So a value is at most and at least another exactly if it equals it, and equality answers nothing that
its null-safe form denies. -/
theorem comparisons_accord (l r : Value) :
    (compareAs .ordering l r = some .eq ↔ compareAs .equality l r = some .eq) ∧
    (compareAs .ordering l r = some .lt ∨ compareAs .ordering l r = some .gt →
      ∃ o, compareAs .equality l r = some o ∧ o ≠ .eq) ∧
    ((compareAs .equality l r = some .eq → isSame l r = true) ∧
      (isSame l r = true →
        compareAs .equality l r = some .eq ∨ compareAs .equality l r = none) ∧
      (isSame l r = true → l.isNullFree = true → r.isNullFree = true →
        compareAs .equality l r = some .eq)) ∧
    isSame l l = true ∧
    ((lessOrEqual.truth l r).and (greaterOrEqual.truth l r) = .holds ↔
      equal.truth l r = .holds) ∧
    (equal.truth l r = .holds → equalNullSafe.truth l r = .holds) ∧
    (equal.truth l r = .fails → equalNullSafe.truth l r = .fails) := by
  have h := accord l r
  refine ⟨h.ordered_equal_iff, h.unequal,
    ⟨h.same_of_equal, h.equal_or_open_of_same, fun hs hl hr => equals_of_isSame hl hr hs⟩,
    isSame_self l, ?_, ?_, ?_⟩
  · rw [truth_between_iff, truth_equal_iff]
    exact h.ordered_equal_iff
  · intro he
    rw [truth_equalNullSafe, h.same_of_equal (truth_equal_iff.mp he)]
    rfl
  · intro he
    obtain ⟨o, hcompare, ho⟩ := truth_equal_fails_iff.mp he
    rw [truth_equalNullSafe, h.not_same_of_unequal hcompare ho]
    rfl

/-- An integer array is the same as one of big integers, and so equals it. -/
theorem arrays_accord :
    let l := array [int 1, int 2]
    let r := array [bigInt 1, bigInt 2]
    compareAs .equality l r = some .eq ∧ equalNullSafe.truth l r = .holds := by
  intro l r
  have hsame : isSame l r = true := by decide
  have hl : l.isNullFree = true := by decide
  have hr : r.isNullFree = true := by decide
  obtain ⟨-, -, ⟨-, -, hequal⟩, -, -, hsafe, -⟩ := comparisons_accord l r
  have hcompare := hequal hsame hl hr
  exact ⟨hcompare, hsafe (truth_equal_iff.mpr hcompare)⟩

end Comparator
end QueryPredicates
