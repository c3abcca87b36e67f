import QueryPredicates.Proofs.Value.Equations

/-! Operands trading places. Every order in use is oriented: exchanging its arguments
exchanges less and greater, at every depth and in both modes, and what has no order one way
has none the other way. Sameness and overlap are symmetric. So a comparison keeps its
truth value when its operands trade places and its comparator is reversed. -/

namespace QueryPredicates

/-! ## Doubles and geometries -/

theorem Double.order?_swap (x y : Double) : order? y x = (order? x y).map Ordering.swap := by
  unfold order?
  rw [Bool.or_comm y.isNaN x.isNaN, ← Int.compare_swap x.rank]
  split <;> rfl

theorem Double.order_swap (x y : Double) : x.order y = (y.order x).swap := by
  unfold order
  rw [order?_swap y x, ← Int.compare_swap y.totalRank]
  cases order? y x <;> rfl

theorem Point.order_swap (p q : Point) : p.order q = (q.order p).swap := by
  unfold order
  rw [Ordering.swap_then, ← Double.order_swap p.x q.x, ← Double.order_swap p.y q.y]

theorem Geometry.orderPoints_swap : ∀ ps qs : List Point,
    orderPoints ps qs = (orderPoints qs ps).swap
  | [], [] | [], _ :: _ | _ :: _, [] => rfl
  | p :: ps, q :: qs => by
    unfold orderPoints
    rw [Ordering.swap_then, ← Point.order_swap p q, ← orderPoints_swap ps qs]

theorem Geometry.order_swap (g h : Geometry) : g.order h = (h.order g).swap := by
  unfold order
  rw [Ordering.swap_then, ← orderPoints_swap g.points h.points, Nat.compare_swap]

/-! ## Values -/

namespace Value

theorem align_swap {l r : Value} (hl : l.isNull = false) (hr : r.isNull = false) :
    align r l = (align l r).map Prod.swap := by
  have hc := SqlType.common_comm (isProper_type hr) (isProper_type hl)
  simp only [align, hc]
  cases l.convert (l.type.common r.type) <;> cases r.convert (l.type.common r.type) <;> rfl

theorem orderScalars_swap (a b : Value) :
    orderScalars b a = (orderScalars a b).map Ordering.swap := by
  cases a <;> cases b <;> first
    | rfl
    | exact congrArg some (Double.order_swap _ _)
    | exact congrArg some (Geometry.order_swap _ _)
    | exact congrArg some Std.OrientedCmp.eq_swap

theorem orderItems_swap {order : Value → Value → Option Ordering}
    (h : ∀ a b, order b a = (order a b).map Ordering.swap) : ∀ as bs : List Value,
    orderItems order bs as = (orderItems order as bs).map Ordering.swap
  | [], [] | [], _ :: _ | _ :: _, [] => rfl
  | a :: as, b :: bs => by
    have ih := orderItems_swap h as bs
    unfold orderItems
    rw [h a b]
    cases order a b with
    | none => rfl
    | some o => cases o <;> first | exact ih | rfl

theorem equateItems_swap {order : Value → Value → Option Ordering}
    (h : ∀ a b, order b a = (order a b).map Ordering.swap) : ∀ as bs : List Value,
    equateItems order bs as = (equateItems order as bs).map Ordering.swap
  | [], [] | [], _ :: _ | _ :: _, [] => rfl
  | a :: as, b :: bs => by
    have ih := equateItems_swap h as bs
    unfold equateItems
    rw [h a b]
    cases order a b with
    | none =>
      simp only [Option.map_none, ih]
      cases equateItems order as bs with
      | none => rfl
      | some o => cases o <;> rfl
    | some o => cases o <;> first | exact ih | rfl

theorem compareItems_swap (mode : Mode) {order : Value → Value → Option Ordering}
    (h : ∀ a b, order b a = (order a b).map Ordering.swap) (as bs : List Value) :
    compareItems mode order bs as = (compareItems mode order as bs).map Ordering.swap := by
  cases mode with
  | ordering => exact orderItems_swap h as bs
  | equality =>
    simp only [compareItems]
    by_cases hlen : as.length = bs.length
    · rw [if_pos hlen, if_pos hlen.symm]
      exact equateItems_swap h as bs
    · rw [if_neg hlen, if_neg (Ne.symm hlen)]
      exact congrArg some (Nat.compare_swap _ _).symm

theorem compareAligned_swap (mode : Mode) {order : Value → Value → Option Ordering}
    (h : ∀ a b, order b a = (order a b).map Ordering.swap) (a b : Value) :
    compareAligned mode order b a = (compareAligned mode order a b).map Ordering.swap := by
  have hs := orderScalars_swap a b
  cases a <;> cases b <;> first
    | exact hs
    | exact compareItems_swap mode h _ _

theorem compareWithin_swap (mode : Mode) (n : Nat) (l r : Value) :
    compareWithin mode n r l = (compareWithin mode n l r).map Ordering.swap := by
  induction n generalizing l r with
  | zero => rfl
  | succ n ih =>
    by_cases hnull : (l.isNull || r.isNull) = true
    · simp only [compareWithin, hnull, Bool.or_comm r.isNull, if_true, Option.map_none]
    · obtain ⟨hl, hr⟩ := Bool.or_eq_false_iff.mp (Bool.eq_false_iff.mpr hnull)
      rw [compareWithin_succ mode n hr hl, compareWithin_succ mode n hl hr, align_swap hl hr]
      cases align l r with
      | none => rfl
      | some p => exact compareAligned_swap mode ih p.1 p.2

/-- Exchanging two values exchanges less and greater. -/
theorem compareAs_swap (mode : Mode) (l r : Value) :
    compareAs mode r l = (compareAs mode l r).map Ordering.swap := by
  unfold compareAs
  rw [Nat.add_comm r.depth]
  exact compareWithin_swap mode _ l r

theorem sameItems_comm {same : Value → Value → Bool} (h : ∀ a b, same a b = same b a) :
    ∀ as bs : List Value, sameItems same as bs = sameItems same bs as
  | [], [] | [], _ :: _ | _ :: _, [] => rfl
  | a :: as, b :: bs => by
    unfold sameItems
    rw [h a b, sameItems_comm h as bs]

theorem sameAligned_comm {same : Value → Value → Bool} (h : ∀ a b, same a b = same b a)
    (a b : Value) : sameAligned same a b = sameAligned same b a := by
  have hs : (orderScalars a b == some .eq) = (orderScalars b a == some .eq) := by
    rw [orderScalars_swap a b]
    cases orderScalars a b with
    | none => rfl
    | some o => cases o <;> rfl
  cases a <;> cases b <;> first
    | exact hs
    | exact sameItems_comm h _ _

theorem sameWithin_comm (n : Nat) (l r : Value) : sameWithin n l r = sameWithin n r l := by
  induction n generalizing l r with
  | zero => rfl
  | succ n ih =>
    cases hl : l.isNull with
    | true => rw [isNull_iff.mp hl, sameWithin_null_left, sameWithin_null_right]
    | false =>
      cases hr : r.isNull with
      | true => rw [isNull_iff.mp hr, sameWithin_null_left, sameWithin_null_right]
      | false =>
        rw [sameWithin_succ n hl hr, sameWithin_succ n hr hl, align_swap hl hr]
        cases align l r with
        | none => rfl
        | some p => exact sameAligned_comm ih p.1 p.2

theorem isSame_comm (l r : Value) : isSame l r = isSame r l := by
  unfold isSame
  rw [Nat.add_comm r.depth]
  exact sameWithin_comm _ l r

end Value

/-! ## Comparators -/

namespace Comparator

theorem overlapTruth_comm (l r : Value) : overlapTruth l r = overlapTruth r l := by
  unfold overlapTruth
  rw [Bool.or_comm r.isNull]
  cases l.toGeometry with
  | error _ => cases r.toGeometry <;> rfl
  | ok g =>
    cases r.toGeometry with
    | error _ => rfl
    | ok h => simp only [Geometry.overlaps_comm g h]

/-- The truth value stays when the operands trade places. -/
theorem truth_reverse (c : Comparator) (l r : Value) : c.truth l r = c.reverse.truth r l := by
  have horder (mode : Mode) {f g : Ordering → Bool} (hfg : ∀ o, f o = g o.swap) :
      (Value.compareAs mode l r).elim Truth.unknown (fun o => .ofBool (f o)) =
        (Value.compareAs mode r l).elim .unknown fun o => .ofBool (g o) := by
    rw [Value.compareAs_swap mode l r]
    cases Value.compareAs mode l r with
    | none => rfl
    | some o => simp only [Option.elim_some, Option.map_some, hfg]
  have hsame (expected : Bool) : Truth.ofBool (Value.isSame l r == expected) =
      .ofBool (Value.isSame r l == expected) := by
    rw [Value.isSame_comm]
  cases c with
  | equalNullSafe | notEqualNullSafe => exact hsame _
  | spatialIntersects => exact overlapTruth_comm l r
  | _ => exact horder _ fun o => by cases o <;> rfl

/-- Reversal over the whole domain of values: of truth under the reversed comparator, of both
orders, of sameness and of overlap. -/
theorem reversal_law :
    (∀ (c : Comparator) (l r : Value), c.truth l r = c.reverse.truth r l) ∧
    (∀ (mode : Mode) (l r : Value),
      Value.compareAs mode r l = (Value.compareAs mode l r).map Ordering.swap ∧
      (Value.compareAs mode r l = none ↔ Value.compareAs mode l r = none)) ∧
    (∀ l r : Value, Value.isSame l r = Value.isSame r l) ∧
    (∀ a b : Box, a.overlaps b = b.overlaps a) ∧
    ∀ g h : Geometry, g.overlaps h = h.overlaps g := by
  refine ⟨truth_reverse, fun mode l r => ⟨Value.compareAs_swap mode l r, ?_⟩, Value.isSame_comm,
    Box.overlaps_comm, Geometry.overlaps_comm⟩
  rw [Value.compareAs_swap mode l r, Option.map_eq_none_iff]

end Comparator
end QueryPredicates
