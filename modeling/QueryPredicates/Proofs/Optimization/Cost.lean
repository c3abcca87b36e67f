import QueryPredicates.Proofs.Expr.Cost
import QueryPredicates.Proofs.Optimization.NormalForm
import Mathlib.Algebra.Order.BigOperators.Group.List
import Mathlib.Algebra.Order.Group.Nat

/-! What the pass does to costs. Turning and adapting a comparison leave its weight as it is, and
settling it, like simplifying a null test or a list, takes nodes away. Only an equality weighs more than
the list of one candidate that it comes of, since a comparison has a toll and a list has none. So a cost
rises by no more than the number of such lists that come out as equalities. -/

namespace QueryPredicates

/-! ## One node -/

theorem Expr.weight_ofTruth (t : Truth) : (ofTruth t).weight = 0 := weight_of_leaf rfl

namespace Comparison

theorem weight_oriented (c : Comparison) : c.oriented.toExpr.weight = c.toExpr.weight := by
  unfold oriented
  split
  · simp only [toExpr, Expr.weight_comparison, Nat.add_comm c.left.weight]
  · rfl

/-- A constant stands in for a constant, a parameter for a parameter. -/
theorem weight_adapted {c d : Comparison} (h : c.adapted = .ok d) :
    d.toExpr.weight = c.toExpr.weight := by
  obtain ⟨op, left, right, whenOperand⟩ := c
  obtain ⟨column, k, k', rfl, rfl, -, rfl⟩ | ⟨column, p, rfl, rfl, rfl⟩ | ⟨-, rfl⟩ :=
    adapted_cases h <;> rfl

theorem weight_settled_le (c : Comparison) : c.settled.weight ≤ c.toExpr.weight := by
  obtain ⟨a, b, -, -, hs⟩ | ⟨-, ⟨-, -, hs⟩ | ⟨-, -, -, hs⟩ | ⟨-, hs⟩⟩ := c.settled_cases
  · rw [hs, Expr.weight_ofTruth]
    exact Nat.zero_le _
  · rw [hs]
    exact Nat.zero_le _
  · rw [hs, toExpr, Expr.weight_nullTest, Expr.weight_comparison]
    unfold besideNull
    split <;> omega
  · exact Nat.le_of_eq (congrArg Expr.weight hs)

theorem weight_simplified_le {c : Comparison} {e : Expr} (h : c.simplified = .ok e) :
    e.weight ≤ c.toExpr.weight := by
  obtain ⟨-, ⟨-, rfl⟩ | ⟨-, d, hd, rfl⟩⟩ := simplified_cases h
  · exact Nat.le_refl _
  · rw [← weight_oriented c, ← weight_adapted hd]
    exact weight_settled_le d

theorem isNullSafe_oriented (c : Comparison) : c.oriented.op.isNullSafe = c.op.isNullSafe := by
  unfold oriented
  split
  · exact Comparator.isNullSafe_reverse c.op
  · rfl

/-- Without a null-safe comparator there is no null test in the end. -/
theorem simplified_not_nullSafe {c : Comparison} {e : Expr} (hop : c.op.isNullSafe = false)
    (h : c.simplified = .ok e) : (∃ t, e = .ofTruth t) ∨ ∃ d : Comparison, e = d.toExpr := by
  obtain ⟨-, ⟨-, rfl⟩ | ⟨-, d, hd, rfl⟩⟩ := simplified_cases h
  · exact .inr ⟨c, rfl⟩
  · obtain ⟨a, b, -, -, hs⟩ | ⟨-, ⟨-, -, hs⟩ | ⟨-, hsafe, -⟩ | ⟨-, hs⟩⟩ := d.settled_cases
    · exact .inl ⟨_, hs⟩
    · exact .inl ⟨_, hs⟩
    · rw [op_adapted hd, isNullSafe_oriented, hop] at hsafe
      cases hsafe
    · exact .inr ⟨d, hs⟩

end Comparison

theorem NullTest.weight_simplified_le (t : NullTest) : t.simplified.weight ≤ t.toExpr.weight := by
  unfold simplified
  split
  · rw [Expr.weight_ofTruth]
    exact Nat.zero_le _
  · exact Nat.le_refl _

theorem InList.weight_simplified_le (l : InList) : l.simplified.weight ≤ l.toExpr.weight := by
  obtain ⟨t, hs⟩ | ⟨-, -, hs⟩ := l.simplified_cases
  · rw [hs, Expr.weight_ofTruth]
    exact Nat.zero_le _
  · exact Nat.le_of_eq (congrArg Expr.weight hs)

/-! ## The pass -/

namespace Expr

/-- Whether the node is a list of one candidate that comes out as a comparison. -/
def becomesEquality (e : Expr) : Bool :=
  match e, e.simplified with
  | inList _ _ [], .ok (comparison ..) => true
  | _, _ => false

/-- What the node may add to the weight of the outcome. -/
def allowance (e : Expr) : Nat := e.toll + e.becomesEquality.toNat

theorem sumNodes_allowance (e : Expr) :
    e.sumNodes allowance = e.weight + e.nodes.countP becomesEquality := by
  rw [countP_nodes]
  exact sumNodes_add toll (fun n => n.becomesEquality.toNat) e

/-- A list of one candidate that comes out as a comparison allows for the toll of the comparison. -/
theorem allowance_single {operand first e' : Expr}
    (h : (inList operand first []).simplified = .ok e')
    (hcomparison : ∃ d : Comparison, e' = d.toExpr) :
    allowance (inList operand first []) = 1 := by
  obtain ⟨d, rfl⟩ := hcomparison
  have hbecomes : becomesEquality (inList operand first []) = true := by
    unfold becomesEquality
    rw [h]
    rfl
  unfold allowance
  rw [hbecomes]
  rfl

/-- No outcome weighs more than the nodes allow for. -/
theorem weight_simplified_le {e e' : Expr} (h : e.simplified = .ok e') :
    e'.weight ≤ e.sumNodes allowance := by
  refine simplified_induction_once (P := fun e e' => e.simplified = .ok e' →
    e'.weight ≤ e.sumNodes allowance) ?_ ?_ ?_ ?_ ?_ h h
  · intro e he _
    rw [weight_of_leaf he, sumNodes_of_leaf he]
    exact Nat.le_add_right _ _
  · rintro op left right whenOperand left' right' e' ⟨hl, hleft⟩ ⟨hr, hright⟩ he -
    have hnode : e'.weight ≤ left'.weight + right'.weight + 1 :=
      (Comparison.weight_simplified_le he).trans_eq (weight_comparison op left' right' whenOperand)
    have hone : allowance (comparison op left right whenOperand) = 1 := rfl
    have hleft := hleft hl
    have hright := hright hr
    rw [sumNodes_comparison, hone]
    omega
  · rintro operand negated operand' ⟨ho, hoperand⟩ -
    have hnode : (NullTest.simplified ⟨operand', negated⟩).weight ≤ operand'.weight + 1 :=
      (NullTest.weight_simplified_le _).trans_eq (weight_nullTest operand' negated)
    have hone : allowance (nullTest operand negated) = 1 := rfl
    have hoperand := hoperand ho
    rw [sumNodes_nullTest, hone]
    omega
  · intro operand first e' hequality h
    have hequal := ((simplified_inList h).resolve_right fun hne => hne.1 rfl).2
    have hbound := hequality hequal
    have hone : allowance (comparison .equal operand first false) = 1 := rfl
    rw [sumNodes_comparison, hone] at hbound
    rw [simplified_comparison] at hequal
    obtain ⟨operand', -, hequal⟩ := Except.eq_ok_of_bind hequal
    obtain ⟨first', -, hequal⟩ := Except.eq_ok_of_bind hequal
    rw [sumNodes_inList, List.map_nil, List.sum_nil]
    obtain ⟨t, rfl⟩ | hcomparison := Comparison.simplified_not_nullSafe rfl hequal
    · rw [weight_ofTruth]
      exact Nat.zero_le _
    · rw [allowance_single h hcomparison]
      omega
  · rintro operand first rest operand' first' rest' _ ⟨ho, hoperand⟩ ⟨hf, hfirst⟩ hrest -
    have hnode := (InList.weight_simplified_le ⟨operand', first', rest'⟩).trans_eq
      (weight_inList operand' first' rest')
    have hoperand := hoperand ho
    have hfirst := hfirst hf
    have hothers : (rest'.map weight).sum ≤ (rest.map (sumNodes allowance)).sum := by
      refine List.Forall₂.sum_le_sum ?_
      rw [List.forall₂_map_left_iff, List.forall₂_map_right_iff]
      exact (hrest.imp fun _ _ he => he.2 he.1).flip
    rw [sumNodes_inList]
    omega

/-- Simplifying raises the cost only where a list of one candidate comes out as an equality, and by no
more than one for each such list. -/
theorem optimize_cost_le {session : Session} {counters : Counters} {e e' : Expr}
    (h : (e.optimize session counters).outcome = .ok e') :
    e'.cost ≤ e.cost + e.nodes.countP becomesEquality := by
  have hpass := ((optimize_yields session e).outcome_iff counters).mp h
  have hweight := weight_simplified_le hpass
  rw [sumNodes_allowance] at hweight
  rw [cost_eq_min, cost_eq_min]
  omega

/-- `NULL IS NOT DISTINCT FROM (T.A IN (T.B))` becomes `(T.A = T.B) IS NULL`, which costs one more. -/
theorem optimize_cost_le_single :
    let a : Expr := column ⟨1, "T", "A", .int, true⟩
    let b : Expr := column ⟨1, "T", "B", .int, true⟩
    let e : Expr := comparison .equalNullSafe null (inList a b []) false
    let e' : Expr := nullTest (comparison .equal a b false) false
    (e.optimize {} fun _ => 0).outcome = .ok e' ∧ e'.cost = 6 ∧ e.cost = 5 ∧
      e'.cost ≤ e.cost + e.nodes.countP becomesEquality := by
  intro a b e e'
  have hpass : (e.optimize {} fun _ => 0).outcome = .ok e' := rfl
  exact ⟨hpass, rfl, rfl, optimize_cost_le hpass⟩

/-- `T.A IN (T.B)` becomes `T.A = T.B`, which costs more. -/
theorem optimize_raises_cost : ¬ ∀ (session : Session) (counters : Counters) (e e' : Expr),
    (e.optimize session counters).outcome = .ok e' → e'.cost ≤ e.cost := by
  intro h
  let a : Expr := column ⟨1, "T", "A", .int, true⟩
  let b : Expr := column ⟨1, "T", "B", .int, true⟩
  have hcost : (comparison .equal a b false).cost ≤ (inList a b []).cost :=
    h {} (fun _ => 0) (inList a b []) _ rfl
  exact absurd hcost (by decide)

end Expr
end QueryPredicates
