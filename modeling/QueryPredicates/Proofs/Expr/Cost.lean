import QueryPredicates.Expr.Walk
import QueryPredicates.Proofs.Expr.Nodes

/-! The cost of an expression as a sum. Each node has a toll of its own, and all tolls together, with
no limit to them, are the weight of the expression. The cost is the weight as far as thirty-two bits can
hold it: a sum that is cut off on the way is cut off in the end. -/

namespace QueryPredicates.Expr

/-- What the node itself adds to the cost. -/
def toll : Expr → Nat
  | column _ => 2
  | nextValue _ | comparison .. | nullTest .. => 1
  | constant _ | parameter _ | inList .. => 0

/-- The cost without a limit. -/
def weight (e : Expr) : Nat := e.sumNodes toll

theorem weight_comparison (op : Comparator) (left right : Expr) (whenOperand : Bool) :
    (comparison op left right whenOperand).weight = left.weight + right.weight + 1 := by
  unfold weight
  rw [sumNodes_comparison, Nat.add_comm]
  rfl

theorem weight_nullTest (operand : Expr) (negated : Bool) :
    (nullTest operand negated).weight = operand.weight + 1 := by
  unfold weight
  rw [sumNodes_nullTest, Nat.add_comm]
  rfl

theorem weight_inList (operand first : Expr) (rest : List Expr) :
    (inList operand first rest).weight =
      operand.weight + first.weight + (rest.map weight).sum := by
  unfold weight
  rw [sumNodes_inList, Nat.add_assoc]
  exact Nat.zero_add _

theorem weight_of_leaf {e : Expr} (h : e.children = []) : e.weight = e.toll :=
  sumNodes_of_leaf h

theorem addCosts_min (a b : Nat) :
    addCosts (min a costLimit) (min b costLimit) = min (a + b) costLimit := by
  unfold addCosts
  omega

theorem addCosts_one (a : Nat) : addCosts (min a costLimit) 1 = min (a + 1) costLimit :=
  addCosts_min a 1

theorem costFrom_min {es : List Expr} (h : ∀ e ∈ es, e.cost = min e.weight costLimit) (n : Nat) :
    costFrom (min n costLimit) es = min (n + (es.map weight).sum) costLimit := by
  induction es generalizing n with
  | nil => rfl
  | cons e es ih =>
    obtain ⟨hhead, htail⟩ := List.forall_mem_cons.mp h
    rw [costFrom, hhead, addCosts_min, ih htail, List.map_cons, List.sum_cons, Nat.add_assoc]

/-- The cost is the weight, cut off at the limit. -/
theorem cost_eq_min (e : Expr) : e.cost = min e.weight costLimit := by
  induction e using children_induction with
  | node e ih =>
    cases e with
    | comparison op left right whenOperand =>
      have hl := ih left (by simp [children])
      have hr := ih right (by simp [children])
      rw [weight_comparison, cost, hl, hr, addCosts_min, addCosts_one]
    | nullTest operand negated =>
      have ho := ih operand (by simp [children])
      rw [weight_nullTest, cost, ho, addCosts_one]
    | inList operand first rest =>
      have ho := ih operand (by simp [children])
      have hf := ih first (by simp [children])
      have hrest : ∀ e ∈ rest, e.cost = min e.weight costLimit :=
        fun e he => ih e (by simp [children, he])
      rw [weight_inList, cost, ho, hf, addCosts_min, costFrom_min hrest]
    | _ => rfl

end QueryPredicates.Expr
