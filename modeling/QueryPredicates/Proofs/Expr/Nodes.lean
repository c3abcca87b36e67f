import QueryPredicates.Expr.Basic
import Mathlib.Algebra.BigOperators.Group.List.Basic
import Mathlib.Algebra.Ring.Nat

/-! The nodes of an expression: itself and everything inside it. A property of all nodes
is one of the outermost node and of all nodes of its children, and what passes from the
children to their parent holds of every expression. A sum over all nodes is what the
outermost node adds to the sums over its children, and counting nodes is such a sum. -/

namespace QueryPredicates.Expr

mutual
/-- The expression and what lies inside it, from the outside in and from left to right. -/
def nodes : Expr → List Expr
  | comparison op left right whenOperand =>
    comparison op left right whenOperand :: (left.nodes ++ right.nodes)
  | nullTest operand negated => nullTest operand negated :: operand.nodes
  | inList operand first rest =>
    inList operand first rest :: (operand.nodes ++ (first.nodes ++ nodesOfAll rest))
  | constant c => [constant c]
  | column c => [column c]
  | parameter p => [parameter p]
  | nextValue s => [nextValue s]

/-- The nodes of some expressions. -/
def nodesOfAll : List Expr → List Expr
  | [] => []
  | e :: es => e.nodes ++ nodesOfAll es
end

theorem nodesOfAll_eq_flatMap (es : List Expr) : nodesOfAll es = es.flatMap nodes := by
  induction es with
  | nil => rfl
  | cons e es ih => simp [nodesOfAll, ih]

theorem nodes_eq (e : Expr) : e.nodes = e :: e.children.flatMap nodes := by
  cases e <;> simp [nodes, children, nodesOfAll_eq_flatMap]

theorem self_mem_nodes (e : Expr) : e ∈ e.nodes := by
  rw [nodes_eq]
  exact List.mem_cons_self

theorem forall_nodes_iff {P : Expr → Prop} {e : Expr} :
    (∀ n ∈ e.nodes, P n) ↔ P e ∧ ∀ child ∈ e.children, ∀ n ∈ child.nodes, P n := by
  rw [nodes_eq, List.forall_mem_cons]
  refine and_congr_right fun _ => ⟨fun h child hc n hn => ?_, fun h n hn => ?_⟩
  · exact h n (List.mem_flatMap.mpr ⟨child, hc, hn⟩)
  · obtain ⟨child, hc, hn⟩ := List.mem_flatMap.mp hn
    exact h child hc n hn

section Forall

variable {P : Expr → Prop}

theorem forall_nodes_of_leaf {e : Expr} (h : e.children = []) : (∀ n ∈ e.nodes, P n) ↔ P e := by
  rw [forall_nodes_iff, h]
  simp

theorem forall_nodes_comparison {op : Comparator} {left right : Expr} {whenOperand : Bool} :
    (∀ n ∈ (comparison op left right whenOperand).nodes, P n) ↔
      P (comparison op left right whenOperand) ∧
        (∀ n ∈ left.nodes, P n) ∧ ∀ n ∈ right.nodes, P n := by
  rw [forall_nodes_iff]
  simp [children]

theorem forall_nodes_nullTest {operand : Expr} {negated : Bool} :
    (∀ n ∈ (nullTest operand negated).nodes, P n) ↔
      P (nullTest operand negated) ∧ ∀ n ∈ operand.nodes, P n := by
  rw [forall_nodes_iff]
  simp [children]

theorem forall_nodes_inList {operand first : Expr} {rest : List Expr} :
    (∀ n ∈ (inList operand first rest).nodes, P n) ↔
      P (inList operand first rest) ∧ (∀ n ∈ operand.nodes, P n) ∧
        (∀ n ∈ first.nodes, P n) ∧ ∀ e ∈ rest, ∀ n ∈ e.nodes, P n := by
  rw [forall_nodes_iff]
  simp [children]

end Forall

theorem any_nodes_eq (p : Expr → Bool) (e : Expr) :
    e.nodes.any p = (p e || e.children.any fun child => child.nodes.any p) := by
  rw [nodes_eq, List.any_cons, List.any_flatMap]

/-- Induction from the children of a node to the node. -/
theorem children_induction {P : Expr → Prop}
    (node : ∀ e, (∀ child ∈ e.children, P child) → P e) (e : Expr) : P e := by
  generalize hd : e.depth = d
  induction d using Nat.strongRecOn generalizing e with
  | ind d ih =>
    refine node e fun child hc => ?_
    have hlt := depth_lt_of_mem_children hc
    exact ih child.depth (hd ▸ hlt) child rfl

/-! ## Sums -/

/-- What the nodes amount to together. -/
def sumNodes (f : Expr → Nat) (e : Expr) : Nat := (e.nodes.map f).sum

theorem countP_nodes (p : Expr → Bool) (e : Expr) :
    e.nodes.countP p = e.sumNodes fun n => (p n).toNat := by
  unfold sumNodes
  induction e.nodes with
  | nil => rfl
  | cons n ns ih =>
    rw [List.countP_cons, List.map_cons, List.sum_cons, ih, Nat.add_comm]
    cases p n <;> rfl

theorem sumNodes_add (f g : Expr → Nat) (e : Expr) :
    e.sumNodes (fun n => f n + g n) = e.sumNodes f + e.sumNodes g :=
  List.sum_map_add

theorem sumNodes_eq (f : Expr → Nat) (e : Expr) :
    e.sumNodes f = f e + (e.children.map (sumNodes f)).sum := by
  have hchildren (es : List Expr) :
      ((es.flatMap nodes).map f).sum = (es.map (sumNodes f)).sum := by
    induction es with
    | nil => rfl
    | cons e es ih => simp [sumNodes, ih]
  rw [← hchildren]
  unfold sumNodes
  rw [nodes_eq, List.map_cons, List.sum_cons]

theorem sumNodes_of_leaf {f : Expr → Nat} {e : Expr} (h : e.children = []) :
    e.sumNodes f = f e := by
  rw [sumNodes_eq, h]
  rfl

theorem sumNodes_comparison (f : Expr → Nat) (op : Comparator) (left right : Expr)
    (whenOperand : Bool) : (comparison op left right whenOperand).sumNodes f =
      f (comparison op left right whenOperand) + (left.sumNodes f + right.sumNodes f) := by
  rw [sumNodes_eq]
  simp [children]

theorem sumNodes_nullTest (f : Expr → Nat) (operand : Expr) (negated : Bool) :
    (nullTest operand negated).sumNodes f = f (nullTest operand negated) + operand.sumNodes f := by
  rw [sumNodes_eq]
  simp [children]

theorem sumNodes_inList (f : Expr → Nat) (operand first : Expr) (rest : List Expr) :
    (inList operand first rest).sumNodes f = f (inList operand first rest) +
      (operand.sumNodes f + (first.sumNodes f + (rest.map (sumNodes f)).sum)) := by
  rw [sumNodes_eq]
  simp [children]

end QueryPredicates.Expr
