import QueryPredicates.Proofs.Expr.Columns

/-! The leaves of an expression that are read when it is evaluated: its columns, its parameters and
its sequences, from left to right, each as often as it occurs. Whether an access is referred to is
a matter of the leaves. -/

namespace QueryPredicates

/-- What is read at a leaf. -/
inductive Leaf where
  | column (c : Column)
  | parameter (index : Nat)
  | sequence (s : Sequence)
  deriving DecidableEq, Repr

namespace Expr

/-- What is read at the node itself. -/
def leaf? : Expr → Option Leaf
  | column c => some (.column c)
  | parameter p => some (.parameter p.index)
  | nextValue s => some (.sequence s)
  | constant _ | comparison .. | nullTest .. | inList .. => none

/-- What is read at the leaves, from left to right. -/
def leaves (e : Expr) : List Leaf := e.nodes.filterMap leaf?

theorem leaves_eq (e : Expr) : e.leaves = e.leaf?.toList ++ e.children.flatMap leaves := by
  unfold leaves
  rw [nodes_eq, List.filterMap_cons, List.filterMap_flatMap]
  cases e.leaf? <;> rfl

theorem leaves_comparison (op : Comparator) (left right : Expr) (whenOperand : Bool) :
    (comparison op left right whenOperand).leaves = left.leaves ++ right.leaves := by
  rw [leaves_eq]
  simp [leaf?, children]

theorem leaves_nullTest (operand : Expr) (negated : Bool) :
    (nullTest operand negated).leaves = operand.leaves := by
  rw [leaves_eq]
  simp [leaf?, children]

theorem leaves_inList (operand first : Expr) (rest : List Expr) :
    (inList operand first rest).leaves =
      operand.leaves ++ (first :: rest).flatMap leaves := by
  rw [leaves_eq]
  simp [leaf?, children]

theorem mem_leaves_iff {leaf : Leaf} {e : Expr} :
    leaf ∈ e.leaves ↔ e.leaf? = some leaf ∨ ∃ child ∈ e.children, leaf ∈ child.leaves := by
  rw [leaves_eq, List.mem_append, Option.mem_toList, List.mem_flatMap]

theorem column_mem_leaves_iff {c : Column} {e : Expr} : .column c ∈ e.leaves ↔ c ∈ e.columns := by
  have hnode (n : Expr) : n.leaf? = some (.column c) ↔ n.column? = some c := by
    cases n <;> simp [leaf?, column?]
  simp only [leaves, columns, List.mem_filterMap, hnode]

/-- An access is referred to if a column of it is among the leaves. -/
theorem references_iff {access : AccessId} {e : Expr} :
    e.references access = true ↔ ∃ c, .column c ∈ e.leaves ∧ c.access = access := by
  simp only [references_eq_true_iff, column_mem_leaves_iff]

end Expr
end QueryPredicates
