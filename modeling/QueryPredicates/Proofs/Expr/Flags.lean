import QueryPredicates.Expr.Walk
import QueryPredicates.Proofs.Expr.Nodes

/-! Setting the flag of an access. It goes from the root of an expression to its leaves and changes
columns only, so every node keeps its kind, its type and its operands but for the flags in them, and
an expression without a column, such as a constant, stays as it is. -/

namespace QueryPredicates

variable (access : AccessId) (flag : Bool)

@[simp] theorem Column.type_setEvaluatable (c : Column) :
    (c.setEvaluatable access flag).type = c.type := by
  unfold setEvaluatable
  split <;> rfl

namespace Expr

@[simp] theorem type_setEvaluatable (e : Expr) : (e.setEvaluatable access flag).type = e.type := by
  cases e <;> simp [setEvaluatable, type]

@[simp] theorem constant?_setEvaluatable (e : Expr) :
    (e.setEvaluatable access flag).constant? = e.constant? := by
  cases e <;> rfl

@[simp] theorem isConstant_setEvaluatable (e : Expr) :
    (e.setEvaluatable access flag).isConstant = e.isConstant := by
  simp [isConstant]

@[simp] theorem isNullConstant_setEvaluatable (e : Expr) :
    (e.setEvaluatable access flag).isNullConstant = e.isNullConstant := by
  simp [isNullConstant]

@[simp] theorem isParameter_setEvaluatable (e : Expr) :
    (e.setEvaluatable access flag).isParameter = e.isParameter := by
  cases e <;> rfl

@[simp] theorem column?_setEvaluatable (e : Expr) :
    (e.setEvaluatable access flag).column? = e.column?.map (Column.setEvaluatable access flag) := by
  cases e <;> rfl

theorem setEvaluatable_of_isConstant {e : Expr} (h : e.isConstant = true) :
    e.setEvaluatable access flag = e := by
  cases e <;> first
    | rfl
    | cases h

theorem depths_map {f : Expr → Expr} {es : List Expr} (h : ∀ e ∈ es, (f e).depth = e.depth) :
    depths (es.map f) = depths es := by
  induction es with
  | nil => rfl
  | cons e es ih =>
    obtain ⟨hhead, htail⟩ := List.forall_mem_cons.mp h
    rw [List.map_cons, depths, depths, hhead, ih htail]

theorem depth_setEvaluatable (e : Expr) : (e.setEvaluatable access flag).depth = e.depth := by
  induction e using children_induction with
  | node e ih =>
    cases e with
    | comparison op left right whenOperand =>
      have hl := ih left (by simp [children])
      have hr := ih right (by simp [children])
      simp only [setEvaluatable, depth, hl, hr]
    | nullTest operand negated =>
      have ho := ih operand (by simp [children])
      simp only [setEvaluatable, depth, ho]
    | inList operand first rest =>
      have ho := ih operand (by simp [children])
      have hf := ih first (by simp [children])
      have hrest : depths (rest.map (setEvaluatable access flag)) = depths rest :=
        depths_map fun e he => ih e (by simp [children, he])
      simp only [setEvaluatable, setAllEvaluatable_eq_map, depth, ho, hf, hrest]
    | _ => rfl

end Expr
end QueryPredicates
