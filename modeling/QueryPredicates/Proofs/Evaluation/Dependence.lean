import QueryPredicates.Evaluation.Basic
import QueryPredicates.Proofs.Expr.Leaves

/-! What an evaluation depends on. Of its context it uses the hooks and the values of the leaves of its
expression, and nothing else; so on two rows that differ in one access only, an expression that does
not refer to this access is evaluated alike. -/

namespace QueryPredicates

namespace Context

/-- The value of a leaf, if it is one that the context decides. -/
def value? (ctx : Context) : Leaf → Option Value
  | .column c => ctx.column c
  | .parameter index => ctx.parameter index
  | .sequence _ => none

variable {ctx ctx' : Context}

theorem test_congr (hooks : ctx.hooks = ctx'.hooks) : ctx.test = ctx'.test := by
  funext op l r
  rw [test, test, hooks]

theorem comparison_congr (hooks : ctx.hooks = ctx'.hooks) : ctx.comparison = ctx'.comparison := by
  funext op left right
  simp only [comparison, against, test_congr hooks]

theorem search_congr (hooks : ctx.hooks = ctx'.hooks) (v : Value)
    (candidates : List (Evaluation Value)) (sofar : Truth) :
    ctx.search v sofar candidates = ctx'.search v sofar candidates := by
  induction candidates generalizing sofar with
  | nil => rfl
  | cons candidate candidates ih => simp only [search, test_congr hooks, ih]

theorem membership_congr (hooks : ctx.hooks = ctx'.hooks) : ctx.membership = ctx'.membership := by
  funext operand candidates
  simp only [membership, search_congr hooks]

end Context

/-- Where the hooks and the values of the leaves are the same, so are the evaluations. -/
theorem Expr.eval_congr {ctx ctx' : Context} (hooks : ctx.hooks = ctx'.hooks) {e : Expr}
    (h : ∀ leaf ∈ e.leaves, ctx.value? leaf = ctx'.value? leaf) : e.eval ctx = e.eval ctx' := by
  induction e using children_induction with
  | node e ih =>
    have ih' : ∀ child ∈ e.children, child.eval ctx = child.eval ctx' := fun child hc =>
      ih child hc fun leaf hleaf => h leaf (mem_leaves_iff.mpr (.inr ⟨child, hc, hleaf⟩))
    have hself : ∀ leaf, e.leaf? = some leaf → ctx.value? leaf = ctx'.value? leaf :=
      fun leaf hleaf => h leaf (mem_leaves_iff.mpr (.inl hleaf))
    cases e with
    | constant k => rfl
    | column c =>
      have hc : ctx.column c = ctx'.column c := hself _ rfl
      rw [eval, eval, Context.readColumn, Context.readColumn, hc]
    | parameter p =>
      have hp : ctx.parameter p.index = ctx'.parameter p.index := hself _ rfl
      rw [eval, eval, Context.readParameter, Context.readParameter, hp]
    | nextValue s => rfl
    | comparison op left right whenOperand =>
      have hl := ih' left (by simp [children])
      have hr := ih' right (by simp [children])
      rw [eval, eval, Context.comparison_congr hooks, hl, hr]
    | nullTest operand negated =>
      have ho := ih' operand (by simp [children])
      rw [eval, eval, ho]
    | inList operand first rest =>
      have ho := ih' operand (by simp [children])
      have hf := ih' first (by simp [children])
      have hr : evals ctx rest = evals ctx' rest := by
        rw [evals_eq_map, evals_eq_map]
        exact List.map_congr_left fun e he => ih' e (by simp [children, he])
      rw [eval, eval, Context.membership_congr hooks, ho, hf, hr]

/-- The rows give the same values to the columns of all accesses but one. -/
def Row.AgreesBut (access : AccessId) (row row' : Row) : Prop :=
  ∀ c : Column, c.access ≠ access → row.column c = row'.column c

theorem Expr.eval_eq_of_not_references {access : AccessId} {row row' : Row} (session : Session)
    {e : Expr} (he : e.references access = false) (h : row.AgreesBut access row') :
    e.eval (session.withRow row) = e.eval (session.withRow row') := by
  refine @eval_congr (session.withRow row) (session.withRow row') rfl e fun leaf hleaf => ?_
  cases leaf with
  | column c =>
    refine h c fun haccess => ?_
    exact Bool.false_ne_true (he.symm.trans (references_iff.mpr ⟨c, hleaf, haccess⟩))
  | parameter index => rfl
  | sequence s => rfl

end QueryPredicates
