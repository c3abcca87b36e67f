import QueryPredicates.Proofs.Evaluation.Run
import QueryPredicates.Proofs.Expr.Columns
import QueryPredicates.Evaluation.Basic

/-! Evaluation where columns are mapped to others that the context cannot tell from them. What comes out
and the counters stay as they are, and the record and an error name the mapped columns in place of the
old ones. A run is retold entry by entry, which commutes with all the ways runs are put together, and so
with evaluation. -/

namespace QueryPredicates

namespace Run

variable {ε ω α β : Type} (g : ε → ε) (h : ω → ω)

/-- The run with its error and each entry of its record told in other words. -/
def retell (m : Run ε ω α) : Run ε ω α := fun counters =>
  ⟨(m counters).outcome.mapError g, (m counters).counters, (m counters).record.map h⟩

theorem retell_bind (m : Run ε ω α) (k : α → Run ε ω β) :
    (m >>= k).retell g h = m.retell g h >>= fun a => (k a).retell g h := by
  funext counters
  cases ho : (m counters).outcome with
  | error e =>
    have ho' : (m.retell g h counters).outcome = .error (g e) := by rw [retell, ho]; rfl
    rw [bind_of_error ho', retell, bind_of_error ho]
    rfl
  | ok a =>
    have ho' : (m.retell g h counters).outcome = .ok a := by rw [retell, ho]; rfl
    rw [bind_of_ok ho', retell, bind_of_ok ho, List.map_append]
    rfl

theorem retell_map (f : α → β) (m : Run ε ω α) : (f <$> m).retell g h = f <$> m.retell g h := by
  rw [← bind_pure_comp, ← bind_pure_comp, retell_bind]
  rfl

end Run

variable (f : Column → Column)

def Act.mapColumns : Act → Act
  | readColumn c => readColumn (f c)
  | readParameter index => readParameter index
  | advance call => advance call
  | compare mode l r => compare mode l r
  | same l r => same l r

def EvalError.mapColumns : EvalError → EvalError
  | columnWithoutValue c => columnWithoutValue (f c)
  | parameterNotSet index => parameterNotSet index

/-- Names the mapped columns wherever the evaluation names a column. -/
def Evaluation.mapColumns {α : Type} (m : Evaluation α) : Evaluation α :=
  m.retell (EvalError.mapColumns f) (Act.mapColumns f)

namespace Context

variable (ctx : Context)

theorem hookCalls_mapColumns (op : Comparator) (l r : Value) :
    (hookCalls op l r).map (Act.mapColumns f) = hookCalls op l r := by
  unfold hookCalls
  cases op.question <;> rfl

theorem test_mapColumns (op : Comparator) (l r : Value) :
    (ctx.test op l r).mapColumns f = ctx.test op l r := by
  have hcalls : (Run.note (hookCalls op l r)).retell (EvalError.mapColumns f) (Act.mapColumns f) =
      Run.note (hookCalls op l r) := by
    funext counters
    rw [Run.retell, Run.note, hookCalls_mapColumns]
    rfl
  rw [test, Evaluation.mapColumns, Run.retell_bind, hcalls]
  rfl

theorem against_mapColumns (op : Comparator) (l : Value) (right : Evaluation Value) :
    (ctx.against op l right).mapColumns f = ctx.against op l (right.mapColumns f) := by
  unfold against
  split
  · rfl
  · rw [Evaluation.mapColumns, Run.retell_bind]
    exact congrArg _ (funext fun r => ctx.test_mapColumns f op l r)

theorem comparison_mapColumns (op : Comparator) (left right : Evaluation Value) :
    (ctx.comparison op left right).mapColumns f =
      ctx.comparison op (left.mapColumns f) (right.mapColumns f) := by
  rw [comparison, Evaluation.mapColumns, Run.retell_bind]
  exact congrArg _ (funext fun l => ctx.against_mapColumns f op l right)

theorem nullTest_mapColumns (operand : Evaluation Value) (negated : Bool) :
    (nullTest operand negated).mapColumns f = nullTest (operand.mapColumns f) negated := by
  rw [nullTest, Evaluation.mapColumns, Run.retell_bind]
  rfl

theorem search_mapColumns (v : Value) (candidates : List (Evaluation Value)) (sofar : Truth) :
    (ctx.search v sofar candidates).mapColumns f =
      ctx.search v sofar (candidates.map (Evaluation.mapColumns f)) := by
  induction candidates generalizing sofar with
  | nil => rfl
  | cons candidate candidates ih =>
    rw [search, Evaluation.mapColumns, Run.retell_bind]
    refine congrArg _ (funext fun w => ?_)
    rw [Run.retell_bind]
    refine congr (congrArg _ (ctx.test_mapColumns f .equal v w)) (funext fun answer => ?_)
    cases answer with
    | holds => rfl
    | unknown => exact ih .unknown
    | fails => exact ih sofar

theorem membership_mapColumns (operand : Evaluation Value) (candidates : List (Evaluation Value)) :
    (ctx.membership operand candidates).mapColumns f =
      ctx.membership (operand.mapColumns f) (candidates.map (Evaluation.mapColumns f)) := by
  rw [membership, Evaluation.mapColumns, Run.retell_bind]
  refine congrArg _ (funext fun v => ?_)
  split
  · rfl
  · exact ctx.search_mapColumns f v candidates .fails

variable {f} {ctx}

theorem readColumn_mapColumns {c : Column} (hc : ctx.column (f c) = ctx.column c) :
    (ctx.readColumn c).mapColumns f = ctx.readColumn (f c) := by
  unfold readColumn
  rw [hc]
  cases ctx.column c <;> rfl

theorem readParameter_mapColumns (p : Parameter) :
    (ctx.readParameter p).mapColumns f = ctx.readParameter p := by
  unfold readParameter
  cases ctx.parameter p.index <;> rfl

end Context

variable {f} {ctx : Context}

/-- An expression with mapped columns evaluates as it did, if the context gives a column and the one it
is mapped to the same value. -/
theorem Expr.eval_mapColumns (hf : ∀ c, ctx.column (f c) = ctx.column c) (e : Expr) :
    (e.mapColumns f).eval ctx = (e.eval ctx).mapColumns f := by
  induction e using children_induction with
  | node e ih =>
    cases e with
    | column c => exact (Context.readColumn_mapColumns (hf c)).symm
    | parameter p => exact (Context.readParameter_mapColumns p).symm
    | comparison op left right whenOperand =>
      have hl := ih left (by simp [children])
      have hr := ih right (by simp [children])
      rw [mapColumns, eval, eval, hl, hr, ← Context.comparison_mapColumns]
      exact (Run.retell_map ..).symm
    | nullTest operand negated =>
      have ho := ih operand (by simp [children])
      rw [mapColumns, eval, eval, ho, ← Context.nullTest_mapColumns]
      exact (Run.retell_map ..).symm
    | inList operand first rest =>
      have ho := ih operand (by simp [children])
      have hvalues : (first.mapColumns f).eval ctx :: evals ctx (mapColumnsOfAll f rest) =
          (first.eval ctx :: evals ctx rest).map (Evaluation.mapColumns f) := by
        have hf' := ih first (by simp [children])
        have hr : ∀ e ∈ rest, (e.mapColumns f).eval ctx = (e.eval ctx).mapColumns f :=
          fun e he => ih e (by simp [children, he])
        rw [evals_eq_map, evals_eq_map, mapColumnsOfAll_eq_map, List.map_map, List.map_cons,
          List.map_map, hf']
        exact congrArg _ (List.map_congr_left hr)
      rw [mapColumns, eval, eval, ho, hvalues, ← Context.membership_mapColumns]
      exact (Run.retell_map ..).symm
    | _ => rfl

namespace Comparison

theorem eval_mapColumns (hf : ∀ c, ctx.column (f c) = ctx.column c) (c : Comparison) :
    (c.mapColumns f).eval ctx = (c.eval ctx).mapColumns f := by
  have hl := Expr.eval_mapColumns hf c.left
  have hr := Expr.eval_mapColumns hf c.right
  rw [eval, eval, Context.comparison_mapColumns, ← hl, ← hr]
  rfl

theorem evalWhen_mapColumns (hf : ∀ c, ctx.column (f c) = ctx.column c) (c : Comparison)
    (caseValue : Value) :
    (c.mapColumns f).evalWhen ctx caseValue = (c.evalWhen ctx caseValue).mapColumns f := by
  have hw : (c.mapColumns f).whenOperand = c.whenOperand := rfl
  rw [evalWhen, evalWhen, eval_mapColumns hf, hw]
  split
  · rw [Context.against_mapColumns, ← Expr.eval_mapColumns hf]
    rfl
  · rw [Evaluation.mapColumns, Evaluation.mapColumns, Run.retell_bind]
    exact congrArg _ (funext fun own => (ctx.test_mapColumns f .equal caseValue own.toValue).symm)

end Comparison
end QueryPredicates
