import QueryPredicates.Proofs.Evaluation.Order
import QueryPredicates.Proofs.Optimization.Equations
import QueryPredicates.Proofs.Optimization.Preservation

/-! Tests of case branches. A `WHEN` operand is evaluated as the comparison in which the case value stands
as a constant on the left; its own left operand, the case operand, is left alone. The pass simplifies its
operands and then goes no further, so it stays a `WHEN` operand of the same comparator, and it says of
every case value what it said before. -/

namespace QueryPredicates.Comparison
open Run Evaluation

variable (ctx : Context) (op : Comparator) (left right : Expr) (v : Value)

/-! ## Evaluation -/

theorem evalWhen_eq_eval (type : SqlType) :
    evalWhen ctx ⟨op, left, right, true⟩ v =
      eval ctx ⟨op, .constant ⟨v, type⟩, right, false⟩ := by
  have heval : eval ctx ⟨op, .constant ⟨v, type⟩, right, false⟩ =
      pure v >>= fun l => ctx.against op l (right.eval ctx) := rfl
  rw [heval, pure_bind]
  rfl

theorem evalWhen_reads : Reads right.leaves (evalWhen ctx ⟨op, left, right, true⟩ v) :=
  reads_composes.against ctx op v (eval_reads ctx right)

variable {ctx right}

theorem evalWhen_yields (h : ∀ n ∈ right.nodes, ctx.Provides n) :
    Yields (evalWhen ctx ⟨op, left, right, true⟩ v) (.ok (ctx.verdict op v (right.meaning ctx))) :=
  Context.against_yields op v (right.eval_yields h)

/-! ## The pass -/

variable {op left}

theorem simplified_whenOperand {e' : Expr}
    (h : (Expr.comparison op left right true).simplified = .ok e') :
    ∃ left' right', left.simplified = .ok left' ∧ right.simplified = .ok right' ∧
      e' = .comparison op left' right' true := by
  rw [Expr.simplified_comparison] at h
  obtain ⟨left', hl, h⟩ := Except.eq_ok_of_bind h
  obtain ⟨right', hr, h⟩ := Except.eq_ok_of_bind h
  obtain ⟨-, ⟨-, he⟩ | ⟨hwhen, -⟩⟩ := simplified_cases h
  · exact ⟨left', right', hl, hr, he⟩
  · cases hwhen

/-- What stands for the right operand gives the test the same answer. -/
theorem evalWhen_standsFor {right' left' : Expr} (h : right.StandsFor ctx right')
    (hright : right.AdmittedBy ctx) :
    ∃ t, Yields (evalWhen ctx ⟨op, left, right, true⟩ v) (.ok t) ∧
      Yields (evalWhen ctx ⟨op, left', right', true⟩ v) (.ok t) := by
  have hprovides {e : Expr} (he : e.AdmittedBy ctx) : ∀ n ∈ e.nodes, ctx.Provides n :=
    fun n hn => Context.provides_of_admits (he n hn)
  have hyields := evalWhen_yields op left' v (hprovides (h.admitted hright))
  rw [h.meaning hright] at hyields
  exact ⟨_, evalWhen_yields op left v (hprovides hright), hyields⟩

/-- The case value is put in the place of the case operand. In every context the test of a branch does what
the comparison of the case value with its right operand does, which is to read leaves of the right operand
only. If it is simplified at all, it is to the test with the same comparator and both operands simplified;
with the standard hooks, and where the right operand has no sequence and is admitted, both tests answer
alike for every case value. -/
theorem whenOperand_substitutes (op : Comparator) (left right : Expr) :
    (∀ (ctx : Context) (v : Value),
      (∀ type, evalWhen ctx ⟨op, left, right, true⟩ v =
        eval ctx ⟨op, .constant ⟨v, type⟩, right, false⟩) ∧
      Reads right.leaves (evalWhen ctx ⟨op, left, right, true⟩ v)) ∧
    ∀ (session : Session) (counters : Counters) (e' : Expr),
      (Expr.optimize session (.comparison op left right true) counters).outcome = .ok e' →
      ∃ left' right', Yields (left.optimize session) (.ok left') ∧
        Yields (right.optimize session) (.ok right') ∧ e' = .comparison op left' right' true ∧
        ∀ ctx : Context, ctx.hooks = .standard → (∀ n ∈ right.nodes, ctx.Admits n) → ∀ v,
          ∃ t, Yields (evalWhen ctx ⟨op, left, right, true⟩ v) (.ok t) ∧
            Yields (evalWhen ctx ⟨op, left', right', true⟩ v) (.ok t) := by
  refine ⟨fun ctx v => ⟨evalWhen_eq_eval ctx op left right v, evalWhen_reads ctx op left right v⟩, ?_⟩
  intro session counters e' h
  have hpass := ((Expr.optimize_yields session _).outcome_iff counters).mp h
  obtain ⟨left', right', hl, hr, he⟩ := simplified_whenOperand hpass
  have hleft := Expr.optimize_yields session left
  have hright := Expr.optimize_yields session right
  rw [hl] at hleft
  rw [hr] at hright
  refine ⟨left', right', hleft, hright, he, fun ctx hooks hadmits v => ?_⟩
  exact evalWhen_standsFor v (Expr.standsFor_simplified hooks hr) hadmits

/-- `CASE T.B WHEN < (NULL IS NOT DISTINCT FROM T.A)` tests for T.A being NULL once it is simplified, and
answers as before if T.A is NULL and the case value false. -/
theorem whenOperand_substitutes_nullTest :
    let a : Expr := .column ⟨1, "T", "A", .int, true⟩
    let b : Expr := .column ⟨1, "T", "B", .boolean, true⟩
    let distinct : Expr := .comparison .equalNullSafe .null a false
    let row : Context := Session.withRow {} (.joined [(1, [("A", .null)])])
    (Expr.optimize {} (.comparison .less b distinct true) fun _ => 0).outcome =
        .ok (.comparison .less b (.nullTest a false) true) ∧
      (∀ n ∈ distinct.nodes, row.Admits n) ∧
      ∃ t, Yields (evalWhen row ⟨.less, b, distinct, true⟩ (.bool false)) (.ok t) ∧
        Yields (evalWhen row ⟨.less, b, .nullTest a false, true⟩ (.bool false)) (.ok t) := by
  intro a b distinct row
  have hpass : (Expr.optimize {} (.comparison .less b distinct true) fun _ => 0).outcome =
      .ok (.comparison .less b (.nullTest a false) true) := rfl
  have hadmits : ∀ n ∈ distinct.nodes, row.Admits n := by
    refine Expr.forall_nodes_comparison.mpr ⟨trivial, (Expr.forall_nodes_of_leaf rfl).mpr (.inl rfl), ?_⟩
    exact (Expr.forall_nodes_of_leaf rfl).mpr ⟨.null, rfl, .inl rfl⟩
  obtain ⟨left', right', -, -, he, hanswers⟩ :=
    (whenOperand_substitutes .less b distinct).2 {} (fun _ => 0) _ hpass
  cases he
  exact ⟨hpass, hadmits, hanswers row rfl hadmits (.bool false)⟩

end QueryPredicates.Comparison
