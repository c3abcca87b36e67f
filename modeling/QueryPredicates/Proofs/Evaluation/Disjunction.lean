import QueryPredicates.Proofs.Evaluation.Meaning

/-! Lists as disjunctions. Whatever the hooks, an IN list answers as the equalities of its operand with
its candidates do, joined by OR: true if one of them is true, else unknown if one is unknown, else false.
So neither the order of the candidates matters nor whether one of them occurs twice, and a candidate
that is added counts as one more equality. -/

namespace QueryPredicates
open Run

namespace Truth

theorem foldr_or_congr {ts us : List Truth} (h : ∀ t, t ∈ ts ↔ t ∈ us) :
    ts.foldr Truth.or .fails = us.foldr Truth.or .fails := by
  simp only [foldr_or, h]

theorem foldr_or_concat (ts : List Truth) (t : Truth) :
    (ts ++ [t]).foldr Truth.or .fails = (ts.foldr Truth.or .fails).or t := by
  have hswap : (ts ++ [t]).foldr Truth.or .fails = (t :: ts).foldr Truth.or .fails :=
    foldr_or_congr fun u => by simp [or_comm]
  rw [hswap, List.foldr_cons]
  cases t <;> cases ts.foldr Truth.or .fails <;> rfl

end Truth

namespace InList

variable {ctx : Context} {l : InList}

/-- The truth of the operand being equal to each candidate. -/
def equalities (ctx : Context) (l : InList) : List Truth :=
  l.values.map fun v => ctx.verdict .equal (l.operand.meaning ctx) (v.meaning ctx)

theorem forall_nodes_toExpr : (∀ n ∈ l.toExpr.nodes, ctx.Provides n) ↔
    (∀ n ∈ l.operand.nodes, ctx.Provides n) ∧ ∀ v ∈ l.values, ∀ n ∈ v.nodes, ctx.Provides n := by
  rw [toExpr, Expr.forall_nodes_inList, values, List.forall_mem_cons]
  exact and_iff_right trivial

theorem equality_yields {operand v : Expr} (ho : ∀ n ∈ operand.nodes, ctx.Provides n)
    (hv : ∀ n ∈ v.nodes, ctx.Provides n) :
    Yields (Comparison.eval ctx ⟨.equal, operand, v, false⟩)
      (.ok (ctx.verdict .equal (operand.meaning ctx) (v.meaning ctx))) :=
  Context.comparison_yields .equal (operand.eval_yields ho) (v.eval_yields hv)

/-- Under any hooks a list evaluates to the disjunction of its equalities. -/
theorem eval_equalities_yields (ho : ∀ n ∈ l.operand.nodes, ctx.Provides n)
    (hv : ∀ v ∈ l.values, ∀ n ∈ v.nodes, ctx.Provides n) :
    Yields (l.eval ctx) (.ok ((l.equalities ctx).foldr Truth.or .fails)) := by
  have hyields := eval_yields ho hv
  rwa [values, List.map_cons, Context.amongTruth_cons, ← List.map_cons, List.map_map] at hyields

theorem values_pushValue (l : InList) (v : Expr) : (l.pushValue v).values = l.values ++ [v] := rfl

/-- A list is the disjunction of its equalities. It evaluates to the OR of what the equalities of its
operand with its candidates evaluate to; one more candidate joins its equality to the others by OR; and
any list of the same operand and the same candidates, in whatever order and as often as they occur,
evaluates alike. -/
theorem eval_disjunction (h : ∀ n ∈ l.toExpr.nodes, ctx.Provides n) :
    ∃ ts r, List.Forall₂ (fun v t =>
        Yields (Comparison.eval ctx ⟨.equal, l.operand, v, false⟩) (.ok t)) l.values ts ∧
      r = ts.foldr Truth.or .fails ∧ Yields (l.eval ctx) (.ok r) ∧
      (∀ v, (∀ n ∈ v.nodes, ctx.Provides n) →
        ∃ t, Yields (Comparison.eval ctx ⟨.equal, l.operand, v, false⟩) (.ok t) ∧
          Yields ((l.pushValue v).eval ctx) (.ok (r.or t))) ∧
      ∀ l' : InList, l'.operand = l.operand → (∀ v, v ∈ l'.values ↔ v ∈ l.values) →
        Yields (l'.eval ctx) (.ok r) := by
  obtain ⟨ho, hv⟩ := forall_nodes_toExpr.mp h
  refine ⟨l.equalities ctx, _, ?_, rfl, eval_equalities_yields ho hv, fun v hnew => ?_,
    fun l' hoperand hsame => ?_⟩
  · rw [equalities, List.forall₂_map_right_iff, List.forall₂_same]
    exact fun v hmem => equality_yields ho (hv v hmem)
  · refine ⟨_, equality_yields ho hnew, ?_⟩
    have hall : ∀ w ∈ (l.pushValue v).values, ∀ n ∈ w.nodes, ctx.Provides n := by
      rw [values_pushValue]
      exact List.forall_mem_append.mpr ⟨hv, List.forall_mem_singleton.mpr hnew⟩
    have hyields := eval_equalities_yields (l := l.pushValue v) ho hall
    rwa [equalities, values_pushValue, List.map_append, List.map_singleton,
      Truth.foldr_or_concat] at hyields
  · have hyields : Yields (l'.eval ctx) (.ok ((l'.equalities ctx).foldr Truth.or .fails)) := by
      refine eval_equalities_yields ?_ fun v hmem => hv v ((hsame v).mp hmem)
      rwa [hoperand]
    have hmembers : ∀ t, t ∈ l'.equalities ctx ↔ t ∈ l.equalities ctx := by
      intro t
      simp only [equalities, List.mem_map, hoperand, hsame]
    rwa [Truth.foldr_or_congr hmembers] at hyields

/-- Where T.A is 2, `T.A IN (1, NULL)` is unknown, and so it is with the candidates turned round and one
of them repeated; with 2 as one more candidate it is true. -/
theorem eval_disjunction_null :
    let column : Expr := .column ⟨1, "T", "A", .int, true⟩
    let one : Expr := .constant ⟨.int 1, .int⟩
    let two : Expr := .constant ⟨.int 2, .int⟩
    let list : InList := ⟨column, one, [.null]⟩
    let row : Context := Session.withRow {} (.joined [(1, [("A", .int 2)])])
    (∀ n ∈ list.toExpr.nodes, row.Provides n) ∧ Yields (list.eval row) (.ok .unknown) ∧
      Yields (InList.eval row ⟨column, .null, [one, .null]⟩) (.ok .unknown) ∧
      Yields ((list.pushValue two).eval row) (.ok .holds) := by
  intro column one two list row
  have hprovides : ∀ n ∈ list.toExpr.nodes, row.Provides n := by
    refine forall_nodes_toExpr.mpr ⟨(Expr.forall_nodes_of_leaf rfl).mpr rfl, ?_⟩
    refine List.forall_mem_cons.mpr ⟨(Expr.forall_nodes_of_leaf rfl).mpr trivial, ?_⟩
    exact List.forall_mem_singleton.mpr ((Expr.forall_nodes_of_leaf rfl).mpr trivial)
  obtain ⟨-, r, -, -, hlist, hpush, hsame⟩ := eval_disjunction hprovides
  have hunknown : r = .unknown := hlist.returns_unique fun _ => ⟨rfl, rfl⟩
  obtain ⟨t, hequality, hpushed⟩ := hpush two ((Expr.forall_nodes_of_leaf rfl).mpr trivial)
  have hholds : t = .holds := hequality.returns_unique fun _ => ⟨rfl, rfl⟩
  rw [hunknown] at hlist hsame hpushed
  rw [hholds] at hpushed
  refine ⟨hprovides, hlist, hsame _ rfl fun v => ?_, hpushed⟩
  simp only [list, values, List.mem_cons, List.not_mem_nil, or_false]
  tauto

end InList
end QueryPredicates
