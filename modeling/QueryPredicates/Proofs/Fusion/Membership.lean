import QueryPredicates.Proofs.Fusion.Matching

/-! What is fused from the disjunction of two equalities. The list says of every row what the
disjunction says, true, false or unknown: it puts the shared operand first where an equality may
have it last, which is no matter, since equality is symmetric and is unknown beside a NULL on
either side. -/

namespace QueryPredicates
namespace Comparison

theorem membership?_eq_some {a b : Comparison} {l : InList} (h : a.membership? b = some l) :
    a.op = .equal ∧ b.op = .equal ∧ ∃ p matched, a.membershipPairing? b = some (p, matched) ∧
      l = ⟨p.shared, p.first, [p.second]⟩ := by
  unfold membership? at h
  split at h
  · cases h
  · rename_i hop
    simp only [Bool.or_eq_true, bne_iff_ne, ne_eq, not_or, not_not] at hop
    obtain ⟨p, hp, rfl⟩ := Option.map_eq_some_iff.mp h
    obtain ⟨⟨p, matched⟩, hfind, rfl⟩ := Option.map_eq_some_iff.mp hp
    exact ⟨hop.1, hop.2, p, matched, hfind, rfl⟩

variable {ctx : Context}

/-- A list of two candidates is the disjunction of two equalities. -/
theorem eval_pair_yields (hooks : ctx.hooks = .standard) {e x y : Expr}
    (he : ∀ n ∈ e.nodes, ctx.Provides n) (hx : ∀ n ∈ x.nodes, ctx.Provides n)
    (hy : ∀ n ∈ y.nodes, ctx.Provides n) :
    Run.Yields (InList.eval ctx ⟨e, x, [y]⟩)
      (.ok ((Comparator.equal.truth (e.meaning ctx) (x.meaning ctx)).or
        (Comparator.equal.truth (e.meaning ctx) (y.meaning ctx)))) := by
  have hcandidates : ∀ v ∈ [x, y], ∀ n ∈ v.nodes, ctx.Provides n :=
    List.forall_mem_cons.mpr ⟨hx, List.forall_mem_singleton.mpr hy⟩
  have hyields := InList.eval_yields (l := ⟨e, x, [y]⟩) he hcandidates
  simpa only [InList.values, Context.amongTruth_cons, List.map_cons, List.map_nil, List.foldr_cons,
    List.foldr_nil, Context.verdict_standard hooks, Truth.or_fails] using hyields

/-- Membership fusion is exact: where two equalities that share an operand are fused to a list, both
and the list evaluate, and the list to the disjunction of the two. -/
theorem membership?_exact {a b : Comparison} {l : InList} {p : SharedOperand}
    (hooks : ctx.hooks = .standard) (ha : ∀ n ∈ a.toExpr.nodes, ctx.Provides n)
    (hb : ∀ n ∈ b.toExpr.nodes, ctx.Provides n) (h : a.membership? b = some l)
    (hp : a.membershipPairing? b = some (p, p.shared)) :
    ∃ s t, Run.Yields (a.eval ctx) (.ok s) ∧ Run.Yields (b.eval ctx) (.ok t) ∧
      Run.Yields (l.eval ctx) (.ok (s.or t)) := by
  obtain ⟨hopa, hopb, p', matched, hp', rfl⟩ := membership?_eq_some h
  cases hp.symm.trans hp'
  obtain ⟨hfirst, hsecond⟩ := hasOperands_of_mem_pairings (List.mem_of_find?_eq_some hp)
  obtain ⟨hs, hf⟩ := provides_of_hasOperands hfirst ha
  obtain ⟨-, hq⟩ := provides_of_hasOperands hsecond hb
  exact ⟨_, _, eval_equal_yields hooks hopa hfirst hs hf, eval_equal_yields hooks hopb hsecond hs hq,
    eval_pair_yields hooks hs hf hq⟩

/-- Of a row with `T.A = 2`, the disjunction of `T.A = 1` and `NULL = T.A` and the list of both are
unknown. -/
theorem membership?_exact_null :
    let column : Expr := .column ⟨1, "T", "A", .int, true⟩
    let one : Expr := .constant ⟨.int 1, .int⟩
    let row : Context := Session.withRow {} (.joined [(1, [("A", .int 2)])])
    membership? ⟨.equal, column, one, false⟩ ⟨.equal, .null, column, false⟩ =
      some ⟨column, one, [.null]⟩ ∧
    ∃ s t, Run.Yields (eval row ⟨.equal, column, one, false⟩) (.ok s) ∧
      Run.Yields (eval row ⟨.equal, .null, column, false⟩) (.ok t) ∧
      Run.Yields (InList.eval row ⟨column, one, [.null]⟩) (.ok (s.or t)) := by
  intro column one row
  have hfused : membership? ⟨.equal, column, one, false⟩ ⟨.equal, .null, column, false⟩ =
      some ⟨column, one, [.null]⟩ := rfl
  refine ⟨hfused, membership?_exact rfl ?_ ?_ hfused (p := ⟨column, one, .null⟩) rfl⟩ <;>
  · rw [toExpr, Expr.forall_nodes_comparison, Expr.forall_nodes_of_leaf rfl,
      Expr.forall_nodes_of_leaf rfl]
    exact ⟨trivial, by trivial, by trivial⟩

end Comparison
end QueryPredicates
