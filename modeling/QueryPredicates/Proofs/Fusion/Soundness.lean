import QueryPredicates.Fusion
import QueryPredicates.Proofs.Evaluation.Meaning
import QueryPredicates.Proofs.Value.Transitivity

/-! What follows from two equalities that hold. The equality derived from them is no weaker than the
transitivity of equality: it holds of every row of which both hold and where the values of the three
operands have types that let equality pass on. Of other rows it may fail, and a conjunction that it
is added to loses them. -/

namespace QueryPredicates
namespace Comparison

/-- The comparison has the two operands, on whichever sides. -/
def HasOperands (c : Comparison) (x y : Expr) : Prop :=
  c.left = x ∧ c.right = y ∨ c.left = y ∧ c.right = x

theorem hasOperands_of_mem_pairings {a b : Comparison} {p : SharedOperand} {matched : Expr}
    (h : (p, matched) ∈ pairings a b) :
    a.HasOperands p.shared p.first ∧ b.HasOperands matched p.second := by
  simp only [pairings, List.mem_cons, Prod.mk.injEq, List.not_mem_nil, or_false] at h
  obtain ⟨rfl, rfl⟩ | ⟨rfl, rfl⟩ | ⟨rfl, rfl⟩ | ⟨rfl, rfl⟩ := h
  · exact ⟨.inl ⟨rfl, rfl⟩, .inl ⟨rfl, rfl⟩⟩
  · exact ⟨.inl ⟨rfl, rfl⟩, .inr ⟨rfl, rfl⟩⟩
  · exact ⟨.inr ⟨rfl, rfl⟩, .inl ⟨rfl, rfl⟩⟩
  · exact ⟨.inr ⟨rfl, rfl⟩, .inr ⟨rfl, rfl⟩⟩

/-- The operand of the first that is taken to be shared, with its partners, and the operand of the
second that it was matched with. -/
def transitivePairing? (a b : Comparison) : Option (SharedOperand × Expr) :=
  (pairings a b).find? fun (p, matched) =>
    !(p.first.isConstant && p.second.isConstant) && p.shared.sql == matched.sql

theorem transitiveEqual?_eq_some {a b c : Comparison} (h : a.transitiveEqual? b = some c) :
    a.op = .equal ∧ b.op = .equal ∧ ∃ p matched, a.transitivePairing? b = some (p, matched) ∧
      c = ⟨.equal, p.first, p.second, false⟩ := by
  unfold transitiveEqual? at h
  split at h
  · cases h
  · rename_i hop
    simp only [Bool.or_eq_true, bne_iff_ne, ne_eq, not_or, not_not] at hop
    obtain ⟨p, hp, rfl⟩ := Option.map_eq_some_iff.mp h
    obtain ⟨⟨p, matched⟩, hfind, rfl⟩ := Option.map_eq_some_iff.mp hp
    exact ⟨hop.1.1, hop.1.2, p, matched, hfind, rfl⟩

variable {ctx : Context}

/-- An equality evaluates to the truth of its operands, on whichever sides, being equal. -/
theorem eval_equal_yields (hooks : ctx.hooks = .standard) {c : Comparison} {x y : Expr}
    (hop : c.op = .equal) (hxy : c.HasOperands x y) (hx : ∀ n ∈ x.nodes, ctx.Provides n)
    (hy : ∀ n ∈ y.nodes, ctx.Provides n) :
    Run.Yields (c.eval ctx) (.ok (Comparator.equal.truth (x.meaning ctx) (y.meaning ctx))) := by
  have hsides {u v : Value} (hl : Run.Yields (c.left.eval ctx) (.ok u))
      (hr : Run.Yields (c.right.eval ctx) (.ok v)) :
      Run.Yields (c.eval ctx) (.ok (Comparator.equal.truth u v)) := by
    rw [eval, hop, ← Context.verdict_standard hooks]
    exact Context.comparison_yields .equal hl hr
  obtain ⟨rfl, rfl⟩ | ⟨rfl, rfl⟩ := hxy
  · exact hsides (c.left.eval_yields hx) (c.right.eval_yields hy)
  · rw [Comparator.truth_reverse]
    exact hsides (c.left.eval_yields hy) (c.right.eval_yields hx)

/-- An equality holds if and only if its operands, on whichever sides, have equal values. -/
theorem eval_holds_iff (hooks : ctx.hooks = .standard) {c : Comparison} {x y : Expr}
    (hop : c.op = .equal) (hxy : c.HasOperands x y) (hx : ∀ n ∈ x.nodes, ctx.Provides n)
    (hy : ∀ n ∈ y.nodes, ctx.Provides n) :
    Run.Yields (c.eval ctx) (.ok .holds) ↔ (x.meaning ctx).Equals (y.meaning ctx) := by
  have hyields := eval_equal_yields hooks hop hxy hx hy
  rw [← Value.truth_equal_iff]
  exact ⟨hyields.returns_unique, fun h => h ▸ hyields⟩

theorem provides_of_hasOperands {c : Comparison} {x y : Expr} (hxy : c.HasOperands x y)
    (h : ∀ n ∈ c.toExpr.nodes, ctx.Provides n) :
    (∀ n ∈ x.nodes, ctx.Provides n) ∧ ∀ n ∈ y.nodes, ctx.Provides n := by
  obtain ⟨-, hleft, hright⟩ := Expr.forall_nodes_comparison.mp h
  obtain ⟨rfl, rfl⟩ | ⟨rfl, rfl⟩ := hxy
  · exact ⟨hleft, hright⟩
  · exact ⟨hright, hleft⟩

/-- Transitive fusion is sound where equality is transitive: where two equalities hold that share
an operand, the one that is derived from them holds, if the values of the shared operand and of its
partners are concordant. -/
theorem transitiveEqual?_sound {a b c : Comparison} {p : SharedOperand}
    (hooks : ctx.hooks = .standard) (ha : ∀ n ∈ a.toExpr.nodes, ctx.Provides n)
    (hb : ∀ n ∈ b.toExpr.nodes, ctx.Provides n) (h : a.transitiveEqual? b = some c)
    (hp : a.transitivePairing? b = some (p, p.shared))
    (hc : Value.Concordant (p.shared.meaning ctx) (p.first.meaning ctx) (p.second.meaning ctx))
    (hta : Run.Yields (a.eval ctx) (.ok .holds)) (htb : Run.Yields (b.eval ctx) (.ok .holds)) :
    Run.Yields (c.eval ctx) (.ok .holds) := by
  obtain ⟨hopa, hopb, p', matched, hp', rfl⟩ := transitiveEqual?_eq_some h
  cases hp.symm.trans hp'
  obtain ⟨hfirst, hsecond⟩ := hasOperands_of_mem_pairings (List.mem_of_find?_eq_some hp)
  obtain ⟨hs, hf⟩ := provides_of_hasOperands hfirst ha
  obtain ⟨-, hq⟩ := provides_of_hasOperands hsecond hb
  have hsp := (eval_holds_iff hooks hopa hfirst hs hf).mp hta
  have hsq := (eval_holds_iff hooks hopb hsecond hs hq).mp htb
  exact (eval_holds_iff hooks rfl (.inl ⟨rfl, rfl⟩) hf hq).mpr (hc.equals hsp hsq)

/-- Of `T.A = T.B AND T.A = T.C` follows `T.B = T.C` where `T.A` and `T.B` are integers, of whichever
width. -/
theorem transitiveEqual?_sound_integers :
    transitiveEqual?
        ⟨.equal, .column ⟨1, "T", "A", .int, true⟩, .column ⟨1, "T", "B", .bigInt, true⟩, false⟩
        ⟨.equal, .column ⟨1, "T", "A", .int, true⟩, .column ⟨1, "T", "C", .text, true⟩, false⟩ =
      some ⟨.equal, .column ⟨1, "T", "B", .bigInt, true⟩, .column ⟨1, "T", "C", .text, true⟩, false⟩ ∧
    Run.Yields
      (eval (Session.withRow {}
          (.joined [(1, [("A", .int 1), ("B", .bigInt 1), ("C", .text "01")])]))
        ⟨.equal, .column ⟨1, "T", "B", .bigInt, true⟩, .column ⟨1, "T", "C", .text, true⟩, false⟩)
      (.ok .holds) := by
  have hfused : transitiveEqual?
      ⟨.equal, .column ⟨1, "T", "A", .int, true⟩, .column ⟨1, "T", "B", .bigInt, true⟩, false⟩
      ⟨.equal, .column ⟨1, "T", "A", .int, true⟩, .column ⟨1, "T", "C", .text, true⟩, false⟩ =
    some ⟨.equal, .column ⟨1, "T", "B", .bigInt, true⟩, .column ⟨1, "T", "C", .text, true⟩, false⟩ :=
    rfl
  refine ⟨hfused, transitiveEqual?_sound rfl ?_ ?_ hfused rfl (.scalars rfl rfl rfl (.inl rfl))
    (fun _ => ⟨rfl, rfl⟩) (fun _ => ⟨rfl, rfl⟩)⟩ <;>
  · rw [toExpr, Expr.forall_nodes_comparison, Expr.forall_nodes_of_leaf rfl,
      Expr.forall_nodes_of_leaf rfl]
    exact ⟨trivial, rfl, rfl⟩

/-- The texts 1 and 01 equal one integer, and a row of all three is lost. -/
theorem transitiveEqual?_unsound : ¬ ∀ (ctx : Context) (a b c : Comparison) (p : SharedOperand),
    ctx.hooks = .standard → (∀ n ∈ a.toExpr.nodes, ctx.Provides n) →
    (∀ n ∈ b.toExpr.nodes, ctx.Provides n) → a.transitiveEqual? b = some c →
    a.transitivePairing? b = some (p, p.shared) → Run.Yields (a.eval ctx) (.ok .holds) →
    Run.Yields (b.eval ctx) (.ok .holds) → Run.Yields (c.eval ctx) (.ok .holds) := by
  intro h
  have hyields := h
    (Session.withRow {} (.joined [(1, [("A", .int 1), ("B", .text "1"), ("C", .text "01")])]))
    ⟨.equal, .column ⟨1, "T", "A", .int, true⟩, .column ⟨1, "T", "B", .text, true⟩, false⟩
    ⟨.equal, .column ⟨1, "T", "A", .int, true⟩, .column ⟨1, "T", "C", .text, true⟩, false⟩ _
    ⟨.column ⟨1, "T", "A", .int, true⟩, .column ⟨1, "T", "B", .text, true⟩,
      .column ⟨1, "T", "C", .text, true⟩⟩ rfl ?_ ?_ rfl rfl
    (fun _ => ⟨rfl, rfl⟩) (fun _ => ⟨rfl, rfl⟩)
  · cases (hyields fun _ => 0).1
  all_goals
    rw [toExpr, Expr.forall_nodes_comparison, Expr.forall_nodes_of_leaf rfl,
      Expr.forall_nodes_of_leaf rfl]
    exact ⟨trivial, rfl, rfl⟩

end Comparison
end QueryPredicates
