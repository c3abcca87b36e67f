import QueryPredicates.Proofs.Evaluation.Calls
import QueryPredicates.Proofs.Optimization.NormalForm
import QueryPredicates.Proofs.Optimization.Preservation

/-! Simplifying and sequence calls. The operands that the pass turns or folds are columns,
parameters and constants, which call no sequence, and where it drops a NULL constant for a null
test the other operand is still evaluated. One rule drops calls: a comparison with a NULL constant
on its right is unknown whatever stands on its left, and is evaluated no more. Where no call is lost
in this way, an expression and what it is simplified to make the same calls in the same order. -/

namespace QueryPredicates
open Run Evaluation

/-- A sequence call, or what the context admits. -/
def Context.Allows (ctx : Context) (e : Expr) : Prop := (∃ s, e = .nextValue s) ∨ ctx.Admits e

namespace Expr

/-- The pass makes a NULL constant of the expression. -/
def BecomesNull (session : Session) (e : Expr) : Prop :=
  ∃ type counters, (e.optimize session counters).outcome = .ok (constant ⟨.null, type⟩)

/-- No call is lost at the node: what is compared with an expression that becomes NULL calls no
sequence, unless the comparator is null-safe. -/
def KeepsCalls (session : Session) (ctx : Context) : Expr → Prop
  | comparison op left right whenOperand => whenOperand = false → op.isNullSafe = false →
      right.BecomesNull session → Silent (left.eval ctx)
  | inList operand first [] => first.BecomesNull session → Silent (operand.eval ctx)
  | _ => True

theorem becomesNull_of_simplified {e e' : Expr} (session : Session) (h : e.simplified = .ok e')
    (hnull : e'.isNullConstant = true) : e.BecomesNull session := by
  obtain ⟨type, rfl⟩ := isNullConstant_iff.mp hnull
  have hyields := optimize_yields session e
  exact ⟨type, fun _ => 0, (hyields.outcome_iff _).mpr h⟩

theorem admittedBy_of_allows {ctx : Context} {e : Expr} (h : ∀ n ∈ e.nodes, ctx.Allows n)
    (hcalls : ∀ n ∈ e.nodes, ∀ s, n ≠ nextValue s) : e.AdmittedBy ctx := by
  intro n hn
  exact (h n hn).resolve_left fun ⟨s, hs⟩ => hcalls n hn s hs

theorem admittedBy_of_isConstant {ctx : Context} {e : Expr} (h : ∀ n ∈ e.nodes, ctx.Allows n)
    (hconstant : e.isConstant = true) : e.AdmittedBy ctx := by
  obtain ⟨k, rfl⟩ := isConstant_iff.mp hconstant
  exact admittedBy_of_allows h ((forall_nodes_of_leaf rfl).mpr nofun)

theorem admittedBy_of_column {ctx : Context} {e : Expr} (h : ∀ n ∈ e.nodes, ctx.Allows n)
    (hcolumn : e.column?.isSome = true) : e.AdmittedBy ctx := by
  obtain ⟨c, rfl⟩ := isSome_column?_iff.mp hcolumn
  exact admittedBy_of_allows h ((forall_nodes_of_leaf rfl).mpr nofun)

theorem admittedBy_of_isParameter {ctx : Context} {e : Expr} (h : ∀ n ∈ e.nodes, ctx.Allows n)
    (hparameter : e.isParameter = true) : e.AdmittedBy ctx := by
  cases e with
  | parameter p => exact admittedBy_of_allows h ((forall_nodes_of_leaf rfl).mpr nofun)
  | _ => cases hparameter

theorem silent_of_admittedBy {ctx : Context} {e : Expr} (h : e.AdmittedBy ctx) :
    Silent (e.eval ctx) := by
  refine eval_silent ctx fun n hn s hs => ?_
  rw [hs] at hn
  exact h _ hn

/-- An expression without sequences and what stands for it evaluate alike. -/
theorem StandsFor.agrees {ctx : Context} {e e' : Expr} (h : StandsFor ctx e e')
    (he : e.AdmittedBy ctx) : Agrees (e.eval ctx) (e'.eval ctx) := by
  have hprovides {f : Expr} (hf : f.AdmittedBy ctx) : ∀ n ∈ f.nodes, ctx.Provides n :=
    fun n hn => Context.provides_of_admits (hf n hn)
  exact .of_meaning (hprovides he) (hprovides (h.admitted he)) (h.meaning he)

theorem inherited_allows (ctx : Context) : Inherited ctx.Allows where
  inner e he := by
    cases e <;> first
      | exact .inr trivial
      | exact absurd rfl he
  truth t := by
    have hadmitted := admittedBy_ofTruth ctx t
    exact .inr (hadmitted _ (self_mem_nodes _))
  constant k k' type h hk := .inr (isDeclaredNode_adaptedConstant h (hk.resolve_left nofun))
  parameter p type hp := .inr (hp.resolve_left nofun)

end Expr

variable {ctx : Context}

/-! ## Comparisons -/

namespace Comparison

theorem agrees_oriented (hooks : ctx.hooks = .standard) {c : Comparison}
    (h : ∀ n ∈ c.toExpr.nodes, ctx.Allows n) :
    Agrees (c.toExpr.eval ctx) (c.oriented.toExpr.eval ctx) := by
  cases hturned : isTurned c.left c.right with
  | false =>
    rw [oriented_eq_self hturned]
    exact .refl _
  | true =>
    obtain ⟨-, hl, hr⟩ := Expr.forall_nodes_comparison.mp h
    obtain ⟨hcolumn, hleft⟩ := Bool.and_eq_true_iff.mp hturned
    have hadmitted : c.toExpr.AdmittedBy ctx := by
      refine Expr.admittedBy_comparison.mpr ⟨?_, Expr.admittedBy_of_column hr hcolumn⟩
      rcases Bool.or_eq_true_iff.mp hleft with hconstant | hparameter
      · exact Expr.admittedBy_of_isConstant hl hconstant
      · exact Expr.admittedBy_of_isParameter hl hparameter
    exact (standsFor_oriented hooks c).agrees hadmitted

theorem agrees_adapted (hooks : ctx.hooks = .standard) {c d : Comparison} (hd : c.adapted = .ok d)
    (h : ∀ n ∈ c.toExpr.nodes, ctx.Allows n) : Agrees (c.toExpr.eval ctx) (d.toExpr.eval ctx) := by
  obtain ⟨-, hl, hr⟩ := Expr.forall_nodes_comparison.mp h
  have hstands := standsFor_adapted hooks hd
  obtain ⟨column, k, k', hleft, hright, -, -⟩ | ⟨column, p, hleft, hright, -⟩ | ⟨-, rfl⟩ :=
    adapted_cases hd
  · refine hstands.agrees (Expr.admittedBy_comparison.mpr ⟨?_, ?_⟩)
    · exact Expr.admittedBy_of_column hl (by rw [hleft]; rfl)
    · exact Expr.admittedBy_of_isConstant hr (by rw [hright]; rfl)
  · refine hstands.agrees (Expr.admittedBy_comparison.mpr ⟨?_, ?_⟩)
    · exact Expr.admittedBy_of_column hl (by rw [hleft]; rfl)
    · exact Expr.admittedBy_of_isParameter hr (by rw [hright]; rfl)
  · exact .refl _

/-- Without calls on its left a comparison with a NULL constant ends as the truth value unknown
does. -/
theorem agrees_unknown {c : Comparison} (hooks : ctx.hooks = .standard)
    (hop : c.op.isNullSafe = false)
    (hn : (c.left.isNullConstant || c.right.isNullConstant) = true)
    (h : ∀ n ∈ c.toExpr.nodes, ctx.Allows n)
    (hsilent : c.right.isNullConstant = true → Silent (c.left.eval ctx)) :
    Agrees (c.toExpr.eval ctx) (Expr.unknown.eval ctx) := by
  obtain ⟨op, left, right, whenOperand⟩ := c
  have hshort (m : Evaluation Value) : ctx.against op .null m = pure .unknown :=
    if_pos (by simpa [Value.isNull] using hop)
  by_cases hleft : left.isNullConstant = true
  · obtain ⟨type, rfl⟩ := Expr.isNullConstant_iff.mp hleft
    have heval : (Expr.comparison op (.constant ⟨.null, type⟩) right whenOperand).eval ctx =
        Truth.toValue <$> ctx.against op .null (right.eval ctx) := by
      simp only [Expr.eval, Context.comparison, pure_bind]
    rw [toExpr, heval, hshort]
    exact .refl _
  · have hright : right.isNullConstant = true := by simpa [hleft] using hn
    obtain ⟨type, rfl⟩ := Expr.isNullConstant_iff.mp hright
    obtain ⟨-, hl, -⟩ := Expr.forall_nodes_comparison.mp h
    have hserved : ∀ n ∈ left.nodes, (∃ s, n = .nextValue s) ∨ ctx.Provides n :=
      fun n hn => (hl n hn).imp_right Context.provides_of_admits
    have hverdict (v : Value) : ctx.verdict op v .null = .unknown := by
      rw [Context.verdict_standard hooks, Comparator.truth_null_right hop]
    -- the value on the left may depend on the counters, but it leaves them alone
    have hcalls : Silent (left.eval ctx) := hsilent hright
    have hsame : Agrees (left.eval ctx >>= fun v => ctx.against op v (pure .null))
        (pure .unknown) := by
      intro counters
      obtain ⟨v, ho, hc⟩ := eval_accounts hserved counters
      rw [hcalls counters, List.foldl_nil] at hc
      have hagainst : Agrees (ctx.against op v (pure .null)) (pure .unknown) := by
        have hyields : Yields (ctx.against op v (pure .null)) (.ok (ctx.verdict op v .null)) :=
          Context.against_yields op v (.pure Value.null)
        rw [hverdict v] at hyields
        exact .of_yields hyields (.pure _) (silent_composes.against ctx op v
          (silent_composes.pure Value.null)) (silent_composes.pure _)
      obtain ⟨ho', hc', hr'⟩ := hagainst (left.eval ctx counters).counters
      rw [Run.bind_of_ok ho]
      refine ⟨ho', ?_, ?_⟩
      · exact hc'.trans hc
      · simp only [Act.calls_append, hcalls counters, hr', List.nil_append]
        rfl
    exact hsame.map Truth.toValue

/-- Beside a NULL constant a null-safe comparison evaluates the other operand and asks whether
it is NULL. -/
theorem agrees_nullTest {c : Comparison} (hooks : ctx.hooks = .standard)
    (hop : c.op.isNullSafe = true)
    (hn : (c.left.isNullConstant || c.right.isNullConstant) = true) :
    Agrees (c.toExpr.eval ctx)
      ((Expr.nullTest c.besideNull (c.op == .notEqualNullSafe)).eval ctx) := by
  obtain ⟨op, left, right, whenOperand⟩ := c
  have hop : op.isNullSafe = true := hop
  have hagainst (l : Value) (m : Evaluation Value) :
      ctx.against op l m = m >>= ctx.test op l := if_neg (by simp [hop])
  have htest (l r v : Value) (h : op.truth l r = .ofBool (v.isNull != (op == .notEqualNullSafe))) :
      Agrees (ctx.test op l r) (pure (.ofBool (v.isNull != (op == .notEqualNullSafe)))) := by
    have hyields := ctx.test_yields op l r
    rw [hooks] at hyields
    have hyields : Yields (ctx.test op l r) (.ok (op.truth l r)) := hyields
    rw [h] at hyields
    exact .of_yields hyields (.pure _) (silent_composes.test ctx op l r) (silent_composes.pure _)
  by_cases hleft : left.isNullConstant = true
  · obtain ⟨type, rfl⟩ := Expr.isNullConstant_iff.mp hleft
    have hsame : Agrees (ctx.comparison op (pure .null) (right.eval ctx))
        (Context.nullTest (right.eval ctx) (op == .notEqualNullSafe)) := by
      unfold Context.comparison
      rw [pure_bind, hagainst]
      refine (Agrees.refl _).bind fun v => htest .null v v ?_
      exact @truth_besideNull ctx ⟨op, .constant ⟨.null, type⟩, .constant (.ofValue v), false⟩
        hop rfl
    exact hsame.map Truth.toValue
  · have hright : right.isNullConstant = true := by simpa [hleft] using hn
    obtain ⟨type, rfl⟩ := Expr.isNullConstant_iff.mp hright
    have hbeside : besideNull ⟨op, left, .constant ⟨.null, type⟩, whenOperand⟩ = left :=
      if_neg hleft
    rw [hbeside]
    have hsame : Agrees (ctx.comparison op (left.eval ctx) (pure .null))
        (Context.nullTest (left.eval ctx) (op == .notEqualNullSafe)) := by
      refine (Agrees.refl _).bind fun v => ?_
      rw [hagainst, pure_bind]
      exact htest v .null v (Comparator.truth_null_right_nullSafe hop v)
    exact hsame.map Truth.toValue

theorem agrees_settled {c : Comparison} (hooks : ctx.hooks = .standard)
    (h : ∀ n ∈ c.toExpr.nodes, ctx.Allows n)
    (hsilent : c.op.isNullSafe = false → c.right.isNullConstant = true →
      Silent (c.left.eval ctx)) : Agrees (c.toExpr.eval ctx) (c.settled.eval ctx) := by
  obtain ⟨a, b, hl, hr, -⟩ | ⟨-, ⟨hn, hop, hs⟩ | ⟨hn, hop, -, hs⟩ | ⟨-, hs⟩⟩ := c.settled_cases
  · obtain ⟨-, hleft, hright⟩ := Expr.forall_nodes_comparison.mp h
    refine (standsFor_settled hooks c).agrees (Expr.admittedBy_comparison.mpr ⟨?_, ?_⟩)
    · exact Expr.admittedBy_of_isConstant hleft (by rw [hl]; rfl)
    · exact Expr.admittedBy_of_isConstant hright (by rw [hr]; rfl)
  · rw [hs]
    exact agrees_unknown hooks hop hn h (hsilent hop)
  · rw [hs]
    exact agrees_nullTest hooks hop hn
  · rw [hs]
    exact .refl _

/-- Simplifying a comparison keeps its calls, if those on the left of a NULL constant are none. -/
theorem agrees_simplified {c : Comparison} {e : Expr} (hooks : ctx.hooks = .standard)
    (he : c.simplified = .ok e) (h : ∀ n ∈ c.toExpr.nodes, ctx.Allows n)
    (hsilent : c.whenOperand = false → c.op.isNullSafe = false → c.right.isNullConstant = true →
      Silent (c.left.eval ctx)) : Agrees (c.toExpr.eval ctx) (e.eval ctx) := by
  obtain ⟨-, ⟨-, rfl⟩ | ⟨hw, d, hd, rfl⟩⟩ := simplified_cases he
  · exact .refl _
  · have ho := (Expr.inherited_allows ctx).oriented h
    have hdn := (Expr.inherited_allows ctx).adapted hd ho
    have hturned := agrees_oriented hooks h
    refine (hturned.trans (agrees_adapted hooks hd ho)).trans (agrees_settled hooks hdn ?_)
    intro hop hnull
    -- either a column has come to the left, or nothing has moved
    cases hcolumn : d.left.column?.isSome with
    | true =>
      obtain ⟨-, hleft, -⟩ := Expr.forall_nodes_comparison.mp hdn
      exact Expr.silent_of_admittedBy (Expr.admittedBy_of_column hleft hcolumn)
    | false =>
      obtain ⟨column, k, k', hl, -, -, rfl⟩ | ⟨column, p, hl, -, rfl⟩ | ⟨-, rfl⟩ :=
        adapted_cases hd
      · rw [hl] at hcolumn
        cases hcolumn
      · rw [hl] at hcolumn
        cases hcolumn
      · cases ht : isTurned c.left c.right with
        | false =>
          rw [oriented_eq_self ht] at hop hnull ⊢
          exact hsilent hw hop hnull
        | true =>
          have hleft : c.oriented.left = c.right := by rw [oriented, if_pos ht]
          obtain ⟨hright, -⟩ := Bool.and_eq_true_iff.mp ht
          rw [hleft, hright] at hcolumn
          cases hcolumn

end Comparison

/-! ## Null tests and lists -/

theorem NullTest.agrees_simplified {t : NullTest} (h : ∀ n ∈ t.toExpr.nodes, ctx.Allows n) :
    Agrees (t.toExpr.eval ctx) (t.simplified.eval ctx) := by
  obtain ⟨operand, negated⟩ := t
  cases hc : operand.isConstant with
  | true =>
    obtain ⟨-, ho⟩ := Expr.forall_nodes_nullTest.mp h
    refine (standsFor_simplified ⟨operand, negated⟩).agrees ?_
    exact Expr.admittedBy_nullTest.mpr (Expr.admittedBy_of_isConstant ho hc)
  | false =>
    rw [simplified_eq_self hc]
    exact .refl _

theorem InList.agrees_simplified {l : InList} (hooks : ctx.hooks = .standard)
    (h : ∀ n ∈ l.toExpr.nodes, ctx.Allows n) :
    Agrees (l.toExpr.eval ctx) (l.simplified.eval ctx) := by
  by_cases hnull : l.operand.isNullConstant = true
  · -- a NULL operand keeps every candidate from being evaluated
    have hs : l.simplified = .unknown := if_pos hnull
    obtain ⟨operand, first, rest⟩ := l
    obtain ⟨type, rfl⟩ := Expr.isNullConstant_iff.mp hnull
    rw [hs]
    exact .refl _
  · by_cases hconstants : (l.operand.isConstant && l.values.all Expr.isConstant) = true
    · obtain ⟨hoperand, hvalues⟩ := Bool.and_eq_true_iff.mp hconstants
      obtain ⟨-, ho, hf, hrest⟩ := Expr.forall_nodes_inList.mp h
      obtain ⟨hfirst, hothers⟩ := List.forall_mem_cons.mp (List.all_eq_true.mp hvalues)
      refine (standsFor_simplified hooks l).agrees (Expr.admittedBy_inList.mpr ⟨?_, ?_, ?_⟩)
      · exact Expr.admittedBy_of_isConstant ho hoperand
      · exact Expr.admittedBy_of_isConstant hf hfirst
      · exact fun e he => Expr.admittedBy_of_isConstant (hrest e he) (hothers e he)
    · have hs : l.simplified = l.toExpr := by
        unfold simplified
        rw [if_neg hnull, if_neg hconstants]
      rw [hs]
      exact .refl _

/-! ## The pass -/

namespace Expr

/-- A list of one candidate evaluates as the equality does. -/
theorem agrees_single (ctx : Context) (operand first : Expr) :
    Agrees ((inList operand first []).eval ctx) ((comparison .equal operand first false).eval ctx) := by
  have hsame : Agrees (ctx.membership (operand.eval ctx) [first.eval ctx])
      (ctx.comparison .equal (operand.eval ctx) (first.eval ctx)) := by
    refine (Agrees.refl _).bind fun v => ?_
    have hsafe : Comparator.isNullSafe .equal = false := rfl
    cases hv : v.isNull with
    | true =>
      rw [if_pos rfl, Context.against, if_pos (by simp [hv, hsafe])]
      exact .refl _
    | false =>
      rw [if_neg Bool.false_ne_true, Context.against, if_neg (by simp [hv])]
      refine (Agrees.refl _).bind fun w => ?_
      have hlast : (ctx.test .equal v w >>= pure) = ctx.test .equal v w := bind_pure _
      rw [← hlast]
      refine (Agrees.refl _).bind fun t => ?_
      cases t <;> exact .refl _
  exact hsame.map Truth.toValue

theorem agrees_simplified {session : Session} (hooks : ctx.hooks = .standard) {e e' : Expr}
    (h : e.simplified = .ok e') : (∀ n ∈ e.nodes, ctx.Allows n) →
      (∀ n ∈ e.nodes, n.KeepsCalls session ctx) → Agrees (e.eval ctx) (e'.eval ctx) := by
  have hQ := inherited_allows ctx
  refine simplified_induction_once (P := fun e e' => (∀ n ∈ e.nodes, ctx.Allows n) →
    (∀ n ∈ e.nodes, n.KeepsCalls session ctx) → Agrees (e.eval ctx) (e'.eval ctx)) ?_ ?_ ?_ ?_ ?_ h
  · intro e _ _ _
    exact .refl _
  · rintro op left right whenOperand left' right' e' ⟨hsl, hl⟩ ⟨hsr, hr⟩ he hallows hkeeps
    obtain ⟨hal, har⟩ := hQ.comparison_iff.mp hallows
    obtain ⟨hself, hkl, hkr⟩ := forall_nodes_comparison.mp hkeeps
    have hleft := hl hal hkl
    have hoperands : Agrees ((comparison op left right whenOperand).eval ctx)
        ((comparison op left' right' whenOperand).eval ctx) :=
      (hleft.comparison ctx op (hr har hkr)).map Truth.toValue
    have hallows' : ∀ n ∈ (comparison op left' right' whenOperand).nodes, ctx.Allows n :=
      hQ.comparison_iff.mpr ⟨hQ.simplified hsl hal, hQ.simplified hsr har⟩
    refine hoperands.trans (Comparison.agrees_simplified hooks he hallows' ?_)
    intro hw hop hnull
    exact hleft.silent (hself hw hop (becomesNull_of_simplified session hsr hnull))
  · rintro operand negated operand' ⟨hso, ho⟩ hallows hkeeps
    have hao := hQ.nullTest_iff.mp hallows
    obtain ⟨-, hko⟩ := forall_nodes_nullTest.mp hkeeps
    have hoperand : Agrees ((nullTest operand negated).eval ctx)
        ((nullTest operand' negated).eval ctx) :=
      ((ho hao hko).bind fun v => .refl _).map Truth.toValue
    have hallows' : ∀ n ∈ (nullTest operand' negated).nodes, ctx.Allows n :=
      hQ.nullTest_iff.mpr (hQ.simplified hso hao)
    exact hoperand.trans (NullTest.agrees_simplified (t := ⟨operand', negated⟩) hallows')
  · intro operand first e' he hallows hkeeps
    obtain ⟨hao, haf, -⟩ := hQ.inList_iff.mp hallows
    obtain ⟨hself, hko, hkf, -⟩ := forall_nodes_inList.mp hkeeps
    refine (agrees_single ctx operand first).trans (he (hQ.comparison_iff.mpr ⟨hao, haf⟩) ?_)
    exact forall_nodes_comparison.mpr ⟨fun _ _ hnull => hself hnull, hko, hkf⟩
  · rintro operand first rest operand' first' rest' - ⟨hso, ho⟩ ⟨hsf, hf⟩ hrest hallows hkeeps
    obtain ⟨hao, haf, har⟩ := hQ.inList_iff.mp hallows
    obtain ⟨-, hko, hkf, hkr⟩ := forall_nodes_inList.mp hkeeps
    have hcandidates : List.Forall₂ Agrees (evals ctx rest) (evals ctx rest') := by
      rw [evals_eq_map, evals_eq_map, List.forall₂_map_left_iff, List.forall₂_map_right_iff]
      refine List.forall₂_iff_get.mpr ⟨hrest.length_eq, fun i hi hi' => ?_⟩
      obtain ⟨-, hagrees⟩ := hrest.get hi hi'
      have hmem := List.get_mem rest ⟨i, hi⟩
      exact hagrees (har _ hmem) (hkr _ hmem)
    have hoperands : Agrees ((inList operand first rest).eval ctx)
        ((inList operand' first' rest').eval ctx) :=
      (Agrees.membership ctx (ho hao hko) (.cons (hf haf hkf) hcandidates)).map Truth.toValue
    have hothers := forall_mem_of_forall₂ (fun _ _ he => hQ.simplified he.1) hrest har
    have hallows' : ∀ n ∈ (inList operand' first' rest').nodes, ctx.Allows n :=
      hQ.inList_iff.mpr ⟨hQ.simplified hso hao, hQ.simplified hsf haf, hothers⟩
    exact hoperands.trans
      (InList.agrees_simplified (l := ⟨operand', first', rest'⟩) hooks hallows')

/-- Evaluating an expression and what it is simplified to advances every counter equally often and
leaves the same counters, where no comparison that becomes unknown gives up a call on its left. -/
theorem optimize_keeps_calls {session : Session} {before : Counters} {ctx : Context} {e e' : Expr}
    (hooks : ctx.hooks = .standard) (hallows : ∀ n ∈ e.nodes, ctx.Allows n)
    (hkeeps : ∀ n ∈ e.nodes, n.KeepsCalls session ctx)
    (h : (e.optimize session before).outcome = .ok e') (counters : Counters) :
    (∀ counter, Act.advances counter (e'.eval ctx counters).record =
      Act.advances counter (e.eval ctx counters).record) ∧
    (e'.eval ctx counters).counters = (e.eval ctx counters).counters := by
  have hpass := ((optimize_yields session e).outcome_iff before).mp h
  obtain ⟨-, hcounters, hcalls⟩ := agrees_simplified hooks hpass hallows hkeeps counters
  refine ⟨fun counter => ?_, hcounters.symm⟩
  unfold Act.advances
  rw [hcalls]

/-- `NULL IS NOT DISTINCT FROM (NEXT VALUE FOR S = T.A)` becomes a null test of the equality, in
which the sequence is called as before. -/
theorem optimize_keeps_calls_nullTest :
    (optimize {} (comparison .equalNullSafe null (comparison .equal (nextValue ⟨0, "S", 1⟩)
      (column ⟨1, "T", "A", .bigInt, true⟩) false) false) fun _ => 0).outcome =
        .ok (nullTest (comparison .equal (nextValue ⟨0, "S", 1⟩)
          (column ⟨1, "T", "A", .bigInt, true⟩) false) false) ∧
    ∀ counter, Act.advances counter (eval (Session.withRow {} (.joined [(1, [("A", .bigInt 12)])]))
        (nullTest (comparison .equal (nextValue ⟨0, "S", 1⟩)
          (column ⟨1, "T", "A", .bigInt, true⟩) false) false) fun _ => 1).record =
      Act.advances counter (eval (Session.withRow {} (.joined [(1, [("A", .bigInt 12)])]))
        (comparison .equalNullSafe null (comparison .equal (nextValue ⟨0, "S", 1⟩)
          (column ⟨1, "T", "A", .bigInt, true⟩) false) false) fun _ => 1).record := by
  have hpass : (optimize {} (comparison .equalNullSafe null (comparison .equal
      (nextValue ⟨0, "S", 1⟩) (column ⟨1, "T", "A", .bigInt, true⟩) false) false)
      fun _ => 0).outcome =
        .ok (nullTest (comparison .equal (nextValue ⟨0, "S", 1⟩)
          (column ⟨1, "T", "A", .bigInt, true⟩) false) false) := rfl
  refine ⟨hpass, (optimize_keeps_calls rfl ?_ ?_ hpass fun _ => 1).1⟩
  · simp only [null, nodes, List.cons_append, List.nil_append, List.forall_mem_cons,
      List.not_mem_nil, false_imp_iff, implies_true, and_true]
    exact ⟨.inr trivial, .inr (.inl rfl), .inr trivial, .inl ⟨_, rfl⟩,
      .inr ⟨.bigInt 12, rfl, .inr (.inl rfl)⟩⟩
  · simp only [null, nodes, List.cons_append, List.nil_append, List.forall_mem_cons,
      List.not_mem_nil, false_imp_iff, implies_true, and_true]
    refine ⟨?_, trivial, ?_, trivial, trivial⟩
    · intro _ hop
      cases hop
    · rintro - - ⟨type, counters, hnull⟩
      cases hnull

/-- Calls are lost. `NEXT VALUE FOR S = NULL` becomes UNKNOWN, which calls nothing; and in
`TRUE IN (T.A = 5.5, NEXT VALUE FOR S = 5)`, where 5.5 is a constant of no declared type, the INTEGER
column comes to be compared with 6, and where it is 6 the search ends before the sequence. -/
theorem optimize_loses_calls :
    (∃ e', (optimize {} (comparison .equal (nextValue ⟨0, "S", 1⟩) null false)
        fun _ => 1).outcome = .ok e' ∧
      Act.advances 0 (eval (Session.context {})
        (comparison .equal (nextValue ⟨0, "S", 1⟩) null false) fun _ => 1).record = 1 ∧
      Act.advances 0 (eval (Session.context {}) e' fun _ => 1).record = 0) ∧
    ∃ e', (optimize {} (inList (constant ⟨.bool true, .boolean⟩)
        (comparison .equal (column ⟨1, "T", "A", .int, true⟩)
          (constant ⟨.double ⟨0x4016000000000000⟩, .unknown⟩) false)
        [comparison .equal (nextValue ⟨0, "S", 1⟩) (constant ⟨.int 5, .int⟩) false])
        fun _ => 1).outcome = .ok e' ∧
      Act.advances 0 (eval (Session.withRow {} (.joined [(1, [("A", .int 6)])]))
        (inList (constant ⟨.bool true, .boolean⟩)
          (comparison .equal (column ⟨1, "T", "A", .int, true⟩)
            (constant ⟨.double ⟨0x4016000000000000⟩, .unknown⟩) false)
          [comparison .equal (nextValue ⟨0, "S", 1⟩) (constant ⟨.int 5, .int⟩) false])
        fun _ => 1).record = 1 ∧
      Act.advances 0 (eval (Session.withRow {} (.joined [(1, [("A", .int 6)])])) e'
        fun _ => 1).record = 0 := by
  refine ⟨⟨_, rfl, rfl, rfl⟩, ?_⟩
  exact ⟨_, rfl, rfl, rfl⟩

end Expr
end QueryPredicates
