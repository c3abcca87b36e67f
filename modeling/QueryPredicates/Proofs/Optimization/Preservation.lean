import QueryPredicates.Proofs.Optimization.Pass
import QueryPredicates.Proofs.Value.Adaptation
import QueryPredicates.Proofs.Value.Reversal

/-! Simplifying preserves meaning. In a context that gives every column a value of the declared
type, each step keeps the meaning of a comparison: turning it by the law of reversal,
adapting a constant because evaluation would promote it to the same type, settling it by the rules
for NULL. What an expression is simplified to has therefore the type of the expression and
evaluates to the same value. -/

namespace QueryPredicates
open Run

/-- What a context has to give at one node for the declared types to be those of the values: a
constant is NULL or of its type, and so is the value of a column that declares one. -/
def Context.Admits (ctx : Context) : Expr → Prop
  | .constant k => k.isNull = true ∨ k.value.type = k.type
  | .column c => ∃ v, ctx.column c = some v ∧
      (v.isNull = true ∨ v.type = c.type ∨ c.type = .unknown)
  | .parameter p => (ctx.parameter p.index).isSome = true
  | .nextValue _ => False
  | _ => True

theorem Context.provides_of_admits {ctx : Context} {e : Expr} (h : ctx.Admits e) :
    ctx.Provides e := by
  cases e with
  | column c =>
    obtain ⟨v, hv, -⟩ := h
    simp [Provides, hv]
  | parameter p => exact h
  | nextValue s => exact h
  | _ => exact trivial

namespace Expr

/-- Every node inside is admitted. -/
def AdmittedBy (ctx : Context) (e : Expr) : Prop := ∀ n ∈ e.nodes, ctx.Admits n

theorem admittedBy_comparison {ctx : Context} {op : Comparator} {left right : Expr}
    {whenOperand : Bool} : (comparison op left right whenOperand).AdmittedBy ctx ↔
      left.AdmittedBy ctx ∧ right.AdmittedBy ctx := by
  unfold AdmittedBy
  rw [forall_nodes_comparison]
  simp [Context.Admits]

theorem admittedBy_nullTest {ctx : Context} {operand : Expr} {negated : Bool} :
    (nullTest operand negated).AdmittedBy ctx ↔ operand.AdmittedBy ctx := by
  unfold AdmittedBy
  rw [forall_nodes_nullTest]
  simp [Context.Admits]

theorem admittedBy_inList {ctx : Context} {operand first : Expr} {rest : List Expr} :
    (inList operand first rest).AdmittedBy ctx ↔
      operand.AdmittedBy ctx ∧ first.AdmittedBy ctx ∧ ∀ e ∈ rest, e.AdmittedBy ctx := by
  unfold AdmittedBy
  rw [forall_nodes_inList]
  simp [Context.Admits]

theorem admittedBy_constant {ctx : Context} {k : Constant} :
    (constant k).AdmittedBy ctx ↔ k.isNull = true ∨ k.value.type = k.type := by
  simp [AdmittedBy, nodes, Context.Admits]

theorem admittedBy_ofTruth (ctx : Context) (t : Truth) : (ofTruth t).AdmittedBy ctx := by
  rw [ofTruth, admittedBy_constant]
  cases t <;> simp [Constant.ofTruth, Constant.isNull, Truth.toValue, Value.isNull, Value.type]

/-- The second expression stands for the first: it has its type, and in a context that admits
the first it is admitted and means the same. -/
structure StandsFor (ctx : Context) (e e' : Expr) : Prop where
  type : e'.type = e.type
  admitted : e.AdmittedBy ctx → e'.AdmittedBy ctx
  meaning : e.AdmittedBy ctx → e'.meaning ctx = e.meaning ctx

theorem StandsFor.refl (ctx : Context) (e : Expr) : StandsFor ctx e e := ⟨rfl, id, fun _ => rfl⟩

theorem StandsFor.trans {ctx : Context} {e f g : Expr} (hef : StandsFor ctx e f)
    (hfg : StandsFor ctx f g) : StandsFor ctx e g where
  type := hfg.type.trans hef.type
  admitted h := hfg.admitted (hef.admitted h)
  meaning h := (hfg.meaning (hef.admitted h)).trans (hef.meaning h)

end Expr

variable {ctx : Context}

/-! ## Comparisons -/

theorem Expr.meaning_comparison (hooks : ctx.hooks = .standard) (op : Comparator)
    (left right : Expr) (whenOperand : Bool) :
    (comparison op left right whenOperand).meaning ctx =
      (op.truth (left.meaning ctx) (right.meaning ctx)).toValue := by
  simp only [meaning, Context.verdict_standard hooks]

/-- A NULL constant on either side of a null-safe comparison asks for NULL on the other. -/
theorem Comparison.truth_besideNull {c : Comparison} (hop : c.op.isNullSafe = true)
    (hn : (c.left.isNullConstant || c.right.isNullConstant) = true) :
    c.op.truth (c.left.meaning ctx) (c.right.meaning ctx) =
      .ofBool ((c.besideNull.meaning ctx).isNull != (c.op == .notEqualNullSafe)) := by
  unfold besideNull
  by_cases hleft : c.left.isNullConstant = true
  · obtain ⟨type, hl⟩ := Expr.isNullConstant_iff.mp hleft
    have hreverse : c.op.reverse = c.op := by
      cases hc : c.op <;> rw [hc] at hop <;> first | rfl | cases hop
    rw [if_pos hleft, hl, Comparator.truth_reverse, hreverse]
    exact Comparator.truth_null_right_nullSafe hop _
  · have hright : c.right.isNullConstant = true := by simpa [hleft] using hn
    obtain ⟨type, hr⟩ := Expr.isNullConstant_iff.mp hright
    rw [if_neg hleft, hr]
    exact Comparator.truth_null_right_nullSafe hop _

theorem Comparison.truth_of_isNullConstant {c : Comparison} (hop : c.op.isNullSafe = false)
    (hn : (c.left.isNullConstant || c.right.isNullConstant) = true) :
    c.op.truth (c.left.meaning ctx) (c.right.meaning ctx) = .unknown := by
  rcases Bool.or_eq_true_iff.mp hn with hleft | hright
  · obtain ⟨type, hl⟩ := Expr.isNullConstant_iff.mp hleft
    rw [hl]
    exact Comparator.truth_null_left hop _
  · obtain ⟨type, hr⟩ := Expr.isNullConstant_iff.mp hright
    rw [hr]
    exact Comparator.truth_null_right hop _

namespace Comparison

theorem standsFor_oriented (hooks : ctx.hooks = .standard) (c : Comparison) :
    c.toExpr.StandsFor ctx c.oriented.toExpr := by
  unfold oriented
  split
  · refine ⟨rfl, fun h => ?_, fun _ => ?_⟩
    · obtain ⟨hl, hr⟩ := Expr.admittedBy_comparison.mp h
      exact Expr.admittedBy_comparison.mpr ⟨hr, hl⟩
    · simp only [toExpr, Expr.meaning_comparison hooks]
      rw [← Comparator.truth_reverse]
  · exact .refl ctx _

/-- A constant in the type of a column compares with the value of the column as it did. -/
theorem standsFor_adaptedConstant (hooks : ctx.hooks = .standard) {op : Comparator}
    {column : Column} {k k' : Constant} {whenOperand : Bool}
    (h : adaptedConstant k column.type = .ok k') :
    Expr.StandsFor ctx (.comparison op (.column column) (.constant k) whenOperand)
      (.comparison op (.column column) (.constant k') whenOperand) := by
  rcases adaptedConstant_cases h with ⟨-, rfl⟩ | ⟨hcommon, htype, hvalue⟩
  · exact .refl ctx _
  -- a constant of no type is NULL, so one that is not NULL has met a column with a type
  have hproper (hk : k.isNull = true ∨ k.value.type = k.type) (hnull : k.isNull = false) :
      k.value.type = k.type ∧ column.type ≠ .unknown := by
    rw [hnull] at hk
    have hkt := hk.resolve_left Bool.false_ne_true
    refine ⟨hkt, fun hu => ?_⟩
    rw [hu] at hcommon
    exact Value.type_ne_unknown k.value (hkt.trans hcommon)
  refine ⟨rfl, fun hadmitted => ?_, fun hadmitted => ?_⟩
  · obtain ⟨hcolumn, hconstant⟩ := Expr.admittedBy_comparison.mp hadmitted
    rw [Expr.admittedBy_constant] at hconstant
    refine Expr.admittedBy_comparison.mpr ⟨hcolumn, Expr.admittedBy_constant.mpr ?_⟩
    cases hnull : k.isNull with
    | true =>
      rw [Value.isNull_iff.mp hnull] at hvalue
      exact .inl (Value.isNull_iff.mpr (Except.ok.inj hvalue).symm)
    | false =>
      obtain ⟨-, hu⟩ := hproper hconstant hnull
      exact .inr ((Value.type_convert hnull hu hvalue).trans htype.symm)
  · obtain ⟨hcolumn, hconstant⟩ := Expr.admittedBy_comparison.mp hadmitted
    rw [Expr.admittedBy_constant] at hconstant
    obtain ⟨v, hv, hvt⟩ := hcolumn _ (Expr.self_mem_nodes _)
    rw [Expr.meaning_comparison hooks, Expr.meaning_comparison hooks]
    refine congrArg Truth.toValue ?_
    have hmeaning : (Expr.column column).meaning ctx = v := by simp [Expr.meaning, hv]
    rw [hmeaning]
    cases hnull : k.isNull with
    | true =>
      have hk := Value.isNull_iff.mp hnull
      rw [hk] at hvalue
      have hk' : Value.null = k'.value := Except.ok.inj hvalue
      simp only [Expr.meaning, hk, ← hk']
    | false =>
      obtain ⟨hkt, hu⟩ := hproper hconstant hnull
      rw [← hkt] at hcommon
      refine Comparator.truth_convert_right op ?_ hcommon hvalue
      rcases hvt with hvt | hvt | hvt
      · exact .inl hvt
      · exact .inr hvt
      · exact absurd hvt hu

theorem standsFor_adapted (hooks : ctx.hooks = .standard) {c d : Comparison}
    (h : c.adapted = .ok d) : c.toExpr.StandsFor ctx d.toExpr := by
  obtain ⟨op, left, right, whenOperand⟩ := c
  obtain ⟨column, k, k', rfl, rfl, hk, rfl⟩ | ⟨column, p, rfl, rfl, rfl⟩ | ⟨-, rfl⟩ :=
    adapted_cases h
  · exact standsFor_adaptedConstant hooks hk
  · refine ⟨rfl, fun hadmitted => ?_, fun _ => rfl⟩
    obtain ⟨hcolumn, hparameter⟩ := Expr.admittedBy_comparison.mp hadmitted
    refine Expr.admittedBy_comparison.mpr ⟨hcolumn, ?_⟩
    have hp : ctx.Admits (.parameter p) := hparameter _ (Expr.self_mem_nodes _)
    intro n hn
    rw [Expr.nodes, List.mem_singleton] at hn
    rw [hn]
    exact hp
  · exact .refl ctx _

theorem standsFor_settled (hooks : ctx.hooks = .standard) (c : Comparison) :
    c.toExpr.StandsFor ctx c.settled := by
  obtain ⟨a, b, hl, hr, h⟩ | ⟨-, ⟨hn, hop, h⟩ | ⟨hn, hop, -, h⟩ | ⟨-, h⟩⟩ := c.settled_cases
  · refine ⟨by rw [h]; rfl, fun _ => by rw [h]; exact Expr.admittedBy_ofTruth ctx _, fun _ => ?_⟩
    rw [h, toExpr, Expr.meaning_comparison hooks, hl, hr]
    rfl
  · refine ⟨by rw [h]; rfl, fun _ => by rw [h]; exact Expr.admittedBy_ofTruth ctx _, fun _ => ?_⟩
    rw [h, toExpr, Expr.meaning_comparison hooks, truth_of_isNullConstant hop hn]
    rfl
  · refine ⟨by rw [h]; rfl, fun hadmitted => ?_, fun _ => ?_⟩
    · obtain ⟨hleft, hright⟩ := Expr.admittedBy_comparison.mp hadmitted
      rw [h, Expr.admittedBy_nullTest]
      unfold besideNull
      split
      · exact hright
      · exact hleft
    · rw [h, toExpr, Expr.meaning_comparison hooks, truth_besideNull hop hn]
      rfl
  · rw [h]
    exact .refl ctx _

theorem standsFor_simplified (hooks : ctx.hooks = .standard) {c : Comparison} {e : Expr}
    (h : c.simplified = .ok e) : c.toExpr.StandsFor ctx e := by
  obtain ⟨-, ⟨-, rfl⟩ | ⟨-, d, hd, rfl⟩⟩ := simplified_cases h
  · exact .refl ctx _
  · have hturn := standsFor_oriented hooks c
    have hadapt := standsFor_adapted hooks hd
    exact (hturn.trans hadapt).trans (standsFor_settled hooks d)

end Comparison

/-! ## Null tests and lists -/

theorem NullTest.standsFor_simplified (t : NullTest) : t.toExpr.StandsFor ctx t.simplified := by
  obtain ⟨operand, negated⟩ := t
  cases operand with
  | constant k => exact ⟨rfl, fun _ => Expr.admittedBy_ofTruth ctx _, fun _ => rfl⟩
  | _ => exact .refl ctx _

theorem InList.standsFor_simplified (hooks : ctx.hooks = .standard) (l : InList) :
    l.toExpr.StandsFor ctx l.simplified := by
  have hmeaning : l.toExpr.meaning ctx =
      (ctx.amongTruth (l.operand.meaning ctx) (l.values.map (·.meaning ctx))).toValue := by
    simp only [toExpr, Expr.meaning, values, Expr.meanings_eq_map, List.map_cons]
  unfold simplified
  split
  · rename_i hn
    refine ⟨rfl, fun _ => Expr.admittedBy_ofTruth ctx _, fun _ => ?_⟩
    obtain ⟨type, ho⟩ := Expr.isNullConstant_iff.mp hn
    rw [hmeaning, ho]
    rfl
  · split
    · rename_i hc
      refine ⟨rfl, fun _ => Expr.admittedBy_ofTruth ctx _, fun _ => ?_⟩
      obtain ⟨ho, hv⟩ := Bool.and_eq_true_iff.mp hc
      have hvalues : l.values.map (·.meaning ctx) = l.values.map (·.meaning .bare) :=
        List.map_congr_left fun v hmem =>
          Expr.meaning_of_isConstant (List.all_eq_true.mp hv v hmem) _ _
      rw [hmeaning, hvalues, Expr.meaning_of_isConstant ho ctx .bare]
      unfold Context.amongTruth
      rw [hooks]
      rfl
    · exact .refl ctx _

/-! ## The pass -/

namespace Expr

/-- Operands may be replaced by what stands for them. -/
theorem standsFor_comparison {left right left' right' : Expr} (op : Comparator)
    (whenOperand : Bool) (hl : StandsFor ctx left left') (hr : StandsFor ctx right right') :
    StandsFor ctx (comparison op left right whenOperand)
      (comparison op left' right' whenOperand) := by
  refine ⟨rfl, fun h => ?_, fun h => ?_⟩
  · obtain ⟨hal, har⟩ := admittedBy_comparison.mp h
    exact admittedBy_comparison.mpr ⟨hl.admitted hal, hr.admitted har⟩
  · obtain ⟨hal, har⟩ := admittedBy_comparison.mp h
    simp only [meaning, hl.meaning hal, hr.meaning har]

theorem standsFor_nullTest {operand operand' : Expr} (negated : Bool)
    (ho : StandsFor ctx operand operand') :
    StandsFor ctx (nullTest operand negated) (nullTest operand' negated) := by
  refine ⟨rfl, fun h => ?_, fun h => ?_⟩
  · exact admittedBy_nullTest.mpr (ho.admitted (admittedBy_nullTest.mp h))
  · simp only [meaning, ho.meaning (admittedBy_nullTest.mp h)]

theorem standsFor_inList {operand first operand' first' : Expr} {rest rest' : List Expr}
    (ho : StandsFor ctx operand operand') (hf : StandsFor ctx first first')
    (hrest : List.Forall₂ (StandsFor ctx) rest rest') :
    StandsFor ctx (inList operand first rest) (inList operand' first' rest') := by
  have hmeanings : (∀ e ∈ rest, e.AdmittedBy ctx) → meanings ctx rest' = meanings ctx rest := by
    intro h
    induction hrest with
    | nil => rfl
    | cons hhead _ ih =>
      obtain ⟨hhere, hlater⟩ := List.forall_mem_cons.mp h
      simp only [meanings, hhead.meaning hhere, ih hlater]
  refine ⟨rfl, fun h => ?_, fun h => ?_⟩
  · obtain ⟨hao, haf, har⟩ := admittedBy_inList.mp h
    have har' := forall_mem_of_forall₂ (fun _ _ he => he.admitted) hrest har
    exact admittedBy_inList.mpr ⟨ho.admitted hao, hf.admitted haf, har'⟩
  · obtain ⟨hao, haf, har⟩ := admittedBy_inList.mp h
    simp only [meaning, ho.meaning hao, hf.meaning haf, hmeanings har]

/-- Being among one candidate is being equal to it. -/
theorem standsFor_single (operand first : Expr) :
    StandsFor ctx (inList operand first []) (comparison .equal operand first false) := by
  refine ⟨rfl, fun h => ?_, fun _ => ?_⟩
  · obtain ⟨ho, hf, -⟩ := admittedBy_inList.mp h
    exact admittedBy_comparison.mpr ⟨ho, hf⟩
  · have hor (t : Truth) : t.or .fails = t := by cases t <;> rfl
    simp only [meaning, meanings, Context.amongTruth, Context.verdict, List.map_cons,
      List.map_nil, List.foldr_cons, List.foldr_nil, hor, Comparator.isNullSafe, Bool.not_false,
      Bool.and_true]

theorem standsFor_simplified (hooks : ctx.hooks = .standard) {e e' : Expr}
    (h : e.simplified = .ok e') : StandsFor ctx e e' := by
  refine simplified_induction (P := StandsFor ctx) ?_ ?_ ?_ ?_ ?_ h
  · intro e _
    exact .refl ctx e
  · intro op left right whenOperand left' right' e' hl hr he
    have hoperands := standsFor_comparison op whenOperand hl hr
    exact hoperands.trans (Comparison.standsFor_simplified hooks he)
  · intro operand negated operand' ho
    have hoperand := standsFor_nullTest negated ho
    exact hoperand.trans (NullTest.standsFor_simplified ⟨operand', negated⟩)
  · intro operand first operand' first' operand'' first'' e' ho hf ho' hf' he
    have hoperands := standsFor_comparison .equal false (ho.trans ho') (hf.trans hf')
    have hequality := (standsFor_single operand first).trans hoperands
    exact hequality.trans (Comparison.standsFor_simplified hooks he)
  · intro operand first rest operand' first' rest' _ ho hf hrest
    have hoperands := standsFor_inList ho hf hrest
    exact hoperands.trans (InList.standsFor_simplified hooks ⟨operand', first', rest'⟩)

/-- Simplifying keeps the type of an expression and the value that it evaluates to, in every
context with the standard hooks that admits its nodes. -/
theorem optimize_preserves {session : Session} {counters : Counters} {ctx : Context}
    {e e' : Expr} (hooks : ctx.hooks = .standard) (hadmits : ∀ n ∈ e.nodes, ctx.Admits n)
    (h : (e.optimize session counters).outcome = .ok e') :
    e'.type = e.type ∧ ∃ v, Yields (e.eval ctx) (.ok v) ∧ Yields (e'.eval ctx) (.ok v) := by
  have hs := standsFor_simplified hooks
    (((optimize_yields session e).outcome_iff counters).mp h)
  have hprovides : ∀ n ∈ e.nodes, ctx.Provides n := fun n hn =>
    Context.provides_of_admits (hadmits n hn)
  have hprovides' : ∀ n ∈ e'.nodes, ctx.Provides n := fun n hn =>
    Context.provides_of_admits (hs.admitted hadmits n hn)
  refine ⟨hs.type, e.meaning ctx, e.eval_yields hprovides, ?_⟩
  rw [← hs.meaning hadmits]
  exact e'.eval_yields hprovides'

/-- `10 < T.A` over a BIGINT column is simplified to `T.A > 10` with a BIGINT constant. -/
theorem optimize_preserves_turned :
    (optimize {} (comparison .less (constant ⟨.int 10, .int⟩)
      (column ⟨1, "T", "A", .bigInt, true⟩) false) fun _ => 0).outcome =
        .ok (comparison .greater (column ⟨1, "T", "A", .bigInt, true⟩)
          (constant ⟨.bigInt 10, .bigInt⟩) false) ∧
    ∃ v, Yields (eval (Session.withRow {} (.joined [(1, [("A", .bigInt 12)])]))
        (comparison .less (constant ⟨.int 10, .int⟩)
          (column ⟨1, "T", "A", .bigInt, true⟩) false)) (.ok v) ∧
      Yields (eval (Session.withRow {} (.joined [(1, [("A", .bigInt 12)])]))
        (comparison .greater (column ⟨1, "T", "A", .bigInt, true⟩)
          (constant ⟨.bigInt 10, .bigInt⟩) false)) (.ok v) := by
  have hpass : (optimize {} (comparison .less (constant ⟨.int 10, .int⟩)
      (column ⟨1, "T", "A", .bigInt, true⟩) false) fun _ => 0).outcome =
        .ok (comparison .greater (column ⟨1, "T", "A", .bigInt, true⟩)
          (constant ⟨.bigInt 10, .bigInt⟩) false) := rfl
  refine ⟨hpass, (optimize_preserves rfl ?_ hpass).2⟩
  simp only [nodes, List.cons_append, List.nil_append, List.forall_mem_cons, List.not_mem_nil,
    false_imp_iff, implies_true, and_true]
  exact ⟨trivial, .inr rfl, .bigInt 12, rfl, .inr (.inl rfl)⟩

end Expr
end QueryPredicates
