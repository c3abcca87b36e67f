import QueryPredicates.Negation
import QueryPredicates.Proofs.Evaluation.Run
import QueryPredicates.Evaluation.Basic

/-! Negation is logical. Whatever the context, the negation of an expression does what the expression
does: it reads the same, asks the hooks the same and draws the same values, fails alike and returns
the negated truth value. It is negated to the expression again, but for the NULL literal without a
type, which comes back as a truth value. -/

namespace QueryPredicates

/-- The opposite null test has the opposite answer. -/
theorem Truth.ofBool_bne_not (isNull negated : Bool) :
    ofBool (isNull != !negated) = (ofBool (isNull != negated)).not := by
  cases isNull <;> cases negated <;> rfl

/-! ## Comparators -/

namespace Comparator

/-- Whatever the hooks, the complementary comparator negates the truth value. -/
theorem truthUnder_complement? {c d : Comparator} (h : c.complement? = some d) (hooks : Hooks)
    (l r : Value) : d.truthUnder hooks l r = (c.truthUnder hooks l r).not := by
  have horder (mode : Mode) {f g : Ordering → Bool} (hfg : ∀ o, g o = !f o) :
      (hooks.compareAs mode l r).elim Truth.unknown (fun o => .ofBool (g o)) =
        ((hooks.compareAs mode l r).elim Truth.unknown fun o => .ofBool (f o)).not := by
    cases hooks.compareAs mode l r with
    | none => rfl
    | some o => simp only [Option.elim_some, hfg, Truth.not_ofBool]
  have hsame (expected : Bool) : Truth.ofBool (hooks.isSame l r == !expected) =
      (Truth.ofBool (hooks.isSame l r == expected)).not := by
    rw [Truth.not_ofBool]
    cases hooks.isSame l r <;> cases expected <;> rfl
  cases c with
  | spatialIntersects => cases h
  | equalNullSafe =>
    cases h
    exact hsame true
  | notEqualNullSafe =>
    cases h
    exact hsame false
  | _ =>
    cases h
    exact horder _ fun o => by cases o <;> rfl

/-- The complementary comparator puts the same question to the hooks. -/
theorem hookCalls_complement? {c d : Comparator} (h : c.complement? = some d) (l r : Value) :
    Context.hookCalls d l r = Context.hookCalls c l r := by
  cases c <;> cases h <;> rfl

end Comparator

/-! ## Runs of predicates -/

namespace Context

variable (ctx : Context) {c d : Comparator}

theorem test_complement? (h : c.complement? = some d) (l r : Value) :
    ctx.test d l r = Truth.not <$> ctx.test c l r := by
  unfold test
  rw [Comparator.hookCalls_complement? h, Comparator.truthUnder_complement? h]
  simp only [map_bind, map_pure]

theorem against_complement? (h : c.complement? = some d) (l : Value) (right : Evaluation Value) :
    ctx.against d l right = Truth.not <$> ctx.against c l right := by
  unfold against
  rw [Comparator.isNullSafe_complement? h]
  split
  · rw [map_pure]
    rfl
  · simp only [map_bind, ctx.test_complement? h]

theorem comparison_complement? (h : c.complement? = some d) (left right : Evaluation Value) :
    ctx.comparison d left right = Truth.not <$> ctx.comparison c left right := by
  unfold comparison
  simp only [map_bind, ctx.against_complement? h]

theorem nullTest_not (operand : Evaluation Value) (negated : Bool) :
    nullTest operand (!negated) = Truth.not <$> nullTest operand negated := by
  unfold nullTest
  simp only [map_bind, map_pure, Truth.ofBool_bne_not]

end Context

/-! ## Constants -/

theorem Value.eq_toValue_of_truth? {v : Value} {t : Truth} (h : v.truth? = some t) :
    v = t.toValue := by
  cases v <;> cases h
  · rfl
  · rename_i b
    cases b <;> rfl

/-- The ways in which a constant comes to be: with the type of its value, as a NULL of any type, or
by conversion. -/
inductive Constant.Built : Constant → Prop
  | ofValue (v : Value) : Built (.ofValue v)
  | nullOf (type : SqlType) : Built (.nullOf type)
  | convert {c d : Constant} {target : SqlType} (hc : Built c) (h : c.convert target = .ok d) :
      Built d

/-- Only NULL is declared to be of the type of NULL. -/
theorem Constant.Built.eq_nullOf {k : Constant} (h : k.Built) (ht : k.type = .null) :
    k = .nullOf .null := by
  cases h with
  | ofValue v => cases v <;> first | rfl | cases ht
  | nullOf type =>
    cases ht
    rfl
  | @convert c _ target _ h =>
    unfold Constant.convert at h
    cases hv : c.value.convert target with
    | error e =>
      rw [hv] at h
      cases h
    | ok v =>
      rw [hv] at h
      cases h
      cases ht
      -- a value that is not NULL is not converted to the type of NULL
      cases hc : c.value <;> rw [hc] at hv <;> cases hv
      rfl

/-! ## Expressions -/

namespace Expr

/-- The second expression is the negation of the first. -/
inductive Opposite : Expr → Expr → Prop
  | comparison {op op' : Comparator} (left right : Expr) (h : op.complement? = some op') :
      Opposite (.comparison op left right false) (.comparison op' left right false)
  | nullTest (operand : Expr) (negated : Bool) :
      Opposite (.nullTest operand negated) (.nullTest operand !negated)
  | constant (t : Truth) {type : SqlType} (h : type = .boolean ∨ type = .null) :
      Opposite (.constant ⟨t.toValue, type⟩) (.ofTruth t.not)

theorem negate?_eq_some_iff {e n : Expr} : e.negate? = some n ↔ Opposite e n := by
  constructor
  · intro h
    cases e with
    | comparison op left right whenOperand =>
      cases whenOperand with
      | true => cases h
      | false =>
        simp only [negate?, Comparison.negate?, Bool.false_eq_true, if_false, Option.map_map,
          Option.map_eq_some_iff] at h
        obtain ⟨op', hop, rfl⟩ := h
        exact .comparison left right hop
    | nullTest operand negated =>
      cases h
      exact .nullTest operand negated
    | constant k =>
      obtain ⟨k', hk, rfl⟩ := Option.map_eq_some_iff.mp h
      unfold Constant.negate? at hk
      split at hk
      · rename_i htype
        obtain ⟨t, ht, rfl⟩ := Option.map_eq_some_iff.mp hk
        obtain ⟨v, type⟩ := k
        cases Value.eq_toValue_of_truth? ht
        exact .constant t htype
      · cases hk
    | _ => cases h
  · intro h
    cases h with
    | comparison left right h => simp [negate?, Comparison.negate?, h, Comparison.toExpr]
    | nullTest operand negated => rfl
    | constant t h => simp [negate?, Constant.negate?, h, Truth.truth?_toValue, ofTruth]

/-- Of an expression that has a negation, both evaluate alike to opposite truth values. -/
theorem Opposite.eval_eq {e n : Expr} (h : Opposite e n) (ctx : Context) :
    ∃ m : Evaluation Truth, e.eval ctx = Truth.toValue <$> m ∧
      n.eval ctx = Truth.toValue <$> Truth.not <$> m := by
  cases h with
  | comparison left right h =>
    refine ⟨_, rfl, ?_⟩
    rw [← ctx.comparison_complement? h]
    rfl
  | nullTest operand negated =>
    refine ⟨_, rfl, ?_⟩
    rw [← Context.nullTest_not]
    rfl
  | constant t => exact ⟨pure t, rfl, rfl⟩

/-- The negation is negated to the expression, or a constant that is not declared as a truth value to
the one that is. -/
theorem Opposite.symm {e n : Expr} (h : Opposite e n) :
    Opposite n e ∨ ∃ t : Truth, e = .constant ⟨t.toValue, .null⟩ ∧ Opposite n (.ofTruth t) := by
  cases h with
  | comparison left right h =>
    exact .inl (.comparison left right (Comparator.complement?_complement? h))
  | nullTest operand negated =>
    have hback : Opposite (.nullTest operand !negated) (.nullTest operand !!negated) :=
      .nullTest operand !negated
    exact .inl (by rwa [Bool.not_not] at hback)
  | constant t h =>
    have hback : Opposite (.ofTruth t.not) (.ofTruth t.not.not) := .constant t.not (.inl rfl)
    rw [Truth.not_not] at hback
    rcases h with rfl | rfl
    · exact .inl hback
    · exact .inr ⟨t, rfl, hback⟩

/-- Negation is logical. In every context an expression and its negation leave the same record and
the same counters, and both fail with one error or return opposite truth values. Negated again, it is
the expression, or the unknown truth value if that was the NULL literal without a type. -/
theorem negate?_negates {e n : Expr} (h : e.negate? = some n) :
    (∀ (ctx : Context) (counters : Counters),
      let ran := e.eval ctx counters
      let opposite := n.eval ctx counters
      opposite.record = ran.record ∧ opposite.counters = ran.counters ∧
      ((∃ failure, ran.outcome = .error failure ∧ opposite.outcome = .error failure) ∨
        ∃ t : Truth, ran.outcome = .ok t.toValue ∧ opposite.outcome = .ok t.not.toValue)) ∧
    ((∀ k, e = .constant k → k.Built) →
      n.negate? = some e ∨ e = .null ∧ n.negate? = some .unknown) := by
  have hopposite := negate?_eq_some_iff.mp h
  constructor
  · intro ctx counters
    obtain ⟨m, he, hn⟩ := hopposite.eval_eq ctx
    simp only [he, hn, Run.map_apply]
    refine ⟨trivial, trivial, ?_⟩
    cases (m counters).outcome with
    | error failure => exact .inl ⟨failure, rfl, rfl⟩
    | ok t => exact .inr ⟨t, rfl, rfl⟩
  · intro hbuilt
    obtain hback | ⟨t, rfl, hback⟩ := hopposite.symm
    · exact .inl (negate?_eq_some_iff.mpr hback)
    · have hnull : constant ⟨t.toValue, .null⟩ = null := congrArg _ ((hbuilt _ rfl).eq_nullOf rfl)
      cases t with
      | unknown => exact .inr ⟨hnull, negate?_eq_some_iff.mpr hback⟩
      | _ => cases hnull

/-- Under hooks that order values the other way round, `NEXT VALUE FOR S < 5` is true where
`NEXT VALUE FOR S >= 5` is false, and both draw one value. -/
theorem negate?_negates_flipped :
    let less : Expr := .comparison .less (.nextValue ⟨0, "S", 1⟩) (.constant (.ofValue (.int 5))) false
    let notLess : Expr :=
      .comparison .greaterOrEqual (.nextValue ⟨0, "S", 1⟩) (.constant (.ofValue (.int 5))) false
    let flipped (mode : Mode) (l r : Value) := (Value.compareAs mode l r).map Ordering.swap
    let ctx : Context := ⟨fun _ => none, fun _ => none, ⟨flipped, Value.isSame⟩⟩
    less.negate? = some notLess ∧ notLess.negate? = some less ∧
    (less.eval ctx fun _ => 7).outcome = .ok (.bool true) ∧
    (notLess.eval ctx fun _ => 7).outcome = .ok (.bool false) ∧
    (notLess.eval ctx fun _ => 7).counters 0 = 8 := by
  intro less notLess flipped ctx
  have hnegation : less.negate? = some notLess := rfl
  obtain ⟨heval, hback⟩ := negate?_negates hnegation
  have hless : (less.eval ctx fun _ => 7).outcome = .ok (.bool true) := rfl
  obtain ⟨-, hcounters, ⟨failure, hfails, -⟩ | ⟨t, ht, hopposite⟩⟩ := heval ctx fun _ => 7
  · cases hless.symm.trans hfails
  · have htrue : t = .holds := by cases t <;> first | rfl | cases hless.symm.trans ht
    subst htrue
    refine ⟨rfl, ?_, hless, hopposite, (congrFun hcounters 0).trans rfl⟩
    exact (hback nofun).resolve_right (by simp [less, null])

end Expr
end QueryPredicates
