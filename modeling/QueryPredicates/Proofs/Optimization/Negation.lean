import QueryPredicates.Proofs.Evaluation.Negation
import QueryPredicates.Proofs.Optimization.Equations

/-! Negating before or after the pass. The complementary comparator has the same null-safety, and
its reverse is the complement of the reverse, so a comparison and its negation are turned,
adapted and settled alike and end in an expression and its negation, or in the same error. -/

namespace QueryPredicates

/-! ## Comparators and constants -/

namespace Comparator

theorem complement?_reverse {c d : Comparator} (h : c.complement? = some d) :
    c.reverse.complement? = some d.reverse := by
  cases c <;> simp [complement?] at h <;> subst h <;> rfl

/-- The complement of a null-safe comparator is the other one. -/
theorem complement?_nullSafe {c d : Comparator} (h : c.complement? = some d)
    (hc : c.isNullSafe = true) : (d == .notEqualNullSafe) = !(c == .notEqualNullSafe) := by
  cases c <;> first
    | (cases h; rfl)
    | cases hc

/-- The complementary comparator negates the truth value. -/
theorem truth_complement? {c d : Comparator} (h : c.complement? = some d) (l r : Value) :
    d.truth l r = (c.truth l r).not :=
  truthUnder_complement? h .standard l r

end Comparator

theorem Expr.negate?_ofTruth (t : Truth) : (Expr.ofTruth t).negate? = some (.ofTruth t.not) := by
  cases t <;> rfl

/-! ## Comparisons -/

/-- The second outcome negates the first: it is the same failure, or the negated expression. -/
inductive Negates : Except CompileError Expr → Except CompileError Expr → Prop
  | error (e : CompileError) : Negates (.error e) (.error e)
  | ok {y m : Expr} (h : y.negate? = some m) : Negates (.ok y) (.ok m)

theorem Negates.bind_left {o : Except CompileError Expr} {f g : Expr → Except CompileError Expr}
    (h : ∀ a, Negates (f a) (g a)) : Negates (o >>= f) (o >>= g) := by
  cases o with
  | error e => exact .error e
  | ok a => exact h a

namespace Comparison

/-- The comparison of the same operands under another comparator. -/
def withOp (c : Comparison) (op : Comparator) : Comparison := { c with op }

theorem withOp_oriented {c : Comparison} {d : Comparator} (h : c.op.complement? = some d) :
    ∃ d', c.oriented.op.complement? = some d' ∧ (c.withOp d).oriented = c.oriented.withOp d' := by
  unfold oriented withOp
  simp only
  split
  · exact ⟨d.reverse, Comparator.complement?_reverse h, rfl⟩
  · exact ⟨d, h, rfl⟩

/-- Adapting a comparison leaves its comparator alone and does not ask for it. -/
theorem withOp_adapted (c : Comparison) (op : Comparator) :
    (c.withOp op).adapted = (·.withOp op) <$> c.adapted := by
  obtain ⟨op', left, right, whenOperand⟩ := c
  cases left <;> cases right <;> first
    | rfl
    | (simp only [withOp, adapted]
       cases adaptedConstant _ _ <;> rfl)

theorem negate?_toExpr {c : Comparison} {d : Comparator} (hw : c.whenOperand = false)
    (h : c.op.complement? = some d) : c.toExpr.negate? = some (c.withOp d).toExpr := by
  obtain ⟨op, left, right, whenOperand⟩ := c
  cases hw
  have h : op.complement? = some d := h
  simp [toExpr, Expr.negate?, negate?, h, withOp]

theorem negate?_settledNull {c : Comparison} {d : Comparator} (hw : c.whenOperand = false)
    (h : c.op.complement? = some d) :
    c.settledNull.negate? = some (c.withOp d).settledNull := by
  have hsafe : (c.withOp d).op.isNullSafe = c.op.isNullSafe := Comparator.isNullSafe_complement? h
  have hbeside : (c.withOp d).besideNull = c.besideNull := rfl
  unfold settledNull
  rw [hsafe, hbeside]
  cases hop : c.op.isNullSafe with
  | false => exact Expr.negate?_ofTruth .unknown
  | true =>
    simp only [Bool.not_true, Bool.false_eq_true, if_false]
    split
    · exact negate?_toExpr hw h
    · rw [show (c.withOp d).op = d from rfl, Comparator.complement?_nullSafe h hop]
      rfl

theorem negate?_settled {c : Comparison} {d : Comparator} (hw : c.whenOperand = false)
    (h : c.op.complement? = some d) : c.settled.negate? = some (c.withOp d).settled := by
  have hleft : (c.withOp d).left = c.left := rfl
  have hright : (c.withOp d).right = c.right := rfl
  unfold settled
  rw [hleft, hright]
  split
  · rw [show (c.withOp d).op = d from rfl, Comparator.truth_complement? h]
    exact Expr.negate?_ofTruth _
  · split
    · exact negate?_settledNull hw h
    · exact negate?_toExpr hw h

theorem negates_simplified {c : Comparison} {d : Comparator} (hw : c.whenOperand = false)
    (h : c.op.complement? = some d) : Negates c.simplified (c.withOp d).simplified := by
  have hmismatched : (c.withOp d).isMismatched = c.isMismatched := rfl
  have hwhen : (c.withOp d).whenOperand = false := hw
  unfold simplified
  rw [hmismatched, hw, hwhen]
  split
  · exact .error _
  · obtain ⟨d', hd', hturned⟩ := withOp_oriented h
    simp only [Bool.false_eq_true, if_false]
    rw [hturned, withOp_adapted]
    cases ha : c.oriented.adapted with
    | error e => exact .error e
    | ok a =>
      have hop : a.op.complement? = some d' := by rw [op_adapted ha, hd']
      have hwa : a.whenOperand = false := by
        rw [whenOperand_adapted ha, whenOperand_oriented, hw]
      exact .ok (negate?_settled hwa hop)

/-- Only a comparison that is no `WHEN` operand is negated, under the complement of its
comparator. -/
theorem negate?_eq_some {c n : Comparison} (h : c.negate? = some n) :
    c.whenOperand = false ∧ ∃ d, c.op.complement? = some d ∧ n = c.withOp d := by
  unfold negate? at h
  split at h
  · cases h
  · rename_i hw
    obtain ⟨d, hd, rfl⟩ := Option.map_eq_some_iff.mp h
    have hw := Bool.eq_false_iff.mpr hw
    refine ⟨hw, d, hd, ?_⟩
    unfold withOp
    rw [← hw]

end Comparison

theorem NullTest.negates_simplified (t : NullTest) :
    Negates (.ok t.simplified) (.ok t.negate.simplified) := by
  obtain ⟨operand, negated⟩ := t
  refine .ok ?_
  cases operand with
  | constant k =>
    simp only [simplified, negate, Truth.ofBool_bne_not]
    exact Expr.negate?_ofTruth _
  | _ => rfl

/-! ## The pass -/

namespace Expr

theorem negates_simplified {e n : Expr} (h : e.negate? = some n) :
    Negates e.simplified n.simplified := by
  cases e with
  | comparison op left right whenOperand =>
    obtain ⟨c, hc, rfl⟩ := Option.map_eq_some_iff.mp h
    obtain ⟨hw, d, hd, rfl⟩ := Comparison.negate?_eq_some hc
    have hn : Comparison.toExpr (Comparison.withOp ⟨op, left, right, whenOperand⟩ d) =
        comparison d left right whenOperand := rfl
    rw [hn, simplified_comparison, simplified_comparison]
    refine Negates.bind_left fun left' => Negates.bind_left fun right' => ?_
    exact Comparison.negates_simplified (c := ⟨op, left', right', whenOperand⟩) hw hd
  | nullTest operand negated =>
    have hn : nullTest operand (!negated) = n := Option.some.inj h
    rw [← hn, simplified_nullTest, simplified_nullTest]
    exact Negates.bind_left fun operand' => NullTest.negates_simplified ⟨operand', negated⟩
  | constant k =>
    obtain ⟨m, hm, rfl⟩ := Option.map_eq_some_iff.mp h
    exact .ok h
  | _ => cases h

/-- Negating commutes with simplifying: an expression and its negation fail alike, and where the
first is simplified to `y`, the second is simplified to the negation of `y`. -/
theorem optimize_negate? {session : Session} {counters : Counters} {e n : Expr}
    (h : e.negate? = some n) :
    ((∃ y, (e.optimize session counters).outcome = .ok y) ↔
      ∃ m, (n.optimize session counters).outcome = .ok m) ∧
    (∀ error, (e.optimize session counters).outcome = .error error ↔
      (n.optimize session counters).outcome = .error error) ∧
    ∀ y, (e.optimize session counters).outcome = .ok y →
      ∃ m, y.negate? = some m ∧ (n.optimize session counters).outcome = .ok m := by
  have hoe := (optimize_yields session e counters).1
  have hon := (optimize_yields session n counters).1
  have hnegates := negates_simplified h
  rw [← hoe, ← hon] at hnegates
  generalize (e.optimize session counters).outcome = o at hnegates
  generalize (n.optimize session counters).outcome = p at hnegates
  cases hnegates with
  | error error => simp
  | ok hy => simpa using hy

/-- `NOT (10 < T.A)` over a BIGINT column: `T.A > 10` is negated to `T.A <= 10`, both with a
BIGINT constant. -/
theorem optimize_negate?_turned :
    (comparison .less (constant ⟨.int 10, .int⟩)
      (column ⟨1, "T", "A", .bigInt, true⟩) false).negate? =
        some (comparison .greaterOrEqual (constant ⟨.int 10, .int⟩)
          (column ⟨1, "T", "A", .bigInt, true⟩) false) ∧
    ∃ m, (comparison .greater (column ⟨1, "T", "A", .bigInt, true⟩)
        (constant ⟨.bigInt 10, .bigInt⟩) false).negate? = some m ∧
      (optimize {} (comparison .greaterOrEqual (constant ⟨.int 10, .int⟩)
        (column ⟨1, "T", "A", .bigInt, true⟩) false) fun _ => 0).outcome = .ok m := by
  have hnegation : (comparison .less (constant ⟨.int 10, .int⟩)
      (column ⟨1, "T", "A", .bigInt, true⟩) false).negate? =
        some (comparison .greaterOrEqual (constant ⟨.int 10, .int⟩)
          (column ⟨1, "T", "A", .bigInt, true⟩) false) := rfl
  exact ⟨hnegation, (optimize_negate? hnegation).2.2 _ rfl⟩

end Expr
end QueryPredicates
