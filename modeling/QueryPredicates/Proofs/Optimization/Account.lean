import QueryPredicates.Proofs.Optimization.Equations
import QueryPredicates.Proofs.Optimization.Events

/-! What the events of a comparison tell about its result. The last of them says in what form the
comparison has ended, and none does if it has remained a comparison. Then the operands show whether
they were swapped and whether the constant among them was coerced, just as the events before say. -/

namespace QueryPredicates
open Run Compilation

namespace Comparison

theorem toExpr_injective {c d : Comparison} (h : c.toExpr = d.toExpr) : c = d := by
  obtain ⟨op, left, right, whenOperand⟩ := c
  cases h
  rfl

/-! ## The end -/

/-- The forms in which a comparison ends, each with the event that tells of it. -/
inductive Ends : Expr → List Event → Prop
  | folded (t : Truth) : Ends (.ofTruth t) [.constantFolded]
  | propagated : Ends .unknown [.nullPropagated]
  | tested (operand : Expr) (negated : Bool) : Ends (.nullTest operand negated) [.nullTestIntroduced]
  | kept (d : Comparison) : Ends d.toExpr []

/-- What the last events tell about the form of a result. -/
structure TellsForm (e : Expr) (ended : List Event) : Prop where
  ended_le : ended = [] ∨ ended = [.nullPropagated] ∨ ended = [.constantFolded] ∨
    ended = [.nullTestIntroduced]
  constant_iff : (∃ k, e = .constant k) ↔ ended = [.nullPropagated] ∨ ended = [.constantFolded]
  unknown : ended = [.nullPropagated] → e = .unknown
  nullTest_iff : (∃ operand negated, e = .nullTest operand negated) ↔
    ended = [.nullTestIntroduced]
  comparison_iff : (∃ d : Comparison, e = d.toExpr) ↔ ended = []

theorem Ends.tellsForm {e : Expr} {ended : List Event} (h : Ends e ended) : TellsForm e ended where
  ended_le := by cases h <;> simp
  constant_iff := by cases h <;> simp [Expr.ofTruth, Expr.unknown, toExpr]
  unknown hended := by cases h <;> first | rfl | cases hended
  nullTest_iff := by cases h <;> simp [Expr.ofTruth, Expr.unknown, toExpr]
  comparison_iff := by
    cases h with
    | kept d => exact iff_of_true ⟨d, rfl⟩ rfl
    | _ =>
      refine iff_of_false ?_ (List.cons_ne_nil _ _)
      rintro ⟨d, hd⟩
      cases hd

theorem settled_ends (c : Comparison) : Ends c.settled c.settlement := by
  unfold settlement settlementNull
  obtain ⟨a, b, hl, hr, hs⟩ | ⟨hboth, ⟨hnull, hop, hs⟩ | ⟨hnull, hop, htype, hs⟩ | ⟨hnull, hs⟩⟩ :=
    c.settled_cases
  · rw [hs, hl, hr]
    exact .folded _
  · rw [hs, hboth, hnull, hop]
    exact .propagated
  · rw [hs, hboth, hnull, hop, htype]
    exact .tested _ _
  · rw [hs, hboth]
    by_cases hone : (c.left.isNullConstant || c.right.isNullConstant) = true
    · obtain ⟨hop, htype⟩ := hnull hone
      rw [hone, hop, htype]
      exact .kept c
    · rw [Bool.eq_false_iff.mpr hone]
      exact .kept c

/-- A comparison ends as a comparison only as the one that it is. -/
theorem eq_of_settled {c d : Comparison} (h : c.settled = d.toExpr) : d = c := by
  obtain ⟨a, b, -, -, hs⟩ | ⟨-, ⟨-, -, hs⟩ | ⟨-, -, -, hs⟩ | ⟨-, hs⟩⟩ := c.settled_cases
  · cases hs.symm.trans h
  · cases hs.symm.trans h
  · cases hs.symm.trans h
  · exact toExpr_injective (h.symm.trans hs)

/-! ## The operands -/

theorem isTurned_ne {left right : Expr} (h : isTurned left right = true) : right ≠ left := by
  rintro rfl
  cases right <;>
    simp [isTurned, Expr.column?, Expr.isConstant, Expr.constant?, Expr.isParameter] at h

theorem oriented_cases (c : Comparison) :
    isTurned c.left c.right = true ∧ c.oriented = ⟨c.op.reverse, c.right, c.left, c.whenOperand⟩ ∨
      isTurned c.left c.right = false ∧ c.oriented = c := by
  unfold oriented
  by_cases hturned : isTurned c.left c.right = true
  · exact .inl ⟨hturned, if_pos hturned⟩
  · exact .inr ⟨Bool.eq_false_iff.mpr hturned, if_neg hturned⟩

/-- The left operand shows whether the operands have been swapped. -/
theorem isTurned_iff_oriented (c : Comparison) : isTurned c.left c.right = true ↔
    c.oriented.left ≠ c.left ∧ c.oriented.left = c.right := by
  obtain ⟨hturned, hc⟩ | ⟨hturned, hc⟩ := c.oriented_cases
  · rw [hc]
    exact iff_of_true hturned ⟨isTurned_ne hturned, rfl⟩
  · rw [hc, hturned]
    exact iff_of_false Bool.false_ne_true fun ⟨hne, _⟩ => hne rfl

theorem left_adapted {c d : Comparison} (h : c.adapted = .ok d) : d.left = c.left := by
  obtain ⟨column, k, k', -, -, -, rfl⟩ | ⟨column, p, -, -, rfl⟩ | ⟨-, rfl⟩ := adapted_cases h <;> rfl

/-- A constant is adapted to another one exactly if it is converted. -/
theorem adaptedConstant_ne_iff {k k' : Constant} {columnType : SqlType}
    (h : adaptedConstant k columnType = .ok k') :
    k' ≠ k ↔ ¬ (k.type = columnType ∨ k.type = columnType.common k.type) := by
  constructor
  · intro hne hsame
    rw [adaptedConstant, if_pos hsame] at h
    exact hne (Except.ok.inj h).symm
  · rintro hother rfl
    obtain ⟨hsame, -⟩ | ⟨-, htype, -⟩ := adaptedConstant_cases h
    · exact hother hsame
    · exact hother (.inl htype)

/-- In a comparison that remains one, a constant is coerced exactly if the constant on the right is
neither of the operands that there were. -/
theorem coercion_iff {c d : Comparison} (hd : c.adapted = .ok d) (hended : c.settlement = []) :
    c.coercion = [.constantCoerced] ↔
      (∃ k, d.right = .constant k) ∧ d.right ≠ c.left ∧ d.right ≠ c.right := by
  obtain ⟨op, left, right, whenOperand⟩ := c
  obtain ⟨column, k, k', rfl, rfl, hk, rfl⟩ | ⟨column, p, rfl, rfl, rfl⟩ | ⟨hother, rfl⟩ :=
    adapted_cases hd
  · have hnull : (k.isNull && !op.isNullSafe) = false := by
      by_contra hnull
      obtain ⟨hk, hop⟩ := Bool.and_eq_true_iff.mp (Bool.of_not_eq_false hnull)
      have hright : Expr.isNullConstant (.constant k) = true := hk
      simp [settlement, settlementNull, hright, hop, Expr.isConstant, Expr.constant?] at hended
    have hcoercion : coercion ⟨op, .column column, .constant k, whenOperand⟩ = [.constantCoerced] ↔
        k' ≠ k := by
      rw [adaptedConstant_ne_iff hk]
      simp [coercion, hnull]
    rw [hcoercion]
    simp
  · simp [coercion]
  · rw [coercion_eq_nil]
    · simp
    · rintro column k rfl rfl
      obtain ⟨hconstant, -⟩ := hother rfl
      cases hconstant

/-! ## The account -/

/-- What the events after the first tell about a comparison of simplified operands and its result. -/
structure Account (c : Comparison) (e : Expr) (swapped coerced ended : List Event) : Prop
    extends TellsForm e ended where
  whenOperand : c.whenOperand = true → swapped = [] ∧ coerced = [] ∧ ended = []
  swapped_le : swapped = [] ∨ swapped = [.operandsSwapped]
  coerced_le : coerced = [] ∨ coerced = [.constantCoerced]
  swapped_iff : swapped = [.operandsSwapped] ↔
    c.whenOperand = false ∧ isTurned c.left c.right = true
  /-- In a comparison that remains one, the right operand has come to the left. -/
  sides : ∀ d : Comparison, e = d.toExpr →
    (swapped = [.operandsSwapped] ↔ d.left ≠ c.left ∧ d.left = c.right)
  /-- In a comparison that remains one, the constant is neither of the operands. -/
  coerced_iff : ∀ d : Comparison, e = d.toExpr → (coerced = [.constantCoerced] ↔
    (∃ k, d.right = .constant k) ∧ d.right ≠ c.left ∧ d.right ≠ c.right)

theorem account_whenOperand {c : Comparison} (h : c.whenOperand = true) :
    Account c c.toExpr [] [] [] where
  toTellsForm := (Ends.kept c).tellsForm
  whenOperand _ := ⟨rfl, rfl, rfl⟩
  swapped_le := .inl rfl
  coerced_le := .inl rfl
  swapped_iff := by simp [h]
  sides d hd := by
    obtain rfl := toExpr_injective hd
    simp
  coerced_iff d hd := by
    obtain rfl := toExpr_injective hd
    simp

theorem account_settled {c d : Comparison} (hc : c.whenOperand = false)
    (hd : c.oriented.adapted = .ok d) :
    Account c d.settled c.swap c.oriented.coercion c.oriented.settlement := by
  have htells := d.settled_ends.tellsForm
  rw [settlement_adapted hd] at htells
  have hswap : c.swap = [.operandsSwapped] ↔ isTurned c.left c.right = true := by
    simp [swap]
  exact {
    toTellsForm := htells
    whenOperand := fun hwhen => by simp [hc] at hwhen
    swapped_le := by
      unfold swap
      split
      · exact .inr rfl
      · exact .inl rfl
    coerced_le := by
      unfold coercion
      repeat' split
      all_goals simp
    swapped_iff := by rw [hswap, hc, eq_self, true_and]
    sides := fun e he => by
      obtain rfl := eq_of_settled he
      rw [hswap, left_adapted hd]
      exact c.isTurned_iff_oriented
    coerced_iff := fun e he => by
      have hended := htells.comparison_iff.mp ⟨e, he⟩
      obtain rfl := eq_of_settled he
      rw [coercion_iff hd hended]
      obtain ⟨-, horiented⟩ | ⟨-, horiented⟩ := c.oriented_cases
      · rw [horiented]
        exact and_congr_right fun _ => and_comm
      · rw [horiented] }

/-- The events of a comparison of simplified operands are the first one and those of an account. -/
theorem exists_account {c : Comparison} {e : Expr} (h : c.simplified = .ok e) :
    ∃ swapped coerced ended, Account c e swapped coerced ended ∧
      c.events = .comparisonOptimized c.op :: (swapped ++ coerced ++ ended) := by
  obtain ⟨-, ⟨hwhen, rfl⟩ | ⟨hwhen, d, hd, rfl⟩⟩ := simplified_cases h
  · exact ⟨[], [], [], account_whenOperand hwhen, by simp [events, hwhen]⟩
  · refine ⟨_, _, _, account_settled hwhen hd, ?_⟩
    simp [events, hwhen]

end Comparison

/-! ## The pass -/

namespace Expr

/-- A comparison for which the pass succeeds has on record the events of its left operand, those of its
right operand, that it is optimized, with the operator as it is given, and an account of the rest. -/
theorem optimize_account {session : Session} {counters : Counters} {op : Comparator}
    {left right e : Expr} {whenOperand : Bool}
    (h : ((comparison op left right whenOperand).optimize session counters).outcome = .ok e) :
    let ran := (comparison op left right whenOperand).optimize session counters
    let ranLeft := left.optimize session counters
    let ranRight := right.optimize session ranLeft.counters
    ∃ left' right' swapped coerced ended,
      ranLeft.outcome = .ok left' ∧ ranRight.outcome = .ok right' ∧
      Note.events ran.record = Note.events ranLeft.record ++ Note.events ranRight.record ++
        .comparisonOptimized op :: (swapped ++ coerced ++ ended) ∧
      Comparison.Account ⟨op, left', right', whenOperand⟩ e swapped coerced ended := by
  intro ran ranLeft ranRight
  have hpass := ((optimize_yields session _).outcome_iff counters).mp h
  rw [simplified_comparison] at hpass
  obtain ⟨left', hl, hpass⟩ := Except.eq_ok_of_bind hpass
  obtain ⟨right', hr, hpass⟩ := Except.eq_ok_of_bind hpass
  have hleft : (left.optimize session counters).outcome = .ok left' :=
    ((optimize_yields session left).outcome_iff _).mpr hl
  have hright : (right.optimize session ranLeft.counters).outcome = .ok right' :=
    ((optimize_yields session right).outcome_iff _).mpr hr
  obtain ⟨swapped, coerced, ended, haccount, hevents⟩ := Comparison.exists_account hpass
  refine ⟨left', right', swapped, coerced, ended, hleft, hright, ?_, haccount⟩
  let node := Comparison.simplify session ⟨op, left', right', whenOperand⟩ ranRight.counters
  have hnode : Note.events node.record = .comparisonOptimized op :: (swapped ++ coerced ++ ended) := by
    rw [← hevents]
    have hyields := Comparison.simplify_yields session ⟨op, left', right', whenOperand⟩
    exact Comparison.simplify_records session _ _ e ((hyields.outcome_iff _).mpr hpass)
  have hran : ran.record = ranLeft.record ++ (ranRight.record ++ node.record) := by
    have hequation := congrFun (optimize_comparison session op left right whenOperand) counters
    rw [bind_of_ok hleft, bind_of_ok hright] at hequation
    exact congrArg Ran.record hequation
  rw [hran, Note.events_append, Note.events_append, hnode, ← List.append_assoc]

/-- `10 < T.A` with T.A of type BIGINT becomes `T.A > 10` with 10 as a BIGINT. -/
theorem optimize_account_turned :
    let ten : Expr := constant ⟨.int 10, .int⟩
    let column : Expr := column ⟨1, "T", "A", .bigInt, true⟩
    let ran := (comparison .less ten column false).optimize {} fun _ => 0
    let e : Expr := comparison .greater column (constant ⟨.bigInt 10, .bigInt⟩) false
    ran.outcome = .ok e ∧
      Note.events ran.record = [.comparisonOptimized .less, .operandsSwapped, .constantCoerced] ∧
      ∃ swapped coerced ended,
        Note.events ran.record = .comparisonOptimized .less :: (swapped ++ coerced ++ ended) ∧
        Comparison.Account ⟨.less, ten, column, false⟩ e swapped coerced ended := by
  intro ten column ran e
  have hpass : ran.outcome = .ok e := rfl
  obtain ⟨left', right', swapped, coerced, ended, hl, hr, hevents, haccount⟩ :=
    optimize_account hpass
  cases hl
  cases hr
  exact ⟨hpass, rfl, swapped, coerced, ended, hevents, haccount⟩

end Expr
end QueryPredicates
