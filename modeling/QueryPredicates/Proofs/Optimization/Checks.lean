import QueryPredicates.Optimization.Checked

/-! No assertion stops the pass. The operators that it holds come from the expression, whose comparisons
have comparators, and reversal keeps them so; a list is as long as it was. So the pass with assertions is
the pass, step by step. -/

namespace QueryPredicates

namespace Checked

variable {α β : Type}

/-! ## Lifting -/

@[simp] theorem lift_pure (a : α) : lift (pure a) = pure a := rfl

@[simp] theorem lift_note (notes : List Note) : lift (Run.note notes) = Run.note notes := rfl

@[simp] theorem lift_bind (m : Compilation α) (f : α → Compilation β) :
    lift (m >>= f) = lift m >>= fun a => lift (f a) := by
  funext counters
  have hlift : (lift m counters).outcome = (m counters).outcome.mapError .refused := rfl
  cases ho : (m counters).outcome with
  | error e =>
    rw [ho] at hlift
    rw [Run.bind_of_error hlift, lift, Run.bind_of_error ho]
    rfl
  | ok a =>
    rw [ho] at hlift
    rw [Run.bind_of_ok hlift, lift, Run.bind_of_ok ho]
    rfl

theorem lift_mapM {f : α → Compilation β} {g : α → Checked β} (h : ∀ a, g a = lift (f a)) :
    ∀ as : List α, as.mapM g = lift (as.mapM f)
  | [] => rfl
  | a :: as => by
    simp only [List.mapM_cons, lift_bind, lift_pure, h a, lift_mapM h as]

/-! ## Assertions that hold -/

@[simp] theorem demand_require (c : Comparator) (defect : Operator → Defect) :
    demand ((Operator.comparator c).require defect) = pure c := rfl

@[simp] theorem demand_reverse (c : Comparator) :
    demand (Operator.comparator c).reverse = pure (.comparator c.reverse) := rfl

@[simp] theorem demand_ofOperator (c : Comparator) (left right : Expr) (whenOperand : Bool) :
    demand (Comparison.ofOperator (.comparator c) left right whenOperand) =
      pure ⟨c, left, right, whenOperand⟩ := rfl

@[simp] theorem demand_ofValues (operand first : Expr) (rest : List Expr) :
    demand (InList.ofValues operand (first :: rest)) = pure ⟨operand, first, rest⟩ := rfl

end Checked

open Checked

/-! ## Comparisons -/

namespace Comparison

variable (session : Session) (op : Comparator) (left right : Expr)

theorem checked_warn :
    Checked.warn session (.comparator op) = lift (Run.note (nullWarning session op)) := by
  unfold Checked.warn nullWarning
  split <;> rfl

theorem checked_build :
    Checked.build (.comparator op) left right = lift (pure (.comparison op left right false)) := by
  simp [Checked.build, toExpr]

theorem checked_fold :
    Checked.fold session (.comparator op) left right = lift (fold session op left right) := by
  simp [Checked.fold]

theorem checked_simplifyNull : Checked.simplifyNull session (.comparator op) left right =
    lift (simplifyNull session op left right) := by
  have hsafe : (Operator.comparator op).isNullSafe = op.isNullSafe := rfl
  have hnegated : (Operator.comparator op == .comparator .notEqualNullSafe) =
      (op == .notEqualNullSafe) := by cases op <;> rfl
  rw [Checked.simplifyNull, simplifyNull, lift_bind, checked_warn, hsafe, hnegated]
  refine bind_congr fun _ => ?_
  simp only
  generalize (if left.isNullConstant = true then right else left) = operand
  split
  · rfl
  · split
    · exact checked_build op left right
    · rw [lift_bind, lift_note]
      rfl

theorem checked_settle :
    Checked.settle session (.comparator op) left right = lift (settle session op left right) := by
  unfold Checked.settle settle
  split
  · exact checked_fold session op left right
  · split
    · exact checked_simplifyNull session op left right
    · exact checked_build op left right

theorem checked_adapt :
    Checked.adapt session (.comparator op) left right = lift (adapt session op left right) := by
  cases left with
  | column column =>
    cases right with
    | constant c =>
      have hsafe : (Operator.comparator op).isNullSafe = op.isNullSafe := rfl
      simp only [Checked.adapt, adapt, hsafe]
      split
      · rw [lift_bind, checked_warn]
      · rw [lift_bind]
        exact bind_congr fun k => checked_settle session op _ _
    | _ => exact checked_settle session op _ _
  | _ => exact checked_settle session op _ _

theorem checked_orient :
    Checked.orient session (.comparator op) left right = lift (orient session op left right) := by
  unfold Checked.orient orient
  split
  · simp [checked_adapt]
  · exact checked_adapt session op left right

theorem checked_simplify (c : Comparison) :
    Checked.simplify session c = lift (simplify session c) := by
  rw [Checked.simplify, simplify, lift_bind, lift_note]
  refine bind_congr fun _ => ?_
  split
  · rfl
  · split
    · rename_i hwhen
      obtain ⟨op, left, right, whenOperand⟩ := c
      cases hwhen
      rfl
    · exact checked_orient session c.op c.left c.right

end Comparison

/-! ## Lists -/

namespace InList

theorem checked_simplify (session : Session) (operand first : Expr) (rest : List Expr) :
    Checked.simplify session operand (first :: rest) =
      lift (simplify session ⟨operand, first, rest⟩) := by
  unfold Checked.simplify simplify
  split
  · rfl
  · rw [demand_ofValues, pure_bind, demand_require]
    split
    · rw [pure_bind, lift_bind]
      rfl
    · rfl

end InList

/-! ## The pass -/

namespace Expr

/-- No assertion stops the pass. -/
theorem checkedWithin_eq (session : Session) (n : Nat) (e : Expr) :
    checkedWithin session n e = lift (optimizeWithin session n e) := by
  induction n generalizing e with
  | zero => cases e <;> rfl
  | succ n ih =>
    cases e with
    | comparison op left right whenOperand =>
      simp only [checkedWithin, optimizeWithin, lift_bind, ih, Comparison.checked_simplify]
    | nullTest operand negated => simp only [checkedWithin, optimizeWithin, lift_bind, ih]
    | inList operand first rest =>
      simp only [checkedWithin, optimizeWithin, lift_bind, List.mapM_cons, bind_assoc, pure_bind, ih,
        lift_mapM ih rest]
      refine bind_congr fun operand => bind_congr fun first => bind_congr fun rest => ?_
      cases rest with
      | nil => simp [Comparison.checked_simplify]
      | cons value rest => exact InList.checked_simplify session operand first (value :: rest)
    | _ => rfl

theorem checked_eq (session : Session) (e : Expr) :
    e.checked session = lift (e.optimize session) :=
  checkedWithin_eq session e.depth e

end Expr
end QueryPredicates
