import QueryPredicates.Proofs.Optimization.Checks
import QueryPredicates.Proofs.Optimization.Pass

/-! The pass as a function of the expression alone. Sessions differ in their settings and in the
parameters that they bind. Of the settings the pass reads one, which asks for a line in the log, and
of the parameters none, since only constants are evaluated; so with any two sessions it ends in the
same way and records the same events in the same order. An evaluation of constants does not fail,
and so the pass fails only on an array against a scalar and on a constant that is not converted. -/

namespace QueryPredicates
open Run

/-- The events of a record, in order. -/
def Note.events (record : List Note) : List Event := record.filterMap Note.event?

theorem Note.events_append (record later : List Note) :
    events (record ++ later) = events record ++ events later :=
  List.filterMap_append

namespace Compilation

variable {α β : Type}

/-- Whatever the counters are, both end in the same way and record the same events. -/
def Alike (m m' : Compilation α) : Prop :=
  ∀ counters counters', (m counters).outcome = (m' counters').outcome ∧
    Note.events (m counters).record = Note.events (m' counters').record

namespace Alike

theorem pure (a : α) : Alike (Pure.pure a) (Pure.pure a) := fun _ _ => ⟨rfl, rfl⟩

theorem fail (e : CompileError) : Alike (Run.fail e : Compilation α) (Run.fail e) :=
  fun _ _ => ⟨rfl, rfl⟩

theorem ofExcept (o : Except CompileError α) : Alike (Run.ofExcept o) (Run.ofExcept o) := by
  cases o with
  | ok a => exact pure a
  | error e => exact fail e

/-- Of what is noted only the events count. -/
theorem note {notes notes' : List Note} (h : Note.events notes = Note.events notes') :
    Alike (Run.note notes) (Run.note notes') := fun _ _ => ⟨rfl, h⟩

theorem bind {m m' : Compilation α} {f f' : α → Compilation β} (hm : Alike m m')
    (hf : ∀ a, Alike (f a) (f' a)) : Alike (m >>= f) (m' >>= f') := by
  intro counters counters'
  obtain ⟨houtcome, hevents⟩ := hm counters counters'
  cases ho : (m counters).outcome with
  | error e =>
    rw [Run.bind_of_error ho, Run.bind_of_error (houtcome.symm.trans ho)]
    exact ⟨rfl, hevents⟩
  | ok a =>
    rw [Run.bind_of_ok ho, Run.bind_of_ok (houtcome.symm.trans ho)]
    obtain ⟨houtcome', hevents'⟩ := hf a (m counters).counters (m' counters').counters
    refine ⟨houtcome', ?_⟩
    rw [Note.events_append, Note.events_append, hevents, hevents']

theorem mapM {f f' : α → Compilation β} :
    ∀ {as : List α}, (∀ a ∈ as, Alike (f a) (f' a)) → Alike (as.mapM f) (as.mapM f')
  | [], _ => pure []
  | a :: as, h => by
    rw [List.mapM_cons, List.mapM_cons]
    refine (h a List.mem_cons_self).bind fun b => ?_
    exact (mapM fun x hx => h x (List.mem_cons_of_mem a hx)).bind fun bs => pure (b :: bs)

/-- An evaluation notes nothing, so that its outcome is all there is to it. -/
theorem evaluate {m m' : Evaluation α} {o : Except EvalError α} (hm : Yields m o)
    (hm' : Yields m' o) : Alike (Compilation.evaluate m) (Compilation.evaluate m') := by
  intro counters counters'
  refine ⟨?_, rfl⟩
  rw [((evaluate_yields hm) counters).1, ((evaluate_yields hm') counters').1]

end Alike
end Compilation

/-! ## One node -/

open Compilation

variable (s s' : Session)

namespace Comparison

/-- The warning is a line of the log and no event. -/
theorem events_nullWarning (session : Session) (op : Comparator) :
    Note.events (nullWarning session op) = [] := by
  unfold nullWarning
  split <;> rfl

theorem nullWarning_alike (op : Comparator) :
    Alike (Run.note (nullWarning s op)) (Run.note (nullWarning s' op)) :=
  .note ((events_nullWarning s op).trans (events_nullWarning s' op).symm)

theorem toUnknown_alike : Alike toUnknown toUnknown :=
  (Alike.note rfl).bind fun _ => .pure _

theorem coerce_alike (k : Constant) (columnType : SqlType) :
    Alike (coerce k columnType) (coerce k columnType) := by
  unfold coerce
  simp only
  split
  · exact .pure k
  · exact (Alike.ofExcept _).bind fun k' => (Alike.note rfl).bind fun _ => .pure k'

theorem fold_alike (op : Comparator) {left right : Expr}
    (h : (left.isConstant && right.isConstant) = true) :
    Alike (fold s op left right) (fold s' op left right) := by
  obtain ⟨hleft, hright⟩ := Bool.and_eq_true_iff.mp h
  obtain ⟨a, rfl⟩ := Expr.isConstant_iff.mp hleft
  obtain ⟨b, rfl⟩ := Expr.isConstant_iff.mp hright
  have heval := Alike.evaluate (eval_constants_yields s op a b) (eval_constants_yields s' op a b)
  exact heval.bind fun _ => (Alike.note rfl).bind fun _ => .pure _

theorem simplifyNull_alike (op : Comparator) (left right : Expr) :
    Alike (simplifyNull s op left right) (simplifyNull s' op left right) := by
  refine (nullWarning_alike s s' op).bind fun _ => ?_
  simp only
  generalize (if left.isNullConstant = true then right else left) = operand
  split
  · exact toUnknown_alike
  · split
    · exact .pure _
    · exact (Alike.note rfl).bind fun _ => .pure _

theorem settle_alike (op : Comparator) (left right : Expr) :
    Alike (settle s op left right) (settle s' op left right) := by
  unfold settle
  split
  · rename_i h
    exact fold_alike s s' op h
  · split
    · exact simplifyNull_alike s s' op left right
    · exact .pure _

theorem adapt_alike (op : Comparator) (left right : Expr) :
    Alike (adapt s op left right) (adapt s' op left right) := by
  unfold adapt
  split
  · split
    · exact (nullWarning_alike s s' op).bind fun _ => toUnknown_alike
    · exact (coerce_alike _ _).bind fun k => settle_alike s s' op _ _
  · exact settle_alike s s' op _ _
  · exact settle_alike s s' op _ _

theorem orient_alike (op : Comparator) (left right : Expr) :
    Alike (orient s op left right) (orient s' op left right) := by
  unfold orient
  split
  · exact (Alike.note rfl).bind fun _ => adapt_alike s s' _ _ _
  · exact adapt_alike s s' _ _ _

theorem simplify_alike (c : Comparison) : Alike (simplify s c) (simplify s' c) := by
  refine (Alike.note rfl).bind fun _ => ?_
  split
  · exact .fail _
  · split
    · exact .pure _
    · exact orient_alike s s' _ _ _

end Comparison

theorem NullTest.simplify_alike (t : NullTest) : Alike t.simplify t.simplify := by
  unfold simplify
  split
  · exact (Alike.note rfl).bind fun _ => .pure _
  · exact .pure _

theorem InList.simplify_alike (l : InList) : Alike (l.simplify s) (l.simplify s') := by
  unfold simplify
  split
  · exact (Alike.note rfl).bind fun _ => .pure _
  · split
    · rename_i h
      have heval := Alike.evaluate (eval_constants_yields s h) (eval_constants_yields s' h)
      exact heval.bind fun _ => (Alike.note rfl).bind fun _ => .pure _
    · exact .pure _

/-! ## The pass -/

theorem Expr.optimizeWithin_alike (n : Nat) (e : Expr) :
    Alike (optimizeWithin s n e) (optimizeWithin s' n e) := by
  induction n generalizing e with
  | zero => cases e <;> exact .pure _
  | succ n ih =>
    cases e with
    | comparison op left right whenOperand =>
      refine (ih left).bind fun left => (ih right).bind fun right => ?_
      exact Comparison.simplify_alike s s' _
    | nullTest operand negated =>
      exact (ih operand).bind fun operand => NullTest.simplify_alike ⟨operand, negated⟩
    | inList operand first rest =>
      refine (ih operand).bind fun operand => (ih first).bind fun first => ?_
      refine (Alike.mapM fun e _ => ih e).bind fun rest => ?_
      split
      · refine (Alike.note rfl).bind fun _ => ?_
        refine (ih operand).bind fun operand => (ih first).bind fun first => ?_
        exact Comparison.simplify_alike s s' _
      · exact InList.simplify_alike s s' ⟨operand, first, rest⟩
    | _ => exact .pure _

/-! ## Failures -/

/-- The outcome is no failed evaluation. -/
def Compilation.Evaluates {α : Type} (o : Except CompileError α) : Prop :=
  ∀ e, o ≠ .error (.evaluation e)

theorem Compilation.Evaluates.ok {α : Type} (a : α) : Evaluates (.ok a) := nofun

theorem Compilation.Evaluates.bind {α β : Type} {o : Except CompileError α}
    {f : α → Except CompileError β} (ho : Evaluates o) (hf : ∀ a, Evaluates (f a)) :
    Evaluates (o >>= f) := by
  intro e h
  cases o with
  | error e' => exact ho e (Except.error.inj h ▸ rfl)
  | ok a => exact hf a e h

theorem Compilation.Evaluates.mapM {α β : Type} {f : α → Except CompileError β}
    (hf : ∀ a, Evaluates (f a)) : ∀ as : List α, Evaluates (as.mapM f)
  | [] => .ok []
  | a :: as => by
    rw [List.mapM_cons]
    exact (hf a).bind fun b => (mapM hf as).bind fun bs => .ok (b :: bs)

namespace Comparison

theorem evaluates_adaptedConstant (k : Constant) (columnType : SqlType) :
    Evaluates (adaptedConstant k columnType) := by
  unfold adaptedConstant
  split
  · exact .ok k
  · intro e h
    cases hc : k.convert (columnType.common k.type) <;> rw [hc] at h <;> cases h

theorem evaluates_adapted (c : Comparison) : Evaluates c.adapted := by
  unfold adapted
  split
  · exact (evaluates_adaptedConstant _ _).bind fun k => .ok _
  · exact .ok _
  · exact .ok _

theorem evaluates_simplified (c : Comparison) : Evaluates c.simplified := by
  unfold simplified
  split
  · exact nofun
  · split
    · exact .ok _
    · rw [← bind_pure_comp]
      exact (evaluates_adapted _).bind fun d => .ok _

end Comparison

namespace Expr

theorem evaluates_simplifiedWithin (n : Nat) (e : Expr) : Evaluates (simplifiedWithin n e) := by
  induction n generalizing e with
  | zero => cases e <;> exact .ok _
  | succ n ih =>
    cases e with
    | comparison op left right whenOperand =>
      exact (ih left).bind fun left => (ih right).bind fun right =>
        Comparison.evaluates_simplified _
    | nullTest operand negated => exact (ih operand).bind fun operand => .ok _
    | inList operand first rest =>
      refine (ih operand).bind fun operand => (ih first).bind fun first => ?_
      refine (Evaluates.mapM ih rest).bind fun rest => ?_
      split
      · exact (ih operand).bind fun operand => (ih first).bind fun first =>
          Comparison.evaluates_simplified _
      · exact .ok _
    | _ => exact .ok _

/-- The pass belongs to compile time. With any two sessions, whatever the counters, it ends in the
same way and records the same events in the same order, and it leaves the counters alone. It gives
an expression, or fails on an array against a scalar or on a conversion; no assertion on the way is
violated. -/
theorem optimize_compileTime (e : Expr) (s s' : Session) (counters counters' : Counters) :
    let ran := e.optimize s counters
    let ran' := e.optimize s' counters'
    ran.outcome = ran'.outcome ∧ Note.events ran.record = Note.events ran'.record ∧
    ran.counters = counters ∧
    ((∃ e', ran.outcome = .ok e') ∨ (∃ l r, ran.outcome = .error (.arrayAgainstScalar l r)) ∨
      ∃ c, ran.outcome = .error (.conversion c)) ∧
    e.checked s = Checked.lift (e.optimize s) ∧
    ∀ d, (e.checked s counters).outcome ≠ .error (.defect d) := by
  intro ran ran'
  obtain ⟨houtcome, hevents⟩ := optimizeWithin_alike s s' e.depth e counters counters'
  obtain ⟨hsimplified, hcounters⟩ := optimize_yields s e counters
  refine ⟨houtcome, hevents, hcounters, ?_, checked_eq s e, fun d h => ?_⟩
  · cases ho : ran.outcome with
    | ok e' => exact .inl ⟨e', rfl⟩
    | error failure =>
      cases failure with
      | arrayAgainstScalar l r => exact .inr (.inl ⟨l, r, rfl⟩)
      | conversion c => exact .inr (.inr ⟨c, rfl⟩)
      | evaluation failed =>
        have hevaluates := evaluates_simplifiedWithin e.depth e failed
        exact (hevaluates (hsimplified.symm.trans ho)).elim
  · rw [checked_eq] at h
    have hlift : ran.outcome.mapError Halt.refused = .error (.defect d) := h
    cases ho : ran.outcome <;> rw [ho] at hlift <;> cases hlift

end Expr
end QueryPredicates
