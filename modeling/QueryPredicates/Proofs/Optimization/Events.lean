import QueryPredicates.Proofs.Optimization.Independence

/-! The events of one node. Which events the pass records at a comparison, if it returns, can be told
from the comparison: first that it is optimized; then, unless it is a `WHEN` operand, whether its
operands are swapped, whether the constant on the right is coerced, and what becomes of it in the end.
A null test or a list tells of its end only. The events of runs that follow each other stand one after
the other. -/

namespace QueryPredicates
open Run

namespace Compilation

variable {α β : Type}

/-- Whatever the counters are, the events of the run have the property if it returns. -/
def Tells (P : List Event → Prop) (m : Compilation α) : Prop :=
  ∀ counters a, (m counters).outcome = .ok a → P (Note.events (m counters).record)

/-- The second run needs to be looked at only where the first one comes out. -/
theorem Tells.bind {P Q R : List Event → Prop} {m : Compilation α} {f : α → Compilation β}
    {o : Except CompileError α} (ho : Yields m o) (hm : Tells P m)
    (hf : ∀ a, o = .ok a → Tells Q (f a))
    (happend : ∀ events later, P events → Q later → R (events ++ later)) : Tells R (m >>= f) := by
  intro counters b hb
  have houtcome := (ho counters).1
  cases o with
  | error e =>
    rw [Run.bind_of_error houtcome] at hb
    cases hb
  | ok a =>
    rw [Run.bind_of_ok houtcome] at hb ⊢
    rw [Note.events_append]
    exact happend _ _ (hm counters a houtcome) (hf a rfl _ b hb)

/-- The run, if it returns, records just these events. -/
def Records (m : Compilation α) (events : List Event) : Prop := Tells (· = events) m

namespace Records

theorem pure (a : α) : Records (Pure.pure a) [] := fun _ _ _ => rfl

theorem fail (e : CompileError) (events : List Event) :
    Records (Run.fail e : Compilation α) events := fun _ _ h => nomatch h

theorem ofExcept (o : Except CompileError α) : Records (Run.ofExcept o) [] := by
  cases o <;> exact fun _ _ _ => rfl

theorem note (notes : List Note) : Records (Run.note notes) (Note.events notes) := fun _ _ _ => rfl

theorem evaluate (m : Evaluation α) : Records (Compilation.evaluate m) [] := fun _ _ _ => rfl

theorem bind {m : Compilation α} {f : α → Compilation β} {o : Except CompileError α}
    {events later : List Event} (ho : Yields m o) (hm : Records m events)
    (hf : ∀ a, o = .ok a → Records (f a) later) : Records (m >>= f) (events ++ later) :=
  Tells.bind ho hm hf fun _ _ hevents hlater => congrArg₂ _ hevents hlater

/-- A run after some notes. -/
theorem afterNote {f : Unit → Compilation β} {later : List Event} (notes : List Note)
    (hf : Records (f ()) later) : Records (Run.note notes >>= f) (Note.events notes ++ later) :=
  bind (.note notes) (note notes) fun _ _ => hf

/-- A run after notes that are lines only. -/
theorem afterLines {f : Unit → Compilation β} {notes : List Note} {later : List Event}
    (h : Note.events notes = []) (hf : Records (f ()) later) :
    Records (Run.note notes >>= f) later := by
  have hafter := afterNote notes hf
  rwa [h] at hafter

end Records
end Compilation

/-! ## One comparison -/

open Compilation

namespace Comparison

/-- The event of swapped operands. -/
def swap (c : Comparison) : List Event := if isTurned c.left c.right then [.operandsSwapped] else []

/-- The event of a constant that is converted to the type in which it meets a column. A NULL that
decides the comparison is not converted. -/
def coercion (c : Comparison) : List Event :=
  match c.left, c.right with
  | .column column, .constant k =>
    if k.isNull && !c.op.isNullSafe then []
    else if k.type = column.type ∨ k.type = column.type.common k.type then []
    else [.constantCoerced]
  | _, _ => []

/-- The event of what becomes of a comparison with a NULL constant. -/
def settlementNull (c : Comparison) : List Event :=
  if !c.op.isNullSafe then [.nullPropagated]
  else if c.besideNull.type == .unknown || c.besideNull.type == .row then []
  else [.nullTestIntroduced]

/-- The event of what becomes of a comparison in the end, if it does not stay one. -/
def settlement (c : Comparison) : List Event :=
  if c.left.isConstant && c.right.isConstant then [.constantFolded]
  else if c.left.isNullConstant || c.right.isNullConstant then c.settlementNull
  else []

/-- The events of a comparison of simplified operands. -/
def events (c : Comparison) : List Event :=
  .comparisonOptimized c.op :: if c.whenOperand then []
    else c.swap ++ (c.oriented.coercion ++ c.oriented.settlement)

theorem toUnknown_records : Records toUnknown [.nullPropagated] :=
  .afterNote [.event .nullPropagated, .line .reducedToUnknown] (.pure _)

theorem coerce_records (k : Constant) (columnType : SqlType) : Records (coerce k columnType)
    (if k.type = columnType ∨ k.type = columnType.common k.type then [] else [.constantCoerced]) := by
  unfold coerce
  simp only
  split
  · exact .pure k
  · refine (Records.ofExcept _).bind (.ofExcept _) fun k' _ => ?_
    exact .afterNote [.event .constantCoerced, _] (.pure k')

theorem fold_records (session : Session) (op : Comparator) {left right : Expr}
    (h : (left.isConstant && right.isConstant) = true) :
    Records (fold session op left right) [.constantFolded] := by
  obtain ⟨hleft, hright⟩ := Bool.and_eq_true_iff.mp h
  obtain ⟨a, rfl⟩ := Expr.isConstant_iff.mp hleft
  obtain ⟨b, rfl⟩ := Expr.isConstant_iff.mp hright
  have heval := evaluate_yields (eval_constants_yields session op a b)
  refine (Records.evaluate _).bind heval fun result _ => ?_
  exact .afterNote [.event .constantFolded, _] (.pure _)

theorem simplifyNull_records (session : Session) (op : Comparator) (left right : Expr) :
    Records (simplifyNull session op left right) (settlementNull ⟨op, left, right, false⟩) := by
  refine .afterLines (events_nullWarning session op) ?_
  unfold settlementNull besideNull
  simp only
  generalize (if left.isNullConstant = true then right else left) = operand
  split
  · exact toUnknown_records
  · split
    · exact .pure _
    · exact .afterNote [.event .nullTestIntroduced, _] (.pure _)

theorem settle_records (session : Session) (op : Comparator) (left right : Expr) :
    Records (settle session op left right) (settlement ⟨op, left, right, false⟩) := by
  unfold settle settlement
  simp only
  split
  · rename_i hconstants
    exact fold_records session op hconstants
  · split
    · exact simplifyNull_records session op left right
    · exact .pure _

/-- Adapting keeps NULL apart from the other constants. -/
theorem isNull_adaptedConstant {k k' : Constant} {columnType : SqlType}
    (h : adaptedConstant k columnType = .ok k') : k'.isNull = k.isNull := by
  cases hnull : k.isNull with
  | true =>
    obtain ⟨l, hl, hlnull⟩ := adaptedConstant_of_isNull hnull columnType
    cases h.symm.trans hl
    exact hlnull
  | false =>
    rcases adaptedConstant_cases h with ⟨-, rfl⟩ | ⟨-, -, hvalue⟩
    · exact hnull
    · exact Value.isNull_convert hnull hvalue

/-- The end is in sight before the comparison is adapted. -/
theorem settlement_adapted {c d : Comparison} (h : c.adapted = .ok d) :
    d.settlement = c.settlement := by
  obtain ⟨op, left, right, whenOperand⟩ := c
  obtain ⟨column, k, k', rfl, rfl, hk, rfl⟩ | ⟨column, p, rfl, rfl, rfl⟩ | ⟨-, rfl⟩ :=
    adapted_cases h
  · have hnull : (Expr.constant k').isNullConstant = (Expr.constant k).isNullConstant :=
      isNull_adaptedConstant hk
    unfold settlement
    simp only [hnull]
    rfl
  · rfl
  · rfl

theorem coercion_eq_nil {c : Comparison}
    (h : ∀ column k, c.left = .column column → c.right = .constant k → False) : c.coercion = [] := by
  unfold coercion
  split
  · rename_i column k hl hr
    exact (h column k hl hr).elim
  · rfl

theorem adapt_records (session : Session) (op : Comparator) (left right : Expr) :
    Records (adapt session op left right)
      (coercion ⟨op, left, right, false⟩ ++ settlement ⟨op, left, right, false⟩) := by
  unfold adapt
  split
  · rename_i column k
    simp only [coercion]
    split
    · rename_i hnull
      obtain ⟨hk, hop⟩ := Bool.and_eq_true_iff.mp hnull
      have hright : Expr.isNullConstant (.constant k) = true := hk
      have hend : settlement ⟨op, .column column, .constant k, false⟩ = [.nullPropagated] := by
        simp [settlement, settlementNull, hright, hop, Expr.isConstant, Expr.constant?]
      rw [hend]
      exact .afterLines (events_nullWarning session op) toUnknown_records
    · refine (coerce_records k column.type).bind (coerce_yields k column.type) fun k' hk' => ?_
      have hadapted : adapted ⟨op, .column column, .constant k, false⟩ =
          .ok ⟨op, .column column, .constant k', false⟩ := by
        simp only [adapted, hk']
        rfl
      rw [← settlement_adapted hadapted]
      exact settle_records session op _ _
  · exact settle_records session op _ _
  · rename_i hconstant _
    rw [coercion_eq_nil hconstant]
    exact settle_records session op left right

theorem orient_records (session : Session) (op : Comparator) (left right : Expr) :
    Records (orient session op left right)
      (swap ⟨op, left, right, false⟩ ++ (coercion (oriented ⟨op, left, right, false⟩) ++
        settlement (oriented ⟨op, left, right, false⟩))) := by
  unfold orient swap oriented
  simp only
  split
  · exact .afterNote [.event .operandsSwapped, _] (adapt_records session _ _ _)
  · exact adapt_records session _ _ _

/-- A comparison of simplified operands records its events. -/
theorem simplify_records (session : Session) (c : Comparison) :
    Records (simplify session c) c.events := by
  refine .afterNote [.event (.comparisonOptimized c.op)] ?_
  split
  · exact .fail _ _
  · obtain ⟨op, left, right, whenOperand⟩ := c
    cases whenOperand with
    | true => exact .pure _
    | false => exact orient_records session op left right

end Comparison

/-! ## Null tests and lists -/

/-- The events of a null test of a simplified operand. -/
def NullTest.events (t : NullTest) : List Event :=
  if t.operand.isConstant then [.constantFolded] else []

/-- The events of a list of simplified candidates. -/
def InList.events (l : InList) : List Event :=
  if l.operand.isNullConstant then [.nullPropagated]
  else if l.operand.isConstant && l.values.all Expr.isConstant then [.constantFolded]
  else []

theorem NullTest.simplify_records (t : NullTest) : Records t.simplify t.events := by
  obtain ⟨operand, negated⟩ := t
  cases operand with
  | constant k => exact .afterNote [.event .constantFolded, _] (.pure _)
  | _ => exact .pure _

theorem InList.simplify_records (session : Session) (l : InList) :
    Records (l.simplify session) l.events := by
  unfold simplify events
  split
  · exact .afterNote [.event .nullPropagated] (.pure _)
  · split
    · rename_i hconstants
      have heval := evaluate_yields (eval_constants_yields session hconstants)
      refine (Records.evaluate _).bind heval fun result _ => ?_
      exact .afterNote [.event .constantFolded, _] (.pure _)
    · exact .pure _

end QueryPredicates
