import QueryPredicates.Proofs.Evaluation.Calls

/-! The order of evaluation. An evaluation reads the leaves of its expression from left to right, each
at most once, and skips those that cannot matter. It fails if and only if it comes to a column or a
parameter without a value, which is then the last thing it does. Over any evaluations, one after the
other, the calls that share a counter return its values in turn, each once. -/

namespace QueryPredicates

/-! ## What a record says -/

namespace Act

/-- The leaf that an act reads; a question to the hooks reads none. -/
def leaf? : Act → Option Leaf
  | readColumn c => some (.column c)
  | readParameter index => some (.parameter index)
  | advance call => some (.sequence call.sequence)
  | compare .. | same .. => none

/-- The leaves that a record has read, in order. -/
def leaves (record : List Act) : List Leaf := record.filterMap leaf?

/-- The value that an act drew from a counter. -/
def drawn? (counter : Nat) : Act → Option Int64
  | advance call => if call.sequence.counter = counter then some call.value else none
  | _ => none

/-- The values drawn from a counter, in order. -/
def drawn (counter : Nat) (record : List Act) : List Int64 := record.filterMap (drawn? counter)

theorem leaves_hookCalls (op : Comparator) (l r : Value) : leaves (Context.hookCalls op l r) = [] := by
  unfold Context.hookCalls
  split <;> rfl

theorem drawn_hookCalls (counter : Nat) (op : Comparator) (l r : Value) :
    drawn counter (Context.hookCalls op l r) = [] := by
  unfold Context.hookCalls
  split <;> rfl

end Act

namespace Context

/-- The act reads what has no value, and that is the error. -/
inductive Lacks (ctx : Context) : Act → EvalError → Prop
  | column {c : Column} (h : ctx.column c = none) : Lacks ctx (.readColumn c) (.columnWithoutValue c)
  | parameter {index : Nat} (h : ctx.parameter index = none) :
      Lacks ctx (.readParameter index) (.parameterNotSet index)

/-- Everything read on the record has a value. -/
def Supplies (ctx : Context) (record : List Act) : Prop :=
  ∀ act ∈ record, ∀ failure, ¬ctx.Lacks act failure

/-- A run that returned has read nothing without a value; one that failed did so at its last act, the
first to read what has none. -/
def Explains {α : Type} (ctx : Context) (ran : Ran EvalError Act α) : Prop :=
  match ran.outcome with
  | .ok _ => ctx.Supplies ran.record
  | .error failure => ∃ before last, ran.record = before ++ [last] ∧ ctx.Supplies before ∧
      ctx.Lacks last failure

variable {ctx : Context}

theorem Supplies.append {record later : List Act} (h : ctx.Supplies record)
    (h' : ctx.Supplies later) : ctx.Supplies (record ++ later) :=
  List.forall_mem_append.mpr ⟨h, h'⟩

theorem supplies_hookCalls (op : Comparator) (l r : Value) : ctx.Supplies (hookCalls op l r) := by
  intro act hact failure hlacks
  have hleaf : act.leaf? = none :=
    List.filterMap_eq_nil_iff.mp (Act.leaves_hookCalls op l r) act hact
  cases hlacks <;> cases hleaf

end Context

/-! ## Leaves -/

namespace Expr

variable (ctx : Context) (counters : Counters)

theorem eval_column (c : Column) : (column c).eval ctx counters =
    ⟨(ctx.column c).elim (.error (.columnWithoutValue c)) .ok, counters, [.readColumn c]⟩ := by
  rw [eval, Context.readColumn]
  cases ctx.column c <;> rfl

theorem eval_parameter (p : Parameter) : (parameter p).eval ctx counters =
    ⟨(ctx.parameter p.index).elim (.error (.parameterNotSet p.index)) .ok, counters,
      [.readParameter p.index]⟩ := by
  rw [eval, Context.readParameter]
  cases ctx.parameter p.index <;> rfl

/-- A sequence call returns the value of the counter, and moves it on. -/
theorem eval_nextValue (s : Sequence) : (nextValue s).eval ctx counters =
    ⟨.ok (.bigInt (counters s.counter)), s.advance counters,
      [.advance ⟨s, counters s.counter⟩]⟩ := rfl

end Expr

namespace Evaluation

variable {α : Type}

/-! ## Reads in order -/

/-- What the run reads is among the leaves, in their order and each once. -/
def Reads (leaves : List Leaf) (m : Evaluation α) : Prop :=
  ∀ counters, (Act.leaves (m counters).record).Sublist leaves

theorem reads_composes : ComposesAlong fun leaves _ => Reads leaves where
  pure leaves _ _ := List.nil_sublist leaves
  bind {α β leaves later m f} hm hf counters := by
    cases ho : (m counters).outcome with
    | error failure =>
      rw [Run.bind_of_error ho f]
      exact (hm counters).trans (List.sublist_append_left leaves later)
    | ok a =>
      rw [Run.bind_of_ok ho f]
      simp only [Act.leaves, List.filterMap_append]
      exact (hm counters).append (hf a _)
  question op l r _ := (Act.leaves_hookCalls op l r).symm ▸ List.Sublist.refl []

theorem eval_reads (ctx : Context) (e : Expr) : Reads e.leaves (e.eval ctx) := by
  refine reads_composes.eval e fun n _ hleaf counters => ?_
  cases n with
  | constant k => exact List.nil_sublist _
  | column c =>
    rw [Expr.eval_column]
    exact List.Sublist.refl _
  | parameter p =>
    rw [Expr.eval_parameter]
    exact List.Sublist.refl _
  | nextValue s => exact List.Sublist.refl _
  | _ => simp [Expr.children] at hleaf

/-! ## Failures -/

theorem explains_composes (ctx : Context) :
    Composes fun _ m => ∀ counters, ctx.Explains (m counters) where
  pure _ _ _ := nofun
  bind {α β m f} hm hf counters := by
    have hfirst := hm counters
    unfold Context.Explains at hfirst
    cases ho : (m counters).outcome with
    | error failure =>
      rw [ho] at hfirst
      rw [Run.bind_of_error ho f]
      exact hfirst
    | ok a =>
      rw [ho] at hfirst
      rw [Run.bind_of_ok ho f]
      have hsecond := hf a (m counters).counters
      unfold Context.Explains at hsecond ⊢
      cases ho' : (f a (m counters).counters).outcome with
      | ok b =>
        rw [ho'] at hsecond
        exact hfirst.append hsecond
      | error failure =>
        rw [ho'] at hsecond
        obtain ⟨before, last, hrecord, hbefore, hlast⟩ := hsecond
        refine ⟨(m counters).record ++ before, last, ?_, hfirst.append hbefore, hlast⟩
        simp only [hrecord, List.append_assoc]
  question op l r _ := Context.supplies_hookCalls op l r

theorem eval_explained (ctx : Context) (e : Expr) (counters : Counters) :
    ctx.Explains (e.eval ctx counters) := by
  refine (explains_composes ctx).eval e (fun n _ hleaf => ?_) counters
  intro counters
  cases n with
  | constant k => exact nofun
  | column c =>
    rw [Expr.eval_column]
    cases hc : ctx.column c with
    | none => exact ⟨[], _, rfl, nofun, .column hc⟩
    | some v =>
      refine List.forall_mem_singleton.mpr fun failure hlacks => ?_
      cases hlacks with
      | column h => cases hc.symm.trans h
  | parameter p =>
    rw [Expr.eval_parameter]
    cases hp : ctx.parameter p.index with
    | none => exact ⟨[], _, rfl, nofun, .parameter hp⟩
    | some v =>
      refine List.forall_mem_singleton.mpr fun failure hlacks => ?_
      cases hlacks with
      | parameter h => cases hp.symm.trans h
  | nextValue s => exact List.forall_mem_singleton.mpr nofun
  | _ => simp [Expr.children] at hleaf

/-- Where every column and every parameter has a value, the evaluation returns. -/
theorem eval_returns {ctx : Context} {e : Expr}
    (hcolumns : ∀ c, .column c ∈ e.leaves → (ctx.column c).isSome = true)
    (hparameters : ∀ index, .parameter index ∈ e.leaves → (ctx.parameter index).isSome = true)
    (counters : Counters) : ∃ v, (e.eval ctx counters).outcome = .ok v := by
  have hexplained := eval_explained ctx e counters
  unfold Context.Explains at hexplained
  cases ho : (e.eval ctx counters).outcome with
  | ok v => exact ⟨v, rfl⟩
  | error failure =>
    rw [ho] at hexplained
    obtain ⟨before, last, hrecord, -, hlast⟩ := hexplained
    -- what was read last is a leaf of the expression
    have hmem : last ∈ (e.eval ctx counters).record := by simp [hrecord]
    have hleaf {leaf : Leaf} (h : last.leaf? = some leaf) : leaf ∈ e.leaves :=
      (eval_reads ctx e counters).subset (List.mem_filterMap.mpr ⟨last, hmem, h⟩)
    cases hlast with
    | column h =>
      have hsome := hcolumns _ (hleaf rfl)
      simp [h] at hsome
    | parameter h =>
      have hsome := hparameters _ (hleaf rfl)
      simp [h] at hsome

/-! ## Sequences -/

/-- The value of a counter once it has moved on a number of times, in two's complement. -/
def stepped (start increment : Int64) (k : Nat) : Int64 :=
  .ofInt (start.toInt + k * increment.toInt)

theorem stepped_zero (start increment : Int64) : stepped start increment 0 = start := by
  simp [stepped]

theorem stepped_one (start increment : Int64) :
    stepped start increment 1 = start + increment := by
  simp [stepped, Int64.ofInt_add]

theorem stepped_add (start increment : Int64) (m n : Nat) :
    stepped start increment (m + n) = stepped (stepped start increment m) increment n := by
  have hsum : start.toInt + (m + n : Nat) * increment.toInt =
      start.toInt + m * increment.toInt + n * increment.toInt := by
    rw [Int.natCast_add, Int.add_mul, Int.add_assoc]
  calc stepped start increment (m + n)
    _ = .ofInt (start.toInt + m * increment.toInt + n * increment.toInt) := congrArg _ hsum
    _ = stepped start increment m + .ofInt (n * increment.toInt) := Int64.ofInt_add _ _
    _ = .ofInt (stepped start increment m).toInt + .ofInt (n * increment.toInt) := by
      rw [Int64.ofInt_toInt]
    _ = stepped (stepped start increment m) increment n := (Int64.ofInt_add _ _).symm

/-- What was drawn from a counter are its values in turn, and the next one is there. -/
def StepsFrom (counter : Nat) (start increment : Int64) (ran : Ran EvalError Act α) : Prop :=
  let drawn := Act.drawn counter ran.record
  drawn = (List.range drawn.length).map (stepped start increment) ∧
    ran.counters counter = stepped start increment drawn.length

theorem stepsFrom_of_none {counter : Nat} {start : Int64} (increment : Int64)
    {ran : Ran EvalError Act α} (hdrawn : Act.drawn counter ran.record = [])
    (hcounter : ran.counters counter = start) : StepsFrom counter start increment ran := by
  unfold StepsFrom
  rw [hdrawn, hcounter]
  exact ⟨rfl, (stepped_zero start increment).symm⟩

/-- Whatever the counters, the run draws from one of them its values in turn. -/
def Steps (counter : Nat) (increment : Int64) (m : Evaluation α) : Prop :=
  ∀ counters, StepsFrom counter (counters counter) increment (m counters)

theorem steps_composes (counter : Nat) (increment : Int64) :
    Composes fun _ => Steps counter increment where
  pure _ _ := stepsFrom_of_none increment rfl rfl
  bind {α β m f} hm hf counters := by
    obtain ⟨hdrawn, hcounter⟩ := hm counters
    cases ho : (m counters).outcome with
    | error failure =>
      rw [Run.bind_of_error ho f]
      exact ⟨hdrawn, hcounter⟩
    | ok a =>
      obtain ⟨hdrawn', hcounter'⟩ := hf a (m counters).counters
      rw [Run.bind_of_ok ho f]
      unfold StepsFrom
      simp only [Act.drawn, List.filterMap_append, List.length_append] at *
      rw [hcounter] at hdrawn' hcounter'
      refine ⟨?_, hcounter'.trans (stepped_add ..).symm⟩
      -- the second run starts where the first has left the counter
      rw [List.range_add, List.map_append, ← hdrawn, List.map_map]
      refine congrArg _ (hdrawn'.trans (List.map_congr_left fun k _ => ?_))
      exact (stepped_add ..).symm
  question op l r _ := stepsFrom_of_none increment (Act.drawn_hookCalls counter op l r) rfl

theorem eval_steps (ctx : Context) {e : Expr} {counter : Nat} {increment : Int64}
    (h : ∀ s, .sequence s ∈ e.leaves → s.counter = counter → s.increment = increment) :
    Steps counter increment (e.eval ctx) := by
  refine (steps_composes counter increment).eval e fun n hn hleaf counters => ?_
  cases n with
  | constant k => exact stepsFrom_of_none increment rfl rfl
  | column c =>
    rw [Expr.eval_column]
    exact stepsFrom_of_none increment rfl rfl
  | parameter p =>
    rw [Expr.eval_parameter]
    exact stepsFrom_of_none increment rfl rfl
  | nextValue s =>
    rw [Expr.eval_nextValue]
    by_cases hs : s.counter = counter
    · have hincrement := h s (List.mem_filterMap.mpr ⟨_, hn, rfl⟩) hs
      subst hs
      simp [StepsFrom, Act.drawn, Act.drawn?, List.range_succ, stepped_zero, stepped_one,
        Sequence.advance, hincrement]
    · have hdrawn : Act.drawn counter [.advance ⟨s, counters s.counter⟩] = [] := by
        simp [Act.drawn, Act.drawn?, hs]
      exact stepsFrom_of_none increment hdrawn (if_neg (Ne.symm hs))
  | _ => simp [Expr.children] at hleaf

end Evaluation

/-- The run, whose failure becomes its result. -/
def Run.attempt {ε ω α : Type} (m : Run ε ω α) : Run ε ω (Except ε α) := fun counters =>
  ⟨.ok (m counters).outcome, (m counters).counters, (m counters).record⟩

/-- Evaluations, each in its context, one after the other, those that fail included. -/
def Expr.evalSeries (series : List (Context × Expr)) :
    Evaluation (List (Except EvalError Value)) :=
  series.mapM fun (ctx, e) => (e.eval ctx).attempt

namespace Expr
open Evaluation

theorem evalSeries_steps {counter : Nat} {increment : Int64} : ∀ {series : List (Context × Expr)},
    (∀ p ∈ series, ∀ s, .sequence s ∈ p.2.leaves → s.counter = counter →
      s.increment = increment) → Steps counter increment (evalSeries series)
  | [], _ => (steps_composes counter increment).pure []
  | (ctx, e) :: series, h => by
    obtain ⟨hhead, htail⟩ := List.forall_mem_cons.mp h
    have hsteps : Steps counter increment (e.eval ctx).attempt := eval_steps ctx hhead
    rw [evalSeries, List.mapM_cons]
    refine (steps_composes counter increment).bind hsteps fun outcome => ?_
    refine (steps_composes counter increment).bind (evalSeries_steps htail) fun outcomes => ?_
    exact (steps_composes counter increment).pure _

/-- Order and effects of evaluation. Whatever the context, an evaluation reads leaves from left to
right, each at most once; it fails just at the first that has no value, with the error of that leaf,
and so returns if all columns and parameters have values. A sequence call comes to the value that is
recorded of it, the one that its counter shows, and moves the counter on. Over any series of evaluations
the calls that share a counter and an increment return one value after the other, in two's complement,
and leave the next one. -/
theorem eval_order_and_effects :
    (∀ (ctx : Context) (e : Expr) (counters : Counters),
      let ran := e.eval ctx counters
      (Act.leaves ran.record).Sublist e.leaves ∧
      (∀ failure, ran.outcome = .error failure → ∃ before last,
        ran.record = before ++ [last] ∧ ctx.Supplies before ∧ ctx.Lacks last failure) ∧
      (∀ v, ran.outcome = .ok v → ctx.Supplies ran.record) ∧
      ((∀ c, .column c ∈ e.leaves → (ctx.column c).isSome = true) →
        (∀ index, .parameter index ∈ e.leaves → (ctx.parameter index).isSome = true) →
        ∃ v, ran.outcome = .ok v)) ∧
    (∀ (ctx : Context) (s : Sequence) (counters : Counters),
      let call : Call := ⟨s, counters s.counter⟩
      (nextValue s).eval ctx counters =
        ⟨.ok (.bigInt call.value), s.advance counters, [.advance call]⟩) ∧
    ∀ (series : List (Context × Expr)) (counter : Nat) (increment : Int64) (counters : Counters),
      (∀ p ∈ series, ∀ s, .sequence s ∈ p.2.leaves → s.counter = counter →
        s.increment = increment) →
      let ran := evalSeries series counters
      let drawn := Act.drawn counter ran.record
      let nth (k : Nat) := Int64.ofInt ((counters counter).toInt + k * increment.toInt)
      drawn = (List.range drawn.length).map nth ∧ ran.counters counter = nth drawn.length := by
  refine ⟨fun ctx e counters => ?_, fun ctx s counters => eval_nextValue ctx counters s,
    fun series counter increment counters h => evalSeries_steps h counters⟩
  have hexplained := eval_explained ctx e counters
  unfold Context.Explains at hexplained
  refine ⟨eval_reads ctx e counters, fun failure ho => ?_, fun v ho => ?_,
    fun hcolumns hparameters => eval_returns hcolumns hparameters counters⟩
  · rwa [ho] at hexplained
  · rwa [ho] at hexplained

/-- `NEXT VALUE FOR S = ?1` fails at its parameter, after its call; a call of S that follows returns
the next value, beyond the greatest one. -/
theorem eval_order_and_effects_wrapped :
    let s : Sequence := ⟨0, "S", 2⟩
    let e : Expr := .comparison .equal (.nextValue s) (.parameter ⟨1, none⟩) false
    let ctx : Context := Session.context {}
    let counters : Counters := fun _ => 9223372036854775807
    let ran := evalSeries [(ctx, e), (ctx, .nextValue s)] counters
    (∃ before last, (e.eval ctx counters).record = before ++ [last] ∧ ctx.Supplies before ∧
      ctx.Lacks last (.parameterNotSet 1)) ∧
    Act.drawn 0 ran.record = [9223372036854775807, -9223372036854775807] ∧
    ran.counters 0 = -9223372036854775805 := by
  intro s e ctx counters ran
  have hshared : ∀ p ∈ [(ctx, e), (ctx, .nextValue s)], ∀ s', .sequence s' ∈ p.2.leaves →
      s'.counter = 0 → s'.increment = 2 := by
    simp [e, s, leaves, nodes, leaf?]
  have hfails : (e.eval ctx counters).outcome = .error (.parameterNotSet 1) := rfl
  obtain ⟨hdrawn, hcounter⟩ := eval_order_and_effects.2.2 _ 0 2 counters hshared
  have hlength : (Act.drawn 0 ran.record).length = 2 := rfl
  refine ⟨(eval_order_and_effects.1 ctx e counters).2.1 _ hfails, ?_, ?_⟩
  · rw [hlength] at hdrawn
    exact hdrawn.trans (by decide)
  · rw [hlength] at hcounter
    exact hcounter.trans (by decide)

end Expr
end QueryPredicates
