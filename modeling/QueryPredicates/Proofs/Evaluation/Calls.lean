import QueryPredicates.Proofs.Evaluation.Composition
import QueryPredicates.Proofs.Evaluation.Meaning

/-! Sequence calls. The record of an evaluation tells which sequences it has called and in which
order, and the counters that it leaves are those that it found, moved on by these calls and by
nothing else. What has no sequence inside calls none. Two evaluations agree if they end alike on
all counters with the same calls in the same order; one may be put in the place of the other in
any comparison, null test or list. -/

namespace QueryPredicates

/-! ## Calls of a record -/

/-- The sequence that an act calls. -/
def Act.called? : Act → Option Sequence
  | advance call => some call.sequence
  | _ => none

/-- The sequence calls of a record, in their order. -/
def Act.calls (record : List Act) : List Sequence := record.filterMap Act.called?

/-- How often a record advances a counter. -/
def Act.advances (counter : Nat) (record : List Act) : Nat :=
  (Act.calls record).countP (·.counter == counter)

/-- The counters once a sequence has moved its own on. -/
def Sequence.advance (counters : Counters) (s : Sequence) : Counters := fun k =>
  if k = s.counter then counters s.counter + s.increment else counters k

namespace Act

theorem calls_append (record later : List Act) :
    calls (record ++ later) = calls record ++ calls later :=
  List.filterMap_append

theorem calls_hookCalls (op : Comparator) (l r : Value) : calls (Context.hookCalls op l r) = [] := by
  unfold Context.hookCalls
  split <;> rfl

end Act

namespace Evaluation

variable {α β : Type}

/-! ## Silence and accounts -/

/-- The run calls no sequence. -/
def Silent (m : Evaluation α) : Prop := ∀ counters, Act.calls (m counters).record = []

/-- The run returns, and has moved the counters on by its calls and by nothing else. -/
def Accounts (m : Evaluation α) : Prop := ∀ counters, ∃ a, (m counters).outcome = .ok a ∧
  (m counters).counters = (Act.calls (m counters).record).foldl Sequence.advance counters

theorem silent_composes : Composes fun _ => Silent where
  pure _ _ := rfl
  bind {α β m f} hm hf counters := by
    cases ho : (m counters).outcome with
    | error e =>
      rw [Run.bind_of_error ho f]
      exact hm counters
    | ok a =>
      rw [Run.bind_of_ok ho f]
      simp only [Act.calls_append, hm counters, hf a _, List.append_nil]
  question op l r _ := Act.calls_hookCalls op l r

theorem accounts_composes : Composes fun _ => Accounts where
  pure a _ := ⟨a, rfl, rfl⟩
  bind {α β m f} hm hf counters := by
    obtain ⟨a, ho, hc⟩ := hm counters
    obtain ⟨b, ho', hc'⟩ := hf a (m counters).counters
    rw [Run.bind_of_ok ho f]
    refine ⟨b, ho', ?_⟩
    simp only [Act.calls_append, List.foldl_append, ← hc, hc']
  question op l r counters := by
    refine ⟨(), rfl, ?_⟩
    show counters = _
    rw [show (Run.note (Context.hookCalls op l r) counters).record =
      Context.hookCalls op l r from rfl, Act.calls_hookCalls]
    rfl

theorem silent_ofExcept (o : Except EvalError α) : Silent (Run.ofExcept o : Evaluation α) := by
  cases o <;> exact fun _ => rfl

theorem silent_note {entries : List Act} (h : Act.calls entries = []) :
    Silent (Run.note entries : Evaluation Unit) := fun _ => h

/-- Without a sequence inside there is no call. -/
theorem eval_silent (ctx : Context) {e : Expr} (h : ∀ n ∈ e.nodes, ∀ s, n ≠ .nextValue s) :
    Silent (e.eval ctx) := by
  refine silent_composes.eval e fun n hn hleaf => ?_
  cases n with
  | constant k => exact silent_composes.pure k.value
  | column c => exact silent_composes.bind (silent_note rfl) fun _ => silent_ofExcept _
  | parameter p => exact silent_composes.bind (silent_note rfl) fun _ => silent_ofExcept _
  | nextValue s => exact absurd rfl (h _ hn s)
  | _ => simp [Expr.children] at hleaf

/-- The evaluation of an expression returns if its columns and parameters have values, and the
counters change by the calls on record. -/
theorem eval_accounts {ctx : Context} {e : Expr}
    (h : ∀ n ∈ e.nodes, (∃ s, n = .nextValue s) ∨ ctx.Provides n) : Accounts (e.eval ctx) := by
  refine accounts_composes.eval e fun n hn hleaf => ?_
  cases n with
  | constant k => exact accounts_composes.pure k.value
  | column c =>
    obtain ⟨v, hv⟩ := Option.isSome_iff_exists.mp ((h _ hn).resolve_left (by simp))
    simp only [Expr.eval, Context.readColumn, hv]
    exact fun counters => ⟨v, rfl, rfl⟩
  | parameter p =>
    obtain ⟨v, hv⟩ := Option.isSome_iff_exists.mp ((h _ hn).resolve_left (by simp))
    simp only [Expr.eval, Context.readParameter, hv]
    exact fun counters => ⟨v, rfl, rfl⟩
  | nextValue s => exact fun counters => ⟨.bigInt (counters s.counter), rfl, rfl⟩
  | _ => simp [Expr.children] at hleaf

/-! ## Agreement -/

/-- The runs end alike: with the same outcome, the same counters and the same calls. -/
def Agrees (m m' : Evaluation α) : Prop := ∀ counters,
  (m counters).outcome = (m' counters).outcome ∧ (m counters).counters = (m' counters).counters ∧
    Act.calls (m counters).record = Act.calls (m' counters).record

namespace Agrees

theorem refl (m : Evaluation α) : Agrees m m := fun _ => ⟨rfl, rfl, rfl⟩

theorem trans {m m' m'' : Evaluation α} (h : Agrees m m') (h' : Agrees m' m'') :
    Agrees m m'' := by
  intro counters
  obtain ⟨ho, hc, hr⟩ := h counters
  obtain ⟨ho', hc', hr'⟩ := h' counters
  exact ⟨ho.trans ho', hc.trans hc', hr.trans hr'⟩

theorem silent {m m' : Evaluation α} (h : Agrees m m') (hm : Silent m) : Silent m' :=
  fun counters => (h counters).2.2.symm.trans (hm counters)

theorem bind {m m' : Evaluation α} {f f' : α → Evaluation β} (hm : Agrees m m')
    (hf : ∀ a, Agrees (f a) (f' a)) : Agrees (m >>= f) (m' >>= f') := by
  intro counters
  obtain ⟨ho, hc, hr⟩ := hm counters
  cases houtcome : (m counters).outcome with
  | error e =>
    rw [Run.bind_of_error houtcome f, Run.bind_of_error (ho.symm.trans houtcome) f']
    exact ⟨rfl, hc, hr⟩
  | ok a =>
    rw [Run.bind_of_ok houtcome f, Run.bind_of_ok (ho.symm.trans houtcome) f', ← hc]
    obtain ⟨ho', hc', hr'⟩ := hf a (m counters).counters
    refine ⟨ho', hc', ?_⟩
    simp only [Act.calls_append, hr, hr']

theorem map {m m' : Evaluation α} (h : Agrees m m') (f : α → β) : Agrees (f <$> m) (f <$> m') := by
  rw [← bind_pure_comp, ← bind_pure_comp]
  exact h.bind fun a => .refl _

/-- Two silent runs that end in the same way. -/
theorem of_yields {m m' : Evaluation α} {o : Except EvalError α} (hm : Run.Yields m o)
    (hm' : Run.Yields m' o) (hs : Silent m) (hs' : Silent m') : Agrees m m' := by
  intro counters
  obtain ⟨ho, hc⟩ := hm counters
  obtain ⟨ho', hc'⟩ := hm' counters
  exact ⟨ho.trans ho'.symm, hc.trans hc'.symm, (hs counters).trans (hs' counters).symm⟩

/-- Expressions without sequences that mean the same. -/
theorem of_meaning {ctx : Context} {e e' : Expr} (he : ∀ n ∈ e.nodes, ctx.Provides n)
    (he' : ∀ n ∈ e'.nodes, ctx.Provides n) (h : e'.meaning ctx = e.meaning ctx) :
    Agrees (e.eval ctx) (e'.eval ctx) := by
  have hsilent {f : Expr} (hf : ∀ n ∈ f.nodes, ctx.Provides n) : Silent (f.eval ctx) := by
    refine eval_silent ctx fun n hn s hs => ?_
    rw [hs] at hn
    exact hf _ hn
  have hyields := Expr.eval_yields e' he'
  rw [h] at hyields
  exact of_yields (Expr.eval_yields e he) hyields (hsilent he) (hsilent he')

theorem against {right right' : Evaluation Value} (ctx : Context) (op : Comparator) (l : Value)
    (hr : Agrees right right') : Agrees (ctx.against op l right) (ctx.against op l right') := by
  unfold Context.against
  split
  · exact .refl _
  · exact hr.bind fun r => .refl _

theorem comparison {left left' right right' : Evaluation Value} (ctx : Context) (op : Comparator)
    (hl : Agrees left left') (hr : Agrees right right') :
    Agrees (ctx.comparison op left right) (ctx.comparison op left' right') :=
  hl.bind fun l => hr.against ctx op l

theorem search {candidates candidates' : List (Evaluation Value)} (ctx : Context) (v : Value)
    (h : List.Forall₂ Agrees candidates candidates') :
    ∀ sofar, Agrees (ctx.search v sofar candidates) (ctx.search v sofar candidates') := by
  induction h with
  | nil => exact fun sofar => .refl _
  | cons hhead _ ih =>
    intro sofar
    refine hhead.bind fun w => (Agrees.refl (ctx.test .equal v w)).bind fun t => ?_
    cases t with
    | holds => exact .refl _
    | unknown => exact ih .unknown
    | fails => exact ih sofar

theorem membership {operand operand' : Evaluation Value}
    {candidates candidates' : List (Evaluation Value)} (ctx : Context)
    (ho : Agrees operand operand') (h : List.Forall₂ Agrees candidates candidates') :
    Agrees (ctx.membership operand candidates) (ctx.membership operand' candidates') := by
  refine ho.bind fun v => ?_
  split
  · exact .refl _
  · exact search ctx v h .fails

end Agrees
end Evaluation
end QueryPredicates
