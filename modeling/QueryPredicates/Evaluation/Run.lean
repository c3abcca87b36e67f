/-! Runs: computations that may fail, that draw on sequence counters, and that keep a
record of what they did. The counters and the record survive a failure: what was drawn
or recorded before it stays. -/

namespace QueryPredicates

/-- The next value of every sequence counter. -/
abbrev Counters := Nat → Int64

/-- How a run ended, the counters it left, and its record in order. -/
structure Ran (ε ω α : Type) where
  outcome : Except ε α
  counters : Counters
  record : List ω

def Run (ε ω α : Type) : Type := Counters → Ran ε ω α

namespace Run

variable {ε ω α β : Type}

protected def pure (a : α) : Run ε ω α := fun counters => ⟨.ok a, counters, []⟩

protected def bind (m : Run ε ω α) (f : α → Run ε ω β) : Run ε ω β := fun counters =>
  let first := m counters
  match first.outcome with
  | .error e => ⟨.error e, first.counters, first.record⟩
  | .ok a =>
    let second := f a first.counters
    ⟨second.outcome, second.counters, first.record ++ second.record⟩

instance : Monad (Run ε ω) where
  pure := Run.pure
  bind := Run.bind

def fail (e : ε) : Run ε ω α := fun counters => ⟨.error e, counters, []⟩

def ofExcept : Except ε α → Run ε ω α
  | .ok a => Run.pure a
  | .error e => fail e

/-- Adds to the record. -/
def note (entries : List ω) : Run ε ω Unit := fun counters => ⟨.ok (), counters, entries⟩

/-- Draws the next value of a counter, which moves on by `increment` and wraps around. -/
def draw (counter : Nat) (increment : Int64) : Run ε ω Int64 := fun counters =>
  ⟨.ok (counters counter),
    fun k => if k = counter then counters counter + increment else counters k, []⟩

theorem bind_apply (m : Run ε ω α) (f : α → Run ε ω β) (counters : Counters) :
    (m >>= f) counters = Run.bind m f counters := rfl

theorem pure_apply (a : α) (counters : Counters) :
    (pure a : Run ε ω α) counters = ⟨.ok a, counters, []⟩ := rfl

theorem bind_of_ok {m : Run ε ω α} {counters : Counters} {a : α}
    (h : (m counters).outcome = .ok a) (f : α → Run ε ω β) :
    (m >>= f) counters =
      let second := f a (m counters).counters
      ⟨second.outcome, second.counters, (m counters).record ++ second.record⟩ := by
  simp [bind_apply, Run.bind, h]

theorem bind_of_error {m : Run ε ω α} {counters : Counters} {e : ε}
    (h : (m counters).outcome = .error e) (f : α → Run ε ω β) :
    (m >>= f) counters = ⟨.error e, (m counters).counters, (m counters).record⟩ := by
  simp [bind_apply, Run.bind, h]

instance : LawfulMonad (Run ε ω) := LawfulMonad.mk' _
  (fun m => by
    funext counters
    show Run.bind m _ counters = m counters
    rcases h : m counters with ⟨outcome, after, record⟩
    cases outcome <;> simp [Run.bind, h, Run.pure])
  (fun a f => by
    funext counters
    show Run.bind (Run.pure a) f counters = f a counters
    simp [Run.bind, Run.pure])
  (fun m f g => by
    funext counters
    show Run.bind (Run.bind m f) g counters = Run.bind m (fun a => Run.bind (f a) g) counters
    rcases h : m counters with ⟨outcome, after, record⟩
    cases outcome with
    | error e => simp [Run.bind, h]
    | ok a =>
      rcases h' : f a after with ⟨outcome', after', record'⟩
      cases outcome' <;> simp [Run.bind, h, h'])

end Run
end QueryPredicates
