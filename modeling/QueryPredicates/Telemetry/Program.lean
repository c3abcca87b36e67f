import QueryPredicates.Telemetry.Recorder

/-! Programs that use a recorder: they make library calls, open scopes one inside the other, take
reports, reset the counts, panic and catch panics. -/

namespace QueryPredicates

inductive Program where
  | skip
  | call (notes : List Note)
  | report
  | reset
  | panic
  | andThen (first second : Program)
  | scope (sink : SinkId) (body : Program)
  | catching (body : Program)

/-- How a program ends, and what it has put out until then. -/
structure Ending (ω : Type) where
  panicked : Bool
  output : List ω

/-- Runs the program. Its output are its reports. -/
def Program.run : Program → Recorder → Ending Tally × Recorder
  | skip, r => (⟨false, []⟩, r)
  | call notes, r => (⟨false, []⟩, r.recordAll notes)
  | report, r => (⟨false, [r.tally]⟩, r)
  | reset, r => (⟨false, []⟩, r.reset)
  | panic, r => (⟨true, []⟩, r)
  | andThen first second, r =>
    let (ended, r) := first.run r
    if ended.panicked then (ended, r)
    else
      let (later, r) := second.run r
      (⟨later.panicked, ended.output ++ later.output⟩, r)
  | scope sink body, r => r.within sink body.run
  | catching body, r =>
    let (ended, r) := body.run r
    (⟨false, ended.output⟩, r)

end QueryPredicates
