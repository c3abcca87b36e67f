import QueryPredicates.Telemetry.Tally

/-! Routing of events. While a scope is active its sink receives every event recorded,
and an inner scope takes the place of an outer one; outside all scopes events are
counted. Leaving a scope makes active what was active before it, however the scope is
left. -/

namespace QueryPredicates

abbrev SinkId := Nat

structure Recorder where
  tally : Tally := {}
  /-- The sink of the innermost active scope. -/
  active : Option SinkId := none
  /-- What the sinks have received, in order. -/
  received : List (SinkId × Event) := []

namespace Recorder

def record (r : Recorder) (e : Event) : Recorder :=
  match r.active with
  | some sink => { r with received := r.received ++ [(sink, e)] }
  | none => { r with tally := r.tally.count e }

def recordAll (r : Recorder) (notes : List Note) : Recorder :=
  (notes.filterMap Note.event?).foldl record r

/-- Runs `body` in a scope of its own. -/
def within {α : Type} (r : Recorder) (sink : SinkId) (body : Recorder → α × Recorder) : α × Recorder :=
  let (a, after) := body { r with active := some sink }
  (a, { after with active := r.active })

def eventsOf (r : Recorder) (sink : SinkId) : List Event :=
  (r.received.filter (·.1 == sink)).map (·.2)

/-- Forgets all counts. -/
def reset (r : Recorder) : Recorder := { r with tally := {} }

end Recorder
end QueryPredicates
