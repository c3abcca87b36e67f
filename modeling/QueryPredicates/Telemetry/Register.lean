import QueryPredicates.Telemetry.Tally
import Mathlib.Init

/-! Counting by name. A register files the counts of the comparators under their names and reports
what it has on file, in the order of a report. -/

namespace QueryPredicates

/-- What a report says about one comparator, which it knows by name. -/
@[ext] structure NamedSummary where
  name : String
  optimized : Nat
  share : Double

namespace NamedSummary

/-- The order of a report. -/
def precedes (a b : NamedSummary) : Bool :=
  b.optimized < a.optimized || (a.optimized == b.optimized && a.name ≤ b.name)

end NamedSummary

/-- A tally of the optimized comparisons that files their counts under the names of the comparators,
each from its first count on. -/
structure Register where
  total : Nat := 0
  byName : Std.TreeMap String Nat := {}

namespace Register

def count (r : Register) : Event → Register
  | .comparisonOptimized op =>
    { total := bump r.total, byName := r.byName.alter op.name fun n => some (bump (n.getD 0)) }
  | _ => r

def report (r : Register) : List NamedSummary :=
  (r.byName.toList.map fun (name, n) => ⟨name, n, Double.quotient n r.total⟩).mergeSort
    NamedSummary.precedes

end Register
end QueryPredicates
