import QueryPredicates.Double.Rounding
import QueryPredicates.Telemetry.Note

/-! Counting events. Counts are sixty-four bit numbers that stay at the greatest one.
A report lists the comparators that were counted, the most frequent first and those of
one count by name, each with its share of all optimized comparisons. -/

namespace QueryPredicates

def countLimit : Nat := UInt64.size - 1

/-- One more, cut off at the limit. -/
def bump (count : Nat) : Nat := min (count + 1) countLimit

structure Tally where
  comparisonsOptimized : Nat := 0
  operandSwaps : Nat := 0
  constantCoercions : Nat := 0
  constantFolds : Nat := 0
  nullPropagations : Nat := 0
  nullTestIntroductions : Nat := 0
  conditionsDerived : Nat := 0
  conditionsRejected : Nat := 0
  equalityFusions : Nat := 0
  membershipFusions : Nat := 0
  /-- Optimized comparisons by comparator. -/
  optimized : Comparator → Nat := fun _ => 0

namespace Tally

def count (t : Tally) : Event → Tally
  | .comparisonOptimized op =>
    { t with
      comparisonsOptimized := bump t.comparisonsOptimized
      optimized := fun c => if c = op then bump (t.optimized op) else t.optimized c }
  | .operandsSwapped => { t with operandSwaps := bump t.operandSwaps }
  | .constantCoerced => { t with constantCoercions := bump t.constantCoercions }
  | .constantFolded => { t with constantFolds := bump t.constantFolds }
  | .nullPropagated => { t with nullPropagations := bump t.nullPropagations }
  | .nullTestIntroduced => { t with nullTestIntroductions := bump t.nullTestIntroductions }
  | .conditionDerived => { t with conditionsDerived := bump t.conditionsDerived }
  | .conditionRejected => { t with conditionsRejected := bump t.conditionsRejected }
  | .equalitiesFused => { t with equalityFusions := bump t.equalityFusions }
  | .membershipFused => { t with membershipFusions := bump t.membershipFusions }

/-- The named counts, in the order of the report. -/
def counts (t : Tally) : List (String × Nat) :=
  [("comparisons_optimized", t.comparisonsOptimized), ("operand_swaps", t.operandSwaps),
    ("constant_coercions", t.constantCoercions), ("constant_folds", t.constantFolds),
    ("null_propagations", t.nullPropagations), ("null_test_rewrites", t.nullTestIntroductions),
    ("index_conditions_derived", t.conditionsDerived),
    ("index_conditions_rejected", t.conditionsRejected),
    ("transitive_equal_fusions", t.equalityFusions), ("membership_fusions", t.membershipFusions)]

end Tally

/-- What a report says about one comparator. -/
structure OperatorSummary where
  op : Comparator
  optimized : Nat
  share : Double
  deriving DecidableEq, Repr, Inhabited

namespace OperatorSummary

/-- The order of a report. -/
def precedes (a b : OperatorSummary) : Bool :=
  b.optimized < a.optimized || (a.optimized == b.optimized && a.op.name ≤ b.op.name)

end OperatorSummary

def Tally.summarize (t : Tally) (op : Comparator) : Option OperatorSummary :=
  if t.optimized op = 0 then none
  else some ⟨op, t.optimized op, Double.quotient (t.optimized op) t.comparisonsOptimized⟩

def Tally.report (t : Tally) : List OperatorSummary :=
  (Comparator.all.filterMap t.summarize).mergeSort OperatorSummary.precedes

end QueryPredicates
