import QueryPredicates.Telemetry.Tally
import Mathlib.Data.List.Induction

/-! What a tally has counted. Every event moves its own count on by one, and a comparison that is
optimized the total of these too; no other count changes. So after any events each count is the number
of events of its kind, up to the limit. -/

namespace QueryPredicates

def Event.isOptimization : Event → Bool
  | comparisonOptimized _ => true
  | _ => false

theorem bump_min (n : Nat) : bump (min n countLimit) = min (n + 1) countLimit := by
  unfold bump
  omega

theorem min_countLimit {n : Nat} (h : n < UInt64.size) : min n countLimit = n := by
  unfold countLimit
  omega

namespace Tally

/-- The count of one event, under its comparator if it has one. -/
def countOf (t : Tally) : Event → Nat
  | .comparisonOptimized op => t.optimized op
  | .operandsSwapped => t.operandSwaps
  | .constantCoerced => t.constantCoercions
  | .constantFolded => t.constantFolds
  | .nullPropagated => t.nullPropagations
  | .nullTestIntroduced => t.nullTestIntroductions
  | .conditionDerived => t.conditionsDerived
  | .conditionRejected => t.conditionsRejected
  | .equalitiesFused => t.equalityFusions
  | .membershipFused => t.membershipFusions

theorem countOf_count (t : Tally) (e e' : Event) :
    (t.count e').countOf e = if e' = e then bump (t.countOf e) else t.countOf e := by
  cases e' with
  | comparisonOptimized op' =>
    cases e with
    | comparisonOptimized op =>
      by_cases h : op = op'
      · simp [count, countOf, h]
      · simp [count, countOf, h, Ne.symm h]
    | _ => rfl
  | _ => cases e <;> rfl

theorem comparisonsOptimized_count (t : Tally) (e : Event) :
    (t.count e).comparisonsOptimized =
      if e.isOptimization then bump t.comparisonsOptimized else t.comparisonsOptimized := by
  cases e <;> rfl

/-- The tally has counted the events: each as often as it occurs, and in total all comparisons that
were optimized, as far as these are sixty-four bit numbers. -/
structure Counts (t : Tally) (events : List Event) : Prop where
  each : ∀ e, events.count e < UInt64.size → t.countOf e = events.count e
  total : events.countP Event.isOptimization < UInt64.size →
    t.comparisonsOptimized = events.countP Event.isOptimization

theorem countOf_foldl (events : List Event) (e : Event) :
    (events.foldl count {}).countOf e = min (events.count e) countLimit := by
  induction events using List.reverseRecOn with
  | nil => cases e <;> rfl
  | append_singleton events last ih =>
    rw [List.foldl_append, List.foldl_cons, List.foldl_nil, countOf_count, ih, List.count_append,
      List.count_singleton]
    by_cases h : last = e
    · simp [h, bump_min]
    · simp [h]

theorem comparisonsOptimized_foldl (events : List Event) :
    (events.foldl count {}).comparisonsOptimized =
      min (events.countP Event.isOptimization) countLimit := by
  induction events using List.reverseRecOn with
  | nil => rfl
  | append_singleton events last ih =>
    rw [List.foldl_append, List.foldl_cons, List.foldl_nil, comparisonsOptimized_count, ih,
      List.countP_append, List.countP_singleton]
    cases last.isOptimization
    · rfl
    · exact bump_min _

theorem counts_foldl (events : List Event) : Counts (events.foldl count {}) events where
  each e h := (countOf_foldl events e).trans (min_countLimit h)
  total h := (comparisonsOptimized_foldl events).trans (min_countLimit h)

end Tally
end QueryPredicates
