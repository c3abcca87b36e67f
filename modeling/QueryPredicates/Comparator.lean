import QueryPredicates.Value.Comparison
import QueryPredicates.Geometry.Box

/-! Comparison operators. Each says which orderings satisfy it; the null-safe ones
ask for sameness instead and never answer unknown, and the spatial one asks whether
two geometries overlap. `reverse` keeps the truth value when the operands trade places,
`complement?` negates it. -/

namespace QueryPredicates

inductive Comparator where
  | equal
  | equalNullSafe
  | notEqual
  | notEqualNullSafe
  | greaterOrEqual
  | greater
  | lessOrEqual
  | less
  | spatialIntersects
  deriving DecidableEq, Repr, Inhabited

/-- How a context compares two values. -/
structure Hooks where
  compareAs : Mode → Value → Value → Option Ordering
  isSame : Value → Value → Bool

def Hooks.standard : Hooks := ⟨Value.compareAs, Value.isSame⟩

namespace Comparator

def all : List Comparator :=
  [equal, equalNullSafe, notEqual, notEqualNullSafe, greaterOrEqual, greater, lessOrEqual, less,
    spatialIntersects]

def name : Comparator → String
  | equal => "Equal"
  | equalNullSafe => "EqualNullSafe"
  | notEqual => "NotEqual"
  | notEqualNullSafe => "NotEqualNullSafe"
  | greaterOrEqual => "GreaterOrEqual"
  | greater => "Greater"
  | lessOrEqual => "LessOrEqual"
  | less => "Less"
  | spatialIntersects => "SpatialIntersects"

def sql : Comparator → String
  | equal => "="
  | equalNullSafe => "IS NOT DISTINCT FROM"
  | notEqual => "<>"
  | notEqualNullSafe => "IS DISTINCT FROM"
  | greaterOrEqual => ">="
  | greater => ">"
  | lessOrEqual => "<="
  | less => "<"
  | spatialIntersects => "&&"

def isNullSafe : Comparator → Bool
  | equalNullSafe | notEqualNullSafe => true
  | _ => false

/-- The null-safe form of equality and inequality; the others have none. -/
def nullSafe? : Comparator → Option Comparator
  | equal | equalNullSafe => some equalNullSafe
  | notEqual | notEqualNullSafe => some notEqualNullSafe
  | _ => none

def reverse : Comparator → Comparator
  | greaterOrEqual => lessOrEqual
  | greater => less
  | lessOrEqual => greaterOrEqual
  | less => greater
  | symmetric => symmetric

def complement? : Comparator → Option Comparator
  | equal => some notEqual
  | equalNullSafe => some notEqualNullSafe
  | notEqual => some equal
  | notEqualNullSafe => some equalNullSafe
  | greaterOrEqual => some less
  | greater => some lessOrEqual
  | lessOrEqual => some greater
  | less => some greaterOrEqual
  | spatialIntersects => none

/-- Whether a comparison with it can bound an index scan. -/
def boundsIndex : Comparator → Bool
  | notEqual | notEqualNullSafe => false
  | _ => true

/-- What the comparator asks of two values. -/
inductive Question where
  | order (mode : Mode) (accepts : Ordering → Bool)
  | same (expected : Bool)
  | overlap

def question : Comparator → Question
  | equal => .order .equality (· == .eq)
  | notEqual => .order .equality (· != .eq)
  | greaterOrEqual => .order .ordering Ordering.isGE
  | greater => .order .ordering Ordering.isGT
  | lessOrEqual => .order .ordering Ordering.isLE
  | less => .order .ordering Ordering.isLT
  | equalNullSafe => .same true
  | notEqualNullSafe => .same false
  | spatialIntersects => .overlap

/-- Whether two values, read as geometries, overlap; unknown if either is none. -/
def overlapTruth (l r : Value) : Truth :=
  if l.isNull || r.isNull then .unknown
  else match l.toGeometry, r.toGeometry with
    | .ok g, .ok h => .ofBool (g.overlaps h)
    | _, _ => .unknown

def truthUnder (hooks : Hooks) (c : Comparator) (l r : Value) : Truth :=
  match c.question with
  | .order mode accepts => (hooks.compareAs mode l r).elim .unknown fun o => .ofBool (accepts o)
  | .same expected => .ofBool (hooks.isSame l r == expected)
  | .overlap => overlapTruth l r

/-- The truth of `l c r`. -/
def truth (c : Comparator) (l r : Value) : Truth := c.truthUnder .standard l r

theorem mem_all (c : Comparator) : c ∈ all := by cases c <;> decide

theorem all_nodup : all.Nodup := by decide

@[simp] theorem reverse_reverse (c : Comparator) : c.reverse.reverse = c := by cases c <;> rfl

theorem complement?_complement? {c d : Comparator} (h : c.complement? = some d) :
    d.complement? = some c := by
  cases c <;> simp [complement?] at h <;> subst h <;> rfl

theorem isNullSafe_reverse (c : Comparator) : c.reverse.isNullSafe = c.isNullSafe := by
  cases c <;> rfl

theorem isNullSafe_complement? {c d : Comparator} (h : c.complement? = some d) :
    d.isNullSafe = c.isNullSafe := by
  cases c <;> simp [complement?] at h <;> subst h <;> rfl

end Comparator
end QueryPredicates
