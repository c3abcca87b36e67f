import QueryPredicates.Index.Condition

/-! Notes: what the library reports while it simplifies predicates and derives index
conditions. An event is counted or handed to a sink; a line goes to the log, with a
level, a message and named fields. Both kinds come in one list, in order. -/

namespace QueryPredicates

inductive Event where
  | comparisonOptimized (op : Comparator)
  | operandsSwapped
  | constantCoerced
  | constantFolded
  | nullPropagated
  | nullTestIntroduced
  | conditionDerived
  | conditionRejected
  | equalitiesFused
  | membershipFused
  deriving DecidableEq, Repr, Inhabited

inductive Level where
  | debug
  | warn
  deriving DecidableEq, Repr, Inhabited

def Level.name : Level → String
  | debug => "DEBUG"
  | warn => "WARN"

/-- Why a predicate yields no index condition. -/
inductive Rejection where
  | bothOperands
  | boundReadsAccess
  | operatorBoundsNone
  | boundIgnoresCase
  | candidateReadsAccess
  | candidateIgnoresCase
  deriving DecidableEq, Repr, Inhabited

def Rejection.text : Rejection → String
  | bothOperands => "both operands read the same access"
  | boundReadsAccess => "bound reads the filtered access"
  | operatorBoundsNone => "operator cannot bound an index"
  | boundIgnoresCase => "case-insensitive bound against a case-sensitive column"
  | candidateReadsAccess => "candidate reads the filtered access"
  | candidateIgnoresCase => "candidate changes the column collation"

/-- A constant that was folded. -/
inductive Folded where
  | comparison
  | nullTest
  | inList
  deriving DecidableEq, Repr, Inhabited

def Folded.text : Folded → String
  | comparison => "folded constant comparison"
  | nullTest => "folded constant null test"
  | inList => "folded constant IN list"

inductive Line where
  | swapped (op : Comparator)
  | coerced (source target : SqlType)
  | folded (what : Folded) (result : Truth)
  | reducedToUnknown
  | becameNullTest (operand : Expr)
  | becameEquality (operand : Expr)
  | nullConstant (op : Comparator)
  | fusedEquality (fused : Comparison)
  | fusedMembership (fused : InList)
  | condition (c : IndexCondition)
  | noCondition (predicate : Expr) (reason : Rejection)
  deriving Repr, Inhabited

namespace Line

def level : Line → Level
  | nullConstant _ => .warn
  | _ => .debug

def message : Line → String
  | swapped _ => "swapped comparison operands"
  | coerced _ _ => "coerced comparison constant"
  | folded what _ => what.text
  | reducedToUnknown => "comparison with NULL reduced to UNKNOWN"
  | becameNullTest _ => "rewrote null-safe comparison as null test"
  | becameEquality _ => "single-value IN list rewritten as equality"
  | nullConstant _ => "comparison with a NULL constant; use IS [NOT] NULL instead"
  | fusedEquality _ => "derived transitive equality"
  | fusedMembership _ => "derived membership from disjunction"
  | condition _ => "derived index condition"
  | noCondition _ _ => "no index condition"

def fields : Line → List (String × String)
  | swapped op | nullConstant op => [("operator", op.sql)]
  | coerced source target => [("from", source.sql), ("to", target.sql)]
  | folded _ result => [("result", result.sql)]
  | reducedToUnknown => []
  | becameNullTest operand | becameEquality operand => [("operand", operand.sql)]
  | fusedEquality fused => [("fused", fused.sql)]
  | fusedMembership fused => [("fused", fused.sql)]
  | condition c => [("condition", c.sql)]
  | noCondition predicate reason => [("predicate", predicate.sql), ("reason", reason.text)]

end Line

inductive Note where
  | event (e : Event)
  | line (l : Line)
  deriving Repr, Inhabited

namespace Note

def event? : Note → Option Event
  | event e => some e
  | line _ => none

def line? : Note → Option Line
  | line l => some l
  | event _ => none

end Note

/-- A result with the notes made on the way to it. -/
structure Noted (α : Type) where
  value : α
  notes : List Note

end QueryPredicates
