import QueryPredicates.Expr.Walk
import QueryPredicates.Telemetry.Note

/-! Deriving an index condition from a predicate, for one table access. A comparison
yields one if exactly one operand is a column of the access and the other does not read
from the access; an IN list if its operand is such a column and no candidate reads from
the access; a null test for every such column that must be NULL. A case-insensitive
bound would change the order of a column of another type, so it is refused. -/

namespace QueryPredicates

/-- A use of a table in a query, with the conditions collected for it. -/
structure Access where
  id : AccessId
  table : String
  /-- Whether the table takes conditions derived from predicates. -/
  queryComparable : Bool := true
  conditions : List IndexCondition := []
  deriving Repr, Inhabited

/-- What a predicate says about one access. -/
inductive Derivation where
  | derived (c : IndexCondition)
  | rejected (reason : Rejection)
  | silent
  deriving Repr, Inhabited

namespace Derivation

def condition? : Derivation → Option IndexCondition
  | derived c => some c
  | _ => none

/-- The notes of a derivation from `predicate`. -/
def notes (predicate : Expr) : Derivation → List Note
  | derived c => [.event .conditionDerived, .line (.condition c)]
  | rejected reason => [.event .conditionRejected, .line (.noCondition predicate reason)]
  | silent => []

end Derivation

/-- The column that an expression is, if it belongs to the access. -/
def Access.ownColumn? (a : Access) (e : Expr) : Option Column :=
  e.column?.filter (·.access == a.id)

/-- Anchors `column op bound` on a column of the access, unless something speaks against it. -/
def Access.anchor (a : Access) (op : Comparator) (column : Column) (bound : Expr) : Derivation :=
  if bound.references a.id then .rejected .boundReadsAccess
  else if !op.boundsIndex then .rejected .operatorBoundsNone
  else if column.type != bound.type && bound.type == .textIgnoreCase then
    .rejected .boundIgnoresCase
  else .derived (.compare op column bound)

def Comparison.derive (c : Comparison) (a : Access) : Derivation :=
  if c.whenOperand || !a.queryComparable then .silent
  else match a.ownColumn? c.left, a.ownColumn? c.right with
    | some column, none => a.anchor c.op column c.right
    | none, some column => a.anchor c.op.reverse column c.left
    | some _, some _ => .rejected .bothOperands
    | none, none => .silent

def NullTest.derive (t : NullTest) (a : Access) : Derivation :=
  if t.negated || !a.queryComparable then .silent
  else (a.ownColumn? t.operand).elim .silent fun column =>
    .derived (.compare .equalNullSafe column .null)

/-- Why a candidate speaks against a condition on `column`, if it does. -/
def Access.refuses? (a : Access) (column : Column) (candidate : Expr) : Option Rejection :=
  if candidate.references a.id then some .candidateReadsAccess
  else if column.type.common candidate.type == .textIgnoreCase && column.type != .textIgnoreCase then
    some .candidateIgnoresCase
  else none

def InList.derive (l : InList) (a : Access) : Derivation :=
  if !a.queryComparable then .silent
  else (a.ownColumn? l.operand).elim .silent fun column =>
    match l.values.findSome? (a.refuses? column) with
    | some reason => .rejected reason
    | none => .derived (.among column l.values)

/-- What any expression says about the access; only predicates say anything. -/
def Expr.derive (e : Expr) (a : Access) : Derivation :=
  match e with
  | .comparison op left right whenOperand => Comparison.derive ⟨op, left, right, whenOperand⟩ a
  | .nullTest operand negated => NullTest.derive ⟨operand, negated⟩ a
  | .inList operand first rest => InList.derive ⟨operand, first, rest⟩ a
  | _ => .silent

end QueryPredicates
