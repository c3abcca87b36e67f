import QueryPredicates.Comparator

/-! Operators as they appear on index conditions: the comparators and three pseudo
operators that head no comparison. Asking a pseudo operator for what only a comparator
has is a defect of the caller, and each such defect has its text. -/

namespace QueryPredicates

inductive Operator where
  | comparator (c : Comparator)
  | alwaysFalse
  | inList
  | inQuery
  deriving DecidableEq, Repr, Inhabited

def Operator.name : Operator → String
  | comparator c => c.name
  | alwaysFalse => "AlwaysFalse"
  | inList => "InList"
  | inQuery => "InQuery"

inductive Defect where
  | noReverse (op : Operator)
  | noComplement (op : Operator)
  | noComparison (op : Operator)
  | noSqlForm (op : Operator)
  | noEvaluation (op : Operator)
  | headsNoComparison (op : Operator)
  | boundsNoIndex (op : Operator)
  | noCandidates
  deriving DecidableEq, Repr, Inhabited

def Defect.message : Defect → String
  | noReverse op => "operator " ++ op.name ++ " has no reverse"
  | noComplement op => "operator " ++ op.name ++ " has no complement"
  | noComparison op => "operator " ++ op.name ++ " is not a comparison operator"
  | noSqlForm op => "operator " ++ op.name ++ " has no SQL form"
  | noEvaluation op => "operator " ++ op.name ++ " cannot be evaluated"
  | headsNoComparison op => "operator " ++ op.name ++ " cannot head a comparison"
  | boundsNoIndex op => "operator " ++ op.name ++ " cannot bound an index"
  | noCandidates => "IN list needs at least one value"

namespace Operator

def comparator? : Operator → Option Comparator
  | comparator c => some c
  | _ => none

def isPseudo (op : Operator) : Bool := op.comparator?.isNone

def isNullSafe (op : Operator) : Bool := op.comparator?.any Comparator.isNullSafe

def nullSafe? (op : Operator) : Option Operator :=
  (op.comparator?.bind Comparator.nullSafe?).map comparator

/-- The comparator, or the given defect of a pseudo operator. -/
def require (op : Operator) (defect : Operator → Defect) : Except Defect Comparator :=
  op.comparator?.elim (.error (defect op)) .ok

def reverse (op : Operator) : Except Defect Operator := do
  let c ← op.require .noReverse
  return comparator c.reverse

def complement (op : Operator) : Except Defect Operator :=
  match op.comparator?.bind Comparator.complement? with
  | some c => .ok (comparator c)
  | none => .error (.noComplement op)

def boundsIndex (op : Operator) : Except Defect Bool := do
  let c ← op.require .noComparison
  return c.boundsIndex

def sql (op : Operator) : Except Defect String := do
  let c ← op.require .noSqlForm
  return c.sql

def truth (op : Operator) (l r : Value) : Except Defect Truth := do
  let c ← op.require .noEvaluation
  return c.truth l r

end Operator
end QueryPredicates
