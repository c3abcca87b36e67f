import QueryPredicates.Expr.Sql

/-! Index conditions: what a predicate on one table access says about one of its
columns, with the column always on the left. `never` is the condition of a predicate
known to be false. The mask of a condition tells how it can drive a scan. -/

namespace QueryPredicates
open QueryPredicates.Text

/-- How conditions can drive a scan: by equality, from a start, up to a stop, by
overlap, or not at all because no row qualifies. -/
structure ScanMask where
  equality : Bool := false
  start : Bool := false
  stop : Bool := false
  spatial : Bool := false
  alwaysFalse : Bool := false
  deriving DecidableEq, Repr, Inhabited

namespace ScanMask

def union (a b : ScanMask) : ScanMask where
  equality := a.equality || b.equality
  start := a.start || b.start
  stop := a.stop || b.stop
  spatial := a.spatial || b.spatial
  alwaysFalse := a.alwaysFalse || b.alwaysFalse

def isRange (m : ScanMask) : Bool := m.start && m.stop

end ScanMask

/-- The scan that a comparator bounds; an inequality bounds none. -/
def Comparator.mask : Comparator → ScanMask
  | equal | equalNullSafe => { equality := true }
  | greaterOrEqual | greater => { start := true }
  | lessOrEqual | less => { stop := true }
  | spatialIntersects => { spatial := true }
  | notEqual | notEqualNullSafe => {}

inductive IndexCondition where
  | compare (op : Comparator) (column : Column) (bound : Expr)
  | among (column : Column) (values : List Expr)
  | never
  deriving Repr, Inhabited

/-- What a condition holds its column against. -/
inductive Bound where
  | expr (e : Expr)
  | list (es : List Expr)
  deriving Repr, Inhabited

namespace IndexCondition

/-- The condition that an operator forms, which must be able to bound an index. -/
def ofOperator (op : Operator) (column : Column) (bound : Expr) :
    Except Defect IndexCondition := do
  let c ← op.require .noComparison
  if c.boundsIndex then return compare c column bound else throw (.boundsNoIndex op)

def column? : IndexCondition → Option Column
  | compare _ column _ | among column _ => some column
  | never => none

def operator : IndexCondition → Operator
  | compare op _ _ => .comparator op
  | among _ _ => .inList
  | never => .alwaysFalse

def bound? : IndexCondition → Option Bound
  | compare _ _ bound => some (.expr bound)
  | among _ values => some (.list values)
  | never => none

def isNever : IndexCondition → Bool
  | never => true
  | _ => false

def mask : IndexCondition → ScanMask
  | compare op _ _ => op.mask
  | among _ _ => { equality := true }
  | never => { alwaysFalse := true }

def sql : IndexCondition → String
  | compare op column bound =>
    if op == .equalNullSafe && bound.isNullConstant then column.sql ++ " IS NULL"
    else column.sql ++ " " ++ op.sql ++ " " ++ bound.sql
  | among column values => column.sql ++ " IN(" ++ join ", " (values.map Expr.sql) ++ ")"
  | never => "FALSE"

end IndexCondition
end QueryPredicates
