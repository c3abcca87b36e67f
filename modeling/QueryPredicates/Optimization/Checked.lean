import QueryPredicates.Optimization.Basic

/-! The pass with its assertions. Comparisons and lists are built by constructors that refuse a
pseudo operator and an empty list, and an operator table refuses a pseudo operator where only a
comparator has an entry. Here the pass holds operators, not comparators, and stops wherever one of
these refuses. -/

namespace QueryPredicates

/-- How the pass with assertions stops: on one of them, or as the pass does. -/
inductive Halt where
  | defect (d : Defect)
  | refused (e : CompileError)

abbrev Checked := Run Halt Note

namespace Checked

variable {α β : Type}

/-- Stops where an assertion does not hold. -/
def demand (o : Except Defect α) : Checked α := Run.ofExcept (o.mapError .defect)

/-- A run of the pass, in which nothing is asserted. -/
def lift (m : Compilation α) : Checked α := fun counters =>
  let ran := m counters
  ⟨ran.outcome.mapError .refused, ran.counters, ran.record⟩

end Checked

open Checked

/-! ## Comparisons -/

namespace Comparison.Checked

variable (session : Session) (op : Operator) (left right : Expr)

/-- The warning shows the operator. -/
def warn : Checked Unit :=
  if session.settings.warnOnNullConstant then do
    let c ← demand (op.require .noSqlForm)
    Run.note [.line (.nullConstant c)]
  else pure ()

def build : Checked Expr := do
  let c ← demand (ofOperator op left right false)
  return c.toExpr

def fold : Checked Expr := do
  let c ← demand (ofOperator op left right false)
  let _ ← demand (op.require .noEvaluation)
  lift (Comparison.fold session c.op c.left c.right)

def simplifyNull : Checked Expr := do
  warn session op
  if !op.isNullSafe then lift toUnknown
  else
    let operand := if left.isNullConstant then right else left
    if operand.type == .unknown || operand.type == .row then build op left right
    else
      Run.note [.event .nullTestIntroduced, .line (.becameNullTest operand)]
      return .nullTest operand (op == .comparator .notEqualNullSafe)

def settle : Checked Expr :=
  if left.isConstant && right.isConstant then fold session op left right
  else if left.isNullConstant || right.isNullConstant then simplifyNull session op left right
  else build op left right

def adapt : Checked Expr :=
  match left, right with
  | .column column, .constant c =>
    if c.isNull && !op.isNullSafe then do
      warn session op
      lift toUnknown
    else do
      let coerced ← lift (coerce c column.type)
      settle session op left (.constant coerced)
  | .column column, .parameter p => settle session op left (.parameter (p.bindType column.type))
  | _, _ => settle session op left right

/-- The line on the exchange shows the operator. -/
def orient : Checked Expr :=
  if isTurned left right then do
    let reversed ← demand op.reverse
    let c ← demand (reversed.require .noSqlForm)
    Run.note [.event .operandsSwapped, .line (.swapped c)]
    adapt session reversed right left
  else adapt session op left right

def simplify (c : Comparison) : Checked Expr := do
  Run.note [.event (.comparisonOptimized c.op)]
  if c.right.type == .array && c.left.type != .array then
    lift (Run.fail (.arrayAgainstScalar c.left.type c.right.type))
  else if c.whenOperand then do
    let c ← demand (ofOperator (.comparator c.op) c.left c.right true)
    return c.toExpr
  else orient session (.comparator c.op) c.left c.right

end Comparison.Checked

/-! ## Lists -/

namespace InList

/-- A list is built unless it is known to be unknown, and searched by equality. -/
def Checked.simplify (session : Session) (operand : Expr) (values : List Expr) : Checked Expr :=
  if operand.isNullConstant then do
    Run.note [.event .nullPropagated]
    return .unknown
  else do
    let l ← demand (ofValues operand values)
    if l.operand.isConstant && l.values.all Expr.isConstant then do
      let _ ← demand ((Operator.comparator .equal).require .noEvaluation)
      let result ← lift (Compilation.evaluate (l.eval session.context))
      Run.note [.event .constantFolded, .line (.folded .inList result)]
      return .ofTruth result
    else return l.toExpr

end InList

/-! ## The pass -/

namespace Expr

/-- As `optimizeWithin`, with the assertions. -/
def checkedWithin (session : Session) : Nat → Expr → Checked Expr
  | n + 1, comparison op left right whenOperand => do
    let left ← checkedWithin session n left
    let right ← checkedWithin session n right
    Comparison.Checked.simplify session ⟨op, left, right, whenOperand⟩
  | n + 1, nullTest operand negated => do
    let operand ← checkedWithin session n operand
    lift (NullTest.simplify ⟨operand, negated⟩)
  | n + 1, inList operand first rest => do
    let operand ← checkedWithin session n operand
    let values ← (first :: rest).mapM (checkedWithin session n)
    match values with
    | [value] =>
      Run.note [.line (.becameEquality operand)]
      let c ← demand (Comparison.ofOperator (.comparator .equal) operand value false)
      let left ← checkedWithin session n c.left
      let right ← checkedWithin session n c.right
      Comparison.Checked.simplify session ⟨c.op, left, right, c.whenOperand⟩
    | values => InList.Checked.simplify session operand values
  | _, e => pure e

/-- Simplifies an expression, with the assertions. -/
def checked (session : Session) (e : Expr) : Checked Expr := checkedWithin session e.depth e

end Expr
end QueryPredicates
