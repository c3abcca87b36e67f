import QueryPredicates.Evaluation.Basic
import QueryPredicates.Telemetry.Note

/-! Simplifying one comparison whose operands are simple already. A column goes to the
left of a constant or parameter; a constant beside a column takes the type in which the
two meet, a parameter that of the column. Two constants are folded by evaluating the
comparison. A NULL constant makes the comparison unknown, or, under a null-safe
comparator, makes it a null test of the other operand. -/

namespace QueryPredicates

inductive CompileError where
  | arrayAgainstScalar (left right : SqlType)
  | conversion (e : ConversionError)
  | evaluation (e : EvalError)
  deriving Repr, Inhabited

def CompileError.message : CompileError → String
  | arrayAgainstScalar left right => "comparing array to scalar: " ++ left.sql ++ " vs " ++ right.sql
  | conversion e => e.message
  | evaluation e => e.message

abbrev Compilation := Run CompileError Note

/-- Evaluates while compiling; what the evaluation does is not noted. -/
def Compilation.evaluate {α : Type} (m : Evaluation α) : Compilation α := fun counters =>
  let ran := m counters
  ⟨ran.outcome.mapError .evaluation, ran.counters, []⟩

/-- Parameters take the type of the column that they are compared with. -/
def Parameter.bindType (p : Parameter) (type : SqlType) : Parameter := { p with bound := some type }

namespace Comparison

/-- The warning about a NULL constant, if the session asks for it. -/
def nullWarning (session : Session) (op : Comparator) : List Note :=
  if session.settings.warnOnNullConstant then [.line (.nullConstant op)] else []

def toUnknown : Compilation Expr := do
  Run.note [.event .nullPropagated, .line .reducedToUnknown]
  return .unknown

/-- The constant in the type in which it meets a column. -/
def coerce (c : Constant) (columnType : SqlType) : Compilation Constant := do
  let target := columnType.common c.type
  if c.type = columnType ∨ c.type = target then return c
  else
    let coerced ← Run.ofExcept ((c.convert target).mapError .conversion)
    Run.note [.event .constantCoerced, .line (.coerced c.type target)]
    return coerced

def fold (session : Session) (op : Comparator) (left right : Expr) : Compilation Expr := do
  let result ← Compilation.evaluate (Comparison.eval session.context ⟨op, left, right, false⟩)
  Run.note [.event .constantFolded, .line (.folded .comparison result)]
  return .ofTruth result

/-- Simplifies a comparison in which one operand is a NULL constant. -/
def simplifyNull (session : Session) (op : Comparator) (left right : Expr) : Compilation Expr := do
  Run.note (nullWarning session op)
  if !op.isNullSafe then toUnknown
  else
    let operand := if left.isNullConstant then right else left
    if operand.type == .unknown || operand.type == .row then return .comparison op left right false
    else
      Run.note [.event .nullTestIntroduced, .line (.becameNullTest operand)]
      return .nullTest operand (op == .notEqualNullSafe)

/-- Folds what is constant, now that column and constant or parameter have met. -/
def settle (session : Session) (op : Comparator) (left right : Expr) : Compilation Expr :=
  if left.isConstant && right.isConstant then fold session op left right
  else if left.isNullConstant || right.isNullConstant then simplifyNull session op left right
  else return .comparison op left right false

/-- Adapts a constant or parameter on the right to a column on the left. -/
def adapt (session : Session) (op : Comparator) (left right : Expr) : Compilation Expr :=
  match left, right with
  | .column column, .constant c =>
    if c.isNull && !op.isNullSafe then do
      Run.note (nullWarning session op)
      toUnknown
    else do
      let coerced ← coerce c column.type
      settle session op left (.constant coerced)
  | .column column, .parameter p => settle session op left (.parameter (p.bindType column.type))
  | _, _ => settle session op left right

/-- Whether a column stands to the right of a constant or a parameter. -/
def isTurned (left right : Expr) : Bool :=
  right.column?.isSome && (left.isConstant || left.isParameter)

/-- Puts a column on the left and goes on. -/
def orient (session : Session) (op : Comparator) (left right : Expr) : Compilation Expr :=
  if isTurned left right then do
    Run.note [.event .operandsSwapped, .line (.swapped op.reverse)]
    adapt session op.reverse right left
  else adapt session op left right

/-- Simplifies a comparison of simplified operands. -/
def simplify (session : Session) (c : Comparison) : Compilation Expr := do
  Run.note [.event (.comparisonOptimized c.op)]
  if c.right.type == .array && c.left.type != .array then
    Run.fail (.arrayAgainstScalar c.left.type c.right.type)
  else if c.whenOperand then return c.toExpr
  else orient session c.op c.left c.right

end Comparison
end QueryPredicates
