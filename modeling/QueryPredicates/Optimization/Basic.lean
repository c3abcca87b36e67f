import QueryPredicates.Optimization.Node

/-! Simplifying expressions at compile time, operands first. An IN list of one candidate
becomes an equality, which is then simplified as such, operands included; so the pass
goes by the depth of the expression and not by its structure. No step makes an
expression deeper, so its own depth is enough. -/

namespace QueryPredicates

namespace NullTest

/-- Simplifies a null test of a simplified operand. -/
def simplify (t : NullTest) : Compilation Expr :=
  match t.operand with
  | .constant c => do
    let result := Truth.ofBool (c.isNull != t.negated)
    Run.note [.event .constantFolded, .line (.folded .nullTest result)]
    return .ofTruth result
  | _ => return t.toExpr

end NullTest

namespace InList

/-- Simplifies a list of simplified candidates. -/
def simplify (session : Session) (l : InList) : Compilation Expr :=
  if l.operand.isNullConstant then do
    Run.note [.event .nullPropagated]
    return .unknown
  else if l.operand.isConstant && l.values.all Expr.isConstant then do
    let result ← Compilation.evaluate (l.eval session.context)
    Run.note [.event .constantFolded, .line (.folded .inList result)]
    return .ofTruth result
  else return l.toExpr

end InList

namespace Expr

/-- Simplifies an expression whose depth is at most the second argument. -/
def optimizeWithin (session : Session) : Nat → Expr → Compilation Expr
  | n + 1, comparison op left right whenOperand => do
    let left ← optimizeWithin session n left
    let right ← optimizeWithin session n right
    Comparison.simplify session ⟨op, left, right, whenOperand⟩
  | n + 1, nullTest operand negated => do
    let operand ← optimizeWithin session n operand
    NullTest.simplify ⟨operand, negated⟩
  | n + 1, inList operand first rest => do
    let operand ← optimizeWithin session n operand
    let first ← optimizeWithin session n first
    let rest ← rest.mapM (optimizeWithin session n)
    if rest.isEmpty then
      Run.note [.line (.becameEquality operand)]
      let operand ← optimizeWithin session n operand
      let first ← optimizeWithin session n first
      Comparison.simplify session ⟨.equal, operand, first, false⟩
    else InList.simplify session ⟨operand, first, rest⟩
  | _, e => pure e

/-- Simplifies an expression. -/
def optimize (session : Session) (e : Expr) : Compilation Expr :=
  optimizeWithin session e.depth e

end Expr
end QueryPredicates
