import QueryPredicates.Expr.Basic

/-! Negation of an expression, where a simple form of it exists: a comparison under the
complementary comparator, the opposite null test, the negated truth constant. A `WHEN`
operand is never negated, and neither is an IN list. -/

namespace QueryPredicates

def Comparison.negate? (c : Comparison) : Option Comparison :=
  if c.whenOperand then none
  else c.op.complement?.map fun op => ⟨op, c.left, c.right, false⟩

def NullTest.negate (t : NullTest) : NullTest := ⟨t.operand, !t.negated⟩

/-- The negated truth value of a constant that is declared as one. -/
def Constant.negate? (c : Constant) : Option Constant :=
  if c.type = .boolean ∨ c.type = .null then c.value.truth?.map fun t => .ofTruth t.not
  else none

def Expr.negate? : Expr → Option Expr
  | .comparison op left right whenOperand =>
    (Comparison.negate? ⟨op, left, right, whenOperand⟩).map Comparison.toExpr
  | .nullTest operand negated => some (NullTest.negate ⟨operand, negated⟩).toExpr
  | .constant c => c.negate?.map .constant
  | _ => none

end QueryPredicates
