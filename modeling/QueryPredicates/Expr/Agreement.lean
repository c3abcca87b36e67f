import QueryPredicates.Expr.Basic

/-! Structural equality of expressions. Constants agree as stored data do, so a NaN
makes an expression differ from itself; sequences agree by name and counter. -/

namespace QueryPredicates.Expr

mutual
def agrees : Expr → Expr → Bool
  | constant a, constant b => a.agrees b
  | column a, column b => a == b
  | parameter a, parameter b => a == b
  | nextValue a, nextValue b => a.agrees b
  | comparison op l r w, comparison op' l' r' w' =>
    op == op' && l.agrees l' && r.agrees r' && w == w'
  | nullTest e n, nullTest e' n' => e.agrees e' && n == n'
  | inList e first rest, inList e' first' rest' =>
    e.agrees e' && first.agrees first' && agreeAll rest rest'
  | _, _ => false

/-- Expression by expression agreement of two lists of one length. -/
def agreeAll : List Expr → List Expr → Bool
  | [], [] => true
  | a :: as, b :: bs => a.agrees b && agreeAll as bs
  | _, _ => false
end

end QueryPredicates.Expr
