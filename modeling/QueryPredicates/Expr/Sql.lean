import QueryPredicates.Expr.Basic

/-! The SQL text of expressions. Every node is parenthesised; an IN list on the right of a
comparison gets parentheses once more, unless the comparison is null-safe. -/

namespace QueryPredicates
open QueryPredicates.Text

/-- The part of a comparison after its left operand, given the text of the right one. -/
def Comparator.tailSql (op : Comparator) (right : String) (enclosed : Bool) : String :=
  let right := if enclosed && !op.isNullSafe then "(" ++ right ++ ")" else right
  " " ++ op.sql ++ " " ++ right

namespace Expr

mutual
def sql : Expr → String
  | constant c => c.sql
  | column c => c.sql
  | parameter p => p.sql
  | nextValue s => s.sql
  | comparison op left right _ => "(" ++ left.sql ++ op.tailSql right.sql right.isEnclosed ++ ")"
  | nullTest operand negated =>
    "(" ++ operand.sql ++ (if negated then " IS NOT NULL" else " IS NULL") ++ ")"
  | inList operand first rest =>
    "(" ++ operand.sql ++ " IN(" ++ join ", " (first.sql :: sqls rest) ++ "))"

/-- The texts of some expressions. -/
def sqls : List Expr → List String
  | [] => []
  | e :: es => e.sql :: sqls es
end

theorem sqls_eq_map (es : List Expr) : sqls es = es.map sql := by
  induction es with
  | nil => rfl
  | cons e es ih => simp [sqls, ih]

end Expr

def Comparison.sql (c : Comparison) : String := c.toExpr.sql

/-- The text of a case branch's test, which leaves out the case operand. -/
def Comparison.whenSql (c : Comparison) : String := c.op.tailSql c.right.sql c.right.isEnclosed

def InList.sql (l : InList) : String := l.toExpr.sql

end QueryPredicates
