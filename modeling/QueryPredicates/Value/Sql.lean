import QueryPredicates.Value.Basic
import QueryPredicates.Geometry.Wkt
import QueryPredicates.Text.Quoted

/-! The SQL literal of a value. Integers of both widths share one form, as do both
kinds of text; doubles keep a point or an exponent, and a geometry is its quoted text
under a keyword. -/

namespace QueryPredicates.Value
open QueryPredicates.Text

mutual
def sql : Value → String
  | null => "NULL"
  | bool b => if b then "TRUE" else "FALSE"
  | int n => toString n.toInt
  | bigInt n => toString n.toInt
  | double x => Double.literal.text x
  | text s => quote s
  | textIgnoreCase s => quote s
  | array items => "ARRAY [" ++ join ", " (sqls items) ++ "]"
  | row items => "ROW (" ++ join ", " (sqls items) ++ ")"
  | geometry g => "GEOMETRY " ++ quote g.wkt

/-- The literals of a list of values. -/
def sqls : List Value → List String
  | [] => []
  | v :: vs => v.sql :: sqls vs
end

end QueryPredicates.Value
