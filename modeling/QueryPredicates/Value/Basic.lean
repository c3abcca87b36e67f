import QueryPredicates.SqlType
import QueryPredicates.Truth
import QueryPredicates.Geometry.Basic

/-! Values. NULL is a value of its own; arrays and rows are ordered collections of
values and nest to any depth. -/

namespace QueryPredicates

inductive Value where
  | null
  | bool (b : Bool)
  | int (n : Int32)
  | bigInt (n : Int64)
  | double (x : Double)
  | text (s : String)
  | textIgnoreCase (s : String)
  | array (items : List Value)
  | row (items : List Value)
  | geometry (g : Geometry)
  deriving Repr, Inhabited

namespace Value

def isNull : Value → Bool
  | null => true
  | _ => false

def type : Value → SqlType
  | null => .null
  | bool _ => .boolean
  | int _ => .int
  | bigInt _ => .bigInt
  | double _ => .double
  | text _ => .text
  | textIgnoreCase _ => .textIgnoreCase
  | array _ => .array
  | row _ => .row
  | geometry _ => .geometry

/-- Reads a boolean value as a truth value; NULL is the unknown one. -/
def truth? : Value → Option Truth
  | null => some .unknown
  | bool b => some (.ofBool b)
  | _ => none

mutual
/-- How many collections lie one inside another. -/
def depth : Value → Nat
  | array items => 1 + depths items
  | row items => 1 + depths items
  | _ => 0

/-- The greatest depth among the items. -/
def depths : List Value → Nat
  | [] => 0
  | v :: vs => max v.depth (depths vs)
end

mutual
/-- Equality of the stored data, where doubles are equal as numbers: a NaN differs
from itself and the two zeros are equal. -/
def agrees : Value → Value → Bool
  | null, null => true
  | bool a, bool b => a == b
  | int a, int b => a == b
  | bigInt a, bigInt b => a == b
  | double a, double b => a.agrees b
  | text a, text b => a == b
  | textIgnoreCase a, textIgnoreCase b => a == b
  | array as, array bs => agreeAll as bs
  | row as, row bs => agreeAll as bs
  | geometry a, geometry b => a.agrees b
  | _, _ => false

/-- Item by item agreement of two lists of one length. -/
def agreeAll : List Value → List Value → Bool
  | [], [] => true
  | a :: as, b :: bs => a.agrees b && agreeAll as bs
  | _, _ => false
end

theorem isNull_iff {v : Value} : v.isNull = true ↔ v = null := by
  cases v <;> simp [isNull]

theorem depth_le_depths {v : Value} {vs : List Value} (h : v ∈ vs) : v.depth ≤ depths vs := by
  induction vs with
  | nil => simp at h
  | cons w vs ih =>
    simp only [depths]
    rcases List.mem_cons.1 h with rfl | h
    · omega
    · have := ih h
      omega

end Value

/-- The value of a truth value: unknown is NULL. -/
def Truth.toValue : Truth → Value
  | .holds => .bool true
  | .fails => .bool false
  | .unknown => .null

theorem Truth.truth?_toValue (t : Truth) : t.toValue.truth? = some t := by
  cases t <;> rfl

end QueryPredicates
