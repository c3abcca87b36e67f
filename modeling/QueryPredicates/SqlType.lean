/-! The types of values and their promotion. `unknown` and `null` carry no
information, so `common` defers to the other side; of two proper types it
takes the one of higher rank. -/

namespace QueryPredicates

inductive SqlType where
  | unknown
  | null
  | text
  | textIgnoreCase
  | boolean
  | int
  | bigInt
  | double
  | geometry
  | array
  | row
  deriving DecidableEq, Repr, Inhabited

namespace SqlType

/-- Whether the type says anything about a value. -/
def isProper : SqlType → Bool
  | unknown | null => false
  | _ => true

def rank : SqlType → Nat
  | unknown => 0
  | null => 1
  | text => 10
  | textIgnoreCase => 11
  | boolean => 20
  | int => 30
  | bigInt => 31
  | double => 32
  | geometry => 40
  | array => 50
  | row => 60

/-- The type in which values of two types meet. -/
def common (a b : SqlType) : SqlType :=
  if !a.isProper then b
  else if !b.isProper then a
  else if b.rank ≤ a.rank then a
  else b

def sql : SqlType → String
  | unknown => "UNKNOWN"
  | null => "NULL"
  | text => "CHARACTER VARYING"
  | textIgnoreCase => "VARCHAR_IGNORECASE"
  | boolean => "BOOLEAN"
  | int => "INTEGER"
  | bigInt => "BIGINT"
  | double => "DOUBLE PRECISION"
  | geometry => "GEOMETRY"
  | array => "ARRAY"
  | row => "ROW"

@[simp] theorem common_self (a : SqlType) : a.common a = a := by cases a <;> rfl

theorem common_comm {a b : SqlType} (ha : a.isProper = true) (hb : b.isProper = true) :
    a.common b = b.common a := by
  cases a <;> cases b <;> first | rfl | contradiction

theorem common_assoc (a b c : SqlType) : (a.common b).common c = a.common (b.common c) := by
  cases a <;> cases b <;> cases c <;> rfl

end SqlType
end QueryPredicates
