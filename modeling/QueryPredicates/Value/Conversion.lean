import QueryPredicates.Value.Sql

/-! Conversion of a value to a type. NULL converts to everything and nothing else
converts to the type of NULL. Numbers are read from text without the blanks around
them, doubles round to the nearest integer with a tie away from zero, and any value
becomes a collection of one; a collection becomes one of the other kind item by item. -/

namespace QueryPredicates

inductive ConversionError where
  | unsupported (value : Value) (target : SqlType)
  | outOfRange (value : Value) (target : SqlType)
  deriving Repr, Inhabited

def ConversionError.message : ConversionError → String
  | unsupported value target => "cannot convert " ++ value.sql ++ " to " ++ target.sql
  | outOfRange value target => "value " ++ value.sql ++ " is out of range for " ++ target.sql

namespace Value
open QueryPredicates.Text

abbrev Converted := Except ConversionError

/-- The spellings of true and false, in any ASCII case. -/
def readBool? (cs : List Char) : Option Bool :=
  let word := String.ofList (cs.map Char.toLower)
  if ["true", "t", "yes", "y", "1"].contains word then some true
  else if ["false", "f", "no", "n", "0"].contains word then some false
  else none

def toBool (v : Value) : Converted Bool :=
  match v with
  | bool b => .ok b
  | int n => .ok (n != 0)
  | bigInt n => .ok (n != 0)
  | double x => .ok !(x.agrees .zero)
  | text s | textIgnoreCase s => (readBool? (trim s.toList)).elim (.error (.unsupported v .boolean)) .ok
  | _ => .error (.unsupported v .boolean)

def inInt64 (n : Int) : Bool := Int64.minValue.toInt ≤ n && n ≤ Int64.maxValue.toInt

def inInt32 (n : Int) : Bool := Int32.minValue.toInt ≤ n && n ≤ Int32.maxValue.toInt

/-- The integer that a text denotes, if it is one of sixty-four bits. -/
def readInt64? (cs : List Char) : Option Int64 :=
  match readInteger? (trim cs) with
  | some n => if inInt64 n then some (.ofInt n) else none
  | none => none

def toBigInt (v : Value) : Converted Int64 :=
  match v with
  | bool b => .ok (if b then 1 else 0)
  | int n => .ok n.toInt64
  | bigInt n => .ok n
  | double x =>
    if x.isFinite && inInt64 x.roundAway then .ok (.ofInt x.roundAway)
    else .error (.outOfRange v .bigInt)
  | text s | textIgnoreCase s => (readInt64? s.toList).elim (.error (.unsupported v .bigInt)) .ok
  | _ => .error (.unsupported v .bigInt)

/-- Narrows the sixty-four bit integer, whose errors come first. -/
def toInt (v : Value) : Converted Int32 := do
  let wide ← v.toBigInt
  if inInt32 wide.toInt then .ok (.ofInt wide.toInt) else .error (.outOfRange v .int)

def toDouble (v : Value) : Converted Double :=
  match v with
  | bool b => .ok (if b then .one else .zero)
  | int n => .ok (.ofInt n.toInt)
  | bigInt n => .ok (.ofInt n.toInt)
  | double x => .ok x
  | text s | textIgnoreCase s => (Double.read? (trim s.toList)).elim (.error (.unsupported v .double)) .ok
  | _ => .error (.unsupported v .double)

/-- The text of a scalar; `target` is the text type asked for. -/
def toText (v : Value) (target : SqlType) : Converted String :=
  match v with
  | bool _ | int _ | bigInt _ | double _ => .ok v.sql
  | text s | textIgnoreCase s => .ok s
  | geometry g => .ok g.wkt
  | null | array _ | row _ => .error (.unsupported v target)

def toGeometry (v : Value) : Converted Geometry :=
  match v with
  | geometry g => .ok g
  | text s | textIgnoreCase s => (Geometry.readWkt? s).elim (.error (.unsupported v .geometry)) .ok
  | _ => .error (.unsupported v .geometry)

/-- The items of a value seen as a collection: its own, or itself alone. -/
def items : Value → List Value
  | array items | row items => items
  | v => [v]

def convert (v : Value) (target : SqlType) : Converted Value :=
  if v.isNull || v.type = target then .ok v
  else match target with
    | .unknown => .ok v
    | .null => .error (.unsupported v .null)
    | .boolean => bool <$> v.toBool
    | .int => int <$> v.toInt
    | .bigInt => bigInt <$> v.toBigInt
    | .double => double <$> v.toDouble
    | .text => text <$> v.toText .text
    | .textIgnoreCase => textIgnoreCase <$> v.toText .textIgnoreCase
    | .geometry => geometry <$> v.toGeometry
    | .array => .ok (array v.items)
    | .row => .ok (row v.items)

theorem convert_self (v : Value) : v.convert v.type = .ok v := by simp [convert]

end Value
end QueryPredicates
