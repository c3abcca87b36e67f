import QueryPredicates.Value.Conversion

/-! The leaves of expressions. A constant declares a type, which a NULL may choose
freely: a NULL of boolean type is the truth value unknown. A column belongs to one table
access and is written with the qualifier of that access. A parameter has no type until
it is bound to one. A sequence names a counter, which other sequences may share. -/

namespace QueryPredicates

/-- Identity of one use of a table in a query; a self-join has two. -/
abbrev AccessId := Nat

structure Constant where
  value : Value
  type : SqlType
  deriving Repr, Inhabited

namespace Constant

def ofValue (v : Value) : Constant := ⟨v, v.type⟩

def nullOf (type : SqlType) : Constant := ⟨.null, type⟩

/-- The constant of a truth value, always of boolean type. -/
def ofTruth (t : Truth) : Constant := ⟨t.toValue, .boolean⟩

def isNull (c : Constant) : Bool := c.value.isNull

/-- The constant declared with another type, its value converted. -/
def convert (c : Constant) (target : SqlType) : Except ConversionError Constant := do
  let value ← c.value.convert target
  return ⟨value, target⟩

def sql (c : Constant) : String :=
  match c.value, c.type with
  | .null, .boolean => "UNKNOWN"
  | .null, .null | .null, .unknown => "NULL"
  | .null, type => "CAST(NULL AS " ++ type.sql ++ ")"
  | value, _ => value.sql

def agrees (a b : Constant) : Bool := a.value.agrees b.value && a.type == b.type

end Constant

structure Column where
  access : AccessId
  qualifier : String
  name : String
  type : SqlType
  /-- Whether the access has a current row at this stage of the join. -/
  evaluatable : Bool := true
  deriving DecidableEq, Repr, Inhabited

def Column.sql (c : Column) : String := c.qualifier ++ "." ++ c.name

/-- Sets the flag if the column belongs to `access`. -/
def Column.setEvaluatable (access : AccessId) (flag : Bool) (c : Column) : Column :=
  if c.access = access then { c with evaluatable := flag } else c

structure Parameter where
  index : Nat
  bound : Option SqlType := none
  deriving DecidableEq, Repr, Inhabited

def Parameter.type (p : Parameter) : SqlType := p.bound.getD .unknown

def Parameter.sql (p : Parameter) : String := "?" ++ toString p.index

structure Sequence where
  counter : Nat
  name : String
  increment : Int64
  deriving DecidableEq, Repr, Inhabited

def Sequence.sql (s : Sequence) : String := "NEXT VALUE FOR " ++ s.name

/-- Sequences are one if they share name and counter. -/
def Sequence.agrees (s t : Sequence) : Bool := s.name == t.name && s.counter == t.counter

end QueryPredicates
