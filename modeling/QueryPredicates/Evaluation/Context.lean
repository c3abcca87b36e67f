import QueryPredicates.Config.Settings
import QueryPredicates.Evaluation.Run
import QueryPredicates.Expr.Sql

/-! What an evaluation reads. A context gives the values of columns and parameters, as
far as it has them, and the way values are compared. A session alone has parameters
but no columns; with a row it has the columns of that row too. -/

namespace QueryPredicates

structure Context where
  column : Column → Option Value
  parameter : Nat → Option Value
  hooks : Hooks := .standard

/-- A sequence call and the value that it returned. -/
structure Call where
  sequence : Sequence
  value : Int64
  deriving Repr, Inhabited

/-- Something an evaluation does that its context can observe. -/
inductive Act where
  | readColumn (c : Column)
  | readParameter (index : Nat)
  | advance (call : Call)
  | compare (mode : Mode) (left right : Value)
  | same (left right : Value)
  deriving Repr, Inhabited

inductive EvalError where
  | columnWithoutValue (c : Column)
  | parameterNotSet (index : Nat)
  deriving DecidableEq, Repr, Inhabited

namespace EvalError

def message : EvalError → String
  | columnWithoutValue c => "column " ++ c.sql ++ " has no value in this context"
  | parameterNotSet index => "parameter " ++ Parameter.sql ⟨index, none⟩ ++ " is not set"

/-- Where an error arises and of which class it is. -/
def classification : EvalError → String
  | columnWithoutValue _ => "context:invariant_violation"
  | parameterNotSet _ => "expression:unsupported"

def classifiedMessage (e : EvalError) : String := e.classification ++ ": " ++ e.message

end EvalError

abbrev Evaluation := Run EvalError Act

/-- Cells by name; of two with one name the first is in force. -/
abbrev Cells := List (String × Value)

/-- A row, keyed by the text of a column or by its access and then its name. -/
inductive Row where
  | qualified (cells : Cells)
  | joined (rows : List (AccessId × Cells))
  deriving Repr, Inhabited

def Row.column (row : Row) (c : Column) : Option Value :=
  match row with
  | qualified cells => cells.lookup c.sql
  | joined rows => (rows.lookup c.access).bind fun cells => cells.lookup c.name

structure Session where
  settings : Settings := {}
  /-- Bound values, the latest first. -/
  parameters : List (Nat × Value) := []
  deriving Repr, Inhabited

namespace Session

/-- Binds a parameter, in place of an earlier binding. -/
def setParameter (s : Session) (index : Nat) (v : Value) : Session :=
  { s with parameters := (index, v) :: s.parameters }

def parameter? (s : Session) (index : Nat) : Option Value := s.parameters.lookup index

/-- The session on its own, in which no column has a value. -/
def context (s : Session) : Context := ⟨fun _ => none, s.parameter?, .standard⟩

def withRow (s : Session) (row : Row) : Context := ⟨row.column, s.parameter?, .standard⟩

theorem parameter?_setParameter (s : Session) (index : Nat) (v : Value) (k : Nat) :
    (s.setParameter index v).parameter? k = if k = index then some v else s.parameter? k := by
  simp only [parameter?, setParameter, List.lookup_cons]
  split <;> simp_all

end Session
end QueryPredicates
