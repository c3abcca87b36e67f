import QueryPredicates.Evaluation.Context
import QueryPredicates.Index.Derivation

/-! Collecting index conditions for a table access. Conditions are kept in the order in
which they come, and each expression adds at most one. Callers may build conditions of their
own and add them. -/

namespace QueryPredicates
namespace Access

/-- A column of the access, qualified by its table. -/
def column (a : Access) (name : String) (type : SqlType) : Column :=
  { access := a.id, qualifier := a.table, name, type }

def addCondition (a : Access) (c : IndexCondition) : Access :=
  { a with conditions := a.conditions ++ [c] }

/-- The combined mask of the conditions on a column and of those that never hold. -/
def maskFor (a : Access) (name : String) : ScanMask :=
  (a.conditions.filter fun c => c.isNever || c.column?.any (·.name == name)).foldl
    (fun mask c => mask.union c.mask) {}

end Access

/-- The constant that holds of no row. -/
def Expr.isFalse : Expr → Bool
  | .constant ⟨.bool false, _⟩ => true
  | _ => false

/-- Adds to the access the condition that the expression implies for it, if deriving is
switched on and there is one. -/
def Expr.createConditions (e : Expr) (session : Session) (a : Access) : Noted Access :=
  if !session.settings.deriveConditions then ⟨a, []⟩
  else if e.isFalse then ⟨a.addCondition .never, []⟩
  else
    let derivation := e.derive a
    ⟨derivation.condition?.elim a a.addCondition, derivation.notes e⟩

/-! ## What callers do -/

/-- The ways to build a condition. -/
inductive Construction where
  | compare (op : Operator) (column : Column) (bound : Expr)
  | among (column : Column) (values : List Expr)
  | never
  deriving Repr

def Construction.build : Construction → Except Defect IndexCondition
  | compare op column bound => IndexCondition.ofOperator op column bound
  | among column values => .ok (.among column values)
  | never => .ok .never

/-- What a caller does with an access. A condition that cannot be built is not added. -/
inductive Step where
  | mark (queryComparable : Bool)
  | create (e : Expr) (session : Session)
  | add (construction : Construction)

def Step.apply (a : Access) : Step → Access
  | mark queryComparable => { a with queryComparable }
  | create e session => (e.createConditions session a).value
  | add construction => construction.build.toOption.elim a a.addCondition

def Access.run (a : Access) (steps : List Step) : Access := steps.foldl Step.apply a

end QueryPredicates
