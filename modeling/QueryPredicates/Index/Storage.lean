import QueryPredicates.Index.Access

/-! Index conditions as they are stored: a column, an operator and a bound, each apart from the
others. Building, masking and rendering a condition then assert that they fit, and what does not fit
is a fault. Of the operators only some bound an index; the operator that the assertion sees may be
the reverse of the one that was checked. -/

namespace QueryPredicates
open QueryPredicates.Text

/-- How an operation on a stored condition stops. -/
inductive Fault where
  | defect (d : Defect)
  | inequality
  | incomplete
  deriving DecidableEq, Repr

def Fault.message : Fault → String
  | defect d => d.message
  | inequality => "inequality never bounds an index condition"
  | incomplete => "only the always-false condition lacks a column or bound"

/-- A condition as it is stored. -/
structure Triple where
  column : Option Column
  op : Operator
  bound : Option Bound
  deriving Repr

namespace Triple

/-- `column op bound`, refused unless the operator can bound an index. -/
def compare (op : Operator) (column : Column) (bound : Expr) : Except Fault Triple := do
  let bounds ← op.boundsIndex.mapError .defect
  if bounds then return ⟨some column, op, some (.expr bound)⟩
  else throw (.defect (.boundsNoIndex op))

def among (column : Column) (values : List Expr) : Triple :=
  ⟨some column, .inList, some (.list values)⟩

def never : Triple := ⟨none, .alwaysFalse, none⟩

def mask (t : Triple) : Except Fault ScanMask :=
  match t.op with
  | .alwaysFalse => .ok { alwaysFalse := true }
  | .comparator .equal | .comparator .equalNullSafe | .inList | .inQuery => .ok { equality := true }
  | .comparator .greaterOrEqual | .comparator .greater => .ok { start := true }
  | .comparator .lessOrEqual | .comparator .less => .ok { stop := true }
  | .comparator .spatialIntersects => .ok { spatial := true }
  | .comparator .notEqual | .comparator .notEqualNullSafe => .error .inequality

def sql (t : Triple) : Except Fault String :=
  match t.column, t.bound with
  | none, none => .ok "FALSE"
  | some column, some (.list values) =>
    .ok (column.sql ++ " IN(" ++ join ", " (values.map Expr.sql) ++ ")")
  | some column, some (.expr bound) =>
    if t.op == .comparator .equalNullSafe && bound.isNullConstant then
      .ok (column.sql ++ " IS NULL")
    else do
      let form ← t.op.sql.mapError .defect
      return column.sql ++ " " ++ form ++ " " ++ bound.sql
  | _, _ => .error .incomplete

end Triple

/-- How the condition is stored. -/
def IndexCondition.triple (c : IndexCondition) : Triple := ⟨c.column?, c.operator, c.bound?⟩

/-! ## Deriving -/

/-- A derived condition is shown. -/
def Triple.derived (t : Triple) : Except Fault (Option Triple) := do
  let _ ← t.sql
  return some t

/-- The operator that the predicate has is checked, the one that is stored is asserted. -/
def Access.anchorTriple (a : Access) (own op : Operator) (column : Column) (bound : Expr) :
    Except Fault (Option Triple) := do
  if bound.references a.id then return none
  let bounds ← own.boundsIndex.mapError .defect
  if !bounds then return none
  if column.type != bound.type && bound.type == .textIgnoreCase then return none
  let t ← Triple.compare op column bound
  t.derived

def Comparison.deriveTriple (c : Comparison) (a : Access) : Except Fault (Option Triple) :=
  if c.whenOperand || !a.queryComparable then .ok none
  else match a.ownColumn? c.left, a.ownColumn? c.right with
    | some column, none => a.anchorTriple (.comparator c.op) (.comparator c.op) column c.right
    | none, some column => do
      let reversed ← (Operator.comparator c.op).reverse.mapError .defect
      a.anchorTriple (.comparator c.op) reversed column c.left
    | some _, some _ | none, none => .ok none

def NullTest.deriveTriple (t : NullTest) (a : Access) : Except Fault (Option Triple) :=
  if t.negated || !a.queryComparable then .ok none
  else match a.ownColumn? t.operand with
    | some column => do
      let t ← Triple.compare (.comparator .equalNullSafe) column .null
      t.derived
    | none => .ok none

def InList.deriveTriple (l : InList) (a : Access) : Except Fault (Option Triple) :=
  if !a.queryComparable then .ok none
  else match a.ownColumn? l.operand with
    | some column =>
      if (l.values.findSome? (a.refuses? column)).isSome then .ok none
      else (Triple.among column l.values).derived
    | none => .ok none

/-- What the expression appends. -/
def Expr.appendsTriple (e : Expr) (session : Session) (a : Access) : Except Fault (Option Triple) :=
  if !session.settings.deriveConditions then .ok none
  else match e with
    | .comparison op left right whenOperand =>
      Comparison.deriveTriple ⟨op, left, right, whenOperand⟩ a
    | .nullTest operand negated => NullTest.deriveTriple ⟨operand, negated⟩ a
    | .inList operand first rest => InList.deriveTriple ⟨operand, first, rest⟩ a
    | e => .ok (if e.isFalse then some .never else none)

/-! ## Accesses -/

/-- An access with its conditions as they are stored. -/
structure Store where
  id : AccessId
  table : String
  queryComparable : Bool := true
  conditions : List Triple := []

namespace Store

/-- What deriving reads of it. -/
def access (s : Store) : Access :=
  { id := s.id, table := s.table, queryComparable := s.queryComparable }

def push (s : Store) (t : Triple) : Store := { s with conditions := s.conditions ++ [t] }

def maskFor (s : Store) (name : String) : Except Fault ScanMask :=
  (s.conditions.filter fun t => t.op == .alwaysFalse || t.column.any (·.name == name)).foldlM
    (fun mask t => do return mask.union (← t.mask)) {}

end Store

def Construction.store : Construction → Except Fault Triple
  | compare op column bound => Triple.compare op column bound
  | among column values => .ok (.among column values)
  | never => .ok .never

/-- A caller who builds a condition is stopped where it is refused, and the store stays as it is;
a fault elsewhere is one of the run. -/
def Step.store (s : Store) : Step → Except Fault Store
  | mark queryComparable => .ok { s with queryComparable }
  | create e session => do
    let t? ← e.appendsTriple session s.access
    return t?.elim s s.push
  | add construction => .ok (construction.store.toOption.elim s s.push)

def Store.run (s : Store) (steps : List Step) : Except Fault Store := steps.foldlM Step.store s

/-- How the access is stored. -/
def Access.store (a : Access) : Store where
  id := a.id
  table := a.table
  queryComparable := a.queryComparable
  conditions := a.conditions.map IndexCondition.triple

end QueryPredicates
