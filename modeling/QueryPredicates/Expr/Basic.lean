import QueryPredicates.Expr.Leaf
import QueryPredicates.Operator

/-! Expressions: comparisons, null tests and IN lists over leaves. An IN list holds its
first candidate apart from the others, so it always has one. A comparison that is a
`WHEN` operand is the test of a case branch: its left operand is the case operand, and
no step reorders, replaces or negates it. -/

namespace QueryPredicates

inductive Expr where
  | constant (c : Constant)
  | column (c : Column)
  | parameter (p : Parameter)
  | nextValue (s : Sequence)
  | comparison (op : Comparator) (left right : Expr) (whenOperand : Bool)
  | nullTest (operand : Expr) (negated : Bool)
  | inList (operand first : Expr) (rest : List Expr)
  deriving Repr, Inhabited

structure Comparison where
  op : Comparator
  left : Expr
  right : Expr
  whenOperand : Bool := false
  deriving Repr, Inhabited

structure NullTest where
  operand : Expr
  negated : Bool
  deriving Repr, Inhabited

structure InList where
  operand : Expr
  first : Expr
  rest : List Expr
  deriving Repr, Inhabited

namespace Comparison

def toExpr (c : Comparison) : Expr := .comparison c.op c.left c.right c.whenOperand

/-- The comparison that an operator heads, which a pseudo operator does not. -/
def ofOperator (op : Operator) (left right : Expr) (whenOperand : Bool) :
    Except Defect Comparison := do
  let c ← op.require .headsNoComparison
  return ⟨c, left, right, whenOperand⟩

end Comparison

def NullTest.toExpr (t : NullTest) : Expr := .nullTest t.operand t.negated

namespace InList

def toExpr (l : InList) : Expr := .inList l.operand l.first l.rest

def values (l : InList) : List Expr := l.first :: l.rest

def ofValues (operand : Expr) : List Expr → Except Defect InList
  | [] => .error .noCandidates
  | first :: rest => .ok ⟨operand, first, rest⟩

/-- The list with one more candidate at its end. -/
def pushValue (l : InList) (value : Expr) : InList := { l with rest := l.rest ++ [value] }

end InList

namespace Expr

def ofValue (v : Value) : Expr := constant (.ofValue v)

def ofTruth (t : Truth) : Expr := constant (.ofTruth t)

/-- The truth value unknown. -/
def unknown : Expr := ofTruth .unknown

/-- The NULL literal without a type. -/
def null : Expr := constant (.nullOf .null)

def type : Expr → SqlType
  | constant c => c.type
  | column c => c.type
  | parameter p => p.type
  | nextValue _ => .bigInt
  | comparison .. | nullTest .. | inList .. => .boolean

def constant? : Expr → Option Constant
  | constant c => some c
  | _ => none

def column? : Expr → Option Column
  | column c => some c
  | _ => none

def comparison? : Expr → Option Comparison
  | comparison op left right whenOperand => some ⟨op, left, right, whenOperand⟩
  | _ => none

def inList? : Expr → Option InList
  | inList operand first rest => some ⟨operand, first, rest⟩
  | _ => none

def isConstant (e : Expr) : Bool := e.constant?.isSome

def isNullConstant (e : Expr) : Bool := e.constant?.any Constant.isNull

def isParameter : Expr → Bool
  | parameter _ => true
  | _ => false

/-- Whether the expression needs parentheses of its own as a right operand. -/
def isEnclosed : Expr → Bool
  | inList .. => true
  | _ => false

/-- The operands of a node, in the order in which they are written. -/
def children : Expr → List Expr
  | comparison _ left right _ => [left, right]
  | nullTest operand _ => [operand]
  | inList operand first rest => operand :: first :: rest
  | constant _ | column _ | parameter _ | nextValue _ => []

mutual
/-- How many nodes lie above the deepest leaf. -/
def depth : Expr → Nat
  | comparison _ left right _ => 1 + max left.depth right.depth
  | nullTest operand _ => 1 + operand.depth
  | inList operand first rest => 1 + max operand.depth (max first.depth (depths rest))
  | constant _ | column _ | parameter _ | nextValue _ => 0

/-- The greatest depth among some expressions. -/
def depths : List Expr → Nat
  | [] => 0
  | e :: es => max e.depth (depths es)
end

theorem depth_le_depths {e : Expr} {es : List Expr} (h : e ∈ es) : e.depth ≤ depths es := by
  induction es with
  | nil => simp at h
  | cons f es ih =>
    simp only [depths]
    rcases List.mem_cons.1 h with rfl | h
    · omega
    · have := ih h
      omega

/-- A child is less deep than its parent. -/
theorem depth_lt_of_mem_children {e child : Expr} (h : child ∈ e.children) :
    child.depth < e.depth := by
  cases e with
  | comparison op left right whenOperand =>
    simp only [children, List.mem_cons, List.not_mem_nil, or_false] at h
    rcases h with rfl | rfl <;> simp only [depth] <;> omega
  | nullTest operand negated =>
    simp only [children, List.mem_cons, List.not_mem_nil, or_false] at h
    subst h
    simp only [depth]
    omega
  | inList operand first rest =>
    simp only [children, List.mem_cons] at h
    rcases h with rfl | rfl | h <;> simp only [depth]
    · omega
    · omega
    · have := depth_le_depths h
      omega
  | _ => simp [children] at h

end Expr
end QueryPredicates
