import QueryPredicates.Expr.Basic

/-! Walks over whole expressions: which accesses are read, whether every column can be
evaluated now, and what an evaluation costs relative to others. Costs are thirty-two bit
numbers, so every sum stops at the greatest of them. -/

namespace QueryPredicates

namespace Expr

mutual
/-- Whether a column of `access` occurs. -/
def references (access : AccessId) : Expr → Bool
  | column c => c.access == access
  | comparison _ left right _ => left.references access || right.references access
  | nullTest operand _ => operand.references access
  | inList operand first rest =>
    operand.references access || first.references access || anyReferences access rest
  | constant _ | parameter _ | nextValue _ => false

/-- Whether a column of `access` occurs in one of the expressions. -/
def anyReferences (access : AccessId) : List Expr → Bool
  | [] => false
  | e :: es => e.references access || anyReferences access es
end

mutual
/-- Whether every column has a current row. -/
def isEvaluatable : Expr → Bool
  | column c => c.evaluatable
  | comparison _ left right _ => left.isEvaluatable && right.isEvaluatable
  | nullTest operand _ => operand.isEvaluatable
  | inList operand first rest => operand.isEvaluatable && first.isEvaluatable && allEvaluatable rest
  | constant _ | parameter _ | nextValue _ => true

/-- Whether every column of the expressions has a current row. -/
def allEvaluatable : List Expr → Bool
  | [] => true
  | e :: es => e.isEvaluatable && allEvaluatable es
end

mutual
/-- Sets the flag of every column of `access`. -/
def setEvaluatable (access : AccessId) (flag : Bool) : Expr → Expr
  | column c => column (c.setEvaluatable access flag)
  | comparison op left right whenOperand =>
    comparison op (left.setEvaluatable access flag) (right.setEvaluatable access flag) whenOperand
  | nullTest operand negated => nullTest (operand.setEvaluatable access flag) negated
  | inList operand first rest =>
    inList (operand.setEvaluatable access flag) (first.setEvaluatable access flag)
      (setAllEvaluatable access flag rest)
  | constant c => constant c
  | parameter p => parameter p
  | nextValue s => nextValue s

/-- Sets the flag of every column of `access` in the expressions. -/
def setAllEvaluatable (access : AccessId) (flag : Bool) : List Expr → List Expr
  | [] => []
  | e :: es => e.setEvaluatable access flag :: setAllEvaluatable access flag es
end

def costLimit : Nat := UInt32.size - 1

/-- The sum of two costs, cut off at the limit. -/
def addCosts (a b : Nat) : Nat := min (a + b) costLimit

/-- The sum of two words, or the greatest word if it wraps around. -/
def addWords (a b : UInt32) : UInt32 := if a + b < a then UInt32.ofNat costLimit else a + b

mutual
/-- What an evaluation costs: a column twice a sequence call, each comparison and each
null test as much as one, everything else nothing. -/
def cost : Expr → Nat
  | constant _ | parameter _ => 0
  | nextValue _ => 1
  | column _ => 2
  | comparison _ left right _ => addCosts (addCosts left.cost right.cost) 1
  | nullTest operand _ => addCosts operand.cost 1
  | inList operand first rest => costFrom (addCosts operand.cost first.cost) rest

/-- Adds the costs of the expressions to a cost. -/
def costFrom (sum : Nat) : List Expr → Nat
  | [] => sum
  | e :: es => costFrom (addCosts sum e.cost) es
end

theorem anyReferences_eq_any (access : AccessId) (es : List Expr) :
    anyReferences access es = es.any (references access) := by
  induction es with
  | nil => rfl
  | cons e es ih => simp [anyReferences, ih]

theorem allEvaluatable_eq_all (es : List Expr) : allEvaluatable es = es.all isEvaluatable := by
  induction es with
  | nil => rfl
  | cons e es ih => simp [allEvaluatable, ih]

theorem setAllEvaluatable_eq_map (access : AccessId) (flag : Bool) (es : List Expr) :
    setAllEvaluatable access flag es = es.map (setEvaluatable access flag) := by
  induction es with
  | nil => rfl
  | cons e es ih => simp [setAllEvaluatable, ih]

end Expr

namespace Comparison

def references (access : AccessId) (c : Comparison) : Bool :=
  c.left.references access || c.right.references access

def isEvaluatable (c : Comparison) : Bool := c.left.isEvaluatable && c.right.isEvaluatable

def setEvaluatable (access : AccessId) (flag : Bool) (c : Comparison) : Comparison :=
  { c with
    left := c.left.setEvaluatable access flag
    right := c.right.setEvaluatable access flag }

def cost (c : Comparison) : Nat := Expr.addCosts (Expr.addCosts c.left.cost c.right.cost) 1

def children (c : Comparison) : List Expr := [c.left, c.right]

end Comparison

def NullTest.setEvaluatable (access : AccessId) (flag : Bool) (t : NullTest) : NullTest :=
  { t with operand := t.operand.setEvaluatable access flag }

def InList.setEvaluatable (access : AccessId) (flag : Bool) (l : InList) : InList :=
  { operand := l.operand.setEvaluatable access flag
    first := l.first.setEvaluatable access flag
    rest := Expr.setAllEvaluatable access flag l.rest }

end QueryPredicates
