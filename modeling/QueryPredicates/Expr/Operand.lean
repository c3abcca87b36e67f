import QueryPredicates.Expr.Basic

/-! Operands by number, and questions about columns that go down from operand to operand. Whoever asks
for all operands of a node by their numbers gets its children, in order; so a question comes to every
leaf, and it ends. -/

namespace QueryPredicates

namespace Comparison

def operandCount (_ : Comparison) : Nat := 2

def operand? (c : Comparison) : Nat → Option Expr
  | 0 => some c.left
  | 1 => some c.right
  | _ => none

end Comparison

namespace Expr

def operandCount : Expr → Nat
  | comparison op left right whenOperand => Comparison.operandCount ⟨op, left, right, whenOperand⟩
  | nullTest .. => 1
  | inList operand first rest => 1 + (InList.mk operand first rest).values.length
  | constant _ | column _ | parameter _ | nextValue _ => 0

/-- The operand with a number. In a list the candidates are numbered from one. -/
def operand? : Expr → Nat → Option Expr
  | comparison op left right whenOperand, i => Comparison.operand? ⟨op, left, right, whenOperand⟩ i
  | nullTest operand _, i => if i = 0 then some operand else none
  | inList operand _ _, 0 => some operand
  | inList operand first rest, i => (InList.mk operand first rest).values[i - 1]?
  | constant _, _ | column _, _ | parameter _, _ | nextValue _, _ => none

theorem operandCount_eq (e : Expr) : e.operandCount = e.children.length := by
  cases e with
  | inList operand first rest => exact Nat.add_comm 1 _
  | _ => rfl

theorem operand?_eq (e : Expr) (i : Nat) : e.operand? i = e.children[i]? := by
  cases e with
  | comparison op left right whenOperand => match i with
    | 0 | 1 | _ + 2 => rfl
  | nullTest operand negated => match i with
    | 0 | _ + 1 => rfl
  | inList operand first rest => match i with
    | 0 | _ + 1 => rfl
  | _ => rfl

/-- The operands that are found under the numbers below their count. -/
def operands (e : Expr) : List Expr := (List.range e.operandCount).filterMap e.operand?

theorem operands_eq_children (e : Expr) : e.operands = e.children := by
  have hall : (List.range e.operandCount).map e.operand? = e.children.map some := by
    refine List.ext_getElem (by simp [operandCount_eq]) fun i hi hi' => ?_
    have hlt : i < e.children.length := by simpa using hi'
    simp [operand?_eq, hlt]
  have hmap (f : Nat → Option Expr) (is : List Nat) :
      is.filterMap f = (is.map f).filterMap id := by
    rw [List.filterMap_map]
    rfl
  rw [operands, hmap, hall, List.filterMap_map]
  exact List.filterMap_some

/-- Answers a question about an expression: of a column by a test, of anything else by what its operands,
taken by number, answer together. -/
def ask (test : Column → Bool) (combine : List Bool → Bool) (e : Expr) : Bool :=
  match e.column? with
  | some c => test c
  | none => combine (e.operands.attach.map fun operand => ask test combine operand.1)
termination_by e.depth
decreasing_by exact depth_lt_of_mem_children (operands_eq_children e ▸ operand.2)

theorem ask_eq (test : Column → Bool) (combine : List Bool → Bool) (e : Expr) :
    e.ask test combine = match e.column? with
      | some c => test c
      | none => combine (e.children.map (ask test combine)) := by
  rw [ask, List.attach_map_val, operands_eq_children]

end Expr
end QueryPredicates
