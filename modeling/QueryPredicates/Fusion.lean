import QueryPredicates.Telemetry.Note

/-! Fusing two equalities that share an operand. Of `a = b AND a = c` follows `b = c`;
`a = 1 OR a = 2` is `a IN(1, 2)`. Operands are taken to be the same if their SQL texts
are. The first never pairs two constants and the second always does. -/

namespace QueryPredicates

/-- An operand in common, and the two that it was compared with. -/
structure SharedOperand where
  shared : Expr
  first : Expr
  second : Expr

namespace Comparison

/-- The four ways in which two comparisons can share an operand, in the order in which
they are tried: by the left or the right side of the first, then of the second. -/
def pairings (a b : Comparison) : List (SharedOperand × Expr) :=
  [(⟨a.left, a.right, b.right⟩, b.left), (⟨a.left, a.right, b.left⟩, b.right),
    (⟨a.right, a.left, b.right⟩, b.left), (⟨a.right, a.left, b.left⟩, b.right)]

/-- The first pairing whose matched operands have one text and whose others are as asked. -/
def pair? (a b : Comparison) (accepts : Expr → Expr → Bool) : Option SharedOperand :=
  ((pairings a b).find? fun (p, matched) =>
    accepts p.first p.second && p.shared.sql == matched.sql).map (·.1)

/-- The equality that follows from the conjunction of two. -/
def transitiveEqual? (a b : Comparison) : Option Comparison :=
  if a.op != .equal || b.op != .equal || a.whenOperand then none
  else (a.pair? b fun x y => !(x.isConstant && y.isConstant)).map fun p =>
    ⟨.equal, p.first, p.second, false⟩

/-- The IN list that the disjunction of two equalities is. -/
def membership? (a b : Comparison) : Option InList :=
  if a.op != .equal || b.op != .equal then none
  else (a.pair? b fun x y => x.isConstant && y.isConstant).map fun p =>
    ⟨p.shared, p.first, [p.second]⟩

/-- The operand of an equality opposite to the one that is written like `e`. -/
def equalPartner? (c : Comparison) (e : Expr) : Option Expr :=
  if c.op != .equal then none
  else if c.left.sql == e.sql then some c.right
  else if c.right.sql == e.sql then some c.left
  else none

def fuseTransitive (a b : Comparison) : Noted (Option Comparison) :=
  match a.transitiveEqual? b with
  | some fused => ⟨some fused, [.event .equalitiesFused, .line (.fusedEquality fused)]⟩
  | none => ⟨none, []⟩

def fuseMembership (a b : Comparison) : Noted (Option InList) :=
  match a.membership? b with
  | some fused => ⟨some fused, [.event .membershipFused, .line (.fusedMembership fused)]⟩
  | none => ⟨none, []⟩

end Comparison
end QueryPredicates
