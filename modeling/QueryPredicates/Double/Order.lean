import QueryPredicates.Double.Basic

/-! Two orders on doubles and their union. `order?` compares numbers: the signs of
zero are one, and a NaN is incomparable. `totalRank` orders all bit patterns by sign
and magnitude. `order` takes the first and, where it says nothing, the second, so
a NaN stands above or below every number as its sign bit tells. -/

namespace QueryPredicates.Double

/-- The place of a number among the numbers; equal for both zeros. -/
def rank (x : Double) : Int := if x.negative then -x.magnitude else x.magnitude

/-- The place of a bit pattern among all of them. -/
def totalRank (x : Double) : Int := if x.negative then -x.magnitude - 1 else x.magnitude

def order? (x y : Double) : Option Ordering :=
  if x.isNaN || y.isNaN then none else some (compare x.rank y.rank)

def order (x y : Double) : Ordering :=
  (order? x y).getD (compare x.totalRank y.totalRank)

/-- Numeric equality: false of a NaN, true of the two zeros. -/
def agrees (x y : Double) : Bool := order? x y == some .eq

def atMost (x y : Double) : Bool :=
  match order? x y with
  | some o => o.isLE
  | none => false

/-- The lesser number; a NaN gives way to a number. -/
def least (x y : Double) : Double :=
  if x.isNaN then y
  else if y.isNaN then x
  else if y.rank < x.rank then y else x

/-- The greater number; a NaN gives way to a number. -/
def greatest (x y : Double) : Double :=
  if x.isNaN then y
  else if y.isNaN then x
  else if x.rank < y.rank then y else x

end QueryPredicates.Double
