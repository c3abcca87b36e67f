import QueryPredicates.Double.Basic

/-! Rounding between doubles and exact numbers. A quotient of naturals becomes
the nearest double, a tie the one with the even significand, and what exceeds the
finite range is infinite; a finite double becomes the nearest integer, a tie the one
farther from zero. -/

namespace QueryPredicates.Double

/-- The integer nearest to `num / den`; a tie goes to the even neighbour. -/
def nearestEven (num den : Nat) : Nat :=
  let q := num / den
  let twice := 2 * (num % den)
  if den < twice || (twice == den && q % 2 == 1) then q + 1 else q

/-- Measures `num / den` in units of `2 ^ scale`. -/
def inUnits (num den : Nat) (scale : Int) : Nat × Nat :=
  (num <<< (-scale).toNat, den <<< scale.toNat)

/-- The scale at which `num / den` has a significand of fifty-three bits, unless
it is subnormal. -/
def scaleOf (num den : Nat) : Int :=
  let guess : Int := (num.log2 : Int) - den.log2 - 52
  let (n, d) := inUnits num den guess
  max (if n < d <<< 52 then guess - 1 else guess) (-1074)

/-- The double nearest to `num / den`, with the given sign. -/
def ofRatio (negative : Bool) (num den : Nat) : Double :=
  if num = 0 then ofParts negative 0
  else
    let scale := scaleOf num den
    let (n, d) := inUnits num den scale
    let magnitude := ((scale + 1074).toNat <<< 52) + nearestEven n d
    ofParts negative (min magnitude infiniteMagnitude)

def ofInt (n : Int) : Double := ofRatio (n < 0) n.natAbs 1

/-- The quotient of two naturals, each rounded to a double first. -/
def quotient (a b : Nat) : Double :=
  let x := ofInt a
  let y := ofInt b
  ofRatio false (x.significand <<< (x.scale + 1074).toNat) (y.significand <<< (y.scale + 1074).toNat)

/-- The integer nearest to a finite double; a tie goes away from zero. -/
def roundAway (x : Double) : Int :=
  let unit := 1 <<< (-x.scale).toNat
  let n := (2 * (x.significand <<< x.scale.toNat) + unit) / (2 * unit)
  if x.negative then -(n : Int) else n

end QueryPredicates.Double
