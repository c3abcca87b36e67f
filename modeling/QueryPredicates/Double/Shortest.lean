import QueryPredicates.Double.Rounding

/-! The decimal numeral of a finite double: among the decimals that read back as
it, one with the fewest digits, and of those the nearest to it, a tie going up.
For each number of digits from one to seventeen the two neighbours of the double
on that decimal grid are tried, which finds a numeral on the first grid that has one.
-/

namespace QueryPredicates.Double

/-- The number `coefficient * 10 ^ exponent`. -/
structure Numeral where
  coefficient : Nat
  exponent : Int
  deriving DecidableEq, Repr, Inhabited

/-- A positive double and the ends of the interval of reals that round to it,
all three in units of `1 / denominator`; the ends belong to it if `closed`. -/
structure Interval where
  low : Nat
  middle : Nat
  high : Nat
  denominator : Nat
  closed : Bool

def interval (x : Double) : Interval :=
  let m := x.significand
  let unit := 1 <<< (x.scale - 2).toNat
  let below := if m == 1 <<< 52 && 1 < x.exponentField then 1 else 2
  { low := (4 * m - below) * unit
    middle := 4 * m * unit
    high := (4 * m + 2) * unit
    denominator := 1 <<< (2 - x.scale).toNat
    closed := m % 2 == 0 }

/-- Whether `c * step / grid` lies in the interval, where the grid has a point at
each multiple of `step / grid`. -/
def Interval.contains (i : Interval) (c step grid : Nat) : Bool :=
  let point := c * step * i.denominator
  if i.closed then i.low * grid ≤ point && point ≤ i.high * grid
  else i.low * grid < point && point < i.high * grid

/-- The decimal exponent of the leading digit of `num / den`. -/
def leadingExponent (num den : Nat) : Int :=
  let guess : Int := ((Nat.toDigits 10 num).length : Int) - (Nat.toDigits 10 den).length
  if den * Nat.pow 10 guess.toNat ≤ num * Nat.pow 10 (-guess).toNat then guess else guess - 1

/-- The point of the grid `10 ^ exponent` to take for the interval's middle, if one of
its two neighbours there lies in the interval. -/
def Interval.pick? (i : Interval) (exponent : Int) : Option Nat :=
  let step := Nat.pow 10 exponent.toNat
  let grid := Nat.pow 10 (-exponent).toNat
  let c := i.middle * grid / (step * i.denominator)
  let rest := 2 * (i.middle * grid - c * step * i.denominator)
  match i.contains c step grid, i.contains (c + 1) step grid with
  | true, true => some (if rest < step * i.denominator then c else c + 1)
  | true, false => some c
  | false, true => some (c + 1)
  | false, false => none

/-- Moves trailing zeros of the coefficient into the exponent; `fuel` bounds their number. -/
def Numeral.stripped : Nat → Numeral → Numeral
  | 0, n => n
  | fuel + 1, n =>
    if n.coefficient % 10 == 0 then Numeral.stripped fuel ⟨n.coefficient / 10, n.exponent + 1⟩ else n

/-- Tries the grids with `digits`, `digits + 1`, … digits; `fuel` of them. -/
def Interval.search (i : Interval) (leading : Int) : Nat → Nat → Numeral
  | 0, digits => ⟨i.middle / i.denominator, leading - digits⟩
  | fuel + 1, digits =>
    let exponent := leading - digits + 1
    match i.pick? exponent with
    | some c => Numeral.stripped 18 ⟨c, exponent⟩
    | none => i.search leading fuel (digits + 1)

/-- The shortest numeral of the magnitude of a finite double. -/
def shortest (x : Double) : Numeral :=
  if x.magnitude = 0 then ⟨0, 0⟩
  else
    let i := x.interval
    i.search (leadingExponent i.middle i.denominator) 17 1

end QueryPredicates.Double
