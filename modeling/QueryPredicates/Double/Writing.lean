import QueryPredicates.Double.Shortest

/-! Writing doubles. Both written forms carry the shortest numeral; they differ in
where an exponent takes over from plain digits and in whether an integer
keeps a `.0`. -/

namespace QueryPredicates.Double

/-- How a numeral is laid out. -/
structure Layout where
  /-- The exponents of the leading digit that are written without an exponent; all of
  them if there is no bound. -/
  positional : Option (Int × Int)
  /-- Whether an integer written positionally ends in `.0`. -/
  keepsPoint : Bool

/-- SQL literals: plain digits from `0.0001` up to below `10 ^ 16`, and always a point
in them. -/
def literal : Layout := ⟨some (-4, 15), true⟩

/-- Coordinates in geometry text: never an exponent, and no point after an integer. -/
def coordinate : Layout := ⟨none, false⟩

def zeros (n : Nat) : List Char := List.replicate n '0'

/-- Writes `digits` with the decimal point after the first `point` of them. -/
def positionalText (keepsPoint : Bool) (digits : List Char) (point : Int) : List Char :=
  if point ≤ 0 then '0' :: '.' :: (zeros (-point).toNat ++ digits)
  else if digits.length ≤ point.toNat then
    digits ++ zeros (point.toNat - digits.length) ++ if keepsPoint then ['.', '0'] else []
  else digits.take point.toNat ++ '.' :: digits.drop point.toNat

def exponentialText (digits : List Char) (exponent : Int) : List Char :=
  let mantissa := match digits with
    | first :: [] => [first]
    | first :: rest => first :: '.' :: rest
    | [] => []
  mantissa ++ 'e' :: (toString exponent).toList

def Layout.numeralText (layout : Layout) (n : Numeral) : List Char :=
  if n.coefficient = 0 then '0' :: if layout.keepsPoint then ['.', '0'] else []
  else
    let digits := Nat.toDigits 10 n.coefficient
    let leading := (digits.length : Int) + n.exponent - 1
    let plain := match layout.positional with
      | some (least, most) => least ≤ leading && leading ≤ most
      | none => true
    if plain then positionalText layout.keepsPoint digits (leading + 1)
    else exponentialText digits leading

def Layout.text (layout : Layout) (x : Double) : String :=
  if x.isNaN then "NaN"
  else
    let body := if x.isInfinite then "inf".toList else layout.numeralText x.shortest
    String.ofList (if x.negative then '-' :: body else body)

end QueryPredicates.Double
