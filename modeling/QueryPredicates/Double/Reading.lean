import QueryPredicates.Double.Rounding
import QueryPredicates.Text.Digits

/-! Reading doubles from text: an optional sign, then either decimal digits with an
optional point among or beside them and an optional exponent, or one of the words
for infinity and NaN in any case. The result is the double nearest to the exact
decimal, a tie going to the even one. -/

namespace QueryPredicates.Double
open QueryPredicates.Text

/-- The exact decimal `coefficient * 10 ^ exponent` as a double. -/
def ofDecimal (negative : Bool) (coefficient : Nat) (exponent : Int) : Double :=
  let leading := exponent + (Nat.toDigits 10 coefficient).length
  if coefficient = 0 || leading < -400 then ofParts negative 0
  else if 400 < leading then infinity negative
  else ofRatio negative (coefficient * Nat.pow 10 exponent.toNat) (Nat.pow 10 (-exponent).toNat)

/-- The value of an exponent's digits. Once it has reached `2 ^ 16` no further digit counts:
the number is zero or infinite then, unless the coefficient is as long. -/
def exponentValue (digits : List Char) : Nat :=
  digits.foldl (fun n c => if n < 1 <<< 16 then 10 * n + digitValue c else n) 0

/-- Reads the exponent part, which may be absent. -/
def readExponent? : List Char → Option Int
  | [] => some 0
  | c :: cs =>
    let (negative, digits) := sign cs
    if !(c == 'e' || c == 'E') || digits.isEmpty || !digits.all isDigit then none
    else some (if negative then -(exponentValue digits : Int) else exponentValue digits)

def readDecimal? (negative : Bool) (cs : List Char) : Option Double :=
  let whole := cs.takeWhile isDigit
  let rest := cs.dropWhile isDigit
  let (fraction, tail) := match rest with
    | '.' :: after => (after.takeWhile isDigit, after.dropWhile isDigit)
    | _ => ([], rest)
  if whole.isEmpty && fraction.isEmpty then none
  else (readExponent? tail).map fun exponent =>
    ofDecimal negative (value (whole ++ fraction)) (exponent - fraction.length)

def readWord? (negative : Bool) (cs : List Char) : Option Double :=
  let word := cs.map Char.toLower
  if word == "inf".toList || word == "infinity".toList then some (infinity negative)
  else if word == "nan".toList then some (nan negative)
  else none

def read? (cs : List Char) : Option Double :=
  let (negative, unsigned) := sign cs
  (readDecimal? negative unsigned).or (readWord? negative unsigned)

end QueryPredicates.Double
