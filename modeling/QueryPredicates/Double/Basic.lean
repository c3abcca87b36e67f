/-! Double-precision numbers as their sixty-four bits. The sign bit and the
magnitude below it are the whole datum: magnitudes order as the numbers do, the
largest finite one is followed by infinity, and everything above infinity is a
NaN. A finite magnitude denotes `significand * 2 ^ scale` exactly. -/

namespace QueryPredicates

structure Double where
  bits : UInt64
  deriving DecidableEq, Repr, Inhabited

namespace Double

def ofParts (negative : Bool) (magnitude : Nat) : Double :=
  ⟨UInt64.ofNat (magnitude + if negative then 1 <<< 63 else 0)⟩

def negative (x : Double) : Bool := 1 <<< 63 ≤ x.bits.toNat

/-- The bits below the sign. -/
def magnitude (x : Double) : Nat := x.bits.toNat % (1 <<< 63)

def infiniteMagnitude : Nat := 2047 <<< 52

def isNaN (x : Double) : Bool := infiniteMagnitude < x.magnitude

def isInfinite (x : Double) : Bool := x.magnitude == infiniteMagnitude

def isFinite (x : Double) : Bool := x.magnitude < infiniteMagnitude

def zero : Double := ofParts false 0

def one : Double := ofParts false (1023 <<< 52)

def infinity (negative : Bool) : Double := ofParts negative infiniteMagnitude

def nan (negative : Bool) : Double := ofParts negative (infiniteMagnitude + (1 <<< 51))

/-- The exponent field, which is zero for a subnormal number. -/
def exponentField (x : Double) : Nat := x.magnitude >>> 52

def significand (x : Double) : Nat :=
  x.magnitude % (1 <<< 52) + if x.exponentField = 0 then 0 else 1 <<< 52

/-- The weight of the last bit of the significand, as a power of two. -/
def scale (x : Double) : Int := (max x.exponentField 1 : Nat) - 1075

theorem bits_toNat (x : Double) :
    x.bits.toNat = x.magnitude + if x.negative then 1 <<< 63 else 0 := by
  have h := x.bits.toNat_lt
  by_cases hs : 1 <<< 63 ≤ x.bits.toNat <;> simp only [magnitude, negative, hs] <;> simp <;> omega

theorem ofParts_parts (x : Double) : ofParts x.negative x.magnitude = x := by
  have h := x.bits_toNat
  simp only [ofParts, ← h, UInt64.ofNat_toNat]

theorem ext_parts {x y : Double} (hs : x.negative = y.negative)
    (hm : x.magnitude = y.magnitude) : x = y := by
  rw [← ofParts_parts x, ← ofParts_parts y, hs, hm]

end Double
end QueryPredicates
