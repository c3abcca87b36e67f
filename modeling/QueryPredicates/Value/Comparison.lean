import QueryPredicates.Value.Conversion
import QueryPredicates.Text.Lowercase

/-! Comparing two values. Both are first promoted to their common type; a value that
does not convert, and NULL, compare with nothing. Collections are compared item by item,
in one of two modes: for an order, up to the first items that differ or cannot be
compared; for equality, lengths first, and a difference of any items outweighs items that
cannot be compared. `isSame` is equality that also finds NULL the same as NULL. -/

namespace QueryPredicates

/-- What a comparison of collections is asked for. -/
inductive Mode where
  | equality
  | ordering
  deriving DecidableEq, Repr, Inhabited

namespace Value
open QueryPredicates.Text

/-- Both values in their common type. -/
def align (l r : Value) : Option (Value × Value) :=
  let target := l.type.common r.type
  match l.convert target, r.convert target with
  | .ok a, .ok b => some (a, b)
  | _, _ => none

/-- Text without regard to case. -/
def folded (s : String) : List Char := lowercase s.toList

/-- The order of two scalars of one type. -/
def orderScalars : Value → Value → Option Ordering
  | bool a, bool b => some (compare a.toNat b.toNat)
  | int a, int b => some (compare a.toInt b.toInt)
  | bigInt a, bigInt b => some (compare a.toInt b.toInt)
  | double a, double b => some (a.order b)
  | text a, text b => some (compare a.toList b.toList)
  | textIgnoreCase a, textIgnoreCase b => some (compare (folded a) (folded b))
  | geometry a, geometry b => some (a.order b)
  | _, _ => none

/-- The first items that differ decide; incomparable items before them leave the order
open; else the lengths decide. -/
def orderItems (order : Value → Value → Option Ordering) : List Value → List Value → Option Ordering
  | [], [] => some .eq
  | [], _ :: _ => some .lt
  | _ :: _, [] => some .gt
  | a :: as, b :: bs =>
    match order a b with
    | some .eq => orderItems order as bs
    | other => other

/-- The first items that differ decide; else incomparable items leave equality open. -/
def equateItems (order : Value → Value → Option Ordering) : List Value → List Value → Option Ordering
  | a :: as, b :: bs =>
    match order a b with
    | some .eq => equateItems order as bs
    | some unequal => some unequal
    | none =>
      match equateItems order as bs with
      | some .eq => none
      | other => other
  | _, _ => some .eq

def compareItems (mode : Mode) (order : Value → Value → Option Ordering) (as bs : List Value) :
    Option Ordering :=
  match mode with
  | .ordering => orderItems order as bs
  | .equality =>
    if as.length = bs.length then equateItems order as bs
    else some (compare as.length bs.length)

/-- Compares values whose depths add up to less than the first argument. -/
def compareWithin (mode : Mode) : Nat → Value → Value → Option Ordering
  | 0, _, _ => none
  | n + 1, l, r =>
    if l.isNull || r.isNull then none
    else match align l r with
      | none => none
      | some (array as, array bs) => compareItems mode (compareWithin mode n) as bs
      | some (row as, row bs) => compareItems mode (compareWithin mode n) as bs
      | some (a, b) => orderScalars a b

/-- The order of two values, if they have one. -/
def compareAs (mode : Mode) (l r : Value) : Option Ordering :=
  compareWithin mode (l.depth + r.depth + 1) l r

def sameItems (same : Value → Value → Bool) : List Value → List Value → Bool
  | [], [] => true
  | a :: as, b :: bs => same a b && sameItems same as bs
  | _, _ => false

/-- Decides sameness of values whose depths add up to less than the first argument. -/
def sameWithin : Nat → Value → Value → Bool
  | 0, _, _ => false
  | n + 1, l, r =>
    match l, r with
    | null, null => true
    | null, _ => false
    | _, null => false
    | l, r =>
      match align l r with
      | none => false
      | some (array as, array bs) => sameItems (sameWithin n) as bs
      | some (row as, row bs) => sameItems (sameWithin n) as bs
      | some (a, b) => orderScalars a b == some .eq

/-- Equality that finds NULL the same as NULL and as nothing else, at every depth. -/
def isSame (l r : Value) : Bool := sameWithin (l.depth + r.depth + 1) l r

end Value
end QueryPredicates
