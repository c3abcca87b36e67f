import QueryPredicates.Geometry.Basic
import QueryPredicates.Double.Reading
import QueryPredicates.Double.Writing
import QueryPredicates.Text.Split

/-! Geometry text: a shape keyword followed by `EMPTY` or by a parenthesised list of
coordinate pairs. Reading accepts any case, any blanks, and any further balanced
parentheses inside the outer ones, all of which are flattened; a point needs exactly one
pair. Writing gives one spelling, with a polygon's points in double parentheses. -/

namespace QueryPredicates

/-- The shape that a keyword names, in any ASCII case. -/
def Shape.ofKeyword? (keyword : List Char) : Option Shape :=
  Shape.all.find? fun shape => shape.keyword.toList == keyword.map Char.toUpper

namespace Geometry
open QueryPredicates.Text

/-- Whether every parenthesis closes an open one and none of `depth` stays open. -/
def balanced (depth : Nat) : List Char → Bool
  | [] => depth == 0
  | '(' :: cs => balanced (depth + 1) cs
  | ')' :: cs => match depth with
    | 0 => false
    | d + 1 => balanced d cs
  | _ :: cs => balanced depth cs

def flatten (cs : List Char) : List Char :=
  cs.map fun c => if c == '(' || c == ')' then ' ' else c

/-- Reads one pair: exactly two numbers with blanks between and around them. -/
def readPair? (cs : List Char) : Option Point :=
  match words cs with
  | [x, y] => do
    let x ← Double.read? x
    let y ← Double.read? y
    some ⟨x, y⟩
  | _ => none

/-- Reads what follows the keyword. -/
def readBody? (shape : Shape) (body : List Char) : Option Geometry :=
  if body.map Char.toUpper == "EMPTY".toList then some ⟨shape, []⟩
  else if body.head? == some '(' && body.getLast? == some ')' && balanced 0 body then do
    let points ← (cut (· == ',') (flatten body)).mapM readPair?
    if shape == .point && points.length != 1 then none else some ⟨shape, points⟩
  else none

def endsKeyword (c : Char) : Bool := c == '(' || isBlank c

def readWkt? (source : String) : Option Geometry := do
  let source := trim source.toList
  let shape ← Shape.ofKeyword? (source.takeWhile (!endsKeyword ·))
  readBody? shape (trim (source.dropWhile (!endsKeyword ·)))

def pairText (p : Point) : String :=
  Double.coordinate.text p.x ++ " " ++ Double.coordinate.text p.y

def wkt (g : Geometry) : String :=
  let points := join ", " (g.points.map pairText)
  g.shape.keyword ++
    if g.points.isEmpty then " EMPTY"
    else if g.shape = .polygon then " ((" ++ points ++ "))"
    else " (" ++ points ++ ")"

end Geometry
end QueryPredicates
