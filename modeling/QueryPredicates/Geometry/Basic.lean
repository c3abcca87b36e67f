import QueryPredicates.Double.Order

/-! Planar geometries as flat point lists: the rings of a polygon and the members of a
multi-part shape are not told apart, because only bounding boxes take part in
comparisons. Geometries are ordered by shape, then point by point, then by length. -/

namespace QueryPredicates

inductive Shape where
  | point
  | multiPoint
  | lineString
  | polygon
  deriving DecidableEq, Repr, Inhabited

namespace Shape

def all : List Shape := [point, multiPoint, lineString, polygon]

def keyword : Shape → String
  | point => "POINT"
  | multiPoint => "MULTIPOINT"
  | lineString => "LINESTRING"
  | polygon => "POLYGON"

def rank : Shape → Nat
  | point => 0
  | multiPoint => 1
  | lineString => 2
  | polygon => 3

theorem rank_injective {s t : Shape} (h : s.rank = t.rank) : s = t := by
  cases s <;> cases t <;> simp_all [rank]

end Shape

structure Point where
  x : Double
  y : Double
  deriving DecidableEq, Repr, Inhabited

namespace Point

def order (p q : Point) : Ordering := (p.x.order q.x).then (p.y.order q.y)

def agrees (p q : Point) : Bool := p.x.agrees q.x && p.y.agrees q.y

end Point

structure Geometry where
  shape : Shape
  points : List Point
  deriving DecidableEq, Repr, Inhabited

namespace Geometry

/-- The first difference of two point lists, else their lengths. -/
def orderPoints : List Point → List Point → Ordering
  | [], [] => .eq
  | [], _ :: _ => .lt
  | _ :: _, [] => .gt
  | p :: ps, q :: qs => (p.order q).then (orderPoints ps qs)

def order (g h : Geometry) : Ordering :=
  (compare g.shape.rank h.shape.rank).then (orderPoints g.points h.points)

def agreePoints : List Point → List Point → Bool
  | [], [] => true
  | p :: ps, q :: qs => p.agrees q && agreePoints ps qs
  | _, _ => false

/-- Equality of shapes and of coordinates as numbers. -/
def agrees (g h : Geometry) : Bool :=
  g.shape == h.shape && agreePoints g.points h.points

end Geometry
end QueryPredicates
