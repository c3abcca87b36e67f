import QueryPredicates.Geometry.Basic

/-! Bounding boxes. A box is the closed rectangle around the points of a geometry, and
two geometries overlap when their boxes have a point in common; touching edges do.
An empty geometry has no box and overlaps nothing. -/

namespace QueryPredicates

structure Box where
  minX : Double
  minY : Double
  maxX : Double
  maxY : Double
  deriving DecidableEq, Repr, Inhabited

namespace Box

def ofPoint (p : Point) : Box := ⟨p.x, p.y, p.x, p.y⟩

/-- The box that also holds `p`. -/
def extend (b : Box) (p : Point) : Box :=
  ⟨b.minX.least p.x, b.minY.least p.y, b.maxX.greatest p.x, b.maxY.greatest p.y⟩

def overlaps (a b : Box) : Bool :=
  a.minX.atMost b.maxX && b.minX.atMost a.maxX && a.minY.atMost b.maxY && b.minY.atMost a.maxY

theorem overlaps_comm (a b : Box) : a.overlaps b = b.overlaps a := by
  simp only [overlaps]
  cases a.minX.atMost b.maxX <;> cases b.minX.atMost a.maxX <;>
    cases a.minY.atMost b.maxY <;> cases b.minY.atMost a.maxY <;> rfl

end Box

namespace Geometry

def box? (g : Geometry) : Option Box :=
  match g.points with
  | [] => none
  | p :: ps => some (ps.foldl Box.extend (Box.ofPoint p))

def overlaps (g h : Geometry) : Bool :=
  match g.box?, h.box? with
  | some a, some b => a.overlaps b
  | _, _ => false

theorem overlaps_comm (g h : Geometry) : g.overlaps h = h.overlaps g := by
  unfold overlaps
  cases g.box? <;> cases h.box? <;> first | rfl | exact Box.overlaps_comm _ _

end Geometry
end QueryPredicates
