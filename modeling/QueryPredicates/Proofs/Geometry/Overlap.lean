import QueryPredicates.Geometry.Box
import Mathlib.Data.List.Perm.Basic

/-! Bounding boxes as an overlap test. The four sides of a box are gathered one by one along the list of
points, each from the first point on; on numbers each of them ends as a coordinate of some point that lies
beyond no other. So what a box holds depends on nothing but which points there are, and two geometries
overlap exactly if some place in the plane lies in both boxes. Infinities and signed zeros are numbers
here; coordinates that are no numbers are left out. -/

namespace QueryPredicates

namespace Double

theorem atMost_iff {x y : Double} :
    x.atMost y = true ↔ x.isNaN = false ∧ y.isNaN = false ∧ x.rank ≤ y.rank := by
  unfold atMost order?
  cases x.isNaN <;> cases y.isNaN <;> simp [Std.isLE_compare]

theorem atMost_trans {x y z : Double} (hxy : x.atMost y = true) (hyz : y.atMost z = true) :
    x.atMost z = true := by
  obtain ⟨hx, -, hle⟩ := atMost_iff.mp hxy
  obtain ⟨-, hz, hle'⟩ := atMost_iff.mp hyz
  exact atMost_iff.mpr ⟨hx, hz, Int.le_trans hle hle'⟩

/-- Numbers that are equal are at most each other. -/
theorem atMost_of_agrees {x y : Double} (h : x.agrees y = true) :
    x.atMost y = true ∧ y.atMost x = true := by
  unfold agrees order? at h
  split at h
  · cases h
  · rename_i hnan
    obtain ⟨hx, hy⟩ := Bool.or_eq_false_iff.mp (Bool.eq_false_iff.mpr hnan)
    have hrank : x.rank = y.rank := by simpa using h
    exact ⟨atMost_iff.mpr ⟨hx, hy, Int.le_of_eq hrank⟩, atMost_iff.mpr ⟨hy, hx, Int.le_of_eq hrank.symm⟩⟩

/-! ## The extremes of a list -/

/-- Of two numbers `pick` takes the one with the lesser key. -/
def Picks (pick : Double → Double → Double) (key : Double → Int) : Prop :=
  ∀ x y, x.isNaN = false → y.isNaN = false → pick x y = if key y < key x then y else x

theorem picks_least : Picks least rank := fun x y hx hy => by
  rw [least, if_neg (by simp [hx]), if_neg (by simp [hy])]

theorem picks_greatest : Picks greatest fun x => -x.rank := fun x y hx hy => by
  rw [greatest, if_neg (by simp [hx]), if_neg (by simp [hy])]
  simp only [Int.neg_lt_neg_iff]

section

variable {pick : Double → Double → Double} {key : Double → Int} (h : Picks pick key)
include h

theorem Picks.picked {x y : Double} (hx : x.isNaN = false) (hy : y.isNaN = false) :
    (pick x y = x ∨ pick x y = y) ∧ key (pick x y) ≤ key x ∧ key (pick x y) ≤ key y := by
  rw [h x y hx hy]
  split
  · exact ⟨.inr rfl, by omega, Int.le_refl _⟩
  · exact ⟨.inl rfl, Int.le_refl _, by omega⟩

/-- What is gathered along a list of numbers is one of them, and none of them has a lesser key. -/
theorem Picks.foldl {x : Double} {xs : List Double} (hnumbers : ∀ y ∈ x :: xs, y.isNaN = false) :
    xs.foldl pick x ∈ x :: xs ∧ ∀ y ∈ x :: xs, key (xs.foldl pick x) ≤ key y := by
  induction xs generalizing x with
  | nil => exact ⟨List.mem_cons_self, List.forall_mem_singleton.mpr (Int.le_refl _)⟩
  | cons y ys ih =>
    obtain ⟨hx, htail⟩ := List.forall_mem_cons.mp hnumbers
    obtain ⟨hy, hys⟩ := List.forall_mem_cons.mp htail
    obtain ⟨heither, hleft, hright⟩ := h.picked hx hy
    have hpicked : (pick x y).isNaN = false := by
      rcases heither with heq | heq <;> rw [heq] <;> assumption
    obtain ⟨hmem, hleast⟩ := ih (List.forall_mem_cons.mpr ⟨hpicked, hys⟩)
    obtain ⟨hhead, hrest⟩ := List.forall_mem_cons.mp hleast
    rw [List.foldl_cons]
    refine ⟨?_, List.forall_mem_cons.mpr ⟨Int.le_trans hhead hleft,
      List.forall_mem_cons.mpr ⟨Int.le_trans hhead hright, hrest⟩⟩⟩
    rcases List.mem_cons.mp hmem with heq | hmem
    · rw [heq]
      rcases heither with heq | heq <;> simp [heq]
    · exact List.mem_cons_of_mem x (List.mem_cons_of_mem y hmem)

end

/-! ## Extents -/

/-- The number lies between two others, or is one of them. -/
def IsBetween (low high x : Double) : Prop := low.atMost x = true ∧ x.atMost high = true

/-- The numbers lie between two of them. -/
structure IsExtent (low high : Double) (xs : List Double) : Prop where
  low_mem : low ∈ xs
  high_mem : high ∈ xs
  between : ∀ x ∈ xs, IsBetween low high x

theorem isExtent_foldl {x : Double} {xs : List Double} (h : ∀ y ∈ x :: xs, y.isNaN = false) :
    IsExtent (xs.foldl least x) (xs.foldl greatest x) (x :: xs) := by
  obtain ⟨hlow, hleast⟩ := picks_least.foldl h
  obtain ⟨hhigh, hgreatest⟩ := picks_greatest.foldl h
  refine ⟨hlow, hhigh, fun y hy => ⟨?_, ?_⟩⟩
  · exact atMost_iff.mpr ⟨h _ hlow, h y hy, hleast y hy⟩
  · exact atMost_iff.mpr ⟨h y hy, h _ hhigh, Int.neg_le_neg_iff.mp (hgreatest y hy)⟩

namespace IsExtent

variable {low high low' high' : Double} {xs ys : List Double}

/-- What lies in the extent of numbers has one of them on either side. -/
theorem isBetween_iff (h : IsExtent low high xs) {x : Double} : IsBetween low high x ↔
    (∃ y ∈ xs, y.atMost x = true) ∧ ∃ y ∈ xs, x.atMost y = true := by
  constructor
  · rintro ⟨hlow, hhigh⟩
    exact ⟨⟨low, h.low_mem, hlow⟩, high, h.high_mem, hhigh⟩
  · rintro ⟨⟨y, hy, hyx⟩, z, hz, hxz⟩
    exact ⟨atMost_trans (h.between y hy).1 hyx, atMost_trans hxz (h.between z hz).2⟩

/-- Two extents have a number in common if neither begins after the end of the other. -/
theorem exists_isBetween_iff (h : IsExtent low high xs) (h' : IsExtent low' high' ys) :
    (∃ x, IsBetween low high x ∧ IsBetween low' high' x) ↔
      low.atMost high' = true ∧ low'.atMost high = true := by
  constructor
  · rintro ⟨x, ⟨hlow, hhigh⟩, hlow', hhigh'⟩
    exact ⟨atMost_trans hlow hhigh', atMost_trans hlow' hhigh⟩
  · rintro ⟨hends, hends'⟩
    have hself := (h.between low h.low_mem).2
    have hself' := (h'.between low' h'.low_mem).2
    obtain ⟨hnumber, -, -⟩ := atMost_iff.mp hends
    obtain ⟨hnumber', -, -⟩ := atMost_iff.mp hends'
    -- the later of the two beginnings lies in both
    rcases Int.le_total low.rank low'.rank with hle | hle
    · have hlater := atMost_iff.mpr ⟨hnumber, hnumber', hle⟩
      exact ⟨low', ⟨hlater, hends'⟩, (h'.between low' h'.low_mem).1, hself'⟩
    · have hlater := atMost_iff.mpr ⟨hnumber', hnumber, hle⟩
      exact ⟨low, ⟨(h.between low h.low_mem).1, hself⟩, hlater, hends⟩

end IsExtent
end Double

/-! ## Boxes -/

namespace Box

/-- The point lies in the box or on one of its sides. -/
def Holds (b : Box) (p : Point) : Prop :=
  Double.IsBetween b.minX b.maxX p.x ∧ Double.IsBetween b.minY b.maxY p.y

/-- The box holds the points, and each of its sides goes through one of them. -/
structure Fits (b : Box) (points : List Point) : Prop where
  extentX : Double.IsExtent b.minX b.maxX (points.map Point.x)
  extentY : Double.IsExtent b.minY b.maxY (points.map Point.y)

/-- The sides are gathered apart from each other. -/
theorem foldl_extend : ∀ (points : List Point) (b : Box), points.foldl extend b =
    ⟨(points.map Point.x).foldl Double.least b.minX, (points.map Point.y).foldl Double.least b.minY,
      (points.map Point.x).foldl Double.greatest b.maxX,
      (points.map Point.y).foldl Double.greatest b.maxY⟩
  | [], _ => rfl
  | p :: points, b => foldl_extend points (b.extend p)

namespace Fits

variable {a b : Box} {points others : List Point}

theorem holds (h : b.Fits points) {p : Point} (hp : p ∈ points) : b.Holds p :=
  ⟨h.extentX.between p.x (List.mem_map_of_mem hp), h.extentY.between p.y (List.mem_map_of_mem hp)⟩

/-- What the box holds has one of the points on each of its four sides. -/
theorem holds_iff (h : b.Fits points) {p : Point} : b.Holds p ↔
    ((∃ q ∈ points, q.x.atMost p.x = true) ∧ ∃ q ∈ points, p.x.atMost q.x = true) ∧
      (∃ q ∈ points, q.y.atMost p.y = true) ∧ ∃ q ∈ points, p.y.atMost q.y = true := by
  simp only [Holds, h.extentX.isBetween_iff, h.extentY.isBetween_iff, List.mem_map, exists_exists_and_eq_and]

theorem overlaps_iff (ha : a.Fits points) (hb : b.Fits others) :
    a.overlaps b = true ↔ ∃ p, a.Holds p ∧ b.Holds p := by
  have hx := ha.extentX.exists_isBetween_iff hb.extentX
  have hy := ha.extentY.exists_isBetween_iff hb.extentY
  simp only [overlaps, Bool.and_eq_true]
  constructor
  · rintro ⟨⟨⟨hx₁, hx₂⟩, hy₁⟩, hy₂⟩
    obtain ⟨x, hxa, hxb⟩ := hx.mpr ⟨hx₁, hx₂⟩
    obtain ⟨y, hya, hyb⟩ := hy.mpr ⟨hy₁, hy₂⟩
    exact ⟨⟨x, y⟩, ⟨hxa, hya⟩, hxb, hyb⟩
  · rintro ⟨p, ⟨hxa, hya⟩, hxb, hyb⟩
    obtain ⟨hx₁, hx₂⟩ := hx.mp ⟨p.x, hxa, hxb⟩
    obtain ⟨hy₁, hy₂⟩ := hy.mp ⟨p.y, hya, hyb⟩
    exact ⟨⟨⟨hx₁, hx₂⟩, hy₁⟩, hy₂⟩

end Fits
end Box

/-! ## Geometries -/

namespace Geometry

/-- All coordinates are numbers. -/
def IsNumeric (g : Geometry) : Prop := ∀ p ∈ g.points, p.x.isNaN = false ∧ p.y.isNaN = false

instance (g : Geometry) : Decidable g.IsNumeric :=
  inferInstanceAs (Decidable (∀ p ∈ g.points, p.x.isNaN = false ∧ p.y.isNaN = false))

/-- The geometry has a box, and the point lies in it. -/
def Encloses (g : Geometry) (p : Point) : Prop := ∃ b, g.box? = some b ∧ b.Holds p

theorem fits_box? {g : Geometry} {b : Box} (hg : g.IsNumeric) (h : g.box? = some b) :
    b.Fits g.points := by
  obtain ⟨shape, points⟩ := g
  cases points with
  | nil => cases h
  | cons p points =>
    obtain rfl : points.foldl Box.extend (Box.ofPoint p) = b := Option.some.inj h
    rw [Box.foldl_extend]
    constructor
    · refine Double.isExtent_foldl (x := p.x) ?_
      rw [← List.map_cons, List.forall_mem_map]
      exact fun q hq => (hg q hq).1
    · refine Double.isExtent_foldl (x := p.y) ?_
      rw [← List.map_cons, List.forall_mem_map]
      exact fun q hq => (hg q hq).2

theorem exists_box? {g : Geometry} {p : Point} (h : p ∈ g.points) : ∃ b, g.box? = some b := by
  unfold box?
  split
  · rename_i hnone
    rw [hnone] at h
    cases h
  · exact ⟨_, rfl⟩

/-- Whether a geometry encloses a point depends only on which points it has. -/
theorem encloses_iff {g : Geometry} (hg : g.IsNumeric) {p : Point} : g.Encloses p ↔
    ((∃ q ∈ g.points, q.x.atMost p.x = true) ∧ ∃ q ∈ g.points, p.x.atMost q.x = true) ∧
      (∃ q ∈ g.points, q.y.atMost p.y = true) ∧ ∃ q ∈ g.points, p.y.atMost q.y = true := by
  constructor
  · rintro ⟨b, hb, hp⟩
    exact (fits_box? hg hb).holds_iff.mp hp
  · intro h
    obtain ⟨q, hq, -⟩ := h.1.1
    obtain ⟨b, hb⟩ := exists_box? hq
    exact ⟨b, hb, (fits_box? hg hb).holds_iff.mpr h⟩

theorem encloses_of_mem {g : Geometry} (hg : g.IsNumeric) {p : Point} (hp : p ∈ g.points) :
    g.Encloses p := by
  obtain ⟨b, hb⟩ := exists_box? hp
  exact ⟨b, hb, (fits_box? hg hb).holds hp⟩

theorem Encloses.mono {g g' : Geometry} {p : Point} (hg : g.IsNumeric) (hg' : g'.IsNumeric)
    (hsub : g.points ⊆ g'.points) (h : g.Encloses p) : g'.Encloses p := by
  have hmono {P : Point → Prop} : (∃ q ∈ g.points, P q) → ∃ q ∈ g'.points, P q := by
    rintro ⟨q, hq, hP⟩
    exact ⟨q, hsub hq, hP⟩
  obtain ⟨⟨hx₁, hx₂⟩, hy₁, hy₂⟩ := (encloses_iff hg).mp h
  exact (encloses_iff hg').mpr ⟨⟨hmono hx₁, hmono hx₂⟩, hmono hy₁, hmono hy₂⟩

theorem overlaps_iff {g h : Geometry} (hg : g.IsNumeric) (hh : h.IsNumeric) :
    g.overlaps h = true ↔ ∃ p, g.Encloses p ∧ h.Encloses p := by
  unfold overlaps Encloses
  cases hga : g.box? with
  | none => simp
  | some a =>
    cases hhb : h.box? with
    | none => simp
    | some b => simpa using (fits_box? hg hga).overlaps_iff (fits_box? hh hhb)

theorem overlaps_of_agrees {g h : Geometry} (hg : g.IsNumeric) (hh : h.IsNumeric) {p q : Point}
    (hp : p ∈ g.points) (hq : q ∈ h.points) (hpq : p.agrees q = true) : g.overlaps h = true := by
  refine (overlaps_iff hg hh).mpr ⟨p, encloses_of_mem hg hp, (encloses_iff hh).mpr ?_⟩
  obtain ⟨hx, hy⟩ := Bool.and_eq_true_iff.mp hpq
  obtain ⟨hx, hx'⟩ := Double.atMost_of_agrees hx
  obtain ⟨hy, hy'⟩ := Double.atMost_of_agrees hy
  exact ⟨⟨⟨q, hq, hx'⟩, q, hq, hx⟩, ⟨q, hq, hy'⟩, q, hq, hy⟩

theorem overlaps_mono {g g' h h' : Geometry} (hg : g.IsNumeric) (hg' : g'.IsNumeric)
    (hh : h.IsNumeric) (hh' : h'.IsNumeric) (hsub : g.points ⊆ g'.points)
    (hsub' : h.points ⊆ h'.points) (hover : g.overlaps h = true) : g'.overlaps h' = true := by
  obtain ⟨p, hp, hp'⟩ := (overlaps_iff hg hh).mp hover
  exact (overlaps_iff hg' hh').mpr ⟨p, hp.mono hg hg' hsub, hp'.mono hh hh' hsub'⟩

theorem IsNumeric.perm {g g' : Geometry} (hg : g.IsNumeric) (h : g'.points.Perm g.points) :
    g'.IsNumeric := fun p hp => hg p (h.mem_iff.mp hp)

/-- Of geometries whose coordinates are numbers, the box holds every point and has a point on each side;
two of them overlap exactly if both boxes hold some place in the plane. So they overlap if they share a
point, they go on to overlap when points are added to either, and the order of the points is nothing to
it. -/
theorem overlaps_sound {g h : Geometry} (hg : g.IsNumeric) (hh : h.IsNumeric) :
    ((∀ p ∈ g.points, g.Encloses p) ∧ ∀ b, g.box? = some b → b.Fits g.points) ∧
    (g.overlaps h = true ↔ ∃ p, g.Encloses p ∧ h.Encloses p) ∧
    ((∃ p ∈ g.points, ∃ q ∈ h.points, p.agrees q = true) → g.overlaps h = true) ∧
    (∀ g' h' : Geometry, g'.IsNumeric → h'.IsNumeric → g.points ⊆ g'.points →
      h.points ⊆ h'.points → g.overlaps h = true → g'.overlaps h' = true) ∧
    ∀ g' h' : Geometry, g'.points.Perm g.points → h'.points.Perm h.points →
      g'.overlaps h' = g.overlaps h := by
  refine ⟨⟨fun p => encloses_of_mem hg, fun b => fits_box? hg⟩, overlaps_iff hg hh, ?_, ?_, ?_⟩
  · rintro ⟨p, hp, q, hq, hpq⟩
    exact overlaps_of_agrees hg hh hp hq hpq
  · intro g' h' hg' hh' hsub hsub'
    exact overlaps_mono hg hg' hh hh' hsub hsub'
  · intro g' h' hperm hperm'
    have hg' := hg.perm hperm
    have hh' := hh.perm hperm'
    rw [Bool.eq_iff_iff]
    exact ⟨overlaps_mono hg' hg hh' hh hperm.subset hperm'.subset,
      overlaps_mono hg hg' hh hh' hperm.symm.subset hperm'.symm.subset⟩

/-- A line that ends at the negative zero touches one that comes from infinity to the positive one, and
still does with more points and in another order. -/
theorem overlaps_sound_zeros :
    let negativeZero : Point := ⟨⟨0x8000000000000000⟩, ⟨0x8000000000000000⟩⟩
    let corner : Point := ⟨.infinity true, .one⟩
    let far : Point := ⟨.infinity false, .infinity false⟩
    let g : Geometry := ⟨.lineString, [corner, negativeZero]⟩
    let h : Geometry := ⟨.lineString, [far, ⟨.zero, .zero⟩]⟩
    g.overlaps h = true ∧
      Geometry.overlaps ⟨.multiPoint, [negativeZero, corner, far]⟩ h = true ∧
      Geometry.overlaps ⟨.lineString, [negativeZero, corner]⟩ h = g.overlaps h := by
  intro negativeZero corner far g h
  have hg : g.IsNumeric := by decide
  have hh : h.IsNumeric := by decide
  obtain ⟨-, -, hshare, hadd, horder⟩ := overlaps_sound hg hh
  have hover : g.overlaps h = true :=
    hshare ⟨negativeZero, by simp [g], ⟨.zero, .zero⟩, by simp [h], by decide⟩
  refine ⟨hover, hadd _ h (by decide) hh ?_ (List.Subset.refl _) hover, horder _ h ?_ (List.Perm.refl _)⟩
  · simp [g]
  · exact List.Perm.swap _ _ _

end Geometry
end QueryPredicates
