import QueryPredicates.Proofs.Value.Ranking

/-! Where a NaN stands among the doubles. Two orders are put together there: that of numbers, and where
that says nothing, the one of all bit patterns, which goes by the sign bit first. So a NaN lies beyond all
numbers, whatever its payload is, but on the side that its sign bit tells: it is above them only if the bit
is clear. Doubles in order have NaNs at either end. -/

namespace QueryPredicates
open Value

namespace Double

/-- Which side of the numbers a double is on; they themselves are at zero. -/
def side (x : Double) : Int := if x.isNaN then if x.negative then -1 else 1 else 0

theorem side_of_isNaN {x : Double} (h : x.isNaN = true) :
    x.side = if x.negative then -1 else 1 := if_pos h

theorem side_of_number {x : Double} (h : x.isNaN = false) : x.side = 0 := if_neg (by simp [h])

/-- The numbers and the NaNs on either side of them have ranges of places of their own. -/
theorem place_cases (x : Double) :
    x.side = -1 ∧ x.place < -infiniteMagnitude ∨
      x.side = 0 ∧ -infiniteMagnitude ≤ x.place ∧ x.place ≤ infiniteMagnitude ∨
      x.side = 1 ∧ infiniteMagnitude < x.place := by
  cases hx : x.isNaN with
  | true =>
    have hbeyond : infiniteMagnitude < x.magnitude := of_decide_eq_true hx
    have hplace : x.place = x.totalRank := if_pos hx
    rw [side_of_isNaN hx, hplace, totalRank]
    cases x.negative with
    | true => exact .inl ⟨rfl, by rw [if_pos rfl]; omega⟩
    | false => exact .inr (.inr ⟨rfl, by rw [if_neg Bool.false_ne_true]; omega⟩)
  | false =>
    have hwithin : ¬ infiniteMagnitude < x.magnitude := of_decide_eq_false hx
    have hplace : x.place = x.rank := if_neg (by simp [hx])
    refine .inr (.inl ⟨side_of_number hx, ?_⟩)
    rw [hplace, rank]
    split <;> omega

theorem side_eq_one_iff {x : Double} : x.side = 1 ↔ x.isNaN = true ∧ x.negative = false := by
  unfold side
  cases x.isNaN <;> cases x.negative <;> decide

theorem side_eq_neg_one_iff {x : Double} : x.side = -1 ↔ x.isNaN = true ∧ x.negative = true := by
  unfold side
  cases x.isNaN <;> cases x.negative <;> decide

theorem order_of_side_lt {x y : Double} (h : x.side < y.side) : y.order x = .gt := by
  rw [order_eq_compare_place, Int.compare_eq_gt]
  have hx := x.place_cases
  have hy := y.place_cases
  omega

theorem side_le_of_order {x y : Double} (h : x.order y ≠ .gt) : x.side ≤ y.side :=
  Int.not_lt.mp fun hlt => h (order_of_side_lt hlt)

/-! ## Comparison -/

/-- Every comparison finds the first double the greater one: both orders, whichever side it is on, and all
comparators that ask for them. -/
structure IsAbove (x y : Double) : Prop where
  order : ∀ mode, compareAs mode (double x) (double y) = some .gt ∧
    compareAs mode (double y) (double x) = some .lt
  truth : ∀ c : Comparator, c ≠ .spatialIntersects → c.truth (double x) (double y) =
    .ofBool ([.greater, .greaterOrEqual, .notEqual, .notEqualNullSafe].contains c)

theorem compareAs_double (mode : Mode) (x y : Double) :
    compareAs mode (double x) (double y) = some (x.order y) :=
  (compare_scalars (a := double x) (b := double y) rfl rfl).1 mode

theorem isAbove_iff {x y : Double} : x.IsAbove y ↔ x.order y = .gt := by
  constructor
  · intro h
    have hgreater := (h.order .ordering).1
    rw [compareAs_double] at hgreater
    exact Option.some.inj hgreater
  · intro h
    have hcompare (mode : Mode) : compareAs mode (double x) (double y) = some .gt := by
      rw [compareAs_double, h]
    have hsame : isSame (double x) (double y) = false := by
      rw [(compare_scalars (a := double x) (b := double y) rfl rfl).2, orderScalars, h]
      rfl
    refine ⟨fun mode => ⟨hcompare mode, ?_⟩, fun c hc => ?_⟩
    · rw [compareAs_double, order_swap, h]
      rfl
    · unfold Comparator.truth Comparator.truthUnder
      cases c with
      | spatialIntersects => exact absurd rfl hc
      | equalNullSafe | notEqualNullSafe =>
        simp only [Comparator.question, Hooks.standard, hsame]
        rfl
      | _ =>
        simp only [Comparator.question, Hooks.standard, hcompare]
        rfl

theorem IsAbove.of_side_lt {x y : Double} (h : y.side < x.side) : x.IsAbove y :=
  isAbove_iff.mpr (order_of_side_lt h)

theorem IsAbove.asymm {x y : Double} (h : x.IsAbove y) : ¬ y.IsAbove x := by
  rw [isAbove_iff] at h ⊢
  rw [order_swap, h]
  decide

/-- A NaN is above all numbers exactly if its sign bit is clear, and below them all otherwise. So where
doubles are in order, only NaNs like it stand behind one without the sign bit, and before one with it. -/
theorem nan_apart {n : Double} (hn : n.isNaN = true) :
    (∀ x : Double, x.isNaN = false →
      (n.IsAbove x ↔ n.negative = false) ∧ (x.IsAbove n ↔ n.negative = true)) ∧
    ∀ (mode : Mode) (before after : List Double),
      ((before ++ n :: after).Pairwise fun x y =>
        compareAs mode (double x) (double y) ≠ some .gt) →
        (n.negative = false → ∀ x ∈ after, x.isNaN = true ∧ x.negative = false) ∧
          (n.negative = true → ∀ x ∈ before, x.isNaN = true ∧ x.negative = true) := by
  constructor
  · intro x hx
    cases hsign : n.negative with
    | true =>
      have hlt : n.side < x.side := by
        rw [side_eq_neg_one_iff.mpr ⟨hn, hsign⟩, side_of_number hx]
        decide
      have habove := IsAbove.of_side_lt hlt
      exact ⟨iff_of_false habove.asymm (by decide), iff_of_true habove rfl⟩
    | false =>
      have hlt : x.side < n.side := by
        rw [side_eq_one_iff.mpr ⟨hn, hsign⟩, side_of_number hx]
        decide
      have habove := IsAbove.of_side_lt hlt
      exact ⟨iff_of_true habove rfl, iff_of_false habove.asymm (by decide)⟩
  · intro mode before after h
    have hsides : (before ++ n :: after).Pairwise fun x y => x.side ≤ y.side := by
      refine h.imp fun hxy => side_le_of_order fun hgt => hxy ?_
      rw [compareAs_double, hgt]
    obtain ⟨-, hafter, hbefore⟩ := List.pairwise_append.mp hsides
    constructor
    · intro hsign x hx
      have hle := (List.pairwise_cons.mp hafter).1 x hx
      have hxs := x.place_cases
      rw [side_eq_one_iff.mpr ⟨hn, hsign⟩] at hle
      exact side_eq_one_iff.mp (by omega)
    · intro hsign x hx
      have hle := hbefore x hx n List.mem_cons_self
      have hxs := x.place_cases
      rw [side_eq_neg_one_iff.mpr ⟨hn, hsign⟩] at hle
      exact side_eq_neg_one_iff.mp (by omega)

/-- The two NaNs of the least payload, beyond the infinities. Only a NaN of the same sign stands farther
out in either list. -/
theorem nan_apart_signs :
    let above : Double := ⟨0x7FF0000000000001⟩
    let below : Double := ⟨0xFFF0000000000001⟩
    above.IsAbove (.infinity false) ∧ (Double.infinity true).IsAbove below ∧
      (∀ x ∈ [(⟨0x7FF8000000000000⟩ : Double)], x.isNaN = true ∧ x.negative = false) ∧
      ∀ x ∈ [(⟨0xFFF8000000000000⟩ : Double)], x.isNaN = true ∧ x.negative = true := by
  intro above below
  obtain ⟨habove, hlast⟩ := nan_apart (n := above) (by decide)
  obtain ⟨hbelow, hfirst⟩ := nan_apart (n := below) (by decide)
  have hinfinity : above.IsAbove (.infinity false) := (habove _ (by decide)).1.mpr (by decide)
  have hopposite : (Double.infinity true).IsAbove below := (hbelow _ (by decide)).2.mpr (by decide)
  have hbehind := hlast .ordering [below, .infinity true, .zero] [⟨0x7FF8000000000000⟩] (by decide)
  have hbefore := hfirst .ordering [⟨0xFFF8000000000000⟩] [.infinity true, .zero, above] (by decide)
  exact ⟨hinfinity, hopposite, hbehind.1 (by decide), hbefore.2 (by decide)⟩

/-- Not every NaN is above the numbers. -/
theorem nan_below_zero : ¬ ∀ (n x : Double) (mode : Mode), n.isNaN = true → x.isNaN = false →
    compareAs mode (double n) (double x) = some .gt ∧
      compareAs mode (double x) (double n) = some .lt := by
  intro h
  have hgreater := (h ⟨0xFFF8000000000000⟩ .zero .ordering (by decide) (by decide)).1
  exact absurd hgreater (by decide)

end Double
end QueryPredicates
