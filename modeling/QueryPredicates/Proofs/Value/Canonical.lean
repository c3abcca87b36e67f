import QueryPredicates.Proofs.Value.Equations
import QueryPredicates.Proofs.Value.Reading

/-! Canonical scalars. Two scalars of one type are equal exactly when they have one canonical form,
which drops the sign of a zero and the case of text that is compared without it. Equal scalars of one
type are converted to equal scalars of any type to which the type is promoted, and to none if one of
them is converted to none. -/

namespace QueryPredicates

/-! ## Doubles and geometries -/

namespace Double

/-- The double with its sign dropped if it is a zero. -/
def canonical (x : Double) : Double := if x.magnitude = 0 then zero else x

theorem rank_eq_iff {x y : Double} : x.rank = y.rank ↔ x.canonical = y.canonical := by
  have hzero : zero.magnitude = 0 := by decide
  have hrank (x : Double) : x.rank = 0 ↔ x.magnitude = 0 := by
    unfold rank
    split <;> omega
  unfold canonical
  by_cases hx : x.magnitude = 0
  · rw [if_pos hx, (hrank x).mpr hx, eq_comm, hrank]
    by_cases hy : y.magnitude = 0
    · rw [if_pos hy]
      exact iff_of_true hy rfl
    · rw [if_neg hy]
      exact iff_of_false hy fun h => hy (h ▸ hzero)
  · rw [if_neg hx]
    by_cases hy : y.magnitude = 0
    · rw [if_pos hy, (hrank y).mpr hy, hrank]
      exact iff_of_false hx fun h => hx (h ▸ hzero)
    · rw [if_neg hy]
      refine ⟨fun h => ?_, fun h => by rw [h]⟩
      unfold rank at h
      refine ext_parts ?_ ?_
      · cases hsx : x.negative <;> cases hsy : y.negative <;> simp [hsx, hsy] at h <;>
          first | rfl | omega
      · split at h <;> split at h <;> omega

theorem totalRank_eq_iff {x y : Double} : x.totalRank = y.totalRank ↔ x = y := by
  refine ⟨fun h => ?_, fun h => by rw [h]⟩
  unfold totalRank at h
  refine ext_parts ?_ ?_
  · cases hsx : x.negative <;> cases hsy : y.negative <;> simp [hsx, hsy] at h <;>
      first | rfl | omega
  · split at h <;> split at h <;> omega

theorem canonical_of_isNaN {x : Double} (h : x.isNaN = true) : x.canonical = x := by
  refine if_neg fun hx => ?_
  rw [isNaN, hx] at h
  exact absurd h (by decide)

/-- A NaN has no other form. -/
theorem eq_canonical_iff {x y : Double} (h : x.isNaN = true) : x = y ↔ x = y.canonical := by
  unfold canonical
  split
  · rename_i hy
    have hzero : zero.isNaN = false := by decide
    refine iff_of_false (fun he => ?_) fun he => ?_
    · rw [he, isNaN, hy] at h
      exact absurd h (by decide)
    · rw [he, hzero] at h
      cases h
  · rfl

/-- Doubles are equal if they are so up to the sign of a zero. -/
theorem order_eq_iff {x y : Double} : x.order y = .eq ↔ x.canonical = y.canonical := by
  unfold order order?
  split
  · rename_i hnan
    rw [Option.getD_none, Std.compare_eq_iff_eq, totalRank_eq_iff]
    rcases Bool.or_eq_true_iff.mp hnan with hx | hy
    · rw [canonical_of_isNaN hx, eq_canonical_iff hx]
    · rw [canonical_of_isNaN hy, eq_comm, eq_canonical_iff hy, eq_comm]
  · rw [Option.getD_some, Std.compare_eq_iff_eq, rank_eq_iff]

end Double

namespace Point

def canonical (p : Point) : Point := ⟨p.x.canonical, p.y.canonical⟩

theorem order_eq_iff {p q : Point} : p.order q = .eq ↔ p.canonical = q.canonical := by
  unfold order canonical
  rw [Ordering.then_eq_eq, Double.order_eq_iff, Double.order_eq_iff, Point.mk.injEq]

end Point

namespace Geometry

def canonical (g : Geometry) : Geometry := ⟨g.shape, g.points.map Point.canonical⟩

theorem orderPoints_eq_iff : ∀ {ps qs : List Point},
    orderPoints ps qs = .eq ↔ ps.map Point.canonical = qs.map Point.canonical
  | [], [] => by simp [orderPoints]
  | [], _ :: _ | _ :: _, [] => by simp [orderPoints]
  | p :: ps, q :: qs => by
    rw [orderPoints, Ordering.then_eq_eq, Point.order_eq_iff, orderPoints_eq_iff, List.map_cons,
      List.map_cons, List.cons.injEq]

theorem order_eq_iff {g h : Geometry} : g.order h = .eq ↔ g.canonical = h.canonical := by
  unfold order canonical
  rw [Ordering.then_eq_eq, orderPoints_eq_iff, Geometry.mk.injEq, Std.compare_eq_iff_eq]
  refine and_congr_left fun _ => ⟨Shape.rank_injective, fun h => ?_⟩
  rw [h]

end Geometry

/-! ## Scalars -/

/-- The types of scalars. -/
def SqlType.isScalar (type : SqlType) : Bool := type.isProper && type != .array && type != .row

namespace Value
open Text

/-- The form that equal scalars of one type share. -/
def canonical : Value → Value
  | double x => double x.canonical
  | textIgnoreCase s => textIgnoreCase (String.ofList (folded s))
  | geometry g => geometry g.canonical
  | v => v

theorem orderScalars_eq_iff {a b : Value} (ha : a.type.isScalar = true) (hb : b.type = a.type) :
    orderScalars a b = some .eq ↔ a.canonical = b.canonical := by
  have hbool (a b : Bool) : a.toNat = b.toNat ↔ a = b := by cases a <;> cases b <;> decide
  cases a <;> cases b <;> first
    | contradiction
    | simp only [orderScalars, canonical, Option.some.injEq, bool.injEq, int.injEq, bigInt.injEq,
        double.injEq, text.injEq, textIgnoreCase.injEq, geometry.injEq, Std.compare_eq_iff_eq,
        Double.order_eq_iff, Geometry.order_eq_iff, Int32.toInt_inj, Int64.toInt_inj,
        String.toList_inj, String.ofList_inj, hbool]

/-- The integers are the big integers that fit in thirty-two bits. -/
theorem toInt_eq_ok_iff {v : Value} {n : Int32} : v.toInt = .ok n ↔ v.toBigInt = .ok n.toInt64 := by
  unfold toInt
  cases v.toBigInt with
  | error e => exact iff_of_false nofun nofun
  | ok wide =>
    have hrange := n.le_toInt
    have hrange' := n.toInt_le
    show (if inInt32 wide.toInt = true then .ok (.ofInt wide.toInt) else _) = Except.ok n ↔ _
    rw [Except.ok.injEq, ← Int64.toInt_inj, Int32.toInt_toInt64]
    by_cases hin : inInt32 wide.toInt = true
    · have hwide : (Int32.ofInt wide.toInt).toInt = wide.toInt := by
        simp only [inInt32, Bool.and_eq_true, decide_eq_true_eq] at hin
        have hmax : Int32.maxValue.toInt < 2 ^ 31 := by decide
        exact Int32.toInt_ofInt_of_le hin.1 (by omega)
      rw [if_pos hin, Except.ok.injEq, ← Int32.toInt_inj, hwide]
    · rw [if_neg hin]
      refine iff_of_false nofun fun hn => hin ?_
      simp [hn, inInt32]
      omega

/-- What is read stays, whatever text the error shows that stands for a failure to read. -/
theorem elim_ok_of_eq {α : Type} {o o' : Option α} {e e' : ConversionError} {x : α} (ho : o = o')
    (h : o.elim (Except.error e) .ok = .ok x) : o'.elim (Except.error e') .ok = .ok x := by
  subst ho
  cases o with
  | none => cases h
  | some y => exact h

theorem map_ok_of_imp {α : Type} {f : α → Value} {m m' : Converted α} {v : Value}
    (hm : ∀ x, m = .ok x → m' = .ok x) (h : f <$> m = .ok v) : f <$> m' = .ok v := by
  cases m with
  | error e => cases h
  | ok x => rwa [hm x rfl]

/-- Texts with one lower case are converted to the same value, or neither is converted. -/
theorem convert_textIgnoreCase {a b : String} (h : folded a = folded b) {target : SqlType}
    {v : Value} (hrank : target ≠ .textIgnoreCase ∧ target ≠ .text ∧ target ≠ .unknown)
    (hscalar : target.isScalar = true) (hv : (textIgnoreCase a).convert target = .ok v) :
    (textIgnoreCase b).convert target = .ok v := by
  have hbool : readBool? (trim a.toList) = readBool? (trim b.toList) :=
    readBool?_readsPlain.trim.eq_of_lowercase h
  have hint := readInt64?_readsPlain.eq_of_lowercase h
  have hdouble := Double.read?_readsPlain.trim.eq_of_lowercase h
  have hgeometry : Geometry.readWkt? a = Geometry.readWkt? b := by
    rw [Geometry.readWkt?_eq, Geometry.readWkt?_eq]
    exact Geometry.readTrimmed?_readsPlain.trim.eq_of_lowercase h
  cases target with
  | unknown | text | textIgnoreCase => simp at hrank
  | null | array | row => cases hscalar
  | boolean =>
    have htoBool (s : String) : (textIgnoreCase s).toBool = (readBool? (trim s.toList)).elim
        (.error (.unsupported (textIgnoreCase s) .boolean)) .ok := rfl
    have hv : bool <$> (textIgnoreCase a).toBool = .ok v := hv
    show bool <$> (textIgnoreCase b).toBool = .ok v
    rw [htoBool] at hv ⊢
    exact map_ok_of_imp (fun _ => elim_ok_of_eq hbool) hv
  | bigInt => exact map_ok_of_imp (fun _ => elim_ok_of_eq hint) hv
  | double => exact map_ok_of_imp (fun _ => elim_ok_of_eq hdouble) hv
  | geometry => exact map_ok_of_imp (fun _ => elim_ok_of_eq hgeometry) hv
  | int =>
    refine map_ok_of_imp (fun n hn => ?_) hv
    exact toInt_eq_ok_iff.mpr (elim_ok_of_eq hint (toInt_eq_ok_iff.mp hn))

/-- Equal scalars of one type are equal when they have been promoted. -/
theorem convert_congr {s p a : Value} {target : SqlType} (hs : s.type.isScalar = true)
    (ht : p.type = s.type) (hup : s.type.common target = target)
    (hscalar : target.isScalar = true) (h : s.canonical = p.canonical)
    (ha : s.convert target = .ok a) :
    ∃ b, p.convert target = .ok b ∧ a.canonical = b.canonical := by
  by_cases hself : s.type = target
  · rw [← hself, convert_self] at ha
    cases ha
    rw [← hself, ← ht]
    exact ⟨p, convert_self p, h⟩
  cases s with
  | null | array _ | row _ => cases hs
  | bool _ | int _ | bigInt _ | text _ =>
    -- the scalars of these types are their own canonical form
    cases p <;> first
      | (cases h; exact ⟨a, ha, rfl⟩)
      | cases ht
  | double x =>
    have hgeometry : target = .geometry := by
      have hother : .double ≠ target := hself
      have hup : SqlType.double.common target = target := hup
      revert hup hscalar hother
      cases target <;> decide
    subst hgeometry
    cases ha
  | geometry g =>
    have hnone : False := by
      have hother : .geometry ≠ target := hself
      have hup : SqlType.geometry.common target = target := hup
      revert hup hscalar hother
      cases target <;> decide
    exact hnone.elim
  | textIgnoreCase r =>
    cases p with
    | textIgnoreCase t =>
      have hfolded : folded r = folded t := String.ofList_inj.mp (textIgnoreCase.inj h)
      refine ⟨a, convert_textIgnoreCase hfolded ?_ hscalar ha, rfl⟩
      refine ⟨Ne.symm hself, ?_, ?_⟩ <;> rintro rfl <;> cases hup
    | _ => cases ht

end Value
end QueryPredicates
