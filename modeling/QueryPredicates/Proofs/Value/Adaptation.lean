import QueryPredicates.Proofs.Value.Equations

/-! A right operand adapted ahead of time. When the common type of two values is that of
the left one, a comparison would promote the right one alone; so it makes no difference to the
truth of the comparison if that value has been converted before. -/

namespace QueryPredicates
namespace Value

theorem align_convert_right {v w w' : Value} (hw : w.isNull = false)
    (ht : v.type.common w.type = v.type) (h : w.convert v.type = .ok w') :
    align v w' = align v w := by
  have htype : w'.type = v.type := type_convert hw (type_ne_unknown v) h
  have hbefore : align v w = some (v, w') := by
    rw [align_eq_some_iff, ht]
    exact ⟨convert_self v, h⟩
  have hafter : align v w' = some (v, w') := by
    have hself := convert_self w'
    rw [htype] at hself
    rw [align_eq_some_iff, htype, SqlType.common_self]
    exact ⟨convert_self v, hself⟩
  rw [hbefore, hafter]

theorem compareAs_convert_right (mode : Mode) {v w w' : Value} (hv : v.isNull = false)
    (hw : w.isNull = false) (ht : v.type.common w.type = v.type)
    (h : w.convert v.type = .ok w') : compareAs mode v w' = compareAs mode v w := by
  rw [compareAs_eq mode hv hw, compareAs_eq mode hv (isNull_convert hw h),
    align_convert_right hw ht h]

theorem isSame_convert_right {v w w' : Value} (hv : v.isNull = false) (hw : w.isNull = false)
    (ht : v.type.common w.type = v.type) (h : w.convert v.type = .ok w') :
    isSame v w' = isSame v w := by
  rw [isSame_eq hv hw, isSame_eq hv (isNull_convert hw h), align_convert_right hw ht h]

theorem convert_geometry {w : Value} (hw : w.isNull = false) :
    w.convert .geometry = geometry <$> w.toGeometry := by
  cases w <;> first | rfl | cases hw

/-- A value converted to the type of one that denotes a geometry denotes the same geometry. -/
theorem toGeometry_convert {v w w' : Value} {g : Geometry} (hv : v.toGeometry = .ok g)
    (hw : w.isNull = false) (ht : v.type.common w.type = v.type)
    (h : w.convert v.type = .ok w') : w'.toGeometry.toOption = w.toGeometry.toOption := by
  cases v with
  | geometry _ =>
    rw [show (geometry _).type = .geometry from rfl, convert_geometry hw] at h
    cases hg : w.toGeometry with
    | error e =>
      rw [hg] at h
      cases h
    | ok g' =>
      rw [hg] at h
      cases h
      rfl
  | text _ =>
    cases w with
    | null => cases hw
    | text s =>
      cases h
      rfl
    | _ => cases ht
  | textIgnoreCase _ =>
    cases w with
    | null => cases hw
    | text s =>
      cases h
      simp only [toGeometry]
      cases Geometry.readWkt? s <;> rfl
    | textIgnoreCase s =>
      cases h
      rfl
    | _ => cases ht
  | _ => cases hv

end Value

namespace Comparator

theorem overlapTruth_convert_right {v w w' : Value} (hv : v.isNull = false)
    (hw : w.isNull = false) (ht : v.type.common w.type = v.type)
    (h : w.convert v.type = .ok w') : overlapTruth v w' = overlapTruth v w := by
  unfold overlapTruth
  rw [hv, hw, Value.isNull_convert hw h]
  cases hg : v.toGeometry with
  | error e => rfl
  | ok g =>
    have hsame := Value.toGeometry_convert hg hw ht h
    cases hl : w'.toGeometry with
    | error e =>
      cases hr : w.toGeometry with
      | error e' => rfl
      | ok g' =>
        rw [hl, hr] at hsame
        cases hsame
    | ok g' =>
      cases hr : w.toGeometry with
      | error e' =>
        rw [hl, hr] at hsame
        cases hsame
      | ok g'' =>
        rw [hl, hr] at hsame
        cases hsame
        rfl

/-- Converting the right operand to the type of the left one, when the two meet there, does
not change the truth of the comparison. -/
theorem truth_convert_right (c : Comparator) {v w w' : Value} {target : SqlType}
    (hv : v.isNull = true ∨ v.type = target) (ht : target.common w.type = target)
    (h : w.convert target = .ok w') : c.truth v w' = c.truth v w := by
  cases hw : w.isNull with
  | true =>
    rw [Value.isNull_iff.mp hw] at h ⊢
    cases h
    rfl
  | false =>
    have hw' := Value.isNull_convert hw h
    cases hnull : v.isNull with
    | true =>
      rw [Value.isNull_iff.mp hnull]
      cases c with
      | equalNullSafe | notEqualNullSafe =>
        simp only [truth, truthUnder, question, Hooks.standard, Value.isSame_null_left, hw, hw']
      | _ => rw [truth_null_left rfl, truth_null_left rfl]
    | false =>
      rw [hnull] at hv
      obtain rfl : v.type = target := hv.resolve_left Bool.false_ne_true
      cases c with
      | equalNullSafe | notEqualNullSafe =>
        simp only [truth, truthUnder, question, Hooks.standard,
          Value.isSame_convert_right hnull hw ht h]
      | spatialIntersects => exact overlapTruth_convert_right hnull hw ht h
      | _ =>
        simp only [truth, truthUnder, question, Hooks.standard,
          Value.compareAs_convert_right _ hnull hw ht h]

end Comparator
end QueryPredicates
