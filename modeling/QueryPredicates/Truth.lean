/-! Three-valued truth. A comparison that meets NULL is neither true nor false but
`unknown`; conjunction and disjunction are the strong Kleene ones, so `fails`
decides every conjunction and `holds` every disjunction. -/

namespace QueryPredicates

inductive Truth where
  | holds
  | fails
  | unknown
  deriving DecidableEq, Repr, Inhabited

namespace Truth

def ofBool (b : Bool) : Truth := if b then .holds else .fails

def isUnknown : Truth → Bool
  | unknown => true
  | _ => false

protected def not : Truth → Truth
  | holds => fails
  | fails => holds
  | unknown => unknown

protected def and : Truth → Truth → Truth
  | fails, _ => fails
  | _, fails => fails
  | holds, holds => holds
  | _, _ => unknown

protected def or : Truth → Truth → Truth
  | holds, _ => holds
  | _, holds => holds
  | fails, fails => fails
  | _, _ => unknown

def sql : Truth → String
  | holds => "TRUE"
  | fails => "FALSE"
  | unknown => "UNKNOWN"

@[simp] theorem not_not (a : Truth) : a.not.not = a := by cases a <;> rfl

theorem not_ofBool (b : Bool) : (ofBool b).not = ofBool (!b) := by cases b <;> rfl

end Truth
end QueryPredicates
