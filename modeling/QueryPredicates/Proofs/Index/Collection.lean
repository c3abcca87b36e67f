import QueryPredicates.Index.Access
import QueryPredicates.Proofs.Index.Bounds

/-! Collecting conditions. An access gets its conditions from expressions and from callers who
build them. What one step appends depends on the access only through its identity and whether it
is comparable, so a run appends what its steps append, in their order. Masks are sets of flags: that
of a column has the flags of the conditions that cover the column, in whatever order they came. -/

namespace QueryPredicates

/-! ## Flags of masks -/

inductive ScanMask.Flag where
  | equality
  | start
  | stop
  | spatial
  | alwaysFalse
  deriving DecidableEq, Repr

namespace ScanMask

def has (m : ScanMask) : Flag → Bool
  | .equality => m.equality
  | .start => m.start
  | .stop => m.stop
  | .spatial => m.spatial
  | .alwaysFalse => m.alwaysFalse

@[simp] theorem has_empty (flag : Flag) : has {} flag = false := by cases flag <;> rfl

@[simp] theorem has_union (m n : ScanMask) (flag : Flag) :
    (m.union n).has flag = (m.has flag || n.has flag) := by cases flag <;> rfl

theorem ext_has {m n : ScanMask} (h : ∀ flag, m.has flag = n.has flag) : m = n := by
  obtain ⟨equality, start, stop, spatial, alwaysFalse⟩ := m
  obtain rfl : equality = _ := h .equality
  obtain rfl : start = _ := h .start
  obtain rfl : stop = _ := h .stop
  obtain rfl : spatial = _ := h .spatial
  obtain rfl : alwaysFalse = _ := h .alwaysFalse
  rfl

theorem has_foldl_union (masks : List ScanMask) (m : ScanMask) (flag : Flag) :
    (masks.foldl union m).has flag = (m.has flag || masks.any (·.has flag)) := by
  induction masks generalizing m with
  | nil => simp
  | cons n masks ih => simp [ih, Bool.or_assoc]

end ScanMask

namespace IndexCondition

/-- The condition says something about the column of that name, or about every row. -/
def Covers (c : IndexCondition) (name : String) : Prop :=
  c = never ∨ ∃ column, c.column? = some column ∧ column.name = name

theorem covers_iff {c : IndexCondition} {name : String} :
    c.Covers name ↔ (c.isNever || c.column?.any (·.name == name)) = true := by
  cases c <;> simp [Covers, isNever, column?]

end IndexCondition

namespace Access

/-- The mask of a column has the flags of the conditions that cover the column. -/
theorem maskFor_has {a : Access} {name : String} {flag : ScanMask.Flag} :
    (a.maskFor name).has flag = true ↔
      ∃ c ∈ a.conditions, c.Covers name ∧ c.mask.has flag = true := by
  have hfold : (a.maskFor name).has flag =
      (a.conditions.filter fun c => c.isNever || c.column?.any (·.name == name)).any
        (·.mask.has flag) := by
    rw [maskFor, ← List.foldl_map, ScanMask.has_foldl_union, ScanMask.has_empty, List.any_map]
    rfl
  simp only [hfold, List.any_filter, List.any_eq_true, Bool.and_eq_true, IndexCondition.covers_iff]

/-- A mask does not lose a flag when there are more conditions. -/
theorem maskFor_mono {a b : Access} {name : String} {flag : ScanMask.Flag}
    (hsubset : a.conditions ⊆ b.conditions) (h : (a.maskFor name).has flag = true) :
    (b.maskFor name).has flag = true := by
  obtain ⟨c, hc, hcovers, hflag⟩ := maskFor_has.mp h
  exact maskFor_has.mpr ⟨c, hsubset hc, hcovers, hflag⟩

/-- Nor does it depend on their order. -/
theorem maskFor_perm {a b : Access} (name : String) (h : a.conditions.Perm b.conditions) :
    a.maskFor name = b.maskFor name :=
  ScanMask.ext_has fun _ => Bool.eq_iff_iff.mpr
    ⟨maskFor_mono h.subset, maskFor_mono h.symm.subset⟩

end Access

/-! ## What an expression appends -/

namespace IndexCondition

/-- Whether its comparator, if it has one, can bound an index. -/
def boundsIndex : IndexCondition → Bool
  | compare op _ _ => op.boundsIndex
  | among _ _ | never => true

theorem ofOperator_comparator (op : Comparator) (column : Column) (bound : Expr) :
    ofOperator (.comparator op) column bound =
      if op.boundsIndex then .ok (compare op column bound)
      else .error (.boundsNoIndex (.comparator op)) := rfl

theorem ofOperator_eq_ok {op : Operator} {column : Column} {bound : Expr} {c : IndexCondition}
    (h : ofOperator op column bound = .ok c) :
    ∃ o : Comparator, op = .comparator o ∧ o.boundsIndex = true ∧ c = compare o column bound := by
  cases op with
  | comparator o =>
    rw [ofOperator_comparator] at h
    split at h
    · rename_i ho
      cases h
      exact ⟨o, rfl, ho, rfl⟩
    · cases h
  | _ => cases h

end IndexCondition

namespace Expr

theorem derive_of_not_comparable (e : Expr) {a : Access} (h : a.queryComparable = false) :
    e.derive a = .silent := by
  cases e <;> simp [derive, Comparison.derive, NullTest.derive, InList.derive, h]

theorem comparable_of_derive {e : Expr} {a : Access} {c : IndexCondition}
    (h : (e.derive a).condition? = some c) : a.queryComparable = true := by
  by_contra hcomparable
  rw [e.derive_of_not_comparable (Bool.eq_false_iff.mpr hcomparable)] at h
  cases h

theorem boundsIndex_of_derive {e : Expr} {a : Access} {c : IndexCondition}
    (h : (e.derive a).condition? = some c) : c.boundsIndex = true := by
  cases e with
  | comparison op left right whenOperand =>
    obtain ⟨column, -, hanchors, rfl⟩ | ⟨column, -, hanchors, rfl⟩ :=
      Comparison.derive_condition? h
    · exact hanchors.boundsIndex
    · exact hanchors.boundsIndex
  | nullTest operand negated =>
    obtain ⟨-, column, -, hanchors, rfl⟩ := NullTest.derive_condition? h
    exact hanchors.boundsIndex
  | inList operand first rest =>
    obtain ⟨column, -, -, -, rfl⟩ := InList.derive_condition? h
    rfl
  | _ => cases h

/-- The condition that the expression appends. -/
def appends? (e : Expr) (session : Session) (a : Access) : Option IndexCondition :=
  if !session.settings.deriveConditions then none
  else if e.isFalse then some .never
  else (e.derive a).condition?

theorem createConditions_value (e : Expr) (session : Session) (a : Access) :
    (e.createConditions session a).value =
      { a with conditions := a.conditions ++ (e.appends? session a).toList } := by
  unfold createConditions appends?
  split
  · simp
  · split
    · rfl
    · simp only
      cases (e.derive a).condition? with
      | none => simp
      | some c => rfl

/-- What an expression appends is the condition that never holds or the derived one, and deriving is
switched on. -/
theorem appends?_eq_some {e : Expr} {session : Session} {a : Access} {c : IndexCondition}
    (h : e.appends? session a = some c) :
    session.settings.deriveConditions = true ∧
      (c = .never ∨ (e.derive a).condition? = some c) := by
  unfold appends? at h
  split at h
  · cases h
  · rename_i hderive
    refine ⟨by simpa using hderive, ?_⟩
    split at h
    · exact .inl (Option.some.inj h).symm
    · exact .inr h

end Expr

/-! ## Runs -/

theorem Construction.boundsIndex_of_build {construction : Construction} {c : IndexCondition}
    (h : construction.build = .ok c) : c.boundsIndex = true := by
  cases construction with
  | compare op column bound =>
    obtain ⟨o, -, ho, rfl⟩ := IndexCondition.ofOperator_eq_ok h
    exact ho
  | among column values => cases h; rfl
  | never => cases h; rfl

namespace Step

def isAddition : Step → Bool
  | mark _ => false
  | create _ _ | add _ => true

/-- The condition that the step appends. -/
def appends? (a : Access) : Step → Option IndexCondition
  | mark _ => none
  | create e session => e.appends? session a
  | add construction => construction.build.toOption

/-- Whether the access is comparable after the step. -/
def comparable (a : Access) : Step → Bool
  | mark queryComparable => queryComparable
  | create _ _ | add _ => a.queryComparable

/-- What a step does: it may mark the access, and appends at most one condition. -/
theorem apply_eq (a : Access) (s : Step) : s.apply a = { a with
    queryComparable := s.comparable a
    conditions := a.conditions ++ (s.appends? a).toList } := by
  cases s with
  | mark queryComparable => simp [apply, comparable, appends?]
  | create e session => exact Expr.createConditions_value e session a
  | add construction =>
    simp only [apply, comparable, appends?]
    cases construction.build.toOption <;> simp [Access.addCondition]

theorem comparable_of_isAddition {s : Step} (a : Access) (h : s.isAddition = true) :
    s.comparable a = a.queryComparable := by
  cases s with
  | mark queryComparable => cases h
  | _ => rfl

/-- What was collected before does not matter. -/
theorem appends?_conditions (a : Access) (cs : List IndexCondition) (s : Step) :
    s.appends? { a with conditions := cs } = s.appends? a := by
  cases s with
  | create e session => cases e <;> rfl
  | _ => rfl

theorem boundsIndex_of_appends? {a : Access} {s : Step} {c : IndexCondition}
    (h : s.appends? a = some c) : c.boundsIndex = true := by
  cases s with
  | mark queryComparable => cases h
  | create e session =>
    obtain ⟨-, rfl | hderive⟩ := Expr.appends?_eq_some h
    · rfl
    · exact Expr.boundsIndex_of_derive hderive
  | add construction =>
    refine construction.boundsIndex_of_build ?_
    simp only [appends?] at h
    cases hbuild : construction.build with
    | error defect => rw [hbuild] at h; cases h
    | ok d => rw [hbuild] at h; cases h; rfl

end Step

namespace Access

theorem run_id (a : Access) (steps : List Step) : (a.run steps).id = a.id := by
  induction steps generalizing a with
  | nil => rfl
  | cons s steps ih => exact (ih (s.apply a)).trans (by rw [s.apply_eq])

/-- A run keeps the conditions that there were. -/
theorem conditions_prefix_run (a : Access) (steps : List Step) :
    a.conditions <+: (a.run steps).conditions := by
  induction steps generalizing a with
  | nil => exact List.prefix_rfl
  | cons s steps ih =>
    have hstep : a.conditions <+: (s.apply a).conditions := by
      rw [s.apply_eq]
      exact List.prefix_append _ _
    exact hstep.trans (ih (s.apply a))

theorem run_of_additions {a : Access} {steps : List Step} (h : ∀ s ∈ steps, s.isAddition = true) :
    a.run steps = { a with conditions := a.conditions ++ steps.filterMap (Step.appends? a) } := by
  induction steps generalizing a with
  | nil => simp [run]
  | cons s steps ih =>
    obtain ⟨hs, hsteps⟩ := List.forall_mem_cons.mp h
    have hstep : s.apply a = { a with conditions := a.conditions ++ (s.appends? a).toList } := by
      rw [s.apply_eq, Step.comparable_of_isAddition a hs]
    have hrest : steps.filterMap (Step.appends? (s.apply a)) = steps.filterMap (Step.appends? a) := by
      rw [hstep]
      exact List.filterMap_congr fun s _ => s.appends?_conditions a _
    change (s.apply a).run steps = _
    rw [ih hsteps, hrest, hstep]
    cases happends : s.appends? a <;> simp [happends]

theorem boundsIndex_of_mem_run {a : Access} (steps : List Step)
    (h : ∀ c ∈ a.conditions, c.boundsIndex = true) :
    ∀ c ∈ (a.run steps).conditions, c.boundsIndex = true := by
  induction steps generalizing a with
  | nil => exact h
  | cons s steps ih =>
    refine ih fun c hc => ?_
    rw [s.apply_eq, List.mem_append, Option.mem_toList] at hc
    exact hc.elim (h c) Step.boundsIndex_of_appends?

theorem maskFor_run_perm {a : Access} {steps steps' : List Step} (name : String)
    (hperm : steps.Perm steps') (h : ∀ s ∈ steps, s.isAddition = true) :
    (a.run steps).maskFor name = (a.run steps').maskFor name := by
  rw [run_of_additions h, run_of_additions fun s hs => h s (hperm.mem_iff.mpr hs)]
  exact maskFor_perm name ((hperm.filterMap _).append_left a.conditions)

end Access
end QueryPredicates
