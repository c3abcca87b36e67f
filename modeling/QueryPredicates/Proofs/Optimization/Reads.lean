import QueryPredicates.Proofs.Expr.Flags
import QueryPredicates.Proofs.Expr.Leaves
import QueryPredicates.Proofs.Optimization.Pass
import QueryPredicates.Proofs.Optimization.Equations
import Mathlib.Data.List.Perm.Subperm

/-! What the pass does to the leaves and to the flags. Turning a comparison exchanges the leaves of its
operands, and settling it, like simplifying a null test or a list, drops some; no step makes a new one or
uses one twice. The flag of a column is looked at by no step, so it can be set before the pass or after. -/

namespace QueryPredicates

/-! ## Leaves -/

theorem Expr.leaves_ofTruth (t : Truth) : (ofTruth t).leaves = [] := rfl

namespace Comparison

theorem leaves_oriented (c : Comparison) : c.oriented.toExpr.leaves.Perm c.toExpr.leaves := by
  unfold oriented
  split
  · simp only [toExpr, Expr.leaves_comparison]
    exact List.perm_append_comm
  · exact .refl _

/-- A constant is not read, and a parameter is one whatever its type is. -/
theorem leaves_adapted {c d : Comparison} (h : c.adapted = .ok d) :
    d.toExpr.leaves = c.toExpr.leaves := by
  obtain ⟨op, left, right, whenOperand⟩ := c
  obtain ⟨column, k, k', rfl, rfl, -, rfl⟩ | ⟨column, p, rfl, rfl, rfl⟩ | ⟨-, rfl⟩ :=
    adapted_cases h <;> rfl

theorem leaves_settled (c : Comparison) : c.settled.leaves.Sublist c.toExpr.leaves := by
  obtain ⟨a, b, -, -, hs⟩ | ⟨-, ⟨-, -, hs⟩ | ⟨-, -, -, hs⟩ | ⟨-, hs⟩⟩ := c.settled_cases
  · rw [hs, Expr.leaves_ofTruth]
    exact List.nil_sublist _
  · rw [hs]
    exact List.nil_sublist _
  · rw [hs, toExpr, Expr.leaves_nullTest, Expr.leaves_comparison]
    unfold besideNull
    split
    · exact List.sublist_append_right _ _
    · exact List.sublist_append_left _ _
  · rw [hs]

theorem leaves_simplified {c : Comparison} {e : Expr} (h : c.simplified = .ok e) :
    e.leaves.Subperm c.toExpr.leaves := by
  obtain ⟨-, ⟨-, rfl⟩ | ⟨-, d, hd, rfl⟩⟩ := simplified_cases h
  · exact .refl _
  · have hsub : d.settled.leaves.Subperm d.toExpr.leaves := d.leaves_settled.subperm
    rw [leaves_adapted hd] at hsub
    exact hsub.trans c.leaves_oriented.subperm

end Comparison

theorem NullTest.leaves_simplified (t : NullTest) :
    t.simplified.leaves.Sublist t.toExpr.leaves := by
  unfold simplified
  split
  · exact List.nil_sublist _
  · exact .refl _

theorem InList.leaves_simplified (l : InList) :
    l.simplified.leaves.Sublist l.toExpr.leaves := by
  unfold simplified
  split
  · exact List.nil_sublist _
  · split
    · exact List.nil_sublist _
    · exact .refl _

namespace Expr

theorem subperm_flatMap {es es' : List Expr}
    (h : List.Forall₂ (fun e e' => e'.leaves.Subperm e.leaves) es es') :
    (es'.flatMap leaves).Subperm (es.flatMap leaves) := by
  induction h with
  | nil => exact .refl _
  | cons hhead _ ih => exact hhead.append ih

/-- The pass reads no leaf that the expression does not read, and none more often. -/
theorem leaves_simplified {e e' : Expr} (h : e.simplified = .ok e') :
    e'.leaves.Subperm e.leaves := by
  refine simplified_induction_once (P := fun e e' => e'.leaves.Subperm e.leaves) ?_ ?_ ?_ ?_ ?_ h
  · intro e _
    exact .refl _
  · rintro op left right whenOperand left' right' e' ⟨-, hl⟩ ⟨-, hr⟩ he
    have hnode := Comparison.leaves_simplified he
    rw [Comparison.toExpr, leaves_comparison] at hnode
    rw [leaves_comparison]
    exact hnode.trans (hl.append hr)
  · rintro operand negated operand' ⟨-, ho⟩
    have hnode := (NullTest.leaves_simplified ⟨operand', negated⟩).subperm
    rw [NullTest.toExpr, leaves_nullTest] at hnode
    rw [leaves_nullTest]
    exact hnode.trans ho
  · intro operand first e' he
    rw [leaves_comparison] at he
    rw [leaves_inList]
    simpa using he
  · rintro operand first rest operand' first' rest' _ ⟨-, ho⟩ ⟨-, hf⟩ hrest
    have hnode := (InList.leaves_simplified ⟨operand', first', rest'⟩).subperm
    rw [InList.toExpr, leaves_inList] at hnode
    rw [leaves_inList]
    have hcandidates := subperm_flatMap (.cons hf (hrest.imp fun _ _ he => he.2))
    exact hnode.trans (ho.append hcandidates)

end Expr

/-! ## Flags -/

theorem Except.mapM_map {ε α β γ : Type} (f : α → Except ε β) (g : β → γ) (as : List α) :
    as.mapM (fun a => g <$> f a) = List.map g <$> as.mapM f := by
  induction as with
  | nil => rfl
  | cons a as ih =>
    rw [List.mapM_cons, List.mapM_cons, ih]
    cases f a with
    | error e => rfl
    | ok b => cases as.mapM f <;> rfl

section Flags

variable (access : AccessId) (flag : Bool)

namespace Comparison

theorem oriented_setEvaluatable (c : Comparison) :
    (c.setEvaluatable access flag).oriented = c.oriented.setEvaluatable access flag := by
  have hturned : isTurned (c.setEvaluatable access flag).left
      (c.setEvaluatable access flag).right = isTurned c.left c.right := by
    simp [isTurned, setEvaluatable]
  unfold oriented
  rw [hturned]
  split <;> rfl

/-- A constant or a parameter is adapted to the type of a column, whatever the flag of the column is. -/
theorem adapted_setEvaluatable (c : Comparison) :
    (c.setEvaluatable access flag).adapted = (·.setEvaluatable access flag) <$> c.adapted := by
  obtain ⟨op, left, right, whenOperand⟩ := c
  cases left with
  | column column =>
    cases right with
    | constant k =>
      simp only [setEvaluatable, Expr.setEvaluatable, adapted, Column.type_setEvaluatable]
      cases adaptedConstant k column.type <;> rfl
    | parameter p =>
      simp only [setEvaluatable, Expr.setEvaluatable, adapted, Column.type_setEvaluatable]
      rfl
    | _ => rfl
  | _ => rfl

theorem besideNull_setEvaluatable (c : Comparison) :
    (c.setEvaluatable access flag).besideNull = c.besideNull.setEvaluatable access flag := by
  unfold besideNull
  simp only [setEvaluatable, Expr.isNullConstant_setEvaluatable]
  split <;> rfl

theorem settled_setEvaluatable (c : Comparison) :
    (c.setEvaluatable access flag).settled = c.settled.setEvaluatable access flag := by
  have hnull : (c.setEvaluatable access flag).settledNull =
      c.settledNull.setEvaluatable access flag := by
    unfold settledNull
    rw [besideNull_setEvaluatable, Expr.type_setEvaluatable, apply_ite (Expr.setEvaluatable access flag),
      apply_ite (Expr.setEvaluatable access flag)]
    rfl
  unfold settled
  rw [hnull]
  simp only [setEvaluatable, Expr.constant?_setEvaluatable, Expr.isNullConstant_setEvaluatable]
  split
  · rfl
  · rw [apply_ite (Expr.setEvaluatable access flag)]
    rfl

theorem simplified_setEvaluatable (c : Comparison) :
    (c.setEvaluatable access flag).simplified =
      Expr.setEvaluatable access flag <$> c.simplified := by
  have hmismatched : (c.setEvaluatable access flag).isMismatched = c.isMismatched := by
    simp only [isMismatched, setEvaluatable, Expr.type_setEvaluatable]
  unfold simplified
  rw [hmismatched, oriented_setEvaluatable, adapted_setEvaluatable]
  split
  · simp only [setEvaluatable, Expr.type_setEvaluatable]
    rfl
  · rw [show (c.setEvaluatable access flag).whenOperand = c.whenOperand from rfl]
    split
    · rfl
    · cases c.oriented.adapted with
      | error e => rfl
      | ok d => exact congrArg Except.ok (settled_setEvaluatable access flag d)

end Comparison

theorem NullTest.simplified_setEvaluatable (t : NullTest) :
    (t.setEvaluatable access flag).simplified = t.simplified.setEvaluatable access flag := by
  obtain ⟨operand, negated⟩ := t
  cases operand <;> rfl

namespace InList

theorem values_setEvaluatable (l : InList) :
    (l.setEvaluatable access flag).values = l.values.map (Expr.setEvaluatable access flag) := by
  simp only [values, setEvaluatable, Expr.setAllEvaluatable_eq_map, List.map_cons]

/-- There is no column among constants. -/
theorem setEvaluatable_of_constants {l : InList}
    (h : (l.operand.isConstant && l.values.all Expr.isConstant) = true) :
    l.setEvaluatable access flag = l := by
  obtain ⟨operand, first, rest⟩ := l
  simp only [values, List.all_cons, Bool.and_eq_true, List.all_eq_true] at h
  obtain ⟨ho, hf, hrest⟩ := h
  have hcandidates : rest.map (Expr.setEvaluatable access flag) = rest :=
    (List.map_congr_left fun e he => Expr.setEvaluatable_of_isConstant access flag (hrest e he)).trans
      (List.map_id rest)
  simp only [setEvaluatable, Expr.setEvaluatable_of_isConstant access flag ho,
    Expr.setEvaluatable_of_isConstant access flag hf, Expr.setAllEvaluatable_eq_map, hcandidates]

theorem simplified_setEvaluatable (l : InList) :
    (l.setEvaluatable access flag).simplified = l.simplified.setEvaluatable access flag := by
  by_cases hconstants : (l.operand.isConstant && l.values.all Expr.isConstant) = true
  · rw [setEvaluatable_of_constants access flag hconstants]
    refine (Expr.setEvaluatable_of_isConstant access flag ?_).symm
    unfold simplified
    rw [if_pos hconstants]
    split <;> rfl
  · have hoperand : (l.setEvaluatable access flag).operand = l.operand.setEvaluatable access flag := rfl
    have hflags : ((l.setEvaluatable access flag).operand.isConstant &&
        (l.setEvaluatable access flag).values.all Expr.isConstant) =
          (l.operand.isConstant && l.values.all Expr.isConstant) := by
      simp [hoperand, values_setEvaluatable, Function.comp_def]
    unfold simplified
    rw [hflags, if_neg hconstants, if_neg hconstants, hoperand, Expr.isNullConstant_setEvaluatable,
      apply_ite (Expr.setEvaluatable access flag)]
    rfl

end InList

namespace Expr

theorem simplifiedWithin_setEvaluatable (n : Nat) (e : Expr) :
    simplifiedWithin n (e.setEvaluatable access flag) =
      setEvaluatable access flag <$> simplifiedWithin n e := by
  induction n generalizing e with
  | zero => cases e <;> rfl
  | succ n ih =>
    cases e with
    | comparison op left right whenOperand =>
      simp only [setEvaluatable, simplifiedWithin, ih, bind_map_left, map_bind,
        ← Comparison.simplified_setEvaluatable]
      rfl
    | nullTest operand negated =>
      simp only [setEvaluatable, simplifiedWithin, ih, bind_map_left, map_bind, map_pure,
        ← NullTest.simplified_setEvaluatable]
      rfl
    | inList operand first rest =>
      have hrest : (rest.map (setEvaluatable access flag)).mapM (simplifiedWithin n) =
          List.map (setEvaluatable access flag) <$> rest.mapM (simplifiedWithin n) := by
        rw [List.mapM_map, ← Except.mapM_map]
        exact congrArg (List.mapM · rest) (funext ih)
      simp only [setEvaluatable, setAllEvaluatable_eq_map, simplifiedWithin, ih, hrest,
        bind_map_left, map_bind]
      refine bind_congr fun operand' => bind_congr fun first' => bind_congr fun rest' => ?_
      rw [List.isEmpty_map]
      split
      · simp only [map_bind, ← Comparison.simplified_setEvaluatable]
        rfl
      · simp only [map_pure, ← InList.simplified_setEvaluatable, InList.setEvaluatable,
          setAllEvaluatable_eq_map]
    | _ => rfl

theorem simplified_setEvaluatable (e : Expr) :
    (e.setEvaluatable access flag).simplified = setEvaluatable access flag <$> e.simplified := by
  unfold simplified
  rw [depth_setEvaluatable]
  exact simplifiedWithin_setEvaluatable access flag e.depth e

end Expr
end Flags

/-! ## The pass -/

namespace Expr

/-- What the pass returns has no leaf that the expression does not have, and none more often, so it refers
to no other access. And with any flags set before, the pass succeeds as without, and returns what it
returns without them with the same flags set. -/
theorem optimize_reads (session : Session) (counters : Counters) (e : Expr) :
    (∀ e', (e.optimize session counters).outcome = .ok e' →
      e'.leaves.Subperm e.leaves ∧
      ∀ access, e'.references access = true → e.references access = true) ∧
    ∀ access flag, ((e.setEvaluatable access flag).optimize session counters).outcome =
      (e.optimize session counters).outcome.map (setEvaluatable access flag) := by
  refine ⟨fun e' h => ?_, fun access flag => ?_⟩
  · have hleaves := leaves_simplified (((optimize_yields session e).outcome_iff counters).mp h)
    refine ⟨hleaves, fun access haccess => ?_⟩
    obtain ⟨c, hc, hown⟩ := references_iff.mp haccess
    exact references_iff.mpr ⟨c, hleaves.subset hc, hown⟩
  · rw [(optimize_yields session (e.setEvaluatable access flag) counters).1,
      (optimize_yields session e counters).1]
    exact simplified_setEvaluatable access flag e

/-- `(?1 = T.A) IN (NEXT VALUE FOR S)` becomes `(T.A = ?1) = NEXT VALUE FOR S`, with the flag of T.A as it
was set before. -/
theorem optimize_reads_turned :
    let column (flag : Bool) : Expr := column ⟨1, "T", "A", .int, flag⟩
    let e : Expr := inList (comparison .equal (parameter ⟨1, none⟩) (column true) false)
      (nextValue ⟨0, "S", 1⟩) []
    let e' (flag : Bool) : Expr := comparison .equal
      (comparison .equal (column flag) (parameter ⟨1, some .int⟩) false) (nextValue ⟨0, "S", 1⟩) false
    (e.optimize {} fun _ => 0).outcome = .ok (e' true) ∧
      (e' true).leaves.Subperm e.leaves ∧ ¬ (e' true).leaves.Sublist e.leaves ∧
      ((e.setEvaluatable 1 false).optimize {} fun _ => 0).outcome = .ok (e' false) := by
  intro column e e'
  have hpass : (e.optimize {} fun _ => 0).outcome = .ok (e' true) := rfl
  obtain ⟨hleaves, hflags⟩ := optimize_reads {} (fun _ => 0) e
  refine ⟨hpass, (hleaves _ hpass).1, by decide, ?_⟩
  rw [hflags 1 false, hpass]
  rfl

end Expr
end QueryPredicates
