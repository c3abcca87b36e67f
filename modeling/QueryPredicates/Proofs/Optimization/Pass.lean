import QueryPredicates.Proofs.Optimization.Outcome

/-! What simplifying an expression comes to: `simplified` is the outcome of the pass, a function
of the expression alone. No step makes an expression deeper, so the depth that the pass counts
down lasts to every leaf, and what each kind of node carries over from its operands to its
result holds of every expression and what it is simplified to. -/

namespace QueryPredicates
open Run

theorem Except.eq_ok_of_bind {ε α β : Type} {x : Except ε α} {f : α → Except ε β} {b : β}
    (h : (x >>= f) = .ok b) : ∃ a, x = .ok a ∧ f a = .ok b := by
  cases x with
  | error e => cases h
  | ok a => exact ⟨a, rfl, h⟩

theorem Except.forall₂_of_mapM {ε α β : Type} {f : α → Except ε β} :
    ∀ {as : List α} {bs : List β}, as.mapM f = .ok bs →
      List.Forall₂ (fun a b => f a = .ok b) as bs
  | [], bs, h => by
    cases h
    exact .nil
  | a :: as, bs, h => by
    rw [List.mapM_cons] at h
    obtain ⟨b, hb, h⟩ := Except.eq_ok_of_bind h
    obtain ⟨rest, hrest, h⟩ := Except.eq_ok_of_bind h
    cases h
    exact .cons hb (forall₂_of_mapM hrest)

/-- What related elements pass on from the first list to the second. -/
theorem forall_mem_of_forall₂ {α β : Type} {R : α → β → Prop} {p : α → Prop} {q : β → Prop}
    (step : ∀ a b, R a b → p a → q b) {as : List α} {bs : List β} (h : List.Forall₂ R as bs)
    (hp : ∀ a ∈ as, p a) : ∀ b ∈ bs, q b := by
  induction h with
  | nil => simp
  | cons hhead _ ih =>
    obtain ⟨hhere, hlater⟩ := List.forall_mem_cons.mp hp
    exact List.forall_mem_cons.mpr ⟨step _ _ hhead hhere, ih hlater⟩

namespace Expr

/-! ## Counting down a depth -/

/-- The outcome for an expression whose depth is at most the first argument. -/
def simplifiedWithin : Nat → Expr → Except CompileError Expr
  | n + 1, comparison op left right whenOperand => do
    let left ← simplifiedWithin n left
    let right ← simplifiedWithin n right
    Comparison.simplified ⟨op, left, right, whenOperand⟩
  | n + 1, nullTest operand negated => do
    let operand ← simplifiedWithin n operand
    return NullTest.simplified ⟨operand, negated⟩
  | n + 1, inList operand first rest => do
    let operand ← simplifiedWithin n operand
    let first ← simplifiedWithin n first
    let rest ← rest.mapM (simplifiedWithin n)
    if rest.isEmpty then do
      let operand ← simplifiedWithin n operand
      let first ← simplifiedWithin n first
      Comparison.simplified ⟨.equal, operand, first, false⟩
    else return InList.simplified ⟨operand, first, rest⟩
  | _, e => .ok e

theorem optimizeWithin_yields (session : Session) (n : Nat) (e : Expr) :
    Yields (optimizeWithin session n e) (simplifiedWithin n e) := by
  induction n generalizing e with
  | zero => cases e <;> exact .pure _
  | succ n ih =>
    cases e with
    | comparison op left right whenOperand =>
      refine (ih left).bind fun left _ => (ih right).bind fun right _ => ?_
      exact Comparison.simplify_yields session _
    | nullTest operand negated =>
      exact (ih operand).bind fun operand _ => NullTest.simplify_yields ⟨operand, negated⟩
    | inList operand first rest =>
      refine (ih operand).bind fun operand _ => (ih first).bind fun first _ => ?_
      refine (Yields.mapM fun e _ => ih e).bind fun rest _ => ?_
      split
      · refine (Yields.note _).andThen ?_
        refine (ih operand).bind fun operand _ => (ih first).bind fun first _ => ?_
        exact Comparison.simplify_yields session _
      · exact InList.simplify_yields session ⟨operand, first, rest⟩
    | _ => exact .pure _

/-- A list of one candidate is gone over again as an equality, any other keeps its form. -/
theorem simplifiedWithin_inList {n : Nat} {operand first e' : Expr} {rest : List Expr}
    (h : simplifiedWithin (n + 1) (inList operand first rest) = .ok e') :
    ∃ operand' first' rest', simplifiedWithin n operand = .ok operand' ∧
      simplifiedWithin n first = .ok first' ∧
      List.Forall₂ (fun e e' => simplifiedWithin n e = .ok e') rest rest' ∧
      ((rest' = [] ∧ ∃ operand'' first'', simplifiedWithin n operand' = .ok operand'' ∧
          simplifiedWithin n first' = .ok first'' ∧
          Comparison.simplified ⟨.equal, operand'', first'', false⟩ = .ok e') ∨
        (rest' ≠ [] ∧ e' = InList.simplified ⟨operand', first', rest'⟩)) := by
  obtain ⟨operand', ho, hafter⟩ := Except.eq_ok_of_bind h
  obtain ⟨first', hf, hafter⟩ := Except.eq_ok_of_bind hafter
  obtain ⟨rest', hrest, hafter⟩ := Except.eq_ok_of_bind hafter
  refine ⟨operand', first', rest', ho, hf, Except.forall₂_of_mapM hrest, ?_⟩
  split at hafter
  · rename_i hempty
    obtain ⟨operand'', hoo, hafter⟩ := Except.eq_ok_of_bind hafter
    obtain ⟨first'', hff, hafter⟩ := Except.eq_ok_of_bind hafter
    exact .inl ⟨List.isEmpty_iff.mp hempty, operand'', first'', hoo, hff, hafter⟩
  · rename_i hempty
    cases hafter
    exact .inr ⟨fun he => hempty (List.isEmpty_iff.mpr he), rfl⟩

/-! ## No step makes an expression deeper -/

theorem depth_oriented (c : Comparison) : c.oriented.toExpr.depth = c.toExpr.depth := by
  unfold Comparison.oriented
  split
  · simp only [Comparison.toExpr, depth, Nat.max_comm]
  · rfl

theorem depth_adapted {c d : Comparison} (h : c.adapted = .ok d) :
    d.toExpr.depth = c.toExpr.depth := by
  obtain ⟨column, k, k', hl, hr, -, rfl⟩ | ⟨column, p, hl, hr, rfl⟩ | ⟨-, rfl⟩ :=
    Comparison.adapted_cases h
  · simp only [Comparison.toExpr, hl, hr, depth]
  · simp only [Comparison.toExpr, hl, hr, depth]
  · rfl

theorem depth_settled_le (c : Comparison) : c.settled.depth ≤ c.toExpr.depth := by
  obtain ⟨a, b, -, -, h⟩ | ⟨-, ⟨-, -, h⟩ | ⟨-, -, -, h⟩ | ⟨-, h⟩⟩ := c.settled_cases
  · rw [h]
    exact Nat.zero_le _
  · rw [h]
    exact Nat.zero_le _
  · rw [h]
    unfold Comparison.besideNull
    split <;> simp only [Comparison.toExpr, depth] <;> omega
  · exact Nat.le_of_eq (congrArg depth h)

theorem depth_simplified_le {c : Comparison} {e : Expr} (h : c.simplified = .ok e) :
    e.depth ≤ c.toExpr.depth := by
  obtain ⟨-, ⟨-, rfl⟩ | ⟨-, d, hd, rfl⟩⟩ := Comparison.simplified_cases h
  · exact Nat.le_refl _
  · rw [← depth_oriented c, ← depth_adapted hd]
    exact depth_settled_le d

theorem depth_nullTest_simplified_le (t : NullTest) : t.simplified.depth ≤ t.toExpr.depth := by
  unfold NullTest.simplified
  split
  · exact Nat.zero_le _
  · exact Nat.le_refl _

theorem depth_inList_simplified_le (l : InList) : l.simplified.depth ≤ l.toExpr.depth := by
  unfold InList.simplified
  split
  · exact Nat.zero_le _
  · split
    · exact Nat.zero_le _
    · exact Nat.le_refl _

theorem depths_le_of_forall₂ {es es' : List Expr}
    (h : List.Forall₂ (fun e e' => e'.depth ≤ e.depth) es es') : depths es' ≤ depths es := by
  induction h with
  | nil => exact Nat.le_refl _
  | cons hhead _ ih =>
    simp only [depths]
    omega

theorem depth_simplifiedWithin_le {n : Nat} {e e' : Expr} (h : simplifiedWithin n e = .ok e') :
    e'.depth ≤ e.depth := by
  induction n generalizing e e' with
  | zero => cases e <;> cases h <;> exact Nat.le_refl _
  | succ n ih =>
    cases e with
    | comparison op left right whenOperand =>
      obtain ⟨left', hl, h⟩ := Except.eq_ok_of_bind h
      obtain ⟨right', hr, h⟩ := Except.eq_ok_of_bind h
      have hdl := ih hl
      have hdr := ih hr
      have hd := depth_simplified_le h
      simp only [Comparison.toExpr, depth] at hd ⊢
      omega
    | nullTest operand negated =>
      obtain ⟨operand', ho, h⟩ := Except.eq_ok_of_bind h
      cases h
      have hdo := ih ho
      have hd := depth_nullTest_simplified_le ⟨operand', negated⟩
      simp only [NullTest.toExpr, depth] at hd ⊢
      omega
    | inList operand first rest =>
      obtain ⟨operand', first', rest', ho, hf, hrest, hcases⟩ := simplifiedWithin_inList h
      have hdo := ih ho
      have hdf := ih hf
      rcases hcases with ⟨-, operand'', first'', ho', hf', he⟩ | ⟨-, rfl⟩
      · have hdo' := ih ho'
        have hdf' := ih hf'
        have hd := depth_simplified_le he
        simp only [Comparison.toExpr, depth] at hd ⊢
        omega
      · have hdr := depths_le_of_forall₂ (hrest.imp fun _ _ he => ih he)
        have hd := depth_inList_simplified_le ⟨operand', first', rest'⟩
        simp only [InList.toExpr, depth] at hd ⊢
        omega
    | _ =>
      cases h
      exact Nat.le_refl _

/-! ## The pass -/

/-- What an expression is simplified to. -/
def simplified (e : Expr) : Except CompileError Expr := simplifiedWithin e.depth e

theorem optimize_yields (session : Session) (e : Expr) :
    Yields (e.optimize session) e.simplified :=
  optimizeWithin_yields session e.depth e

/-- Induction along the pass, which comes to the operands of a list of one candidate twice. -/
theorem simplified_induction {P : Expr → Expr → Prop}
    (leaf : ∀ e, e.children = [] → P e e)
    (comparison : ∀ op left right whenOperand left' right' e', P left left' → P right right' →
      Comparison.simplified ⟨op, left', right', whenOperand⟩ = .ok e' →
      P (comparison op left right whenOperand) e')
    (nullTest : ∀ operand negated operand', P operand operand' →
      P (nullTest operand negated) (NullTest.simplified ⟨operand', negated⟩))
    (single : ∀ operand first operand' first' operand'' first'' e',
      P operand operand' → P first first' → P operand' operand'' → P first' first'' →
      Comparison.simplified ⟨.equal, operand'', first'', false⟩ = .ok e' →
      P (inList operand first []) e')
    (inList : ∀ operand first rest operand' first' rest', rest' ≠ [] →
      P operand operand' → P first first' → List.Forall₂ P rest rest' →
      P (inList operand first rest) (InList.simplified ⟨operand', first', rest'⟩))
    {e e' : Expr} (h : e.simplified = .ok e') : P e e' := by
  have hwithin (n : Nat) : ∀ e e', e.depth ≤ n → simplifiedWithin n e = .ok e' → P e e' := by
    induction n with
    | zero =>
      intro e e' hd h
      cases e <;> first
        | (cases h; exact leaf _ rfl)
        | (simp only [depth] at hd; omega)
    | succ n ih =>
      intro e e' hd h
      cases e with
      | comparison op left right whenOperand =>
        obtain ⟨left', hl, h⟩ := Except.eq_ok_of_bind h
        obtain ⟨right', hr, h⟩ := Except.eq_ok_of_bind h
        simp only [depth] at hd
        exact comparison op left right whenOperand left' right' e' (ih left left' (by omega) hl)
          (ih right right' (by omega) hr) h
      | nullTest operand negated =>
        obtain ⟨operand', ho, h⟩ := Except.eq_ok_of_bind h
        cases h
        simp only [depth] at hd
        exact nullTest operand negated operand' (ih operand operand' (by omega) ho)
      | inList operand first rest =>
        obtain ⟨operand', first', rest', ho, hf, hrest, hcases⟩ := simplifiedWithin_inList h
        simp only [depth] at hd
        have hdo := depth_simplifiedWithin_le ho
        have hdf := depth_simplifiedWithin_le hf
        have hpo := ih operand operand' (by omega) ho
        have hpf := ih first first' (by omega) hf
        rcases hcases with ⟨rfl, operand'', first'', ho', hf', he⟩ | ⟨hne, rfl⟩
        · cases hrest
          exact single operand first operand' first' operand'' first'' e' hpo hpf
            (ih operand' operand'' (by omega) ho') (ih first' first'' (by omega) hf') he
        · refine inList operand first rest operand' first' rest' hne hpo hpf ?_
          refine List.forall₂_iff_get.mpr ⟨hrest.length_eq, fun i hi hi' => ?_⟩
          have hde := depth_le_depths (List.get_mem rest ⟨i, hi⟩)
          exact ih _ _ (by omega) (hrest.get hi hi')
      | _ =>
        cases h
        exact leaf _ rfl
  exact hwithin e.depth e e' (Nat.le_refl _) h

end Expr
end QueryPredicates
