import QueryPredicates.Proofs.Optimization.Repetition

/-! The pass without its countdown. Any bound that covers the depth of an expression gives one run
and one outcome, so what an expression is simplified to satisfies the equations one expects: simplify
the operands, then the node. A list of one candidate, if it is simplified at all, is simplified
as the equality that it stands for, since a second pass over an operand changes nothing. -/

namespace QueryPredicates

theorem List.mapM_congr_of_mem {m : Type → Type} [Monad m] [LawfulMonad m] {α β : Type}
    {f g : α → m β} : ∀ {as : List α}, (∀ a ∈ as, f a = g a) → as.mapM f = as.mapM g
  | [], _ => rfl
  | a :: as, h => by
    obtain ⟨hhead, htail⟩ := List.forall_mem_cons.mp h
    rw [List.mapM_cons, List.mapM_cons, hhead, mapM_congr_of_mem htail]

namespace Expr

/-- Any bound that covers the depth gives the same run. -/
theorem optimizeWithin_stable (session : Session) {n m : Nat} {e : Expr} (hn : e.depth ≤ n)
    (hm : e.depth ≤ m) : optimizeWithin session n e = optimizeWithin session m e := by
  induction n generalizing m e with
  | zero =>
    cases e <;> first
      | (cases m <;> rfl)
      | (simp only [depth] at hn; omega)
  | succ n ih =>
    cases e with
    | comparison op left right whenOperand =>
      simp only [depth] at hn hm
      obtain ⟨m, rfl⟩ := Nat.exists_eq_succ_of_ne_zero (by omega : m ≠ 0)
      have hl : optimizeWithin session n left = optimizeWithin session m left :=
        ih (by omega) (by omega)
      have hr : optimizeWithin session n right = optimizeWithin session m right :=
        ih (by omega) (by omega)
      simp only [optimizeWithin, hl, hr]
    | nullTest operand negated =>
      simp only [depth] at hn hm
      obtain ⟨m, rfl⟩ := Nat.exists_eq_succ_of_ne_zero (by omega : m ≠ 0)
      have ho : optimizeWithin session n operand = optimizeWithin session m operand :=
        ih (by omega) (by omega)
      simp only [optimizeWithin, ho]
    | inList operand first rest =>
      simp only [depth] at hn hm
      obtain ⟨m, rfl⟩ := Nat.exists_eq_succ_of_ne_zero (by omega : m ≠ 0)
      have ho : optimizeWithin session n operand = optimizeWithin session m operand :=
        ih (by omega) (by omega)
      have hf : optimizeWithin session n first = optimizeWithin session m first :=
        ih (by omega) (by omega)
      have hrest : rest.mapM (optimizeWithin session n) = rest.mapM (optimizeWithin session m) := by
        refine List.mapM_congr_of_mem fun e he => ?_
        have hde := depth_le_depths he
        exact ih (by omega) (by omega)
      simp only [optimizeWithin, ho, hf, hrest]
      -- the operands of a list of one candidate are gone over again, and are no deeper then
      have hyields := optimizeWithin_yields session m
      refine (hyields operand).bind_congr fun operand' ho' => ?_
      refine (hyields first).bind_congr fun first' hf' => ?_
      have hdo := depth_simplifiedWithin_le ho'
      have hdf := depth_simplifiedWithin_le hf'
      have hagain : optimizeWithin session n operand' = optimizeWithin session m operand' :=
        ih (by omega) (by omega)
      have hagain' : optimizeWithin session n first' = optimizeWithin session m first' :=
        ih (by omega) (by omega)
      simp only [hagain, hagain']
    | _ => cases m <;> rfl

theorem optimizeWithin_eq (session : Session) {n : Nat} {e : Expr} (h : e.depth ≤ n) :
    optimizeWithin session n e = e.optimize session :=
  optimizeWithin_stable session h (Nat.le_refl _)

theorem simplifiedWithin_stable {n m : Nat} {e : Expr} (hn : e.depth ≤ n) (hm : e.depth ≤ m) :
    simplifiedWithin n e = simplifiedWithin m e := by
  have hyields := optimizeWithin_yields {} n e
  rw [optimizeWithin_stable {} hn hm] at hyields
  exact hyields.unique (optimizeWithin_yields {} m e)

theorem simplifiedWithin_eq {n : Nat} {e : Expr} (h : e.depth ≤ n) :
    simplifiedWithin n e = e.simplified :=
  simplifiedWithin_stable h (Nat.le_refl _)

/-! ## The equations -/

theorem optimize_comparison (session : Session) (op : Comparator) (left right : Expr)
    (whenOperand : Bool) : (comparison op left right whenOperand).optimize session =
      left.optimize session >>= fun left' => right.optimize session >>= fun right' =>
        Comparison.simplify session ⟨op, left', right', whenOperand⟩ := by
  have h : (comparison op left right whenOperand).depth ≤ max left.depth right.depth + 1 := by
    simp only [depth]
    omega
  rw [← optimizeWithin_eq session h, ← optimizeWithin_eq session (Nat.le_max_left _ right.depth),
    ← optimizeWithin_eq session (Nat.le_max_right left.depth _)]
  rfl

theorem simplified_comparison (op : Comparator) (left right : Expr) (whenOperand : Bool) :
    (comparison op left right whenOperand).simplified =
      left.simplified >>= fun left' => right.simplified >>= fun right' =>
        Comparison.simplified ⟨op, left', right', whenOperand⟩ := by
  have hyields := optimize_yields {} (comparison op left right whenOperand)
  rw [optimize_comparison] at hyields
  refine hyields.unique ((optimize_yields {} left).bind fun left' _ => ?_)
  exact (optimize_yields {} right).bind fun right' _ => Comparison.simplify_yields {} _

theorem simplified_nullTest (operand : Expr) (negated : Bool) :
    (nullTest operand negated).simplified =
      operand.simplified >>= fun operand' => .ok (NullTest.simplified ⟨operand', negated⟩) := by
  have h : (nullTest operand negated).depth ≤ operand.depth + 1 := by
    simp only [depth]
    omega
  rw [← simplifiedWithin_eq h]
  rfl

/-- What the pass returns, it returns again or refuses. -/
theorem simplified_again {e e' e'' : Expr} (h : e.simplified = .ok e')
    (h' : e'.simplified = .ok e'') : e'' = e' := by
  have hends := endsAgain_simplifiedWithin e'.depth (Nat.le_refl _) (isSettled_simplified h)
  rw [simplifiedWithin_eq (Nat.le_refl _), h'] at hends
  unfold EndsAgain at hends
  split at hends
  · obtain ⟨type, hrefused⟩ := hends
    cases hrefused
  · exact Except.ok.inj hends

theorem simplified_inList {operand first e' : Expr} {rest : List Expr}
    (h : (inList operand first rest).simplified = .ok e') :
    (rest = [] ∧ (comparison .equal operand first false).simplified = .ok e') ∨
      rest ≠ [] ∧ ∃ operand' first' rest', operand.simplified = .ok operand' ∧
        first.simplified = .ok first' ∧
        List.Forall₂ (fun e e' => e.simplified = .ok e') rest rest' ∧
        e' = InList.simplified ⟨operand', first', rest'⟩ := by
  have hdepth : (inList operand first rest).depth =
      max operand.depth (max first.depth (depths rest)) + 1 := Nat.add_comm _ _
  unfold simplified at h
  rw [hdepth] at h
  obtain ⟨operand', first', rest', ho, hf, hrest, hcases⟩ := simplifiedWithin_inList h
  have hdo := depth_simplifiedWithin_le ho
  have hdf := depth_simplifiedWithin_le hf
  rw [simplifiedWithin_eq (by omega)] at ho hf
  rcases hcases with ⟨rfl, operand'', first'', ho', hf', he⟩ | ⟨hne, he⟩
  · cases hrest
    rw [simplifiedWithin_eq (by omega)] at ho' hf'
    obtain rfl := simplified_again ho ho'
    obtain rfl := simplified_again hf hf'
    refine .inl ⟨rfl, ?_⟩
    rw [simplified_comparison, ho, hf]
    exact he
  · refine .inr ⟨fun hnil => ?_, operand', first', rest', ho, hf, ?_, he⟩
    · subst hnil
      cases hrest
      exact hne rfl
    · refine List.forall₂_iff_get.mpr ⟨hrest.length_eq, fun i hi hi' => ?_⟩
      have hde := depth_le_depths (List.get_mem rest ⟨i, hi⟩)
      exact (simplifiedWithin_eq (by omega)).symm.trans (hrest.get hi hi')

/-- Induction along the pass, in which every operand is simplified once and a list of one candidate
goes the way of its equality. -/
theorem simplified_induction_once {P : Expr → Expr → Prop}
    (leaf : ∀ e, e.children = [] → P e e)
    (comparison : ∀ op left right whenOperand left' right' e',
      left.simplified = .ok left' ∧ P left left' → right.simplified = .ok right' ∧ P right right' →
      Comparison.simplified ⟨op, left', right', whenOperand⟩ = .ok e' →
      P (comparison op left right whenOperand) e')
    (nullTest : ∀ operand negated operand', operand.simplified = .ok operand' ∧ P operand operand' →
      P (nullTest operand negated) (NullTest.simplified ⟨operand', negated⟩))
    (single : ∀ operand first e', P (Expr.comparison .equal operand first false) e' →
      P (inList operand first []) e')
    (inList : ∀ operand first rest operand' first' rest', rest ≠ [] →
      operand.simplified = .ok operand' ∧ P operand operand' →
      first.simplified = .ok first' ∧ P first first' →
      List.Forall₂ (fun e e' => e.simplified = .ok e' ∧ P e e') rest rest' →
      P (inList operand first rest) (InList.simplified ⟨operand', first', rest'⟩))
    {e e' : Expr} (h : e.simplified = .ok e') : P e e' := by
  induction e using children_induction generalizing e' with
  | node e ih =>
    have hchild {child child' : Expr} (hmem : child ∈ e.children)
        (hc : child.simplified = .ok child') : child.simplified = .ok child' ∧ P child child' :=
      ⟨hc, ih child hmem hc⟩
    have hcomparison {op : Comparator} {left right e' : Expr} {whenOperand : Bool}
        (hl : left ∈ e.children) (hr : right ∈ e.children)
        (h : (Expr.comparison op left right whenOperand).simplified = .ok e') :
        P (.comparison op left right whenOperand) e' := by
      rw [simplified_comparison] at h
      obtain ⟨left', hleft, h⟩ := Except.eq_ok_of_bind h
      obtain ⟨right', hright, h⟩ := Except.eq_ok_of_bind h
      exact comparison op left right whenOperand left' right' e' (hchild hl hleft)
        (hchild hr hright) h
    cases e with
    | comparison op left right whenOperand =>
      exact hcomparison (by simp [children]) (by simp [children]) h
    | nullTest operand negated =>
      rw [simplified_nullTest] at h
      obtain ⟨operand', ho, h⟩ := Except.eq_ok_of_bind h
      cases h
      exact nullTest operand negated operand' (hchild (by simp [children]) ho)
    | inList operand first rest =>
      obtain ⟨rfl, hequal⟩ | ⟨hne, operand', first', rest', ho, hf, hrest, rfl⟩ := simplified_inList h
      · have hequality := hcomparison (by simp [children]) (by simp [children]) hequal
        exact single operand first e' hequality
      · refine inList operand first rest operand' first' rest' hne (hchild (by simp [children]) ho)
          (hchild (by simp [children]) hf) ?_
        refine List.forall₂_iff_get.mpr ⟨hrest.length_eq, fun i hi hi' => ?_⟩
        exact hchild (by simp [children]) (hrest.get hi hi')
    | _ =>
      cases h
      exact leaf _ rfl

/-! ## What the leaves hand on -/

/-- A property that a constant keeps when it is adapted, a parameter when it is bound, and that the
truth values and all nodes with operands have anyway. -/
structure Inherited (Q : Expr → Prop) : Prop where
  inner : ∀ e, e.children ≠ [] → Q e
  truth : ∀ t, Q (ofTruth t)
  constant : ∀ k k' type, Comparison.adaptedConstant k type = .ok k' → Q (constant k) →
    Q (constant k')
  parameter : ∀ p type, Q (parameter p) → Q (parameter (p.bindType type))

namespace Inherited

variable {Q : Expr → Prop}

theorem comparison_iff (hQ : Inherited Q) {op : Comparator} {left right : Expr}
    {whenOperand : Bool} : (∀ n ∈ (comparison op left right whenOperand).nodes, Q n) ↔
      (∀ n ∈ left.nodes, Q n) ∧ ∀ n ∈ right.nodes, Q n := by
  rw [forall_nodes_comparison, and_iff_right (hQ.inner _ (by simp [children]))]

theorem nullTest_iff (hQ : Inherited Q) {operand : Expr} {negated : Bool} :
    (∀ n ∈ (nullTest operand negated).nodes, Q n) ↔ ∀ n ∈ operand.nodes, Q n := by
  rw [forall_nodes_nullTest, and_iff_right (hQ.inner _ (by simp [children]))]

theorem inList_iff (hQ : Inherited Q) {operand first : Expr} {rest : List Expr} :
    (∀ n ∈ (inList operand first rest).nodes, Q n) ↔ (∀ n ∈ operand.nodes, Q n) ∧
      (∀ n ∈ first.nodes, Q n) ∧ ∀ e ∈ rest, ∀ n ∈ e.nodes, Q n := by
  rw [forall_nodes_inList, and_iff_right (hQ.inner _ (by simp [children]))]

theorem ofTruth (hQ : Inherited Q) (t : Truth) : ∀ n ∈ (Expr.ofTruth t).nodes, Q n :=
  (forall_nodes_of_leaf rfl).mpr (hQ.truth t)

theorem oriented (hQ : Inherited Q) {c : Comparison} (h : ∀ n ∈ c.toExpr.nodes, Q n) :
    ∀ n ∈ c.oriented.toExpr.nodes, Q n := by
  unfold Comparison.oriented
  split
  · exact hQ.comparison_iff.mpr (hQ.comparison_iff.mp h).symm
  · exact h

theorem adapted (hQ : Inherited Q) {c d : Comparison} (hd : c.adapted = .ok d)
    (h : ∀ n ∈ c.toExpr.nodes, Q n) : ∀ n ∈ d.toExpr.nodes, Q n := by
  obtain ⟨op, left, right, whenOperand⟩ := c
  obtain ⟨hl, hr⟩ := hQ.comparison_iff.mp h
  obtain ⟨column, k, k', rfl, rfl, hk, rfl⟩ | ⟨column, p, rfl, rfl, rfl⟩ | ⟨-, rfl⟩ :=
    Comparison.adapted_cases hd
  · have hconstant := hQ.constant k k' column.type hk (hr _ (self_mem_nodes _))
    exact hQ.comparison_iff.mpr ⟨hl, (forall_nodes_of_leaf rfl).mpr hconstant⟩
  · have hparameter := hQ.parameter p column.type (hr _ (self_mem_nodes _))
    exact hQ.comparison_iff.mpr ⟨hl, (forall_nodes_of_leaf rfl).mpr hparameter⟩
  · exact h

theorem settled (hQ : Inherited Q) {c : Comparison} (h : ∀ n ∈ c.toExpr.nodes, Q n) :
    ∀ n ∈ c.settled.nodes, Q n := by
  obtain ⟨hl, hr⟩ := hQ.comparison_iff.mp h
  obtain ⟨a, b, -, -, hs⟩ | ⟨-, ⟨-, -, hs⟩ | ⟨-, -, -, hs⟩ | ⟨-, hs⟩⟩ := c.settled_cases
  · rw [hs]
    exact hQ.ofTruth _
  · rw [hs]
    exact hQ.ofTruth _
  · rw [hs, hQ.nullTest_iff]
    unfold Comparison.besideNull
    split
    · exact hr
    · exact hl
  · rw [hs]
    exact h

theorem comparison (hQ : Inherited Q) {c : Comparison} {e : Expr} (hc : c.simplified = .ok e)
    (h : ∀ n ∈ c.toExpr.nodes, Q n) : ∀ n ∈ e.nodes, Q n := by
  obtain ⟨-, ⟨-, rfl⟩ | ⟨-, d, hd, rfl⟩⟩ := Comparison.simplified_cases hc
  · exact h
  · exact hQ.settled (hQ.adapted hd (hQ.oriented h))

theorem nullTest (hQ : Inherited Q) {t : NullTest} (h : ∀ n ∈ t.toExpr.nodes, Q n) :
    ∀ n ∈ t.simplified.nodes, Q n := by
  unfold NullTest.simplified
  split
  · exact hQ.ofTruth _
  · exact h

theorem inList (hQ : Inherited Q) {l : InList} (h : ∀ n ∈ l.toExpr.nodes, Q n) :
    ∀ n ∈ l.simplified.nodes, Q n := by
  unfold InList.simplified
  split
  · exact hQ.ofTruth .unknown
  · split
    · exact hQ.ofTruth _
    · exact h

/-- What all nodes of an expression have, all nodes of what it is simplified to have. -/
theorem simplified (hQ : Inherited Q) {e e' : Expr} (h : e.simplified = .ok e') :
    (∀ n ∈ e.nodes, Q n) → ∀ n ∈ e'.nodes, Q n := by
  refine simplified_induction_once (P := fun e e' => (∀ n ∈ e.nodes, Q n) → ∀ n ∈ e'.nodes, Q n)
    ?_ ?_ ?_ ?_ ?_ h
  · intro e _ he
    exact he
  · rintro op left right whenOperand left' right' e' ⟨-, hl⟩ ⟨-, hr⟩ he h
    obtain ⟨hleft, hright⟩ := hQ.comparison_iff.mp h
    exact hQ.comparison he (hQ.comparison_iff.mpr ⟨hl hleft, hr hright⟩)
  · rintro operand negated operand' ⟨-, ho⟩ h
    have hoperand := ho (hQ.nullTest_iff.mp h)
    exact hQ.nullTest (t := ⟨operand', negated⟩) (hQ.nullTest_iff.mpr hoperand)
  · intro operand first e' he h
    obtain ⟨ho, hf, -⟩ := hQ.inList_iff.mp h
    exact he (hQ.comparison_iff.mpr ⟨ho, hf⟩)
  · rintro operand first rest operand' first' rest' _ ⟨-, ho⟩ ⟨-, hf⟩ hrest h
    obtain ⟨hoperand, hfirst, hothers⟩ := hQ.inList_iff.mp h
    have hothers' := forall_mem_of_forall₂ (fun _ _ he => he.2) hrest hothers
    have hall := hQ.inList_iff.mpr ⟨ho hoperand, hf hfirst, hothers'⟩
    exact hQ.inList (l := ⟨operand', first', rest'⟩) hall

end Inherited

end Expr
end QueryPredicates
