import QueryPredicates.Index.Access
import QueryPredicates.Proofs.Evaluation.Meaning
import QueryPredicates.Proofs.Value.Reversal

/-! Index conditions are exact. What a condition says about a row is defined apart from the
predicate that it came from; the condition that a predicate yields for an access says
of every row just what the predicate says, so a scan driven by it loses no row that
the predicate accepts and finds none that it does not. -/

namespace QueryPredicates

/-- What a condition says about a row: that the value of its column compares as asked with that
of the bound, or equals that of one of the candidates. -/
def IndexCondition.Holds (ctx : Context) : IndexCondition → Prop
  | compare op column bound => ∃ v w, ctx.column column = some v ∧
      Run.Yields (bound.eval ctx) (.ok w) ∧ op.truth v w = .holds
  | among column values => ∃ v, ctx.column column = some v ∧
      ∃ e ∈ values, ∃ w, Run.Yields (e.eval ctx) (.ok w) ∧ Comparator.equal.truth v w = .holds
  | never => False

namespace IndexCondition

theorem holds_compare_iff {ctx : Context} {op : Comparator} {column : Column} {bound : Expr}
    (hc : ctx.Provides (.column column)) (hb : ∀ n ∈ bound.nodes, ctx.Provides n) :
    (compare op column bound).Holds ctx ↔
      op.truth ((Expr.column column).meaning ctx) (bound.meaning ctx) = .holds := by
  obtain ⟨u, hu⟩ := Option.isSome_iff_exists.mp hc
  have hm : (Expr.column column).meaning ctx = u := by simp [Expr.meaning, hu]
  rw [hm]
  constructor
  · rintro ⟨v, w, hv, hw, ht⟩
    cases hu.symm.trans hv
    rwa [(bound.eval_yields hb).returns_unique hw]
  · exact fun ht => ⟨u, bound.meaning ctx, hu, bound.eval_yields hb, ht⟩

theorem holds_among_iff {ctx : Context} {column : Column} {values : List Expr}
    (hc : ctx.Provides (.column column)) (hv : ∀ e ∈ values, ∀ n ∈ e.nodes, ctx.Provides n) :
    (among column values).Holds ctx ↔ ∃ w ∈ values.map (Expr.meaning ctx),
      Comparator.equal.truth ((Expr.column column).meaning ctx) w = .holds := by
  obtain ⟨u, hu⟩ := Option.isSome_iff_exists.mp hc
  have hm : (Expr.column column).meaning ctx = u := by simp [Expr.meaning, hu]
  rw [hm]
  constructor
  · rintro ⟨v, hv', e, he, w, hw, ht⟩
    cases hu.symm.trans hv'
    rw [← (e.eval_yields (hv e he)).returns_unique hw] at ht
    exact ⟨_, List.mem_map_of_mem he, ht⟩
  · rintro ⟨w, hw, ht⟩
    obtain ⟨e, he, rfl⟩ := List.mem_map.mp hw
    exact ⟨u, hu, e, he, _, e.eval_yields (hv e he), ht⟩

end IndexCondition

/-! ## What can be derived -/

theorem Access.ownColumn?_eq_some {a : Access} {e : Expr} {column : Column}
    (h : a.ownColumn? e = some column) : e = .column column ∧ column.access = a.id := by
  obtain ⟨hc, ha⟩ := Option.filter_eq_some_iff.mp h
  cases e <;> simp only [Expr.column?, reduceCtorEq] at hc
  cases hc
  exact ⟨rfl, by simpa using ha⟩

/-- A bound for a column of the access: the bound does not refer to the access, and the comparator
can bound an index. -/
structure Access.Anchors (a : Access) (op : Comparator) (column : Column) (bound : Expr) : Prop where
  own : column.access = a.id
  independent : bound.references a.id = false
  boundsIndex : op.boundsIndex = true

theorem Access.anchor_condition? {a : Access} {op : Comparator} {column : Column} {bound : Expr}
    {c : IndexCondition} (hown : column.access = a.id)
    (h : (a.anchor op column bound).condition? = some c) :
    a.Anchors op column bound ∧ c = .compare op column bound := by
  unfold anchor at h
  split at h
  · cases h
  · rename_i hreferences
    split at h
    · cases h
    · rename_i hop
      split at h <;> cases h
      exact ⟨⟨hown, Bool.eq_false_iff.mpr hreferences, by simpa using hop⟩, rfl⟩

/-- A comparison yields the condition on its left column, or the reversed one on its right. -/
theorem Comparison.derive_condition? {p : Comparison} {a : Access} {c : IndexCondition}
    (h : (p.derive a).condition? = some c) :
    (∃ column, p.left = .column column ∧ a.Anchors p.op column p.right ∧
      c = .compare p.op column p.right) ∨
    ∃ column, p.right = .column column ∧ a.Anchors p.op.reverse column p.left ∧
      c = .compare p.op.reverse column p.left := by
  unfold derive at h
  split at h
  · cases h
  · split at h
    · rename_i column hl _
      obtain ⟨hleft, hown⟩ := Access.ownColumn?_eq_some hl
      exact .inl ⟨column, hleft, Access.anchor_condition? hown h⟩
    · rename_i column _ hr
      obtain ⟨hright, hown⟩ := Access.ownColumn?_eq_some hr
      exact .inr ⟨column, hright, Access.anchor_condition? hown h⟩
    · cases h
    · cases h

theorem NullTest.derive_condition? {t : NullTest} {a : Access} {c : IndexCondition}
    (h : (t.derive a).condition? = some c) : t.negated = false ∧
      ∃ column, t.operand = .column column ∧ a.Anchors .equalNullSafe column .null ∧
        c = .compare .equalNullSafe column .null := by
  unfold derive at h
  split at h
  · cases h
  · rename_i hn
    cases ho : a.ownColumn? t.operand with
    | none => rw [ho] at h; cases h
    | some column =>
      rw [ho] at h
      cases h
      obtain ⟨hoperand, hown⟩ := Access.ownColumn?_eq_some ho
      exact ⟨(Bool.or_eq_false_iff.mp (Bool.eq_false_iff.mpr hn)).1, column, hoperand,
        ⟨hown, rfl, rfl⟩, rfl⟩

theorem Access.not_references_of_refuses? {a : Access} {column : Column} {candidate : Expr}
    (h : a.refuses? column candidate = none) : candidate.references a.id = false := by
  unfold refuses? at h
  split at h
  · cases h
  · rename_i hreferences
    exact Bool.eq_false_iff.mpr hreferences

theorem InList.derive_condition? {l : InList} {a : Access} {c : IndexCondition}
    (h : (l.derive a).condition? = some c) :
    ∃ column, l.operand = .column column ∧ column.access = a.id ∧
      (∀ v ∈ l.values, v.references a.id = false) ∧ c = .among column l.values := by
  unfold derive at h
  split at h
  · cases h
  · cases ho : a.ownColumn? l.operand with
    | none => rw [ho] at h; cases h
    | some column =>
      rw [ho] at h
      simp only [Option.elim_some] at h
      split at h
      · cases h
      · rename_i hnone
        cases h
        obtain ⟨hoperand, hown⟩ := Access.ownColumn?_eq_some ho
        exact ⟨column, hoperand, hown, fun v hv =>
          Access.not_references_of_refuses? (List.findSome?_eq_none_iff.mp hnone v hv), rfl⟩

/-- A condition that is appended is the one for a false constant or the derived one. -/
theorem Expr.createConditions_appended {e : Expr} {session : Session} {a : Access}
    {c : IndexCondition}
    (h : (e.createConditions session a).value.conditions = a.conditions ++ [c]) :
    (e.isFalse = true ∧ c = .never) ∨ (e.derive a).condition? = some c := by
  have hnone : a.conditions ≠ a.conditions ++ [c] := by simp
  unfold createConditions at h
  split at h
  · exact absurd h hnone
  · split at h
    · rename_i hf
      have hc : IndexCondition.never = c := by simpa [Access.addCondition] using h
      exact .inl ⟨hf, hc.symm⟩
    · simp only at h
      cases hd : (e.derive a).condition? with
      | none =>
        rw [hd] at h
        exact absurd h hnone
      | some d =>
        rw [hd] at h
        have hc : d = c := by simpa [Access.addCondition] using h
        exact .inr (congrArg some hc)

/-! ## Exactness -/

theorem Truth.toValue_eq_true_iff {t : Truth} : t.toValue = .bool true ↔ t = .holds := by
  cases t <;> simp [toValue]

namespace Expr

theorem meaning_of_isFalse {e : Expr} (ctx : Context) (h : e.isFalse = true) :
    e.meaning ctx = .bool false := by
  unfold isFalse at h
  split at h
  · rfl
  · cases h

/-- A derived condition says of a row what the predicate says. -/
theorem derive_exact {e : Expr} {a : Access} {ctx : Context} {c : IndexCondition}
    (hooks : ctx.hooks = .standard) (hp : ∀ n ∈ e.nodes, ctx.Provides n)
    (h : (e.derive a).condition? = some c) : e.meaning ctx = .bool true ↔ c.Holds ctx := by
  cases e with
  | comparison op left right whenOperand =>
    obtain ⟨-, hl, hr⟩ := forall_nodes_comparison.mp hp
    simp only [meaning, Context.verdict_standard hooks, Truth.toValue_eq_true_iff]
    obtain ⟨column, hcol, -, rfl⟩ | ⟨column, hcol, -, rfl⟩ := Comparison.derive_condition? h
    · have hcol : left = .column column := hcol
      subst hcol
      rw [IndexCondition.holds_compare_iff (hl _ (self_mem_nodes _)) hr]
    · have hcol : right = .column column := hcol
      subst hcol
      rw [IndexCondition.holds_compare_iff (hr _ (self_mem_nodes _)) hl,
        ← Comparator.truth_reverse]
  | nullTest operand negated =>
    obtain ⟨-, ho⟩ := forall_nodes_nullTest.mp hp
    obtain ⟨hn, column, hcol, -, rfl⟩ := NullTest.derive_condition? h
    have hn : negated = false := hn
    have hcol : operand = .column column := hcol
    subst hn hcol
    have hnull : ∀ n ∈ null.nodes, ctx.Provides n := by simp [null, nodes, Context.Provides]
    have hvalue : null.meaning ctx = .null := by simp [null, meaning, Constant.nullOf]
    rw [IndexCondition.holds_compare_iff (ho _ (self_mem_nodes _)) hnull, hvalue,
      Comparator.truth_null_right_nullSafe rfl]
    simp only [meaning, Truth.toValue_eq_true_iff]
    rfl
  | inList operand first rest =>
    obtain ⟨-, ho, hfirst, hrest⟩ := forall_nodes_inList.mp hp
    have hv : ∀ v ∈ InList.values ⟨operand, first, rest⟩, ∀ n ∈ v.nodes, ctx.Provides n :=
      List.forall_mem_cons.mpr ⟨hfirst, hrest⟩
    obtain ⟨column, hcol, -, -, rfl⟩ := InList.derive_condition? h
    have hcol : operand = .column column := hcol
    subst hcol
    rw [IndexCondition.holds_among_iff (ho _ (self_mem_nodes _)) hv]
    simp only [meaning, Truth.toValue_eq_true_iff, Context.amongTruth_eq_holds_iff hooks,
      meanings_eq_map, List.map_cons, InList.values]
  | _ => cases h

/-- Index conditions prune exactly: an expression evaluates, and it is true of a row if and only
if the condition that it appended holds of that row. -/
theorem createConditions_exact {e : Expr} {session : Session} {a : Access} {ctx : Context}
    {c : IndexCondition} (hooks : ctx.hooks = .standard)
    (hp : ∀ n ∈ e.nodes, ctx.Provides n)
    (h : (e.createConditions session a).value.conditions = a.conditions ++ [c]) :
    ∃ v, Run.Yields (e.eval ctx) (.ok v) ∧ (v = .bool true ↔ c.Holds ctx) := by
  refine ⟨e.meaning ctx, e.eval_yields hp, ?_⟩
  obtain ⟨hf, rfl⟩ | hd := createConditions_appended h
  · rw [meaning_of_isFalse ctx hf]
    simp [IndexCondition.Holds]
  · exact derive_exact hooks hp hd

/-- `10 > T.A`, with the column on the right, is kept as `T.A < 10`. -/
theorem createConditions_exact_turned :
    (createConditions (comparison .greater (constant ⟨.int 10, .int⟩)
        (column ⟨1, "T", "A", .int, true⟩) false) {} { id := 1, table := "T" }).value.conditions =
      [.compare .less ⟨1, "T", "A", .int, true⟩ (constant ⟨.int 10, .int⟩)] ∧
    ∃ v, Run.Yields (eval (Session.withRow {} (.joined [(1, [("A", .int 5)])]))
        (comparison .greater (constant ⟨.int 10, .int⟩)
          (column ⟨1, "T", "A", .int, true⟩) false)) (.ok v) ∧
      (v = .bool true ↔ IndexCondition.Holds
        (Session.withRow {} (.joined [(1, [("A", .int 5)])]))
        (.compare .less ⟨1, "T", "A", .int, true⟩ (constant ⟨.int 10, .int⟩))) := by
  have hconditions : (createConditions (comparison .greater (constant ⟨.int 10, .int⟩)
      (column ⟨1, "T", "A", .int, true⟩) false) {} { id := 1, table := "T" }).value.conditions =
        [.compare .less ⟨1, "T", "A", .int, true⟩ (constant ⟨.int 10, .int⟩)] := rfl
  refine ⟨hconditions, createConditions_exact rfl ?_ hconditions⟩
  simp only [nodes, List.cons_append, List.nil_append, List.forall_mem_cons, List.not_mem_nil,
    false_imp_iff, implies_true, and_true]
  exact ⟨trivial, trivial, rfl⟩

end Expr
end QueryPredicates
