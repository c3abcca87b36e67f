import QueryPredicates.Proofs.Optimization.Equations

/-! The normal form. In what the pass returns no node is left at which a rule of the pass
applies: constants are folded, columns stand to the left of the constants and parameters that they
meet and have given them their type, and a NULL constant is left only where it cannot be decided
ahead of time. The pass retypes constants by converting their values, so constants that
declare the type of their value come out as such. -/

namespace QueryPredicates

/-- The form of a comparison that is no `WHEN` operand. -/
structure Comparison.IsNormal (c : Comparison) : Prop where
  notConstant : c.left.isConstant = false ∨ c.right.isConstant = false
  columnFirst : ∀ column, c.right = .column column →
    c.left.isConstant = false ∧ c.left.isParameter = false
  nullLeft : c.left.isNullConstant = true →
    c.op.isNullSafe = true ∧ (c.right.type = .unknown ∨ c.right.type = .row)
  nullRight : c.right.isNullConstant = true →
    c.op.isNullSafe = true ∧ (c.left.type = .unknown ∨ c.left.type = .row)
  constantType : ∀ column k, c.left = .column column → c.right = .constant k →
    k.type = column.type.common k.type
  parameterType : ∀ column p, c.left = .column column → c.right = .parameter p →
    p.bound = some column.type

namespace Expr

/-- The form of one node. -/
def IsNormalNode : Expr → Prop
  | comparison op left right whenOperand =>
    whenOperand = false → Comparison.IsNormal ⟨op, left, right, whenOperand⟩
  | nullTest operand _ => operand.isConstant = false
  | inList operand first rest => rest ≠ [] ∧ operand.isNullConstant = false ∧
      ∃ e ∈ operand :: first :: rest, e.isConstant = false
  | _ => True

/-- Every node inside has the form. -/
def IsNormal (e : Expr) : Prop := ∀ n ∈ e.nodes, n.IsNormalNode

/-- A constant is NULL or declares the type of its value. -/
def IsDeclaredNode : Expr → Prop
  | constant k => k.isNull = true ∨ k.value.type = k.type
  | _ => True

/-- Every constant inside is NULL or declares the type of its value. -/
def IsDeclared (e : Expr) : Prop := ∀ n ∈ e.nodes, n.IsDeclaredNode

theorem isNormal_of_leaf {e : Expr} (h : e.children = []) : e.IsNormal := by
  refine (forall_nodes_of_leaf h).mpr ?_
  cases e <;> trivial

end Expr

/-! ## Comparisons -/

namespace Comparison

theorem type_adaptedConstant {k k' : Constant} {columnType : SqlType}
    (h : adaptedConstant k columnType = .ok k') : k'.type = columnType.common k'.type := by
  rcases adaptedConstant_cases h with ⟨htype | htype, rfl⟩ | ⟨-, htype, -⟩
  · rw [htype, SqlType.common_self]
  · exact htype
  · rw [htype, SqlType.common_self]

theorem constantType_adapted {c d : Comparison} (h : c.adapted = .ok d) {column : Column}
    {k : Constant} (hl : d.left = .column column) (hr : d.right = .constant k) :
    k.type = column.type.common k.type := by
  obtain ⟨op, left, right, whenOperand⟩ := c
  obtain ⟨column', k', k'', rfl, rfl, hk, rfl⟩ | ⟨column', p, rfl, rfl, rfl⟩ | ⟨hneither, rfl⟩ :=
    adapted_cases h
  · cases hl
    cases hr
    exact type_adaptedConstant hk
  · cases hr
  · obtain ⟨hconstant, -⟩ := hneither (Expr.isSome_column?_iff.mpr ⟨column, hl⟩)
    rw [Expr.isConstant_iff.mpr ⟨k, hr⟩] at hconstant
    cases hconstant

theorem parameterType_adapted {c d : Comparison} (h : c.adapted = .ok d) {column : Column}
    {p : Parameter} (hl : d.left = .column column) (hr : d.right = .parameter p) :
    p.bound = some column.type := by
  obtain ⟨op, left, right, whenOperand⟩ := c
  obtain ⟨column', k', k'', rfl, rfl, hk, rfl⟩ | ⟨column', p', rfl, rfl, rfl⟩ | ⟨hneither, rfl⟩ :=
    adapted_cases h
  · cases hr
  · cases hl
    cases hr
    rfl
  · obtain ⟨-, hparameter⟩ := hneither (Expr.isSome_column?_iff.mpr ⟨column, hl⟩)
    rw [hr] at hparameter
    cases hparameter

/-- A comparison that has been turned and adapted, and that settling leaves as it is. -/
theorem isNormal_of_adapted {c d : Comparison} (h : c.oriented.adapted = .ok d)
    (hconstants : (d.left.isConstant && d.right.isConstant) = false)
    (hnull : (d.left.isNullConstant || d.right.isNullConstant) = true → d.op.isNullSafe = true ∧
      (d.besideNull.type == .unknown || d.besideNull.type == .row) = true) : d.IsNormal where
  notConstant := Bool.and_eq_false_iff.mp hconstants
  columnFirst column hr := by
    have hturned : isTurned d.left d.right = false := by
      rw [isTurned_adapted h, isTurned_oriented]
    simpa [isTurned, hr, Expr.column?] using hturned
  nullLeft hl := by
    obtain ⟨hop, htype⟩ := hnull (Bool.or_eq_true_iff.mpr (.inl hl))
    unfold besideNull at htype
    rw [if_pos hl] at htype
    exact ⟨hop, by simpa using htype⟩
  nullRight hr := by
    obtain ⟨hop, htype⟩ := hnull (Bool.or_eq_true_iff.mpr (.inr hr))
    obtain ⟨type, hright⟩ := Expr.isNullConstant_iff.mp hr
    -- the left operand is no NULL constant then, as the two would be folded
    have hl : d.left.isNullConstant = false := by
      refine Bool.eq_false_iff.mpr fun hl => ?_
      obtain ⟨type', hleft⟩ := Expr.isNullConstant_iff.mp hl
      rw [hleft, hright] at hconstants
      cases hconstants
    unfold besideNull at htype
    rw [hl] at htype
    exact ⟨hop, by simpa using htype⟩
  constantType _ _ hl hr := constantType_adapted h hl hr
  parameterType _ _ hl hr := parameterType_adapted h hl hr

theorem isNormal_simplified {c : Comparison} {e : Expr} (hl : c.left.IsNormal)
    (hr : c.right.IsNormal) (h : c.simplified = .ok e) : e.IsNormal := by
  obtain ⟨-, ⟨hw, rfl⟩ | ⟨-, d, hd, rfl⟩⟩ := simplified_cases h
  · refine Expr.forall_nodes_comparison.mpr ⟨fun hw' => ?_, hl, hr⟩
    rw [hw] at hw'
    cases hw'
  · obtain ⟨hdl, hdr⟩ := operands_adapted (fun _ => Expr.isNormal_of_leaf) hl hr hd
    obtain ⟨a, b, -, -, hs⟩ | ⟨hconstants, ⟨-, -, hs⟩ | ⟨hn, -, -, hs⟩ | ⟨hn, hs⟩⟩ :=
      d.settled_cases
    · rw [hs]
      exact Expr.isNormal_of_leaf rfl
    · rw [hs]
      exact Expr.isNormal_of_leaf rfl
    · rw [hs]
      refine Expr.forall_nodes_nullTest.mpr ⟨isConstant_besideNull hconstants hn, ?_⟩
      unfold besideNull
      split
      · exact hdr
      · exact hdl
    · rw [hs]
      have hself := isNormal_of_adapted hd hconstants hn
      exact Expr.forall_nodes_comparison.mpr ⟨fun _ => hself, hdl, hdr⟩

end Comparison

/-! ## Null tests and lists -/

theorem NullTest.isNormal_simplified {operand : Expr} (negated : Bool) (h : operand.IsNormal) :
    (NullTest.simplified ⟨operand, negated⟩).IsNormal := by
  cases hc : operand.isConstant with
  | true =>
    obtain ⟨k, rfl⟩ := Expr.isConstant_iff.mp hc
    exact Expr.isNormal_of_leaf rfl
  | false =>
    rw [NullTest.simplified_eq_self hc]
    exact Expr.forall_nodes_nullTest.mpr ⟨hc, h⟩

/-- The truth value of the list, or the list itself where nothing decides it ahead of time. -/
theorem InList.simplified_cases (l : InList) :
    (∃ t, l.simplified = .ofTruth t) ∨
      l.operand.isNullConstant = false ∧ (∃ e ∈ l.operand :: l.values, e.isConstant = false) ∧
        l.simplified = l.toExpr := by
  unfold simplified
  split
  · exact .inl ⟨.unknown, rfl⟩
  · rename_i hnull
    split
    · exact .inl ⟨_, rfl⟩
    · rename_i hconstants
      have hsome : ¬ ∀ e ∈ l.operand :: l.values, e.isConstant = true := by
        rwa [List.forall_mem_cons, ← List.all_eq_true, ← Bool.and_eq_true]
      obtain ⟨e, he, hc⟩ : ∃ e ∈ l.operand :: l.values, ¬ e.isConstant = true := by
        simpa only [not_forall, exists_prop] using hsome
      exact .inr ⟨Bool.eq_false_iff.mpr hnull, ⟨e, he, Bool.eq_false_iff.mpr hc⟩, rfl⟩

/-! ## The pass -/

namespace Expr

theorem isNormal_simplified {e e' : Expr} (h : e.simplified = .ok e') : e'.IsNormal := by
  refine simplified_induction_once (P := fun _ e' => e'.IsNormal) ?_ ?_ ?_ ?_ ?_ h
  · intro e he
    exact isNormal_of_leaf he
  · rintro op left right whenOperand left' right' e' ⟨-, hl⟩ ⟨-, hr⟩ he
    exact Comparison.isNormal_simplified hl hr he
  · rintro operand negated operand' ⟨-, ho⟩
    exact NullTest.isNormal_simplified negated ho
  · intro operand first e' he
    exact he
  · rintro operand first rest operand' first' rest' hne ⟨-, ho⟩ ⟨-, hf⟩ hrest
    obtain ⟨t, hs⟩ | ⟨hnull, hconstants, hs⟩ := InList.simplified_cases ⟨operand', first', rest'⟩
    · rw [hs]
      exact isNormal_of_leaf rfl
    · have hne' : rest' ≠ [] := by
        rintro rfl
        exact hne (List.forall₂_nil_right_iff.mp hrest)
      have hall : ∀ e ∈ rest', e.IsNormal :=
        forall_mem_of_forall₂ (p := fun _ => True) (q := IsNormal) (fun _ _ he _ => he.2) hrest
          fun _ _ => trivial
      rw [hs]
      exact forall_nodes_inList.mpr ⟨⟨hne', hnull, hconstants⟩, ho, hf, hall⟩

/-- Converting a declared constant that is not NULL takes it to a column of a proper type, which
is then the type of its value. -/
theorem isDeclaredNode_adaptedConstant {k k' : Constant} {columnType : SqlType}
    (h : Comparison.adaptedConstant k columnType = .ok k') (hk : (constant k).IsDeclaredNode) :
    (constant k').IsDeclaredNode := by
  rcases Comparison.adaptedConstant_cases h with ⟨-, rfl⟩ | ⟨hcommon, htype, hvalue⟩
  · exact hk
  cases hnull : k.isNull with
  | true =>
    rw [Value.isNull_iff.mp hnull] at hvalue
    exact .inl (Value.isNull_iff.mpr (Except.ok.inj hvalue).symm)
  | false =>
    have hkt : k.value.type = k.type := Or.resolve_left hk (by simp [hnull])
    have hproper : columnType ≠ .unknown := by
      rintro rfl
      exact Value.type_ne_unknown k.value (hkt.trans hcommon)
    exact .inr ((Value.type_convert hnull hproper hvalue).trans htype.symm)

theorem inherited_isDeclaredNode : Inherited IsDeclaredNode where
  inner e he := by cases e <;> trivial
  truth t := by
    cases t
    · exact .inr rfl
    · exact .inr rfl
    · exact .inl rfl
  constant _ _ _ h hk := isDeclaredNode_adaptedConstant h hk
  parameter _ _ _ := trivial

/-- What the pass returns is in normal form, and declares its constants if the original did. -/
theorem optimize_normal {session : Session} {counters : Counters} {e e' : Expr}
    (h : (e.optimize session counters).outcome = .ok e') :
    e'.IsNormal ∧ (e.IsDeclared → e'.IsDeclared) := by
  have hpass := ((optimize_yields session e).outcome_iff counters).mp h
  exact ⟨isNormal_simplified hpass, inherited_isDeclaredNode.simplified hpass⟩

/-- `NULL IS NOT DISTINCT FROM (10 < T.A)` over a BIGINT column becomes `T.A > 10 IS NULL`. -/
theorem optimize_normal_turned :
    (optimize {} (comparison .equalNullSafe null (comparison .less (constant ⟨.int 10, .int⟩)
      (column ⟨1, "T", "A", .bigInt, true⟩) false) false) fun _ => 0).outcome =
        .ok (nullTest (comparison .greater (column ⟨1, "T", "A", .bigInt, true⟩)
          (constant ⟨.bigInt 10, .bigInt⟩) false) false) ∧
    (nullTest (comparison .greater (column ⟨1, "T", "A", .bigInt, true⟩)
      (constant ⟨.bigInt 10, .bigInt⟩) false) false).IsNormal ∧
    (nullTest (comparison .greater (column ⟨1, "T", "A", .bigInt, true⟩)
      (constant ⟨.bigInt 10, .bigInt⟩) false) false).IsDeclared := by
  have hpass : (optimize {} (comparison .equalNullSafe null (comparison .less
      (constant ⟨.int 10, .int⟩) (column ⟨1, "T", "A", .bigInt, true⟩) false) false)
      fun _ => 0).outcome =
        .ok (nullTest (comparison .greater (column ⟨1, "T", "A", .bigInt, true⟩)
          (constant ⟨.bigInt 10, .bigInt⟩) false) false) := rfl
  obtain ⟨hnormal, hdeclared⟩ := optimize_normal hpass
  refine ⟨hpass, hnormal, hdeclared ?_⟩
  simp [IsDeclared, nodes, IsDeclaredNode, null, Constant.nullOf, Constant.isNull, Value.isNull,
    Value.type]

end Expr
end QueryPredicates
