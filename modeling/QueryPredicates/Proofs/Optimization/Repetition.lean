import QueryPredicates.Proofs.Optimization.Pass

/-! Simplifying a second time. Whatever the pass returns consists of nodes that the pass leaves
alone, with one exception: an array compared with a column that is none, where the array
stood on the left. The first pass puts the column there, and only the second one looks at the
operands in that order and refuses them. So the second pass returns its operand unless it
holds such a comparison, and fails if it does. -/

namespace QueryPredicates
open Run

namespace Expr

/-- An array constant to the right of a column of another type. -/
def isArrayAfterColumn : Expr → Bool
  | comparison _ (column c) (constant k) false => k.type == .array && c.type != .array
  | _ => false

/-- An array constant to the left of a column of another type, in a comparison or in a list of one
candidate, which becomes one. -/
def isArrayBeforeColumn : Expr → Bool
  | comparison _ (constant k) (column c) false => k.type == .array && c.type != .array
  | inList (constant k) (column c) [] => k.type == .array && c.type != .array
  | _ => false

/-- Whether a node inside has an array constant after a column. -/
def hasArrayAfterColumn (e : Expr) : Bool := e.nodes.any isArrayAfterColumn

/-- Whether a node inside has an array constant before a column. -/
def hasArrayBeforeColumn (e : Expr) : Bool := e.nodes.any isArrayBeforeColumn

theorem isArrayAfterColumn_iff {e : Expr} : e.isArrayAfterColumn = true ↔
    ∃ op c k, e = comparison op (column c) (constant k) false ∧ k.type = .array ∧
      c.type ≠ .array := by
  constructor
  · intro h
    unfold isArrayAfterColumn at h
    split at h
    · rename_i op c k
      obtain ⟨hk, hc⟩ := Bool.and_eq_true_iff.mp h
      exact ⟨op, c, k, rfl, by simpa using hk, by simpa using hc⟩
    · cases h
  · rintro ⟨op, c, k, rfl, hk, hc⟩
    simp [isArrayAfterColumn, hk, hc]

theorem isArrayBeforeColumn_iff {e : Expr} : e.isArrayBeforeColumn = true ↔
    ∃ c k, ((∃ op, e = comparison op (constant k) (column c) false) ∨
      e = inList (constant k) (column c) []) ∧ k.type = .array ∧ c.type ≠ .array := by
  constructor
  · intro h
    unfold isArrayBeforeColumn at h
    split at h
    · rename_i op k c
      obtain ⟨hk, hc⟩ := Bool.and_eq_true_iff.mp h
      exact ⟨c, k, .inl ⟨op, rfl⟩, by simpa using hk, by simpa using hc⟩
    · rename_i k c
      obtain ⟨hk, hc⟩ := Bool.and_eq_true_iff.mp h
      exact ⟨c, k, .inr rfl, by simpa using hk, by simpa using hc⟩
    · cases h
  · rintro ⟨c, k, ⟨op, rfl⟩ | rfl, hk, hc⟩ <;> simp [isArrayBeforeColumn, hk, hc]

theorem hasArrayAfterColumn_eq (e : Expr) : e.hasArrayAfterColumn =
    (e.isArrayAfterColumn || e.children.any hasArrayAfterColumn) :=
  any_nodes_eq isArrayAfterColumn e

end Expr

/-! ## Comparisons -/

namespace Comparison

theorem isTurned_oriented (c : Comparison) : isTurned c.oriented.left c.oriented.right = false := by
  unfold oriented
  split
  · rename_i h
    obtain ⟨hcolumn, -⟩ := Bool.and_eq_true_iff.mp h
    obtain ⟨column, hr⟩ := Expr.isSome_column?_iff.mp hcolumn
    rw [hr]
    simp [isTurned, Expr.isConstant, Expr.constant?, Expr.isParameter]
  · rename_i h
    exact Bool.eq_false_iff.mpr h

theorem oriented_eq_self {c : Comparison} (h : isTurned c.left c.right = false) :
    c.oriented = c := by
  unfold oriented
  rw [h]
  rfl

theorem whenOperand_oriented (c : Comparison) : c.oriented.whenOperand = c.whenOperand := by
  unfold oriented
  split <;> rfl

theorem adaptedConstant_again {k k' : Constant} {columnType : SqlType}
    (h : adaptedConstant k columnType = .ok k') : adaptedConstant k' columnType = .ok k' := by
  rcases adaptedConstant_cases h with ⟨-, rfl⟩ | ⟨-, ht, -⟩
  · exact h
  · unfold adaptedConstant
    rw [if_pos (.inl ht)]

theorem adapted_again {c d : Comparison} (h : c.adapted = .ok d) : d.adapted = .ok d := by
  obtain ⟨op, left, right, whenOperand⟩ := c
  obtain ⟨column, k, k', rfl, rfl, hk, rfl⟩ | ⟨column, p, rfl, rfl, rfl⟩ | ⟨-, rfl⟩ :=
    adapted_cases h
  · simp only [adapted, adaptedConstant_again hk]
    rfl
  · rfl
  · exact h

/-- Adapting changes constants and parameters only, and leaves them such. -/
theorem isTurned_adapted {c d : Comparison} (h : c.adapted = .ok d) :
    isTurned d.left d.right = isTurned c.left c.right := by
  obtain ⟨op, left, right, whenOperand⟩ := c
  obtain ⟨column, k, k', rfl, rfl, -, rfl⟩ | ⟨column, p, rfl, rfl, rfl⟩ | ⟨-, rfl⟩ :=
    adapted_cases h <;> rfl

theorem whenOperand_adapted {c d : Comparison} (h : c.adapted = .ok d) :
    d.whenOperand = c.whenOperand := by
  obtain ⟨column, k, k', -, -, -, rfl⟩ | ⟨column, p, -, -, rfl⟩ | ⟨-, rfl⟩ :=
    adapted_cases h <;> rfl

theorem op_adapted {c d : Comparison} (h : c.adapted = .ok d) : d.op = c.op := by
  obtain ⟨column, k, k', -, -, -, rfl⟩ | ⟨column, p, -, -, rfl⟩ | ⟨-, rfl⟩ :=
    adapted_cases h <;> rfl

/-- Adapting makes no mismatch. -/
theorem isMismatched_of_adapted {c d : Comparison} (h : c.adapted = .ok d)
    (hd : d.isMismatched = true) : c.isMismatched = true := by
  obtain ⟨op, left, right, whenOperand⟩ := c
  obtain ⟨column, k, k', rfl, rfl, hk, rfl⟩ | ⟨column, p, rfl, rfl, rfl⟩ | ⟨-, rfl⟩ :=
    adapted_cases h
  · rcases adaptedConstant_cases hk with ⟨-, rfl⟩ | ⟨-, ht, -⟩
    · exact hd
    · simp [isMismatched, Expr.type, ht] at hd
  · simp [isMismatched, Expr.type, Parameter.type, Parameter.bindType] at hd
  · exact hd

/-- Turning makes a mismatch only of an array constant that stood before a column of another
type. -/
theorem turned_of_isMismatched {c d : Comparison} (hc : c.isMismatched = false)
    (h : c.oriented.adapted = .ok d) (hd : d.isMismatched = true) :
    ∃ k column, c.left = .constant k ∧ c.right = .column column ∧ k.type = .array ∧
      column.type ≠ .array ∧ d = ⟨c.op.reverse, .column column, .constant k, c.whenOperand⟩ := by
  have ho := isMismatched_of_adapted h hd
  cases ht : isTurned c.left c.right with
  | false =>
    rw [oriented_eq_self ht, hc] at ho
    cases ho
  | true =>
    obtain ⟨op, left, right, whenOperand⟩ := c
    obtain ⟨hcolumn, hleft⟩ := Bool.and_eq_true_iff.mp ht
    obtain ⟨column, rfl⟩ : ∃ column, right = .column column := Expr.isSome_column?_iff.mp hcolumn
    have hturned : oriented ⟨op, left, .column column, whenOperand⟩ =
        ⟨op.reverse, .column column, left, whenOperand⟩ := if_pos ht
    rw [hturned] at h ho
    obtain ⟨htype, hcolumnType⟩ := Bool.and_eq_true_iff.mp ho
    simp only [Expr.type, beq_iff_eq, bne_iff_ne] at htype hcolumnType
    obtain ⟨_, k, k', hl, hr, hk, rfl⟩ | ⟨_, p, hl, -, rfl⟩ | ⟨hneither, -⟩ := adapted_cases h
    · cases hl
      have hr : left = .constant k := hr
      subst hr
      rcases adaptedConstant_cases hk with ⟨-, rfl⟩ | ⟨-, ht', -⟩
      · exact ⟨k', column, rfl, rfl, htype, hcolumnType, rfl⟩
      · simp [isMismatched, Expr.type, ht'] at hd
    · cases hl
      simp [isMismatched, Expr.type, Parameter.type, Parameter.bindType] at hd
    · obtain ⟨hk, hp⟩ := hneither rfl
      simp [isTurned, hk, hp] at ht

/-- The pass refuses an array constant after a column of another type. -/
theorem refused_of_isArrayAfterColumn {c : Comparison}
    (h : c.toExpr.isArrayAfterColumn = true) :
    ∃ type, c.simplified = .error (.arrayAgainstScalar type .array) := by
  obtain ⟨op, column, k, he, hk, hc⟩ := Expr.isArrayAfterColumn_iff.mp h
  obtain ⟨op', left, right, whenOperand⟩ := c
  cases he
  have hm : isMismatched ⟨op', .column column, .constant k, false⟩ = true := by
    simp [isMismatched, Expr.type, hk, hc]
  refine ⟨column.type, ?_⟩
  unfold simplified
  rw [if_pos hm]
  simp only [Expr.type, hk]

/-- What stands beside a NULL constant is none, or the two constants would have been folded. -/
theorem isConstant_besideNull {c : Comparison}
    (hconstants : (c.left.isConstant && c.right.isConstant) = false)
    (hn : (c.left.isNullConstant || c.right.isNullConstant) = true) :
    c.besideNull.isConstant = false := by
  have hnull {e : Expr} (he : e.isNullConstant = true) : e.isConstant = true := by
    obtain ⟨type, rfl⟩ := Expr.isNullConstant_iff.mp he
    rfl
  unfold besideNull
  by_cases hl : c.left.isNullConstant = true
  · rw [if_pos hl]
    simpa [hnull hl] using hconstants
  · have hr : c.right.isNullConstant = true := by simpa [hl] using hn
    rw [if_neg hl]
    simpa [hnull hr] using hconstants

/-- What holds of both operands and of all leaves holds of the operands when they have been turned
and adapted. -/
theorem operands_adapted {P : Expr → Prop} (leaf : ∀ e, e.children = [] → P e)
    {c d : Comparison} (hl : P c.left) (hr : P c.right) (h : c.oriented.adapted = .ok d) :
    P d.left ∧ P d.right := by
  have ho : P c.oriented.left ∧ P c.oriented.right := by
    unfold oriented
    split
    · exact ⟨hr, hl⟩
    · exact ⟨hl, hr⟩
  obtain ⟨column, k, k', -, -, -, rfl⟩ | ⟨column, p, -, -, rfl⟩ | ⟨-, rfl⟩ := adapted_cases h
  · exact ⟨ho.1, leaf _ rfl⟩
  · exact ⟨ho.1, leaf _ rfl⟩
  · exact ho

/-- The forms that a comparison of simplified operands takes: a truth value, a null test of an
operand, or a comparison. That comparison need not be turned, and the pass leaves it alone unless
an array constant has been turned. -/
theorem simplified_forms {P : Expr → Prop} (leaf : ∀ e, e.children = [] → P e)
    {c : Comparison} {e : Expr} (hl : P c.left) (hr : P c.right) (h : c.simplified = .ok e) :
    (∃ t, e = .ofTruth t) ∨
    (∃ operand negated, e = .nullTest operand negated ∧ operand.isConstant = false ∧ P operand) ∨
    ∃ d : Comparison, e = d.toExpr ∧ P d.left ∧ P d.right ∧
      (d.whenOperand = true ∨ isTurned d.left d.right = false) ∧
      (d.simplified = .ok d.toExpr ∨
        c.toExpr.isArrayBeforeColumn = true ∧ d.toExpr.isArrayAfterColumn = true) := by
  obtain ⟨hm, ⟨hw, rfl⟩ | ⟨hw, d, hd, rfl⟩⟩ := simplified_cases h
  · exact .inr (.inr ⟨c, rfl, hl, hr, .inl hw, .inl h⟩)
  · obtain ⟨hdl, hdr⟩ := operands_adapted leaf hl hr hd
    obtain ⟨a, b, -, -, hs⟩ | ⟨hconstants, ⟨-, -, hs⟩ | ⟨hn, -, -, hs⟩ | ⟨-, hs⟩⟩ :=
      d.settled_cases
    · exact .inl ⟨_, hs⟩
    · exact .inl ⟨_, hs⟩
    · refine .inr (.inl ⟨_, _, hs, isConstant_besideNull hconstants hn, ?_⟩)
      unfold besideNull
      split
      · exact hdr
      · exact hdl
    · have hturned : isTurned d.left d.right = false := by
        rw [isTurned_adapted hd, isTurned_oriented]
      refine .inr (.inr ⟨d, hs, hdl, hdr, .inr hturned, ?_⟩)
      cases hmd : d.isMismatched with
      | true =>
        right
        obtain ⟨k, column, hleft, hright, hk, hc, rfl⟩ := turned_of_isMismatched hm hd hmd
        rw [hw]
        refine ⟨?_, Expr.isArrayAfterColumn_iff.mpr ⟨_, column, k, rfl, hk, hc⟩⟩
        simp [toExpr, hleft, hright, hw, Expr.isArrayBeforeColumn, hk, hc]
      | false =>
        left
        have hwd : d.whenOperand = false := by
          rw [whenOperand_adapted hd, whenOperand_oriented, hw]
        unfold simplified
        rw [hmd, hwd, oriented_eq_self hturned, adapted_again hd]
        exact congrArg Except.ok hs

end Comparison

theorem NullTest.simplified_eq_self {operand : Expr} (h : operand.isConstant = false)
    (negated : Bool) :
    NullTest.simplified ⟨operand, negated⟩ = .nullTest operand negated := by
  cases operand with
  | constant k => cases h
  | _ => rfl

/-! ## Nodes that the pass leaves alone -/

namespace Expr

/-- The pass, once it has come to the node with its operands simplified, returns it as it is. -/
def IsFixed : Expr → Prop
  | comparison op left right whenOperand =>
    Comparison.simplified ⟨op, left, right, whenOperand⟩ =
      .ok (comparison op left right whenOperand)
  | nullTest operand negated => NullTest.simplified ⟨operand, negated⟩ = nullTest operand negated
  | inList operand first rest =>
    rest ≠ [] ∧ InList.simplified ⟨operand, first, rest⟩ = inList operand first rest
  | _ => True

/-- Every node is fixed, or is such a comparison as a second pass refuses. -/
def IsSettled (e : Expr) : Prop := ∀ n ∈ e.nodes, n.IsFixed ∨ n.isArrayAfterColumn = true

theorem isSettled_comparison {op : Comparator} {left right : Expr} {whenOperand : Bool} :
    (comparison op left right whenOperand).IsSettled ↔
      ((comparison op left right whenOperand).IsFixed ∨
        (comparison op left right whenOperand).isArrayAfterColumn = true) ∧
      left.IsSettled ∧ right.IsSettled :=
  forall_nodes_comparison

theorem isSettled_nullTest {operand : Expr} {negated : Bool} :
    (nullTest operand negated).IsSettled ↔
      (nullTest operand negated).IsFixed ∧ operand.IsSettled := by
  unfold IsSettled
  rw [forall_nodes_nullTest]
  simp [isArrayAfterColumn]

theorem isSettled_inList {operand first : Expr} {rest : List Expr} :
    (inList operand first rest).IsSettled ↔ (inList operand first rest).IsFixed ∧
      operand.IsSettled ∧ first.IsSettled ∧ ∀ e ∈ rest, e.IsSettled := by
  unfold IsSettled
  rw [forall_nodes_inList]
  simp [isArrayAfterColumn]

theorem isSettled_of_leaf {e : Expr} (h : e.children = []) : e.IsSettled := by
  refine (forall_nodes_of_leaf h).mpr ?_
  cases e <;> first | exact .inl trivial | simp [children] at h

end Expr

/-- What is simplified from a comparison of settled operands is settled. -/
theorem Comparison.isSettled_simplified {c : Comparison} {e : Expr} (hl : c.left.IsSettled)
    (hr : c.right.IsSettled) (h : c.simplified = .ok e) : e.IsSettled := by
  have hforms := simplified_forms (fun _ => Expr.isSettled_of_leaf) hl hr h
  obtain ⟨t, rfl⟩ | ⟨operand, negated, rfl, hconstant, ho⟩ | ⟨d, rfl, hdl, hdr, -, hd⟩ := hforms
  · exact Expr.isSettled_of_leaf rfl
  · have hself := NullTest.simplified_eq_self hconstant negated
    exact Expr.isSettled_nullTest.mpr ⟨hself, ho⟩
  · exact Expr.isSettled_comparison.mpr ⟨hd.imp_right And.right, hdl, hdr⟩

theorem InList.isSettled_simplified {l : InList} (hrest : l.rest ≠ [])
    (h : l.operand.IsSettled ∧ l.first.IsSettled ∧ ∀ e ∈ l.rest, e.IsSettled) :
    l.simplified.IsSettled := by
  by_cases hself : l.simplified = l.toExpr
  · rw [hself]
    exact Expr.isSettled_inList.mpr ⟨⟨hrest, hself⟩, h⟩
  · unfold simplified at hself ⊢
    split
    · exact Expr.isSettled_of_leaf rfl
    · split
      · exact Expr.isSettled_of_leaf rfl
      · rename_i hnull hconstants
        simp [hnull, hconstants] at hself

/-- Whatever the pass returns is settled. -/
theorem Expr.isSettled_simplified {e e' : Expr} (h : e.simplified = .ok e') : e'.IsSettled := by
  refine simplified_induction (P := fun _ e' => e'.IsSettled) ?_ ?_ ?_ ?_ ?_ h
  · intro e he
    exact isSettled_of_leaf he
  · intro op left right whenOperand left' right' e' hl hr he
    exact Comparison.isSettled_simplified hl hr he
  · intro operand negated operand' ho
    cases hc : operand'.isConstant with
    | true =>
      obtain ⟨k, rfl⟩ := isConstant_iff.mp hc
      exact isSettled_of_leaf rfl
    | false =>
      have hself := NullTest.simplified_eq_self hc negated
      rw [hself]
      exact isSettled_nullTest.mpr ⟨hself, ho⟩
  · intro operand first operand' first' operand'' first'' e' _ _ ho hf he
    exact Comparison.isSettled_simplified ho hf he
  · intro operand first rest operand' first' rest' hne ho hf hrest
    have hall : ∀ e ∈ rest', e.IsSettled :=
      forall_mem_of_forall₂ (p := fun _ => True) (q := IsSettled) (fun _ _ he _ => he) hrest
        fun _ _ => trivial
    exact InList.isSettled_simplified (l := ⟨operand', first', rest'⟩) hne ⟨ho, hf, hall⟩

/-! ## Where array constants come from -/

namespace Expr

/-- No array constant stands beside a column of another type, before it or after it. -/
def IsClean (e : Expr) : Prop :=
  ∀ n ∈ e.nodes, n.isArrayBeforeColumn = false ∧ n.isArrayAfterColumn = false

theorem isClean_of_leaf {e : Expr} (h : e.children = []) : e.IsClean := by
  refine (forall_nodes_of_leaf h).mpr ?_
  cases e <;> first | exact ⟨rfl, rfl⟩ | simp [children] at h

end Expr

namespace Comparison

/-- A comparison becomes neither an array constant nor a column. -/
theorem root_simplified {c : Comparison} {e : Expr} (h : c.simplified = .ok e) :
    (∀ k, e = .constant k → k.type ≠ .array) ∧ ∀ column, e ≠ .column column := by
  obtain ⟨t, rfl⟩ | ⟨operand, negated, rfl, -⟩ | ⟨d, rfl, -⟩ :=
    simplified_forms (P := fun _ => True) (fun _ _ => trivial) trivial trivial h
  · refine ⟨fun k hk => ?_, nofun⟩
    cases hk
    exact nofun
  · exact ⟨nofun, nofun⟩
  · exact ⟨nofun, nofun⟩

/-- Of clean operands come clean comparisons, unless an array constant is to be turned. -/
theorem isClean_simplified {c : Comparison} {e : Expr} (hl : c.left.IsClean)
    (hr : c.right.IsClean) (hb : c.toExpr.isArrayBeforeColumn = false)
    (h : c.simplified = .ok e) : e.IsClean := by
  have hforms := simplified_forms (fun _ => Expr.isClean_of_leaf) hl hr h
  obtain ⟨t, rfl⟩ | ⟨operand, negated, rfl, -, ho⟩ | ⟨d, rfl, hdl, hdr, hturned, hd⟩ := hforms
  · exact Expr.isClean_of_leaf rfl
  · exact Expr.forall_nodes_nullTest.mpr ⟨⟨rfl, rfl⟩, ho⟩
  · refine Expr.forall_nodes_comparison.mpr ⟨⟨?_, ?_⟩, hdl, hdr⟩
    · refine Bool.eq_false_iff.mpr fun hbefore => ?_
      obtain ⟨column, k, ⟨op, he⟩ | he, -⟩ := Expr.isArrayBeforeColumn_iff.mp hbefore
      · cases d
        cases he
        rcases hturned with hw | hturned
        · cases hw
        · cases hturned
      · cases he
    · refine Bool.eq_false_iff.mpr fun hafter => ?_
      rcases hd with hd | ⟨hbefore, -⟩
      · obtain ⟨type, hrefused⟩ := refused_of_isArrayAfterColumn hafter
        cases hd.symm.trans hrefused
      · rw [hb] at hbefore
        cases hbefore

end Comparison

namespace Expr

/-- An array constant or a column comes of itself alone, and an expression without an array constant
before a column comes out clean. -/
structure Traces (e e' : Expr) : Prop where
  constant : ∀ k, e' = .constant k → k.type = .array → e = e'
  column : ∀ c, e' = .column c → e = e'
  clean : (∀ n ∈ e.nodes, n.isArrayBeforeColumn = false) → e'.IsClean

theorem Traces.trans {e f g : Expr} (hef : Traces e f) (hfg : Traces f g) : Traces e g where
  constant k hg hk := by
    have hf := hfg.constant k hg hk
    rw [← hf]
    exact hef.constant k (hf.trans hg) hk
  column c hg := by
    have hf := hfg.column c hg
    rw [← hf]
    exact hef.column c (hf.trans hg)
  clean h := hfg.clean fun n hn => (hef.clean h n hn).1

/-- Operands that are simplified come to stand as an array constant before a column only if they
stood so. -/
theorem Traces.isArrayBeforeColumn {op op' : Comparator} {left right left' right' : Expr}
    {whenOperand : Bool} (hl : Traces left left') (hr : Traces right right')
    (h : (comparison op' left' right' whenOperand).isArrayBeforeColumn = true) :
    (comparison op left right whenOperand).isArrayBeforeColumn = true := by
  obtain ⟨column, k, ⟨_, he⟩ | he, hk, hc⟩ := isArrayBeforeColumn_iff.mp h
  · cases he
    obtain rfl := hl.constant k rfl hk
    obtain rfl := hr.column column rfl
    exact isArrayBeforeColumn_iff.mpr ⟨column, k, .inl ⟨op, rfl⟩, hk, hc⟩
  · cases he

end Expr

/-- A comparison traces what it comes of as soon as it comes out clean. -/
theorem Comparison.traces_of_clean {e e' : Expr} {c : Comparison} (h : c.simplified = .ok e')
    (hclean : (∀ n ∈ e.nodes, n.isArrayBeforeColumn = false) → e'.IsClean) : Expr.Traces e e' := by
  obtain ⟨hconstant, hcolumn⟩ := root_simplified h
  refine ⟨fun k hk htype => ?_, fun column hc => ?_, hclean⟩
  · exact absurd htype (hconstant k hk)
  · exact absurd hc (hcolumn column)

theorem NullTest.traces_simplified {operand operand' : Expr} {negated : Bool}
    (ho : Expr.Traces operand operand') :
    Expr.Traces (.nullTest operand negated) (NullTest.simplified ⟨operand', negated⟩) := by
  cases hc : operand'.isConstant with
  | true =>
    obtain ⟨k, rfl⟩ := Expr.isConstant_iff.mp hc
    refine ⟨fun k' hk' htype => ?_, nofun, fun _ => Expr.isClean_of_leaf rfl⟩
    cases hk'
    cases htype
  | false =>
    rw [NullTest.simplified_eq_self hc]
    refine ⟨nofun, nofun, fun h => ?_⟩
    have hoperand := ho.clean (Expr.forall_nodes_nullTest.mp h).2
    exact Expr.forall_nodes_nullTest.mpr ⟨⟨rfl, rfl⟩, hoperand⟩

theorem InList.traces_simplified {operand first operand' first' : Expr} {rest rest' : List Expr}
    (hne : rest' ≠ []) (ho : Expr.Traces operand operand') (hf : Expr.Traces first first')
    (hrest : List.Forall₂ Expr.Traces rest rest') :
    Expr.Traces (.inList operand first rest) (InList.simplified ⟨operand', first', rest'⟩) := by
  have htruth (t : Truth) : Expr.Traces (.inList operand first rest) (.ofTruth t) := by
    refine ⟨fun k hk htype => ?_, nofun, fun _ => Expr.isClean_of_leaf rfl⟩
    cases hk
    cases htype
  unfold simplified
  split
  · exact htruth .unknown
  · split
    · exact htruth _
    · refine ⟨nofun, nofun, fun h => ?_⟩
      obtain ⟨-, hoperand, hfirst, hothers⟩ := Expr.forall_nodes_inList.mp h
      have hall := forall_mem_of_forall₂ (fun _ _ he => he.clean) hrest hothers
      refine Expr.forall_nodes_inList.mpr ⟨⟨?_, rfl⟩, ho.clean hoperand, hf.clean hfirst, hall⟩
      refine Bool.eq_false_iff.mpr fun hbefore => ?_
      obtain ⟨column, k, ⟨_, he⟩ | he, -⟩ := Expr.isArrayBeforeColumn_iff.mp hbefore
      · cases he
      · cases he
        exact hne rfl

theorem Expr.traces_simplified {e e' : Expr} (h : e.simplified = .ok e') : Traces e e' := by
  refine simplified_induction (P := Traces) ?_ ?_ ?_ ?_ ?_ h
  · intro e he
    exact ⟨fun _ _ _ => rfl, fun _ _ => rfl, fun _ => isClean_of_leaf he⟩
  · intro op left right whenOperand left' right' e' hl hr he
    refine Comparison.traces_of_clean he fun h => ?_
    obtain ⟨hself, hleft, hright⟩ := forall_nodes_comparison.mp h
    refine Comparison.isClean_simplified (hl.clean hleft) (hr.clean hright) ?_ he
    refine Bool.eq_false_iff.mpr fun hbefore => ?_
    rw [hl.isArrayBeforeColumn hr hbefore] at hself
    cases hself
  · intro operand negated operand' ho
    exact NullTest.traces_simplified ho
  · intro operand first operand' first' operand'' first'' e' ho hf ho' hf' he
    have hl := ho.trans ho'
    have hr := hf.trans hf'
    refine Comparison.traces_of_clean he fun h => ?_
    obtain ⟨hself, hleft, hright, -⟩ := forall_nodes_inList.mp h
    refine Comparison.isClean_simplified (hl.clean hleft) (hr.clean hright) ?_ he
    refine Bool.eq_false_iff.mpr fun hbefore => ?_
    have hbefore' : (comparison .equal operand first false).isArrayBeforeColumn = true :=
      hl.isArrayBeforeColumn hr hbefore
    have hsingle : (inList operand first []).isArrayBeforeColumn = true := by
      obtain ⟨column, k, ⟨_, he⟩ | he, hk, hc⟩ := isArrayBeforeColumn_iff.mp hbefore'
      · cases he
        exact isArrayBeforeColumn_iff.mpr ⟨column, k, .inr rfl, hk, hc⟩
      · cases he
    rw [hsingle] at hself
    cases hself
  · intro operand first rest operand' first' rest' hne ho hf hrest
    exact InList.traces_simplified hne ho hf hrest

/-! ## The second pass -/

/-- The end of a second pass: a refusal, or what was there before. -/
def EndsAgain {α : Type} (refused : Bool) (a : α) (o : Except CompileError α) : Prop :=
  if refused then ∃ type, o = .error (.arrayAgainstScalar type .array) else o = .ok a

namespace EndsAgain

variable {α β : Type}

theorem bind {p q : Bool} {a : α} {b : β} {o : Except CompileError α}
    {f : α → Except CompileError β} (ho : EndsAgain p a o) (hf : EndsAgain q b (f a)) :
    EndsAgain (p || q) b (o >>= f) := by
  unfold EndsAgain at *
  cases p with
  | true =>
    obtain ⟨type, ho⟩ := ho
    rw [ho]
    exact ⟨type, rfl⟩
  | false =>
    have ho : o = .ok a := ho
    rw [ho]
    exact hf

theorem mapM {p : α → Bool} {f : α → Except CompileError α} :
    ∀ {as : List α}, (∀ a ∈ as, EndsAgain (p a) a (f a)) → EndsAgain (as.any p) as (as.mapM f)
  | [], _ => rfl
  | a :: as, h => by
    obtain ⟨hhead, htail⟩ := List.forall_mem_cons.mp h
    rw [List.mapM_cons, List.any_cons, ← Bool.or_false (as.any p)]
    exact hhead.bind ((mapM htail).bind (b := a :: as) rfl)

end EndsAgain

theorem Comparison.endsAgain_simplified {c : Comparison}
    (h : c.toExpr.IsFixed ∨ c.toExpr.isArrayAfterColumn = true) :
    EndsAgain c.toExpr.isArrayAfterColumn c.toExpr c.simplified := by
  cases hb : c.toExpr.isArrayAfterColumn with
  | true => exact refused_of_isArrayAfterColumn hb
  | false =>
    rw [hb] at h
    exact h.resolve_right Bool.false_ne_true

namespace Expr

/-- The second pass goes over settled nodes. It ends at the first array constant after a column, if
there is one, and else rebuilds every node. -/
theorem endsAgain_simplifiedWithin (n : Nat) {e : Expr} (hd : e.depth ≤ n) (h : e.IsSettled) :
    EndsAgain e.hasArrayAfterColumn e (simplifiedWithin n e) := by
  induction n generalizing e with
  | zero =>
    cases e <;> first
      | exact rfl
      | (simp only [depth] at hd; omega)
  | succ n ih =>
    cases e with
    | comparison op left right whenOperand =>
      obtain ⟨hself, hl, hr⟩ := isSettled_comparison.mp h
      simp only [depth] at hd
      have hhas : (comparison op left right whenOperand).hasArrayAfterColumn =
          (left.hasArrayAfterColumn || (right.hasArrayAfterColumn ||
            (comparison op left right whenOperand).isArrayAfterColumn)) := by
        rw [hasArrayAfterColumn_eq, Bool.or_comm]
        simp [children, Bool.or_assoc]
      have hnode := Comparison.endsAgain_simplified (c := ⟨op, left, right, whenOperand⟩) hself
      rw [hhas]
      exact (ih (by omega) hl).bind ((ih (by omega) hr).bind hnode)
    | nullTest operand negated =>
      obtain ⟨hself, ho⟩ := isSettled_nullTest.mp h
      simp only [depth] at hd
      have hhas : (nullTest operand negated).hasArrayAfterColumn =
          (operand.hasArrayAfterColumn || false) := by
        rw [hasArrayAfterColumn_eq]
        simp [children, isArrayAfterColumn]
      have hnode : NullTest.simplified ⟨operand, negated⟩ = nullTest operand negated := hself
      rw [hhas]
      exact (ih (by omega) ho).bind (congrArg Except.ok hnode)
    | inList operand first rest =>
      obtain ⟨⟨hne, hself⟩, ho, hf, hrest⟩ := isSettled_inList.mp h
      simp only [depth] at hd
      have hhas : (inList operand first rest).hasArrayAfterColumn =
          (operand.hasArrayAfterColumn || (first.hasArrayAfterColumn ||
            (rest.any hasArrayAfterColumn || false))) := by
        rw [hasArrayAfterColumn_eq]
        simp [children, isArrayAfterColumn]
      have hall : ∀ e ∈ rest, EndsAgain e.hasArrayAfterColumn e (simplifiedWithin n e) := by
        intro e he
        have hde := depth_le_depths he
        exact ih (by omega) (hrest e he)
      rw [hhas]
      refine (ih (by omega) ho).bind ((ih (by omega) hf).bind ((EndsAgain.mapM hall).bind ?_))
      show (if rest.isEmpty = true then _ else _) = _
      rw [if_neg fun he => hne (List.isEmpty_iff.mp he)]
      exact congrArg Except.ok hself
    | _ => exact rfl

/-- The exact condition on which the pass, once it has succeeded, returns its own result as it
is: no array constant stands after a column of another type. On that result the pass fails otherwise,
and such a result comes only of expressions in which an array constant stands before one. -/
theorem optimize_again {session : Session} {counters : Counters} {e e' : Expr}
    (h : (e.optimize session counters).outcome = .ok e') :
    (Yields (e'.optimize session) (.ok e') ↔ e'.hasArrayAfterColumn = false) ∧
    (e'.hasArrayAfterColumn = true → e.hasArrayBeforeColumn = true ∧ ∃ type,
      Yields (e'.optimize session) (.error (.arrayAgainstScalar type .array))) := by
  have hpass := ((optimize_yields session e).outcome_iff counters).mp h
  have hyields := optimize_yields session e'
  have hends := endsAgain_simplifiedWithin e'.depth (Nat.le_refl _) (isSettled_simplified hpass)
  cases hhas : e'.hasArrayAfterColumn with
  | true =>
    rw [hhas] at hends
    obtain ⟨type, hrefused⟩ := hends
    have hrefused : e'.simplified = .error (.arrayAgainstScalar type .array) := hrefused
    rw [hrefused] at hyields
    refine ⟨⟨fun hsame => ?_, nofun⟩, fun _ => ⟨?_, type, hyields⟩⟩
    · cases hyields.unique hsame
    · refine by_contra fun hbefore => ?_
      have hclean := (traces_simplified hpass).clean fun n hn => Bool.eq_false_iff.mpr fun hn' =>
        hbefore (List.any_eq_true.mpr ⟨n, hn, hn'⟩)
      obtain ⟨n, hn, hafter⟩ := List.any_eq_true.mp hhas
      rw [(hclean n hn).2] at hafter
      cases hafter
  | false =>
    rw [hhas] at hends
    have hsame : e'.simplified = .ok e' := hends
    rw [hsame] at hyields
    exact ⟨⟨fun _ => rfl, fun _ => hyields⟩, nofun⟩

/-- `ARRAY[1] = T.A` over an INTEGER column becomes `T.A = ARRAY[1]`, which the second pass
refuses. -/
theorem optimize_again_turned :
    (optimize {} (comparison .equal (constant ⟨.array [.int 1], .array⟩)
      (column ⟨1, "T", "A", .int, true⟩) false) fun _ => 0).outcome =
        .ok (comparison .equal (column ⟨1, "T", "A", .int, true⟩)
          (constant ⟨.array [.int 1], .array⟩) false) ∧
    ∃ type, Yields (optimize {} (comparison .equal (column ⟨1, "T", "A", .int, true⟩)
      (constant ⟨.array [.int 1], .array⟩) false)) (.error (.arrayAgainstScalar type .array)) := by
  have hpass : (optimize {} (comparison .equal (constant ⟨.array [.int 1], .array⟩)
      (column ⟨1, "T", "A", .int, true⟩) false) fun _ => 0).outcome =
        .ok (comparison .equal (column ⟨1, "T", "A", .int, true⟩)
          (constant ⟨.array [.int 1], .array⟩) false) := rfl
  exact ⟨hpass, ((optimize_again hpass).2 rfl).2⟩

/-- The pass is not idempotent. -/
theorem optimize_not_idempotent : ¬ ∀ (session : Session) (counters : Counters) (e e' : Expr),
    (e.optimize session counters).outcome = .ok e' →
      (e'.optimize session counters).outcome = .ok e' := by
  intro h
  have hagain := h {} (fun _ => 0) (comparison .equal (constant ⟨.array [.int 1], .array⟩)
    (column ⟨1, "T", "A", .int, true⟩) false) _ rfl
  cases hagain

end Expr
end QueryPredicates
