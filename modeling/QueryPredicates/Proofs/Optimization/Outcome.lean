import QueryPredicates.Optimization.Basic
import QueryPredicates.Proofs.Evaluation.Meaning

/-! What simplifying one node comes to, without the notes made on the way. A comparison is
turned, its right operand adapted to a column on the left, and the result settled; each of the
three steps is a function of the comparison alone. Neither the session nor the counters
have a say in the outcome, and the counters stay as they are. -/

namespace QueryPredicates

namespace Context

/-- A context in which nothing has a value, compared in the standard way. -/
def bare : Context := Session.context {}

end Context

theorem Expr.meaning_of_isConstant {e : Expr} (h : e.isConstant = true) (ctx ctx' : Context) :
    e.meaning ctx = e.meaning ctx' := by
  cases e <;> first | rfl | cases h

theorem Expr.provides_of_isConstant {e : Expr} (h : e.isConstant = true) (ctx : Context) :
    ∀ n ∈ e.nodes, ctx.Provides n := by
  cases e with
  | constant c => simp [nodes, Context.Provides]
  | _ => cases h

/-! ## The outcomes -/

namespace Comparison

/-- The comparison with a column on its left, if that can be had. -/
def oriented (c : Comparison) : Comparison :=
  if isTurned c.left c.right then ⟨c.op.reverse, c.right, c.left, c.whenOperand⟩ else c

/-- The constant in the type in which it meets a column. -/
def adaptedConstant (k : Constant) (columnType : SqlType) : Except CompileError Constant :=
  if k.type = columnType ∨ k.type = columnType.common k.type then .ok k
  else (k.convert (columnType.common k.type)).mapError .conversion

/-- The comparison with its right operand adapted to a column on its left. -/
def adapted (c : Comparison) : Except CompileError Comparison :=
  match c.left, c.right with
  | .column column, .constant k => do
    let k ← adaptedConstant k column.type
    return { c with right := .constant k }
  | .column column, .parameter p => .ok { c with right := .parameter (p.bindType column.type) }
  | _, _ => .ok c

/-- The operand beside a NULL constant. -/
def besideNull (c : Comparison) : Expr := if c.left.isNullConstant then c.right else c.left

/-- What becomes of a comparison with a NULL constant. -/
def settledNull (c : Comparison) : Expr :=
  if !c.op.isNullSafe then .unknown
  else if c.besideNull.type == .unknown || c.besideNull.type == .row then c.toExpr
  else .nullTest c.besideNull (c.op == .notEqualNullSafe)

/-- What becomes of a comparison once its operands have been adapted. -/
def settled (c : Comparison) : Expr :=
  match c.left.constant?, c.right.constant? with
  | some a, some b => .ofTruth (c.op.truth a.value b.value)
  | _, _ =>
    if c.left.isNullConstant || c.right.isNullConstant then c.settledNull else c.toExpr

/-- Whether the right operand is an array and the left one is not. -/
def isMismatched (c : Comparison) : Bool := c.right.type == .array && c.left.type != .array

/-- What becomes of a comparison of simplified operands. -/
def simplified (c : Comparison) : Except CompileError Expr :=
  if c.isMismatched then .error (.arrayAgainstScalar c.left.type c.right.type)
  else if c.whenOperand then .ok c.toExpr
  else settled <$> c.oriented.adapted

end Comparison

/-- What becomes of a null test of a simplified operand. -/
def NullTest.simplified (t : NullTest) : Expr :=
  match t.operand with
  | .constant c => .ofTruth (.ofBool (c.isNull != t.negated))
  | _ => t.toExpr

/-- What becomes of a list of simplified candidates. -/
def InList.simplified (l : InList) : Expr :=
  if l.operand.isNullConstant then .unknown
  else if l.operand.isConstant && l.values.all Expr.isConstant then
    .ofTruth (Context.bare.amongTruth (l.operand.meaning .bare) (l.values.map (·.meaning .bare)))
  else l.toExpr

/-! ## Inversion -/

theorem Expr.eq_constant_of_constant? {e : Expr} {k : Constant} (h : e.constant? = some k) :
    e = .constant k := by
  cases e <;> simp only [constant?, reduceCtorEq] at h
  cases h
  rfl

theorem Expr.isNullConstant_iff {e : Expr} :
    e.isNullConstant = true ↔ ∃ type, e = .constant ⟨.null, type⟩ := by
  constructor
  · intro h
    cases e with
    | constant k =>
      obtain ⟨value, type⟩ := k
      have hv : value = .null := Value.isNull_iff.mp h
      exact ⟨type, by rw [hv]⟩
    | _ => cases h
  · rintro ⟨type, rfl⟩
    rfl

theorem Expr.isSome_column?_iff {e : Expr} :
    e.column?.isSome = true ↔ ∃ c, e = .column c := by
  cases e <;> simp [column?]

theorem Expr.isConstant_iff {e : Expr} : e.isConstant = true ↔ ∃ k, e = .constant k := by
  cases e <;> simp [isConstant, constant?]

namespace Comparison

/-- The four ends of a comparison: two constants are folded, a NULL constant makes it unknown or
a null test, and else it stays. -/
theorem settled_cases (c : Comparison) :
    (∃ a b, c.left = .constant a ∧ c.right = .constant b ∧
      c.settled = .ofTruth (c.op.truth a.value b.value)) ∨
    (c.left.isConstant && c.right.isConstant) = false ∧
      ((c.left.isNullConstant || c.right.isNullConstant) = true ∧ c.op.isNullSafe = false ∧
        c.settled = .unknown ∨
      (c.left.isNullConstant || c.right.isNullConstant) = true ∧ c.op.isNullSafe = true ∧
        (c.besideNull.type == .unknown || c.besideNull.type == .row) = false ∧
        c.settled = .nullTest c.besideNull (c.op == .notEqualNullSafe) ∨
      ((c.left.isNullConstant || c.right.isNullConstant) = true → c.op.isNullSafe = true ∧
        (c.besideNull.type == .unknown || c.besideNull.type == .row) = true) ∧
        c.settled = c.toExpr) := by
  by_cases hboth : (c.left.isConstant && c.right.isConstant) = true
  · obtain ⟨hl, hr⟩ := Bool.and_eq_true_iff.mp hboth
    obtain ⟨a, ha⟩ := Expr.isConstant_iff.mp hl
    obtain ⟨b, hb⟩ := Expr.isConstant_iff.mp hr
    exact .inl ⟨a, b, ha, hb, by simp [settled, ha, hb, Expr.constant?]⟩
  · refine .inr ⟨Bool.eq_false_iff.mpr hboth, ?_⟩
    have hs : c.settled = if c.left.isNullConstant || c.right.isNullConstant then c.settledNull
        else c.toExpr := by
      unfold settled
      split
      · rename_i a b ha hb
        simp [Expr.isConstant, ha, hb] at hboth
      · rfl
    rw [hs]
    cases hn : c.left.isNullConstant || c.right.isNullConstant with
    | false => exact .inr (.inr ⟨nofun, rfl⟩)
    | true =>
      unfold settledNull
      cases hop : c.op.isNullSafe with
      | false => exact .inl ⟨rfl, rfl, rfl⟩
      | true =>
        cases ht : c.besideNull.type == .unknown || c.besideNull.type == .row with
        | false => exact .inr (.inl ⟨rfl, rfl, rfl, rfl⟩)
        | true => exact .inr (.inr ⟨fun _ => ⟨rfl, rfl⟩, rfl⟩)

/-- A constant or parameter beside a column is adapted, and else nothing is. -/
theorem adapted_cases {c d : Comparison} (h : c.adapted = .ok d) :
    (∃ column k k', c.left = .column column ∧ c.right = .constant k ∧
      adaptedConstant k column.type = .ok k' ∧ d = { c with right := .constant k' }) ∨
    (∃ column p, c.left = .column column ∧ c.right = .parameter p ∧
      d = { c with right := .parameter (p.bindType column.type) }) ∨
    (c.left.column?.isSome = true → c.right.isConstant = false ∧ c.right.isParameter = false) ∧
      d = c := by
  unfold adapted at h
  split at h
  · rename_i column k hl hr
    cases hk : adaptedConstant k column.type with
    | error e => rw [hk] at h; cases h
    | ok k' =>
      rw [hk] at h
      exact .inl ⟨column, k, k', hl, hr, hk, (Except.ok.inj h).symm⟩
  · rename_i column p hl hr
    exact .inr (.inl ⟨column, p, hl, hr, (Except.ok.inj h).symm⟩)
  · rename_i hconstant hparameter
    refine .inr (.inr ⟨fun hcol => ?_, (Except.ok.inj h).symm⟩)
    obtain ⟨column, hl⟩ := Expr.isSome_column?_iff.mp hcol
    cases hr : c.right <;> first
      | exact ⟨rfl, rfl⟩
      | exact (hconstant _ _ hl hr).elim
      | exact (hparameter _ _ hl hr).elim

/-- A constant is adapted by a conversion to the type of the column, or not at all. -/
theorem adaptedConstant_cases {k k' : Constant} {columnType : SqlType}
    (h : adaptedConstant k columnType = .ok k') :
    (k.type = columnType ∨ k.type = columnType.common k.type) ∧ k' = k ∨
      columnType.common k.type = columnType ∧ k'.type = columnType ∧
        k.value.convert columnType = .ok k'.value := by
  unfold adaptedConstant at h
  split at h
  · rename_i hc
    exact .inl ⟨hc, (Except.ok.inj h).symm⟩
  · rename_i hc
    have ht : columnType.common k.type = columnType :=
      (Value.common_eq_or columnType k.type).resolve_right fun he => hc (.inr he.symm)
    rw [ht, Constant.convert] at h
    cases hv : k.value.convert columnType with
    | error e => rw [hv] at h; cases h
    | ok v =>
      rw [hv] at h
      cases h
      exact .inr ⟨ht, rfl, rfl⟩

theorem simplified_cases {c : Comparison} {e : Expr} (h : c.simplified = .ok e) :
    c.isMismatched = false ∧ (c.whenOperand = true ∧ e = c.toExpr ∨
      c.whenOperand = false ∧ ∃ d, c.oriented.adapted = .ok d ∧ e = d.settled) := by
  unfold simplified at h
  split at h
  · cases h
  · rename_i hm
    refine ⟨Bool.eq_false_iff.mpr hm, ?_⟩
    split at h
    · rename_i hw
      exact .inl ⟨hw, (Except.ok.inj h).symm⟩
    · rename_i hw
      cases hd : c.oriented.adapted with
      | error e => rw [hd] at h; cases h
      | ok d =>
        rw [hd] at h
        exact .inr ⟨Bool.eq_false_iff.mpr hw, d, rfl, (Except.ok.inj h).symm⟩

end Comparison

/-! ## The steps yield them -/

open Run

theorem Compilation.evaluate_yields {α : Type} {m : Evaluation α} {o : Except EvalError α}
    (h : Yields m o) : Yields (Compilation.evaluate m) (o.mapError .evaluation) := by
  intro counters
  obtain ⟨ho, hc⟩ := h counters
  simp only [Compilation.evaluate, ho, hc, and_self]

namespace Comparison

theorem toUnknown_yields : Yields toUnknown (.ok .unknown) :=
  (Yields.note _).andThen (.pure _)

theorem coerce_yields (k : Constant) (columnType : SqlType) :
    Yields (coerce k columnType) (adaptedConstant k columnType) := by
  unfold coerce adaptedConstant
  simp only
  split
  · exact .pure k
  · exact (Yields.ofExcept _).thenNote _

/-- Constants are compared without the session. -/
theorem eval_constants_yields (session : Session) (op : Comparator) (a b : Constant) :
    Yields (Comparison.eval session.context ⟨op, .constant a, .constant b, false⟩)
      (.ok (op.truth a.value b.value)) := by
  have heval : Yields (Comparison.eval session.context ⟨op, .constant a, .constant b, false⟩)
      (.ok (session.context.verdict op a.value b.value)) :=
    Context.comparison_yields op (.pure a.value) (.pure b.value)
  rwa [Context.verdict_standard rfl] at heval

theorem fold_yields (session : Session) (op : Comparator) (a b : Constant) :
    Yields (fold session op (.constant a) (.constant b))
      (.ok (.ofTruth (op.truth a.value b.value))) :=
  (Compilation.evaluate_yields (eval_constants_yields session op a b)).andThen
    ((Yields.note _).andThen (.pure _))

theorem simplifyNull_yields (session : Session) (op : Comparator) (left right : Expr) :
    Yields (simplifyNull session op left right)
      (.ok (settledNull ⟨op, left, right, false⟩)) := by
  refine (Yields.note _).andThen ?_
  unfold settledNull besideNull
  simp only
  generalize (if left.isNullConstant = true then right else left) = operand
  split
  · exact toUnknown_yields
  · split
    · exact .pure _
    · exact (Yields.note _).andThen (.pure _)

theorem settle_yields (session : Session) (op : Comparator) (left right : Expr) :
    Yields (settle session op left right) (.ok (settled ⟨op, left, right, false⟩)) := by
  have hrest : Yields (if left.isNullConstant || right.isNullConstant then
      simplifyNull session op left right else pure (.comparison op left right false))
      (.ok (if left.isNullConstant || right.isNullConstant then
        settledNull ⟨op, left, right, false⟩ else toExpr ⟨op, left, right, false⟩)) := by
    split
    · exact simplifyNull_yields session op left right
    · exact .pure _
  unfold settle settled
  cases hl : left.constant? with
  | none => simpa [Expr.isConstant, hl] using hrest
  | some a =>
    cases hr : right.constant? with
    | none => simpa [Expr.isConstant, hr] using hrest
    | some b =>
      rw [Expr.eq_constant_of_constant? hl, Expr.eq_constant_of_constant? hr]
      exact fold_yields session op a b

/-- A NULL stays one in any type. -/
theorem adaptedConstant_of_isNull {k : Constant} (hk : k.isNull = true) (columnType : SqlType) :
    ∃ k', adaptedConstant k columnType = .ok k' ∧ k'.isNull = true := by
  unfold adaptedConstant
  split
  · exact ⟨k, rfl, hk⟩
  · obtain ⟨value, type⟩ := k
    have hv : value = .null := Value.isNull_iff.mp hk
    subst hv
    exact ⟨⟨.null, _⟩, rfl, rfl⟩

theorem adapted_eq_self {c : Comparison}
    (hconstant : ∀ column k, c.left = .column column → c.right = .constant k → False)
    (hparameter : ∀ column p, c.left = .column column → c.right = .parameter p → False) :
    c.adapted = .ok c := by
  unfold adapted
  split
  · rename_i column k hl hr
    exact (hconstant column k hl hr).elim
  · rename_i column p hl hr
    exact (hparameter column p hl hr).elim
  · rfl

theorem adapt_yields (session : Session) (op : Comparator) (left right : Expr) :
    Yields (adapt session op left right) (settled <$> adapted ⟨op, left, right, false⟩) := by
  unfold adapt
  split
  · rename_i column k
    simp only [adapted]
    split
    · -- the constant is dropped here before it is coerced, there after it
      rename_i hn
      obtain ⟨hk, hop⟩ := Bool.and_eq_true_iff.mp hn
      obtain ⟨k', hk', hnull⟩ := adaptedConstant_of_isNull hk column.type
      have hu : settled ⟨op, .column column, .constant k', false⟩ = .unknown := by
        have hright : Expr.isNullConstant (.constant k') = true := hnull
        simp [settled, settledNull, Expr.constant?, hright, hop]
      rw [hk']
      refine (Yields.note _).andThen ?_
      show Yields toUnknown (.ok (settled ⟨op, .column column, .constant k', false⟩))
      rw [hu]
      exact toUnknown_yields
    · rw [map_bind]
      exact (coerce_yields k column.type).bind fun k' _ => settle_yields session op _ _
  · exact settle_yields session op _ _
  · rename_i hconstant hparameter
    rw [adapted_eq_self hconstant hparameter]
    exact settle_yields session op left right

theorem orient_yields (session : Session) (op : Comparator) (left right : Expr) :
    Yields (orient session op left right)
      (settled <$> adapted (oriented ⟨op, left, right, false⟩)) := by
  unfold orient oriented
  simp only
  split
  · exact (Yields.note _).andThen (adapt_yields session _ _ _)
  · exact adapt_yields session _ _ _

theorem simplify_yields (session : Session) (c : Comparison) :
    Yields (simplify session c) c.simplified := by
  refine (Yields.note _).andThen ?_
  unfold simplified isMismatched
  split
  · exact .fail _
  · cases hw : c.whenOperand with
    | true => exact .pure _
    | false =>
      obtain ⟨op, left, right, whenOperand⟩ := c
      cases hw
      exact orient_yields session op left right

end Comparison

theorem NullTest.simplify_yields (t : NullTest) : Yields t.simplify (.ok t.simplified) := by
  obtain ⟨operand, negated⟩ := t
  cases operand with
  | constant c => exact (Yields.note _).andThen (.pure _)
  | _ => exact .pure _

/-- A list of constants is searched for one without the session. -/
theorem InList.eval_constants_yields (session : Session) {l : InList}
    (hc : (l.operand.isConstant && l.values.all Expr.isConstant) = true) :
    Yields (l.eval session.context) (.ok (Context.bare.amongTruth (l.operand.meaning .bare)
      (l.values.map (·.meaning .bare)))) := by
  obtain ⟨ho, hv⟩ := Bool.and_eq_true_iff.mp hc
  have heval := InList.eval_yields (Expr.provides_of_isConstant ho session.context) fun v hmem =>
    Expr.provides_of_isConstant (List.all_eq_true.mp hv v hmem) session.context
  have hoperand := Expr.meaning_of_isConstant ho session.context .bare
  have hvalues : l.values.map (·.meaning session.context) = l.values.map (·.meaning .bare) :=
    List.map_congr_left fun v hmem =>
      Expr.meaning_of_isConstant (List.all_eq_true.mp hv v hmem) _ _
  rwa [hoperand, hvalues] at heval

theorem InList.simplify_yields (session : Session) (l : InList) :
    Yields (l.simplify session) (.ok l.simplified) := by
  unfold simplify simplified
  split
  · exact (Yields.note _).andThen (.pure _)
  · split
    · rename_i hc
      have heval := InList.eval_constants_yields session hc
      exact (Compilation.evaluate_yields heval).andThen ((Yields.note _).andThen (.pure _))
    · exact .pure _

end QueryPredicates
