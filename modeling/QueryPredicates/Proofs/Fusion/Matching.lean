import QueryPredicates.Index.Access
import QueryPredicates.Proofs.Fusion.Soundness

/-! Which columns are taken to be one. Operands are matched by their texts, and the text of a column
is its qualifier and its name with a point between, so that two accesses are told apart if neither
qualifier, with the point, begins the other. A self-join has two accesses with one qualifier, whose
columns of one name are matched with each other. -/

namespace QueryPredicates

/-- A constant, a parameter or a column of one of two accesses. -/
inductive Access.Operand (x y : Access) : Expr → Prop
  | constant (k : Constant) : Operand x y (.constant k)
  | parameter (p : Parameter) : Operand x y (.parameter p)
  | first (name : String) (type : SqlType) : Operand x y (.column (x.column name type))
  | second (name : String) (type : SqlType) : Operand x y (.column (y.column name type))

theorem Access.Operand.symm {x y : Access} {e : Expr} (h : x.Operand y e) : y.Operand x e := by
  cases h with
  | constant k => exact .constant k
  | parameter p => exact .parameter p
  | first name type => exact .second name type
  | second name type => exact .first name type

namespace Comparison

/-- As `transitivePairing?`, for the disjunction of two equalities. -/
def membershipPairing? (a b : Comparison) : Option (SharedOperand × Expr) :=
  (pairings a b).find? fun (p, matched) =>
    p.first.isConstant && p.second.isConstant && p.shared.sql == matched.sql

/-- The operand of a comparison that is written like `e`. -/
def alike? (c : Comparison) (e : Expr) : Option Expr :=
  [c.left, c.right].find? (·.sql == e.sql)

/-- The operands of a comparison are constants, parameters and columns of two accesses. -/
def Over (c : Comparison) (x y : Access) : Prop := x.Operand y c.left ∧ x.Operand y c.right

theorem Over.symm {c : Comparison} {x y : Access} (h : c.Over x y) : c.Over y x :=
  ⟨h.1.symm, h.2.symm⟩

theorem Over.operand {c : Comparison} {x y : Access} (h : c.Over x y) {e : Expr}
    (he : e ∈ [c.left, c.right]) : x.Operand y e := by
  rcases List.mem_cons.mp he with rfl | he
  · exact h.1
  · obtain rfl := List.mem_singleton.mp he
    exact h.2

theorem mem_operands {c : Comparison} {e f : Expr} (h : c.HasOperands e f) :
    e ∈ [c.left, c.right] := by
  obtain ⟨rfl, -⟩ | ⟨-, rfl⟩ := h
  · exact List.mem_cons_self
  · exact List.mem_cons_of_mem _ List.mem_cons_self

theorem operands_of_find? {a b : Comparison} (accepts : SharedOperand → Bool) {p : SharedOperand}
    {e : Expr} (h : (pairings a b).find? (fun (p, matched) =>
      accepts p && p.shared.sql == matched.sql) = some (p, e)) :
    p.shared ∈ [a.left, a.right] ∧ e ∈ [b.left, b.right] ∧ p.shared.sql = e.sql := by
  obtain ⟨hfirst, hsecond⟩ := hasOperands_of_mem_pairings (List.mem_of_find?_eq_some h)
  have hsql := List.find?_some h
  rw [Bool.and_eq_true_iff, beq_iff_eq] at hsql
  exact ⟨mem_operands hfirst, mem_operands hsecond, hsql.2⟩

theorem alike?_eq_some {c : Comparison} {d e : Expr} (h : c.alike? e = some d) :
    d ∈ [c.left, c.right] ∧ d.sql = e.sql := by
  unfold alike? at h
  have hsql := List.find?_some h
  exact ⟨List.mem_of_find?_eq_some h, beq_iff_eq.mp hsql⟩

end Comparison

/-- The ways in which operands of two equalities are matched. -/
inductive Matcher where
  | transitive
  | membership
  | partner

namespace Matcher
open Comparison

/-- The matcher finds two equalities to share an operand: the first operand, of the first of them, is
taken to be the second operand, of the second. -/
inductive Matches : Matcher → Comparison → Comparison → Expr → Expr → Prop
  | transitive {a b : Comparison} {p : SharedOperand} {e : Expr}
      (h : (a.transitiveEqual? b).isSome = true) (hp : a.transitivePairing? b = some (p, e)) :
      Matches .transitive a b p.shared e
  | membership {a b : Comparison} {p : SharedOperand} {e : Expr}
      (h : (a.membership? b).isSome = true) (hp : a.membershipPairing? b = some (p, e)) :
      Matches .membership a b p.shared e
  | partner {a b : Comparison} {d e : Expr} (h : (a.equalPartner? e).isSome = true)
      (he : e ∈ [b.left, b.right]) (hd : a.alike? e = some d) : Matches .partner a b d e

/-- Matched operands belong to the two comparisons and have one text. -/
theorem Matches.sql_eq {m : Matcher} {a b : Comparison} {d e : Expr} (h : m.Matches a b d e) :
    d ∈ [a.left, a.right] ∧ e ∈ [b.left, b.right] ∧ d.sql = e.sql := by
  cases h with
  | transitive _ hp =>
    exact operands_of_find? (fun p => !(p.first.isConstant && p.second.isConstant)) hp
  | membership _ hp =>
    exact operands_of_find? (fun p => p.first.isConstant && p.second.isConstant) hp
  | partner _ he hd =>
    obtain ⟨hmem, hsql⟩ := alike?_eq_some hd
    exact ⟨hmem, he, hsql⟩

end Matcher

/-! ## Qualifiers -/

namespace Access

/-- What a column of the access is written with before its name. -/
def lead (a : Access) : List Char := a.table.toList ++ ['.']

theorem sql_column (a : Access) (name : String) (type : SqlType) :
    (a.column name type).sql.toList = a.lead ++ name.toList := by
  rw [Column.sql, String.toList_append, String.toList_append]
  rfl

/-- Columns of two accesses, the lead of one of which begins the other, may have one text. -/
theorem exists_sql_eq {x y : Access} (h : x.lead <+: y.lead) :
    ∃ name name' : String, ∀ type type' : SqlType,
      (x.column name type).sql = (y.column name' type').sql := by
  obtain ⟨rest, hrest⟩ := h
  refine ⟨String.ofList rest, "", fun type type' => String.toList_inj.mp ?_⟩
  rw [sql_column, sql_column, String.toList_ofList, hrest]
  exact (List.append_nil _).symm

/-- And else have not. -/
theorem lead_comparable {x y : Access} {name name' : String} {type type' : SqlType}
    (h : (x.column name type).sql = (y.column name' type').sql) :
    x.lead <+: y.lead ∨ y.lead <+: x.lead := by
  have hlist := congrArg String.toList h
  rw [sql_column, sql_column] at hlist
  have hy : y.lead <+: x.lead ++ name.toList := hlist ▸ List.prefix_append _ _
  exact List.prefix_or_prefix_of_prefix (List.prefix_append _ _) hy

end Access

namespace Matcher
open Comparison

/-- Columns of one text are matched in every way, of equalities with a parameter or a constant. -/
theorem matches_of_sql_eq (m : Matcher) {c d : Column} (h : c.sql = d.sql) : ∃ e,
    (∀ x y : Access, x.Operand y e) ∧
      m.Matches ⟨.equal, .column c, e, false⟩ ⟨.equal, .column d, e, false⟩ (.column c)
        (.column d) := by
  have hsql : (Expr.column c).sql = (Expr.column d).sql := h
  cases m with
  | transitive =>
    let e := Expr.parameter ⟨1, none⟩
    have he : e.isConstant = false := rfl
    refine ⟨e, fun _ _ => .parameter _, .transitive (p := ⟨.column c, e, e⟩) ?_ ?_⟩
    · simp [transitiveEqual?, pair?, pairings, hsql, he]
    · simp [transitivePairing?, pairings, hsql, he]
  | membership =>
    let e := Expr.constant (.ofValue (.int 1))
    have he : e.isConstant = true := rfl
    refine ⟨e, fun _ _ => .constant _, .membership (p := ⟨.column c, e, e⟩) ?_ ?_⟩
    · simp [membership?, pair?, pairings, hsql, he]
    · simp [membershipPairing?, pairings, hsql, he]
  | partner =>
    refine ⟨.parameter ⟨1, none⟩, fun _ _ => .parameter _, .partner ?_ List.mem_cons_self ?_⟩
    · simp [equalPartner?, hsql]
    · simp [alike?, hsql]

/-- If the lead of one access begins that of the other, the matchers confuse the two. -/
theorem exists_confused (m : Matcher) {x y : Access} (hid : x.id ≠ y.id) (h : x.lead <+: y.lead) :
    ∃ (a b : Comparison) (c d : Column), a.Over x y ∧ b.Over x y ∧
      m.Matches a b (.column c) (.column d) ∧ c.access ≠ d.access := by
  obtain ⟨name, name', hsql⟩ := Access.exists_sql_eq h
  obtain ⟨e, he, hmatches⟩ := m.matches_of_sql_eq (hsql .int .int)
  exact ⟨_, _, _, _, ⟨.first name .int, he x y⟩, ⟨.second name' .int, he x y⟩, hmatches, hid⟩

/-- Matched columns always belong to one access if and only if neither lead begins the other. -/
theorem matched_same_access_iff {x y : Access} (hid : x.id ≠ y.id) (m : Matcher) :
    (∀ (a b : Comparison) (c d : Column), a.Over x y → b.Over x y →
        m.Matches a b (.column c) (.column d) → c.access = d.access) ↔
      ¬x.lead <+: y.lead ∧ ¬y.lead <+: x.lead := by
  constructor
  · intro h
    constructor
    · intro hlead
      obtain ⟨a, b, c, d, ha, hb, hmatches, hne⟩ := m.exists_confused hid hlead
      exact hne (h a b c d ha hb hmatches)
    · intro hlead
      obtain ⟨a, b, c, d, ha, hb, hmatches, hne⟩ := m.exists_confused hid.symm hlead
      exact hne (h a b c d ha.symm hb.symm hmatches)
  · rintro ⟨hxy, hyx⟩ a b c d ha hb hmatches
    obtain ⟨hc, hd, hsql⟩ := hmatches.sql_eq
    have hc := ha.operand hc
    have hd := hb.operand hd
    -- columns of two accesses would have comparable leads
    cases hc with
    | first =>
      cases hd with
      | first => rfl
      | second => exact ((Access.lead_comparable hsql).elim hxy hyx).elim
    | second =>
      cases hd with
      | first => exact ((Access.lead_comparable hsql).elim hyx hxy).elim
      | second => rfl

/-- Of two tables, the disjunction of `T.A = 1` and `U.A = 2` matches no columns. -/
theorem matched_same_access_tables :
    let x : Access := ⟨1, "T", true, []⟩
    let y : Access := ⟨2, "U", true, []⟩
    let equal (z : Access) (n : Int32) : Comparison :=
      ⟨.equal, .column (z.column "A" .int), .constant (.ofValue (.int n)), false⟩
    x.id ≠ y.id ∧ ¬Matches .membership (equal x 1) (equal y 2) (.column (x.column "A" .int))
      (.column (y.column "A" .int)) := by
  intro x y equal
  have hid : x.id ≠ y.id := by decide
  refine ⟨hid, fun hmatches => hid ?_⟩
  have hsame := (matched_same_access_iff hid .membership).mpr (by decide)
  exact hsame _ _ _ _ ⟨.first "A" .int, .constant _⟩ ⟨.second "A" .int, .constant _⟩ hmatches

/-- In a self-join, of `T.A = T.B` of one access and `T.A = T.C` of the other follows `T.B = T.C`. -/
theorem self_join_confused : ¬∀ (x y : Access) (m : Matcher) (a b : Comparison) (c d : Column),
    x.id ≠ y.id → a.Over x y → b.Over x y → m.Matches a b (.column c) (.column d) →
      c.access = d.access := by
  intro h
  let x : Access := ⟨1, "T", true, []⟩
  let y : Access := ⟨2, "T", true, []⟩
  let a : Comparison := ⟨.equal, .column (x.column "A" .int), .column (x.column "B" .int), false⟩
  let b : Comparison := ⟨.equal, .column (y.column "A" .int), .column (y.column "C" .int), false⟩
  have hmatches : Matches .transitive a b (.column (x.column "A" .int))
      (.column (y.column "A" .int)) :=
    .transitive (p := ⟨a.left, a.right, b.right⟩) rfl rfl
  have hsame := h x y .transitive a b _ _ (by decide) ⟨.first "A" .int, .first "B" .int⟩
    ⟨.second "A" .int, .second "C" .int⟩ hmatches
  exact absurd hsame (by decide)

end Matcher
end QueryPredicates
