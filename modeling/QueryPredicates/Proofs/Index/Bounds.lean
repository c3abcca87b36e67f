import QueryPredicates.Proofs.Evaluation.Dependence
import QueryPredicates.Proofs.Index.Exactness

/-! The bounds of index conditions. A scan evaluates the bounds of its conditions before it has a
row of the table that it scans. It can, since the bounds of a derived condition do not refer to the
scanned access. -/

namespace QueryPredicates

namespace IndexCondition

/-- The expressions that a condition holds its column against. -/
def bounds : IndexCondition → List Expr
  | compare _ _ bound => [bound]
  | among _ values => values
  | never => []

/-- The condition is on a column of the access, and its bounds do not refer to the access. -/
def AnchoredOn (c : IndexCondition) (a : Access) : Prop :=
  ∃ column, c.column? = some column ∧ column.access = a.id ∧
    ∀ bound ∈ c.bounds, bound.references a.id = false

theorem anchoredOn_compare {a : Access} {op : Comparator} {column : Column} {bound : Expr}
    (h : a.Anchors op column bound) : (compare op column bound).AnchoredOn a :=
  ⟨column, rfl, h.own, List.forall_mem_singleton.mpr h.independent⟩

end IndexCondition

namespace Expr

theorem anchoredOn_derive {e : Expr} {a : Access} {c : IndexCondition}
    (h : (e.derive a).condition? = some c) : c.AnchoredOn a := by
  cases e with
  | comparison op left right whenOperand =>
    obtain ⟨column, -, hanchors, rfl⟩ | ⟨column, -, hanchors, rfl⟩ :=
      Comparison.derive_condition? h
    · exact IndexCondition.anchoredOn_compare hanchors
    · exact IndexCondition.anchoredOn_compare hanchors
  | nullTest operand negated =>
    obtain ⟨-, column, -, hanchors, rfl⟩ := NullTest.derive_condition? h
    exact IndexCondition.anchoredOn_compare hanchors
  | inList operand first rest =>
    obtain ⟨column, -, hown, hvalues, rfl⟩ := InList.derive_condition? h
    exact ⟨column, rfl, hown, hvalues⟩
  | _ => cases h

/-- A derived condition is on a column of its access, and on any two joined rows that agree but for
that access its bounds are evaluated alike, with the same outcome, effects and record whatever the
counters are. -/
theorem derive_independent {e : Expr} {a : Access} {c : IndexCondition}
    (h : (e.derive a).condition? = some c) :
    (∃ column, c.column? = some column ∧ column.access = a.id) ∧
    ∀ (session : Session) (rows rows' : List (AccessId × Cells)),
      (Row.joined rows).AgreesBut a.id (.joined rows') →
      ∀ bound ∈ c.bounds,
        bound.eval (session.withRow (.joined rows)) = bound.eval (session.withRow (.joined rows')) := by
  obtain ⟨column, hcolumn, haccess, hbounds⟩ := anchoredOn_derive h
  exact ⟨⟨column, hcolumn, haccess⟩, fun session rows rows' hrows bound hbound =>
    eval_eq_of_not_references session (hbounds bound hbound) hrows⟩

/-- `T.A IN(U.B, (NEXT VALUE FOR S = U.B) IS NULL)` has candidates that can be evaluated before there
is a row of T. -/
theorem derive_independent_nested :
    let a : Access := { id := 1, table := "T" }
    let column : Column := ⟨1, "T", "A", .int, true⟩
    let other : Expr := .column ⟨2, "U", "B", .int, true⟩
    let test : Expr := .nullTest (.comparison .equal (.nextValue ⟨0, "S", 1⟩) other false) false
    let row (n : Int32) : Row := .joined [(1, [("A", .int n)]), (2, [("B", .int 7)])]
    (derive (.inList (.column column) other [test]) a).condition? =
      some (.among column [other, test]) ∧
    (row 1).AgreesBut a.id (row 2) ∧
    test.eval (Session.withRow {} (row 1)) = test.eval (Session.withRow {} (row 2)) := by
  intro a column other test row
  have hcondition : (derive (.inList (.column column) other [test]) a).condition? =
      some (.among column [other, test]) := rfl
  have hrows : (row 1).AgreesBut a.id (row 2) := by
    intro c hc
    have hlookup : (c.access == 1) = false := beq_eq_false_iff_ne.mpr hc
    simp only [row, Row.column, List.lookup_cons, hlookup]
  refine ⟨hcondition, hrows, ?_⟩
  exact (derive_independent hcondition).2 {} _ _ hrows test (by simp [IndexCondition.bounds])

end Expr
end QueryPredicates
