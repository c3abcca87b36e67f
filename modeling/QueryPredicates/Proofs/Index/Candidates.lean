import QueryPredicates.Proofs.Index.Exactness

/-! Lists and the equalities that they stand for. A list yields a condition if each of its candidates
would yield one in an equality, with one exception. An equality refuses a text that ignores case beside a
column of any other type; a list refuses it only where the two meet in the type of the text, and admits it
where the type of the column is of higher rank. -/

namespace QueryPredicates

namespace SqlType

theorem eq_of_rank {a b : SqlType} (h : a.rank = b.rank) : a = b := by
  cases a <;> cases b <;> first | rfl | cases h

theorem common_eq_textIgnoreCase_iff {a : SqlType} (h : a ≠ textIgnoreCase) (b : SqlType) :
    a.common b = textIgnoreCase ↔ b = textIgnoreCase ∧ a.rank < textIgnoreCase.rank := by
  cases a <;> cases b <;> first | decide | exact absurd rfl h

end SqlType

namespace Access

variable {a : Access} {column : Column}

theorem ownColumn?_column (hown : column.access = a.id) :
    a.ownColumn? (.column column) = some column := by
  simp [ownColumn?, Expr.column?, hown]

theorem anchor_equal_iff {bound : Expr} : (a.anchor .equal column bound).condition?.isSome = true ↔
    bound.references a.id = false ∧
      ¬ (bound.type = .textIgnoreCase ∧ column.type ≠ .textIgnoreCase) := by
  have hguard : (column.type != bound.type && bound.type == .textIgnoreCase) = true ↔
      bound.type = .textIgnoreCase ∧ column.type ≠ .textIgnoreCase := by
    rw [Bool.and_eq_true, bne_iff_ne, beq_iff_eq, and_comm]
    exact and_congr_right fun htype => by rw [htype]
  unfold anchor
  rw [← hguard]
  by_cases hreferences : bound.references a.id = true
  · simp [hreferences, Derivation.condition?]
  · rw [if_neg hreferences, if_neg (by decide)]
    by_cases htype : (column.type != bound.type && bound.type == .textIgnoreCase) = true
    · simp [htype, Derivation.condition?]
    · simp [hreferences, htype, Derivation.condition?]

/-- An equality yields a condition if its bound does not refer to the access, and is no text that
ignores case beside a column of another type. -/
theorem equality_iff (hown : column.access = a.id) (bound : Expr) :
    ((Expr.comparison .equal (.column column) bound false).derive a).condition?.isSome = true ↔
      a.queryComparable = true ∧ bound.references a.id = false ∧
        ¬ (bound.type = .textIgnoreCase ∧ column.type ≠ .textIgnoreCase) := by
  rw [← anchor_equal_iff (a := a)]
  cases hcomparable : a.queryComparable with
  | false => simp [Expr.derive, Comparison.derive, hcomparable, Derivation.condition?]
  | true =>
    simp only [Expr.derive, Comparison.derive, hcomparable, ownColumn?_column hown]
    cases hbound : a.ownColumn? bound with
    | none => simp
    | some own =>
      obtain ⟨rfl, howner⟩ := ownColumn?_eq_some hbound
      simp [anchor, Expr.references, howner, Derivation.condition?]

theorem refuses?_eq_none_iff {candidate : Expr} : a.refuses? column candidate = none ↔
    candidate.references a.id = false ∧
      ¬ (candidate.type = .textIgnoreCase ∧ column.type.rank < SqlType.textIgnoreCase.rank) := by
  unfold refuses?
  by_cases hreferences : candidate.references a.id = true
  · simp [hreferences]
  · by_cases hcolumn : column.type = .textIgnoreCase
    · simp [hreferences, hcolumn]
    · simp [hreferences, hcolumn, SqlType.common_eq_textIgnoreCase_iff hcolumn]

/-- A list yields a condition if no candidate is refused. -/
theorem list_iff (hown : column.access = a.id) (first : Expr) (rest : List Expr) :
    ((Expr.inList (.column column) first rest).derive a).condition?.isSome = true ↔
      a.queryComparable = true ∧ ∀ v ∈ first :: rest, a.refuses? column v = none := by
  cases hcomparable : a.queryComparable with
  | false => simp [Expr.derive, InList.derive, hcomparable, Derivation.condition?]
  | true =>
    rw [← List.findSome?_eq_none_iff]
    simp only [Expr.derive, InList.derive, InList.values, hcomparable, ownColumn?_column hown,
      Option.elim_some]
    cases (first :: rest).findSome? (a.refuses? column) <;> simp [Derivation.condition?]

/-- The access takes conditions, and the candidate is a text that ignores case, but the column is of higher
rank and decides how the two are compared. -/
structure Overrides (a : Access) (column : Column) (candidate : Expr) : Prop where
  comparable : a.queryComparable = true
  independent : candidate.references a.id = false
  ignoresCase : candidate.type = .textIgnoreCase
  outranked : SqlType.textIgnoreCase.rank < column.type.rank

theorem candidate_iff (hown : column.access = a.id) (candidate : Expr) :
    a.queryComparable = true ∧ a.refuses? column candidate = none ↔
      ((Expr.comparison .equal (.column column) candidate false).derive a).condition?.isSome = true ∨
        a.Overrides column candidate := by
  rw [equality_iff hown, refuses?_eq_none_iff]
  constructor
  · rintro ⟨hcomparable, hindependent, hguard⟩
    by_cases hignores : candidate.type = .textIgnoreCase ∧ column.type ≠ .textIgnoreCase
    · obtain ⟨htype, hcolumn⟩ := hignores
      have hlow : ¬ column.type.rank < SqlType.textIgnoreCase.rank := fun h => hguard ⟨htype, h⟩
      have hne : column.type.rank ≠ SqlType.textIgnoreCase.rank := fun h =>
        hcolumn (SqlType.eq_of_rank h)
      exact .inr ⟨hcomparable, hindependent, htype, by omega⟩
    · exact .inl ⟨hcomparable, hindependent, hignores⟩
  · rintro (⟨hcomparable, hindependent, hguard⟩ | ⟨hcomparable, hindependent, -, houtranked⟩)
    · refine ⟨hcomparable, hindependent, fun ⟨htype, hlow⟩ => hguard ⟨htype, fun hcolumn => ?_⟩⟩
      rw [hcolumn] at hlow
      exact Nat.lt_irrefl _ hlow
    · exact ⟨hcomparable, hindependent, fun ⟨_, hlow⟩ => Nat.lt_asymm hlow houtranked⟩

/-- A list over a column of the access yields a condition exactly if each of its candidates does in an
equality with the column, or is overridden by it; an overridden candidate does not in an equality. -/
theorem list_iff_equalities (hown : column.access = a.id) (first : Expr) (rest : List Expr) :
    let yields (e : Expr) : Prop := (e.derive a).condition?.isSome = true
    (yields (.inList (.column column) first rest) ↔ ∀ v ∈ first :: rest,
      yields (.comparison .equal (.column column) v false) ∨ a.Overrides column v) ∧
    ∀ v, a.Overrides column v → ¬ yields (.comparison .equal (.column column) v false) := by
  intro yields
  constructor
  · simp only [yields, ← candidate_iff hown, list_iff hown]
    constructor
    · intro ⟨hcomparable, hnone⟩ v hv
      exact ⟨hcomparable, hnone v hv⟩
    · intro h
      exact ⟨(h first List.mem_cons_self).1, fun v hv => (h v hv).2⟩
  · rintro v ⟨-, -, htype, houtranked⟩ hequality
    obtain ⟨-, -, hguard⟩ := (equality_iff hown v).mp hequality
    refine hguard ⟨htype, fun hcolumn => ?_⟩
    rw [hcolumn] at houtranked
    exact Nat.lt_irrefl _ houtranked

/-- `T.A IN (5, S.B)` with T.A of type INTEGER yields a condition, and so does `T.A = 5`. -/
theorem list_iff_equalities_mixed :
    let a : Access := { id := 1, table := "T" }
    let column : Column := a.column "A" .int
    let other : Expr := .column ⟨2, "S", "B", .textIgnoreCase, true⟩
    let five : Expr := .constant ⟨.int 5, .int⟩
    let yields (e : Expr) : Prop := (e.derive a).condition?.isSome = true
    column.access = a.id ∧ a.Overrides column other ∧
      yields (.inList (.column column) five [other]) ∧
      yields (.comparison .equal (.column column) five false) ∧
      ¬ yields (.comparison .equal (.column column) other false) := by
  intro a column other five yields
  have hown : column.access = a.id := rfl
  obtain ⟨hlist, hoverridden⟩ := list_iff_equalities hown five [other]
  have hother : a.Overrides column other := ⟨rfl, rfl, rfl, by decide⟩
  have hfive : yields (.comparison .equal (.column column) five false) := rfl
  refine ⟨hown, hother, hlist.mpr ?_, hfive, hoverridden other hother⟩
  simp only [List.forall_mem_cons, List.not_mem_nil, IsEmpty.forall_iff, implies_true, and_true]
  exact ⟨.inl hfive, .inr hother⟩

/-- `T.A IN (S.B)` yields a condition where `T.A = S.B` does not. -/
theorem list_not_iff_equalities : ¬ ∀ (a : Access) (column : Column) (first : Expr) (rest : List Expr),
    column.access = a.id →
      (((Expr.inList (.column column) first rest).derive a).condition?.isSome = true ↔
        ∀ v ∈ first :: rest,
          ((Expr.comparison .equal (.column column) v false).derive a).condition?.isSome = true) := by
  intro h
  let a : Access := { id := 1, table := "T" }
  have hlist := (h a (a.column "A" .int) (.column ⟨2, "S", "B", .textIgnoreCase, true⟩) [] rfl).mp rfl
  exact absurd (hlist _ List.mem_cons_self) (by decide)

end Access
end QueryPredicates
