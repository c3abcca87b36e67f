import QueryPredicates.Index.Storage
import QueryPredicates.Proofs.Index.Collection

/-! Stored conditions meet no fault. They are built in three shapes, and these are what an `IndexCondition`
says; so deriving, adding, masking and rendering stored conditions come to the same as with those. The
operator that is asserted may be the reverse of the one that was checked, but as many bound an index. -/

namespace QueryPredicates

/-- The shapes of a condition: a column against an expression under an operator that can bound an
index, a column against a list, or neither. -/
inductive Triple.WellFormed : Triple → Prop
  | compare {op : Operator} {column : Column} {bound : Expr} (h : op.boundsIndex = .ok true) :
      WellFormed ⟨some column, op, some (.expr bound)⟩
  | among {column : Column} {values : List Expr} :
      WellFormed ⟨some column, .inList, some (.list values)⟩
  | never : WellFormed ⟨none, .alwaysFalse, none⟩

namespace IndexCondition

theorem triple_wellFormed {c : IndexCondition} (h : c.boundsIndex = true) :
    c.triple.WellFormed := by
  cases c with
  | compare op column bound => exact .compare (congrArg Except.ok h)
  | among column values => exact .among
  | never => exact .never

theorem triple_mask {c : IndexCondition} (h : c.boundsIndex = true) :
    c.triple.mask = .ok c.mask := by
  cases c with
  | compare op column bound => cases op <;> first | rfl | cases h
  | among column values => rfl
  | never => rfl

theorem triple_sql (c : IndexCondition) : c.triple.sql = .ok c.sql := by
  cases c with
  | compare op column bound =>
    have hop : (Operator.comparator op == .comparator .equalNullSafe) = (op == .equalNullSafe) := by
      cases op <;> rfl
    simp only [Triple.sql, triple, column?, operator, bound?, sql, hop]
    split <;> rfl
  | among column values => rfl
  | never => rfl

/-- The assertion refuses what `ofOperator` does. -/
theorem triple_ofOperator (op : Operator) (column : Column) (bound : Expr) :
    Triple.compare op column bound =
      ((ofOperator op column bound).mapError .defect).map triple := by
  cases op with
  | comparator op =>
    rw [ofOperator_comparator]
    change (if op.boundsIndex then _ else _) = _
    split <;> rfl
  | _ => rfl

end IndexCondition

/-! ## Deriving -/

theorem IndexCondition.triple_derived (c : IndexCondition) :
    c.triple.derived = .ok (some c.triple) := by
  rw [Triple.derived, c.triple_sql]
  rfl

theorem Comparator.boundsIndex_reverse (c : Comparator) : c.reverse.boundsIndex = c.boundsIndex := by
  cases c <;> rfl

theorem Access.anchorTriple_eq (a : Access) {own op : Comparator} (column : Column) (bound : Expr)
    (h : op.boundsIndex = own.boundsIndex) :
    a.anchorTriple (.comparator own) (.comparator op) column bound =
      .ok ((a.anchor op column bound).condition?.map IndexCondition.triple) := by
  have hown : (Operator.comparator own).boundsIndex = .ok op.boundsIndex := congrArg Except.ok h.symm
  unfold anchorTriple anchor
  rw [hown]
  -- the bound is refused for the same reasons, in the same order
  split
  · rfl
  · cases hop : op.boundsIndex with
    | false => rfl
    | true =>
      change (if _ then _ else _) = _
      split
      · rfl
      · rw [IndexCondition.triple_ofOperator, IndexCondition.ofOperator_comparator, if_pos hop]
        exact IndexCondition.triple_derived _

theorem Comparison.deriveTriple_eq (c : Comparison) (a : Access) :
    c.deriveTriple a = .ok ((c.derive a).condition?.map IndexCondition.triple) := by
  unfold deriveTriple derive
  split
  · rfl
  · cases a.ownColumn? c.left with
    | some column =>
      cases a.ownColumn? c.right with
      | some _ => rfl
      | none => exact a.anchorTriple_eq column c.right rfl
    | none =>
      cases a.ownColumn? c.right with
      | some column => exact a.anchorTriple_eq column c.left c.op.boundsIndex_reverse
      | none => rfl

theorem NullTest.deriveTriple_eq (t : NullTest) (a : Access) :
    t.deriveTriple a = .ok ((t.derive a).condition?.map IndexCondition.triple) := by
  unfold deriveTriple derive
  split
  · rfl
  · cases a.ownColumn? t.operand with
    | none => rfl
    | some column => exact IndexCondition.triple_derived (.compare .equalNullSafe column .null)

theorem InList.deriveTriple_eq (l : InList) (a : Access) :
    l.deriveTriple a = .ok ((l.derive a).condition?.map IndexCondition.triple) := by
  unfold deriveTriple derive
  split
  · rfl
  · cases a.ownColumn? l.operand with
    | none => rfl
    | some column =>
      simp only [Option.elim_some]
      cases l.values.findSome? (a.refuses? column) with
      | some reason => rfl
      | none => exact IndexCondition.triple_derived (.among column l.values)

theorem Expr.appendsTriple_eq (e : Expr) (session : Session) (a : Access) :
    e.appendsTriple session a = .ok ((e.appends? session a).map IndexCondition.triple) := by
  unfold appendsTriple appends?
  split
  · rfl
  · cases e with
    | comparison op left right whenOperand => exact Comparison.deriveTriple_eq _ a
    | nullTest operand negated => exact NullTest.deriveTriple_eq _ a
    | inList operand first rest => exact InList.deriveTriple_eq _ a
    | constant c =>
      simp only
      cases (constant c).isFalse <;> rfl
    | _ => rfl

/-! ## Accesses -/

theorem Access.store_addCondition (a : Access) (c : IndexCondition) :
    (a.addCondition c).store = a.store.push c.triple := by
  simp [Access.store, addCondition, Store.push]

theorem Construction.store_toOption (construction : Construction) :
    construction.store.toOption = construction.build.toOption.map IndexCondition.triple := by
  cases construction with
  | compare op column bound =>
    rw [store, build, IndexCondition.triple_ofOperator]
    cases IndexCondition.ofOperator op column bound <;> rfl
  | among column values => rfl
  | never => rfl

theorem Step.store_apply (a : Access) (s : Step) : s.store a.store = .ok (s.apply a).store := by
  cases s with
  | mark queryComparable => rfl
  | create e session =>
    have happends : e.appends? session a.store.access = e.appends? session a :=
      (Step.create e session).appends?_conditions a []
    rw [store, e.appendsTriple_eq, happends, apply, e.createConditions_value]
    cases e.appends? session a with
    | none => simp
    | some c => exact congrArg Except.ok (a.store_addCondition c).symm
  | add construction =>
    rw [store, apply, construction.store_toOption]
    cases construction.build.toOption with
    | none => rfl
    | some c => exact congrArg Except.ok (a.store_addCondition c).symm

/-- No fault stops a run. -/
theorem Access.store_run (a : Access) (steps : List Step) :
    a.store.run steps = .ok (a.run steps).store := by
  induction steps generalizing a with
  | nil => rfl
  | cons s steps ih =>
    rw [Store.run, List.foldlM_cons, s.store_apply]
    exact ih (s.apply a)

theorem IndexCondition.foldlM_triple_mask {cs : List IndexCondition}
    (h : ∀ c ∈ cs, c.boundsIndex = true) (m : ScanMask) :
    cs.foldlM (fun m c => do return m.union (← c.triple.mask)) m =
      (.ok (cs.foldl (fun m c => m.union c.mask) m) : Except Fault ScanMask) := by
  induction cs generalizing m with
  | nil => rfl
  | cons c cs ih =>
    obtain ⟨hc, hcs⟩ := List.forall_mem_cons.mp h
    rw [List.foldlM_cons, triple_mask hc]
    exact ih hcs (m.union c.mask)

/-- Masks of conditions whose comparators bound an index meet no fault. -/
theorem Access.store_maskFor {a : Access} (h : ∀ c ∈ a.conditions, c.boundsIndex = true)
    (name : String) : a.store.maskFor name = .ok (a.maskFor name) := by
  have hcovers : ((fun t : Triple => t.op == .alwaysFalse || t.column.any (·.name == name)) ∘
      IndexCondition.triple) = fun c => c.isNever || c.column?.any (·.name == name) := by
    funext c
    cases c <;> rfl
  rw [Store.maskFor, Access.store, List.filter_map, List.foldlM_map, hcovers]
  exact IndexCondition.foldlM_triple_mask (fun c hc => h c (List.mem_of_mem_filter hc)) {}

/-! ## What runs collect -/

/-- The conditions that a run collects are well formed. The run meets no fault in what it stores,
nor do masks and texts. Another expression appends at most one condition, after those that there
are, and only if deriving is switched on: one that never holds or, for a comparable access, one on
a column of the access. A mask has the flags of the conditions that cover its column, whatever
order they were added in, and keeps them. -/
theorem Access.run_collects (id : AccessId) (table : String) (steps : List Step) :
    let a := run { id, table } steps
    Store.run { id, table } steps = .ok a.store ∧
    (∀ t ∈ a.store.conditions, t.WellFormed) ∧
    (∀ c ∈ a.conditions, c.triple.mask = .ok c.mask ∧ c.triple.sql = .ok c.sql) ∧
    (∀ (e : Expr) (session : Session), (e.createConditions session a).value = a ∨
      session.settings.deriveConditions = true ∧
        ∃ c, (e.createConditions session a).value = a.addCondition c ∧
          (c = .never ∨ a.queryComparable = true ∧
            ∃ column, c.column? = some column ∧ column.access = id)) ∧
    ∀ name, a.store.maskFor name = .ok (a.maskFor name) ∧
      (∀ flag, (a.maskFor name).has flag = true ↔
        ∃ c ∈ a.conditions, c.Covers name ∧ c.mask.has flag = true) ∧
      (∀ additions additions' : List Step, additions.Perm additions' →
        (∀ s ∈ additions, s.isAddition = true) →
        (a.run additions).maskFor name = (a.run additions').maskFor name) ∧
      ∀ later flag, (a.maskFor name).has flag = true →
        ((a.run later).maskFor name).has flag = true := by
  intro a
  have hbounds : ∀ c ∈ a.conditions, c.boundsIndex = true :=
    boundsIndex_of_mem_run steps fun c hc => absurd hc List.not_mem_nil
  have hid : a.id = id := run_id { id, table } steps
  refine ⟨store_run { id, table } steps, ?_, ?_, ?_, ?_⟩
  · exact List.forall_mem_map.mpr fun c hc => IndexCondition.triple_wellFormed (hbounds c hc)
  · exact fun c hc => ⟨IndexCondition.triple_mask (hbounds c hc), c.triple_sql⟩
  · intro e session
    rw [e.createConditions_value]
    cases happends : e.appends? session a with
    | none => exact .inl (by simp)
    | some c =>
      obtain ⟨hderive, hc⟩ := Expr.appends?_eq_some happends
      refine .inr ⟨hderive, c, rfl, hc.imp_right fun hc => ⟨Expr.comparable_of_derive hc, ?_⟩⟩
      obtain ⟨column, hcolumn, haccess, -⟩ := Expr.anchoredOn_derive hc
      exact ⟨column, hcolumn, haccess.trans hid⟩
  · exact fun name => ⟨store_maskFor hbounds name, fun flag => maskFor_has,
      fun _ _ hperm hadditions => maskFor_run_perm name hperm hadditions,
      fun later flag => maskFor_mono (a.conditions_prefix_run later).subset⟩

/-- `18 <= T.A` is stored as `T.A >= 18`, and `T.A <> 18` is refused. With `T.A < 65` the mask is
that of a range, whichever comes first. -/
theorem Access.run_collects_range :
    let column : Column := ⟨1, "T", "A", .int, true⟩
    let number (n : Int32) : Expr := .constant ⟨.int n, .int⟩
    let lower : Step := .create (.comparison .lessOrEqual (number 18) (.column column) false) {}
    let unequal : Step := .add (.compare (.comparator .notEqual) column (number 18))
    let upper : Step := .add (.compare (.comparator .less) column (number 65))
    let a := run { id := 1, table := "T" } [lower, unequal]
    a.conditions = [.compare .greaterOrEqual column (number 18)] ∧
    (∀ t ∈ a.store.conditions, t.WellFormed) ∧
    (a.run [upper, lower]).maskFor "A" = (a.run [lower, upper]).maskFor "A" ∧
    ((a.run [upper]).maskFor "A").has .start = true := by
  intro column number lower unequal upper a
  have hconditions : a.conditions = [.compare .greaterOrEqual column (number 18)] := rfl
  obtain ⟨-, hwellFormed, -, -, hmasks⟩ := run_collects 1 "T" [lower, unequal]
  obtain ⟨-, hflags, hperm, hkeeps⟩ := hmasks "A"
  have hcovers : IndexCondition.Covers (.compare .greaterOrEqual column (number 18)) "A" :=
    .inr ⟨column, rfl, rfl⟩
  have hstart : (a.maskFor "A").has .start = true :=
    (hflags .start).mpr ⟨_, hconditions ▸ List.mem_singleton_self _, hcovers, rfl⟩
  exact ⟨hconditions, hwellFormed, hperm _ _ (.swap ..) (by simp [lower, upper, Step.isAddition]),
    hkeeps [upper] .start hstart⟩

end QueryPredicates
