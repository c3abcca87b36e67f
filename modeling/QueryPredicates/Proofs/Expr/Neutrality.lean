import QueryPredicates.Fusion
import QueryPredicates.Proofs.Evaluation.Renaming
import QueryPredicates.Proofs.Expr.Cost

/-! What the flags of columns decide and what they do not. Setting the flag of an access gives it to the
columns of this access and leaves everything else where it is, so it decides whether an expression can be
evaluated now. The text, the cost, the accesses referred to and what is fused do not depend on flags, nor
does an evaluation in a session, alone or with a row: taking all flags away changes none of them, and
expressions that are the same without flags cannot be told apart by them. -/

namespace QueryPredicates

/-! ## What a mapping of columns leaves alone -/

section Mapping

variable {f : Column → Column}

namespace Expr

theorem isEnclosed_mapColumns (e : Expr) : (e.mapColumns f).isEnclosed = e.isEnclosed := by
  cases e <;> rfl

theorem isConstant_mapColumns (e : Expr) : (e.mapColumns f).isConstant = e.isConstant := by
  cases e <;> rfl

theorem toll_mapColumns (e : Expr) : (e.mapColumns f).toll = e.toll := by
  cases e <;> rfl

theorem cost_mapColumns (e : Expr) : (e.mapColumns f).cost = e.cost := by
  have hweight : (e.mapColumns f).weight = e.weight := by
    unfold weight sumNodes
    rw [nodes_mapColumns, List.map_map]
    exact congrArg List.sum (List.map_congr_left fun n _ => toll_mapColumns n)
  rw [cost_eq_min, cost_eq_min, hweight]

theorem references_mapColumns (haccess : ∀ c, (f c).access = c.access) (access : AccessId) (e : Expr) :
    (e.mapColumns f).references access = e.references access := by
  simp only [references_eq_ask, ask_eq_columns _ gathers_any, columns_mapColumns, List.map_map,
    Function.comp_def, haccess]

theorem sql_mapColumns (hsql : ∀ c, (f c).sql = c.sql) (e : Expr) : (e.mapColumns f).sql = e.sql := by
  induction e using children_induction with
  | node e ih =>
    cases e with
    | column c => exact hsql c
    | comparison op left right whenOperand =>
      have hl := ih left (by simp [children])
      have hr := ih right (by simp [children])
      rw [mapColumns, sql, sql, hl, hr, isEnclosed_mapColumns]
    | nullTest operand negated =>
      have ho := ih operand (by simp [children])
      rw [mapColumns, sql, sql, ho]
    | inList operand first rest =>
      have ho := ih operand (by simp [children])
      have hf := ih first (by simp [children])
      have hr : sqls (mapColumnsOfAll f rest) = sqls rest := by
        rw [sqls_eq_map, sqls_eq_map, mapColumnsOfAll_eq_map, List.map_map]
        exact List.map_congr_left fun e he => ih e (by simp [children, he])
      rw [mapColumns, sql, sql, ho, hf, hr]
    | _ => rfl

end Expr

def SharedOperand.mapColumns (f : Column → Column) (p : SharedOperand) : SharedOperand :=
  ⟨p.shared.mapColumns f, p.first.mapColumns f, p.second.mapColumns f⟩

def InList.mapColumns (f : Column → Column) (l : InList) : InList :=
  ⟨l.operand.mapColumns f, l.first.mapColumns f, Expr.mapColumnsOfAll f l.rest⟩

namespace Comparison

theorem whenSql_mapColumns (hsql : ∀ c, (f c).sql = c.sql) (c : Comparison) :
    (c.mapColumns f).whenSql = c.whenSql := by
  simp only [whenSql, mapColumns, Expr.sql_mapColumns hsql, Expr.isEnclosed_mapColumns]

/-- The pairings are tried in the same order, and each is found or not as before. -/
theorem pair?_mapColumns (hsql : ∀ c, (f c).sql = c.sql) (a b : Comparison)
    (accepts : Expr → Expr → Bool)
    (haccepts : ∀ x y, accepts (x.mapColumns f) (y.mapColumns f) = accepts x y) :
    (a.mapColumns f).pair? (b.mapColumns f) accepts =
      (a.pair? b accepts).map (SharedOperand.mapColumns f) := by
  have hpairings : pairings (a.mapColumns f) (b.mapColumns f) =
      (pairings a b).map (Prod.map (SharedOperand.mapColumns f) (Expr.mapColumns f)) := rfl
  unfold pair?
  rw [hpairings, List.find?_map, Option.map_map, Option.map_map]
  simp only [Function.comp_def, Prod.map, SharedOperand.mapColumns, haccepts,
    Expr.sql_mapColumns hsql]

theorem transitiveEqual?_mapColumns (hsql : ∀ c, (f c).sql = c.sql) (a b : Comparison) :
    (a.mapColumns f).transitiveEqual? (b.mapColumns f) =
      (a.transitiveEqual? b).map (Comparison.mapColumns f) := by
  unfold transitiveEqual?
  rw [pair?_mapColumns hsql a b _ fun x y => by simp only [Expr.isConstant_mapColumns],
    apply_ite (Option.map (mapColumns f)), Option.map_map, Option.map_map]
  rfl

theorem membership?_mapColumns (hsql : ∀ c, (f c).sql = c.sql) (a b : Comparison) :
    (a.mapColumns f).membership? (b.mapColumns f) = (a.membership? b).map (InList.mapColumns f) := by
  unfold membership?
  rw [pair?_mapColumns hsql a b _ fun x y => by simp only [Expr.isConstant_mapColumns],
    apply_ite (Option.map (InList.mapColumns f)), Option.map_map, Option.map_map]
  rfl

theorem equalPartner?_mapColumns (hsql : ∀ c, (f c).sql = c.sql) (c : Comparison) (e : Expr) :
    (c.mapColumns f).equalPartner? (e.mapColumns f) = (c.equalPartner? e).map (Expr.mapColumns f) := by
  simp only [equalPartner?, mapColumns, Expr.sql_mapColumns hsql]
  split
  · rfl
  · split
    · rfl
    · split <;> rfl

end Comparison
end Mapping

/-! ## Setting a flag -/

variable (access : AccessId) (flag : Bool)

theorem Column.setEvaluatable_eq (c : Column) : c.setEvaluatable access flag =
    { c with evaluatable := if c.access = access then flag else c.evaluatable } := by
  unfold setEvaluatable
  split <;> rfl

namespace Expr

theorem columns_setEvaluatable (e : Expr) : (e.setEvaluatable access flag).columns =
    e.columns.map fun c =>
      { c with evaluatable := if c.access = access then flag else c.evaluatable } := by
  rw [setEvaluatable_eq_mapColumns, columns_mapColumns]
  exact List.map_congr_left fun c _ => c.setEvaluatable_eq access flag

theorem isEvaluatable_setEvaluatable_iff (e : Expr) :
    (e.setEvaluatable access flag).isEvaluatable = true ↔
      (∀ c ∈ e.columns, c.access ≠ access → c.evaluatable = true) ∧
        (flag = true ∨ e.references access = false) := by
  have hnone : e.references access = false ↔ ∀ c ∈ e.columns, c.access ≠ access := by
    rw [← Bool.not_eq_true, references_eq_true_iff]
    simp
  rw [isEvaluatable_eq_true_iff, columns_setEvaluatable, List.forall_mem_map, hnone]
  constructor
  · intro h
    refine ⟨fun c hc hother => ?_, or_iff_not_imp_left.mpr fun hflag c hc hsame => hflag ?_⟩
    · simpa [hother] using h c hc
    · simpa [hsame] using h c hc
  · intro ⟨hothers, hset⟩ c hc
    by_cases hsame : c.access = access
    · obtain hflag | hnone := hset
      · simp [hsame, hflag]
      · exact absurd hsame (hnone c hc)
    · simpa [hsame] using hothers c hc hsame

/-- What is set last for an access is in force. -/
theorem setEvaluatable_setEvaluatable (flag' : Bool) (e : Expr) :
    (e.setEvaluatable access flag).setEvaluatable access flag' = e.setEvaluatable access flag' := by
  have hcolumn : Column.setEvaluatable access flag' ∘ Column.setEvaluatable access flag =
      Column.setEvaluatable access flag' := by
    funext c
    simp only [Function.comp, Column.setEvaluatable_eq]
    split <;> rfl
  simp only [setEvaluatable_eq_mapColumns, mapColumns_mapColumns, hcolumn]

theorem setEvaluatable_comm {access access' : AccessId} (h : access ≠ access') (flag flag' : Bool)
    (e : Expr) : (e.setEvaluatable access flag).setEvaluatable access' flag' =
      (e.setEvaluatable access' flag').setEvaluatable access flag := by
  have hcolumn : Column.setEvaluatable access' flag' ∘ Column.setEvaluatable access flag =
      Column.setEvaluatable access flag ∘ Column.setEvaluatable access' flag' := by
    funext c
    simp only [Function.comp, Column.setEvaluatable_eq]
    by_cases hc : c.access = access
    · have hc' : c.access ≠ access' := hc ▸ h
      simp only [if_pos hc, if_neg hc']
    · simp only [if_neg hc]
  simp only [setEvaluatable_eq_mapColumns, mapColumns_mapColumns, hcolumn]

end Expr

/-! ## Without flags -/

/-- The column as it is before any flag is set. -/
def Column.unflagged (c : Column) : Column := { c with evaluatable := true }

theorem Column.sql_unflagged (c : Column) : c.unflagged.sql = c.sql := rfl

theorem Column.unflagged_comp_setEvaluatable :
    Column.unflagged ∘ Column.setEvaluatable access flag = Column.unflagged := by
  funext c
  rw [Function.comp, setEvaluatable_eq]
  rfl

theorem Session.column_unflagged (session : Session) (row : Row) (c : Column) :
    (session.withRow row).column c.unflagged = (session.withRow row).column c := by
  cases row <;> rfl

/-- The runs show the same: the values or the texts of errors they come to, the counters they leave,
and what they record but for the flags in it. -/
structure Evaluation.ShowsAlike {α : Type} (m m' : Evaluation α) : Prop where
  outcome : ∀ counters, (m counters).outcome.mapError EvalError.classifiedMessage =
    (m' counters).outcome.mapError EvalError.classifiedMessage
  counters : ∀ counters, (m counters).counters = (m' counters).counters
  record : ∀ counters, (m counters).record.map (Act.mapColumns Column.unflagged) =
    (m' counters).record.map (Act.mapColumns Column.unflagged)

theorem Evaluation.ShowsAlike.of_mapColumns_eq {α : Type} {m m' : Evaluation α}
    (h : m.mapColumns Column.unflagged = m'.mapColumns Column.unflagged) : m.ShowsAlike m' := by
  have hmessage (o : Except EvalError α) :
      (o.mapError (EvalError.mapColumns Column.unflagged)).mapError EvalError.classifiedMessage =
        o.mapError EvalError.classifiedMessage := by
    cases o with
    | ok a => rfl
    | error e => cases e <;> rfl
  constructor
  case outcome =>
    -- An error may name a column with its flag, but its text does not show the flag.
    intro counters
    have houtcome := congrArg (fun m => (m counters).outcome) h
    rw [← hmessage, ← hmessage (m' counters).outcome]
    exact congrArg _ houtcome
  case counters => exact fun counters => congrArg (fun m => (m counters).counters) h
  case record => exact fun counters => congrArg (fun m => (m counters).record) h

namespace Expr

def unflagged (e : Expr) : Expr := e.mapColumns Column.unflagged

theorem unflagged_setEvaluatable (e : Expr) :
    (e.setEvaluatable access flag).unflagged = e.unflagged := by
  rw [setEvaluatable_eq_mapColumns, unflagged, mapColumns_mapColumns,
    Column.unflagged_comp_setEvaluatable]
  rfl

/-- What is written and counted of the expressions, and evaluated in sessions, is the same. -/
structure Resembles (e e' : Expr) : Prop where
  sql : e.sql = e'.sql
  cost : e.cost = e'.cost
  references : ∀ access, e.references access = e'.references access
  inSession : ∀ session : Session, (e.eval session.context).ShowsAlike (e'.eval session.context)
  inRow : ∀ (session : Session) (row : Row),
    (e.eval (session.withRow row)).ShowsAlike (e'.eval (session.withRow row))

theorem showsAlike_of_unflagged_eq {ctx : Context} {e e' : Expr}
    (hctx : ∀ c : Column, ctx.column c.unflagged = ctx.column c) (h : e.unflagged = e'.unflagged) :
    (e.eval ctx).ShowsAlike (e'.eval ctx) := by
  refine .of_mapColumns_eq ?_
  rw [← eval_mapColumns hctx, ← eval_mapColumns hctx]
  exact congrArg _ h

theorem Resembles.of_unflagged_eq {e e' : Expr} (h : e.unflagged = e'.unflagged) : e.Resembles e' where
  sql := by
    rw [← sql_mapColumns Column.sql_unflagged, ← sql_mapColumns Column.sql_unflagged e']
    exact congrArg _ h
  cost := by
    rw [← cost_mapColumns, ← cost_mapColumns e']
    exact congrArg _ h
  references access := by
    have haccess : ∀ c : Column, c.unflagged.access = c.access := fun _ => rfl
    rw [← references_mapColumns haccess, ← references_mapColumns haccess access e']
    exact congrArg _ h
  inSession session := showsAlike_of_unflagged_eq (fun _ => rfl) h
  inRow session row := showsAlike_of_unflagged_eq (session.column_unflagged row) h

end Expr

/-- The list with all columns in it as they are before any flag is set. -/
def InList.unflagged (l : InList) : InList := l.mapColumns Column.unflagged

namespace Comparison

def unflagged (c : Comparison) : Comparison := c.mapColumns Column.unflagged

theorem unflagged_setEvaluatable (c : Comparison) :
    (c.setEvaluatable access flag).unflagged = c.unflagged := by
  have hl := c.left.unflagged_setEvaluatable access flag
  have hr := c.right.unflagged_setEvaluatable access flag
  simp only [Expr.unflagged] at hl hr
  simp only [unflagged, mapColumns, setEvaluatable, hl, hr]

/-- The tests of case branches are the same, in text and in sessions. -/
structure TestsAlike (c c' : Comparison) : Prop where
  whenSql : c.whenSql = c'.whenSql
  inSession : ∀ (session : Session) (caseValue : Value),
    (c.evalWhen session.context caseValue).ShowsAlike (c'.evalWhen session.context caseValue)
  inRow : ∀ (session : Session) (row : Row) (caseValue : Value),
    (c.evalWhen (session.withRow row) caseValue).ShowsAlike
      (c'.evalWhen (session.withRow row) caseValue)

theorem whenShowsAlike_of_unflagged_eq {ctx : Context} {c c' : Comparison}
    (hctx : ∀ c : Column, ctx.column c.unflagged = ctx.column c) (h : c.unflagged = c'.unflagged)
    (caseValue : Value) : (c.evalWhen ctx caseValue).ShowsAlike (c'.evalWhen ctx caseValue) := by
  refine .of_mapColumns_eq ?_
  rw [← evalWhen_mapColumns hctx, ← evalWhen_mapColumns hctx]
  exact congrArg (evalWhen ctx · caseValue) h

theorem TestsAlike.of_unflagged_eq {c c' : Comparison} (h : c.unflagged = c'.unflagged) :
    c.TestsAlike c' where
  whenSql := by
    rw [← whenSql_mapColumns Column.sql_unflagged, ← whenSql_mapColumns Column.sql_unflagged c']
    exact congrArg _ h
  inSession session := whenShowsAlike_of_unflagged_eq (fun _ => rfl) h
  inRow session row := whenShowsAlike_of_unflagged_eq (session.column_unflagged row) h

/-- Whether the first comparisons and the second ones are fused, and into what but for flags, is the
same. -/
structure FusesAlike (a b a' b' : Comparison) : Prop where
  transitiveEqual : (a.transitiveEqual? b).map unflagged = (a'.transitiveEqual? b').map unflagged
  membership : (a.membership? b).map InList.unflagged = (a'.membership? b').map InList.unflagged

theorem FusesAlike.of_unflagged_eq {a b a' b' : Comparison} (ha : a.unflagged = a'.unflagged)
    (hb : b.unflagged = b'.unflagged) : FusesAlike a b a' b' := by
  have hsql := Column.sql_unflagged
  -- Each fusion is the one of the comparisons without flags, which are the same on both sides.
  constructor
  case transitiveEqual =>
    refine (transitiveEqual?_mapColumns hsql a b).symm.trans ?_
    exact (congr (congrArg _ ha) hb).trans (transitiveEqual?_mapColumns hsql a' b')
  case membership =>
    refine (membership?_mapColumns hsql a b).symm.trans ?_
    exact (congr (congrArg _ ha) hb).trans (membership?_mapColumns hsql a' b')

theorem equalPartner?_of_unflagged_eq {c c' : Comparison} {e e' : Expr}
    (hc : c.unflagged = c'.unflagged) (he : e.unflagged = e'.unflagged) :
    (c.equalPartner? e).map Expr.unflagged = (c'.equalPartner? e').map Expr.unflagged := by
  have hsql := Column.sql_unflagged
  refine (equalPartner?_mapColumns hsql c e).symm.trans ?_
  exact (congr (congrArg _ hc) he).trans (equalPartner?_mapColumns hsql c' e')

/-- The walks of the comparison answer what is answered for its node, operand by operand. -/
structure WalksAsNode (c : Comparison) : Prop where
  operands : (List.range c.operandCount).filterMap c.operand? = c.children
  children : c.toExpr.operands = c.children
  references : ∀ access, c.references access = c.toExpr.ask (·.access == access) (List.any · id)
  isEvaluatable : c.isEvaluatable = c.toExpr.ask Column.evaluatable (List.all · id)
  setEvaluatable : ∀ access flag,
    (c.setEvaluatable access flag).toExpr = c.toExpr.setEvaluatable access flag
  cost : c.cost = c.toExpr.cost

theorem walksAsNode (c : Comparison) : c.WalksAsNode where
  operands := rfl
  children := c.toExpr.operands_eq_children
  references access := c.toExpr.references_eq_ask access
  isEvaluatable := c.toExpr.isEvaluatable_eq_ask
  setEvaluatable _ _ := rfl
  cost := rfl

end Comparison

namespace Expr

/-- Flags go where the walks look. An access is referred to if there is a column of it at any depth, and
the walks that go down from operand to operand by number find the same columns as the one that sets
flags; that one gives the flag to the columns of the access and changes nothing else, so all columns
have one afterwards just if those of other accesses had one and those of this access now do. What is set
last for one access is in force, and what is set for two does not depend on the order. Nothing but the
flags themselves tells the outcome from what was there before. -/
theorem setEvaluatable_agrees_with_walks (access : AccessId) (flag : Bool) (e : Expr) :
    (e.references access = true ↔ ∃ c ∈ e.columns, c.access = access) ∧
    e.references access = e.ask (·.access == access) (List.any · id) ∧
    e.isEvaluatable = e.ask Column.evaluatable (List.all · id) ∧
    (∀ c : Comparison, c.WalksAsNode) ∧
    ((e.setEvaluatable access flag).columns = e.columns.map fun c =>
      { c with evaluatable := if c.access = access then flag else c.evaluatable }) ∧
    ((e.setEvaluatable access flag).isEvaluatable = true ↔
      (∀ c ∈ e.columns, c.access ≠ access → c.evaluatable = true) ∧
        (flag = true ∨ e.references access = false)) ∧
    (∀ flag', (e.setEvaluatable access flag).setEvaluatable access flag' =
      e.setEvaluatable access flag') ∧
    (∀ access' flag', access ≠ access' →
      (e.setEvaluatable access flag).setEvaluatable access' flag' =
        (e.setEvaluatable access' flag').setEvaluatable access flag) ∧
    (e.setEvaluatable access flag).unflagged = e.unflagged ∧
    (e.setEvaluatable access flag).Resembles e ∧
    (∀ c : Comparison, (c.setEvaluatable access flag).TestsAlike c) ∧
    ∀ (a b : Comparison) (access' : AccessId) (flag' : Bool),
      Comparison.FusesAlike (a.setEvaluatable access flag) (b.setEvaluatable access' flag') a b ∧
      ((a.setEvaluatable access flag).equalPartner? (e.setEvaluatable access' flag')).map unflagged =
        (a.equalPartner? e).map unflagged := by
  have hunflagged := e.unflagged_setEvaluatable access flag
  refine ⟨references_eq_true_iff, e.references_eq_ask access, e.isEvaluatable_eq_ask,
    Comparison.walksAsNode, e.columns_setEvaluatable access flag,
    e.isEvaluatable_setEvaluatable_iff access flag,
    fun flag' => e.setEvaluatable_setEvaluatable access flag flag',
    fun access' flag' h => setEvaluatable_comm h flag flag' e, hunflagged,
    .of_unflagged_eq hunflagged, fun c => .of_unflagged_eq (c.unflagged_setEvaluatable access flag),
    fun a b access' flag' => ?_⟩
  have ha := a.unflagged_setEvaluatable access flag
  have hb := b.unflagged_setEvaluatable access' flag'
  exact ⟨.of_unflagged_eq ha hb,
    Comparison.equalPartner?_of_unflagged_eq ha (e.unflagged_setEvaluatable access' flag')⟩

/-- In `(T.A = U.B) IN(TRUE, T.A IS NULL)` every column has a row once `T` has one. Taking `U` away before
or after that is the same, and the text is what it was. -/
theorem setEvaluatable_agrees_with_walks_nested :
    let a : Column := ⟨1, "T", "A", .int, false⟩
    let b : Column := ⟨2, "U", "B", .int, true⟩
    let e : Expr := inList (comparison .equal (column a) (column b) false) (ofTruth .holds)
      [nullTest (column a) false]
    e.references 1 = true ∧ e.isEvaluatable = false ∧ (e.setEvaluatable 1 true).isEvaluatable = true ∧
    (e.setEvaluatable 1 true).setEvaluatable 2 false =
      (e.setEvaluatable 2 false).setEvaluatable 1 true ∧
    (e.setEvaluatable 1 true).sql = "((T.A = U.B) IN(TRUE, (T.A IS NULL)))" := by
  intro a b e
  obtain ⟨href, -, -, -, -, heval, -, hcomm, -, halike, -⟩ :=
    setEvaluatable_agrees_with_walks 1 true e
  have hothers : ∀ c ∈ e.columns, c.access ≠ 1 → c.evaluatable = true := by decide
  exact ⟨href.mpr ⟨a, by decide, rfl⟩, rfl, heval.mpr ⟨hothers, .inl rfl⟩,
    hcomm 2 false (by decide), halike.sql.trans rfl⟩

end Expr
end QueryPredicates
