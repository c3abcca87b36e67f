import QueryPredicates.Proofs.Evaluation.Run
import QueryPredicates.Proofs.Expr.Nodes
import QueryPredicates.Proofs.Value.Equations
import QueryPredicates.Evaluation.Basic
import Mathlib.Data.List.Forall2

/-! The meaning of an expression: the value that it has in a context, as a function of the
values of its columns and parameters and without the order in which they are read. An
expression without sequence calls whose columns and parameters all have values evaluates
to its meaning, whatever the counters are. -/

namespace QueryPredicates

/-! ## Meaning -/

namespace Context

/-- The truth of `l op r` for two values, where a NULL on the left settles all but the
null-safe comparators. -/
def verdict (ctx : Context) (op : Comparator) (l r : Value) : Truth :=
  if l.isNull && !op.isNullSafe then .unknown else op.truthUnder ctx.hooks l r

/-- The truth of a value being among others: the disjunction of its equalities with them. -/
def amongTruth (ctx : Context) (v : Value) (ws : List Value) : Truth :=
  if v.isNull then .unknown
  else (ws.map (Comparator.equal.truthUnder ctx.hooks v)).foldr Truth.or .fails

/-- What an expression needs of its context at one node: a value for a column or a parameter.
A sequence call is never provided for, as its value is no matter of the context. -/
def Provides (ctx : Context) : Expr → Prop
  | .column c => (ctx.column c).isSome = true
  | .parameter p => (ctx.parameter p.index).isSome = true
  | .nextValue _ => False
  | _ => True

end Context

namespace Expr

mutual
/-- The value of an expression. A column or parameter without a value counts as NULL, and so
does a sequence call. -/
def meaning (ctx : Context) : Expr → Value
  | constant c => c.value
  | column c => (ctx.column c).getD .null
  | parameter p => (ctx.parameter p.index).getD .null
  | nextValue _ => .null
  | comparison op left right _ => (ctx.verdict op (left.meaning ctx) (right.meaning ctx)).toValue
  | nullTest operand negated => (Truth.ofBool ((operand.meaning ctx).isNull != negated)).toValue
  | inList operand first rest =>
    (ctx.amongTruth (operand.meaning ctx) (first.meaning ctx :: meanings ctx rest)).toValue

/-- The values of some expressions. -/
def meanings (ctx : Context) : List Expr → List Value
  | [] => []
  | e :: es => e.meaning ctx :: meanings ctx es
end

theorem meanings_eq_map (ctx : Context) (es : List Expr) :
    meanings ctx es = es.map (meaning ctx) := by
  induction es with
  | nil => rfl
  | cons e es ih => simp [meanings, ih]

end Expr

/-! ## Evaluation gives the meaning -/

@[simp] theorem Truth.fails_or (t : Truth) : Truth.fails.or t = t := by cases t <;> rfl

@[simp] theorem Truth.or_fails (t : Truth) : t.or .fails = t := by cases t <;> rfl

/-- A disjunction is a matter of the truth values that occur in it. -/
theorem Truth.foldr_or (ts : List Truth) : ts.foldr Truth.or .fails =
    if .holds ∈ ts then .holds else if .unknown ∈ ts then .unknown else .fails := by
  induction ts with
  | nil => rfl
  | cons t ts ih =>
    rw [List.foldr_cons, ih]
    by_cases hholds : .holds ∈ ts
    · cases t <;> simp [hholds, Truth.or]
    · by_cases hunknown : .unknown ∈ ts <;> cases t <;> simp [hholds, hunknown, Truth.or]

theorem Truth.foldr_or_eq_holds_iff (ts : List Truth) :
    ts.foldr Truth.or .fails = .holds ↔ .holds ∈ ts := by
  rw [foldr_or]
  by_cases hholds : .holds ∈ ts
  · simp [hholds]
  · by_cases hunknown : .unknown ∈ ts <;> simp [hholds, hunknown]

namespace Context
open Run

theorem test_yields (ctx : Context) (op : Comparator) (l r : Value) :
    Yields (ctx.test op l r) (.ok (op.truthUnder ctx.hooks l r)) :=
  (Yields.note _).andThen (.pure _)

theorem against_yields {ctx : Context} {right : Evaluation Value} {r : Value} (op : Comparator)
    (l : Value) (hr : Yields right (.ok r)) :
    Yields (ctx.against op l right) (.ok (ctx.verdict op l r)) := by
  unfold against verdict
  split
  · exact .pure _
  · exact hr.andThen (ctx.test_yields op l r)

theorem comparison_yields {ctx : Context} {left right : Evaluation Value} {l r : Value}
    (op : Comparator) (hl : Yields left (.ok l)) (hr : Yields right (.ok r)) :
    Yields (ctx.comparison op left right) (.ok (ctx.verdict op l r)) :=
  hl.andThen (against_yields op l hr)

theorem nullTest_yields {operand : Evaluation Value} {v : Value} (negated : Bool)
    (hv : Yields operand (.ok v)) :
    Yields (Context.nullTest operand negated) (.ok (.ofBool (v.isNull != negated))) :=
  hv.andThen (.pure _)

/-- The search gives the disjunction of what was found before and what is left to find. -/
theorem search_yields {ctx : Context} (v : Value) {candidates : List (Evaluation Value)}
    {ws : List Value} (h : List.Forall₂ (fun m w => Yields m (.ok w)) candidates ws) :
    ∀ sofar, sofar ≠ .holds → Yields (ctx.search v sofar candidates)
      (.ok (sofar.or
        ((ws.map (Comparator.equal.truthUnder ctx.hooks v)).foldr Truth.or .fails))) := by
  induction h with
  | nil =>
    intro sofar hs
    cases sofar <;> exact .pure _
  | @cons candidate w candidates ws hw _ ih =>
    intro sofar hs
    refine hw.andThen ((ctx.test_yields .equal v w).andThen ?_)
    simp only [List.map_cons, List.foldr_cons]
    generalize (ws.map (Comparator.equal.truthUnder ctx.hooks v)).foldr Truth.or .fails = rest at ih
    cases Comparator.equal.truthUnder ctx.hooks v w with
    | holds => cases sofar <;> exact .pure _
    | unknown =>
      have hu := ih .unknown (by decide)
      cases sofar <;> cases rest <;> first | exact hu | exact absurd rfl hs
    | fails =>
      have hf := ih sofar hs
      cases rest <;> exact hf

theorem membership_yields {ctx : Context} {operand : Evaluation Value} {v : Value}
    {candidates : List (Evaluation Value)} {ws : List Value} (hv : Yields operand (.ok v))
    (h : List.Forall₂ (fun m w => Yields m (.ok w)) candidates ws) :
    Yields (ctx.membership operand candidates) (.ok (ctx.amongTruth v ws)) := by
  refine hv.andThen ?_
  unfold amongTruth
  split
  · exact .pure _
  · rw [← Truth.fails_or (List.foldr _ _ _)]
    exact search_yields v h .fails (by decide)

/-- A value is among others as far as it equals one of them, as a comparison has it. -/
theorem amongTruth_cons (ctx : Context) (v w : Value) (ws : List Value) :
    ctx.amongTruth v (w :: ws) = ((w :: ws).map (ctx.verdict .equal v)).foldr Truth.or .fails := by
  unfold amongTruth
  cases hv : v.isNull with
  | false =>
    have hverdict : ctx.verdict .equal v = Comparator.equal.truthUnder ctx.hooks v := by
      funext u
      simp [verdict, hv]
    rw [hverdict]
    rfl
  | true =>
    have hverdict : ctx.verdict .equal v = fun _ => .unknown := by
      funext u
      simp [verdict, hv, Comparator.isNullSafe]
    have hunknown (us : List Value) :
        Truth.unknown.or ((us.map fun _ => Truth.unknown).foldr Truth.or .fails) = .unknown := by
      induction us with
      | nil => rfl
      | cons u us ih => rw [List.map_cons, List.foldr_cons, ih]; rfl
    rw [hverdict]
    exact (hunknown ws).symm

end Context

namespace Expr
open Run

/-- An expression whose nodes are all provided for evaluates to its meaning and draws on no
counter. -/
theorem eval_yields {ctx : Context} (e : Expr) (h : ∀ n ∈ e.nodes, ctx.Provides n) :
    Yields (e.eval ctx) (.ok (e.meaning ctx)) := by
  induction e using children_induction with
  | node e ih =>
    obtain ⟨hself, hchildren⟩ := forall_nodes_iff.mp h
    have ih' : ∀ child ∈ e.children, Yields (child.eval ctx) (.ok (child.meaning ctx)) :=
      fun child hc => ih child hc (hchildren child hc)
    cases e with
    | constant c => exact .pure _
    | column c =>
      obtain ⟨v, hv⟩ := Option.isSome_iff_exists.mp hself
      simp only [eval, meaning, Context.readColumn, hv]
      exact (Yields.note _).andThen (.ofExcept (.ok v))
    | parameter p =>
      obtain ⟨v, hv⟩ := Option.isSome_iff_exists.mp hself
      simp only [eval, meaning, Context.readParameter, hv]
      exact (Yields.note _).andThen (.ofExcept (.ok v))
    | nextValue s => exact hself.elim
    | comparison op left right whenOperand =>
      have hl := ih' left (by simp [children])
      have hr := ih' right (by simp [children])
      exact (Context.comparison_yields op hl hr).map Truth.toValue
    | nullTest operand negated =>
      have ho := ih' operand (by simp [children])
      exact (Context.nullTest_yields negated ho).map Truth.toValue
    | inList operand first rest =>
      have ho := ih' operand (by simp [children])
      have hcandidates : List.Forall₂ (fun m w => Yields m (.ok w))
          (first.eval ctx :: evals ctx rest) (first.meaning ctx :: meanings ctx rest) := by
        rw [evals_eq_map, meanings_eq_map, ← List.map_cons, ← List.map_cons,
          List.forall₂_map_left_iff, List.forall₂_map_right_iff, List.forall₂_same]
        exact fun candidate hc => ih' candidate (List.mem_cons_of_mem _ hc)
      exact (Context.membership_yields ho hcandidates).map Truth.toValue

end Expr

/-- A list evaluates to the truth of its operand being among its candidates. -/
theorem InList.eval_yields {ctx : Context} {l : InList} (ho : ∀ n ∈ l.operand.nodes, ctx.Provides n)
    (hv : ∀ v ∈ l.values, ∀ n ∈ v.nodes, ctx.Provides n) :
    Run.Yields (l.eval ctx)
      (.ok (ctx.amongTruth (l.operand.meaning ctx) (l.values.map (·.meaning ctx)))) := by
  refine Context.membership_yields (l.operand.eval_yields ho) ?_
  rw [List.forall₂_map_left_iff, List.forall₂_map_right_iff, List.forall₂_same]
  exact fun v hmem => v.eval_yields (hv v hmem)

/-! ## The standard hooks -/

namespace Context

/-- With the standard hooks a NULL on the left needs no rule of its own. -/
theorem verdict_standard {ctx : Context} (hooks : ctx.hooks = .standard) (op : Comparator)
    (l r : Value) : ctx.verdict op l r = op.truth l r := by
  unfold verdict
  rw [hooks]
  split
  · rename_i hn
    obtain ⟨hl, hop⟩ := Bool.and_eq_true_iff.mp hn
    rw [Value.isNull_iff.mp hl, Comparator.truth_null_left (by simpa using hop)]
  · rfl

/-- A value is among others if it equals one of them. -/
theorem amongTruth_eq_holds_iff {ctx : Context} (hooks : ctx.hooks = .standard) (v : Value)
    (ws : List Value) :
    ctx.amongTruth v ws = .holds ↔ ∃ w ∈ ws, Comparator.equal.truth v w = .holds := by
  unfold amongTruth
  rw [hooks]
  split
  · rename_i hn
    rw [Value.isNull_iff.mp hn]
    have hu (w : Value) : Comparator.equal.truth .null w = .unknown :=
      Comparator.truth_null_left rfl w
    simp [hu]
  · rw [Truth.foldr_or_eq_holds_iff, List.mem_map]
    rfl

end Context
end QueryPredicates
