import QueryPredicates.Evaluation.Basic
import QueryPredicates.Proofs.Expr.Leaves

/-! Properties of runs that pass from the parts of an evaluation to the whole. Such a property may
speak of the leaves that a run has to read: those of two runs, one after the other, are the leaves of
the first and then those of the second. What holds of the leaves of an expression, each on its own,
then holds of the expression and all its leaves in order. -/

namespace QueryPredicates.Evaluation

variable {α β : Type}

/-- A property of runs, each with the leaves that it has to read, that passes from the parts of an
evaluation to the whole. A run that does nothing has it whatever the leaves, as leaves are skipped. -/
structure ComposesAlong (P : List Leaf → ∀ α : Type, Evaluation α → Prop) : Prop where
  pure : ∀ {α : Type} (leaves : List Leaf) (a : α), P leaves α (pure a)
  bind : ∀ {α β : Type} {leaves later : List Leaf} {m : Evaluation α} {f : α → Evaluation β},
    P leaves α m → (∀ a, P later β (f a)) → P (leaves ++ later) β (m >>= f)
  question : ∀ op l r, P [] Unit (Run.note (Context.hookCalls op l r))

namespace ComposesAlong

variable {P : List Leaf → ∀ α : Type, Evaluation α → Prop} {leaves later : List Leaf}

theorem map (hP : ComposesAlong P) {m : Evaluation α} (f : α → β) (hm : P leaves α m) :
    P leaves β (f <$> m) := by
  have h := hP.bind hm fun a => hP.pure [] (f a)
  rwa [bind_pure_comp, List.append_nil] at h

theorem test (hP : ComposesAlong P) (ctx : Context) (op : Comparator) (l r : Value) :
    P [] Truth (ctx.test op l r) :=
  hP.bind (hP.question op l r) fun _ => hP.pure [] _

theorem against (hP : ComposesAlong P) (ctx : Context) (op : Comparator) (l : Value)
    {right : Evaluation Value} (hr : P leaves Value right) :
    P leaves Truth (ctx.against op l right) := by
  unfold Context.against
  split
  · exact hP.pure leaves _
  · have h := hP.bind hr fun r => hP.test ctx op l r
    rwa [List.append_nil] at h

theorem comparison (hP : ComposesAlong P) (ctx : Context) (op : Comparator)
    {left right : Evaluation Value} (hl : P leaves Value left) (hr : P later Value right) :
    P (leaves ++ later) Truth (ctx.comparison op left right) :=
  hP.bind hl fun l => hP.against ctx op l hr

theorem nullTest (hP : ComposesAlong P) (negated : Bool) {operand : Evaluation Value}
    (ho : P leaves Value operand) : P leaves Truth (Context.nullTest operand negated) := by
  have h := hP.bind ho fun v => hP.pure [] (Truth.ofBool (v.isNull != negated))
  rwa [List.append_nil] at h

theorem search (hP : ComposesAlong P) (ctx : Context) (v : Value) {es : List Expr}
    (h : ∀ e ∈ es, P e.leaves Value (e.eval ctx)) :
    ∀ sofar, P (es.flatMap Expr.leaves) Truth (ctx.search v sofar (es.map (Expr.eval ctx))) := by
  induction es with
  | nil =>
    intro sofar
    exact hP.pure [] sofar
  | cons e es ih =>
    intro sofar
    obtain ⟨hhead, htail⟩ := List.forall_mem_cons.mp h
    rw [List.flatMap_cons]
    refine hP.bind hhead fun w => ?_
    rw [← List.nil_append (es.flatMap Expr.leaves)]
    refine hP.bind (hP.test ctx .equal v w) fun t => ?_
    cases t with
    | holds => exact hP.pure _ _
    | unknown => exact ih htail .unknown
    | fails => exact ih htail sofar

theorem membership (hP : ComposesAlong P) (ctx : Context) {operand : Evaluation Value}
    {es : List Expr} (ho : P leaves Value operand)
    (h : ∀ e ∈ es, P e.leaves Value (e.eval ctx)) :
    P (leaves ++ es.flatMap Expr.leaves) Truth
      (ctx.membership operand (es.map (Expr.eval ctx))) := by
  refine hP.bind ho fun v => ?_
  split
  · exact hP.pure _ _
  · exact hP.search ctx v h .fails

/-- What holds of the leaves holds of the expression. -/
theorem eval (hP : ComposesAlong P) {ctx : Context} (e : Expr)
    (h : ∀ n ∈ e.nodes, n.children = [] → P n.leaves Value (n.eval ctx)) :
    P e.leaves Value (e.eval ctx) := by
  induction e using Expr.children_induction with
  | node e ih =>
    obtain ⟨hself, hchildren⟩ := Expr.forall_nodes_iff.mp h
    have ih' : ∀ child ∈ e.children, P child.leaves Value (child.eval ctx) :=
      fun child hc => ih child hc (hchildren child hc)
    cases e with
    | comparison op left right whenOperand =>
      have hl := ih' left (by simp [Expr.children])
      have hr := ih' right (by simp [Expr.children])
      rw [Expr.leaves_comparison]
      exact hP.map _ (hP.comparison ctx op hl hr)
    | nullTest operand negated =>
      have ho := ih' operand (by simp [Expr.children])
      rw [Expr.leaves_nullTest]
      exact hP.map _ (hP.nullTest negated ho)
    | inList operand first rest =>
      have ho := ih' operand (by simp [Expr.children])
      rw [Expr.leaves_inList, Expr.eval, Expr.evals_eq_map, ← List.map_cons]
      exact hP.map _ (hP.membership ctx ho fun e he => ih' e (List.mem_cons_of_mem _ he))
    | _ => exact hself rfl

end ComposesAlong

/-- A property of runs, whatever their leaves, that passes from the parts of an evaluation to the
whole. -/
structure Composes (P : ∀ α : Type, Evaluation α → Prop) : Prop where
  pure : ∀ {α : Type} (a : α), P α (pure a)
  bind : ∀ {α β : Type} {m : Evaluation α} {f : α → Evaluation β}, P α m → (∀ a, P β (f a)) →
    P β (m >>= f)
  question : ∀ op l r, P Unit (Run.note (Context.hookCalls op l r))

namespace Composes

variable {P : ∀ α : Type, Evaluation α → Prop}

theorem along (hP : Composes P) : ComposesAlong fun _ => P where
  pure _ a := hP.pure a
  bind hm hf := hP.bind hm hf
  question := hP.question

theorem test (hP : Composes P) (ctx : Context) (op : Comparator) (l r : Value) :
    P Truth (ctx.test op l r) :=
  hP.along.test ctx op l r

theorem against (hP : Composes P) (ctx : Context) (op : Comparator) (l : Value)
    {right : Evaluation Value} (hr : P Value right) : P Truth (ctx.against op l right) :=
  @ComposesAlong.against (fun _ => P) [] hP.along ctx op l right hr

/-- What holds of the leaves holds of the expression. -/
theorem eval (hP : Composes P) {ctx : Context} (e : Expr)
    (h : ∀ n ∈ e.nodes, n.children = [] → P Value (n.eval ctx)) : P Value (e.eval ctx) :=
  hP.along.eval e h

end Composes
end QueryPredicates.Evaluation
