import QueryPredicates.Expr.Operand
import QueryPredicates.Expr.Walk
import QueryPredicates.Proofs.Expr.Nodes

/-! The columns of an expression. A question about columns that goes down from operand to operand, taken
by number, is answered for just the columns among the leaves, and that is what the walks over whole
expressions answer. Columns can be mapped where they stand, which changes nothing else. -/

namespace QueryPredicates

namespace Expr

/-! ## Questions about columns -/

/-- The columns of the leaves, from left to right, each as often as it occurs. -/
def columns (e : Expr) : List Column := e.nodes.filterMap column?

theorem columns_eq (e : Expr) : e.columns = e.column?.toList ++ e.children.flatMap columns := by
  unfold columns
  rw [nodes_eq, List.filterMap_cons, List.filterMap_flatMap]
  cases e.column? <;> rfl

theorem children_of_column? {e : Expr} {c : Column} (h : e.column? = some c) : e.children = [] := by
  cases e with
  | column c' => rfl
  | _ => cases h

/-- Answers may be combined part by part. -/
structure Gathers (combine : List Bool → Bool) : Prop where
  single : ∀ answer, combine [answer] = answer
  flatten : ∀ parts : List (List Bool), combine (parts.map combine) = combine parts.flatten

theorem gathers_any : Gathers (List.any · id) where
  single := Bool.or_false
  flatten parts := by
    rw [List.any_map, List.any_flatten]
    rfl

theorem gathers_all : Gathers (List.all · id) where
  single := Bool.and_true
  flatten parts := by
    rw [List.all_map, List.all_flatten]
    rfl

/-- What is answered for an expression from the answers for its operands is answered from its columns. -/
theorem eq_combine_columns {test : Column → Bool} {combine : List Bool → Bool} {answer : Expr → Bool}
    (hcombine : Gathers combine) (h : ∀ e, answer e = match e.column? with
      | some c => test c
      | none => combine (e.children.map answer)) (e : Expr) :
    answer e = combine (e.columns.map test) := by
  induction e using children_induction with
  | node e ih =>
    rw [h, columns_eq]
    cases hc : e.column? with
    | some c =>
      rw [children_of_column? hc]
      exact (hcombine.single _).symm
    | none =>
      have hanswers : e.children.map answer =
          (e.children.map fun child => child.columns.map test).map combine := by
        rw [List.map_map]
        exact List.map_congr_left ih
      rw [Option.toList_none, List.nil_append, List.map_flatMap, List.flatMap_def, hanswers]
      exact hcombine.flatten _

theorem ask_eq_columns (test : Column → Bool) {combine : List Bool → Bool}
    (hcombine : Gathers combine) (e : Expr) : e.ask test combine = combine (e.columns.map test) :=
  eq_combine_columns hcombine (ask_eq test combine) e

theorem references_eq_ask (access : AccessId) (e : Expr) :
    e.references access = e.ask (·.access == access) (List.any · id) := by
  rw [ask_eq_columns _ gathers_any]
  refine eq_combine_columns gathers_any (fun e => ?_) e
  cases e <;> simp [references, column?, children, anyReferences_eq_any, Bool.or_assoc]

theorem isEvaluatable_eq_ask (e : Expr) :
    e.isEvaluatable = e.ask Column.evaluatable (List.all · id) := by
  rw [ask_eq_columns _ gathers_all]
  refine eq_combine_columns gathers_all (fun e => ?_) e
  cases e <;> simp [isEvaluatable, column?, children, allEvaluatable_eq_all, Bool.and_assoc]

/-- An access is referred to if there is a column of it. -/
theorem references_eq_true_iff {access : AccessId} {e : Expr} :
    e.references access = true ↔ ∃ c ∈ e.columns, c.access = access := by
  rw [references_eq_ask, ask_eq_columns _ gathers_any, List.any_map, List.any_eq_true]
  simp

theorem isEvaluatable_eq_true_iff {e : Expr} :
    e.isEvaluatable = true ↔ ∀ c ∈ e.columns, c.evaluatable = true := by
  rw [isEvaluatable_eq_ask, ask_eq_columns _ gathers_all, List.all_map, List.all_eq_true]
  rfl

/-! ## Mapping columns -/

mutual
/-- Maps every column where it stands. -/
def mapColumns (f : Column → Column) : Expr → Expr
  | column c => column (f c)
  | comparison op left right whenOperand =>
    comparison op (left.mapColumns f) (right.mapColumns f) whenOperand
  | nullTest operand negated => nullTest (operand.mapColumns f) negated
  | inList operand first rest =>
    inList (operand.mapColumns f) (first.mapColumns f) (mapColumnsOfAll f rest)
  | constant c => constant c
  | parameter p => parameter p
  | nextValue s => nextValue s

/-- Maps every column of the expressions where it stands. -/
def mapColumnsOfAll (f : Column → Column) : List Expr → List Expr
  | [] => []
  | e :: es => e.mapColumns f :: mapColumnsOfAll f es
end

theorem mapColumnsOfAll_eq_map (f : Column → Column) (es : List Expr) :
    mapColumnsOfAll f es = es.map (mapColumns f) := by
  induction es with
  | nil => rfl
  | cons e es ih => simp [mapColumnsOfAll, ih]

variable (f : Column → Column)

theorem children_mapColumns (e : Expr) : (e.mapColumns f).children = e.children.map (mapColumns f) := by
  cases e <;> simp [mapColumns, children, mapColumnsOfAll_eq_map]

theorem nodes_mapColumns (e : Expr) : (e.mapColumns f).nodes = e.nodes.map (mapColumns f) := by
  induction e using children_induction with
  | node e ih =>
    rw [nodes_eq, nodes_eq e, List.map_cons, children_mapColumns, List.flatMap_map, List.map_flatMap]
    exact congrArg _ (List.flatMap_congr ih)

theorem column?_mapColumns (e : Expr) : (e.mapColumns f).column? = e.column?.map f := by
  cases e <;> rfl

theorem columns_mapColumns (e : Expr) : (e.mapColumns f).columns = e.columns.map f := by
  unfold columns
  rw [nodes_mapColumns, List.filterMap_map, List.map_filterMap]
  exact List.filterMap_congr fun n _ => column?_mapColumns f n

/-- Makes a node of what becomes of its operands, maps a column by `f`, and leaves other leaves alone. -/
structure MapsColumns (g : Expr → Expr) : Prop where
  column : ∀ c, g (column c) = column (f c)
  comparison : ∀ op left right whenOperand,
    g (comparison op left right whenOperand) = comparison op (g left) (g right) whenOperand
  nullTest : ∀ operand negated, g (nullTest operand negated) = nullTest (g operand) negated
  inList : ∀ operand first rest,
    g (inList operand first rest) = inList (g operand) (g first) (rest.map g)
  constant : ∀ c, g (constant c) = constant c
  parameter : ∀ p, g (parameter p) = parameter p
  nextValue : ∀ s, g (nextValue s) = nextValue s

/-- There is one way to map columns where they stand. -/
theorem MapsColumns.eq_mapColumns {g : Expr → Expr} (h : MapsColumns f g) (e : Expr) :
    g e = e.mapColumns f := by
  induction e using children_induction with
  | node e ih =>
    cases e with
    | column c => exact h.column c
    | comparison op left right whenOperand =>
      have hl := ih left (by simp [children])
      have hr := ih right (by simp [children])
      rw [h.comparison, mapColumns, hl, hr]
    | nullTest operand negated =>
      have ho := ih operand (by simp [children])
      rw [h.nullTest, mapColumns, ho]
    | inList operand first rest =>
      have ho := ih operand (by simp [children])
      have hf := ih first (by simp [children])
      have hr : ∀ e ∈ rest, g e = e.mapColumns f := fun e he => ih e (by simp [children, he])
      rw [h.inList, mapColumns, ho, hf, mapColumnsOfAll_eq_map, List.map_congr_left hr]
    | constant c => exact h.constant c
    | parameter p => exact h.parameter p
    | nextValue s => exact h.nextValue s

theorem mapColumns_mapColumns (g : Column → Column) (e : Expr) :
    (e.mapColumns f).mapColumns g = e.mapColumns (g ∘ f) := by
  have hmaps : MapsColumns (g ∘ f) fun e => (e.mapColumns f).mapColumns g := by
    constructor
    case inList =>
      intro operand first rest
      simp only [mapColumns, mapColumnsOfAll_eq_map, List.map_map]
      rfl
    all_goals intros; rfl
  exact hmaps.eq_mapColumns _ e

theorem setEvaluatable_eq_mapColumns (access : AccessId) (flag : Bool) (e : Expr) :
    e.setEvaluatable access flag = e.mapColumns (Column.setEvaluatable access flag) := by
  have hmaps : MapsColumns (Column.setEvaluatable access flag) (setEvaluatable access flag) := by
    constructor
    case inList =>
      intro operand first rest
      rw [setEvaluatable, setAllEvaluatable_eq_map]
    all_goals intros; rfl
  exact hmaps.eq_mapColumns _ e

end Expr

def Comparison.mapColumns (f : Column → Column) (c : Comparison) : Comparison :=
  { c with
    left := c.left.mapColumns f
    right := c.right.mapColumns f }

end QueryPredicates
