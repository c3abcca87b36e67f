import QueryPredicates.Proofs.Optimization.Equations
import QueryPredicates.Proofs.Optimization.Events
import QueryPredicates.Proofs.Telemetry.Counting

/-! How many comparisons the pass says it has optimized. It comes to every comparison once, and to every
list of one candidate once as an equality. But it goes over the operands of such a list twice, and so it
counts the comparisons that the first time has left in them once more. -/

namespace QueryPredicates
open Run

/-- How many optimizations a record tells of. -/
def Note.optimizations (record : List Note) : Nat := (events record).countP Event.isOptimization

namespace Compilation

variable {α β : Type}

/-- The run, if it returns, tells of so many optimizations. -/
def Optimizes (m : Compilation α) (k : Nat) : Prop :=
  Tells (fun events => events.countP Event.isOptimization = k) m

theorem Records.optimizes {m : Compilation α} {events : List Event} (h : Records m events) :
    Optimizes m (events.countP Event.isOptimization) := fun counters a ha =>
  congrArg (List.countP Event.isOptimization) (h counters a ha)

namespace Optimizes

theorem pure (a : α) : Optimizes (Pure.pure a) 0 := fun _ _ _ => rfl

theorem bind {m : Compilation α} {f : α → Compilation β} {o : Except CompileError α} {k l : Nat}
    (ho : Yields m o) (hm : Optimizes m k) (hf : ∀ a, o = .ok a → Optimizes (f a) l) :
    Optimizes (m >>= f) (k + l) :=
  Tells.bind ho hm hf fun events later hevents hlater => by
    rw [List.countP_append, hevents, hlater]

theorem mapM {f : α → Compilation β} {g : α → Except CompileError β} {k : α → Nat} :
    ∀ {as : List α}, (∀ a ∈ as, Yields (f a) (g a)) → (∀ a ∈ as, Optimizes (f a) (k a)) →
      Optimizes (as.mapM f) (as.map k).sum
  | [], _, _ => pure []
  | a :: as, ho, hm => by
    obtain ⟨hohead, hotail⟩ := List.forall_mem_cons.mp ho
    obtain ⟨hmhead, hmtail⟩ := List.forall_mem_cons.mp hm
    rw [List.mapM_cons, List.map_cons, List.sum_cons]
    refine hmhead.bind hohead fun b _ => ?_
    exact (mapM hotail hmtail).bind (Yields.mapM hotail) fun bs _ => pure (b :: bs)

end Optimizes
end Compilation

/-! ## One node -/

open Compilation

/-- A comparison is said to be optimized in the first of its events and in no other. -/
theorem Comparison.countP_events (c : Comparison) : c.events.countP Event.isOptimization = 1 := by
  have hswap (c : Comparison) : c.swap.countP Event.isOptimization = 0 := by
    unfold swap
    split <;> rfl
  have hcoercion (c : Comparison) : c.coercion.countP Event.isOptimization = 0 := by
    unfold coercion
    split
    · split
      · rfl
      · split <;> rfl
    · rfl
  have hsettlement (c : Comparison) : c.settlement.countP Event.isOptimization = 0 := by
    unfold settlement settlementNull
    repeat' split
    all_goals rfl
  rw [events, List.countP_cons_of_pos rfl]
  split
  · rfl
  · rw [List.countP_append, List.countP_append, hswap, hcoercion, hsettlement]

theorem Comparison.simplify_optimizes (session : Session) (c : Comparison) :
    Optimizes (simplify session c) 1 :=
  c.countP_events ▸ (simplify_records session c).optimizes

theorem NullTest.simplify_optimizes (t : NullTest) : Optimizes t.simplify 0 := by
  have hnone : t.events.countP Event.isOptimization = 0 := by
    unfold events
    split <;> rfl
  exact hnone ▸ t.simplify_records.optimizes

theorem InList.simplify_optimizes (session : Session) (l : InList) :
    Optimizes (l.simplify session) 0 := by
  have hnone : l.events.countP Event.isOptimization = 0 := by
    unfold events
    repeat' split
    all_goals rfl
  exact hnone ▸ (l.simplify_records session).optimizes

/-! ## The pass -/

namespace Expr

def isComparison : Expr → Bool
  | comparison .. => true
  | _ => false

/-- Whether the expression is a list of one candidate. -/
def isSingle : Expr → Bool
  | inList _ _ [] => true
  | _ => false

/-- How many comparisons the pass leaves in the expression. -/
def comparisonsLeft (e : Expr) : Nat :=
  match e.simplified with
  | .ok e' => e'.nodes.countP isComparison
  | .error _ => 0

/-- How many comparisons inside the node the pass comes to once more. -/
def revisits : Expr → Nat
  | inList operand first [] => operand.comparisonsLeft + first.comparisonsLeft
  | _ => 0

/-- How many optimizations the node makes for. -/
def visits (e : Expr) : Nat := e.isComparison.toNat + e.isSingle.toNat + e.revisits

theorem sumNodes_visits (e : Expr) : e.sumNodes visits =
    e.nodes.countP isComparison + e.nodes.countP isSingle + e.sumNodes revisits := by
  rw [countP_nodes, countP_nodes, ← sumNodes_add, ← sumNodes_add]
  rfl

/-- A note, the operands once more, and the equality. -/
theorem visits_single (operand first : Expr) : visits (inList operand first []) =
    0 + (operand.comparisonsLeft + (first.comparisonsLeft + 1)) := by
  have hone : visits (inList operand first []) =
    1 + (operand.comparisonsLeft + first.comparisonsLeft) := rfl
  omega

theorem comparisonsLeft_eq {e e' : Expr} (h : e.simplified = .ok e') :
    e.comparisonsLeft = e'.nodes.countP isComparison := by
  unfold comparisonsLeft
  rw [h]

/-- In what the pass returns no list of one candidate is left. -/
theorem sumNodes_visits_of_isSettled {e : Expr} (h : e.IsSettled) :
    e.sumNodes visits = e.nodes.countP isComparison := by
  rw [countP_nodes]
  refine congrArg List.sum (List.map_congr_left fun n hn => ?_)
  have hsettled := h n hn
  cases n with
  | inList operand first rest =>
    obtain ⟨hne, -⟩ : (inList operand first rest).IsFixed := hsettled.resolve_right nofun
    cases rest with
    | nil => exact absurd rfl hne
    | cons _ _ => rfl
  | _ => rfl

section Step

variable {session : Session} {n : Nat}

/-- What has been simplified is settled, so a second time makes for its comparisons only. -/
theorem optimizeWithin_again {child child' : Expr} (hd : child.depth ≤ n)
    (h : simplifiedWithin n child = .ok child')
    (hvisits : Optimizes (optimizeWithin session n child') (child'.sumNodes visits)) :
    Optimizes (optimizeWithin session n child') child.comparisonsLeft := by
  rw [simplifiedWithin_eq hd] at h
  rwa [sumNodes_visits_of_isSettled (isSettled_simplified h), ← comparisonsLeft_eq h] at hvisits

/-- A list makes for the optimizations of its operands and candidates and, if there is but one candidate,
for those of its equality, which comes to both of them once more. -/
theorem optimizeWithin_inList {operand first : Expr} {rest : List Expr}
    (hd : (inList operand first rest).depth ≤ n + 1)
    (hchild : ∀ e : Expr, e.depth ≤ n → Optimizes (optimizeWithin session n e) (e.sumNodes visits)) :
    Optimizes (optimizeWithin session (n + 1) (inList operand first rest))
      ((inList operand first rest).sumNodes visits) := by
  have hyields := optimizeWithin_yields session n
  simp only [depth] at hd
  have hrest : Optimizes (rest.mapM (optimizeWithin session n))
      (rest.map (sumNodes visits)).sum := by
    refine .mapM (fun e _ => hyields e) fun e he => ?_
    have hde := depth_le_depths he
    exact hchild e (by omega)
  have hagain {child child' : Expr} (hdchild : child.depth ≤ n)
      (h : simplifiedWithin n child = .ok child') :
      Optimizes (optimizeWithin session n child') child.comparisonsLeft := by
    have hdepth := depth_simplifiedWithin_le h
    exact optimizeWithin_again hdchild h (hchild child' (by omega))
  have hcount : (inList operand first rest).sumNodes visits = operand.sumNodes visits +
      (first.sumNodes visits + ((rest.map (sumNodes visits)).sum +
        visits (inList operand first rest))) := by
    rw [sumNodes_inList]
    omega
  rw [hcount]
  refine (hchild operand (by omega)).bind (hyields operand) fun operand' ho => ?_
  refine (hchild first (by omega)).bind (hyields first) fun first' hf => ?_
  refine hrest.bind (Yields.mapM fun e _ => hyields e) fun rest' hmap => ?_
  have hlength := (Except.forall₂_of_mapM hmap).length_eq
  cases rest with
  | nil =>
    obtain rfl : rest' = [] := List.length_eq_zero_iff.mp hlength.symm
    rw [visits_single]
    refine (Records.note _).optimizes.bind (.note _) fun _ _ => ?_
    refine (hagain (by omega) ho).bind (hyields operand') fun _ _ => ?_
    refine (hagain (by omega) hf).bind (hyields first') fun _ _ => ?_
    exact Comparison.simplify_optimizes session _
  | cons second rest =>
    obtain ⟨second', others, rfl⟩ := List.exists_cons_of_length_eq_add_one hlength.symm
    exact InList.simplify_optimizes session ⟨operand', first', second' :: others⟩

end Step

/-- The pass makes for as many optimizations as its nodes do together. -/
theorem optimizeWithin_optimizes (session : Session) (n : Nat) {e : Expr} (hd : e.depth ≤ n) :
    Optimizes (optimizeWithin session n e) (e.sumNodes visits) := by
  induction n generalizing e with
  | zero =>
    cases e <;> first
      | exact .pure _
      | (simp only [depth] at hd; omega)
  | succ n ih =>
    have hyields := optimizeWithin_yields session n
    cases e with
    | comparison op left right whenOperand =>
      simp only [depth] at hd
      have hcount : (comparison op left right whenOperand).sumNodes visits =
          left.sumNodes visits + (right.sumNodes visits + 1) := by
        rw [sumNodes_comparison, Nat.add_comm, Nat.add_assoc]
        rfl
      rw [hcount]
      refine (ih (by omega)).bind (hyields left) fun left' _ => ?_
      refine (ih (by omega)).bind (hyields right) fun right' _ => ?_
      exact Comparison.simplify_optimizes session _
    | nullTest operand negated =>
      simp only [depth] at hd
      have hcount : (nullTest operand negated).sumNodes visits = operand.sumNodes visits + 0 := by
        rw [sumNodes_nullTest, Nat.add_comm]
        rfl
      rw [hcount]
      refine (ih (by omega)).bind (hyields operand) fun operand' _ => ?_
      exact NullTest.simplify_optimizes ⟨operand', negated⟩
    | inList operand first rest => exact optimizeWithin_inList hd fun e he => ih he
    | _ => exact .pure _

/-! ## What is counted twice -/

theorem revisits_eq_zero_iff {e : Expr} : e.revisits = 0 ↔
    ∀ operand first, e = inList operand first [] →
      operand.comparisonsLeft = 0 ∧ first.comparisonsLeft = 0 := by
  unfold revisits
  split
  · rename_i operand first
    rw [Nat.add_eq_zero_iff]
    exact ⟨fun h _ _ he => by cases he; exact h, fun h => h operand first rfl⟩
  · rename_i hother
    exact ⟨fun _ operand first he => (hother operand first he).elim, fun _ => rfl⟩

theorem comparisonsLeft_eq_zero_iff (session : Session) {e : Expr} : e.comparisonsLeft = 0 ↔
    ∀ e', Yields (e.optimize session) (.ok e') → ∀ n ∈ e'.nodes, n.isComparison = false := by
  have hyields := optimize_yields session e
  cases hpass : e.simplified with
  | error failure =>
    rw [hpass] at hyields
    refine ⟨fun _ e' he' => ?_, fun _ => ?_⟩
    · cases hyields.unique he'
    · unfold comparisonsLeft
      rw [hpass]
  | ok e' =>
    rw [hpass] at hyields
    rw [comparisonsLeft_eq hpass, List.countP_eq_zero]
    simp only [Bool.not_eq_true]
    refine ⟨fun h e'' he'' => ?_, fun h => h e' hyields⟩
    cases hyields.unique he''
    exact h

/-- The optimizations on record of a pass that succeeds: one for each comparison and each list of one
candidate, and one more for each comparison that the pass leaves in an operand of such a list. So there is
one for each and no more exactly if it leaves none there. -/
theorem optimize_visits {session : Session} {counters : Counters} {e e' : Expr}
    (h : (e.optimize session counters).outcome = .ok e') :
    let recorded := Note.optimizations (e.optimize session counters).record
    let once := e.nodes.countP isComparison + e.nodes.countP isSingle
    recorded = once + e.sumNodes revisits ∧
    (recorded = once ↔ ∀ operand first, inList operand first [] ∈ e.nodes →
      ∀ child ∈ [operand, first], ∀ child', Yields (child.optimize session) (.ok child') →
        ∀ n ∈ child'.nodes, n.isComparison = false) := by
  intro recorded once
  have hcount : recorded = once + e.sumNodes revisits := by
    rw [← sumNodes_visits]
    exact optimizeWithin_optimizes session e.depth (Nat.le_refl _) counters e' h
  refine ⟨hcount, ?_⟩
  have hnone : recorded = once ↔ e.sumNodes revisits = 0 := by omega
  rw [hnone, sumNodes, List.sum_eq_zero_iff_forall_eq_nat]
  simp only [List.forall_mem_map, revisits_eq_zero_iff, List.forall_mem_cons, List.not_mem_nil,
    comparisonsLeft_eq_zero_iff session, IsEmpty.forall_iff, implies_true, and_true]
  exact ⟨fun h operand first hmem => h _ hmem operand first rfl,
    fun h n hn operand first he => h operand first (he ▸ hn)⟩

/-- `(T.A = T.B) IN (TRUE)` becomes `(T.A = T.B) = TRUE`. It has one comparison and is a list of one
candidate, but three optimizations are on record. -/
theorem optimize_visits_comparison :
    let equality : Expr := comparison .equal (column ⟨1, "T", "A", .int, true⟩)
      (column ⟨1, "T", "B", .int, true⟩) false
    let e : Expr := inList equality (ofTruth .holds) []
    let once := e.nodes.countP isComparison + e.nodes.countP isSingle
    (e.optimize {} fun _ => 0).outcome =
        .ok (comparison .equal equality (ofTruth .holds) false) ∧
      Note.optimizations (e.optimize {} fun _ => 0).record = once + e.sumNodes revisits ∧
      once = 2 ∧ e.sumNodes revisits = 1 := by
  intro equality e once
  have hpass : (e.optimize {} fun _ => 0).outcome =
    .ok (comparison .equal equality (ofTruth .holds) false) := rfl
  exact ⟨hpass, (optimize_visits hpass).1, rfl, rfl⟩

/-- The pass optimizes a comparison more than once. -/
theorem optimize_repeats_visits : ¬ ∀ (session : Session) (counters : Counters) (e e' : Expr),
    (e.optimize session counters).outcome = .ok e' →
      Note.optimizations (e.optimize session counters).record =
        e.nodes.countP isComparison + e.nodes.countP isSingle := by
  intro h
  have hcount := h {} (fun _ => 0) (inList (comparison .equal (column ⟨1, "T", "A", .int, true⟩)
    (column ⟨1, "T", "B", .int, true⟩) false) (ofTruth .holds) []) _ rfl
  exact absurd hcount (by decide)

end Expr
end QueryPredicates
