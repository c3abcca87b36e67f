import QueryPredicates.Proofs.Expr.Cost

/-! Costs that stop at the limit. As a cost is the weight of an expression as far as thirty-two bits can
hold it, the tolls of the nodes may be added up in any order, and what stands around an operand adds the
same to its cost whatever the operand is. So an expression costs no less than what is inside it, and no
less with a costlier expression in the place of a cheaper one. -/

namespace QueryPredicates

/-! ## Sums of words -/

/-- An order in which words are added up, one sum to another. -/
inductive Summation where
  | word (w : UInt32)
  | sum (left right : Summation)

namespace Summation

def words : Summation → List UInt32
  | word w => [w]
  | sum left right => left.words ++ right.words

/-- What the words come to when they are added up in this order. -/
def total : Summation → UInt32
  | word w => w
  | sum left right => Expr.addWords left.total right.total

theorem toNat_addWords (a b : UInt32) :
    (Expr.addWords a b).toNat = Expr.addCosts a.toNat b.toNat := by
  have ha := a.toNat_lt
  have hb := b.toNat_lt
  have hwrap : (a + b).toNat = (a.toNat + b.toNat) % 2 ^ 32 := UInt32.toNat_add a b
  have hlimit : Expr.costLimit = 2 ^ 32 - 1 := rfl
  unfold Expr.addWords Expr.addCosts
  split
  · rename_i hlt
    rw [UInt32.lt_iff_toNat_lt, hwrap] at hlt
    rw [hlimit, UInt32.toNat_ofNat']
    omega
  · rename_i hge
    rw [UInt32.lt_iff_toNat_lt, hwrap] at hge
    rw [hlimit, hwrap]
    omega

theorem toNat_total (s : Summation) :
    s.total.toNat = min (s.words.map UInt32.toNat).sum Expr.costLimit := by
  induction s with
  | word w =>
    have hw := w.toNat_lt
    have hlimit : Expr.costLimit = 2 ^ 32 - 1 := rfl
    simp only [total, words, List.map_cons, List.map_nil, List.sum_cons, List.sum_nil]
    omega
  | sum left right ihleft ihright =>
    rw [total, toNat_addWords, ihleft, ihright, Expr.addCosts_min, words, List.map_append,
      List.sum_append]

end Summation

namespace Expr

/-! ## Places -/

/-- A node with one operand left out. -/
inductive Frame where
  | leftOf (op : Comparator) (right : Expr) (whenOperand : Bool)
  | rightOf (op : Comparator) (left : Expr) (whenOperand : Bool)
  | tested (negated : Bool)
  | sought (first : Expr) (rest : List Expr)
  | firstOf (operand : Expr) (rest : List Expr)
  | laterOf (operand first : Expr) (before after : List Expr)

def Frame.fill : Frame → Expr → Expr
  | leftOf op right whenOperand, e => comparison op e right whenOperand
  | rightOf op left whenOperand, e => comparison op left e whenOperand
  | tested negated, e => nullTest e negated
  | sought first rest, e => inList e first rest
  | firstOf operand rest, e => inList operand e rest
  | laterOf operand first before after, e => inList operand first (before ++ e :: after)

/-- Puts an expression into a place, given by the nodes around it from the inside out. -/
def fill : List Frame → Expr → Expr
  | [], e => e
  | frame :: frames, e => fill frames (frame.fill e)

theorem exists_frame {e child : Expr} (h : child ∈ e.children) : ∃ frame, Frame.fill frame child = e := by
  cases e with
  | comparison op left right whenOperand =>
    obtain rfl | rfl : child = left ∨ child = right := by simpa [children] using h
    · exact ⟨.leftOf op right whenOperand, rfl⟩
    · exact ⟨.rightOf op left whenOperand, rfl⟩
  | nullTest operand negated =>
    obtain rfl : child = operand := by simpa [children] using h
    exact ⟨.tested negated, rfl⟩
  | inList operand first rest =>
    obtain rfl | rfl | hrest : child = operand ∨ child = first ∨ child ∈ rest := by
      simpa [children] using h
    · exact ⟨.sought first rest, rfl⟩
    · exact ⟨.firstOf operand rest, rfl⟩
    · obtain ⟨before, after, rfl⟩ := List.append_of_mem hrest
      exact ⟨.laterOf operand first before after, rfl⟩
  | _ => simp [children] at h

theorem fill_append (frames outer : List Frame) (e : Expr) :
    fill (frames ++ outer) e = fill outer (fill frames e) := by
  induction frames generalizing e with
  | nil => rfl
  | cons frame frames ih => exact ih (frame.fill e)

/-- Everything inside an expression stands in a place of it. -/
theorem exists_fill {e n : Expr} (h : n ∈ e.nodes) : ∃ frames, fill frames n = e := by
  induction e using children_induction with
  | node e ih =>
    rw [nodes_eq] at h
    obtain rfl | hinside := List.mem_cons.mp h
    · exact ⟨[], rfl⟩
    · obtain ⟨child, hc, hn⟩ := List.mem_flatMap.mp hinside
      obtain ⟨frames, hframes⟩ := ih child hc hn
      obtain ⟨frame, hframe⟩ := exists_frame hc
      refine ⟨frames ++ [frame], ?_⟩
      rw [fill_append, hframes]
      exact hframe

theorem weight_null : null.weight = 0 := weight_of_leaf rfl

theorem Frame.weight_fill (frame : Frame) (e : Expr) :
    (frame.fill e).weight = (frame.fill null).weight + e.weight := by
  cases frame with
  | leftOf op right whenOperand => simp only [fill, weight_comparison, weight_null]; omega
  | rightOf op left whenOperand => simp only [fill, weight_comparison, weight_null]; omega
  | tested negated => simp only [fill, weight_nullTest, weight_null]; omega
  | sought first rest => simp only [fill, weight_inList, weight_null]; omega
  | firstOf operand rest => simp only [fill, weight_inList, weight_null]; omega
  | laterOf operand first before after =>
    simp only [fill, weight_inList, weight_null, List.map_append, List.map_cons, List.sum_append,
      List.sum_cons]
    omega

/-- A place adds the same to the weight of whatever stands in it. -/
theorem weight_fill (frames : List Frame) (e : Expr) :
    (fill frames e).weight = (fill frames null).weight + e.weight := by
  induction frames generalizing e with
  | nil => rw [fill, fill, weight_null, Nat.zero_add]
  | cons frame frames ih =>
    rw [fill, fill, ih (frame.fill e), ih (frame.fill null), frame.weight_fill e, Nat.add_assoc]

theorem cost_fill (frames : List Frame) (e : Expr) :
    (fill frames e).cost = addCosts (fill frames null).cost e.cost := by
  rw [cost_eq_min, cost_eq_min (fill frames null), cost_eq_min e, addCosts_min, weight_fill]

theorem addCosts_mono {a b b' : Nat} (h : b ≤ b') : addCosts a b ≤ addCosts a b' := by
  unfold addCosts
  omega

theorem cost_le_fill (frames : List Frame) (e : Expr) : e.cost ≤ (fill frames e).cost := by
  rw [cost_eq_min, cost_eq_min (fill frames e), weight_fill]
  omega

/-! ## The cost -/

theorem weight_replicate (e : Expr) (n : Nat) :
    (inList e e (List.replicate n e)).weight = (n + 2) * e.weight := by
  rw [weight_inList, List.map_replicate, List.sum_replicate_nat, Nat.add_mul]
  omega

/-- A cost is exact as far as thirty-two bits can hold it: two for each column and one for each sequence
call, comparison and null test, all of them added up and then cut off at the greatest word. So the words
of the nodes come to it in whichever order they are added up, each sum being cut off; and as every place
adds the same to the cost of what stands in it, the cost is monotone in everything inside. -/
theorem cost_saturates (e : Expr) :
    e.cost = min (e.nodes.map toll).sum (2 ^ 32 - 1) ∧
    (∀ s : Summation, (s.words.map UInt32.toNat).Perm (e.nodes.map toll) → s.total.toNat = e.cost) ∧
    (∀ n ∈ e.nodes, n.cost ≤ e.cost ∧ ∃ frames, fill frames n = e) ∧
    ∀ frames n n', fill frames n = e → n.cost ≤ n'.cost → e.cost ≤ (fill frames n').cost := by
  refine ⟨cost_eq_min e, fun s hwords => ?_, fun n hn => ?_, fun frames n n' hfill hle => ?_⟩
  · rw [Summation.toNat_total, hwords.sum_eq, cost_eq_min]
    rfl
  · obtain ⟨frames, rfl⟩ := exists_fill hn
    exact ⟨cost_le_fill frames n, frames, rfl⟩
  · rw [← hfill, cost_fill frames n, cost_fill frames n']
    exact addCosts_mono hle

/-- `(T.A = ?1) IN (NEXT VALUE FOR S)` costs four in any order, and no less with a list in the place of
T.A that is too long for its cost to be exact. -/
theorem cost_saturates_wide :
    let a : Expr := column ⟨1, "T", "A", .int, true⟩
    let e (operand : Expr) : Expr :=
      inList (comparison .equal operand (parameter ⟨1, none⟩) false) (nextValue ⟨0, "S", 1⟩) []
    let wide : Expr := inList a a (List.replicate (2 ^ 31) a)
    let s : Summation := .sum (.sum (.word 1) (.word 2)) (.sum (.word 0) (.sum (.word 1) (.word 0)))
    s.total.toNat = (e a).cost ∧ wide.cost = 2 ^ 32 - 1 ∧ a.cost ≤ (e a).cost ∧
      (e a).cost ≤ (e wide).cost := by
  intro a e wide s
  obtain ⟨-, hsum, hinside, hmono⟩ := cost_saturates (e a)
  have hwide : wide.cost = 2 ^ 32 - 1 := by
    have hcost : wide.cost = min wide.weight (2 ^ 32 - 1) := (cost_saturates wide).1
    have hweight : wide.weight = (2 ^ 31 + 2) * 2 := weight_replicate a (2 ^ 31)
    rw [hcost, hweight]
    decide
  have hwords : (s.words.map UInt32.toNat).Perm ((e a).nodes.map toll) := by decide
  have ha : a ∈ (e a).nodes := by simp [e, nodes, self_mem_nodes]
  have hle : a.cost ≤ wide.cost := by rw [hwide]; decide
  let frames : List Frame :=
    [.leftOf .equal (parameter ⟨1, none⟩) false, .sought (nextValue ⟨0, "S", 1⟩) []]
  exact ⟨hsum s hwords, hwide, (hinside a ha).1, hmono frames a wide rfl hle⟩

end Expr
end QueryPredicates
