import QueryPredicates.Proofs.Fusion.Soundness

/-! Which equalities have one that follows from both. Two equalities share an operand if they have
operands of one text opposite to operands that are not both constants, on whichever sides; that does
not depend on which comes first. An equality follows just where they do, if the first is no `WHEN`
operand. Nothing is asked of the second in this, so the order matters where one of the two is. -/

namespace QueryPredicates
namespace Comparison

/-- Two equalities have operands of one text, opposite to operands that are not both constants. -/
def Shares (a b : Comparison) : Prop :=
  a.op = .equal ∧ b.op = .equal ∧ ∃ shared first matched second,
    a.HasOperands shared first ∧ b.HasOperands matched second ∧ shared.sql = matched.sql ∧
      (first.isConstant && second.isConstant) = false

theorem Shares.symm {a b : Comparison} (h : a.Shares b) : b.Shares a := by
  obtain ⟨ha, hb, shared, first, matched, second, hfirst, hsecond, hsql, hconstants⟩ := h
  rw [Bool.and_comm] at hconstants
  exact ⟨hb, ha, matched, second, shared, first, hsecond, hfirst, hsql.symm, hconstants⟩

/-- All ways to share an operand are tried. -/
theorem mem_pairings_iff {a b : Comparison} {p : SharedOperand} {matched : Expr} :
    (p, matched) ∈ pairings a b ↔
      a.HasOperands p.shared p.first ∧ b.HasOperands matched p.second := by
  refine ⟨hasOperands_of_mem_pairings, ?_⟩
  obtain ⟨shared, first, second⟩ := p
  rintro ⟨⟨rfl, rfl⟩ | ⟨rfl, rfl⟩, ⟨rfl, rfl⟩ | ⟨rfl, rfl⟩⟩ <;> simp [pairings]

theorem HasOperands.symm {c : Comparison} {x y : Expr} (h : c.HasOperands x y) :
    c.HasOperands y x :=
  Or.symm h

/-- An equality that follows is between the operands opposite to those of one text. -/
theorem shares_of_transitiveEqual? {a b c : Comparison} (h : a.transitiveEqual? b = some c) :
    a.Shares b ∧ c.op = .equal ∧ c.whenOperand = false ∧ (∃ shared, a.HasOperands c.left shared) ∧
      (∃ matched, b.HasOperands c.right matched) ∧
      (c.left.isConstant && c.right.isConstant) = false := by
  obtain ⟨ha, hb, p, matched, hfind, rfl⟩ := transitiveEqual?_eq_some h
  obtain ⟨hfirst, hsecond⟩ := mem_pairings_iff.mp (List.mem_of_find?_eq_some hfind)
  have hp := List.find?_some hfind
  rw [Bool.and_eq_true_iff, beq_iff_eq, Bool.not_eq_true'] at hp
  obtain ⟨hconstants, hsql⟩ := hp
  exact ⟨⟨ha, hb, _, _, _, _, hfirst, hsecond, hsql, hconstants⟩, rfl, rfl,
    ⟨_, hfirst.symm⟩, ⟨_, hsecond.symm⟩, hconstants⟩

/-- No equality follows from a `WHEN` operand and another comparison. -/
theorem transitiveEqual?_of_whenOperand {a : Comparison} (h : a.whenOperand = true)
    (b : Comparison) : a.transitiveEqual? b = none := by
  simp [transitiveEqual?, h]

theorem isSome_transitiveEqual?_iff {a b : Comparison} :
    (a.transitiveEqual? b).isSome = true ↔ a.whenOperand = false ∧ a.Shares b := by
  constructor
  · intro h
    obtain ⟨c, hc⟩ := Option.isSome_iff_exists.mp h
    refine ⟨Bool.eq_false_iff.mpr fun hw => ?_, (shares_of_transitiveEqual? hc).1⟩
    cases hc.symm.trans (transitiveEqual?_of_whenOperand hw b)
  · rintro ⟨hw, ha, hb, shared, first, matched, second, hfirst, hsecond, hsql, hconstants⟩
    have hmem : (⟨shared, first, second⟩, matched) ∈ pairings a b :=
      mem_pairings_iff.mpr ⟨hfirst, hsecond⟩
    have hfound : (a.pair? b fun x y => !(x.isConstant && y.isConstant)).isSome = true := by
      rw [pair?, Option.isSome_map, List.find?_isSome]
      exact ⟨_, hmem, by simp only [hconstants, hsql, Bool.not_false, beq_self_eq_true, Bool.and_self]⟩
    simpa [transitiveEqual?, ha, hb, hw] using hfound

/-- When an equality follows. From two comparisons in this order one follows if they share an operand
and the first is no `WHEN` operand; it then follows in the other order too unless just the second is
one. It is a plain equality of one operand of each, which are not both constants. -/
theorem transitiveEqual?_applies (a b : Comparison) :
    ((a.transitiveEqual? b).isSome = true ↔ a.whenOperand = false ∧ a.Shares b) ∧
    (((a.transitiveEqual? b).isSome = true ↔ (b.transitiveEqual? a).isSome = true) ↔
      (a.Shares b → a.whenOperand = b.whenOperand)) ∧
    (a.op ≠ .equal ∨ b.op ≠ .equal ∨ a.whenOperand = true → a.transitiveEqual? b = none) ∧
    ∀ c, a.transitiveEqual? b = some c → c.op = .equal ∧ c.whenOperand = false ∧
      (∃ shared, a.HasOperands c.left shared) ∧ (∃ matched, b.HasOperands c.right matched) ∧
      (c.left.isConstant && c.right.isConstant) = false := by
  refine ⟨isSome_transitiveEqual?_iff, ?_, fun h => ?_, fun c hc =>
    (shares_of_transitiveEqual? hc).2⟩
  · have hcomm : b.Shares a ↔ a.Shares b := ⟨.symm, .symm⟩
    rw [isSome_transitiveEqual?_iff, isSome_transitiveEqual?_iff, hcomm]
    cases a.whenOperand <;> cases b.whenOperand <;> simp
  · rw [← Option.not_isSome_iff_eq_none, isSome_transitiveEqual?_iff]
    rintro ⟨hw, ha, hb, -⟩
    rcases h with h | h | h
    · exact h ha
    · exact h hb
    · cases hw.symm.trans h

/-- `1 = T.A` and `T.B = T.A` give `1 = T.B` in one order and `T.B = 1` in the other. -/
theorem transitiveEqual?_applies_constant :
    let one : Expr := .constant (.ofValue (.int 1))
    let a : Comparison := ⟨.equal, one, .column ⟨1, "T", "A", .int, true⟩, false⟩
    let b : Comparison :=
      ⟨.equal, .column ⟨1, "T", "B", .int, true⟩, .column ⟨1, "T", "A", .int, true⟩, false⟩
    a.transitiveEqual? b = some ⟨.equal, one, .column ⟨1, "T", "B", .int, true⟩, false⟩ ∧
    (b.transitiveEqual? a).isSome = true ∧
    transitiveEqual? { a with whenOperand := true } b = none := by
  intro one a b
  have hfused : a.transitiveEqual? b =
      some ⟨.equal, one, .column ⟨1, "T", "B", .int, true⟩, false⟩ := rfl
  obtain ⟨-, hsymm, -⟩ := transitiveEqual?_applies a b
  obtain ⟨-, -, hnone, -⟩ := transitiveEqual?_applies { a with whenOperand := true } b
  refine ⟨hfused, (hsymm.mpr fun _ => rfl).mp ?_, hnone (.inr (.inr rfl))⟩
  rw [hfused]
  rfl

/-- Of `T.A = T.B` and the `WHEN` operand `T.A = T.C` follows `T.B = T.C`, but not the other way
round. -/
theorem transitiveEqual?_not_symmetric : ¬∀ a b : Comparison,
    ((a.transitiveEqual? b).isSome = true ↔ (b.transitiveEqual? a).isSome = true) ∧
    (a.op ≠ .equal ∨ b.op ≠ .equal ∨ a.whenOperand = true ∨ b.whenOperand = true →
      a.transitiveEqual? b = none ∧ b.transitiveEqual? a = none) := by
  intro h
  have hsymm := (h
    ⟨.equal, .column ⟨1, "T", "A", .int, true⟩, .column ⟨1, "T", "B", .int, true⟩, false⟩
    ⟨.equal, .column ⟨1, "T", "A", .int, true⟩, .column ⟨1, "T", "C", .int, true⟩, true⟩).1
  cases hsymm.mp rfl

end Comparison
end QueryPredicates
