import QueryPredicates.Telemetry.Register
import QueryPredicates.Proofs.Telemetry.Routing
import Mathlib.Algebra.BigOperators.Group.List.Basic
import Mathlib.Algebra.Ring.Nat
import Mathlib.Data.List.Nodup

/-! What a report says. It lists the comparators that were counted, each once, and as every optimized
comparison is counted twice over, under its comparator and in the total, the counts in the list add up
to the total. Nothing rests on how the counts are kept: a register that files them under the names of
the comparators gives the same report. -/

namespace QueryPredicates

theorem Comparator.name_injective : Function.Injective Comparator.name := by
  intro c d h
  have hall : ∀ c ∈ all, ∀ d ∈ all, c.name = d.name → c = d := by decide
  exact hall c c.mem_all d d.mem_all h

/-! ## The list of a report -/

namespace NamedSummary

theorem precedes_iff {a b : NamedSummary} : a.precedes b = true ↔
    b.optimized < a.optimized ∨ a.optimized = b.optimized ∧ a.name ≤ b.name := by
  simp [precedes]

theorem precedes_trans (a b c : NamedSummary) (hab : a.precedes b = true)
    (hbc : b.precedes c = true) : a.precedes c = true := by
  rw [precedes_iff] at hab hbc ⊢
  obtain hab | ⟨hab, hname⟩ := hab
  · exact .inl (by omega)
  · obtain hbc | ⟨hbc, hname'⟩ := hbc
    · exact .inl (by omega)
    · exact .inr ⟨hab.trans hbc, String.le_trans hname hname'⟩

theorem precedes_total (a b : NamedSummary) : (a.precedes b || b.precedes a) = true := by
  rw [Bool.or_eq_true, precedes_iff, precedes_iff]
  obtain hlt | heq | hgt := Nat.lt_trichotomy a.optimized b.optimized
  · exact .inr (.inl hlt)
  · obtain hname | hname := String.le_total a.name b.name
    · exact .inl (.inr ⟨heq, hname⟩)
    · exact .inr (.inr ⟨heq.symm, hname⟩)
  · exact .inl (.inl hgt)

/-- Two summaries that precede each other have one name and one count. -/
theorem precedes_antisymm {a b : NamedSummary} (hab : a.precedes b = true)
    (hba : b.precedes a = true) : a.name = b.name ∧ a.optimized = b.optimized := by
  rw [precedes_iff] at hab hba
  obtain hab | ⟨hab, hname⟩ := hab
  · omega
  · obtain hba | ⟨-, hname'⟩ := hba
    · omega
    · exact ⟨String.le_antisymm hname hname', hab⟩

end NamedSummary

def OperatorSummary.named (s : OperatorSummary) : NamedSummary := ⟨s.op.name, s.optimized, s.share⟩

namespace Tally

variable {t : Tally}

theorem summarize_eq_some {op : Comparator} {s : OperatorSummary} : t.summarize op = some s ↔
    t.optimized op ≠ 0 ∧
      s = ⟨op, t.optimized op, Double.quotient (t.optimized op) t.comparisonsOptimized⟩ := by
  unfold summarize
  split <;> simp_all [eq_comm]

/-- Listed are the comparators that were counted, with their counts and shares. -/
theorem mem_report_iff {s : OperatorSummary} : s ∈ t.report ↔
    s.optimized = t.optimized s.op ∧ s.optimized ≠ 0 ∧
      s.share = Double.quotient s.optimized t.comparisonsOptimized := by
  unfold report
  rw [(List.mergeSort_perm _ _).mem_iff, List.mem_filterMap]
  constructor
  · intro ⟨op, _, hs⟩
    obtain ⟨hne, rfl⟩ := summarize_eq_some.mp hs
    exact ⟨rfl, hne, rfl⟩
  · intro ⟨hcount, hne, hshare⟩
    refine ⟨s.op, s.op.mem_all, summarize_eq_some.mpr ⟨hcount ▸ hne, ?_⟩⟩
    rw [← hcount, ← hshare]

/-- No comparator is listed twice. -/
theorem nodup_report (t : Tally) : (t.report.map OperatorSummary.op).Nodup := by
  have hsorted : (t.report.map OperatorSummary.op).Perm
      ((Comparator.all.filterMap t.summarize).map OperatorSummary.op) :=
    (List.mergeSort_perm _ _).map _
  have hlisted : ((Comparator.all.filterMap t.summarize).map OperatorSummary.op) =
      Comparator.all.filter fun op => t.optimized op ≠ 0 := by
    rw [List.map_filterMap, ← List.filterMap_eq_filter]
    refine List.filterMap_congr fun op _ => ?_
    by_cases hop : t.optimized op = 0 <;> simp [summarize, Option.guard, hop]
  rw [hsorted.nodup_iff, hlisted]
  exact Comparator.all_nodup.filter _

/-- Nothing is lost with the comparators that are not listed. -/
theorem sum_report (t : Tally) :
    (t.report.map OperatorSummary.optimized).sum = (Comparator.all.map t.optimized).sum := by
  have hlisted (ops : List Comparator) :
      ((ops.filterMap t.summarize).map OperatorSummary.optimized).sum =
        (ops.map t.optimized).sum := by
    induction ops with
    | nil => rfl
    | cons op ops ih =>
      rw [List.map_cons, List.sum_cons, ← ih, List.filterMap_cons]
      by_cases hop : t.optimized op = 0 <;> simp [summarize, hop]
  have hsorted := ((List.mergeSort_perm (Comparator.all.filterMap t.summarize)
    OperatorSummary.precedes).map OperatorSummary.optimized).sum_eq
  exact hsorted.trans (hlisted Comparator.all)

theorem nodup_names_report (t : Tally) : (t.report.map fun s => s.op.name).Nodup := by
  have h := t.nodup_report.map Comparator.name_injective
  rwa [List.map_map] at h

theorem pairwise_precedes_report (t : Tally) :
    t.report.Pairwise fun a b => a.named.precedes b.named = true :=
  List.pairwise_mergeSort (fun a b c => NamedSummary.precedes_trans a.named b.named c.named)
    (fun a b => NamedSummary.precedes_total a.named b.named) _

/-- The greater counts come first, and equal ones in the order of the names. -/
theorem pairwise_report (t : Tally) : t.report.Pairwise fun a b =>
    b.optimized < a.optimized ∨ a.optimized = b.optimized ∧ a.op.name < b.op.name := by
  have hnames := List.pairwise_map.mp t.nodup_names_report
  refine t.pairwise_precedes_report.imp₂ (fun a b hab hne => ?_) hnames
  obtain hcount | ⟨hcount, hname⟩ := NamedSummary.precedes_iff.mp hab
  · exact .inl hcount
  · exact .inr ⟨hcount, String.not_le.mp fun hba => hne (String.le_antisymm hname hba)⟩

end Tally

/-! ## Counting by name -/

namespace Register

theorem mem_report_iff {r : Register} {s : NamedSummary} : s ∈ r.report ↔
    r.byName[s.name]? = some s.optimized ∧ s.share = Double.quotient s.optimized r.total := by
  unfold report
  rw [(List.mergeSort_perm _ _).mem_iff, List.mem_map]
  constructor
  · rintro ⟨⟨name, n⟩, hfiled, rfl⟩
    exact ⟨Std.TreeMap.mem_toList_iff_getElem?_eq_some.mp hfiled, rfl⟩
  · intro ⟨hfiled, hshare⟩
    exact ⟨(s.name, s.optimized), Std.TreeMap.mem_toList_iff_getElem?_eq_some.mpr hfiled,
      NamedSummary.ext rfl rfl hshare.symm⟩

theorem nodup_report (r : Register) : r.report.Nodup := by
  unfold report
  rw [(List.mergeSort_perm _ _).nodup_iff]
  refine List.Nodup.of_map NamedSummary.name ?_
  rw [List.map_map]
  have hkeys := r.byName.nodup_keys
  rwa [← Std.TreeMap.map_fst_toList_eq_keys] at hkeys

/-- The register has the counts of the tally on file, and nothing else. -/
structure Mirrors (r : Register) (t : Tally) : Prop where
  total : r.total = t.comparisonsOptimized
  filed : ∀ op, r.byName[Comparator.name op]? =
    if t.optimized op = 0 then none else some (t.optimized op)
  named : ∀ name ∈ r.byName, ∃ op, Comparator.name op = name

theorem bump_ne_zero (n : Nat) : bump n ≠ 0 := by
  have hlimit : 0 < countLimit := by decide
  unfold bump
  omega

namespace Mirrors

variable {r : Register} {t : Tally}

theorem empty : Mirrors {} {} := by
  refine ⟨rfl, fun op => ?_, fun name hname => ?_⟩
  · simp
  · simp at hname

theorem getD_filed (h : r.Mirrors t) (op : Comparator) :
    r.byName[op.name]?.getD 0 = t.optimized op := by
  rw [h.filed]
  split
  · rename_i hzero
    exact hzero.symm
  · rfl

/-- Both count an event alike. -/
theorem count (h : r.Mirrors t) (e : Event) : (r.count e).Mirrors (t.count e) := by
  cases e with
  | comparisonOptimized op =>
    refine ⟨congrArg bump h.total, fun c => ?_, fun name hname => ?_⟩
    · simp only [Register.count, Tally.count, Std.TreeMap.getElem?_alter,
        Std.LawfulEqCmp.compare_eq_iff_eq, Comparator.name_injective.eq_iff]
      by_cases hc : op = c
      · subst hc
        simp [h.getD_filed, bump_ne_zero]
      · simp [hc, Ne.symm hc, h.filed]
    · simp only [Register.count, Std.TreeMap.mem_alter, Std.LawfulEqCmp.compare_eq_iff_eq] at hname
      split at hname
      · rename_i hop
        exact ⟨op, hop⟩
      · exact h.named name hname
  | _ => exact ⟨h.total, h.filed, h.named⟩

theorem foldl (h : r.Mirrors t) (events : List Event) :
    (events.foldl Register.count r).Mirrors (events.foldl Tally.count t) := by
  induction events generalizing r t with
  | nil => exact h
  | cons e events ih => exact ih (h.count e)

theorem filed_iff (h : r.Mirrors t) {name : String} {n : Nat} :
    r.byName[name]? = some n ↔ ∃ op, Comparator.name op = name ∧ n = t.optimized op ∧ n ≠ 0 := by
  constructor
  · intro hfiled
    have hmem : name ∈ r.byName := Std.TreeMap.mem_iff_isSome_getElem?.mpr (by rw [hfiled]; rfl)
    obtain ⟨op, rfl⟩ := h.named name hmem
    rw [h.filed] at hfiled
    split at hfiled
    · cases hfiled
    · rename_i hne
      exact ⟨op, rfl, (Option.some.inj hfiled).symm, Option.some.inj hfiled ▸ hne⟩
  · rintro ⟨op, rfl, rfl, hne⟩
    rw [h.filed, if_neg hne]

theorem mem_report_iff (h : r.Mirrors t) {s : NamedSummary} :
    s ∈ r.report ↔ s ∈ t.report.map OperatorSummary.named := by
  rw [Register.mem_report_iff, h.filed_iff, h.total, List.mem_map]
  constructor
  · intro ⟨⟨op, hname, hcount, hne⟩, hshare⟩
    refine ⟨⟨op, s.optimized, s.share⟩, Tally.mem_report_iff.mpr ⟨hcount, hne, hshare⟩, ?_⟩
    rw [OperatorSummary.named, hname]
  · rintro ⟨s, hs, rfl⟩
    obtain ⟨hcount, hne, hshare⟩ := Tally.mem_report_iff.mp hs
    exact ⟨⟨s.op, rfl, hcount, hne⟩, hshare⟩

/-- The reports of both say the same in the same order. -/
theorem report_eq (h : r.Mirrors t) : r.report = t.report.map OperatorSummary.named := by
  refine List.Perm.eq_of_pairwise (fun a b ha hb hab hba => ?_)
    (List.pairwise_mergeSort NamedSummary.precedes_trans NamedSummary.precedes_total _)
    (List.pairwise_map.mpr t.pairwise_precedes_report) ?_
  · obtain ⟨hname, hcount⟩ := NamedSummary.precedes_antisymm hab hba
    obtain ⟨-, hshare⟩ := Register.mem_report_iff.mp ha
    obtain ⟨-, hshare'⟩ := Register.mem_report_iff.mp (h.mem_report_iff.mpr hb)
    exact NamedSummary.ext hname hcount (by rw [hshare, hshare', hcount])
  · have hnodup : (t.report.map OperatorSummary.named).Nodup := by
      refine List.Nodup.of_map NamedSummary.name ?_
      rw [List.map_map]
      exact t.nodup_names_report
    exact (List.perm_ext_iff_of_nodup r.nodup_report hnodup).mpr fun s => h.mem_report_iff

end Mirrors
end Register

/-! ## Reports of some events -/

/-- Every optimized comparison counts under one comparator. -/
theorem Event.sum_count (events : List Event) :
    (Comparator.all.map fun op => events.count (comparisonOptimized op)).sum =
      events.countP isOptimization := by
  induction events with
  | nil => rfl
  | cons e events ih =>
    have hone : (Comparator.all.map fun op => if e == comparisonOptimized op then 1 else 0).sum =
        if e.isOptimization then 1 else 0 := by
      cases e with
      | comparisonOptimized op => cases op <;> rfl
      | _ => rfl
    simp only [List.count_cons, List.countP_cons, List.sum_map_add, ih, hone]

namespace Tally

/-- The tally and its report are those of some events: what was counted under the comparators adds up
to the total, and the report lists every comparator that was counted, once, with its count and its
share, the greater counts first and equal ones by name, however the counts are kept. -/
structure Balances (t : Tally) (events : List Event) : Prop where
  total : t.comparisonsOptimized = events.countP Event.isOptimization
  sum : (Comparator.all.map t.optimized).sum = t.comparisonsOptimized
  sum_listed : (t.report.map OperatorSummary.optimized).sum = t.comparisonsOptimized
  listed : ∀ s, s ∈ t.report ↔ .comparisonOptimized s.op ∈ events ∧
    s.optimized = events.count (.comparisonOptimized s.op) ∧
    s.share = Double.quotient s.optimized (events.countP Event.isOptimization)
  once : (t.report.map OperatorSummary.op).Nodup
  positive : ∀ s ∈ t.report, 0 < s.optimized
  sorted : t.report.Pairwise fun a b =>
    b.optimized < a.optimized ∨ a.optimized = b.optimized ∧ a.op.name < b.op.name
  filed : (events.foldl Register.count {}).report = t.report.map OperatorSummary.named

theorem balances_foldl {events : List Event} (h : events.length < UInt64.size) :
    (events.foldl count {}).Balances events := by
  have hcounts := counts_foldl events
  have htotal : (events.foldl count {}).comparisonsOptimized =
      events.countP Event.isOptimization :=
    hcounts.total (List.countP_le_length.trans_lt h)
  have heach (op : Comparator) : (events.foldl count {}).optimized op =
      events.count (.comparisonOptimized op) :=
    hcounts.each (.comparisonOptimized op) (List.count_le_length.trans_lt h)
  have hsum : (Comparator.all.map (events.foldl count {}).optimized).sum =
      (events.foldl count {}).comparisonsOptimized := by
    rw [htotal, funext heach]
    exact Event.sum_count events
  refine ⟨htotal, hsum, (sum_report _).trans hsum, fun s => ?_, nodup_report _, fun s hs => ?_,
    pairwise_report _, (Register.Mirrors.empty.foldl events).report_eq⟩
  · rw [mem_report_iff, heach, htotal, ← List.count_pos_iff]
    constructor
    · intro ⟨hcount, hne, hshare⟩
      exact ⟨by omega, hcount, hshare⟩
    · intro ⟨hpos, hcount, hshare⟩
      exact ⟨hcount, by omega, hshare⟩
  · exact Nat.pos_of_ne_zero (mem_report_iff.mp hs).2.1

end Tally

namespace Program
open Entry

/-- Reports conserve counts. A report that a program takes on its way, like one taken when it has ended,
is a balanced account of the events that were recorded outside all scopes since the last reset, as long
as there are fewer of them than a count can hold. -/
theorem reports_balance (p : Program) :
    let told := (p.history []).output
    let (ended, r) := p.run {}
    ((pending told).length < UInt64.size → r.tally.Balances (pending told)) ∧
    ∀ before later, told = before ++ .reported :: later →
      (pending before).length < UInt64.size →
      ∃ t, ended.output[before.count .reported]? = some t ∧ t.Balances (pending before) := by
  rw [@run_eq p [] {} rfl]
  refine ⟨fun hfew => ?_, fun before later htold hfew => ?_⟩
  · have hbalances := Tally.balances_foldl hfew
    rwa [← foldl_tally] at hbalances
  · rw [htold]
    exact ⟨_, getElem?_reports before later, Tally.balances_foldl hfew⟩

/-- Neither what was counted before a reset nor what went to a sink is reported. -/
theorem reports_balance_reset :
    let optimized (op : Comparator) : Program := .call [.event (.comparisonOptimized op)]
    let p : Program := .andThen (.andThen (optimized .less) .reset)
      (.andThen (.andThen (optimized .less) (.scope 1 (optimized .notEqual)))
        (.andThen (.andThen (optimized .equal) (optimized .less)) .report))
    let events : List Event :=
      [.comparisonOptimized .less, .comparisonOptimized .equal, .comparisonOptimized .less]
    ∃ t, (p.run {}).1.output[0]? = some t ∧ t.Balances events ∧
      (Comparator.all.map t.optimized).sum = 3 ∧ ∃ s ∈ t.report, s.op = .less ∧ s.optimized = 2 := by
  intro optimized p events
  obtain ⟨-, hreports⟩ := p.reports_balance
  let before : List Entry := [.recorded [] (.comparisonOptimized .less), .reset,
    .recorded [] (.comparisonOptimized .less), .recorded [1] (.comparisonOptimized .notEqual),
    .recorded [] (.comparisonOptimized .equal), .recorded [] (.comparisonOptimized .less)]
  have hhistory : (p.history []).output = before ++ .reported :: [] := rfl
  have hpending : pending before = events := by decide
  obtain ⟨t, ht, hbalances⟩ := hreports before [] hhistory (by decide)
  rw [hpending] at hbalances
  have hsum : (Comparator.all.map t.optimized).sum = 3 := hbalances.sum.trans hbalances.total
  let s : OperatorSummary := ⟨.less, events.count (.comparisonOptimized .less),
    Double.quotient (events.count (.comparisonOptimized .less))
      (events.countP Event.isOptimization)⟩
  have hcounted : .comparisonOptimized s.op ∈ events := by decide
  have hless : s ∈ t.report := (hbalances.listed s).mpr ⟨hcounted, rfl, rfl⟩
  exact ⟨t, ht, hbalances, hsum, s, hless, rfl, rfl⟩

end Program
end QueryPredicates
