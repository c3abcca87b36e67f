import QueryPredicates.Proofs.Telemetry.Counting
import QueryPredicates.Telemetry.Program
import Mathlib.Data.List.DropRight

/-! Where events go. The history of a program tells of every event inside which scopes it was recorded,
as the text of the program has it, without a recorder. A recorder that runs the program hands every event
to the sink of the innermost of these scopes and counts it if there is none; and whatever the program
does, it leaves active what it found active. -/

namespace QueryPredicates

/-- Something that a history tells of; scopes are listed from the inside out. -/
inductive Entry where
  | recorded (scopes : List SinkId) (e : Event)
  | reported
  | reset
  deriving DecidableEq

namespace Program

/-- What the program does inside some scopes, listed from the inside out. -/
def history (scopes : List SinkId) : Program → Ending Entry
  | skip => ⟨false, []⟩
  | call notes => ⟨false, (notes.filterMap Note.event?).map (.recorded scopes)⟩
  | report => ⟨false, [.reported]⟩
  | reset => ⟨false, [.reset]⟩
  | panic => ⟨true, []⟩
  | andThen first second =>
    let ended := first.history scopes
    if ended.panicked then ended
    else
      let later := second.history scopes
      ⟨later.panicked, ended.output ++ later.output⟩
  | scope sink body => body.history (sink :: scopes)
  | catching body => ⟨false, (body.history scopes).output⟩

end Program

/-! ## What a history comes to -/

namespace Entry

/-- The event and its sink, if it was recorded inside a scope. -/
def delivered? : Entry → Option (SinkId × Event)
  | recorded (sink :: _) e => some (sink, e)
  | _ => none

/-- The event, if it was recorded outside all scopes. -/
def counted? : Entry → Option Event
  | recorded [] e => some e
  | _ => none

/-- The events recorded outside all scopes since the last reset. -/
def pending (entries : List Entry) : List Event :=
  (entries.rtakeWhile (· != reset)).filterMap counted?

/-- What an entry does to a tally. -/
def tally (t : Tally) : Entry → Tally
  | recorded [] e => t.count e
  | recorded (_ :: _) _ | reported => t
  | reset => {}

/-- The tallies that are reported, from a tally on. -/
def reports : Tally → List Entry → List Tally
  | _, [] => []
  | t, reported :: entries => t :: reports t entries
  | t, entry :: entries => reports (entry.tally t) entries

theorem reports_cons (t : Tally) (entry : Entry) (entries : List Entry) :
    reports t (entry :: entries) =
      (if entry = reported then [t] else []) ++ reports (entry.tally t) entries := by
  cases entry <;> rfl

theorem reports_append (t : Tally) (entries later : List Entry) :
    reports t (entries ++ later) = reports t entries ++ reports (entries.foldl tally t) later := by
  induction entries generalizing t with
  | nil => rfl
  | cons entry entries ih =>
    rw [List.cons_append, reports_cons, reports_cons, ih, List.append_assoc, List.foldl_cons]

theorem reports_recorded (t : Tally) (scopes : List SinkId) (events : List Event) :
    reports t (events.map (recorded scopes)) = [] := by
  induction events generalizing t with
  | nil => rfl
  | cons e events ih => exact ih _

theorem length_reports (t : Tally) (entries : List Entry) :
    (reports t entries).length = entries.count reported := by
  induction entries generalizing t with
  | nil => rfl
  | cons entry entries ih =>
    rw [reports_cons, List.length_append, ih, List.count_cons]
    by_cases h : entry = reported
    · simp [h, Nat.add_comm]
    · simp [h]

theorem pending_reset (entries : List Entry) : pending (entries ++ [reset]) = [] := by
  simp [pending]

theorem pending_concat (entries : List Entry) {last : Entry} (h : last ≠ reset) :
    pending (entries ++ [last]) = pending entries ++ last.counted?.toList := by
  have hlast : (last != reset) = true := bne_iff_ne.mpr h
  unfold pending
  rw [List.rtakeWhile_concat, if_pos hlast, List.filterMap_append, List.filterMap_cons]
  cases last.counted? <;> rfl

/-- A fresh tally has counted the events that are pending. -/
theorem foldl_tally (entries : List Entry) :
    entries.foldl tally {} = (pending entries).foldl Tally.count {} := by
  induction entries using List.reverseRecOn with
  | nil => rfl
  | append_singleton entries last ih =>
    rw [List.foldl_append, ih]
    cases last with
    | recorded scopes e =>
      have hlast : recorded scopes e ≠ reset := nofun
      rw [pending_concat entries hlast, List.foldl_append]
      cases scopes <;> rfl
    | reported =>
      have hlast : reported ≠ reset := nofun
      rw [pending_concat entries hlast, List.foldl_append]
      rfl
    | reset =>
      rw [pending_reset]
      rfl

/-- A report on the way shows what has been counted until then. -/
theorem getElem?_reports (before later : List Entry) :
    (reports {} (before ++ reported :: later))[before.count reported]? =
      some ((pending before).foldl Tally.count {}) := by
  rw [reports_append, ← length_reports {} before, List.getElem?_append_right (Nat.le_refl _),
    Nat.sub_self, foldl_tally]
  rfl

theorem reports_counts (before later : List Entry) :
    ∃ t, (reports {} (before ++ reported :: later))[before.count reported]? = some t ∧
      t.Counts (pending before) :=
  ⟨_, getElem?_reports before later, Tally.counts_foldl _⟩

end Entry

namespace Recorder
open Entry

/-- The recorder once a history has happened to it. -/
def after (r : Recorder) (entries : List Entry) : Recorder where
  tally := entries.foldl Entry.tally r.tally
  active := r.active
  received := r.received ++ entries.filterMap delivered?

theorem after_nil (r : Recorder) : r.after [] = r := by
  rw [after, List.filterMap_nil, List.append_nil]
  rfl

theorem after_append (r : Recorder) (entries later : List Entry) :
    (r.after entries).after later = r.after (entries ++ later) := by
  simp only [after, List.foldl_append, List.filterMap_append, List.append_assoc]

/-- An event goes to the innermost scope, and is counted if there is none. -/
theorem record_eq {r : Recorder} {scopes : List SinkId} (h : r.active = scopes.head?) (e : Event) :
    r.record e = r.after [.recorded scopes e] := by
  obtain ⟨tally, active, received⟩ := r
  obtain rfl : active = scopes.head? := h
  cases scopes with
  | nil =>
    show Recorder.mk (tally.count e) none received = ⟨tally.count e, none, received ++ []⟩
    rw [List.append_nil]
  | cons sink scopes => rfl

theorem recordAll_eq {r : Recorder} {scopes : List SinkId} (h : r.active = scopes.head?)
    (notes : List Note) :
    r.recordAll notes = r.after ((notes.filterMap Note.event?).map (.recorded scopes)) := by
  unfold recordAll
  generalize notes.filterMap Note.event? = events
  induction events generalizing r with
  | nil => exact r.after_nil.symm
  | cons e events ih =>
    have h' : (r.after [.recorded scopes e]).active = scopes.head? := h
    rw [List.foldl_cons, record_eq h, ih h', after_append]
    rfl

end Recorder

namespace Program
open Entry

/-- A run does to its recorder what the history tells, and reports accordingly. -/
theorem run_eq (p : Program) {scopes : List SinkId} {r : Recorder} (h : r.active = scopes.head?) :
    p.run r = (⟨(p.history scopes).panicked, reports r.tally (p.history scopes).output⟩,
      r.after (p.history scopes).output) := by
  induction p generalizing scopes r with
  | skip => rw [run, history, r.after_nil]; rfl
  | call notes => rw [run, history, Recorder.recordAll_eq h, reports_recorded]
  | report =>
    have hafter : r.after [.reported] = r := r.after_nil
    rw [run, history, hafter]
    rfl
  | reset =>
    have hafter : r.after [.reset] = r.reset := r.reset.after_nil
    rw [run, history, hafter]
    rfl
  | panic => rw [run, history, r.after_nil]; rfl
  | andThen first second ihfirst ihsecond =>
    rw [run, history, ihfirst h]
    cases hp : (first.history scopes).panicked with
    | true => simp [hp]
    | false =>
      have h' : (r.after (first.history scopes).output).active = scopes.head? := h
      simp only [Bool.false_eq_true, if_false, ihsecond h', Recorder.after_append,
        reports_append]
      rfl
  | scope sink body ih =>
    have hinside : ({ r with active := some sink } : Recorder).active = (sink :: scopes).head? := rfl
    rw [run, Recorder.within, ih hinside]
    rfl
  | catching body ih => rw [run, ih h]; rfl

/-- Whatever a program does, its panics included, it leaves active what it found active. -/
theorem active_run (p : Program) (r : Recorder) : (p.run r).2.active = r.active := by
  have h : r.active = r.active.toList.head? := by cases r.active <;> rfl
  rw [p.run_eq h]
  rfl

/-- Scopes route every event once. A program leaves active what it found active, however it ends. On
a fresh recorder, what was recorded inside scopes has been received by the innermost sink, in order,
and nothing else has; and the counts, at the end and in every report, are those of the events that
were recorded outside all scopes since the last reset. -/
theorem run_routes (p : Program) :
    (∀ r : Recorder, (p.run r).2.active = r.active) ∧
    let told := p.history []
    let (ended, r) := p.run {}
    ended.panicked = told.panicked ∧
    r.received = told.output.filterMap delivered? ∧
    r.tally.Counts (pending told.output) ∧
    ended.output.length = told.output.count .reported ∧
    ∀ before later, told.output = before ++ .reported :: later →
      ∃ t, ended.output[before.count .reported]? = some t ∧ t.Counts (pending before) := by
  refine ⟨p.active_run, ?_⟩
  rw [@run_eq p [] {} rfl]
  refine ⟨rfl, rfl, ?_, length_reports {} _, fun before later htold => ?_⟩
  · have hcounts := Tally.counts_foldl (pending (p.history []).output)
    rwa [← foldl_tally] at hcounts
  · rw [htold]
    exact reports_counts before later

/-- A panic that leaves two scopes is caught outside both, and what follows is counted. -/
theorem run_routes_unwound :
    let event (e : Event) : Program := .call [.event e]
    let inner : Program := .andThen (.scope 2 (.andThen (event .constantFolded) .panic)) .skip
    let p : Program := .andThen (.catching (.scope 1 (.andThen (event .nullPropagated) inner)))
      (.andThen (event .operandsSwapped) .report)
    (p.run {}).2.received = [(1, .nullPropagated), (2, .constantFolded)] ∧
    (p.run {}).2.active = none ∧
    ∃ t, (p.run {}).1.output[0]? = some t ∧ t.operandSwaps = 1 := by
  intro event inner p
  obtain ⟨hactive, -, hreceived, -, -, hreports⟩ := p.run_routes
  refine ⟨hreceived, hactive {}, ?_⟩
  have hhistory : (p.history []).output = [.recorded [1] .nullPropagated,
      .recorded [2, 1] .constantFolded, .recorded [] .operandsSwapped] ++ .reported :: [] := rfl
  obtain ⟨t, ht, hcounts⟩ := hreports _ _ hhistory
  exact ⟨t, ht, hcounts.each .operandsSwapped (by decide)⟩

end Program
end QueryPredicates
