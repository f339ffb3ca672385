import Supervision.Proofs.Changes

/-!
# What changes write down

Few marks tell of launches, outcomes or the teardown; the others are ordinary. What a run writes in
the course of its steps is ordinary, and so is all that comes from the subscribers, who publish
nothing but reports about themselves.

Results:
1. `CourseStep.ordinary`, `CallbacksOver.ordinary`, `Effects.AreReports.ordinary`: who writes
   ordinary marks only.
2. `Change.launches`, `Change.outcomes`: which changes tell of a launch, and which of an outcome.
-/

namespace Supervision

namespace Mark

/-- Is a mark about something else than launches, outcomes and the teardown? -/
def isOrdinary : Mark → Bool
  | .launched _ | .sent _ | .stopResolved _ _ | .waitResolved _ => false
  | .published e _ => e.kind != .outcomeObserved && e.kind != .shutdownRequested && !e.isTerminal
  | _ => true

/-- The run that a mark says was launched. -/
def launched? : Mark → Option Nat
  | .launched run => some run
  | _ => none

/-- The event about an observed outcome, with the run that it is published on behalf of. -/
def outcome? : Mark → Option (Event × Option Nat)
  | .published event run => if event.kind = .outcomeObserved then some (event, run) else none
  | _ => none

theorem launched?_of_isOrdinary {m : Mark} (h : m.isOrdinary = true) : m.launched? = none := by
  cases m <;> first | rfl | cases h

theorem outcome?_of_isOrdinary {m : Mark} (h : m.isOrdinary = true) : m.outcome? = none := by
  cases m with
  | published e run =>
      have other : e.kind ≠ .outcomeObserved := by
        simp only [isOrdinary, Bool.and_eq_true, bne_iff_ne] at h
        exact h.1.1
      exact if_neg other
  | _ => rfl

end Mark

/-- All of the marks are ordinary. -/
def Ordinary (marks : List Mark) : Prop := ∀ m ∈ marks, m.isOrdinary = true

namespace Ordinary

theorem nil : Ordinary [] := fun _ member => absurd member List.not_mem_nil

theorem filterMap {α : Type} {f : Mark → Option α} {marks : List Mark} (h : Ordinary marks)
    (none : ∀ m, m.isOrdinary = true → f m = none) : marks.filterMap f = [] :=
  List.filterMap_eq_nil_iff.mpr fun m member => none m (h m member)

theorem launched {marks : List Mark} (h : Ordinary marks) :
    marks.filterMap Mark.launched? = [] := h.filterMap fun _ => Mark.launched?_of_isOrdinary

theorem outcomes {marks : List Mark} (h : Ordinary marks) :
    marks.filterMap Mark.outcome? = [] := h.filterMap fun _ => Mark.outcome?_of_isOrdinary

theorem remark {m : Mark} (h : m.isRemark = true) : Ordinary [m] := by
  intro m' member
  rw [List.mem_singleton.mp member]
  cases m <;> first | rfl | cases h

theorem panicMarks (id : String) (scope : Scope) (panic : Option Payload) :
    Ordinary (Supervisor.panicMarks id scope panic) := by
  cases panic <;> simp [Ordinary, Supervisor.panicMarks, Mark.isOrdinary]

theorem notice (n : Notice) : Ordinary n.marks := by
  unfold Notice.marks Notice.record Notice.event
  split <;> simp [Ordinary, Mark.isOrdinary, Event.ofKind, Event.withTask, Event.withReason,
    Event.isTerminal]

end Ordinary

/-! ## Subscribers -/

namespace Event

/-- Is the event a report about trouble with a subscriber? -/
def isReport (e : Event) : Bool := e.kind == .subscriberOverflow || e.kind == .subscriberPanicked

@[simp] theorem isReport_ofKind (kind : EventKind) :
    (ofKind kind).isReport = (kind == .subscriberOverflow || kind == .subscriberPanicked) := rfl

@[simp] theorem isReport_withTask (e : Event) (text : String) :
    (e.withTask text).isReport = e.isReport := rfl

@[simp] theorem isReport_withError (e : Event) (text : String) :
    (e.withError text).isReport = e.isReport := rfl

@[simp] theorem isReport_withReason (e : Event) (text : String) :
    (e.withReason text).isReport = e.isReport := rfl

end Event

/-- The events are reports of subscribers about themselves. -/
def Effects.AreReports (effects : Effects) : Prop :=
  ∀ e ∈ effects.events, e.kind = .subscriberOverflow ∨ e.kind = .subscriberPanicked

namespace Effects.AreReports

theorem of_nil {effects : Effects} (h : effects.events = []) : effects.AreReports := by
  intro e member
  rw [h] at member
  cases member

theorem append {a b : Effects} (ha : a.AreReports) (hb : b.AreReports) : (a ++ b).AreReports := by
  intro e member
  rcases List.mem_append.mp member with there | there
  · exact ha e there
  · exact hb e there

theorem offer (m : Mailbox) (e : Event) : (m.offer e).2.AreReports := by
  unfold Mailbox.offer
  split
  · next refusal _ =>
      intro e' member
      dsimp only [Refusal.effects] at member
      split at member
      · cases member
      · rw [List.mem_singleton.mp member]
        exact .inl rfl
  · exact of_nil rfl

theorem offerAll (mailboxes : List Mailbox) (e : Event) :
    (Supervision.offerAll mailboxes e).2.AreReports := by
  induction mailboxes with
  | nil => exact of_nil rfl
  | cons m rest ih => exact (offer m e).append ih

theorem panicEffects (m : Mailbox) (payload : Payload) (e : Event) :
    (m.panicEffects payload e).AreReports := by
  intro e' member
  dsimp only [Mailbox.panicEffects] at member
  split at member
  · cases member
  · rw [List.mem_singleton.mp member]
    exact .inr rfl

theorem handle (m : Mailbox) (e : Event) : (m.handle e).2.AreReports := by
  unfold Mailbox.handle
  dsimp only
  split
  case h_3 payload _ => exact panicEffects m payload e
  all_goals exact of_nil rfl

theorem take {m m' : Mailbox} {effects : Effects} (h : m.take = some (m', effects)) :
    effects.AreReports := by
  unfold Mailbox.take at h
  split at h
  · next e rest _ _ =>
      have handled : ({ m with queue := rest } : Mailbox).handle e = (m', effects) :=
        Option.some.inj h
      have reports := handle { m with queue := rest } e
      rwa [handled] at reports
  · cases h

theorem release {m m' : Mailbox} {effects : Effects} (h : m.release = some (m', effects)) :
    effects.AreReports := by
  unfold Mailbox.release at h
  split at h
  · next e panic _ =>
      cases h
      cases panic with
      | none => exact of_nil rfl
      | some payload => exact panicEffects m payload e
  · cases h

theorem ordinary {effects : Effects} (h : effects.AreReports) : Ordinary effects.marks := by
  intro m member
  rcases List.mem_append.mp member with there | there
  · obtain ⟨r, -, rfl⟩ := List.mem_map.mp there
    rfl
  · obtain ⟨e, known, rfl⟩ := List.mem_map.mp there
    rcases h e known with kind | kind <;> simp [Mark.isOrdinary, Event.isTerminal, kind]

end Effects.AreReports

namespace Supervisor

variable {s t : Supervisor}

/-! ## Runs -/

theorem CourseStep.ordinary {number : Nat} {r : Run} {marks : List Mark} {phase : Phase}
    (h : s.CourseStep number r marks phase) : Ordinary marks := by
  cases h
  case leave panic _ _ => exact .panicMarks r.task.id .own panic
  case report fault _ =>
    cases fault <;> simp [Ordinary, Mark.isOrdinary, endEvent, Event.ofKind, Event.withTask,
      Event.withError, Event.isTerminal]
  all_goals simp [Ordinary, Mark.isOrdinary, Event.ofKind, Event.withTask, Event.isTerminal]

theorem CallbacksOver.ordinary {number : Nat} {r : Run} {marks : List Mark}
    {fault : Option Fault} (h : s.CallbacksOver number r marks fault) : Ordinary marks := by
  cases h with
  | pass => exact .nil
  | leave panic => exact .panicMarks r.task.id .global panic

/-! ## Changes -/

theorem Change.journal_eq {marks : List Mark} (h : Change s marks t) : t.journal = s.journal := by
  cases h <;> rfl

theorem Change.setup_eq {marks : List Mark} (h : Change s marks t) : t.setup = s.setup := by
  cases h <;> rfl

theorem Attained.setup_eq {setup : Setup} (h : Attained setup s) : s.setup = setup :=
  h.invariant (P := fun s => s.setup = setup) rfl fun _ inv change => change.setup_eq.trans inv

/-- What is written down stays. -/
theorem Chain.journal (h : Chain s t) : s.journal <+: t.journal := by
  induction h with
  | refl => exact List.prefix_rfl
  | tail _ advances ih =>
      obtain ⟨marks, u, change, rfl⟩ := advances
      refine ih.trans ?_
      rw [← change.journal_eq]
      exact List.prefix_append _ _

theorem Chain.published (h : Chain s t) : s.published <+: t.published :=
  h.journal.filterMap _

/-- A change launches a run, which only a started supervisor does, or it keeps the number of runs
and does not tell of a launch. -/
theorem Change.launches {marks : List Mark} (h : Change s marks t) :
    (t.runs.length = s.runs.length ∧ marks.filterMap Mark.launched? = []) ∨
    ∃ task origin, s.stage = .started ∧ (∀ number, origin = some number → s.Grounds number task) ∧
      t = s.withRun task origin ∧ marks = s.launchMarks task := by
  cases h
  case launch task origin started grounds =>
    exact .inr ⟨task, origin, started, grounds, rfl, rfl⟩
  case remark m remark => exact .inl ⟨rfl, (Ordinary.remark remark).launched⟩
  case post n _ _ => exact .inl ⟨rfl, (Ordinary.notice n).launched⟩
  case course step => exact .inl ⟨length_runs_modifyRun _ _ _, step.ordinary.launched⟩
  case lineUp ended => exact .inl ⟨length_runs_modifyRun _ _ _, ended.ordinary.launched⟩
  case release | send | discard | cancelRun => exact .inl ⟨length_runs_modifyRun _ _ _, rfl⟩
  case cancelAll => exact .inl ⟨length_runs_foldl_cancelToken s s.registry.runs, rfl⟩
  case hear => exact .inl ⟨rfl, (Effects.AreReports.offerAll _ _).ordinary.launched⟩
  case serve taken => exact .inl ⟨rfl, (Effects.AreReports.take taken).ordinary.launched⟩
  case letGo released => exact .inl ⟨rfl, (Effects.AreReports.release released).ordinary.launched⟩
  all_goals exact .inl ⟨rfl, rfl⟩

/-- Only the coordinating loop tells of an outcome, of the first one in the queue. -/
theorem Change.outcomes {marks : List Mark} (h : Change s marks t) :
    marks.filterMap Mark.outcome? = [] ∨
    ∃ number rest r, s.loop = .running ∧ s.queue = number :: rest ∧ s.run? number = some r ∧
      t = { s with queue := rest } ∧ marks.filterMap Mark.outcome? =
        [(outcomeEvent r.task.id r.phase.fault?.join, some number)] := by
  cases h
  case observe number rest r running queue found =>
    refine .inr ⟨number, rest, r, running, queue, found, rfl, ?_⟩
    cases r.phase.fault?.join <;> rfl
  case launch task origin _ _ =>
    refine .inl ?_
    unfold launchMarks
    dsimp only
    split <;> rfl
  case remark m remark => exact .inl (Ordinary.remark remark).outcomes
  case post n _ _ => exact .inl (Ordinary.notice n).outcomes
  case course step => exact .inl step.ordinary.outcomes
  case lineUp ended => exact .inl ended.ordinary.outcomes
  case hear => exact .inl (Effects.AreReports.offerAll _ _).ordinary.outcomes
  case serve taken => exact .inl (Effects.AreReports.take taken).ordinary.outcomes
  case letGo released => exact .inl (Effects.AreReports.release released).ordinary.outcomes
  all_goals exact .inl rfl

end Supervisor

end Supervision
