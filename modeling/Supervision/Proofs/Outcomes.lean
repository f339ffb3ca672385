import Mathlib.Data.List.Nodup
import Supervision.Proofs.Quiescence
import Supervision.Proofs.Stopping

/-!
# Outcomes are neither lost nor doubled

A run that is through with its callbacks stands in line until the queue has a place for its outcome;
then the outcome is in the queue until the coordinating loop observes it. The loop exits only when
nobody holds a sender any more, and a run holds one until its outcome is in the queue, so no outcome
comes too late for the loop, however the teardown ends.

Results:
1. `Attained.loopInvariant`: when the loop has exited every run has finished.
2. `Change.transit`: what a change does to the line, the queue and the observed outcomes.
3. `Attained.outcomeInvariant`: where the outcome of each run is.
4. `outcomesKept`: what that means for the events about observed outcomes.
-/

namespace Supervision

namespace Phase

/-- Does the outcome of the run wait for a place in the queue? -/
def isInLine : Phase → Bool
  | .inLine _ => true
  | _ => false

/-- Are the callbacks of the run over? -/
def isThrough (p : Phase) : Bool := p.isInLine || p.isFinished

end Phase

namespace Journal

/-- The events about observed outcomes, each with the run that it is about. -/
def outcomes (j : Journal) : List (Event × Option Nat) := j.filterMap (·.mark.outcome?)

/-- The runs whose outcomes the loop has observed, in order. -/
def observed (j : Journal) : List Nat := j.outcomes.filterMap (·.2)

end Journal

namespace Supervisor

variable {s t : Supervisor}

/-! ## When the loop exits -/

/-- Before the loop runs nothing is launched, and when it has exited everything is over. -/
structure LoopInvariant (s : Supervisor) : Prop where
  absent : s.loop = .absent → s.stage = .created
  created : s.stage = .created → s.runs = []
  exited : s.loop = .exited → s.senderOpen = false ∧ s.queue = [] ∧
    ∀ n r, s.run? n = some r → r.phase.isFinished = true

theorem LoopInvariant.create (setup : Setup) : LoopInvariant (create setup) where
  absent _ := rfl
  created _ := rfl
  exited ended := by cases ended

/-- Nobody holds a sender when the supervisor has closed its own and all runs are finished. -/
theorem hasSenders_eq_false_iff : s.hasSenders = false ↔
    s.senderOpen = false ∧ ∀ n r, s.run? n = some r → r.phase.isFinished = true := by
  rw [hasSenders, Bool.or_eq_false_iff, ← all_runs_iff, List.any_eq_not_all_not]
  simp

theorem Change.loop_cases {marks : List Mark} (h : Change s marks t) :
    (t.loop = s.loop ∧ (t.stage = s.stage ∨ s.stage = .started ∧ t.stage = .stopped)) ∨
    (t.loop = .running ∧ t.stage = .started) ∨
    (s.queue = [] ∧ s.hasSenders = false ∧ t = { s with loop := .exited }) := by
  cases h
  case opened => exact .inr (.inl ⟨rfl, rfl⟩)
  case exitLoop queue senders => exact .inr (.inr ⟨queue, senders, rfl⟩)
  case announce started => exact .inl ⟨rfl, .inr ⟨started, rfl⟩⟩
  all_goals exact .inl ⟨rfl, .inl rfl⟩

/-- Nobody touches the queue once the loop has exited. -/
theorem Change.queue_of_exited {marks : List Mark} (h : Change s marks t)
    (exited : s.loop = .exited) : t.queue = s.queue := by
  cases h
  case send read _ => exact absurd exited read
  case observe running _ _ | skip running _ _ =>
    rw [exited] at running
    cases running
  all_goals rfl

theorem Change.loopInvariant {marks : List Mark} (h : Change s marks t) (inv : LoopInvariant s)
    (teardown : TeardownInvariant s) : LoopInvariant t where
  absent absent := by
    rcases h.loop_cases with ⟨loop, same | ⟨started, -⟩⟩ | ⟨running, -⟩ | ⟨-, -, rfl⟩
    · rw [same]
      exact inv.absent (loop ▸ absent)
    · rw [inv.absent (loop ▸ absent)] at started
      cases started
    · rw [running] at absent
      cases absent
    · cases absent
  created created := by
    have before : s.stage = .created := by
      by_contra begun
      exact h.begun begun created
    rcases h.launches with ⟨length, -⟩ | ⟨_, _, started, -⟩
    · rw [inv.created before] at length
      exact List.eq_nil_of_length_eq_zero length
    · rw [before] at started
      cases started
  exited ended := by
    rcases h.loop_cases with ⟨loop, -⟩ | ⟨running, -⟩ | ⟨queue, senders, rfl⟩
    · rw [loop] at ended
      obtain ⟨shut, empty, finished⟩ := inv.exited ended
      refine ⟨h.onward.closed shut, (h.queue_of_exited ended).trans empty, fun n r' found => ?_⟩
      cases through : r'.phase.isFinished with
      | true => rfl
      | false =>
          obtain ⟨r, hr, busy⟩ := h.unfinished (teardown.closed shut).stopped found through
          rw [finished n r hr] at busy
          cases busy
    · rw [running] at ended
      cases ended
    · obtain ⟨shut, finished⟩ := hasSenders_eq_false_iff.mp senders
      exact ⟨shut, queue, finished⟩

theorem Attained.loopInvariant {setup : Setup} (h : Attained setup s) : LoopInvariant s := by
  refine h.invariant (.create setup) fun before inv change => ?_
  have next := change.loopInvariant inv before.teardownInvariant
  exact ⟨next.absent, next.created, next.exited⟩

/-- The loop reads the queue as long as any run has not finished. -/
theorem LoopInvariant.running (inv : LoopInvariant s) {n : Nat} {r : Run}
    (found : s.run? n = some r) (busy : r.phase.isFinished = false) : s.loop = .running := by
  cases loop : s.loop with
  | running => rfl
  | absent =>
      have bounds := run?_bounds found
      rw [inv.created (inv.absent loop)] at bounds
      cases Nat.lt_of_lt_of_le bounds.1 bounds.2
  | exited =>
      rw [(inv.exited loop).2.2 n r found] at busy
      cases busy

/-! ## Where outcomes are -/

/-- Does the run stand in line? -/
def standsInLine (s : Supervisor) (n : Nat) : Bool := (s.run? n).any (·.phase.isInLine)

/-- Has the run handed its outcome over? -/
def isOver (s : Supervisor) (n : Nat) : Bool := (s.run? n).any (·.phase.isFinished)

theorem standsInLine_withPhase {number : Nat} {r : Run} (found : s.run? number = some r)
    (phase : Phase) (n : Nat) : (s.withPhase number phase).standsInLine n =
      if n = number then phase.isInLine else s.standsInLine n := by
  unfold standsInLine
  by_cases here : n = number
  · rw [if_pos here, here, run?_withPhase_self found]
    rfl
  · rw [if_neg here, run?_withPhase_ne here]

theorem isOver_withPhase {number : Nat} {r : Run} (found : s.run? number = some r) (phase : Phase)
    (n : Nat) : (s.withPhase number phase).isOver n =
      if n = number then phase.isFinished else s.isOver n := by
  unfold isOver
  by_cases here : n = number
  · rw [if_pos here, here, run?_withPhase_self found]
    rfl
  · rw [if_neg here, run?_withPhase_ne here]

/-- A run whose outcome leaves the line has handed it over. -/
theorem standsInLine_withDelivery {number : Nat} {r : Run} (found : s.run? number = some r)
    (fault : Option Fault) (n : Nat) : (s.withDelivery number fault).standsInLine n =
      if n = number then false else s.standsInLine n :=
  standsInLine_withPhase (s := { s with line := s.line.erase number }) found _ n

theorem isOver_withDelivery {number : Nat} {r : Run} (found : s.run? number = some r)
    (fault : Option Fault) (n : Nat) : (s.withDelivery number fault).isOver n =
      if n = number then true else s.isOver n :=
  isOver_withPhase (s := { s with line := s.line.erase number }) found _ n

theorem not_isOver_of_standsInLine {n : Nat} (h : s.standsInLine n = true) :
    s.isOver n = false := by
  unfold standsInLine at h
  unfold isOver
  cases found : s.run? n with
  | none => rfl
  | some r =>
      rw [found] at h
      cases phase : r.phase <;> simp_all [Phase.isInLine, Phase.isFinished]

/-- The loop has not exited while somebody stands in line. -/
theorem LoopInvariant.not_exited (inv : LoopInvariant s) {n : Nat}
    (present : s.standsInLine n = true) : s.loop ≠ .exited := by
  intro exited
  have busy := not_isOver_of_standsInLine present
  obtain ⟨r, found, -⟩ := (Option.any_eq_true _ _).mp present
  rw [isOver, found, Option.any_some, (inv.exited exited).2.2 n r found] at busy
  cases busy

/-- What a change does to the line, the queue and the observed outcomes. -/
inductive Transit (s : Supervisor) (marks : List Mark) (t : Supervisor) : Prop
  | stay (line : t.line = s.line) (queue : t.queue = s.queue)
      (waiting : ∀ m, t.standsInLine m = s.standsInLine m) (ended : ∀ m, t.isOver m = s.isOver m)
      (silent : marks.filterMap Mark.outcome? = [])
  | lineUp (n : Nat) (absent : s.standsInLine n = false) (busy : s.isOver n = false)
      (line : t.line = s.line ++ [n]) (queue : t.queue = s.queue)
      (waiting : ∀ m, t.standsInLine m = if m = n then true else s.standsInLine m)
      (ended : ∀ m, t.isOver m = s.isOver m) (silent : marks.filterMap Mark.outcome? = [])
  | deliver (n : Nat) (present : s.standsInLine n = true) (line : t.line = s.line.erase n)
      (queue : t.queue = s.queue ++ [n] ∨ s.loop = .exited)
      (waiting : ∀ m, t.standsInLine m = if m = n then false else s.standsInLine m)
      (ended : ∀ m, t.isOver m = if m = n then true else s.isOver m)
      (silent : marks.filterMap Mark.outcome? = [])
  | take (n : Nat) (rest : List Nat) (queue : s.queue = n :: rest)
      (after : t = { s with queue := rest })
      (told : ∀ r, s.run? n = some r → marks.filterMap Mark.outcome? =
        [(outcomeEvent r.task.id r.phase.fault?.join, some n)])

/-- A run that is neither through with its callbacks before nor after a step stays away from the
line. -/
theorem Transit.withPhase {u : Supervisor} {marks : List Mark} {number : Nat} {r : Run}
    {phase : Phase} (line : u.line = s.line) (queue : u.queue = s.queue) (runs : u.runs = s.runs)
    (found : s.run? number = some r)
    (before : r.phase.isInLine = false ∧ r.phase.isFinished = false)
    (after : phase.isInLine = false ∧ phase.isFinished = false)
    (silent : marks.filterMap Mark.outcome? = []) :
    Transit s marks (u.withPhase number phase) := by
  have same := run?_congr runs
  have there : u.run? number = some r := (same number).trans found
  refine .stay line queue ?_ ?_ silent
  · intro m
    rw [standsInLine_withPhase there, standsInLine, standsInLine, same]
    split
    · next here => rw [here, found, Option.any_some, after.1, before.1]
    · rfl
  · intro m
    rw [isOver_withPhase there, isOver, isOver, same]
    split
    · next here => rw [here, found, Option.any_some, after.2, before.2]
    · rfl

/-- What changes no phase and adds none but launched runs moves nobody. -/
theorem Transit.of_phases {marks : List Mark} (line : t.line = s.line)
    (queue : t.queue = s.queue)
    (run : ∀ n r, s.run? n = some r → ∃ r', t.run? n = some r' ∧ r'.phase = r.phase)
    (fresh : ∀ n r', s.run? n = none → t.run? n = some r' → r'.phase = .launched)
    (silent : marks.filterMap Mark.outcome? = []) : Transit s marks t := by
  have same : ∀ m, (∀ f : Phase → Bool, f .launched = false →
      (t.run? m).any (fun r => f r.phase) = (s.run? m).any (fun r => f r.phase)) := by
    intro m f idle
    cases known : s.run? m with
    | some r =>
        obtain ⟨r', hr', phase⟩ := run m r known
        rw [hr', Option.any_some, Option.any_some, phase]
    | none => cases there : t.run? m with
      | none => rfl
      | some r' => rw [Option.any_some, fresh m r' known there, idle, Option.any_none]
  exact .stay line queue (fun m => same m Phase.isInLine rfl) (fun m => same m Phase.isFinished rfl)
    silent

theorem CourseStep.away {number : Nat} {r : Run} {marks : List Mark} {phase : Phase}
    (h : s.CourseStep number r marks phase) :
    (r.phase.isInLine = false ∧ r.phase.isFinished = false) ∧
    (phase.isInLine = false ∧ phase.isFinished = false) := by
  cases h <;> simp_all [Phase.isInLine, Phase.isFinished]

theorem Change.transit {marks : List Mark} (h : Change s marks t) : Transit s marks t := by
  rcases h.outcomes with silent | ⟨n, rest, r, -, queue, found, after, told⟩
  swap
  · refine .take n rest queue after fun q hq => ?_
    obtain rfl : r = q := Option.some.inj (found.symm.trans hq)
    exact told
  have fresh : ∀ n r', s.run? n = none → t.run? n = some r' → r'.phase = .launched := by
    intro n r' missing found
    rcases h.run?_cases found with ⟨r, hr, -⟩ | ⟨_, _, -, rfl, -⟩
    · rw [missing] at hr
      cases hr
    · rfl
  have unmoved : t.line = s.line → t.queue = s.queue →
      (∀ n r, s.run? n = some r → ∃ r', t.run? n = some r' ∧ r'.phase = r.phase) →
      Transit s marks t := fun line queue run => .of_phases line queue run fresh silent
  cases h
  case launch task origin _ _ =>
    refine unmoved rfl rfl fun n r found => ?_
    exact ⟨_, run?_withRun_of_run? found task origin, by split <;> rfl⟩
  case cancelRun number _ _ _ =>
    refine unmoved rfl rfl fun n r found => ?_
    exact ⟨_, run?_cancelToken found number, by split <;> rfl⟩
  case cancelAll =>
    refine unmoved rfl rfl fun n r found => ?_
    exact ⟨_, run?_foldl_cancelToken found s.registry.runs, by split <;> rfl⟩
  case course number r phase found step =>
    exact .withPhase rfl rfl rfl found step.away.1 step.away.2 silent
  case release number r fault found phase =>
    exact .withPhase rfl rfl rfl found (by rw [phase]; exact ⟨rfl, rfl⟩) ⟨rfl, rfl⟩ silent
  case lineUp number r fault found ended =>
    have before : r.phase.isInLine = false ∧ r.phase.isFinished = false := by
      rcases ended.phase with phase | phase <;> rw [phase] <;> exact ⟨rfl, rfl⟩
    refine .lineUp number ?_ ?_ rfl rfl ?_ ?_ silent
    · rw [standsInLine, found, Option.any_some, before.1]
    · rw [isOver, found, Option.any_some, before.2]
    · intro m
      exact standsInLine_withPhase (s := { s with line := s.line ++ [number] }) found _ m
    · intro m
      refine (isOver_withPhase (s := { s with line := s.line ++ [number] }) found _ m).trans ?_
      split
      · next here => rw [isOver, here, found, Option.any_some, before.2]; rfl
      · rfl
  case send number r fault found phase read place =>
    refine .deliver number ?_ rfl (.inl rfl) (standsInLine_withDelivery found fault)
      (isOver_withDelivery found fault) silent
    rw [standsInLine, found, Option.any_some, phase]
    rfl
  case discard number r fault found phase unread =>
    refine .deliver number ?_ rfl (.inr unread) (standsInLine_withDelivery found fault)
      (isOver_withDelivery found fault) silent
    rw [standsInLine, found, Option.any_some, phase]
    rfl
  case observe number rest r _ queue found =>
    refine .take number rest queue rfl fun q hq => ?_
    obtain rfl : r = q := Option.some.inj (found.symm.trans hq)
    cases r.phase.fault?.join <;> rfl
  case skip number rest _ queue missing =>
    refine .take number rest queue rfl fun q hq => ?_
    rw [missing] at hq
    cases hq
  all_goals exact unmoved rfl rfl fun n r found => ⟨r, found, rfl⟩

/-! ## The invariant -/

/-- The event about the outcome of a run. -/
def outcomeOf (s : Supervisor) (n : Nat) : Event :=
  match s.run? n with
  | some r => outcomeEvent r.task.id r.phase.fault?.join
  | none => .ofKind .outcomeObserved

theorem outcomeOf_of_run? {n : Nat} {r : Run} (found : s.run? n = some r) :
    s.outcomeOf n = outcomeEvent r.task.id r.phase.fault?.join := by
  rw [outcomeOf, found]

/-- The runs whose outcomes have left the line, in the order in which they did. -/
def handedOver (s : Supervisor) : List Nat := s.journal.observed ++ s.queue

/-- Where the outcome of each run is. -/
structure OutcomeInvariant (s : Supervisor) : Prop where
  line : ∀ n, n ∈ s.line ↔ s.standsInLine n = true
  line_nodup : s.line.Nodup
  handed : ∀ n, n ∈ s.handedOver ↔ s.isOver n = true
  handed_nodup : s.handedOver.Nodup
  outcomes : s.journal.outcomes = s.journal.observed.map fun n => (s.outcomeOf n, some n)

theorem OutcomeInvariant.create (setup : Setup) : OutcomeInvariant (create setup) where
  line n := by cases n <;> simp [standsInLine, Supervisor.create, run?]
  line_nodup := .nil
  handed n := by
    cases n <;> simp [isOver, handedOver, Supervisor.create, run?, Journal.observed,
      Journal.outcomes]
  handed_nodup := .nil
  outcomes := rfl

theorem outcomes_writeAll (s : Supervisor) (marks : List Mark) :
    (s.writeAll marks).journal.outcomes =
      s.journal.outcomes ++ marks.filterMap Mark.outcome? := by
  simp [writeAll, Journal.outcomes, List.filterMap_map]

theorem observed_writeAll (s : Supervisor) (marks : List Mark) :
    (s.writeAll marks).journal.observed =
      s.journal.observed ++ (marks.filterMap Mark.outcome?).filterMap (·.2) := by
  rw [Journal.observed, outcomes_writeAll, List.filterMap_append]
  rfl

/-- Once a run has handed its outcome over the event about it is settled. -/
theorem Change.outcomeOf_eq {marks : List Mark} (h : Change s marks t) {n : Nat}
    (ended : s.isOver n = true) : t.outcomeOf n = s.outcomeOf n := by
  obtain ⟨r, found, finished⟩ := (Option.any_eq_true _ _).mp ended
  obtain ⟨r', found', evolves⟩ := h.evolves found
  rw [outcomeOf_of_run? found, outcomeOf_of_run? found', evolves.task, evolves.finished finished]

namespace OutcomeInvariant

/-- Whatever is in the queue comes from a run. -/
theorem run?_of_queue (inv : OutcomeInvariant s) {n : Nat} {rest : List Nat}
    (queue : s.queue = n :: rest) : ∃ r, s.run? n = some r := by
  have there : n ∈ s.handedOver := by
    rw [handedOver, queue]
    exact List.mem_append_right _ List.mem_cons_self
  obtain ⟨r, found, -⟩ := (Option.any_eq_true _ _).mp ((inv.handed n).mp there)
  exact ⟨r, found⟩

/-- In line stand those whose phase says so. -/
theorem line_of_transit (inv : OutcomeInvariant s) {marks : List Mark} (h : Transit s marks t) :
    (∀ n, n ∈ t.line ↔ t.standsInLine n = true) ∧ t.line.Nodup := by
  cases h with
  | stay line _ waiting =>
      rw [line]
      refine ⟨fun n => ?_, inv.line_nodup⟩
      rw [waiting, inv.line]
  | lineUp number absent _ line _ waiting =>
      have fresh : number ∉ s.line := by
        rw [inv.line, absent]
        exact Bool.false_ne_true
      rw [line]
      refine ⟨fun n => ?_, ?_⟩
      · rw [waiting, List.mem_append, List.mem_singleton, inv.line]
        by_cases here : n = number <;> simp [here]
      · rw [← List.concat_eq_append]
        exact inv.line_nodup.concat fresh
  | deliver number _ line _ waiting =>
      rw [line]
      refine ⟨fun n => ?_, inv.line_nodup.erase number⟩
      rw [waiting, inv.line_nodup.mem_erase_iff, inv.line]
      by_cases here : n = number <;> simp [here]
  | take number rest _ after =>
      subst after
      exact ⟨inv.line, inv.line_nodup⟩

/-- Those who have left the line stay the same, or one joins them. -/
theorem handedOver_of_transit (inv : OutcomeInvariant s) (loop : LoopInvariant s)
    {marks : List Mark} (h : Transit s marks t) (journal : t.journal = s.journal) :
    ((t.writeAll marks).handedOver = s.handedOver ∧ ∀ m, t.isOver m = s.isOver m) ∨
    ∃ n, s.isOver n = false ∧ (t.writeAll marks).handedOver = s.handedOver ++ [n] ∧
      ∀ m, t.isOver m = if m = n then true else s.isOver m := by
  have queued : (t.writeAll marks).handedOver =
      (s.journal.observed ++ (marks.filterMap Mark.outcome?).filterMap (·.2)) ++ t.queue := by
    rw [handedOver, observed_writeAll, journal]
    rfl
  cases h with
  | stay _ queue _ ended silent =>
      rw [silent, queue, List.filterMap_nil, List.append_nil] at queued
      exact .inl ⟨queued, ended⟩
  | lineUp _ _ _ _ queue _ ended silent =>
      rw [silent, queue, List.filterMap_nil, List.append_nil] at queued
      exact .inl ⟨queued, ended⟩
  | deliver number present _ queue _ ended silent =>
      have joined : t.queue = s.queue ++ [number] := by
        rcases queue with joined | exited
        · exact joined
        · exact absurd exited (loop.not_exited present)
      rw [silent, joined, List.filterMap_nil, List.append_nil, ← List.append_assoc] at queued
      exact .inr ⟨number, not_isOver_of_standsInLine present, queued, ended⟩
  | take number rest queue after told =>
      obtain ⟨r, found⟩ := inv.run?_of_queue queue
      subst after
      rw [told r found] at queued
      refine .inl ⟨?_, fun m => rfl⟩
      rw [queued, handedOver, queue]
      exact List.append_assoc _ [number] rest

/-- Every event about an outcome is settled when it is published. -/
theorem outcomes_of_transit (inv : OutcomeInvariant s) {marks : List Mark}
    (h : Transit s marks t) (journal : t.journal = s.journal)
    (settled : ∀ n, s.isOver n = true → t.outcomeOf n = s.outcomeOf n) :
    (t.writeAll marks).journal.outcomes =
      (t.writeAll marks).journal.observed.map fun n => (t.outcomeOf n, some n) := by
  have before : s.journal.outcomes =
      s.journal.observed.map fun n => (t.outcomeOf n, some n) := by
    rw [inv.outcomes]
    refine List.map_congr_left fun n member => ?_
    rw [settled n ((inv.handed n).mp (List.mem_append_left _ member))]
  rw [outcomes_writeAll, observed_writeAll, journal, List.map_append, ← before]
  cases h with
  | stay _ _ _ _ silent | lineUp _ _ _ _ _ _ _ silent | deliver _ _ _ _ _ _ silent =>
      rw [silent]
      rfl
  | take number rest queue after told =>
      obtain ⟨r, found⟩ := inv.run?_of_queue queue
      have known : t.run? number = some r := (run?_congr (by rw [after]) number).trans found
      rw [told r found, ← outcomeOf_of_run? known]
      rfl

end OutcomeInvariant

theorem Change.outcomeInvariant {marks : List Mark} (h : Change s marks t)
    (inv : OutcomeInvariant s) (loop : LoopInvariant s) : OutcomeInvariant (t.writeAll marks) := by
  obtain ⟨line, nodup⟩ := inv.line_of_transit h.transit
  have outcomes := inv.outcomes_of_transit h.transit h.journal_eq fun n => h.outcomeOf_eq
  rcases inv.handedOver_of_transit loop h.transit h.journal_eq with
    ⟨same, ended⟩ | ⟨number, busy, joined, ended⟩
  · refine ⟨line, nodup, fun n => ?_, ?_, outcomes⟩
    · rw [same, inv.handed, ← ended]
      rfl
    · rw [same]
      exact inv.handed_nodup
  · have fresh : number ∉ s.handedOver := by
      rw [inv.handed, busy]
      exact Bool.false_ne_true
    refine ⟨line, nodup, fun n => ?_, ?_, outcomes⟩
    · rw [joined, List.mem_append, List.mem_singleton, inv.handed]
      change _ ↔ t.isOver n = true
      rw [ended]
      by_cases here : n = number <;> simp [here]
    · rw [joined, ← List.concat_eq_append]
      exact inv.handed_nodup.concat fresh

theorem Attained.outcomeInvariant {setup : Setup} (h : Attained setup s) : OutcomeInvariant s := by
  refine h.invariant (.create setup) fun before inv change => ?_
  exact change.outcomeInvariant inv before.loopInvariant

/-! ## Counting -/

theorem countP_range_getElem? {α : Type} (l : List α) (p : α → Bool) :
    (List.range l.length).countP (fun k => l[k]?.any p) = l.countP p := by
  induction l with
  | nil => rfl
  | cons a rest ih =>
      rw [List.length_cons, List.range_succ_eq_map, List.countP_cons, List.countP_map,
        List.countP_cons, ← ih]
      rfl

/-- Counting the runs is counting their numbers. -/
theorem countP_numbers (s : Supervisor) (p : Run → Bool) :
    (List.range' 1 s.runs.length).countP (fun n => (s.run? n).any p) = s.runs.countP p := by
  rw [List.range'_eq_map_range, List.countP_map,
    ← countP_range_getElem? s.runs p]
  refine List.countP_congr fun k _ => ?_
  rw [Function.comp_apply, Nat.add_comm 1 k]
  rfl

/-- The runs whose outcomes have left the line are those that have finished. -/
theorem OutcomeInvariant.handedOver_perm (inv : OutcomeInvariant s) :
    s.handedOver.Perm ((List.range' 1 s.runs.length).filter s.isOver) := by
  have distinct : ((List.range' 1 s.runs.length).filter s.isOver).Nodup :=
    (List.nodup_range' 1).filter _
  refine (List.perm_ext_iff_of_nodup inv.handed_nodup distinct).mpr fun n => ?_
  rw [inv.handed, List.mem_filter, List.mem_range'_1]
  refine ⟨fun ended => ⟨?_, ended⟩, And.right⟩
  obtain ⟨r, found, -⟩ := (Option.any_eq_true _ _).mp ended
  have bounds := run?_bounds found
  omega

/-- Does the run belong to the id? -/
def belongsTo (s : Supervisor) (id : String) (n : Nat) : Bool := (s.run? n).any (·.task.id == id)

theorem OutcomeInvariant.countP_handedOver (inv : OutcomeInvariant s) (id : String) :
    s.handedOver.countP (s.belongsTo id) =
      s.runs.countP fun r => r.task.id == id && r.phase.isFinished := by
  rw [inv.handedOver_perm.countP_eq, List.countP_filter, ← countP_numbers]
  refine List.countP_congr fun n _ => ?_
  rw [belongsTo, isOver]
  cases s.run? n <;> simp

theorem outcomeEvent_eq (id : String) (fault : Option Fault) :
    outcomeEvent id fault =
      { kind := .outcomeObserved, task := some id, error := fault.map (·.message) } := by
  cases fault <;> rfl

theorem event?_outcome? (m : Mark) :
    m.event?.toList.filter (·.kind == .outcomeObserved) = m.outcome?.toList.map (·.1) := by
  cases m with
  | published e run =>
      by_cases about : e.kind = .outcomeObserved <;> simp [Mark.event?, Mark.outcome?, about]
  | _ => rfl

theorem events_outcomes (j : Journal) :
    j.events.filter (·.kind == .outcomeObserved) = j.outcomes.map (·.1) := by
  rw [Journal.events, Journal.outcomes, List.filterMap_eq_flatMap_toList,
    List.filterMap_eq_flatMap_toList, List.filter_flatMap, List.map_flatMap]
  exact congrArg (List.flatMap · j) (funext fun entry => event?_outcome? entry.mark)

/-- The number of events that tell of an observed outcome of the id. -/
def outcomesOf (s : Supervisor) (id : String) : Nat :=
  s.published.countP fun e => e.kind == .outcomeObserved && e.task == some id

/-- Each event about an outcome is one about the run that it is published on behalf of. -/
theorem OutcomeInvariant.published (inv : OutcomeInvariant s) :
    s.published.filter (·.kind == .outcomeObserved) = s.journal.observed.map s.outcomeOf := by
  rw [Supervisor.published, events_outcomes, inv.outcomes, List.map_map]
  rfl

theorem OutcomeInvariant.outcomesOf_eq (inv : OutcomeInvariant s) (id : String) :
    s.outcomesOf id = s.journal.observed.countP (s.belongsTo id) := by
  have known : s.outcomesOf id =
      (s.published.filter (·.kind == .outcomeObserved)).countP (·.task == some id) := by
    rw [List.countP_filter, outcomesOf]
    exact List.countP_congr fun e _ => by rw [Bool.and_comm]
  rw [known, inv.published, List.countP_map]
  refine List.countP_congr fun n member => ?_
  have ended := (inv.handed n).mp (List.mem_append_left _ member)
  obtain ⟨r, found, -⟩ := (Option.any_eq_true _ _).mp ended
  rw [Function.comp_apply, belongsTo, outcomeOf_of_run? found, outcomeEvent_eq, found]
  simp

/-! ## Outcomes at rest -/

/-- The loop runs as long as there is an outcome in the queue. -/
theorem OutcomeInvariant.running (inv : OutcomeInvariant s) (loop : LoopInvariant s) {n : Nat}
    {rest : List Nat} (queue : s.queue = n :: rest) : s.loop = .running := by
  obtain ⟨r, found⟩ := inv.run?_of_queue queue
  cases running : s.loop with
  | running => rfl
  | absent =>
      have bounds := run?_bounds found
      rw [loop.created (loop.absent running)] at bounds
      cases Nat.lt_of_lt_of_le bounds.1 bounds.2
  | exited =>
      rw [(loop.exited running).2.1] at queue
      cases queue

/-- The loop can take the first outcome out of the queue. -/
theorem OutcomeInvariant.exists_observe (inv : OutcomeInvariant s) (loop : LoopInvariant s)
    {n : Nat} {rest : List Nat} (queue : s.queue = n :: rest) :
    ∃ t, s.observe = some t ∧ t.queue = rest ∧ t.line = s.line := by
  unfold observe
  rw [inv.running loop queue, queue]
  dsimp only
  split <;> exact ⟨_, rfl, rfl, rfl⟩

/-- Whoever stands first in line can send as soon as the queue has a place. -/
theorem OutcomeInvariant.exists_send (inv : OutcomeInvariant s) (loop : LoopInvariant s) {n : Nat}
    {rest : List Nat} (line : s.line = n :: rest)
    (place : s.queue.length < s.setup.settings.outcomePlaces) :
    ∃ t, s.send n = some t ∧ t.queue = s.queue ++ [n] ∧ t.line = rest := by
  have first : s.standsInLine n = true := by
    rw [← inv.line, line]
    exact List.mem_cons_self
  obtain ⟨r, found, waiting⟩ := (Option.any_eq_true _ _).mp first
  cases phase : r.phase with
  | inLine fault =>
      have reads : s.loop ≠ .exited := loop.not_exited first
      have free : s.hasPlace n = true := by simpa [hasPlace, line] using place
      unfold send
      rw [found]
      dsimp only
      rw [phase]
      dsimp only
      rw [if_neg reads, if_pos free, setPhase_eq]
      exact ⟨_, rfl, rfl, by simp [withPhase, mark, line]⟩
  | _ =>
      rw [phase] at waiting
      cases waiting

/-- A quiescent supervisor has all outcomes observed. -/
theorem OutcomeInvariant.rest (inv : OutcomeInvariant s) (loop : LoopInvariant s)
    (quiescent : s.isQuiescent = true) : s.queue = [] ∧ s.line = [] := by
  have still := isQuiescent_iff.mp quiescent
  have queue : s.queue = [] := by
    cases queue : s.queue with
    | nil => rfl
    | cons n rest =>
        obtain ⟨t, observed, -⟩ := inv.exists_observe loop queue
        have idle : s.observe = none := still .observe
        rw [idle] at observed
        cases observed
  refine ⟨queue, ?_⟩
  cases line : s.line with
  | nil => rfl
  | cons n rest =>
      have place : s.queue.length < s.setup.settings.outcomePlaces := by
        rw [queue]
        exact Nat.le_max_right _ _
      obtain ⟨t, sent, -⟩ := inv.exists_send loop line place
      have idle : s.send n = none := still (.send n)
      rw [idle] at sent
      cases sent

/-- Sending an outcome puts it into the queue. -/
theorem LoopInvariant.send (loop : LoopInvariant s) {n : Nat} (h : s.send n = some t) :
    ∃ r fault, s.run? n = some r ∧ r.phase = .inLine fault ∧ s.loop = .running ∧
      t = ({ s.withDelivery n fault with queue := s.queue ++ [n] }).mark (.sent n) := by
  unfold Supervisor.send at h
  split at h
  · next r found =>
      split at h
      · next fault phase =>
          have reads : s.loop = .running := loop.running found (by rw [phase]; rfl)
          dsimp only at h
          rw [if_neg (by rw [reads]; exact Loop.noConfusion)] at h
          split at h
          · cases h
            refine ⟨r, fault, found, phase, reads, ?_⟩
            rw [setPhase_eq]
            rfl
          · cases h
      · cases h
  · cases h

/-- What is true of outcomes in one state. -/
structure OutcomesKept (s : Supervisor) : Prop where
  /-- The loop reads the queue as long as anybody has an outcome to put into it. -/
  reads : ∀ n r, s.run? n = some r → r.phase.isFinished = false → s.loop = .running
  sends : ∀ n t, s.send n = some t → ∃ r fault, s.run? n = some r ∧ r.phase = .inLine fault ∧
    s.loop = .running ∧
    t = ({ s.withDelivery n fault with queue := s.queue ++ [n] }).mark (.sent n)
  /-- A run whose callbacks are over is in one place, and in no place twice. -/
  placed : ∀ n, n ∈ s.line ++ s.queue ++ s.journal.observed ↔
    ∃ r, s.run? n = some r ∧ r.phase.isThrough = true
  once : (s.line ++ s.queue ++ s.journal.observed).Nodup
  /-- The events about outcomes are those of the runs observed, one for each. -/
  events : s.published.filter (·.kind == .outcomeObserved) = s.journal.observed.map s.outcomeOf
  /-- Such an event carries the fault with which the work of the run has once ended. -/
  own : ∀ u, Leads u s → ∀ n r fault, u.run? n = some r → r.phase.fault? = some fault →
    n ∈ s.journal.observed → s.outcomeOf n =
      { kind := .outcomeObserved, task := some r.task.id, error := fault.map (·.message) }
  atMost : ∀ id, s.outcomesOf id ≤ s.runs.countP (·.task.id == id)
  atRest : s.isQuiescent = true → ∀ id,
    s.outcomesOf id = s.runs.countP fun r => r.task.id == id && r.phase.isReturned

/-- In every reachable state no outcome is lost and none is there twice. -/
theorem outcomesKept {setup : Setup} (h : Reachable setup s) : OutcomesKept s := by
  have inv := h.attained.outcomeInvariant
  have loop := h.attained.loopInvariant
  refine ⟨fun n r => loop.running, fun n t => loop.send, ?_, ?_, inv.published, ?_, ?_, ?_⟩
  · intro n
    have either : n ∈ s.line ++ s.queue ++ s.journal.observed ↔
        n ∈ s.line ∨ n ∈ s.handedOver := by
      simp only [handedOver, List.mem_append]
      tauto
    rw [either, inv.line, inv.handed, standsInLine, isOver]
    cases s.run? n <;> simp [Phase.isThrough]
  · have moved : (s.line ++ s.queue ++ s.journal.observed).Perm (s.line ++ s.handedOver) := by
      rw [List.append_assoc, handedOver]
      exact List.perm_append_comm.append_left s.line
    refine moved.nodup_iff.mpr (List.nodup_append.mpr ⟨inv.line_nodup, inv.handed_nodup, ?_⟩)
    rintro n waiting m ended rfl
    have busy := not_isOver_of_standsInLine ((inv.line n).mp waiting)
    rw [(inv.handed n).mp ended] at busy
    cases busy
  · intro u leads n r fault found ended observed
    obtain ⟨r', found', evolves⟩ := (chain_of_leads leads).evolves found
    rw [outcomeOf_of_run? found', evolves.fault fault ended, evolves.task, outcomeEvent_eq]
    rfl
  · intro id
    rw [inv.outcomesOf_eq]
    have part : s.journal.observed.countP (s.belongsTo id) ≤
        s.handedOver.countP (s.belongsTo id) := (List.sublist_append_left _ _).countP_le
    refine part.trans ?_
    rw [inv.countP_handedOver]
    refine List.countP_mono_left fun r _ both => ?_
    exact (Bool.and_eq_true_iff.mp both).1
  · intro quiescent id
    have all : s.handedOver = s.journal.observed := by
      rw [handedOver, (inv.rest loop quiescent).1, List.append_nil]
    rw [inv.outcomesOf_eq, ← all, inv.countP_handedOver]
    refine List.countP_congr fun r member => ?_
    obtain ⟨n, found⟩ := mem_runs_iff.mp member
    have noLine : s.standsInLine n = false := by
      rw [← Bool.not_eq_true, ← inv.line, (inv.rest loop quiescent).2]
      exact List.not_mem_nil
    rw [standsInLine, found, Option.any_some] at noLine
    rcases phase_of_quiescent quiescent found with phase | ⟨fault, phase | phase⟩
    · simp [phase, Phase.isFinished, Phase.isReturned, Phase.fault?]
    · rw [phase] at noLine
      cases noLine
    · simp [phase, Phase.isFinished, Phase.isReturned, Phase.fault?]

/-- Two runs finish although the queue is said to have no place at all. -/
theorem outcomesKept_of_no_capacity :
    ∃ s, (create { settings := { outcomeCapacity := 0 } }).applyAll
        [.start, .submit { id := "a" }, .submit { id := "b" }, .progress (.begin 1),
          .progress (.release 1), .progress (.report 1), .progress (.call 1), .progress (.call 1),
          .progress (.begin 2), .progress (.release 2), .progress (.report 2), .progress (.call 2),
          .progress (.call 2), .progress (.send 1), .progress .observe, .progress (.send 2)] =
        some s ∧
      s.journal.observed = [1] ∧ s.queue = [2] ∧ OutcomesKept s := by
  obtain ⟨s, ran, observed, queue⟩ : ∃ s,
      (create { settings := { outcomeCapacity := 0 } }).applyAll
        [.start, .submit { id := "a" }, .submit { id := "b" }, .progress (.begin 1),
          .progress (.release 1), .progress (.report 1), .progress (.call 1), .progress (.call 1),
          .progress (.begin 2), .progress (.release 2), .progress (.report 2), .progress (.call 2),
          .progress (.call 2), .progress (.send 1), .progress .observe, .progress (.send 2)] =
        some s ∧ s.journal.observed = [1] ∧ s.queue = [2] := ⟨_, rfl, rfl, rfl⟩
  exact ⟨s, ran, observed, queue, outcomesKept (reachable_of_applyAll ran)⟩

end Supervisor

end Supervision
