import Supervision.Proofs.Outcomes

/-!
# A full outcome queue stalls nobody

A teardown waits for the runs, and a run waits for a place in the queue. The loop that makes places
waits for neither of them, as the teardown is not its own work: it is ready to take an outcome
whenever there is one, until the last holder of a sender is gone. So there is no circle, however
small the queue is and however many runs stand in line.

Results:
1. `Reachable.drains`: the loop and the runs in line empty the queue among themselves.
2. `Attained.isCalling`: a timer is still to be set only while its callback is at work.
3. `barrierIsEmpty_of_quiescent`: at rest only a work routine or a delay can hold up a teardown.
4. `queueNeverStalls`: what this means in every reachable state.
-/

namespace Supervision

/-- Does nothing move but outcomes, out of the line or out of the queue? -/
def Progress.movesOutcome : Progress → Bool
  | .observe | .send _ => true
  | _ => false

namespace Supervisor

variable {s t : Supervisor}

/-! ## Draining -/

/-- As long as there is an outcome somewhere one of them can move on. -/
theorem Reachable.exists_movesOutcome {setup : Setup} (h : Reachable setup s)
    (left : s.queue ≠ [] ∨ s.line ≠ []) :
    ∃ p t, p.movesOutcome = true ∧ s.progress p = some t ∧
      t.queue.length + 2 * t.line.length < s.queue.length + 2 * s.line.length := by
  have inv := h.attained.outcomeInvariant
  have loop := h.attained.loopInvariant
  cases queue : s.queue with
  | cons n rest =>
      obtain ⟨t, observed, queue', line'⟩ := inv.exists_observe loop queue
      refine ⟨.observe, t, rfl, observed, ?_⟩
      rw [queue', line', List.length_cons]
      omega
  | nil => cases line : s.line with
    | cons n rest =>
        have place : s.queue.length < s.setup.settings.outcomePlaces := by
          rw [queue]
          exact Nat.le_max_right _ _
        obtain ⟨t, sent, queue', line'⟩ := inv.exists_send loop line place
        refine ⟨.send n, t, rfl, sent, ?_⟩
        rw [queue', line', queue, List.length_cons]
        simp only [List.nil_append, List.length_cons, List.length_nil]
        omega
    | nil =>
        rw [queue, line] at left
        simp at left

/-- The loop and the runs in line bring every outcome out of the queue, without any help. -/
theorem Reachable.drains {setup : Setup} (h : Reachable setup s) :
    ∃ (steps : List Progress) (t : Supervisor), (∀ p ∈ steps, p.movesOutcome = true) ∧
      s.applyAll (steps.map .progress) = some t ∧ t.queue = [] ∧ t.line = [] := by
  -- an outcome in line has two steps before it, one in the queue has one
  generalize left : s.queue.length + 2 * s.line.length = total
  induction total using Nat.strongRecOn generalizing s with
  | ind total ih =>
      by_cases empty : s.queue = [] ∧ s.line = []
      · exact ⟨[], s, by simp, rfl, empty⟩
      · obtain ⟨p, t, outcome, step, fewer⟩ :=
          h.exists_movesOutcome (Classical.not_and_iff_not_or_not.mp empty)
        have next : Reachable setup t := h.step (m := .progress p) step
        obtain ⟨steps, u, outcomes, rest, empty⟩ := ih _ (left ▸ fewer) next rfl
        refine ⟨p :: steps, u, ?_, ?_, empty⟩
        · intro q member
          rcases List.mem_cons.mp member with rfl | later
          · exact outcome
          · exact outcomes q later
        · exact Option.bind_eq_some_iff.mpr ⟨t, step, rest⟩

/-! ## Timers that are still to be set -/

/-- A callback of the run is at work. -/
def IsCalling (s : Supervisor) (n : Nat) : Prop :=
  ∃ r scope fault, s.run? n = some r ∧ r.phase = .calling scope fault

/-- It stays at work while another run comes into another phase. -/
theorem IsCalling.withPhase {n number : Nat} (h : s.IsCalling n) (other : n ≠ number)
    (phase : Phase) : (s.withPhase number phase).IsCalling n := by
  obtain ⟨r, scope, fault, found, calling⟩ := h
  exact ⟨r, scope, fault, (run?_withPhase_ne other phase).trans found, calling⟩

/-- A callback that has a timer to set stays at work. -/
theorem Change.isCalling {marks : List Mark} (h : Change s marks t) {n : Nat}
    (busy : s.isDeferring n = true) (calling : s.IsCalling n) : t.IsCalling n := by
  -- only the end of a callback takes a run out of its phase, and that has to wait
  have away : ∀ {number : Nat} {r : Run}, s.run? number = some r →
      (∀ scope fault, r.phase ≠ .calling scope fault) → n ≠ number := by
    rintro number r found other rfl
    obtain ⟨q, scope, fault, known, phase⟩ := calling
    obtain rfl : q = r := Option.some.inj (known.symm.trans found)
    exact other scope fault phase
  have waits : ∀ {number : Nat}, s.isDeferring number = false → n ≠ number := by
    rintro number ready rfl
    rw [busy] at ready
    cases ready
  obtain ⟨q, scope, fault, known, phase⟩ := id calling
  cases h
  case course number r later found step =>
    refine calling.withPhase ?_ later
    cases step with
    | leave _ _ ready => exact waits ready
    | begin here | beginIdle here | finish _ here | report here | call here | pass here =>
        exact away found (by simp [here])
  case release number r fault found here =>
    exact IsCalling.withPhase (s := { s with registry := (s.registry.release r.task.id number).1 })
      calling (away found (by simp [here])) (.released fault)
  case lineUp number r fault found ended =>
    refine IsCalling.withPhase (s := { s with line := s.line ++ [number] }) calling ?_
      (.inLine fault)
    cases ended with
    | pass here => exact away found (by simp [here])
    | leave _ _ ready => exact waits ready
  case send number r fault found here _ _ | discard number r fault found here _ =>
    exact IsCalling.withPhase (s := { s with line := s.line.erase number }) calling
      (away found (by simp [here])) (.finished fault)
  case launch task origin _ _ =>
    exact ⟨_, scope, fault, run?_withRun_of_run? known task origin, by split <;> exact phase⟩
  case cancelRun number _ _ _ =>
    exact ⟨_, scope, fault, run?_cancelToken known number, by split <;> exact phase⟩
  case cancelAll =>
    exact ⟨_, scope, fault, run?_foldl_cancelToken known s.registry.runs, by split <;> exact phase⟩
  all_goals exact calling

/-- A delay whose timer is still to be set was there before, or a callback has just decided on
it, for a later time. -/
theorem Change.decided_cases {marks : List Mark} (h : Change s marks t) {d : Delay}
    (member : d ∈ t.delays) (decided : d.state = .decided) :
    d ∈ s.delays ∨ (s.IsCalling d.origin ∧ t.runs = s.runs ∧ t.now < d.due) := by
  have set : ∀ {index : Nat} {state : DelayState}, state ≠ .decided →
      d ∈ (s.setDelay index state).delays → d ∈ s.delays := by
    intro index state other there
    obtain ⟨k, found⟩ := List.mem_iff_getElem?.mp there
    simp only [setDelay, List.getElem?_modify] at found
    obtain ⟨before, known, rfl⟩ := Option.map_eq_some_iff.mp found
    by_cases here : index = k
    · rw [if_pos here] at decided
      exact absurd decided other
    · rw [if_neg here]
      exact List.mem_of_getElem? known
  cases h
  case defer number r scope fault delay found phase _ _ later =>
    rcases List.mem_append.mp member with old | new
    · exact .inl old
    · rw [List.mem_singleton.mp new]
      exact .inr ⟨⟨r, scope, fault, found, phase⟩, rfl,
        Nat.lt_add_of_pos_right (Duration.timerMillis_pos later)⟩
  case fire | abandon | arm => exact .inl (set DelayState.noConfusion member)
  all_goals exact .inl member

/-- A timer is still to be set only while the callback is at work that has decided on it. -/
theorem Attained.isCalling {setup : Setup} (h : Attained setup s) {d : Delay}
    (member : d ∈ s.delays) (decided : d.state = .decided) : s.IsCalling d.origin := by
  refine h.invariant (P := fun s => ∀ d ∈ s.delays, d.state = .decided → s.IsCalling d.origin)
    (fun _ none => by cases none) ?_ d member decided
  intro s t marks _ inv change d member decided
  rcases change.decided_cases member decided with
    old | ⟨⟨r, scope, fault, found, phase⟩, same, -⟩
  · refine change.isCalling (List.any_eq_true.mpr ⟨d, old, ?_⟩) (inv d old decided)
    simp [decided]
  · exact ⟨r, scope, fault, (run?_congr same _).trans found, phase⟩

/-! ## The barrier at rest -/

/-- A run whose work routine has ended is finished by the time that the supervisor is at rest. -/
theorem isFinished_of_quiescent {setup : Setup} (h : Reachable setup s)
    (quiescent : s.isQuiescent = true) {n : Nat} {r : Run} (found : s.run? n = some r)
    (returned : r.phase.isReturned = true) : r.phase.isFinished = true := by
  have inv := h.attained.outcomeInvariant
  have line := (inv.rest h.attained.loopInvariant quiescent).2
  rcases phase_of_quiescent quiescent found with phase | ⟨fault, phase | phase⟩
  · rw [phase] at returned
    cases returned
  · have waits : n ∈ s.line := by
      rw [inv.line, standsInLine, found, Option.any_some, phase]
      rfl
    rw [line] at waits
    cases waits
  · rw [phase]
    rfl

theorem barrierIsEmpty_iff : s.barrierIsEmpty = true ↔
    (∀ n r, s.run? n = some r → r.phase.isFinished = true) ∧
      ∀ d ∈ s.delays, d.state ≠ .pending := by
  rw [barrierIsEmpty, Bool.and_eq_true, all_runs_iff, List.all_eq_true]
  simp

/-- All delays are over. -/
def IsSettled (s : Supervisor) : Prop :=
  ∀ d ∈ s.delays, d.state = .fired ∨ d.state = .abandoned

theorem IsSettled.ne_pending (settled : s.IsSettled) : ∀ d ∈ s.delays, d.state ≠ .pending := by
  intro d member pending
  rcases settled d member with past | past <;> rw [pending] at past <;> cases past

theorem IsSettled.setDelay {index : Nat} {state : DelayState}
    (through : state = .fired ∨ state = .abandoned) (settled : s.IsSettled) :
    (s.setDelay index state).IsSettled := by
  intro d member
  obtain ⟨k, found⟩ := List.mem_iff_getElem?.mp member
  simp only [Supervisor.setDelay, List.getElem?_modify] at found
  obtain ⟨before, known, rfl⟩ := Option.map_eq_some_iff.mp found
  split
  · exact through
  · exact settled before (List.mem_of_getElem? known)

/-- A stopped supervisor takes up no new delay. -/
theorem Change.isSettled {marks : List Mark} (h : Change s marks t) (stopped : s.stage = .stopped)
    (settled : s.IsSettled) : t.IsSettled := by
  cases h
  case defer alive _ => exact absurd stopped alive
  case fire => exact settled.setDelay (.inl rfl)
  case abandon => exact settled.setDelay (.inr rfl)
  case arm found decided =>
    rcases settled _ (List.mem_of_getElem? found) with past | past <;> rw [decided] at past <;>
      cases past
  all_goals exact settled

/-- Behind an empty barrier no callback is left that could set a timer. -/
theorem Attained.isSettled {setup : Setup} (h : Attained setup s)
    (empty : s.barrierIsEmpty = true) : s.IsSettled := by
  obtain ⟨finished, past⟩ := barrierIsEmpty_iff.mp empty
  intro d member
  cases state : d.state with
  | decided =>
      obtain ⟨r, scope, fault, found, phase⟩ := h.isCalling member state
      have through := finished _ r found
      rw [phase] at through
      cases through
  | pending => exact absurd state (past d member)
  | fired => exact .inl rfl
  | abandoned => exact .inr rfl

/-- The barrier of a stopped supervisor stays empty once it is. -/
theorem Change.barrierIsEmpty {setup : Setup} {marks : List Mark} (h : Change s marks t)
    (attained : Attained setup s) (stopped : s.stage = .stopped)
    (empty : s.barrierIsEmpty = true) : t.barrierIsEmpty = true := by
  have settled := h.isSettled stopped (attained.isSettled empty)
  refine barrierIsEmpty_iff.mpr ⟨fun n r' found => ?_, settled.ne_pending⟩
  cases busy : r'.phase.isFinished with
  | true => rfl
  | false =>
      obtain ⟨r, known, unfinished⟩ := h.unfinished stopped found busy
      rw [(barrierIsEmpty_iff.mp empty).1 n r known] at unfinished
      cases unfinished

/-- Nothing but a work routine or a delay keeps the barrier up when the supervisor is at rest. -/
theorem barrierIsEmpty_of_quiescent {setup : Setup} (h : Reachable setup s)
    (quiescent : s.isQuiescent = true)
    (returned : ∀ n r, s.run? n = some r → r.phase.isReturned = true)
    (past : ∀ d ∈ s.delays, d.state ≠ .pending) : s.barrierIsEmpty = true :=
  barrierIsEmpty_iff.mpr
    ⟨fun n r found => isFinished_of_quiescent h quiescent found (returned n r found), past⟩

/-! ## No stall -/

/-- What is true of the outcome queue in one state. -/
structure QueueNeverStalls (s : Supervisor) : Prop where
  /-- The loop is ready whenever there is an outcome for it. -/
  takes : s.queue ≠ [] → ∃ t, s.apply (.progress .observe) = some t
  /-- Whoever is first in line is ready whenever there is a place. -/
  sends : ∀ n rest, s.line = n :: rest → s.queue.length < s.setup.settings.outcomePlaces →
    ∃ t, s.apply (.progress (.send n)) = some t
  drains : ∃ (steps : List Progress) (t : Supervisor), (∀ p ∈ steps, p.movesOutcome = true) ∧
    s.applyAll (steps.map .progress) = some t ∧ t.queue = [] ∧ t.line = []
  /-- At rest there is no outcome left in the queue, and nobody waits for a place. -/
  atRest : s.isQuiescent = true →
    s.queue = [] ∧ ∀ n r, s.run? n = some r → r.phase.isInLine = false
  /-- At rest only a work routine or a delay can hold up a teardown. -/
  barrier : s.isQuiescent = true → (∀ n r, s.run? n = some r → r.phase.isReturned = true) →
    (∀ d ∈ s.delays, d.state ≠ .pending) → s.barrierIsEmpty = true

/-- In every reachable state, of whatever capacity the queue is, its outcomes can go on. -/
theorem queueNeverStalls {setup : Setup} (h : Reachable setup s) : QueueNeverStalls s := by
  have inv := h.attained.outcomeInvariant
  have loop := h.attained.loopInvariant
  refine ⟨?_, ?_, h.drains, ?_, barrierIsEmpty_of_quiescent h⟩
  · intro some
    obtain ⟨n, rest, queue⟩ := List.exists_cons_of_ne_nil some
    obtain ⟨t, observed, -⟩ := inv.exists_observe loop queue
    exact ⟨t, observed⟩
  · intro n rest line place
    obtain ⟨t, sent, -⟩ := inv.exists_send loop line place
    exact ⟨t, sent⟩
  · intro quiescent
    obtain ⟨queue, line⟩ := inv.rest loop quiescent
    refine ⟨queue, fun n r found => ?_⟩
    have away : s.standsInLine n = false := by
      rw [← Bool.not_eq_true, ← inv.line, line]
      exact List.not_mem_nil
    rwa [standsInLine, found, Option.any_some] at away

/-- A teardown begins while the only place in the queue is taken and another run stands in line. -/
theorem queueNeverStalls_of_full_queue :
    ∃ s, (create { settings := { outcomeCapacity := 1 } }).applyAll
        [.start, .submit { id := "a" }, .submit { id := "b" }, .progress (.begin 1),
          .progress (.release 1), .progress (.report 1), .progress (.call 1), .progress (.call 1),
          .progress (.begin 2), .progress (.release 2), .progress (.report 2), .progress (.call 2),
          .progress (.call 2), .progress (.send 1), .stop, .progress (.proceed 0),
          .progress (.proceed 0)] = some s ∧
      s.queue = [1] ∧ s.line = [2] ∧ s.stage = .stopped ∧ s.barrierIsEmpty = false ∧
      QueueNeverStalls s := by
  obtain ⟨s, ran, queue, line, stopped, busy⟩ : ∃ s,
      (create { settings := { outcomeCapacity := 1 } }).applyAll
        [.start, .submit { id := "a" }, .submit { id := "b" }, .progress (.begin 1),
          .progress (.release 1), .progress (.report 1), .progress (.call 1), .progress (.call 1),
          .progress (.begin 2), .progress (.release 2), .progress (.report 2), .progress (.call 2),
          .progress (.call 2), .progress (.send 1), .stop, .progress (.proceed 0),
          .progress (.proceed 0)] = some s ∧
      s.queue = [1] ∧ s.line = [2] ∧ s.stage = .stopped ∧ s.barrierIsEmpty = false :=
    ⟨_, rfl, rfl, rfl, rfl, rfl⟩
  exact ⟨s, ran, queue, line, stopped, busy, queueNeverStalls (reachable_of_applyAll ran)⟩

end Supervisor

end Supervision
