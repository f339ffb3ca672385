import Mathlib.Data.Nat.Find
import Supervision.Proofs.Triggers

/-!
# What an overrun of the grace period tells

A teardown that gives up counts the runs that have not finished, and lists the ids that the registry
has. The two come from different places. The count is right: the delays are over by the time that
the deadline has passed, so all that it counts are runs. The list knows of an id as long as the
latest run of the id has its entry. A run that is at work although another one has superseded it has
lost its entry, so its id is listed on behalf of its successor only, and no longer when the
successor has ended.

Results:
1. `Attained.isSettled_of_late`: all delays are over when a deadline has passed.
2. `graceReport`: what a teardown tells that gives up, and when its list is exact.
3. `graceReport_omits_superseded`: the id of a superseded run is missing from the list.
-/

namespace Supervision

namespace Supervisor

variable {setup : Setup} {s t : Supervisor}

/-! ## Deadlines -/

/-- A deadline lies in the future when it is set. -/
theorem lt_deadline {deadline : Nat} (h : s.deadline = some deadline) : s.now < deadline := by
  obtain ⟨grace, limited, rfl⟩ := Option.map_eq_some_iff.mp h
  rw [Settings.gracePeriod] at limited
  split at limited
  · cases limited
  · next nonzero =>
      cases limited
      exact Nat.lt_add_of_pos_right (Duration.timerMillis_pos nonzero)

/-- A call that waits for the runs did so before, or it had announced the teardown and has begun to
wait with the present deadline. -/
theorem Conduct.draining {told : List Mark} (h : Conduct s told t) {call : Call}
    (member : call ∈ t.calls) {deadline : Option Nat} (waits : call.state = .draining deadline) :
    (∃ old ∈ s.calls, old.state = .draining deadline) ∨
      (deadline = s.deadline ∧ ∃ requester, ⟨requester, .announced, false⟩ ∈ s.calls) := by
  rcases h.call_cases member with ⟨old, there, -, same⟩ | new | ⟨requester, before, known, step⟩
  · exact .inl ⟨old, there, same.trans waits⟩
  · rw [waits] at new
    cases new
  · rw [waits] at step
    generalize t.stage = stage at step
    generalize t.done = done at step
    cases step with
    | cancelAll => exact .inr ⟨rfl, requester, known⟩

/-- The clock stands still, or it moves on to the next timer at most and nothing else happens. -/
theorem Change.now_cases {marks : List Mark} (h : Change s marks t) :
    t.now = s.now ∨ (s.isQuiescent = true ∧ marks = [] ∧
      ∃ time, t = { s with now := time } ∧ s.timers.all (time ≤ ·) = true) := by
  cases h
  case tick time quiescent _ timers => exact .inr ⟨quiescent, rfl, time, rfl, timers⟩
  all_goals exact .inl rfl

/-- All delays are over when a call has waited until its deadline: the clock does not get there
before they are given up. -/
theorem Attained.isSettled_of_late (h : Attained setup s) {call : Call} (member : call ∈ s.calls)
    {deadline : Nat} (waits : call.state = .draining (some deadline)) (late : deadline ≤ s.now) :
    s.IsSettled := by
  refine h.invariant (P := fun s => ∀ call ∈ s.calls, ∀ deadline,
    call.state = .draining (some deadline) → deadline ≤ s.now → s.IsSettled)
    (fun _ member => by cases member) ?_ call member deadline waits late
  intro s t marks before inv change call member deadline waits late
  have torn : ∀ {call : Call}, call ∈ s.calls → call.state = .draining (some deadline) →
      s.IsTornDown := fun known waits => by
    have passed := before.teardownInvariant.calls _ known
    rwa [waits] at passed
  rcases change.now_cases with same | ⟨quiescent, -, time, rfl, -⟩
  · have late : deadline ≤ s.now := same ▸ late
    rcases change.conduct.draining member waits with ⟨old, known, waited⟩ | ⟨new, -⟩
    · exact change.isSettled (torn known waited).stopped (inv old known deadline waited late)
    · exact absurd late (Nat.not_le.mpr (lt_deadline new.symm))
  · have settled : s.IsSettled :=
      isSettled_of_quiescent quiescent (by simp [scopeIsCancelled, (torn member waits).cancelled])
    exact settled

/-! ## Runs that are stuck -/

/-- The work routine of some run of the id has not returned. -/
def HasStuck (s : Supervisor) (id : String) : Prop :=
  ∃ n r, s.run? n = some r ∧ r.task.id = id ∧ r.phase.isReturned = false

/-- An id that has runs has a latest one. -/
theorem exists_isLatest {id : String} {n : Nat} {r : Run} (found : s.run? n = some r)
    (same : r.task.id = id) : ∃ m, s.IsLatest id m := by
  have bounded : ∀ m, (∃ q, s.run? m = some q ∧ q.task.id = id) → m ≤ s.runs.length :=
    fun m ⟨q, there, _⟩ => (run?_bounds there).2
  classical
  have last := Nat.findGreatest_spec (P := fun m => ∃ q, s.run? m = some q ∧ q.task.id = id)
    (bounded n ⟨r, found, same⟩) ⟨r, found, same⟩
  exact ⟨_, last, fun m q there own =>
    Nat.le_findGreatest (bounded m ⟨q, there, own⟩) ⟨q, there, own⟩⟩

theorem HasStuck.exists_isLatest {id : String} (h : s.HasStuck id) : ∃ m, s.IsLatest id m := by
  obtain ⟨n, r, found, same, -⟩ := h
  exact Supervisor.exists_isLatest found same

/-- An unreleased run that has not just returned is stuck. -/
theorem hasStuck_of_isUnreleased {id : String} {m : Nat} (latest : s.IsLatest id m)
    (unreleased : s.IsUnreleased m)
    (through : ∀ n r fault, s.run? n = some r → r.phase ≠ .returned fault) : s.HasStuck id := by
  obtain ⟨r, found, same⟩ := latest.found
  obtain ⟨q, known, unreleased⟩ := unreleased
  rw [found, Option.some.injEq] at known
  subst known
  refine ⟨m, r, found, same, ?_⟩
  cases phase : r.phase with
  | launched | working => rfl
  | returned fault => exact absurd phase (through m r fault found)
  | released | due | calling | inLine | finished =>
      rw [phase] at unreleased
      cases unreleased

/-- The registry lists the stuck ids if and only if every id has a stuck run as long as its latest
run has the entry, and no longer. -/
theorem RegistryInvariant.active_exact_iff (inv : RegistryInvariant s) :
    (∀ id, id ∈ s.active ↔ s.HasStuck id) ↔
      ∀ id m, s.IsLatest id m → (s.IsUnreleased m ↔ s.HasStuck id) := by
  constructor
  · intro right id m latest
    rw [← right, inv.mem_active_iff]
    refine ⟨fun unreleased => ⟨m, latest, unreleased⟩, ?_⟩
    rintro ⟨n, other, unreleased⟩
    rwa [latest.unique other]
  · intro follows id
    rw [inv.mem_active_iff]
    constructor
    · rintro ⟨n, latest, unreleased⟩
      exact (follows id n latest).mp unreleased
    · intro stuck
      obtain ⟨m, latest⟩ := stuck.exists_isLatest
      exact ⟨m, latest, (follows id m latest).mpr stuck⟩

/-! ## The report -/

/-- What is told when a teardown gives up on the way from `s` to `t`. -/
structure GraceReport (s t : Supervisor) : Prop where
  /-- Delays are over; what the teardown leaves behind are the launched runs that have not
  finished. -/
  settled : t.IsSettled
  detached : t.detached = s.detached +
    t.journal.launched.countP fun n => (t.run? n).any fun r => !r.phase.isFinished
  published : t.published = s.published ++
    [(Event.ofKind .graceExceeded).withReason (String.intercalate "," t.active)]
  verdict : ∃ (index : Nat) (owner : Requester),
    t.calls[index]? = some ⟨owner, .resolved (.graceExceeded ⟨t.setup.settings.grace, t.active⟩),
      false⟩
  sorted : t.active.Pairwise (· < ·)
  /-- The list has the ids whose latest run has not given back its entry. -/
  listed : ∀ id, id ∈ t.active ↔ ∃ n, t.IsLatest id n ∧ t.IsUnreleased n
  exact_iff : (∀ id, id ∈ t.active ↔ t.HasStuck id) ↔
    ∀ id m, t.IsLatest id m → (t.IsUnreleased m ↔ t.HasStuck id)
  /-- Unless a run has just returned, only the ids of superseded runs can be missing. -/
  omits_iff : (∀ n r fault, t.run? n = some r → r.phase ≠ .returned fault) →
    ((∀ id, id ∈ t.active ↔ t.HasStuck id) ↔
      ∀ id m, t.HasStuck id → t.IsLatest id m → t.IsUnreleased m)

/-- Whenever `GraceExceeded` is published the count of the runs left behind is right, and the list
of the stuck ids is right if each of them has a latest run that has not given back its entry. -/
theorem graceReport (h : Reachable setup s) {m : Move} (applied : s.apply m = some t)
    {events : List Event} (told : t.published = s.published ++ events) {e : Event}
    (member : e ∈ events) (kind : e.kind = .graceExceeded) : GraceReport s t := by
  obtain ⟨index, owner, -, ⟨deadline, found, late⟩, rfl⟩ :=
    apply_graceExceeded h applied told member kind
  have reached := (h.step applied).attained
  rw [giveUp_eq] at reached ⊢
  have settled := h.attained.isSettled_of_late (List.mem_of_getElem? found) rfl late
  have inv := reached.registryInvariant
  refine ⟨settled, ?_, ?_, ⟨index, owner, ?_⟩, inv.pairwise_active, inv.mem_active_iff,
    inv.active_exact_iff, ?_⟩
  · rw [reached.launched, countP_numbers]
    have none : s.delays.countP (·.state == .pending) = 0 :=
      List.countP_eq_zero.mpr fun d member => by simpa using settled.ne_pending d member
    change s.detached + s.unfinished = _
    rw [unfinished, none]
    rfl
  · rw [published_writeAll]
    rfl
  · exact getElem?_setCall_self
      (s := { s with detached := s.detached + s.unfinished, senderOpen := false, done := true })
      found _
  · intro through
    rw [inv.active_exact_iff]
    refine ⟨fun follows id m stuck latest => (follows id m latest).mpr stuck, ?_⟩
    intro covers id m latest
    exact ⟨fun unreleased => hasStuck_of_isUnreleased latest unreleased through,
      fun stuck => covers id m stuck latest⟩

/-- A superseded run is at work together with its successor and a run of another id. -/
theorem graceReport_of_superseded_run :
    ∃ s t, (create { settings := { grace := .ofMillis 1 } }).applyAll
        [.start, .submit { id := "b", work := some {} }, .submit { id := "a", work := some {} },
          .progress (.begin 1), .progress (.begin 2), .submit { id := "a", work := some {} },
          .progress (.begin 3), .stop, .progress (.proceed 0), .progress (.proceed 0),
          .tick 1] = some s ∧
      s.apply (.progress (.proceed 0)) = some t ∧
      t.published = s.published ++ [(Event.ofKind .graceExceeded).withReason "a,b"] ∧
      t.detached = 3 ∧ GraceReport s t := by
  obtain ⟨s, t, ran, applied, told, detached⟩ : ∃ s t,
      (create { settings := { grace := .ofMillis 1 } }).applyAll
        [.start, .submit { id := "b", work := some {} }, .submit { id := "a", work := some {} },
          .progress (.begin 1), .progress (.begin 2), .submit { id := "a", work := some {} },
          .progress (.begin 3), .stop, .progress (.proceed 0), .progress (.proceed 0),
          .tick 1] = some s ∧
      s.apply (.progress (.proceed 0)) = some t ∧
      t.published = s.published ++ [(Event.ofKind .graceExceeded).withReason "a,b"] ∧
      t.detached = 3 := ⟨_, _, rfl, rfl, rfl, rfl⟩
  have report := graceReport (reachable_of_applyAll ran) applied told List.mem_cons_self rfl
  exact ⟨s, t, ran, applied, told, detached, report⟩

/-- The successor of a superseded run has ended, so nobody lists the id of the run that is still at
work. The run is counted all the same. -/
theorem graceReport_omits_superseded :
    ∃ s t, (create { settings := { grace := .ofMillis 1 } }).applyAll
        [.start, .submit { id := "a", work := some {} }, .progress (.begin 1),
          .submit { id := "a" }, .progress (.begin 2), .progress (.release 2),
          .progress (.report 2), .progress (.call 2), .progress (.call 2), .progress (.send 2),
          .progress .observe, .stop, .progress (.proceed 0), .progress (.proceed 0),
          .tick 1] = some s ∧
      s.apply (.progress (.proceed 0)) = some t ∧
      t.published = s.published ++ [(Event.ofKind .graceExceeded).withReason ""] ∧
      t.active = [] ∧ t.detached = 1 ∧ t.HasStuck "a" :=
  ⟨_, _, rfl, rfl, rfl, rfl, rfl, 1, _, rfl, rfl, rfl⟩

end Supervisor

end Supervision
