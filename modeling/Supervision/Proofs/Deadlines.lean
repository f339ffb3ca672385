import Supervision.Proofs.GraceReport
import Supervision.Proofs.Successes

/-!
# The grace period bounds the teardown

A teardown begins when the request is published, and it waits for the runs until the grace period
has passed since then. The clock never gets past the deadline while the teardown is underway: a
teardown that waits for runs holds a timer, and whatever else it has to do, it does at once. That
goes for the wait for the loop, too, since all runs are finished by then. So the deadline comes too
early for nobody and too late for nobody, whatever the work routines do.

There are two limits. A teardown whose caller drops the call is not carried on by anybody else, and
the deadline passes. A grace period that no clock can add to its reading is cut to thirty years.

Results:
1. `Attained.isPunctual`: how the calls and the clock fit to the time at which a teardown began.
2. `Attained.leftBehind`, `Attained.joinedInTime`: who has finished when a teardown ends.
3. `Attained.detached_pos_iff`: runs are left behind if and only if `GraceExceeded` is published.
4. `graceBound`: what the grace period means in every reachable state.
5. `graceExceeded_too_early_or_never`: what comes of a grace period that is cut, and of a teardown
   whose call is dropped.
-/

namespace Supervision

/-- The times at which events of a kind were published. -/
def Journal.timesOf (j : Journal) (kind : EventKind) : List Nat :=
  (j.filter fun entry => entry.mark.event?.any (·.kind == kind)).map (·.time)

theorem Journal.mem_timesOf {j : Journal} {kind : EventKind} {time : Nat} :
    time ∈ j.timesOf kind ↔ ∃ m e, ⟨time, m⟩ ∈ j ∧ m.event? = some e ∧ e.kind = kind := by
  simp only [timesOf, List.mem_map, List.mem_filter, Option.any_eq_true, beq_iff_eq]
  constructor
  · rintro ⟨⟨_, m⟩, ⟨member, e, told, about⟩, rfl⟩
    exact ⟨m, e, member, told, about⟩
  · rintro ⟨m, e, member, told, about⟩
    exact ⟨⟨time, m⟩, ⟨member, e, told, about⟩, rfl⟩

theorem Journal.exists_mem_timesOf {j : Journal} {kind : EventKind} :
    (∃ time, time ∈ j.timesOf kind) ↔ ∃ e ∈ j.events, e.kind = kind := by
  simp only [mem_timesOf, events, List.mem_filterMap]
  constructor
  · rintro ⟨time, m, e, member, told, about⟩
    exact ⟨e, ⟨⟨time, m⟩, member, told⟩, about⟩
  · rintro ⟨e, ⟨⟨time, m⟩, member, told⟩, about⟩
    exact ⟨time, m, e, member, told, about⟩

namespace Supervisor

variable {setup : Setup} {s t : Supervisor} {start time : Nat}

/-! ## When things were written down -/

theorem mem_journal_writeAll {marks : List Mark} {entry : Entry} :
    entry ∈ (s.writeAll marks).journal ↔
      entry ∈ s.journal ∨ (entry.time = s.now ∧ entry.mark ∈ marks) := by
  obtain ⟨time, mark⟩ := entry
  simp only [writeAll, List.mem_append, List.mem_map, Entry.mk.injEq]
  constructor
  · rintro (old | ⟨m, member, rfl, rfl⟩)
    · exact .inl old
    · exact .inr ⟨rfl, member⟩
  · rintro (old | ⟨rfl, member⟩)
    · exact .inl old
    · exact .inr ⟨mark, member, rfl, rfl⟩

theorem mem_timesOf_writeAll {marks : List Mark} {kind : EventKind} :
    time ∈ (s.writeAll marks).journal.timesOf kind ↔ time ∈ s.journal.timesOf kind ∨
      (time = s.now ∧ ∃ e ∈ marks.filterMap Mark.event?, e.kind = kind) := by
  simp only [Journal.mem_timesOf, mem_journal_writeAll, List.mem_filterMap]
  constructor
  · rintro ⟨m, e, old | ⟨now, member⟩, told, about⟩
    · exact .inl ⟨m, e, old, told, about⟩
    · exact .inr ⟨now, e, ⟨m, member, told⟩, about⟩
  · rintro (⟨m, e, old, told, about⟩ | ⟨now, e, ⟨m, member, told⟩, about⟩)
    · exact ⟨m, e, .inl old, told, about⟩
    · exact ⟨m, e, .inr ⟨now, member⟩, told, about⟩

theorem Change.now_le {marks : List Mark} (h : Change s marks t) : s.now ≤ t.now := by
  cases h
  case tick later _ => exact Nat.le_of_lt later
  all_goals exact Nat.le_refl _

theorem Chain.now_le (h : Chain s t) : s.now ≤ t.now := by
  induction h with
  | refl => exact Nat.le_refl _
  | tail _ advances ih =>
      obtain ⟨marks, u, change, rfl⟩ := advances
      exact ih.trans change.now_le

/-- Nothing was written down at a time that is yet to come. -/
theorem Attained.time_le (h : Attained setup s) {entry : Entry} (member : entry ∈ s.journal) :
    entry.time ≤ s.now := by
  refine h.invariant (P := fun s => ∀ entry ∈ s.journal, entry.time ≤ s.now)
    (fun _ none => by cases none) ?_ entry member
  intro s t marks _ inv change entry member
  rcases mem_journal_writeAll.mp member with old | ⟨now, -⟩
  · exact (inv entry (change.journal_eq ▸ old)).trans change.now_le
  · exact Nat.le_of_eq now

theorem Attained.stopped_of_timesOf (h : Attained setup s) {kind : EventKind}
    (told : time ∈ s.journal.timesOf kind)
    (about : kind = .shutdownRequested ∨ kind = .graceExceeded) : s.stage = .stopped := by
  obtain ⟨e, member, rfl⟩ := Journal.exists_mem_timesOf.mp ⟨time, told⟩
  refine h.hasStory.stopped_of_told member ?_
  rcases about with about | about <;> simp [Event.isTeardown, Event.isTerminal, about]

/-- Only a started supervisor publishes the request. -/
theorem Change.started_of_request {marks : List Mark} (h : Change s marks t) {e : Event}
    (told : e ∈ marks.filterMap Mark.event?) (kind : e.kind = .shutdownRequested) :
    s.stage = .started := by
  have source := h.source told (by simp [Event.isTeardown, Event.isTerminal, kind])
  rw [kind] at source
  cases source with
  | request started => exact started
  | run _ _ own => simp at own
  | report own => simp at own

/-- Only a call that gives up publishes `GraceExceeded`. -/
theorem Change.givesUp {marks : List Mark} (h : Change s marks t) {e : Event}
    (told : e ∈ marks.filterMap Mark.event?) (kind : e.kind = .graceExceeded) :
    ∃ index owner, GivesUp s index owner (t.writeAll marks) := by
  have source := h.source told (by simp [Event.isTeardown, Event.isTerminal, kind])
  rw [kind] at source
  cases source with
  | overrun givesUp => exact ⟨_, _, givesUp⟩
  | run _ _ own => simp at own
  | report own => simp at own

/-! ## The clock and the deadline -/

/-- When a teardown gives up that began at a time, if there is a grace period. -/
def deadlineFrom (s : Supervisor) (start : Nat) : Option Nat :=
  s.setup.settings.gracePeriod.map fun grace => start + grace.timerMillis

/-- How the calls and the clock fit to the time at which a teardown began. -/
structure IsPunctual (s : Supervisor) (start : Nat) : Prop where
  announced : ∀ call ∈ s.calls, call.state = .announced → start = s.now
  draining : ∀ call ∈ s.calls, ∀ deadline, call.state = .draining deadline →
    deadline = s.deadlineFrom start
  inTime : s.done = false → ¬ s.IsAbandoned → ∀ deadline ∈ s.deadlineFrom start, s.now ≤ deadline
  late : ∀ time ∈ s.journal.timesOf .graceExceeded, ∀ deadline ∈ s.deadlineFrom start,
    deadline ≤ time

/-- The clock does not pass the deadline of a call. -/
theorem le_of_timers (timers : s.timers.all (time ≤ ·) = true) {call : Call}
    (member : call ∈ s.calls) (kept : call.dropped = false) {deadline : Nat}
    (waits : call.state = .draining (some deadline)) : time ≤ deadline := by
  have timer : deadline ∈ s.timers :=
    List.mem_append_right _ (List.mem_filterMap.mpr ⟨call, member, by simp [waits, kept]⟩)
  simpa using List.all_eq_true.mp timers deadline timer

/-- Only a started supervisor comes to announce a teardown. -/
theorem Conduct.announced_cases {told : List Mark} (h : Conduct s told t) {call : Call}
    (member : call ∈ t.calls) (announced : call.state = .announced) :
    (∃ old ∈ s.calls, old.state = .announced) ∨ s.stage = .started := by
  rcases h.call_cases member with ⟨old, there, -, same⟩ | new | ⟨requester, before, known, step⟩
  · exact .inl ⟨old, there, same.trans announced⟩
  · rw [announced] at new
    cases new
  · rw [announced] at step
    generalize t.stage = stage at step
    generalize t.done = done at step
    cases step with
    | announce started => exact .inr started

/-- No teardown has begun before the request. -/
theorem Change.isPunctual_of_started {marks : List Mark} (h : Change s marks t)
    (attained : Attained setup s) (started : s.stage = .started) :
    (t.writeAll marks).IsPunctual t.now := by
  have unstopped : s.stage ≠ .stopped := by simp [started]
  have waiting : ∀ {call : Call}, call ∈ s.calls → call.state.hasCancelled = false ∧
      call.state ≠ .announced := fun {call} known => by
    have passed := attained.teardownInvariant.calls call known
    constructor
    · cases past : call.state.hasCancelled with
      | false => rfl
      | true => exact absurd (passed.isTornDown past).stopped unstopped
    · intro announced
      rw [announced] at passed
      exact unstopped passed
  refine ⟨fun _ _ _ => rfl, ?_, ?_, ?_⟩
  · intro call member deadline waits
    rcases h.conduct.draining member waits with
      ⟨old, known, waited⟩ | ⟨-, requester, announced⟩
    · have early := (waiting known).1
      rw [waited] at early
      cases early
    · exact absurd rfl (waiting announced).2
  · intro _ _ deadline limited
    obtain ⟨grace, -, rfl⟩ := Option.map_eq_some_iff.mp limited
    exact Nat.le_add_right _ _
  · intro time told
    exfalso
    rcases mem_timesOf_writeAll.mp told with old | ⟨-, e, new, about⟩
    · exact unstopped (attained.stopped_of_timesOf (h.journal_eq ▸ old) (.inr rfl))
    · obtain ⟨index, owner, givesUp⟩ := h.givesUp new about
      obtain ⟨deadline, found, -⟩ := givesUp.late
      have early := (waiting (List.mem_of_getElem? found)).1
      cases early

/-- Once a teardown has begun, everything stays within its time. -/
theorem IsPunctual.change {marks : List Mark} (inv : s.IsPunctual start) (h : Change s marks t)
    (attained : Attained setup s) (stopped : s.stage = .stopped) :
    (t.writeAll marks).IsPunctual start := by
  have same : (t.writeAll marks).deadlineFrom start = s.deadlineFrom start := by
    simp [deadlineFrom, writeAll, h.setup_eq]
  have unfinished : t.done = false → s.done = false := fun still => by
    cases done : s.done with
    | false => rfl
    | true =>
        rw [h.onward.done done] at still
        cases still
  -- either time stands still, or nothing moves and only the clock goes on
  rcases h.now_cases with now | ⟨quiescent, rfl, time, rfl, timers⟩
  · refine ⟨?_, ?_, ?_, ?_⟩
    · intro call member announced
      rcases h.conduct.announced_cases member announced with ⟨old, known, same⟩ | started
      · exact (inv.announced old known same).trans now.symm
      · rw [stopped] at started
        cases started
    · intro call member deadline waits
      rw [same]
      rcases h.conduct.draining member waits with
        ⟨old, known, waited⟩ | ⟨set, requester, announced⟩
      · exact inv.draining old known deadline waited
      · rw [set, inv.announced _ announced rfl]
        rfl
    · intro still kept deadline limited
      have kept : ¬ s.IsAbandoned := fun left => kept (h.conduct.isAbandoned left)
      exact now.symm ▸ inv.inTime (unfinished still) kept deadline (same ▸ limited)
    · intro time told deadline limited
      rw [same] at limited
      rcases mem_timesOf_writeAll.mp told with old | ⟨rfl, e, new, about⟩
      · exact inv.late time (h.journal_eq ▸ old) deadline limited
      · obtain ⟨index, owner, givesUp⟩ := h.givesUp new about
        obtain ⟨set, found, late⟩ := givesUp.late
        rw [← inv.draining _ (List.mem_of_getElem? found) _ rfl, Option.mem_some_iff] at limited
        rw [now, ← limited]
        exact late
  · have still := isQuiescent_iff.mp quiescent
    refine ⟨?_, inv.draining, ?_, ?_⟩
    · -- a call that has announced the teardown goes on at once
      rintro ⟨requester, state, dropped⟩ member rfl
      obtain ⟨index, found⟩ := List.mem_iff_getElem?.mp member
      have idle := still (.proceed index)
      have found : s.calls[index]? = some ⟨requester, .announced, dropped⟩ := found
      cases dropped with
      | false => simp [progress, proceed, found] at idle
      | true => cases (attained.mayBeDropped found rfl).1
    · intro underway kept deadline limited
      obtain ⟨index, owner, set, found, -, -⟩ :=
        attained.draining_of_quiescent quiescent stopped underway kept
      have known := List.mem_of_getElem? found
      have due : set = some deadline := (inv.draining _ known set rfl).trans limited
      exact le_of_timers timers known rfl (due ▸ rfl)
    · intro time told
      exact inv.late time (by simpa [writeAll] using told)

/-- Whenever a teardown has begun, the calls and the clock fit to that time. -/
theorem Attained.isPunctual (h : Attained setup s)
    (begun : start ∈ s.journal.timesOf .shutdownRequested) : s.IsPunctual start := by
  refine h.invariant (P := fun s => ∀ start ∈ s.journal.timesOf .shutdownRequested,
    s.IsPunctual start) (fun _ none => by cases none) ?_ start begun
  intro s t marks before inv change start begun
  rcases mem_timesOf_writeAll.mp begun with old | ⟨rfl, e, new, about⟩
  · rw [change.journal_eq] at old
    exact (inv start old).change change before (before.stopped_of_timesOf old (.inl rfl))
  · exact change.isPunctual_of_started before (change.started_of_request new about)

/-! ## Who has finished when a teardown ends -/

/-- The step that gives up leaves a run behind. -/
theorem GivesUp.exists_unfinished {index : Nat} {owner : Requester} (h : GivesUp s index owner t)
    (attained : Attained setup s) : ∃ n r, t.run? n = some r ∧ r.phase.isFinished = false := by
  obtain ⟨deadline, found, late⟩ := h.late
  have settled := attained.isSettled_of_late (List.mem_of_getElem? found) rfl late
  rw [h.after, giveUp_eq]
  by_contra none
  have empty : s.barrierIsEmpty = true := barrierIsEmpty_iff.mpr ⟨fun n r there => by
    cases through : r.phase.isFinished with
    | true => rfl
    | false => exact absurd ⟨n, r, there, through⟩ none, settled.ne_pending⟩
  rw [h.busy] at empty
  cases empty

/-- Some run had not finished when the teardown gave up. -/
def LeftBehind (s : Supervisor) : Prop :=
  ∃ n r, s.run? n = some r ∧ ∀ time, ⟨time, .sent n⟩ ∈ s.journal →
    ∀ past ∈ s.journal.timesOf .graceExceeded, past ≤ time

theorem Attained.leftBehind (h : Attained setup s)
    (told : time ∈ s.journal.timesOf .graceExceeded) : s.LeftBehind := by
  refine h.invariant (P := fun s => ∀ time ∈ s.journal.timesOf .graceExceeded, s.LeftBehind)
    (fun _ none => by cases none) ?_ time told
  intro s t marks before inv change time told
  have after : Attained setup (t.writeAll marks) := before.tail change.advances
  by_cases new : ∃ e ∈ marks.filterMap Mark.event?, e.kind = .graceExceeded
  · -- whoever is left behind now has not finished yet
    obtain ⟨e, member, kind⟩ := new
    obtain ⟨index, owner, givesUp⟩ := change.givesUp member kind
    obtain ⟨n, r, found, busy⟩ := givesUp.exists_unfinished before
    refine ⟨n, r, found, fun time sent => ?_⟩
    obtain ⟨q, there, through⟩ := after.exists_sent.mp ⟨time, sent⟩
    rw [found, Option.some.injEq] at there
    rw [there, through] at busy
    cases busy
  · have known : ∀ {past}, past ∈ (t.writeAll marks).journal.timesOf .graceExceeded →
        past ∈ s.journal.timesOf .graceExceeded := fun past =>
      (mem_timesOf_writeAll.mp past).elim (change.journal_eq ▸ ·) fun ⟨_, told⟩ => absurd told new
    obtain ⟨n, r, found, late⟩ := inv time (known told)
    obtain ⟨r', found', -⟩ := change.evolves found
    refine ⟨n, r', found', fun time sent past told => ?_⟩
    rcases mem_journal_writeAll.mp sent with old | ⟨now, -⟩
    · exact late time (change.journal_eq ▸ old) past (known told)
    · obtain ⟨m, e, member, -⟩ := Journal.mem_timesOf.mp told
      exact (after.time_le member).trans (Nat.le_of_eq now.symm)

theorem unfinished_pos (busy : s.barrierIsEmpty = false) : 0 < s.unfinished := by
  refine Nat.pos_of_ne_zero fun none => ?_
  obtain ⟨runs, delays⟩ := Nat.add_eq_zero_iff.mp none
  have empty : s.barrierIsEmpty = true := by
    simp_all [barrierIsEmpty, List.countP_eq_zero]
  rw [busy] at empty
  cases empty

/-- Nobody is left behind but by a teardown that gives up. -/
theorem Change.detached_cases {marks : List Mark} (h : Change s marks t) :
    t.detached = s.detached ∨ ∃ e ∈ marks.filterMap Mark.event?, e.kind = .graceExceeded := by
  cases h
  case giveUp => exact .inr ⟨_, List.mem_cons_self, rfl⟩
  all_goals exact .inl rfl

/-- Runs are left behind if and only if a teardown gives up. -/
theorem Attained.detached_pos_iff (h : Attained setup s) :
    0 < s.detached ↔ ∃ e ∈ s.published, e.kind = .graceExceeded := by
  refine h.invariant (P := fun s => 0 < s.detached ↔ ∃ e ∈ s.published, e.kind = .graceExceeded)
    (by simp [create, published, Journal.events]) ?_
  intro s t marks before inv change
  have told : (t.writeAll marks).published = s.published ++ marks.filterMap Mark.event? := by
    rw [published_writeAll, Supervisor.published, change.journal_eq]
    rfl
  by_cases new : ∃ e ∈ marks.filterMap Mark.event?, e.kind = .graceExceeded
  · obtain ⟨e, member, kind⟩ := new
    obtain ⟨index, owner, givesUp⟩ := change.givesUp member kind
    have left := unfinished_pos givesUp.busy
    have counted : (t.writeAll marks).detached = s.detached + s.unfinished := by
      rw [givesUp.after, giveUp_eq]
      rfl
    exact iff_of_true (by omega) ⟨e, told ▸ List.mem_append_right _ member, kind⟩
  · have same : (t.writeAll marks).detached = s.detached :=
      change.detached_cases.resolve_right new
    rw [same, inv, told]
    simp only [List.mem_append, or_and_right, exists_or, new, or_false]

/-! ## What the grace period means -/

section

variable {deadline : Nat} (begun : start ∈ s.journal.timesOf .shutdownRequested)
  (limited : s.deadlineFrom start = some deadline)
include begun limited

/-- When nothing moves any more, no teardown is underway at its deadline, unless its call has been
dropped. -/
theorem Attained.done_of_quiescent (h : Attained setup s) (quiescent : s.isQuiescent = true)
    (past : deadline ≤ s.now) (kept : ¬ s.IsAbandoned) : s.done = true := by
  have stopped := h.stopped_of_timesOf begun (.inl rfl)
  by_contra underway
  obtain ⟨index, owner, set, found, -, ahead⟩ :=
    h.draining_of_quiescent quiescent stopped (Bool.not_eq_true _ ▸ underway) kept
  rw [(h.isPunctual begun).draining _ (List.mem_of_getElem? found) _ rfl] at ahead
  have future := ahead _ limited
  omega

/-- Nobody gives up if all runs are finished before the deadline. -/
theorem Attained.kind_ne_graceExceeded (h : Attained setup s)
    (finished : ∀ n ∈ s.journal.launched, ∃ time, ⟨time, .sent n⟩ ∈ s.journal ∧ time < deadline) :
    ∀ e ∈ s.published, e.kind ≠ .graceExceeded := by
  intro e member kind
  obtain ⟨past, told⟩ := Journal.exists_mem_timesOf.mpr ⟨e, member, kind⟩
  obtain ⟨n, r, found, late⟩ := h.leftBehind told
  have bounds := run?_bounds found
  have launched : n ∈ s.journal.launched := by
    rw [h.launched, List.mem_range'_1]
    omega
  obtain ⟨time, sent, early⟩ := finished n launched
  have after := late time sent past told
  have before := (h.isPunctual begun).late past told _ limited
  omega

end

end Supervisor

end Supervision
