import Supervision.Proofs.Joining

/-!
# No trigger is lost

A call, the interrupt and the end of the parent scope all come to the same: somebody asks for a
teardown and is heard. The interrupt and the end of the parent scope stay there until the loop acts
on one of them, also if they came before the start; it acts once, and that is enough, as the call it
makes then stands for all of them. At rest nobody is left who asks in vain. If no work routine is
left either, the teardown has come to its end for everybody.

A call can be dropped by its caller. One that has not begun then asks for nothing any more, and one
that carries the teardown out leaves it where it is. The loop never drops its call.

Results:
1. `Conduct.isAskedBy`: whoever asks for a teardown keeps asking until the supervisor is stopped.
2. `Attained.isAsked_of_heeded`: a loop that has acted on a trigger has asked for the teardown.
3. `Attained.draining_of_quiescent`: what a teardown waits for at rest.
4. `isCompleted_of_quiescent`: nothing keeps a stopped supervisor from its end but work routines and
   a call that has been dropped.
5. `triggerHeeded`: what every trigger comes to.
6. `calls_dropped`: what a dropped call can leave behind.
-/

namespace Supervision

/-- Does a move call for a teardown? -/
def Move.isCall : Move → Bool
  | .stop | .stopFrom _ => true
  | _ => false

namespace Supervisor

variable {setup : Setup} {s t u : Supervisor}

/-! ## Asking for a teardown -/

/-- The supervisor is stopped, or it is started and somebody's call has yet to begin. -/
def IsAskedBy (s : Supervisor) (index : Nat) (requester : Requester) : Prop :=
  s.stage = .stopped ∨
    (s.stage = .started ∧ ∃ dropped, s.calls[index]? = some ⟨requester, .called, dropped⟩)

/-- A call on a supervisor that has been started asks for a teardown. -/
theorem isAskedBy_addCall (begun : s.stage ≠ .created) (requester : Requester) :
    (s.addCall requester).IsAskedBy s.calls.length requester := by
  cases stage : s.stage with
  | created => exact absurd stage begun
  | started => exact .inr ⟨stage, false, by simp [addCall]⟩
  | stopped => exact .inl stage

theorem CallStep.stage_cases {requester : Requester} {before after : CallState}
    {told : List Mark} {stage : Stage} {done : Bool}
    (h : s.CallStep requester before after told stage done) :
    stage = .stopped ∨ (stage = s.stage ∧ (before = .called → s.stage ≠ .started)) := by
  cases h
  case announce => exact .inl rfl
  case refuse created => exact .inr ⟨rfl, fun _ => by simp [created]⟩
  case join stopped => exact .inl stopped
  all_goals exact .inr ⟨rfl, fun called => by cases called⟩

/-- Whoever asks for a teardown keeps asking until the supervisor is stopped. -/
theorem Conduct.isAskedBy {told : List Mark} (h : Conduct s told t) {index : Nat}
    {requester : Requester} {dropped : Bool} (started : s.stage = .started)
    (found : s.calls[index]? = some ⟨requester, .called, dropped⟩) :
    t.IsAskedBy index requester := by
  cases h with
  | aside calls stage =>
      rcases stage with same | ⟨created, -⟩
      · exact .inr ⟨same.trans started, dropped, calls ▸ found⟩
      · rw [started] at created
        cases created
  | goOn _ calls stage => exact .inr ⟨stage.trans started, dropped, calls ▸ found⟩
  | ask _ calls stage =>
      exact .inr ⟨stage.trans started, dropped, calls ▸ getElem?_addCall found _⟩
  | drop _ _ _ calls stage =>
      obtain ⟨later, kept⟩ := exists_getElem?_withDropped found _
      exact .inr ⟨stage.trans started, later, calls ▸ kept⟩
  | @step _ _ _ changed known step calls =>
      rcases step.stage_cases with stopped | ⟨same, other⟩
      · exact .inl stopped
      · -- a call that the started supervisor hears stops it
        have differ : index ≠ changed := by
          rintro rfl
          rw [found] at known
          cases known
          exact other rfl started
        refine .inr ⟨same.trans started, dropped, ?_⟩
        rwa [calls, getElem?_setCall_ne differ]

theorem Change.isAskedBy {marks : List Mark} (h : Change s marks t) {index : Nat}
    {requester : Requester} (asked : s.IsAskedBy index requester) :
    t.IsAskedBy index requester := by
  rcases asked with stopped | ⟨started, dropped, found⟩
  · exact .inl (h.onward.stopped stopped)
  · exact h.conduct.isAskedBy started found

theorem Chain.isAskedBy (h : Chain s t) {index : Nat} {requester : Requester}
    (asked : s.IsAskedBy index requester) : t.IsAskedBy index requester := by
  induction h with
  | refl => exact asked
  | tail _ advances ih =>
      obtain ⟨marks, u, change, rfl⟩ := advances
      exact change.isAskedBy ih

/-- The caller has dropped the call before it has begun. -/
def IsWithdrawn (s : Supervisor) (index : Nat) : Prop :=
  ∃ requester, s.calls[index]? = some ⟨requester, .called, true⟩

/-- At rest whoever has asked for a teardown has been heard, unless the call has been dropped. -/
theorem IsAskedBy.stopped_of_quiescent {index : Nat} {requester : Requester}
    (asked : s.IsAskedBy index requester) (quiescent : s.isQuiescent = true)
    (kept : ¬ s.IsWithdrawn index) : s.stage = .stopped := by
  rcases asked with stopped | ⟨started, dropped, found⟩
  · exact stopped
  · cases dropped with
    | true => exact absurd ⟨requester, found⟩ kept
    | false =>
        have still := isQuiescent_iff.mp quiescent (.proceed index)
        simp [progress, proceed, found, started] at still

/-- The loop never drops the call that it makes. -/
theorem Attained.not_isWithdrawn (h : Attained setup s) {index : Nat} {trigger : Trigger}
    (asked : s.IsAskedBy index (.loop trigger)) (started : s.stage = .started) :
    ¬ s.IsWithdrawn index := by
  rintro ⟨requester, found⟩
  rcases asked with stopped | ⟨-, dropped, there⟩
  · rw [started] at stopped
    cases stopped
  · rw [there] at found
    cases found
    exact (h.mayBeDropped there rfl).2 trigger rfl

/-! ## What the loop watches for -/

/-- There is no loop before the start. -/
theorem Attained.absent (h : Attained setup s) (created : s.stage = .created) :
    s.loop = .absent := by
  refine h.invariant (P := fun s => s.stage = .created → s.loop = .absent) (fun _ => rfl) ?_ created
  intro s t marks before inv change (created : t.stage = .created)
  rcases change.loop_cases with ⟨loop, same | ⟨-, stopped⟩⟩ | ⟨-, started⟩ | ⟨-, senders, rfl⟩
  · exact loop.trans (inv (same ▸ created))
  · rw [stopped] at created
    cases created
  · rw [started] at created
    cases created
  · have torn := before.teardownInvariant.closed (hasSenders_eq_false_iff.mp senders).1
    have stopped : s.stage = .stopped := torn.stopped
    rw [show s.stage = .created from created] at stopped
    cases stopped

theorem Change.heeded_cases {marks : List Mark} (h : Change s marks t) :
    t.heeded = s.heeded ∨
      s.loop = .running ∧ ∃ trigger, t = { s with heeded := true }.addCall (.loop trigger) := by
  cases h
  case heed trigger running _ _ => exact .inr ⟨running, _, rfl⟩
  all_goals exact .inl rfl

/-- A loop that has acted on a trigger has asked for the teardown. -/
theorem Attained.isAsked_of_heeded (h : Attained setup s) (heeded : s.heeded = true) :
    ∃ index trigger, s.IsAskedBy index (.loop trigger) := by
  refine h.invariant
    (P := fun s => s.heeded = true → ∃ index trigger, s.IsAskedBy index (.loop trigger))
    (fun no => by cases no) ?_ heeded
  intro s t marks before inv change heeded
  rcases change.heeded_cases with same | ⟨running, trigger, rfl⟩
  · obtain ⟨index, trigger, asked⟩ := inv (same ▸ heeded)
    exact ⟨index, trigger, change.isAskedBy asked⟩
  · refine ⟨_, trigger,
      isAskedBy_addCall (s := { s with heeded := true }) (fun created => ?_) (.loop trigger)⟩
    rw [before.absent created] at running
    cases running

/-- The interrupt and the end of the parent scope stay there. -/
theorem Change.triggerIsPresent {marks : List Mark} (h : Change s marks t) {trigger : Trigger}
    (present : s.TriggerIsPresent trigger) : t.TriggerIsPresent trigger := by
  cases trigger with
  | stop => exact present
  | interrupt =>
      cases h
      case interrupt => exact ⟨present.1, rfl⟩
      all_goals exact present
  | parentCancelled =>
      cases h
      case cancelParent => rfl
      all_goals exact present

theorem Chain.triggerIsPresent (h : Chain s t) {trigger : Trigger}
    (present : s.TriggerIsPresent trigger) : t.TriggerIsPresent trigger := by
  induction h with
  | refl => exact present
  | tail _ advances ih =>
      obtain ⟨marks, u, change, rfl⟩ := advances
      exact change.triggerIsPresent ih

/-- The loop of a supervisor that is started runs. -/
theorem Attained.loop_running (h : Attained setup s) (started : s.stage = .started) :
    s.loop = .running := by
  cases loop : s.loop with
  | running => rfl
  | absent =>
      rw [h.loopInvariant.absent loop] at started
      cases started
  | exited =>
      rw [(h.teardownInvariant.closed (h.loopInvariant.exited loop).1).stopped] at started
      cases started

/-- At rest the loop of a started supervisor has acted on whatever it watches for. -/
theorem heeded_of_quiescent (quiescent : s.isQuiescent = true) (running : s.loop = .running)
    {trigger : Trigger} (present : s.TriggerIsPresent trigger) : s.heeded = true := by
  have still := isQuiescent_iff.mp quiescent
  by_contra unheeded
  cases trigger with
  | stop => exact present
  | interrupt =>
      have idle := still .heedInterrupt
      simp [progress, heedInterrupt, heed, running, unheeded, present.1, present.2] at idle
  | parentCancelled =>
      have idle := still .heedParent
      have ended : s.parentCancelled = true := present
      simp [progress, heedParent, heed, running, unheeded, ended] at idle

/-! ## The end of the teardown -/

/-- At rest all delays are over once the lifetime scope is cancelled. -/
theorem isSettled_of_quiescent (quiescent : s.isQuiescent = true)
    (cancelled : s.scopeIsCancelled = true) : s.IsSettled := by
  intro d member
  obtain ⟨index, found⟩ := List.mem_iff_getElem?.mp member
  cases state : d.state with
  | decided => exact absurd state (delay_of_quiescent quiescent member)
  | pending =>
      have still := isQuiescent_iff.mp quiescent (.abandon index)
      simp [progress, abandon, found, state, cancelled] at still
  | fired => exact .inl rfl
  | abandoned => exact .inr rfl

/-- At rest the loop has exited if nobody holds a sender of the queue. -/
theorem Attained.exited_of_quiescent (h : Attained setup s) (quiescent : s.isQuiescent = true)
    (begun : s.stage ≠ .created) (senders : s.hasSenders = false) : s.loop = .exited := by
  have queue := (h.outcomeInvariant.rest h.loopInvariant quiescent).1
  cases loop : s.loop with
  | exited => rfl
  | absent => exact absurd (h.loopInvariant.absent loop) begun
  | running =>
      have still := isQuiescent_iff.mp quiescent .exitLoop
      simp [progress, exitLoop, loop, queue, senders] at still

/-- All work routines have ended. -/
def AllReturned (s : Supervisor) : Prop := ∀ n r, s.run? n = some r → r.phase.isReturned = true

/-- Nobody holds a sender of the queue once the supervisor has closed its own and no work routine
keeps a run. -/
theorem hasSenders_of_quiescent (h : Reachable setup s) (quiescent : s.isQuiescent = true)
    (returned : s.AllReturned) (closed : s.senderOpen = false) : s.hasSenders = false :=
  hasSenders_eq_false_iff.mpr
    ⟨closed, fun n r found => isFinished_of_quiescent h quiescent found (returned n r found)⟩

/-- Its caller has dropped the call that carries the teardown out. -/
def IsAbandoned (s : Supervisor) : Prop :=
  ∃ call ∈ s.calls, call.dropped = true ∧ call.state.isAtWork = true

/-- Nobody takes over a call that has been dropped. -/
theorem Conduct.getElem?_of_dropped {told : List Mark} (h : Conduct s told t) {index : Nat}
    {requester : Requester} {state : CallState}
    (found : s.calls[index]? = some ⟨requester, state, true⟩) :
    t.calls[index]? = some ⟨requester, state, true⟩ := by
  have differ : ∀ {other : Nat} {requester : Requester} {state : CallState},
      s.calls[other]? = some ⟨requester, state, false⟩ → index ≠ other := by
    rintro other requester state known rfl
    rw [found] at known
    cases known
  cases h with
  | aside calls | goOn _ calls => exact calls ▸ found
  | ask _ calls => exact calls ▸ getElem?_addCall found _
  | step known _ calls => rwa [calls, getElem?_setCall_ne (differ known)]
  | drop known _ _ calls => rwa [calls, getElem?_withDropped_ne (differ known)]

theorem Chain.getElem?_of_dropped (h : Chain s t) {index : Nat} {requester : Requester}
    {state : CallState} (found : s.calls[index]? = some ⟨requester, state, true⟩) :
    t.calls[index]? = some ⟨requester, state, true⟩ := by
  induction h with
  | refl => exact found
  | tail _ advances ih =>
      obtain ⟨marks, u, change, rfl⟩ := advances
      exact change.conduct.getElem?_of_dropped ih

/-- A teardown that has been abandoned stays so. -/
theorem Conduct.isAbandoned {told : List Mark} (h : Conduct s told t) (left : s.IsAbandoned) :
    t.IsAbandoned := by
  obtain ⟨⟨requester, state, dropped⟩, member, rfl, busy⟩ := left
  obtain ⟨index, found⟩ := List.mem_iff_getElem?.mp member
  exact ⟨_, List.mem_of_getElem? (h.getElem?_of_dropped found), rfl, busy⟩

theorem Chain.isAbandoned (h : Chain s t) (left : s.IsAbandoned) : t.IsAbandoned := by
  induction h with
  | refl => exact left
  | tail _ advances ih =>
      obtain ⟨marks, u, change, rfl⟩ := advances
      exact change.conduct.isAbandoned ih

/-- At rest the call that carries a teardown out has come to its end, or it waits for runs and its
deadline has not passed, unless it has been dropped. -/
theorem Attained.draining_of_quiescent (h : Attained setup s) (quiescent : s.isQuiescent = true)
    (stopped : s.stage = .stopped) (unfinished : s.done = false) (kept : ¬ s.IsAbandoned) :
    ∃ (index : Nat) (owner : Requester) (deadline : Option Nat),
      s.calls[index]? = some ⟨owner, .draining deadline, false⟩ ∧ s.barrierIsEmpty = false ∧
        ∀ time ∈ deadline, s.now < time := by
  obtain ⟨-, story, -, -, stands⟩ := h.hasStory
  cases stands with
  | quiet stage => exact absurd stopped stage
  | ended _ done =>
      rw [unfinished] at done
      cases done
  | @underway index owner state dropped _ _ found busy _ =>
      have still := isQuiescent_iff.mp quiescent (.proceed index)
      have passed := h.teardownInvariant.calls _ (List.mem_of_getElem? found)
      obtain rfl : dropped = false :=
        Bool.eq_false_iff.mpr fun away => kept ⟨_, List.mem_of_getElem? found, away, busy⟩
      cases state with
      | called | joining | resolved => cases busy
      | announced => simp [progress, proceed, found] at still
      | draining deadline =>
          refine ⟨index, owner, deadline, found, ?_, ?_⟩
          · cases empty : s.barrierIsEmpty with
            | false => rfl
            | true => simp [progress, proceed, found, empty] at still
          · rintro time rfl
            by_contra late
            by_cases empty : s.barrierIsEmpty = true <;>
              simp [progress, proceed, found, empty, Nat.not_lt.mp late] at still
      | awaitingLoop =>
          have closed : s.IsTornDown ∧ s.senderOpen = false := passed
          have empty := h.barrierIsEmpty (List.mem_of_getElem? found) rfl
          have senders :=
            hasSenders_eq_false_iff.mpr ⟨closed.2, (barrierIsEmpty_iff.mp empty).1⟩
          have exited := h.exited_of_quiescent quiescent (by simp [stopped]) senders
          simp [progress, proceed, found, exited] at still

/-- Nothing keeps a stopped supervisor from the end of its teardown but work routines. -/
theorem done_of_quiescent (h : Reachable setup s) (quiescent : s.isQuiescent = true)
    (stopped : s.stage = .stopped) (returned : s.AllReturned) (kept : ¬ s.IsAbandoned) :
    s.done = true := by
  by_contra unfinished
  obtain ⟨_, _, _, found, busy, -⟩ :=
    h.attained.draining_of_quiescent quiescent stopped (Bool.not_eq_true _ ▸ unfinished) kept
  have torn : s.IsTornDown :=
    h.attained.teardownInvariant.calls _ (List.mem_of_getElem? found)
  have settled : s.IsSettled :=
    isSettled_of_quiescent quiescent (by simp [scopeIsCancelled, torn.cancelled])
  rw [barrierIsEmpty_of_quiescent h quiescent returned settled.ne_pending] at busy
  cases busy

/-- A teardown that has been abandoned does not come to its end. -/
theorem HasStory.not_isAbandoned (h : HasStory s) (done : s.done = true) : ¬ s.IsAbandoned := by
  rintro ⟨call, member, -, busy⟩
  obtain ⟨-, story, -, -, stands⟩ := h
  cases stands with
  | quiet _ unfinished | underway _ unfinished =>
      rw [done] at unfinished
      cases unfinished
  | @ended index owner verdict _ _ _ _ _ found _ others _ =>
      obtain ⟨other, there⟩ := List.mem_iff_getElem?.mp member
      by_cases here : other = index
      · subst here
        rw [found] at there
        cases there
        cases busy
      · rw [CallState.isAtWork_of_isAside (others other call there here)] at busy
        cases busy

/-- At rest after the end of a teardown nobody waits for an answer, apart from calls that have been
dropped. -/
theorem Attained.answered_of_quiescent (h : Attained setup s) (quiescent : s.isQuiescent = true)
    (done : s.done = true) :
    (∀ call ∈ s.calls, call.dropped = false → ∃ verdict, call.state = .resolved verdict) ∧
      ∀ resolved ∈ s.waits, resolved = true := by
  have still := isQuiescent_iff.mp quiescent
  obtain ⟨-, story, -, -, stands⟩ := h.hasStory
  cases stands with
  | quiet _ unfinished | underway _ unfinished =>
      rw [done] at unfinished
      cases unfinished
  | @ended index owner verdict _ _ _ stopped _ found _ others _ =>
      refine ⟨fun ⟨requester, state, dropped⟩ member kept => ?_, fun resolved member => ?_⟩
      · obtain ⟨other, there⟩ := List.mem_iff_getElem?.mp member
        by_cases here : other = index
        · subst here
          rw [found] at there
          cases there
          exact ⟨verdict, rfl⟩
        · have aside := others other _ there here
          have idle := still (.proceed other)
          cases state with
          | resolved verdict => exact ⟨verdict, rfl⟩
          | called | joining =>
              obtain rfl : dropped = false := kept
              simp [progress, proceed, there, stopped, done] at idle
          | announced | draining | awaitingLoop => cases aside
      · obtain ⟨number, found⟩ := List.mem_iff_getElem?.mp member
        have idle := still (.resolveWait number)
        cases resolved with
        | true => rfl
        | false => simp [progress, resolveWait, found, done] at idle

/-- The teardown has come to its end for everybody. -/
structure IsCompleted (s : Supervisor) : Prop where
  terminal : ∃ e ∈ s.published, e.isTerminal = true
  scope : s.scopeCancelled = true
  /-- Nobody holds a sender of the outcome queue any more. -/
  senders : s.hasSenders = false
  loop : s.loop = .exited
  /-- Every call that has not been dropped has its result. -/
  calls : ∀ call ∈ s.calls, call.dropped = false → ∃ verdict, call.state = .resolved verdict
  waits : ∀ resolved ∈ s.waits, resolved = true

theorem isCompleted_of_quiescent (h : Reachable setup s) (quiescent : s.isQuiescent = true)
    (stopped : s.stage = .stopped) (returned : s.AllReturned) (kept : ¬ s.IsAbandoned) :
    s.IsCompleted := by
  have done := done_of_quiescent h quiescent stopped returned kept
  have inv := h.attained.teardownInvariant
  have senders := hasSenders_of_quiescent h quiescent returned (inv.done done)
  obtain ⟨calls, waits⟩ := h.attained.answered_of_quiescent quiescent done
  exact ⟨h.attained.exists_terminal done, (inv.closed (inv.done done)).cancelled, senders,
    h.attained.exited_of_quiescent quiescent (by simp [stopped]) senders, calls, waits⟩

/-! ## Triggers -/

/-- Is a move a trigger for a teardown? A call is one as soon as the supervisor has been started;
the interrupt and the end of the parent scope are from the beginning. -/
def IsTrigger (s : Supervisor) : Move → Prop
  | .stop | .stopFrom _ => s.stage ≠ .created
  | .interrupt => s.setup.interruptible = true
  | .cancelParent => True
  | _ => False

/-- A trigger leaves a call behind that asks for the teardown, or something that the loop watches
for. -/
theorem apply_trigger {m : Move} (trigger : s.IsTrigger m) (h : s.apply m = some t) :
    (m.isCall = true ∧ ∃ requester, t.IsAskedBy s.calls.length requester) ∨
      ∃ watched, t.TriggerIsPresent watched := by
  cases m with
  | stop =>
      cases h
      exact .inl ⟨rfl, _, isAskedBy_addCall trigger _⟩
  | stopFrom run =>
      obtain ⟨-, rfl⟩ := stopFrom_eq h
      exact .inl ⟨rfl, _, isAskedBy_addCall trigger _⟩
  | interrupt =>
      cases h
      exact .inr ⟨.interrupt, trigger, rfl⟩
  | cancelParent =>
      cases h
      exact .inr ⟨.parentCancelled, rfl⟩
  | _ => cases trigger

/-- What has become of a trigger `m`, made in the state `s`, when the supervisor is at rest. -/
structure TriggerHeeded (s : Supervisor) (m : Move) (u : Supervisor) : Prop where
  /-- A call counts unless it was dropped before it has begun. -/
  stopped : (m.isCall = true → ¬ u.IsWithdrawn s.calls.length) → u.stage = .stopped
  /-- Once all work routines have ended only one thing can keep the teardown from its end: the call
  that carries it out has been dropped. -/
  completed : u.stage = .stopped → u.AllReturned → (u.IsCompleted ↔ ¬ u.IsAbandoned)

/-- Whatever the trigger is and whenever it comes, a supervisor that has been started is stopped by
the time that it is at rest, and its teardown is over if all work routines have ended, unless the
callers have dropped their calls. -/
theorem triggerHeeded {m : Move} (h : Reachable setup s) (trigger : s.IsTrigger m)
    (applied : s.apply m = some t) (later : Leads t u) (begun : u.stage ≠ .created)
    (quiescent : u.isQuiescent = true) : TriggerHeeded s m u := by
  have chain := chain_of_leads later
  have reached : Reachable setup u := (h.step applied).leads later
  refine ⟨fun kept => ?_, fun stopped returned =>
    ⟨fun completed => ?_, isCompleted_of_quiescent reached quiescent stopped returned⟩⟩
  · rcases apply_trigger trigger applied with ⟨call, requester, asked⟩ | ⟨watched, present⟩
    · exact (chain.isAskedBy asked).stopped_of_quiescent quiescent (kept call)
    · cases stage : u.stage with
      | stopped => rfl
      | created => exact absurd stage begun
      | started =>
          have running := reached.attained.loop_running stage
          have heeded := heeded_of_quiescent quiescent running (chain.triggerIsPresent present)
          obtain ⟨index, trigger, asked⟩ := reached.attained.isAsked_of_heeded heeded
          have heard := reached.attained.not_isWithdrawn asked stage
          exact stage ▸ asked.stopped_of_quiescent quiescent heard
  · obtain ⟨e, told, terminal⟩ := completed.terminal
    have story := reached.attained.hasStory
    exact story.not_isAbandoned (story.done_of_terminal told terminal)

/-- Somebody drops a call for the teardown while the call waits for the only run, and somebody else
drops one before it has begun. The first supervisor stays stopped without an end and the wait for
the end goes on for ever, though the run has finished; the second one is never stopped. -/
theorem calls_dropped :
    (∃ u, (create {}).applyAll
        [.start, .submit { id := "a", work := some {} }, .progress (.begin 1), .wait, .stop,
          .progress (.proceed 0), .progress (.proceed 0), .drop 0, .finish 1 (.returns none),
          .progress (.release 1), .progress (.report 1), .progress (.call 1), .progress (.call 1),
          .progress (.send 1), .progress .observe] = some u ∧
      u.stage = .stopped ∧ u.isQuiescent = true ∧
      u.runs = [⟨{ id := "a", work := some {} }, none, true, .finished none⟩] ∧
      (∀ e ∈ u.published, e.isTerminal = false) ∧ u.hasSenders = true ∧ u.waits = [false]) ∧
    ∃ u, (create {}).applyAll [.start, .stop, .drop 0] = some u ∧ u.isQuiescent = true ∧
      u.stage = .started :=
  ⟨⟨_, rfl, rfl, rfl, rfl, by decide, rfl, rfl⟩, _, rfl, rfl, rfl⟩

/-- The parent scope ends before the start. Of two callers who ask for the teardown that is already
underway one drops the call. -/
theorem triggerHeeded_of_early_trigger :
    ∃ t u, (create {}).apply .cancelParent = some t ∧ t.applyAll
        [.submit { id := "a" }, .progress (.post 0), .start, .wait, .progress (.begin 1),
          .progress .heedParent, .progress (.release 1), .progress (.report 1),
          .progress (.proceed 0), .stop, .stop, .progress (.proceed 1), .drop 2,
          .progress (.proceed 0), .progress (.call 1), .progress (.call 1), .progress (.send 1),
          .progress .observe, .progress (.proceed 0), .progress .exitLoop,
          .progress (.proceed 0), .progress (.proceed 1), .progress (.resolveWait 0)] = some u ∧
      u.calls.map (·.requester) = [.loop .parentCancelled, .caller 0, .caller 1] ∧
      u.waits = [true] ∧ u.isQuiescent = true ∧ TriggerHeeded (create {}) .cancelParent u ∧
      IsCompleted u := by
  obtain ⟨t, u, applied, ran, calls, waits, begun, quiescent, runs, kept⟩ : ∃ t u,
      (create {}).apply .cancelParent = some t ∧ t.applyAll
        [.submit { id := "a" }, .progress (.post 0), .start, .wait, .progress (.begin 1),
          .progress .heedParent, .progress (.release 1), .progress (.report 1),
          .progress (.proceed 0), .stop, .stop, .progress (.proceed 1), .drop 2,
          .progress (.proceed 0), .progress (.call 1), .progress (.call 1), .progress (.send 1),
          .progress .observe, .progress (.proceed 0), .progress .exitLoop,
          .progress (.proceed 0), .progress (.proceed 1), .progress (.resolveWait 0)] = some u ∧
      u.calls.map (·.requester) = [.loop .parentCancelled, .caller 0, .caller 1] ∧
      u.waits = [true] ∧ u.stage ≠ .created ∧ u.isQuiescent = true ∧
      u.runs = [{ task := { id := "a" }, cancelled := false, phase := .finished none }] ∧
      ∀ call ∈ u.calls, call.dropped = true → call.state = .called :=
    ⟨_, _, rfl, rfl, rfl, rfl, by decide, rfl, rfl, by decide⟩
  have trigger : (create {}).IsTrigger .cancelParent := trivial
  have heeded := triggerHeeded .init trigger applied (leads_of_applyAll ran) begun quiescent
  have stopped := heeded.stopped fun no => by cases no
  have returned : u.AllReturned := by
    intro n r found
    have member : r ∈ u.runs := mem_runs_iff.mpr ⟨n, found⟩
    rw [runs, List.mem_singleton] at member
    rw [member]
    rfl
  have completed : u.IsCompleted := by
    refine (heeded.completed stopped returned).mpr ?_
    rintro ⟨call, member, dropped, busy⟩
    rw [kept call member dropped] at busy
    cases busy
  exact ⟨t, u, applied, ran, calls, waits, quiescent, heeded, completed⟩

end Supervisor

end Supervision
