import Supervision.Proofs.ActiveRuns

/-!
# The stop is final

How far a call for a teardown has come tells what has come to pass with the supervisor, and nothing
of that is ever undone. A launch needs a supervisor that is started, and one that is stopped never
is again, so a submission that comes after the stop comes to nothing, whichever way it takes.

Results:
1. `Attained.teardownInvariant`: what has come to pass when a call has got to some state.
2. `Change.sealed`, `Chain.sealed`: nothing that a stop has sealed grows again.
3. `finalStop`: what holds of every state after the stop.
-/

namespace Supervision

/-- The numbers of the runs that were launched, in order. -/
def Journal.launched (j : Journal) : List Nat := j.filterMap (·.mark.launched?)

/-- Has a call carried out the step that cancels the runs? -/
def CallState.hasCancelled : CallState → Bool
  | .draining _ | .awaitingLoop | .resolved .success | .resolved (.graceExceeded _) => true
  | _ => false

namespace Supervisor

variable {s t u : Supervisor}

/-! ## What a teardown leaves behind -/

/-- What a teardown does to the supervisor is never undone. -/
structure Onward (s t : Supervisor) : Prop where
  stopped : s.stage = .stopped → t.stage = .stopped
  cancelled : s.scopeCancelled = true → t.scopeCancelled = true
  closed : s.senderOpen = false → t.senderOpen = false
  done : s.done = true → t.done = true

theorem Change.onward {marks : List Mark} (h : Change s marks t) : Onward s t := by
  cases h
  case opened created =>
    refine ⟨fun stopped => ?_, id, id, id⟩
    rw [created] at stopped
    cases stopped
  case announce => exact ⟨fun _ => rfl, id, id, id⟩
  case cancelAll | cancelScope => exact ⟨id, fun _ => rfl, id, id⟩
  case drained => exact ⟨id, id, fun _ => rfl, id⟩
  case giveUp => exact ⟨id, id, fun _ => rfl, fun _ => rfl⟩
  case conclude => exact ⟨id, id, id, fun _ => rfl⟩
  all_goals exact ⟨id, id, id, id⟩

theorem Chain.onward (h : Chain s t) : Onward s t := by
  induction h with
  | refl => exact ⟨id, id, id, id⟩
  | tail _ advances ih =>
      obtain ⟨marks, u, change, rfl⟩ := advances
      have next := change.onward
      exact ⟨next.stopped ∘ ih.stopped, next.cancelled ∘ ih.cancelled, next.closed ∘ ih.closed,
        next.done ∘ ih.done⟩

/-- The teardown has cancelled the runs. -/
structure IsTornDown (s : Supervisor) : Prop where
  stopped : s.stage = .stopped
  cancelled : s.scopeCancelled = true

/-- What has come to pass when a call is in some state. -/
def HasPassed (s : Supervisor) : CallState → Prop
  | .called | .resolved .notStarted => True
  | .joining | .announced => s.stage = .stopped
  | .draining _ => s.IsTornDown
  | .awaitingLoop => s.IsTornDown ∧ s.senderOpen = false
  | .resolved .success | .resolved (.graceExceeded _) =>
      s.IsTornDown ∧ s.senderOpen = false ∧ s.done = true

theorem IsTornDown.onward (h : s.IsTornDown) (onward : Onward s t) : t.IsTornDown :=
  ⟨onward.stopped h.stopped, onward.cancelled h.cancelled⟩

theorem HasPassed.onward {state : CallState} (h : s.HasPassed state) (onward : Onward s t) :
    t.HasPassed state := by
  cases state with
  | called => trivial
  | joining | announced => exact onward.stopped h
  | draining => exact IsTornDown.onward h onward
  | awaitingLoop => exact ⟨h.1.onward onward, onward.closed h.2⟩
  | resolved verdict => cases verdict with
    | notStarted => trivial
    | success | graceExceeded =>
        exact ⟨h.1.onward onward, onward.closed h.2.1, onward.done h.2.2⟩

theorem HasPassed.isTornDown {state : CallState} (h : s.HasPassed state)
    (past : state.hasCancelled = true) : s.IsTornDown := by
  cases state with
  | called | joining | announced => cases past
  | draining => exact h
  | awaitingLoop => exact h.1
  | resolved verdict => cases verdict with
    | notStarted => cases past
    | success | graceExceeded => exact h.1

/-- How the calls, the stage, the scope and the sender fit together. -/
structure TeardownInvariant (s : Supervisor) : Prop where
  calls : ∀ call ∈ s.calls, s.HasPassed call.state
  closed : s.senderOpen = false → s.IsTornDown
  done : s.done = true → s.senderOpen = false
  pending : s.stage ≠ .created → s.pending = []

theorem TeardownInvariant.create (setup : Setup) : TeardownInvariant (create setup) where
  calls call member := by cases member
  closed open_ := by cases open_
  done ended := by cases ended
  pending _ := rfl

theorem mem_setCall {index : Nat} {state : CallState} {call : Call}
    (h : call ∈ (s.setCall index state).calls) : call ∈ s.calls ∨ call.state = state := by
  obtain ⟨k, found⟩ := List.mem_iff_getElem?.mp h
  simp only [setCall, List.getElem?_modify] at found
  obtain ⟨before, known, rfl⟩ := Option.map_eq_some_iff.mp found
  split
  · exact .inr rfl
  · exact .inl (List.mem_of_getElem? known)

/-- Dropping a call leaves it in its state. -/
theorem mem_withDropped {index : Nat} {call : Call} (h : call ∈ (s.withDropped index).calls) :
    ∃ old ∈ s.calls, old.requester = call.requester ∧ old.state = call.state := by
  obtain ⟨k, found⟩ := List.mem_iff_getElem?.mp h
  simp only [withDropped, List.getElem?_modify] at found
  obtain ⟨old, known, rfl⟩ := Option.map_eq_some_iff.mp found
  refine ⟨old, List.mem_of_getElem? known, ?_⟩
  split <;> exact ⟨rfl, rfl⟩

/-- A call that is still not dropped has not changed at all. -/
theorem mem_of_mem_withDropped {index : Nat} {call : Call}
    (h : call ∈ (s.withDropped index).calls) (kept : call.dropped = false) : call ∈ s.calls := by
  obtain ⟨k, found⟩ := List.mem_iff_getElem?.mp h
  simp only [withDropped, List.getElem?_modify] at found
  obtain ⟨before, known, rfl⟩ := Option.map_eq_some_iff.mp found
  split at kept
  · cases kept
  · next differ =>
      rw [if_neg differ]
      exact List.mem_of_getElem? known

/-- A change lets a call go on only when that has come to pass which the new state tells. -/
theorem Change.calls {marks : List Mark} (h : Change s marks t) (inv : TeardownInvariant s) :
    ∀ call ∈ t.calls, call ∈ s.calls ∨ t.HasPassed call.state := by
  -- for a call that is set to a new state only that state is of interest
  have set : ∀ {u : Supervisor} {index : Nat} {state : CallState},
      (u.setCall index state).HasPassed state → u.calls = s.calls →
      ∀ call ∈ (u.setCall index state).calls,
        call ∈ s.calls ∨ (u.setCall index state).HasPassed call.state := by
    intro u index state passed same call member
    rcases mem_setCall member with old | new
    · exact .inl (same ▸ old)
    · exact .inr (new ▸ passed)
  have reached : ∀ {index : Nat} {call : Call}, s.calls[index]? = some call →
      s.HasPassed call.state := fun found => inv.calls _ (List.mem_of_getElem? found)
  have added : ∀ {u : Supervisor} {requester : Requester}, u.calls = s.calls →
      ∀ call ∈ (u.addCall requester).calls,
        call ∈ s.calls ∨ (u.addCall requester).HasPassed call.state := by
    intro u requester same call member
    rcases List.mem_append.mp member with old | new
    · exact .inl (same ▸ old)
    · rw [List.mem_singleton.mp new]
      exact .inr trivial
  cases h
  case refuse => exact set trivial rfl
  case announce => exact set rfl rfl
  case join stopped => exact set stopped rfl
  case joined done =>
    have torn := inv.closed (inv.done done)
    exact set ⟨⟨torn.stopped, torn.cancelled⟩, inv.done done, done⟩ rfl
  case cancelAll found => exact set ⟨reached found, rfl⟩ rfl
  case drained found _ =>
    have torn : s.IsTornDown := reached found
    exact set ⟨⟨torn.stopped, torn.cancelled⟩, rfl⟩ rfl
  case giveUp found _ _ =>
    have torn : s.IsTornDown := reached found
    exact set ⟨⟨torn.stopped, torn.cancelled⟩, rfl, rfl⟩ rfl
  case conclude found _ =>
    have passed : s.IsTornDown ∧ s.senderOpen = false := reached found
    exact set ⟨⟨passed.1.stopped, passed.1.cancelled⟩, passed.2, rfl⟩ rfl
  case heed => exact added rfl
  case addCall => exact added rfl
  case drop =>
    intro call member
    obtain ⟨old, known, -, same⟩ := mem_withDropped member
    exact .inr (same ▸ (inv.calls old known).onward ⟨id, id, id, id⟩)
  all_goals exact fun call member => .inl member

theorem Change.teardownInvariant {marks : List Mark} (h : Change s marks t)
    (inv : TeardownInvariant s) : TeardownInvariant t where
  calls call member := by
    rcases h.calls inv call member with old | passed
    · exact (inv.calls call old).onward h.onward
    · exact passed
  closed shut := by
    have kept := fun still => (inv.closed still).onward h.onward
    cases h
    case drained found _ | giveUp found _ _ =>
      have torn : s.IsTornDown := inv.calls _ (List.mem_of_getElem? found)
      exact ⟨torn.stopped, torn.cancelled⟩
    all_goals exact kept shut
  done ended := by
    cases h
    case giveUp => rfl
    case conclude found _ =>
      have passed : s.IsTornDown ∧ s.senderOpen = false :=
        inv.calls _ (List.mem_of_getElem? found)
      exact passed.2
    case drained => rfl
    all_goals exact inv.done ended
  pending begun := by
    cases h
    case enqueue created => exact absurd created begun
    case opened => rfl
    case announce started => exact inv.pending (by simp [started])
    all_goals exact inv.pending begun

theorem Attained.teardownInvariant {setup : Setup} (h : Attained setup s) :
    TeardownInvariant s := by
  refine h.invariant (.create setup) fun _ inv change => ?_
  have next := change.teardownInvariant inv
  exact ⟨fun call member => (next.calls call member).onward ⟨id, id, id, id⟩,
    fun shut => (next.closed shut).onward ⟨id, id, id, id⟩, next.done, next.pending⟩

/-! ## What a stop seals -/

/-- Of all that a launch or a delayed restart adds to, nothing has grown. -/
structure Sealed (s t : Supervisor) : Prop where
  stopped : t.stage = .stopped
  runs : t.runs.length = s.runs.length
  launched : t.journal.launched = s.journal.launched
  pending : t.pending = s.pending
  numbered : t.registry.numbered = s.registry.numbered
  delays : t.delays.length = s.delays.length
  /-- Whoever holds a sender of the outcome queue has held one before. -/
  senderOpen : t.senderOpen = true → s.senderOpen = true
  unfinished : ∀ n r', t.run? n = some r' → r'.phase.isFinished = false →
    ∃ r, s.run? n = some r ∧ r.phase.isFinished = false

theorem Sealed.refl (stopped : s.stage = .stopped) : Sealed s s :=
  ⟨stopped, rfl, rfl, rfl, rfl, rfl, id, fun _ r found busy => ⟨r, found, busy⟩⟩

theorem Sealed.trans (h : Sealed s t) (k : Sealed t u) : Sealed s u where
  stopped := k.stopped
  runs := k.runs.trans h.runs
  launched := k.launched.trans h.launched
  pending := k.pending.trans h.pending
  numbered := k.numbered.trans h.numbered
  delays := k.delays.trans h.delays
  senderOpen still := h.senderOpen (k.senderOpen still)
  unfinished n r'' found busy := by
    obtain ⟨r', found', busy'⟩ := k.unfinished n r'' found busy
    exact h.unfinished n r' found' busy'

theorem Change.senderOpen {marks : List Mark} (h : Change s marks t)
    (still : t.senderOpen = true) : s.senderOpen = true := by
  cases shut : s.senderOpen with
  | true => rfl
  | false => rw [h.onward.closed shut] at still; cases still

/-- What is not a launch, a start or a decision to restart later keeps to what is there. -/
theorem Change.kept {marks : List Mark} (h : Change s marks t) (stopped : s.stage = .stopped) :
    t.pending = s.pending ∧ t.delays.length = s.delays.length := by
  cases h
  case enqueue created | opened created =>
    rw [stopped] at created
    cases created
  case launch started _ =>
    rw [stopped] at started
    cases started
  case defer alive _ => exact absurd stopped alive
  case fire | abandon | arm => exact ⟨rfl, List.length_modify ..⟩
  all_goals exact ⟨rfl, rfl⟩

/-- Whoever is there after a change of a stopped supervisor was there before. -/
theorem Change.exists_run? {marks : List Mark} (h : Change s marks t) (stopped : s.stage = .stopped)
    {n : Nat} {r' : Run} (found : t.run? n = some r') : ∃ r, s.run? n = some r ∧ r.Evolves r' := by
  rcases h.run?_cases found with old | ⟨task, origin, -, -, rfl, -⟩
  · exact old
  · -- a launch needs a supervisor that is started
    have longer := length_runs_withRun s task origin
    rcases h.launches with ⟨length, -⟩ | ⟨_, _, started, -⟩
    · rw [longer] at length
      exact absurd length (Nat.succ_ne_self _)
    · rw [stopped] at started
      cases started

/-- Whoever is not through after a change of a stopped supervisor was not before. -/
theorem Change.unfinished {marks : List Mark} (h : Change s marks t) (stopped : s.stage = .stopped)
    {n : Nat} {r' : Run} (found : t.run? n = some r') (busy : r'.phase.isFinished = false) :
    ∃ r, s.run? n = some r ∧ r.phase.isFinished = false := by
  obtain ⟨r, known, evolves⟩ := h.exists_run? stopped found
  refine ⟨r, known, ?_⟩
  cases ended : r.phase.isFinished with
  | false => rfl
  | true => rwa [evolves.finished ended, ended] at busy

theorem launched_writeAll (s : Supervisor) (marks : List Mark) :
    (s.writeAll marks).journal.launched =
      s.journal.launched ++ marks.filterMap Mark.launched? := by
  simp [writeAll, Journal.launched, List.filterMap_map]

/-- A change of a stopped supervisor launches nothing and prepares no launch. -/
theorem Change.sealed {marks : List Mark} (h : Change s marks t) (inv : RegistryInvariant s)
    (stopped : s.stage = .stopped) : Sealed s (t.writeAll marks) := by
  rcases h.launches with ⟨length, unsaid⟩ | ⟨_, _, started, -⟩
  · have numbered : t.registry.numbered = s.registry.numbered := by
      rw [(h.registryInvariant inv).numbered, length, inv.numbered]
    have launched : (t.writeAll marks).journal.launched = s.journal.launched := by
      rw [launched_writeAll, unsaid, List.append_nil, h.journal_eq]
    exact ⟨h.onward.stopped stopped, length, launched, (h.kept stopped).1, numbered,
      (h.kept stopped).2, h.senderOpen, fun _ _ found busy => h.unfinished stopped found busy⟩
  · rw [stopped] at started
    cases started

theorem Chain.sealed {setup : Setup} (h : Chain s t) (attained : Attained setup s)
    (stopped : s.stage = .stopped) : Sealed s t := by
  induction h with
  | refl => exact .refl stopped
  | tail chain advances ih =>
      obtain ⟨marks, u, change, rfl⟩ := advances
      have there : Attained setup _ := attained.trans chain
      exact ih.trans (change.sealed there.registryInvariant ih.stopped)

/-! ## Submissions after the stop -/

/-- At most a log record tells that anything was asked for. -/
def ComesToNothing (s t : Supervisor) : Prop := t = s ∨ ∃ r, t = s.record r

theorem submit_stopped (stopped : s.stage = .stopped) (task : Task) (origin : Option Nat) :
    s.submit task origin = s.record (.submissionDropped task.id) := by
  simp [submit, stopped]

theorem restart_stopped (stopped : s.stage = .stopped) {number : Nat} {policy : RestartPolicy}
    (h : s.restart number policy = some t) : ComesToNothing s t := by
  obtain ⟨r, scope, fault, -, -, step⟩ := restart_cases h
  cases step with
  | unwanted | stopped => exact .inl rfl
  | cancelled => exact .inr ⟨_, rfl⟩
  | again _ _ alive => simp [isStopped, stopped] at alive

/-- On a stopped supervisor a restarter at most forgets a streak, and that only on an outcome that
it would not have restarted the task for anyway. -/
theorem decide_stopped (restarter : Restarter) (streaks : Streaks) (id : String)
    (fault : Option Fault) (cancelled : Bool) (draw : Nat) :
    restarter.decide streaks id fault cancelled true draw =
      if restarter.policy.wants fault = true then
        (streaks, if cancelled then .cancelled else .stopped)
      else (streaks.clear id, .unwanted) := by
  unfold Restarter.decide
  cases restarter.policy.wants fault <;> cases cancelled <;> rfl

/-- Does a restarter want no restart for the outcome that a run hands to it? -/
def IsUnwanted (s : Supervisor) (number index : Nat) : Prop :=
  ∃ r scope fault restarter, s.run? number = some r ∧ r.phase = .calling scope fault ∧
    s.setup.restarters[index]? = some restarter ∧ restarter.policy.wants fault = false

/-- What becomes of a stopped supervisor whose callback hands an outcome to a restarter. -/
def IsHandedInVain (s : Supervisor) (number index : Nat) (t : Supervisor) : Prop :=
  ComesToNothing s t ∨ (s.IsUnwanted number index ∧ ∃ streaks, t = { s with streaks })

theorem consult_stopped (stopped : s.stage = .stopped) {number : Nat} {r : Run} {scope : Scope}
    {fault : Option Fault} (found : s.run? number = some r)
    (phase : r.phase = .calling scope fault) (index draw : Nat) :
    ∃ t, s.consult number r fault index draw = (t, none) ∧ s.IsHandedInVain number index t := by
  have isStopped : s.isStopped = true := by simp [isStopped, stopped]
  unfold consult
  split
  · next restarter streaks known counted =>
      have same : s.streaks.set index streaks = s.streaks := by
        obtain ⟨bound, rfl⟩ := List.getElem?_eq_some_iff.mp counted
        exact List.set_getElem_self bound
      rw [isStopped, decide_stopped]
      cases wanted : restarter.policy.wants fault with
      | false =>
          exact ⟨_, rfl, .inr ⟨⟨r, scope, fault, restarter, found, phase, known, wanted⟩, _, rfl⟩⟩
      | true =>
          rw [if_pos rfl]
          dsimp only
          rw [same]
          cases s.tokenIsCancelled r with
          | true => exact ⟨_, rfl, .inl (.inr ⟨_, rfl⟩)⟩
          | false => exact ⟨_, rfl, .inl (.inl rfl)⟩
  · exact ⟨s, rfl, .inl (.inl rfl)⟩

theorem handTo_stopped (stopped : s.stage = .stopped) {number index draw : Nat}
    (h : s.handTo number index draw = some t) : s.IsHandedInVain number index t := by
  unfold handTo at h
  split at h
  · next r found =>
      split at h
      · next scope fault phase =>
          split at h
          · cases h
          · obtain ⟨u, consulted, vain⟩ := consult_stopped stopped found phase index draw
            rw [consulted] at h
            cases h
            exact vain
      · cases h
  · cases h

theorem fire_stopped (stopped : s.stage = .stopped) {index : Nat} (h : s.fire index = some t) :
    ComesToNothing (s.setDelay index .fired) t := by
  obtain ⟨d, -, -, -, rfl⟩ := fire_eq h
  exact .inr ⟨_, submit_stopped (s := s.setDelay index .fired) stopped d.task _⟩

/-! ## The stop is final -/

/-- How a state `t` that comes after a stopped state `s` looks. -/
structure FinalStop (s t : Supervisor) : Prop where
  isSealed : Sealed s t
  runs : ∀ n r', t.run? n = some r' → ∃ r, s.run? n = some r ∧ r.Evolves r'
  waiting : t.pending = []
  /-- A submission from outside, from a work routine or from a callback. -/
  submit : ∀ task, ∃ u, t.apply (.submit task) = some u ∧ ComesToNothing t u
  restart : ∀ n policy u, t.apply (.restart n policy) = some u → ComesToNothing t u
  handTo : ∀ n index draw u, t.apply (.handTo n index draw) = some u →
    t.IsHandedInVain n index u
  /-- A delay that comes due is over, and that is all. -/
  fire : ∀ index u, t.apply (.progress (.fire index)) = some u →
    ComesToNothing (t.setDelay index .fired) u
  start : t.start = .error .stopped
  cancelled : ∀ call ∈ t.calls, call.state.hasCancelled = true →
    ∀ n r, t.run? n = some r → t.tokenIsCancelled r = true

/-- Nothing is launched once a teardown has stopped the supervisor, whoever asks for it, and after
the runs have been cancelled no token is left. -/
theorem finalStop {setup : Setup} (h : Reachable setup s) (stopped : s.stage = .stopped)
    (later : Leads s t) : FinalStop s t := by
  have chain := chain_of_leads later
  have isSealed := chain.sealed h.attained stopped
  have inv := (h.leads later).attained.teardownInvariant
  have still := isSealed.stopped
  refine ⟨isSealed, ?_, inv.pending (by simp [still]), ?_, ?_, ?_, ?_, ?_, ?_⟩
  · intro n r' found
    have bounds := run?_bounds found
    rw [isSealed.runs] at bounds
    obtain ⟨r, hr⟩ := run?_isSome bounds.1 bounds.2
    obtain ⟨q, hq, evolves⟩ := chain.evolves hr
    obtain rfl : q = r' := Option.some.inj (hq.symm.trans found)
    exact ⟨r, hr, evolves⟩
  · intro task
    exact ⟨_, rfl, .inr ⟨_, submit_stopped still task none⟩⟩
  · intro n policy u restarted
    exact restart_stopped still restarted
  · intro n index draw u handed
    exact handTo_stopped still handed
  · intro index u fired
    exact fire_stopped still fired
  · rw [start, still]
  · intro call member past n r _
    have torn := (inv.calls call member).isTornDown past
    simp [tokenIsCancelled, scopeIsCancelled, torn.cancelled]

/-- A run that a teardown has cancelled ends with a fault, and its callback is at work. -/
theorem finalStop_of_callback :
    ∃ s t, (create {}).applyAll
        [.start, .submit { id := "sync", work := some {}, onFinish := some {} },
          .progress (.begin 1), .stop, .progress (.proceed 0), .progress (.proceed 0)] = some s ∧
      s.applyAll
        [.finish 1 (.returns (some .canceled)), .progress (.release 1), .progress (.report 1),
          .progress (.call 1), .restart 1 .always] = some t ∧
      (t.run? 1).map (·.phase) = some (.calling .own (some .canceled)) ∧
      s.stage = .stopped ∧ FinalStop s t := by
  obtain ⟨s, t, ran, later, phase, stopped⟩ : ∃ s t, (create {}).applyAll
        [.start, .submit { id := "sync", work := some {}, onFinish := some {} },
          .progress (.begin 1), .stop, .progress (.proceed 0), .progress (.proceed 0)] = some s ∧
      s.applyAll
        [.finish 1 (.returns (some .canceled)), .progress (.release 1), .progress (.report 1),
          .progress (.call 1), .restart 1 .always] = some t ∧
      (t.run? 1).map (·.phase) = some (.calling .own (some .canceled)) ∧ s.stage = .stopped :=
    ⟨_, _, rfl, rfl, rfl, rfl⟩
  have final := finalStop (reachable_of_applyAll ran) stopped (leads_of_applyAll later)
  exact ⟨s, t, ran, later, phase, stopped, final⟩

end Supervisor

end Supervision
