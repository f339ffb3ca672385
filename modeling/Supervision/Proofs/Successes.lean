import Supervision.Proofs.Joining
import Supervision.Proofs.SingleTeardown

/-!
# What a success of a stop means

A call for a teardown ends well in two ways. The call that carries the teardown out does so after
the loop has exited, so everything is through by then. A call that has joined the teardown of
another one ends well when that teardown is over, and does not ask how: if the grace period was too
short, the other call tells so, and this one does not.

Results:
1. `Attained.exited_or_isOverrun`: a teardown is over when the loop has exited, or when a call has
   exceeded its grace period.
2. `successReport`: what is true when a call has ended well.
3. `success_of_joined_overrun`: a call that has joined can end well while a run is still at work.
-/

namespace Supervision

/-- Does a call wait until a deadline, or has it done so in vain? -/
def CallState.isTimed : CallState → Bool
  | .draining deadline => deadline.isSome
  | state => state.isOverrun

namespace Supervisor

variable {setup : Setup} {s t : Supervisor} {index : Nat} {requester : Requester}

/-! ## How a teardown can end -/

theorem CallStep.done_cases {before after : CallState} {told : List Mark} {stage : Stage}
    {done : Bool} (h : s.CallStep requester before after told stage done) :
    done = s.done ∨ s.loop = .exited ∨ after.isOverrun = true := by
  cases h
  case giveUp => exact .inr (.inr rfl)
  case conclude exited _ => exact .inr (.inl exited)
  all_goals exact .inl rfl

/-- A teardown comes to its end with the exit of the loop or with an overrun. -/
theorem Conduct.done_cases {told : List Mark} (h : Conduct s told t) :
    t.done = s.done ∨ s.loop = .exited ∨
      ∃ (index : Nat) (call : Call), t.calls[index]? = some call ∧ call.state.isOverrun = true := by
  cases h with
  | aside _ _ done | ask _ _ _ done | goOn _ _ _ _ done | drop _ _ _ _ _ done => exact .inl done
  | step found step calls =>
      rcases step.done_cases with same | exited | overrun
      · exact .inl same
      · exact .inr (.inl exited)
      · exact .inr (.inr ⟨_, _, calls ▸ getElem?_setCall_self found _, overrun⟩)

/-- A call that has its result stays as it is. -/
theorem Conduct.getElem?_of_resolved {told : List Mark} (h : Conduct s told t) {verdict : Verdict}
    {dropped : Bool} (found : s.calls[index]? = some ⟨requester, .resolved verdict, dropped⟩) :
    t.calls[index]? = some ⟨requester, .resolved verdict, dropped⟩ := by
  cases h with
  | aside calls | goOn _ calls => exact calls ▸ found
  | ask _ calls => exact calls ▸ getElem?_addCall found _
  | @step owner before after changed known step calls =>
      have differ : index ≠ changed := by
        rintro rfl
        rw [found, Option.some.injEq, Call.mk.injEq] at known
        obtain ⟨rfl, rfl, -⟩ := known
        cases step
      rwa [calls, getElem?_setCall_ne differ]
  | @drop _ state changed known _ suspended calls =>
      have differ : index ≠ changed := by
        rintro rfl
        rw [found, Option.some.injEq, Call.mk.injEq] at known
        obtain ⟨rfl, rfl, -⟩ := known
        cases suspended
      rwa [calls, getElem?_withDropped_ne differ]

theorem Chain.getElem?_of_resolved (h : Chain s t) {verdict : Verdict}
    {dropped : Bool} (found : s.calls[index]? = some ⟨requester, .resolved verdict, dropped⟩) :
    t.calls[index]? = some ⟨requester, .resolved verdict, dropped⟩ := by
  induction h with
  | refl => exact found
  | tail _ advances ih =>
      obtain ⟨marks, u, change, rfl⟩ := advances
      exact change.conduct.getElem?_of_resolved ih

/-- In particular one that has exceeded its grace period. -/
theorem Conduct.getElem?_of_isOverrun {told : List Mark} (h : Conduct s told t) {call : Call}
    (found : s.calls[index]? = some call) (overrun : call.state.isOverrun = true) :
    t.calls[index]? = some call := by
  obtain ⟨requester, state, dropped⟩ := call
  cases state with
  | resolved verdict => exact h.getElem?_of_resolved found
  | called | joining | announced | draining | awaitingLoop => cases overrun

/-- A teardown that is over has waited for the loop, or a call has exceeded its grace period. -/
theorem Attained.exited_or_isOverrun (h : Attained setup s) (done : s.done = true) :
    s.loop = .exited ∨
      ∃ (index : Nat) (call : Call), s.calls[index]? = some call ∧ call.state.isOverrun = true := by
  refine h.invariant (P := fun s => s.done = true → s.loop = .exited ∨
    ∃ (index : Nat) (call : Call), s.calls[index]? = some call ∧ call.state.isOverrun = true)
    (fun no => by cases no) ?_ done
  intro s t marks before inv change done
  rcases change.conduct.done_cases with same | exited | overrun
  · rcases inv (same ▸ done) with exited | ⟨index, call, found, overrun⟩
    · exact .inl (change.exited before exited)
    · exact .inr ⟨index, call, change.conduct.getElem?_of_isOverrun found overrun, overrun⟩
  · exact .inl (change.exited before exited)
  · exact .inr overrun

/-- The event of an overrun is published by the time that the call has its result. -/
theorem HasStory.published_of_overrun (h : HasStory s) {error : GraceExceeded} {dropped : Bool}
    (found : s.calls[index]? = some ⟨requester, .resolved (.graceExceeded error), dropped⟩) :
    (Event.ofKind .graceExceeded).withReason (String.intercalate "," error.stuck) ∈
      s.published := by
  obtain ⟨refusals, story, written, early, stands⟩ := h
  cases stands with
  | quiet _ _ calls =>
      rcases calls _ (List.mem_of_getElem? found) with state | state <;> cases state
  | underway _ _ there busy others =>
      obtain rfl := others.eq_of_isOverrun found rfl
      rw [found] at there
      cases there
      cases busy
  | ended _ _ there terminal others _ =>
      obtain rfl := others.eq_of_isOverrun found rfl
      rw [found] at there
      cases there
      cases terminal
      refine List.mem_of_mem_filter (p := Event.isTeardown) ?_
      rw [filter_published written early]
      exact List.mem_cons_of_mem _ List.mem_cons_self

/-- The call that carried the teardown out has exceeded its grace period if that was published. -/
theorem HasStory.exists_overrun (h : HasStory s) {e : Event} (told : e ∈ s.published)
    (kind : e.kind = .graceExceeded) :
    ∃ (index : Nat) (owner : Requester) (error : GraceExceeded) (dropped : Bool),
      s.calls[index]? = some ⟨owner, .resolved (.graceExceeded error), dropped⟩ := by
  obtain ⟨refusals, story, written, early, stands⟩ := h
  have about : e.isTeardown = true := by simp [Event.isTeardown, Event.isTerminal, kind]
  have picked : e ∈ story.filterMap Mark.event? :=
    filter_published written early ▸ List.mem_filter.mpr ⟨told, about⟩
  have requested : ∀ trigger : Trigger, e ≠ trigger.event := by
    rintro trigger rfl
    cases kind
  cases stands with
  | quiet => cases picked
  | underway => simp [Mark.event?, requested] at picked
  | @ended index owner verdict dropped e' echoes _ _ found terminal _ heard =>
      rw [List.filterMap_append, filterMap_event?_eq_nil (fun _ _ => rfl) heard] at picked
      obtain rfl : e = e' := by simpa [Mark.event?, requested] using picked
      cases verdict with
      | graceExceeded error => exact ⟨index, owner, error, dropped, found⟩
      | success =>
          cases terminal
          cases kind
      | notStarted => cases terminal

/-! ## Deadlines -/

/-- There are deadlines only if there is a grace period. -/
theorem Attained.gracePeriod_isSome (h : Attained setup s) {call : Call} (member : call ∈ s.calls)
    (timed : call.state.isTimed = true) : setup.settings.gracePeriod.isSome = true := by
  refine h.invariant (P := fun s => ∀ call ∈ s.calls, call.state.isTimed = true →
    setup.settings.gracePeriod.isSome = true) (fun _ member => by cases member) ?_ call member timed
  intro s t marks before inv change call member timed
  rcases change.conduct.call_cases member with
    ⟨old, there, -, same⟩ | new | ⟨requester, state, known, step⟩
  · exact inv old there (same ▸ timed)
  · rw [new] at timed
    cases timed
  · generalize marks.filter Mark.isTeardown = told at step
    generalize t.stage = stage at step
    generalize t.done = done at step
    generalize call.state = after at step timed
    cases step with
    | cancelAll =>
        have limited : s.deadline.isSome = true := timed
        rwa [Supervisor.deadline, Option.isSome_map, before.setup_eq] at limited
    | giveUp => exact inv _ known rfl
    | refuse | announce | join | joined | drained | conclude => cases timed

/-! ## Successes -/

/-- Every run has returned, and the outcome queue is closed and empty. -/
structure IsDrained (s : Supervisor) : Prop where
  runs : ∀ n ∈ s.journal.launched, ∃ r fault, s.run? n = some r ∧ r.phase = .finished fault
  /-- Nobody can put an outcome into the queue any more. -/
  senders : s.hasSenders = false
  queue : s.queue = []
  line : s.line = []
  loop : s.loop = .exited

theorem Reachable.isDrained_of_exited (h : Reachable setup s) (exited : s.loop = .exited) :
    s.IsDrained := by
  obtain ⟨closed, queue, finished⟩ := h.attained.loopInvariant.exited exited
  refine ⟨?_, hasSenders_eq_false_iff.mpr ⟨closed, finished⟩, queue, ?_, exited⟩
  · intro n launched
    obtain ⟨r, found⟩ := h.attained.run?_of_launched launched
    have through := finished n r found
    cases phase : r.phase with
    | finished fault => exact ⟨r, fault, found, phase⟩
    | _ =>
        rw [phase] at through
        cases through
  · refine List.eq_nil_iff_forall_not_mem.mpr fun n member => ?_
    have stands := (h.attained.outcomeInvariant.line n).mp member
    exact h.attained.loopInvariant.not_exited stands exited

/-- What is true when a call for a teardown has ended well. -/
structure SuccessReport (setup : Setup) (s : Supervisor) (index : Nat) (requester : Requester) :
    Prop where
  done : s.done = true
  terminal : ∃ e ∈ s.published, e.isTerminal = true
  /-- If not everything is through, the call that has carried the teardown out has exceeded its
  grace period and has told so, and so has an event. -/
  overrun : s.IsDrained ∨ ∃ (leader : Nat) (owner : Requester) (error : GraceExceeded),
    leader ≠ index ∧ IsOwnedBy setup s leader owner ∧
      s.calls[leader]? = some ⟨owner, .resolved (.graceExceeded error), false⟩ ∧
      (Event.ofKind .graceExceeded).withReason (String.intercalate "," error.stuck) ∈ s.published
  /-- The call that carries the teardown out ends well only when everything is through. -/
  owner : IsOwnedBy setup s index requester → s.IsDrained
  joined : (∀ e ∈ s.published, e.kind ≠ .graceExceeded) → s.IsDrained
  /-- Without a grace period every call does. -/
  unlimited : setup.settings.grace = .zero → s.IsDrained

/-- A call that has ended well has seen everything through, unless it has joined a teardown that has
exceeded its grace period. -/
theorem successReport (h : Reachable setup s) {dropped : Bool}
    (found : s.calls[index]? = some ⟨requester, .resolved .success, dropped⟩) :
    SuccessReport setup s index requester := by
  obtain ⟨-, -, done⟩ : s.IsTornDown ∧ s.senderOpen = false ∧ s.done = true :=
    h.attained.teardownInvariant.calls _ (List.mem_of_getElem? found)
  have ways : s.IsDrained ∨ ∃ (leader : Nat) (owner : Requester) (error : GraceExceeded),
      leader ≠ index ∧ IsOwnedBy setup s leader owner ∧
        s.calls[leader]? = some ⟨owner, .resolved (.graceExceeded error), false⟩ := by
    rcases h.attained.exited_or_isOverrun done with
      exited | ⟨leader, ⟨owner, state, _⟩, there, overrun⟩
    · exact .inl (h.isDrained_of_exited exited)
    · have owns := h.isOwnedBy_of_isOverrun there overrun
      have differ : leader ≠ index := by
        rintro rfl
        rw [found] at there
        cases there
        cases overrun
      cases state with
      | resolved verdict => cases verdict with
        | graceExceeded error =>
            have kept := h.attained.getElem?_of_resolved there
            exact .inr ⟨leader, owner, error, differ, owns, kept⟩
        | success | notStarted => cases overrun
      | called | joining | announced | draining | awaitingLoop => cases overrun
  have published := fun {leader : Nat} {owner : Requester} {error : GraceExceeded}
    (there : s.calls[leader]? = some ⟨owner, .resolved (.graceExceeded error), false⟩) =>
      h.attained.hasStory.published_of_overrun there
  refine ⟨done, h.attained.exists_terminal done, ?_, ?_, ?_, ?_⟩
  · exact ways.imp_right fun ⟨leader, owner, error, differ, owns, there⟩ =>
      ⟨leader, owner, error, differ, owns, there, published there⟩
  · intro owned
    rcases ways with drained | ⟨leader, owner, error, differ, -, there⟩
    · exact drained
    · exact absurd (owned.leavesTo.1.eq_of_isOverrun there rfl) differ
  · intro kept
    rcases ways with drained | ⟨leader, owner, error, -, -, there⟩
    · exact drained
    · exact absurd rfl (kept _ (published there))
  · intro unlimited
    rcases ways with drained | ⟨leader, owner, error, -, -, there⟩
    · exact drained
    · have limited := h.attained.gracePeriod_isSome (List.mem_of_getElem? there) rfl
      rw [Settings.gracePeriod, if_pos unlimited] at limited
      cases limited

/-- A call joins the teardown that an interrupt has brought about, and the grace period is long
enough for both. -/
theorem successReport_of_interrupt :
    ∃ s, (create { settings := { grace := .ofMillis 1 } }).applyAll
        [.start, .submit { id := "a", work := some {} }, .progress (.begin 1), .interrupt,
          .progress .heedInterrupt, .stop, .progress (.proceed 0), .progress (.proceed 1),
          .progress (.proceed 0), .finish 1 (.returns none), .progress (.release 1),
          .progress (.report 1), .progress (.call 1), .progress (.call 1), .progress (.send 1),
          .progress .observe, .progress (.proceed 0), .progress .exitLoop,
          .progress (.proceed 0), .progress (.proceed 1)] = some s ∧
      s.calls.map (·.requester) = [.loop .interrupt, .caller 0] ∧
      SuccessReport { settings := { grace := .ofMillis 1 } } s 1 (.caller 0) ∧ s.IsDrained := by
  obtain ⟨s, ran, calls, found, told⟩ : ∃ s,
      (create { settings := { grace := .ofMillis 1 } }).applyAll
        [.start, .submit { id := "a", work := some {} }, .progress (.begin 1), .interrupt,
          .progress .heedInterrupt, .stop, .progress (.proceed 0), .progress (.proceed 1),
          .progress (.proceed 0), .finish 1 (.returns none), .progress (.release 1),
          .progress (.report 1), .progress (.call 1), .progress (.call 1), .progress (.send 1),
          .progress .observe, .progress (.proceed 0), .progress .exitLoop,
          .progress (.proceed 0), .progress (.proceed 1)] = some s ∧
      s.calls.map (·.requester) = [.loop .interrupt, .caller 0] ∧
      s.calls[1]? = some ⟨.caller 0, .resolved .success, false⟩ ∧
      (∀ e ∈ s.published, e.kind ≠ .graceExceeded) := ⟨_, rfl, rfl, rfl, by decide⟩
  have report := successReport (reachable_of_applyAll ran) found
  exact ⟨s, ran, calls, report, report.joined told⟩

/-- A second call ends well while the run is still at work that the grace period of the first one
was too short for. -/
theorem success_of_joined_overrun :
    ∃ s, (create { settings := { grace := .ofMillis 1 } }).applyAll
        [.start, .submit { id := "stuck", work := some {} }, .progress (.begin 1), .stop, .stop,
          .progress (.proceed 0), .progress (.proceed 1), .progress (.proceed 0), .tick 1,
          .progress (.proceed 0), .progress (.proceed 1)] = some s ∧
      s.calls[1]? = some ⟨.caller 1, .resolved .success, false⟩ ∧
      (s.run? 1).map (·.phase) = some .working ∧ s.loop = .running ∧ ¬ s.IsDrained := by
  obtain ⟨s, ran, joined, phase, running⟩ : ∃ s,
      (create { settings := { grace := .ofMillis 1 } }).applyAll
        [.start, .submit { id := "stuck", work := some {} }, .progress (.begin 1), .stop, .stop,
          .progress (.proceed 0), .progress (.proceed 1), .progress (.proceed 0), .tick 1,
          .progress (.proceed 0), .progress (.proceed 1)] = some s ∧
      s.calls[1]? = some ⟨.caller 1, .resolved .success, false⟩ ∧
      (s.run? 1).map (·.phase) = some .working ∧ s.loop = .running := ⟨_, rfl, rfl, rfl, rfl⟩
  refine ⟨s, ran, joined, phase, running, fun drained => ?_⟩
  have exited := drained.loop
  rw [running] at exited
  cases exited

end Supervisor

end Supervision
