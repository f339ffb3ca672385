import Supervision.Proofs.Conduct

/-!
# There is one teardown

Any number of calls, interrupts and ends of the parent scope can ask for a teardown, at any time.
The first call that finds the supervisor started stops it. It owns the teardown from then on: the
request names its trigger, and it alone brings the teardown to its end, well or badly.

Results:
1. `Change.stage_cases`: the stage goes on in one direction, and only the step of a call stops the
   supervisor.
2. `IsOwnedBy.leavesTo`, `IsOwnedBy.request`: what remains of the stop.
3. `HasStory.answered`: nobody has an answer before the teardown has come to its end.
4. `singleTeardown`: what this means in every reachable state.
-/

namespace Supervision

namespace Mark

/-- Does somebody who has called for a teardown or waited for its end go on? A call that came before
the start raises a panic instead. -/
def isAnswer : Mark → Bool
  | .stopResolved _ .notStarted => false
  | .stopResolved _ _ | .waitResolved _ => true
  | _ => false

/-- Does a call end with a grace period that was too short? -/
def isOverrun : Mark → Bool
  | .stopResolved _ (.graceExceeded _) => true
  | _ => false

theorem isOverrun_of_isRefusal {m : Mark} (h : m.isRefusal = true) : m.isOverrun = false := by
  cases m with
  | stopResolved _ verdict => cases verdict <;> first | rfl | cases h
  | _ => rfl

theorem isOverrun_of_isEcho {m : Mark} (h : m.isEcho = true) : m.isOverrun = false := by
  cases m with
  | stopResolved _ verdict => cases verdict <;> first | rfl | cases h
  | _ => rfl

theorem isAnswer_of_isRefusal {m : Mark} (h : m.isRefusal = true) : m.isAnswer = false := by
  cases m with
  | stopResolved _ verdict => cases verdict <;> first | rfl | cases h
  | _ => cases h

theorem isTeardown_of_isAnswer {m : Mark} (h : m.isAnswer = true) : m.isTeardown = true := by
  cases m with
  | stopResolved | waitResolved => rfl
  | _ => cases h

end Mark

namespace CallState

/-- Has the call ended with a grace period that was too short? -/
def isOverrun : CallState → Bool
  | .resolved (.graceExceeded _) => true
  | _ => false

theorem hasCancelled_of_isOverrun {state : CallState} (h : state.isOverrun = true) :
    state.hasCancelled = true := by
  cases state with
  | resolved verdict => cases verdict <;> first | rfl | cases h
  | _ => cases h

theorem isOverrun_of_isAside {state : CallState} (h : state.isAside = true) :
    state.isOverrun = false := by
  cases state with
  | resolved verdict => cases verdict <;> first | rfl | cases h
  | _ => rfl

end CallState

/-- What does not come before an element comes after it. -/
theorem mem_of_append_eq {α : Type} {before after first rest : List α} {a b : α}
    (same : before ++ b :: after = first ++ a :: rest) (late : b ∉ first) (other : b ≠ a) :
    a ∈ before := by
  rcases List.append_eq_append_iff.mp same with ⟨between, rfl, split⟩ | ⟨between, rfl, split⟩
  · cases between with
    | nil => exact absurd (List.cons.inj split).1 other
    | cons c _ =>
        obtain ⟨rfl, -⟩ := List.cons.inj split
        simp at late
  · cases between with
    | nil => exact absurd (List.cons.inj split).1.symm other
    | cons c _ =>
        obtain ⟨rfl, -⟩ := List.cons.inj split
        simp

namespace Supervisor

variable {setup : Setup} {s t : Supervisor} {index : Nat} {owner : Requester}

/-! ## The stop -/

/-- The next step of a call stops the started supervisor. -/
structure Announces (s : Supervisor) (index : Nat) (owner : Requester) (t : Supervisor) : Prop where
  started : s.stage = .started
  called : s.calls[index]? = some ⟨owner, .called, false⟩
  step : s.apply (.progress (.proceed index)) = some t
  stopped : t.stage = .stopped

/-- The stop was the step of this call. -/
def IsOwnedBy (setup : Setup) (s : Supervisor) (index : Nat) (owner : Requester) : Prop :=
  ∃ u v, Reachable setup u ∧ Announces u index owner v ∧ Leads v s

theorem announces_announce (called : s.calls[index]? = some ⟨owner, .called, false⟩)
    (started : s.stage = .started) :
    Announces s index owner (s.announce index owner.trigger) where
  started := started
  called := called
  step := by simp [apply, progress, proceed, called, started]
  stopped := rfl

theorem Announces.eq (h : Announces s index owner t) : t = s.announce index owner.trigger :=
  Option.some.inj (h.step.symm.trans (announces_announce h.called h.started).step)

theorem Announces.announced (h : Announces s index owner t) :
    t.calls[index]? = some ⟨owner, .announced, false⟩ := by
  rw [h.eq, announce_eq]
  exact getElem?_setCall_self (s := { s with stage := .stopped }) h.called .announced

/-- The stage stays, or the supervisor starts, or the step of a call stops it. -/
theorem Change.stage_cases {marks : List Mark} (h : Change s marks t) :
    t.stage = s.stage ∨ (s.stage = .created ∧ t.stage = .started) ∨
      ∃ index owner, Announces s index owner (t.writeAll marks) := by
  cases h
  case opened created => exact .inr (.inl ⟨created, rfl⟩)
  case announce index requester called started =>
    have announces := announces_announce called started
    rw [announce_eq] at announces
    exact .inr (.inr ⟨index, requester, announces⟩)
  all_goals exact .inl rfl

theorem apply_stage {m : Move} (h : s.apply m = some t) :
    t.stage = s.stage ∨ (s.stage = .created ∧ t.stage = .started) ∨
      ∃ index owner, Announces s index owner t := by
  rcases apply_cases h with ⟨marks, u, change, rfl⟩ | same | ⟨created, same⟩
  · exact change.stage_cases
  · exact .inl same.stage
  · exact .inr (.inl ⟨created, same.stage⟩)

/-- Somebody has made the stop. -/
theorem Reachable.exists_isOwnedBy (h : Reachable setup s) (stopped : s.stage = .stopped) :
    ∃ index owner, IsOwnedBy setup s index owner := by
  induction h with
  | init => cases stopped
  | @step s t m reached applied ih =>
      rcases apply_stage applied with same | ⟨-, started⟩ | ⟨index, owner, announces⟩
      · obtain ⟨index, owner, u, v, before, announces, later⟩ := ih (same ▸ stopped)
        exact ⟨index, owner, u, v, before, announces, later.step applied⟩
      · rw [started] at stopped
        cases stopped
      · exact ⟨index, owner, s, t, reached, announces, .refl t⟩

/-! ## What remains of the stop -/

/-- The stop has made the call the one that all others leave the teardown to, and has published the
request in its name. -/
theorem Announces.leaves (h : Announces s index owner t) (reached : Reachable setup s) :
    t.LeavesTo index ∧ t.published.filter Event.isTeardown = [owner.trigger.event] := by
  obtain ⟨refusals, story, written, early, stands⟩ := (reached.step h.step).attained.hasStory
  -- a call that is at work is not among those that leave the teardown to another one
  have leader : ∀ {leader : Nat}, t.LeavesTo leader → leader = index := by
    intro leader others
    by_contra differ
    cases others _ _ h.announced (Ne.symm differ)
  cases stands with
  | quiet stage => exact absurd h.stopped stage
  | @underway index' owner' _ _ _ _ found _ others =>
      obtain rfl := leader others
      rw [h.announced] at found
      cases found
      exact ⟨others, filter_published written early⟩
  | ended _ _ found _ others _ =>
      obtain rfl := leader others
      rw [h.announced] at found
      cases found

theorem IsOwnedBy.leavesTo (h : IsOwnedBy setup s index owner) :
    s.LeavesTo index ∧ ∃ call, s.calls[index]? = some call ∧ call.requester = owner := by
  obtain ⟨u, v, before, announces, later⟩ := h
  have chain := chain_of_leads later
  exact ⟨(chain.leavesTo announces.stopped (announces.leaves before).1).2,
    chain.exists_call announces.announced⟩

/-- A call that has exceeded its grace period is the one that the others leave the teardown to. -/
theorem LeavesTo.eq_of_isOverrun (leaves : s.LeavesTo index) {other : Nat} {call : Call}
    (found : s.calls[other]? = some call) (overrun : call.state.isOverrun = true) :
    other = index := by
  by_contra differ
  rw [CallState.isOverrun_of_isAside (leaves other call found differ)] at overrun
  cases overrun

/-- Only the call that has made the stop can exceed its grace period. -/
theorem Reachable.isOwnedBy_of_isOverrun (h : Reachable setup s) {call : Call}
    (found : s.calls[index]? = some call) (overrun : call.state.isOverrun = true) :
    IsOwnedBy setup s index call.requester := by
  have passed := h.attained.teardownInvariant.calls call (List.mem_of_getElem? found)
  have torn := passed.isTornDown (CallState.hasCancelled_of_isOverrun overrun)
  obtain ⟨leader, owner, owns⟩ := h.exists_isOwnedBy torn.stopped
  obtain ⟨leaves, owned, there, same⟩ := owns.leavesTo
  obtain rfl := leaves.eq_of_isOverrun found overrun
  rw [found] at there
  cases there
  exact same ▸ owns

/-- The first that a teardown publishes is the request, in the name of whoever owns it. -/
theorem IsOwnedBy.request (h : IsOwnedBy setup s index owner) :
    [owner.trigger.event] <+: s.published.filter Event.isTeardown := by
  obtain ⟨u, v, before, announces, later⟩ := h
  rw [← (announces.leaves before).2]
  exact (chain_of_leads later).published.filter _

/-! ## Events -/

/-- The events that a property picks from those of a teardown are all that it picks. -/
theorem filter_filter_isTeardown {p : Event → Bool} (picks : ∀ e, p e = true → e.isTeardown = true)
    (events : List Event) : (events.filter Event.isTeardown).filter p = events.filter p := by
  rw [List.filter_filter]
  refine List.filter_congr fun e _ => ?_
  cases picked : p e with
  | true => rw [picks e picked, Bool.and_self]
  | false => rfl

/-- Of the events of a teardown the first is the request, and the other one is terminal. -/
theorem HasStory.split (h : HasStory s) :
    s.published.filter (·.kind == .shutdownRequested) =
      (s.published.filter Event.isTeardown).take 1 ∧
    s.published.filter Event.isTerminal = (s.published.filter Event.isTeardown).drop 1 ∧
    (s.published.filter Event.isTeardown).length ≤ 2 := by
  have request : ∀ trigger : Trigger, trigger.event.kind = .shutdownRequested := fun _ => rfl
  have lasting : ∀ trigger : Trigger, trigger.event.isTerminal = false := fun _ => rfl
  rw [← filter_filter_isTeardown (p := (·.kind == .shutdownRequested))
      fun e picked => by simp_all [Event.isTeardown],
    ← filter_filter_isTeardown (p := Event.isTerminal)
      fun e picked => by simp_all [Event.isTeardown]]
  rcases h.events with ⟨-, told⟩ | ⟨trigger, -, ⟨-, told⟩ | ⟨e, -, terminal, other, told⟩⟩
  · simp [told]
  · simp [told, request, lasting]
  · simp [told, request, lasting, terminal, other]

/-- A terminal event comes after a request. -/
theorem HasStory.requested (h : HasStory s) {before after : List Event} {e : Event}
    (written : s.published = before ++ e :: after) (terminal : e.isTerminal = true) :
    ∃ r ∈ before, r.kind = .shutdownRequested := by
  have picked : s.published.filter Event.isTeardown =
      before.filter Event.isTeardown ++ e :: after.filter Event.isTeardown := by
    simp [written, Event.isTeardown, terminal]
  have first : ∃ (trigger : Trigger) (rest : List Event),
      s.published.filter Event.isTeardown = trigger.event :: rest := by
    rcases h.events with ⟨-, told⟩ | ⟨trigger, -, ⟨-, told⟩ | ⟨_, -, -, -, told⟩⟩
    · rw [told] at picked
      simp at picked
    · exact ⟨trigger, _, told⟩
    · exact ⟨trigger, _, told⟩
  obtain ⟨trigger, rest, told⟩ := first
  have other : e ≠ trigger.event := by
    rintro rfl
    cases terminal
  have same : before.filter Event.isTeardown ++ e :: after.filter Event.isTeardown =
      [] ++ trigger.event :: rest := picked.symm.trans told
  have there := mem_of_append_eq same List.not_mem_nil other
  exact ⟨trigger.event, (List.mem_filter.mp there).1, rfl⟩

/-! ## Answers -/

/-- A wait comes to its end only after the teardown has. -/
theorem Change.waits_cases {marks : List Mark} (h : Change s marks t) (waited : true ∈ t.waits) :
    true ∈ s.waits ∨ s.done = true := by
  cases h
  case resolveWait done _ => exact .inr done
  case addWait =>
    have appended : true ∈ s.waits ++ [false] := waited
    exact .inl (by simpa using appended)
  all_goals exact .inl waited

theorem Attained.done_of_waited (h : Attained setup s) (waited : true ∈ s.waits) :
    s.done = true := by
  refine h.invariant (P := fun s => true ∈ s.waits → s.done = true) (fun none => by cases none) ?_
    waited
  intro s t marks before inv change waited
  exact change.onward.done ((change.waits_cases waited).elim inv id)

/-- Before an answer comes the terminal event. -/
theorem HasStory.answered (h : HasStory s) {before after : List Mark} {m : Mark}
    (written : s.journal.teardown = before ++ m :: after) (answer : m.isAnswer = true) :
    ∃ e, .published e none ∈ before ∧ e.isTerminal = true := by
  obtain ⟨refusals, story, told, early, stands⟩ := h
  have late : m ∉ refusals := by
    intro member
    rw [Mark.isAnswer_of_isRefusal (early m member)] at answer
    cases answer
  have unpublished : ∀ e, m ≠ .published e none := by
    rintro e rfl
    cases answer
  rw [told] at written
  have member : m ∈ refusals ++ story := written ▸ by simp
  cases stands with
  | quiet => exact absurd (by simpa using member) late
  | underway => simp [late, unpublished] at member
  | @ended _ owner verdict _ e echoes _ _ _ terminal =>
      refine ⟨e, ?_, (Verdict.isTerminal_of_event? terminal).1⟩
      have split : before ++ m :: after = refusals ++ [.published owner.trigger.event none] ++
          .published e none :: .stopResolved owner verdict :: echoes := by
        rw [← written]
        simp
      exact mem_of_append_eq split (by simp [late, unpublished]) (unpublished e)

/-- At most one call has exceeded its grace period, and the journal tells of it once. -/
theorem HasStory.overruns (h : HasStory s) :
    (s.journal.map (·.mark)).filter Mark.isOverrun = [] ∨
    ∃ (index : Nat) (owner : Requester) (error : GraceExceeded) (dropped : Bool),
      s.calls[index]? = some ⟨owner, .resolved (.graceExceeded error), dropped⟩ ∧
      (s.journal.map (·.mark)).filter Mark.isOverrun =
        [.stopResolved owner (.graceExceeded error)] := by
  obtain ⟨refusals, story, told, early, stands⟩ := h
  have picked : (s.journal.map (·.mark)).filter Mark.isOverrun = story.filter Mark.isOverrun := by
    have refused : refusals.filter Mark.isOverrun = [] :=
      List.filter_eq_nil_iff.mpr fun m member => by
        simp [Mark.isOverrun_of_isRefusal (early m member)]
    rw [← List.nil_append (story.filter _), ← refused, ← List.filter_append, ← told,
      Journal.teardown, List.filter_filter]
    congr 1
    funext m
    cases m <;> simp [Mark.isOverrun, Mark.isTeardown]
  rw [picked]
  cases stands with
  | quiet | underway => exact .inl rfl
  | @ended index owner verdict dropped e echoes _ _ found terminal _ heard =>
      have echo : echoes.filter Mark.isOverrun = [] :=
        List.filter_eq_nil_iff.mpr fun m member => by
          simp [Mark.isOverrun_of_isEcho (heard m member)]
      rw [List.filter_append, echo, List.append_nil]
      cases verdict with
      | success => exact .inl rfl
      | graceExceeded error => exact .inr ⟨index, owner, error, dropped, found, rfl⟩
      | notStarted => cases terminal

/-! ## One teardown -/

/-- What is true of teardowns in one state. -/
structure SingleTeardown (setup : Setup) (s : Supervisor) : Prop where
  /-- The stage goes from created to started to stopped, and the stop is the step of a call. -/
  forward : ∀ m t, s.apply m = some t →
    t.stage = s.stage ∨ (s.stage = .created ∧ t.stage = .started) ∨
      ∃ index owner, Announces s index owner t
  owned : s.stage = .stopped → ∃ index owner, IsOwnedBy setup s index owner
  /-- There is one request, and it names the trigger of the call that made the stop. -/
  request : ∀ index owner, IsOwnedBy setup s index owner →
    s.published.filter (·.kind == .shutdownRequested) = [owner.trigger.event]
  unannounced : s.stage ≠ .stopped → ∀ e ∈ s.published, e.kind ≠ .shutdownRequested
  terminal : (s.published.filter Event.isTerminal).length ≤ 1
  order : ∀ before e after, s.published = before ++ e :: after → e.isTerminal = true →
    ∃ r ∈ before, r.kind = .shutdownRequested
  /-- Only the call that made the stop can exceed its grace period. -/
  overrun : ∀ (index : Nat) (call : Call), s.calls[index]? = some call →
    call.state.isOverrun = true → IsOwnedBy setup s index call.requester
  overruns : ∀ (index other : Nat) (call call' : Call), s.calls[index]? = some call →
    s.calls[other]? = some call' → call.state.isOverrun = true → call'.state.isOverrun = true →
    index = other
  /-- The journal tells of a grace period that was too short once at most, and of its call. -/
  toldOverrun : (s.journal.map (·.mark)).filter Mark.isOverrun = [] ∨
    ∃ index owner error, IsOwnedBy setup s index owner ∧
      (s.journal.map (·.mark)).filter Mark.isOverrun =
        [.stopResolved owner (.graceExceeded error)]
  /-- Nobody who has called or waited goes on before the terminal event is published. -/
  answered : ∀ before entry after, s.journal = before ++ entry :: after →
    entry.mark.isAnswer = true → ∃ e ∈ Journal.events before, e.isTerminal = true
  resolved : ∀ call ∈ s.calls, ∀ verdict, call.state = .resolved verdict →
    verdict ≠ .notStarted → ∃ e ∈ s.published, e.isTerminal = true
  waited : true ∈ s.waits → ∃ e ∈ s.published, e.isTerminal = true

/-- Every reachable state has seen one teardown at most, and whoever was told that it is over was
told so after its end. -/
theorem singleTeardown (h : Reachable setup s) : SingleTeardown setup s := by
  have story := h.attained.hasStory
  obtain ⟨requests, terminals, few⟩ := story.split
  refine ⟨fun m t applied => apply_stage applied, h.exists_isOwnedBy, ?_, ?_, ?_,
    fun before e after => story.requested, fun index call => h.isOwnedBy_of_isOverrun, ?_, ?_, ?_,
    ?_, fun waited => h.attained.exists_terminal (h.attained.done_of_waited waited)⟩
  · intro index owner owns
    rw [requests]
    exact (List.prefix_iff_eq_take.mp owns.request).symm
  · intro running e member request
    rcases story.events with ⟨-, told⟩ | ⟨trigger, stopped, -⟩
    · have picked : e ∈ s.published.filter Event.isTeardown :=
        List.mem_filter.mpr ⟨member, by simp [Event.isTeardown, request]⟩
      rw [told] at picked
      cases picked
    · exact running stopped
  · rw [terminals, List.length_drop]
    omega
  · intro index other call call' found found' overrun overrun'
    have owns := h.isOwnedBy_of_isOverrun found' overrun'
    exact owns.leavesTo.1.eq_of_isOverrun found overrun
  · rcases story.overruns with none | ⟨index, owner, error, _, found, told⟩
    · exact .inl none
    · exact .inr ⟨index, owner, error, h.isOwnedBy_of_isOverrun found rfl, told⟩
  · intro before entry after written answer
    have told : s.journal.teardown =
        Journal.teardown before ++ entry.mark :: Journal.teardown after := by
      simp [written, Journal.teardown, Mark.isTeardown_of_isAnswer answer]
    obtain ⟨e, there, terminal⟩ := story.answered told answer
    obtain ⟨published, member, mark⟩ := List.mem_map.mp (List.mem_filter.mp there).1
    exact ⟨e, List.mem_filterMap.mpr ⟨published, member, by rw [mark]; rfl⟩, terminal⟩
  · intro call member verdict state begun
    have passed := h.attained.teardownInvariant.calls call member
    rw [state] at passed
    cases verdict with
    | notStarted => exact absurd rfl begun
    | success | graceExceeded => exact h.attained.exists_terminal passed.2.2

/-- The parent scope ends, a call from outside comes too late for the stop, and the grace period of
one millisecond is too short for the only run. -/
theorem singleTeardown_of_overrun :
    ∃ s, (create { settings := { grace := .ofMillis 1 } }).applyAll
        [.start, .submit { id := "sync", work := some {} }, .progress (.begin 1), .wait,
          .cancelParent, .progress .heedParent, .stop, .progress (.proceed 0),
          .progress (.proceed 1), .progress (.proceed 0), .tick 1, .progress (.proceed 0),
          .progress (.proceed 1), .progress (.resolveWait 0)] = some s ∧
      s.published.filter Event.isTeardown =
        [Trigger.parentCancelled.event, (Event.ofKind .graceExceeded).withReason "sync"] ∧
      s.calls.map (·.state.isOverrun) = [true, false] ∧
      (s.journal.map (·.mark)).countP Mark.isAnswer = 3 ∧ SingleTeardown
        { settings := { grace := .ofMillis 1 } } s := by
  obtain ⟨s, ran, told, overrun, answers⟩ : ∃ s,
      (create { settings := { grace := .ofMillis 1 } }).applyAll
        [.start, .submit { id := "sync", work := some {} }, .progress (.begin 1), .wait,
          .cancelParent, .progress .heedParent, .stop, .progress (.proceed 0),
          .progress (.proceed 1), .progress (.proceed 0), .tick 1, .progress (.proceed 0),
          .progress (.proceed 1), .progress (.resolveWait 0)] = some s ∧
      s.published.filter Event.isTeardown =
        [Trigger.parentCancelled.event, (Event.ofKind .graceExceeded).withReason "sync"] ∧
      s.calls.map (·.state.isOverrun) = [true, false] ∧
      (s.journal.map (·.mark)).countP Mark.isAnswer = 3 := ⟨_, rfl, by decide, rfl, rfl⟩
  exact ⟨s, ran, told, overrun, answers, singleTeardown (reachable_of_applyAll ran)⟩

end Supervisor

end Supervision
