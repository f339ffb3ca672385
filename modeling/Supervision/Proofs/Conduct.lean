import Supervision.Proofs.Stopping

/-!
# How a teardown goes

One call stops the supervisor and carries the teardown out. All other calls leave it to that one and
wait for its end. So the journal tells of a teardown in one order only: the results of calls that
came before the start, the request, the terminal event, the result of the call that carried the
teardown out, and then the results of whoever waited.

Results:
1. `Change.conduct`: what a change does to the calls, and what it tells of the teardown.
2. `Chain.leavesTo`: calls that have left the teardown to another one never take it up.
3. `Attained.hasStory`: the journal tells the story that the calls stand for.
4. `apply_cases`: which moves a change of the calls belongs to.
-/

namespace Supervision

/-- Does an event tell how a teardown goes? -/
def Event.isTeardown (e : Event) : Bool := e.kind == .shutdownRequested || e.isTerminal

namespace Mark

/-- Does a mark tell how a teardown goes? -/
def isTeardown : Mark → Bool
  | .published e _ => e.isTeardown
  | .stopResolved _ _ | .waitResolved _ => true
  | _ => false

/-- Does a mark tell of somebody who has waited for the end of a teardown? -/
def isEcho : Mark → Bool
  | .stopResolved _ .success | .waitResolved _ => true
  | _ => false

/-- Does a mark tell of a call that came before the start? -/
def isRefusal : Mark → Bool
  | .stopResolved _ .notStarted => true
  | _ => false

theorem isTeardown_of_isOrdinary {m : Mark} (h : m.isOrdinary = true) : m.isTeardown = false := by
  cases m with
  | published e run =>
      simp only [isOrdinary, Bool.and_eq_true, bne_iff_ne, Bool.not_eq_true'] at h
      simp [isTeardown, Event.isTeardown, h.1.2, h.2]
  | launched | sent | stopResolved | waitResolved => cases h
  | recorded | invoked | cancelled | released | called | noted => rfl

end Mark

/-- What the journal tells of teardowns. -/
def Journal.teardown (j : Journal) : List Mark := (j.map (·.mark)).filter Mark.isTeardown

/-- The events of a teardown are those that its story tells of. -/
theorem Journal.filter_events (j : Journal) :
    j.events.filter Event.isTeardown = j.teardown.filterMap Mark.event? := by
  have events : j.events = (j.map (·.mark)).filterMap Mark.event? := by
    rw [List.filterMap_map]
    rfl
  rw [events, teardown]
  induction j.map (·.mark) with
  | nil => rfl
  | cons m rest ih =>
      cases m with
      | published e run =>
          cases about : e.isTeardown <;> simp [Mark.event?, Mark.isTeardown, about, ih]
      | stopResolved | waitResolved | recorded | launched | invoked | cancelled | released | called
      | sent | noted => exact ih

theorem Ordinary.teardown {marks : List Mark} (h : Ordinary marks) :
    marks.filter Mark.isTeardown = [] :=
  List.filter_eq_nil_iff.mpr fun m member => by simp [Mark.isTeardown_of_isOrdinary (h m member)]

/-- The event that announces a teardown. -/
def Trigger.event (trigger : Trigger) : Event :=
  (Event.ofKind .shutdownRequested).withReason trigger.name

/-- The terminal event of a teardown that ends in a verdict. -/
def Verdict.event? : Verdict → Option Event
  | .success => some (.ofKind .allStopped)
  | .graceExceeded error =>
      some ((Event.ofKind .graceExceeded).withReason (String.intercalate "," error.stuck))
  | .notStarted => none

theorem Verdict.isTerminal_of_event? {verdict : Verdict} {e : Event}
    (h : verdict.event? = some e) : e.isTerminal = true ∧ e.kind ≠ .shutdownRequested := by
  cases verdict with
  | success | graceExceeded =>
      cases h
      exact ⟨rfl, EventKind.noConfusion⟩
  | notStarted => cases h

namespace CallState

/-- Is the call about to carry the teardown out? -/
def isAtWork : CallState → Bool
  | .announced | .draining _ | .awaitingLoop => true
  | _ => false

/-- Does the call leave the teardown to another one, unless nobody has begun with it? -/
def isAside : CallState → Bool
  | .called | .joining | .resolved .success | .resolved .notStarted => true
  | _ => false

theorem isAtWork_of_isAside {state : CallState} (h : state.isAside = true) :
    state.isAtWork = false := by
  cases state with
  | announced | draining | awaitingLoop => cases h
  | called | joining | resolved => rfl

end CallState

/-- A call that may have been dropped: it waits for something, and the loop has not made it. -/
def Call.MayBeDropped (c : Call) : Prop :=
  c.state.isSuspended = true ∧ ∀ trigger, c.requester ≠ .loop trigger

namespace Supervisor

variable {s t : Supervisor}

/-! ## Calls -/

theorem teardown_writeAll (s : Supervisor) (marks : List Mark) :
    (s.writeAll marks).journal.teardown =
      s.journal.teardown ++ marks.filter Mark.isTeardown := by
  simp [writeAll, Journal.teardown, List.filter_append, Function.comp_def]

theorem getElem?_setCall (s : Supervisor) (index other : Nat) (after : CallState) :
    (s.setCall index after).calls[other]? =
      if other = index then (s.calls[other]?).map fun call => { call with state := after }
      else s.calls[other]? := by
  simp only [setCall, List.getElem?_modify]
  by_cases here : other = index
  · simp [here]
  · have differ : ¬ index = other := fun same => here same.symm
    simp [here, differ]

theorem getElem?_setCall_self {index : Nat} {requester : Requester} {before : CallState}
    {dropped : Bool} (found : s.calls[index]? = some ⟨requester, before, dropped⟩)
    (after : CallState) :
    (s.setCall index after).calls[index]? = some ⟨requester, after, dropped⟩ := by
  rw [getElem?_setCall, if_pos rfl, found]
  rfl

theorem getElem?_setCall_ne {index other : Nat} (differ : other ≠ index) (after : CallState) :
    (s.setCall index after).calls[other]? = s.calls[other]? := by
  rw [getElem?_setCall, if_neg differ]

theorem getElem?_addCall {index : Nat} {call : Call} (found : s.calls[index]? = some call)
    (requester : Requester) : (s.addCall requester).calls[index]? = some call := by
  have bound : index < s.calls.length := (List.getElem?_eq_some_iff.mp found).1
  rwa [addCall, List.getElem?_append_left bound]

/-- A call that is dropped, or another one is, stays in its state. -/
theorem exists_getElem?_withDropped {index : Nat} {requester : Requester} {state : CallState}
    {dropped : Bool} (found : s.calls[index]? = some ⟨requester, state, dropped⟩) (other : Nat) :
    ∃ dropped, (s.withDropped other).calls[index]? = some ⟨requester, state, dropped⟩ := by
  rw [withDropped, List.getElem?_modify, found]
  split <;> exact ⟨_, rfl⟩

theorem getElem?_withDropped_ne {index other : Nat} (differ : other ≠ index) :
    (s.withDropped index).calls[other]? = s.calls[other]? := by
  have differ := differ.symm
  simp [withDropped, differ]

/-- One step of a call: from which state to which, what it tells of the teardown, and the stage and
the end of the teardown after it. -/
inductive CallStep (s : Supervisor) (requester : Requester) :
    CallState → CallState → List Mark → Stage → Bool → Prop
  | refuse (created : s.stage = .created) :
      CallStep s requester .called (.resolved .notStarted) [.stopResolved requester .notStarted]
        s.stage s.done
  | announce (started : s.stage = .started) :
      CallStep s requester .called .announced [.published requester.trigger.event none]
        .stopped s.done
  | join (stopped : s.stage = .stopped) : CallStep s requester .called .joining [] s.stage s.done
  | joined (done : s.done = true) :
      CallStep s requester .joining (.resolved .success) [.stopResolved requester .success]
        s.stage s.done
  | cancelAll : CallStep s requester .announced (.draining s.deadline) [] s.stage s.done
  | drained {deadline : Option Nat} (empty : s.barrierIsEmpty = true) :
      CallStep s requester (.draining deadline) .awaitingLoop [] s.stage s.done
  | giveUp {deadline : Nat} {e : Event} (late : deadline ≤ s.now)
      (terminal : (Verdict.graceExceeded s.overrun).event? = some e) :
      CallStep s requester (.draining (some deadline)) (.resolved (.graceExceeded s.overrun))
        [.published e none, .stopResolved requester (.graceExceeded s.overrun)] s.stage true
  | conclude {e : Event} (exited : s.loop = .exited)
      (terminal : Verdict.success.event? = some e) :
      CallStep s requester .awaitingLoop (.resolved .success)
        [.published e none, .stopResolved requester .success] s.stage true

/-- What a change does to the calls, the stage and the end of the teardown, and what it tells of
the teardown. -/
inductive Conduct (s : Supervisor) (told : List Mark) (t : Supervisor) : Prop
  | aside (calls : t.calls = s.calls)
      (stage : t.stage = s.stage ∨ s.stage = .created ∧ t.stage = .started)
      (done : t.done = s.done) (silent : told = [])
  | ask (requester : Requester) (calls : t.calls = (s.addCall requester).calls)
      (stage : t.stage = s.stage) (done : t.done = s.done) (silent : told = [])
  | step {requester : Requester} {before after : CallState} {index : Nat}
      (found : s.calls[index]? = some ⟨requester, before, false⟩)
      (step : s.CallStep requester before after told t.stage t.done)
      (calls : t.calls = (s.setCall index after).calls)
  | drop {requester : Requester} {state : CallState} {index : Nat}
      (found : s.calls[index]? = some ⟨requester, state, false⟩)
      (outside : ∀ trigger, requester ≠ .loop trigger) (suspended : state.isSuspended = true)
      (calls : t.calls = (s.withDropped index).calls) (stage : t.stage = s.stage)
      (done : t.done = s.done) (silent : told = [])
  | goOn (number : Nat) (calls : t.calls = s.calls) (stage : t.stage = s.stage)
      (past : s.done = true) (done : t.done = s.done) (echo : told = [.waitResolved number])

theorem Change.conduct {marks : List Mark} (h : Change s marks t) :
    Conduct s (marks.filter Mark.isTeardown) t := by
  have ordinary : Ordinary marks → t.calls = s.calls → t.stage = s.stage → t.done = s.done →
      Conduct s (marks.filter Mark.isTeardown) t :=
    fun quiet calls stage done => .aside calls (.inl stage) done quiet.teardown
  cases h
  case remark m remark => exact ordinary (.remark remark) rfl rfl rfl
  case post n _ _ => exact ordinary (.notice n) rfl rfl rfl
  case course step => exact ordinary step.ordinary rfl rfl rfl
  case lineUp ended => exact ordinary ended.ordinary rfl rfl rfl
  case hear => exact ordinary (Effects.AreReports.offerAll _ _).ordinary rfl rfl rfl
  case serve taken => exact ordinary (Effects.AreReports.take taken).ordinary rfl rfl rfl
  case letGo released => exact ordinary (Effects.AreReports.release released).ordinary rfl rfl rfl
  case launch task origin _ _ =>
    refine .aside rfl (.inl rfl) rfl ?_
    unfold launchMarks
    dsimp only
    split <;> rfl
  case observe number rest r _ _ _ =>
    refine .aside rfl (.inl rfl) rfl ?_
    cases r.phase.fault?.join <;> rfl
  case opened created => exact .aside rfl (.inr ⟨created, rfl⟩) rfl rfl
  case heed trigger _ _ _ => exact .ask (.loop trigger) rfl rfl rfl rfl
  case addCall requester _ => exact .ask requester rfl rfl rfl rfl
  case refuse found created => exact .step found (.refuse created) rfl
  case announce found started => exact .step found (.announce started) rfl
  case join found stopped => exact .step found (.join stopped) rfl
  case joined found done => exact .step found (.joined done) rfl
  case cancelAll found => exact .step found .cancelAll rfl
  case drained found empty => exact .step found (.drained empty) rfl
  case giveUp found _ late =>
    obtain ⟨time, rfl, past⟩ := (Option.any_eq_true _ _).mp late
    exact .step found (.giveUp (of_decide_eq_true past) rfl) rfl
  case conclude found exited => exact .step found (.conclude exited rfl) rfl
  case drop found outside suspended => exact .drop found outside suspended rfl rfl rfl rfl
  case resolveWait number done _ => exact .goOn number rfl rfl done rfl rfl
  all_goals exact .aside rfl (.inl rfl) rfl rfl

theorem Conduct.writeAll {told : List Mark} (h : Conduct s told t) (marks : List Mark) :
    Conduct s told (t.writeAll marks) := by
  cases h with
  | aside calls stage done silent => exact .aside calls stage done silent
  | ask requester calls stage done silent => exact .ask requester calls stage done silent
  | step found step calls => exact .step found step calls
  | drop found outside suspended calls stage done silent =>
      exact .drop found outside suspended calls stage done silent
  | goOn number calls stage past done echo => exact .goOn number calls stage past done echo

/-- A call was there before, or it is new, or it has taken a step. -/
theorem Conduct.call_cases {told : List Mark} (h : Conduct s told t) {call : Call}
    (member : call ∈ t.calls) :
    (∃ old ∈ s.calls, old.requester = call.requester ∧ old.state = call.state) ∨
      call.state = .called ∨
      ∃ requester before, ⟨requester, before, false⟩ ∈ s.calls ∧
        s.CallStep requester before call.state told t.stage t.done := by
  cases h with
  | aside calls | goOn _ calls => exact .inl ⟨call, calls ▸ member, rfl, rfl⟩
  | ask _ calls =>
      rw [calls] at member
      rcases List.mem_append.mp member with old | new
      · exact .inl ⟨call, old, rfl, rfl⟩
      · rw [List.mem_singleton.mp new]
        exact .inr (.inl rfl)
  | @step requester before after index found step calls =>
      rw [calls] at member
      rcases mem_setCall member with old | new
      · exact .inl ⟨call, old, rfl, rfl⟩
      · exact .inr (.inr ⟨requester, before, List.mem_of_getElem? found, new ▸ step⟩)
  | drop _ _ _ calls => exact .inl (mem_withDropped (calls ▸ member))

/-! ## Calls that leave the teardown to another one -/

/-- All calls but one leave the teardown to that one. -/
def LeavesTo (s : Supervisor) (index : Nat) : Prop :=
  ∀ other call, s.calls[other]? = some call → other ≠ index → call.state.isAside = true

theorem CallStep.stopped {requester : Requester} {before after : CallState} {told : List Mark}
    {stage : Stage} {done : Bool} (h : s.CallStep requester before after told stage done)
    (stopped : s.stage = .stopped) : stage = .stopped := by
  cases h
  case announce => rfl
  all_goals exact stopped

theorem Conduct.stopped {told : List Mark} (h : Conduct s told t) (stopped : s.stage = .stopped) :
    t.stage = .stopped := by
  cases h with
  | aside _ stage =>
      rcases stage with same | ⟨created, -⟩
      · exact same.trans stopped
      · rw [stopped] at created
        cases created
  | ask _ _ stage | goOn _ _ stage | drop _ _ _ _ stage => exact stage.trans stopped
  | step _ step => exact step.stopped stopped

/-- What a call does that leaves the teardown to another one. -/
theorem CallStep.of_isAside {requester : Requester} {before after : CallState} {told : List Mark}
    {stage : Stage} {done : Bool} (h : s.CallStep requester before after told stage done)
    (stopped : s.stage = .stopped) (aside : before.isAside = true) :
    after.isAside = true ∧ done = s.done ∧ (∀ m ∈ told, m.isEcho = true) ∧
      (s.done = false → told = []) := by
  cases h with
  | refuse created =>
      rw [stopped] at created
      cases created
  | announce started =>
      rw [stopped] at started
      cases started
  | join => exact ⟨rfl, rfl, by simp, fun _ => rfl⟩
  | joined done =>
      refine ⟨rfl, rfl, by simp [Mark.isEcho], fun unfinished => ?_⟩
      rw [unfinished] at done
      cases done
  | cancelAll | drained | giveUp | conclude => cases aside

theorem LeavesTo.ask {index : Nat} (h : s.LeavesTo index) {requester : Requester}
    (calls : t.calls = (s.addCall requester).calls) : t.LeavesTo index := by
  intro other call found differ
  rw [calls, addCall, List.getElem?_append] at found
  split at found
  · exact h other call found differ
  · rw [List.mem_singleton.mp (List.mem_of_getElem? found)]
    rfl

theorem LeavesTo.set {index changed : Nat} (h : s.LeavesTo index) {after : CallState}
    (calls : t.calls = (s.setCall changed after).calls)
    (aside : changed ≠ index → after.isAside = true) : t.LeavesTo index := by
  intro other call found differ
  rw [calls, getElem?_setCall] at found
  split at found
  · next here =>
      obtain ⟨before, -, rfl⟩ := Option.map_eq_some_iff.mp found
      exact aside (here ▸ differ)
  · exact h other call found differ

theorem LeavesTo.drop {index changed : Nat} (h : s.LeavesTo index)
    (calls : t.calls = (s.withDropped changed).calls) : t.LeavesTo index := by
  intro other call found differ
  rw [calls, withDropped, List.getElem?_modify] at found
  obtain ⟨before, known, rfl⟩ := Option.map_eq_some_iff.mp found
  have aside := h other before known differ
  split <;> exact aside

theorem Conduct.leavesTo {told : List Mark} {index : Nat} (h : Conduct s told t)
    (stopped : s.stage = .stopped) (leaves : s.LeavesTo index) : t.LeavesTo index := by
  cases h with
  | aside calls | goOn _ calls => simpa only [LeavesTo, calls] using leaves
  | ask _ calls => exact leaves.ask calls
  | drop _ _ _ calls => exact leaves.drop calls
  | step found step calls =>
      exact leaves.set calls fun differ =>
        (step.of_isAside stopped (leaves _ _ found differ)).1

/-- Whoever has left the teardown to another call does so for good. -/
theorem Chain.leavesTo {index : Nat} (h : Chain s t) (stopped : s.stage = .stopped)
    (leaves : s.LeavesTo index) : t.stage = .stopped ∧ t.LeavesTo index := by
  induction h with
  | refl => exact ⟨stopped, leaves⟩
  | tail _ advances ih =>
      obtain ⟨marks, u, change, rfl⟩ := advances
      exact ⟨change.conduct.stopped ih.1, change.conduct.leavesTo ih.1 ih.2⟩

/-- A call stays where it is, and so does whoever has made it. -/
theorem Conduct.exists_call {told : List Mark} (h : Conduct s told t) {index : Nat} {call : Call}
    (found : s.calls[index]? = some call) :
    ∃ later, t.calls[index]? = some later ∧ later.requester = call.requester := by
  cases h with
  | aside calls | goOn _ calls => exact ⟨call, calls ▸ found, rfl⟩
  | ask _ calls => exact ⟨call, calls ▸ getElem?_addCall found _, rfl⟩
  | step _ _ calls =>
      rw [calls, getElem?_setCall, found]
      split
      · exact ⟨_, rfl, rfl⟩
      · exact ⟨call, rfl, rfl⟩
  | @drop _ _ other _ _ _ calls =>
      obtain ⟨_, kept⟩ := exists_getElem?_withDropped found other
      rw [calls]
      exact ⟨_, kept, rfl⟩

theorem Chain.exists_call (h : Chain s t) {index : Nat} {call : Call}
    (found : s.calls[index]? = some call) :
    ∃ later, t.calls[index]? = some later ∧ later.requester = call.requester := by
  induction h with
  | refl => exact ⟨call, found, rfl⟩
  | tail _ advances ih =>
      obtain ⟨marks, u, change, rfl⟩ := advances
      obtain ⟨_, there, same⟩ := ih
      obtain ⟨later, after, still⟩ := change.conduct.exists_call there
      exact ⟨later, after, still.trans same⟩

theorem Conduct.mayBeDropped {told : List Mark} (h : Conduct s told t)
    (inv : ∀ (k : Nat) (call : Call), s.calls[k]? = some call → call.dropped = true →
      call.MayBeDropped) {index : Nat} {call : Call} (found : t.calls[index]? = some call)
    (dropped : call.dropped = true) : call.MayBeDropped := by
  cases h with
  | aside calls | goOn _ calls => exact inv index call (calls ▸ found) dropped
  | ask _ calls =>
      rw [calls] at found
      rcases List.mem_append.mp (List.mem_of_getElem? found) with old | new
      · obtain ⟨k, there⟩ := List.mem_iff_getElem?.mp old
        exact inv k call there dropped
      · rw [List.mem_singleton.mp new] at dropped
        cases dropped
  | @step _ _ _ changed known _ calls =>
      by_cases here : index = changed
      · subst here
        rw [calls, getElem?_setCall_self known] at found
        cases found
        cases dropped
      · rw [calls, getElem?_setCall_ne here] at found
        exact inv index call found dropped
  | @drop _ _ changed known outside suspended calls =>
      rw [calls] at found
      by_cases here : index = changed
      · subst here
        rw [withDropped, List.getElem?_modify, known] at found
        split at found
        · cases found
          exact ⟨suspended, outside⟩
        · next other => exact absurd rfl other
      · rw [getElem?_withDropped_ne here] at found
        exact inv index call found dropped

theorem Attained.mayBeDropped {setup : Setup} (h : Attained setup s) {index : Nat} {call : Call}
    (found : s.calls[index]? = some call) (dropped : call.dropped = true) :
    call.MayBeDropped := by
  refine h.invariant (P := fun s => ∀ (k : Nat) (call : Call), s.calls[k]? = some call →
    call.dropped = true → call.MayBeDropped) (fun _ _ none => by cases none) ?_
    index call found dropped
  intro s t marks _ inv change index call found dropped
  exact change.conduct.mayBeDropped inv found dropped

/-- A call that has its result has not been dropped. -/
theorem Attained.getElem?_of_resolved {setup : Setup} (h : Attained setup s) {index : Nat}
    {requester : Requester} {verdict : Verdict} {dropped : Bool}
    (found : s.calls[index]? = some ⟨requester, .resolved verdict, dropped⟩) :
    s.calls[index]? = some ⟨requester, .resolved verdict, false⟩ := by
  cases dropped with
  | false => exact found
  | true => cases (h.mayBeDropped found rfl).1

/-! ## The story of a teardown -/

/-- What the journal tells of a teardown, but for the calls that came before the start, and how the
calls stand then. -/
inductive Story (s : Supervisor) : List Mark → Prop
  /-- Nobody has announced a teardown. -/
  | quiet (stage : s.stage ≠ .stopped) (unfinished : s.done = false)
      (calls : ∀ call ∈ s.calls, call.state = .called ∨ call.state = .resolved .notStarted) :
      Story s []
  /-- A call carries the teardown out. -/
  | underway {index : Nat} {owner : Requester} {state : CallState} {dropped : Bool}
      (stopped : s.stage = .stopped) (unfinished : s.done = false)
      (found : s.calls[index]? = some ⟨owner, state, dropped⟩)
      (busy : state.isAtWork = true) (others : s.LeavesTo index) :
      Story s [.published owner.trigger.event none]
  /-- The teardown has come to its end. -/
  | ended {index : Nat} {owner : Requester} {verdict : Verdict} {dropped : Bool} {e : Event}
      {echoes : List Mark} (stopped : s.stage = .stopped) (done : s.done = true)
      (found : s.calls[index]? = some ⟨owner, .resolved verdict, dropped⟩)
      (terminal : verdict.event? = some e) (others : s.LeavesTo index)
      (heard : ∀ m ∈ echoes, m.isEcho = true) :
      Story s ([.published owner.trigger.event none, .published e none,
        .stopResolved owner verdict] ++ echoes)

/-- The journal tells of calls that came before the start, and then the story of a teardown. -/
def HasStory (s : Supervisor) : Prop :=
  ∃ refusals story, s.journal.teardown = refusals ++ story ∧
    (∀ m ∈ refusals, m.isRefusal = true) ∧ s.Story story

section Telling

variable {told : List Mark}

/-- Before a teardown is announced calls are refused, or one announces it. -/
theorem Conduct.story_of_quiet (h : Conduct s told t) (stage : s.stage ≠ .stopped)
    (unfinished : s.done = false)
    (calls : ∀ call ∈ s.calls, call.state = .called ∨ call.state = .resolved .notStarted) :
    ((∀ m ∈ told, m.isRefusal = true) ∧ t.Story []) ∨ t.Story told := by
  cases h with
  | aside calls' stage' done silent =>
      subst silent
      refine .inr (.quiet ?_ (done.trans unfinished) (by rwa [calls']))
      rcases stage' with same | ⟨-, started⟩
      · rwa [same]
      · simp [started]
  | ask requester calls' stage' done silent =>
      subst silent
      refine .inr (.quiet (by rwa [stage']) (done.trans unfinished) fun call member => ?_)
      rw [calls'] at member
      rcases List.mem_append.mp member with old | new
      · exact calls call old
      · rw [List.mem_singleton.mp new]
        exact .inl rfl
  | goOn number _ _ past =>
      rw [unfinished] at past
      cases past
  | drop _ _ _ calls' stage' done silent =>
      subst silent
      refine .inr (.quiet (by rwa [stage']) (done.trans unfinished) fun call member => ?_)
      obtain ⟨old, there, -, same⟩ := mem_withDropped (calls' ▸ member)
      exact same ▸ calls old there
  | @step requester before after index found step calls' =>
      have known := calls _ (List.mem_of_getElem? found)
      -- a call that has got further than to be called was refused, and stays so
      generalize stage' : t.stage = later at step
      generalize done' : t.done = ended at step
      cases step with
      | refuse =>
          refine .inl ⟨by simp [Mark.isRefusal],
            .quiet (by rwa [stage']) (done'.trans unfinished) fun call member => ?_⟩
          rw [calls'] at member
          rcases mem_setCall member with old | new
          · exact calls call old
          · exact .inr new
      | announce =>
          refine .inr (.underway stage' (done'.trans unfinished)
            (by rw [calls']; exact getElem?_setCall_self found .announced) rfl ?_)
          refine LeavesTo.set (s := s) (fun other call there _ => ?_) calls' fun differ => ?_
          · rcases calls call (List.mem_of_getElem? there) with state | state <;> rw [state] <;> rfl
          · exact absurd rfl differ
      | join stopped => exact absurd stopped stage
      | joined | cancelAll | drained | giveUp | conclude => simp at known

/-- A teardown that is underway goes on, or its call brings it to its end. -/
theorem Conduct.story_of_underway (h : Conduct s told t) {index : Nat} {owner : Requester}
    {state : CallState} {dropped : Bool} (stopped : s.stage = .stopped)
    (unfinished : s.done = false) (found : s.calls[index]? = some ⟨owner, state, dropped⟩)
    (busy : state.isAtWork = true)
    (others : s.LeavesTo index) : t.Story ([.published owner.trigger.event none] ++ told) := by
  have still := h.stopped stopped
  have leaves := h.leavesTo stopped others
  cases h with
  | aside calls _ done silent =>
      subst silent
      exact .underway still (done.trans unfinished) (calls ▸ found) busy leaves
  | ask requester calls _ done silent =>
      subst silent
      exact .underway still (done.trans unfinished) (calls ▸ getElem?_addCall found _) busy leaves
  | goOn number _ _ past =>
      rw [unfinished] at past
      cases past
  | @drop _ _ other _ _ _ calls _ done silent =>
      subst silent
      obtain ⟨_, kept⟩ := exists_getElem?_withDropped found other
      exact .underway still (done.trans unfinished) (calls ▸ kept) busy leaves
  | @step requester before after changed known step calls =>
      generalize t.stage = stage at step
      generalize done : t.done = last at step
      by_cases here : changed = index
      · subst here
        rw [found, Option.some.injEq, Call.mk.injEq] at known
        obtain ⟨rfl, rfl, rfl⟩ := known
        have moved := calls ▸ getElem?_setCall_self found after
        cases step with
        | cancelAll | drained => exact .underway still (done.trans unfinished) moved rfl leaves
        | giveUp _ terminal | conclude _ terminal =>
            exact .ended still done moved terminal leaves (by simp)
        | refuse | announce | join | joined => cases busy
      · obtain ⟨-, same, -, silent⟩ := step.of_isAside stopped (others _ _ known here)
        have kept := (getElem?_setCall_ne (Ne.symm here) after).trans found
        rw [silent unfinished]
        exact .underway still (done.trans (same.trans unfinished)) (calls ▸ kept) busy leaves

/-- After the end of a teardown nothing is told but of those who have waited for it. -/
theorem Conduct.story_of_ended (h : Conduct s told t) {index : Nat} {owner : Requester}
    {verdict : Verdict} {dropped : Bool} {e : Event} {echoes : List Mark}
    (stopped : s.stage = .stopped) (done : s.done = true)
    (found : s.calls[index]? = some ⟨owner, .resolved verdict, dropped⟩)
    (terminal : verdict.event? = some e) (others : s.LeavesTo index)
    (heard : ∀ m ∈ echoes, m.isEcho = true) :
    t.Story ([.published owner.trigger.event none, .published e none,
      .stopResolved owner verdict] ++ (echoes ++ told)) := by
  have still := h.stopped stopped
  have leaves := h.leavesTo stopped others
  have heardAll : (∀ m ∈ told, m.isEcho = true) → ∀ m ∈ echoes ++ told, m.isEcho = true :=
    fun echo m member => (List.mem_append.mp member).elim (heard m) (echo m)
  cases h with
  | aside calls _ same silent =>
      exact .ended still (same.trans done) (calls ▸ found) terminal leaves
        (heardAll (by simp [silent]))
  | ask requester calls _ same silent =>
      exact .ended still (same.trans done) (calls ▸ getElem?_addCall found _) terminal leaves
        (heardAll (by simp [silent]))
  | goOn number calls _ _ same echo =>
      exact .ended still (same.trans done) (calls ▸ found) terminal leaves
        (heardAll (by simp [echo, Mark.isEcho]))
  | @drop _ _ other _ _ _ calls _ same silent =>
      obtain ⟨_, kept⟩ := exists_getElem?_withDropped found other
      exact .ended still (same.trans done) (calls ▸ kept) terminal leaves
        (heardAll (by simp [silent]))
  | @step requester before after changed known step calls =>
      generalize t.stage = stage at step
      generalize ended : t.done = last at step
      by_cases here : changed = index
      · -- a call that has its result takes no more steps
        subst here
        rw [found, Option.some.injEq, Call.mk.injEq] at known
        obtain ⟨rfl, rfl, rfl⟩ := known
        cases step
      · obtain ⟨-, same, echo, -⟩ := step.of_isAside stopped (others _ _ known here)
        have kept := (getElem?_setCall_ne (Ne.symm here) after).trans found
        exact .ended still (ended.trans (same.trans done)) (calls ▸ kept) terminal leaves
          (heardAll echo)

end Telling

theorem HasStory.create (setup : Setup) : HasStory (create setup) := by
  refine ⟨[], [], rfl, by simp, .quiet ?_ rfl ?_⟩
  · exact Stage.noConfusion
  · intro call member
    cases member

theorem Change.hasStory {marks : List Mark} (h : Change s marks t) (inv : HasStory s) :
    HasStory (t.writeAll marks) := by
  obtain ⟨refusals, story, written, early, stands⟩ := inv
  have conduct : Conduct s (marks.filter Mark.isTeardown) (t.writeAll marks) :=
    h.conduct.writeAll marks
  have continued : (t.writeAll marks).journal.teardown =
      refusals ++ story ++ marks.filter Mark.isTeardown := by
    rw [teardown_writeAll, h.journal_eq, written]
  generalize marks.filter Mark.isTeardown = told at conduct continued
  cases stands with
  | quiet stage unfinished calls =>
      rw [List.append_nil] at continued
      rcases conduct.story_of_quiet stage unfinished calls with ⟨refused, stands⟩ | stands
      · refine ⟨refusals ++ told, [], by rw [continued, List.append_nil], ?_, stands⟩
        intro m member
        rcases List.mem_append.mp member with old | new
        · exact early m old
        · exact refused m new
      · exact ⟨refusals, told, continued, early, stands⟩
  | underway stopped unfinished found busy others =>
      rw [List.append_assoc] at continued
      exact ⟨refusals, _, continued, early,
        conduct.story_of_underway stopped unfinished found busy others⟩
  | ended stopped done found terminal others heard =>
      rw [List.append_assoc, List.append_assoc] at continued
      exact ⟨refusals, _, continued, early,
        conduct.story_of_ended stopped done found terminal others heard⟩

theorem Attained.hasStory {setup : Setup} (h : Attained setup s) : HasStory s :=
  h.invariant (.create setup) fun _ inv change => change.hasStory inv

/-! ## The events of a teardown -/

/-- Neither calls that came too early nor those who have waited publish anything. -/
theorem filterMap_event?_eq_nil {marks : List Mark} {p : Mark → Bool}
    (silent : ∀ e run, p (.published e run) = false) (picked : ∀ m ∈ marks, p m = true) :
    marks.filterMap Mark.event? = [] := by
  refine List.filterMap_eq_nil_iff.mpr fun m member => ?_
  cases m with
  | published e run =>
      have no := picked _ member
      rw [silent] at no
      cases no
  | _ => rfl

theorem filter_published {refusals story : List Mark}
    (written : s.journal.teardown = refusals ++ story)
    (early : ∀ m ∈ refusals, m.isRefusal = true) :
    s.published.filter Event.isTeardown = story.filterMap Mark.event? := by
  rw [published, Journal.filter_events, written, List.filterMap_append,
    filterMap_event?_eq_nil (fun _ _ => rfl) early, List.nil_append]

/-- A request is all that a teardown has published as long as it is underway, and its terminal
event comes next. -/
theorem HasStory.events (h : HasStory s) :
    (s.stage ≠ .stopped ∧ s.published.filter Event.isTeardown = []) ∨
    ∃ trigger : Trigger, s.stage = .stopped ∧
      ((s.done = false ∧ s.published.filter Event.isTeardown = [trigger.event]) ∨
        ∃ e, s.done = true ∧ e.isTerminal = true ∧ e.kind ≠ .shutdownRequested ∧
          s.published.filter Event.isTeardown = [trigger.event, e]) := by
  obtain ⟨refusals, story, written, early, stands⟩ := h
  have told := filter_published written early
  cases stands with
  | quiet stage => exact .inl ⟨stage, told⟩
  | @underway _ owner _ _ stopped unfinished =>
      exact .inr ⟨owner.trigger, stopped, .inl ⟨unfinished, told⟩⟩
  | @ended _ owner _ _ e _ stopped done _ terminal _ heard =>
      obtain ⟨ends, other⟩ := Verdict.isTerminal_of_event? terminal
      refine .inr ⟨owner.trigger, stopped, .inr ⟨e, done, ends, other, ?_⟩⟩
      rw [told, List.filterMap_append, filterMap_event?_eq_nil (fun _ _ => rfl) heard,
        List.append_nil]
      rfl

/-- Only a stopped supervisor has told of a teardown. -/
theorem HasStory.stopped_of_told (h : HasStory s) {e : Event} (told : e ∈ s.published)
    (about : e.isTeardown = true) : s.stage = .stopped := by
  rcases h.events with ⟨-, none⟩ | ⟨_, stopped, -⟩
  · have picked : e ∈ s.published.filter Event.isTeardown := List.mem_filter.mpr ⟨told, about⟩
    rw [none] at picked
    cases picked
  · exact stopped

/-- Only a teardown that is over has told of its end. -/
theorem HasStory.done_of_terminal (h : HasStory s) {e : Event} (told : e ∈ s.published)
    (terminal : e.isTerminal = true) : s.done = true := by
  have picked : e ∈ s.published.filter Event.isTeardown :=
    List.mem_filter.mpr ⟨told, by simp [Event.isTeardown, terminal]⟩
  rcases h.events with ⟨-, none⟩ | ⟨trigger, -, ⟨-, one⟩ | ⟨_, done, -⟩⟩
  · rw [none] at picked
    cases picked
  · rw [one, List.mem_singleton] at picked
    rw [picked] at terminal
    cases terminal
  · exact done

/-- A terminal event is published when the teardown is over. -/
theorem Attained.exists_terminal {setup : Setup} (h : Attained setup s) (done : s.done = true) :
    ∃ e ∈ s.published, e.isTerminal = true := by
  have inv := h.teardownInvariant
  have stopped := (inv.closed (inv.done done)).stopped
  rcases h.hasStory.events with
    ⟨stage, -⟩ | ⟨trigger, -, ⟨unfinished, -⟩ | ⟨e, -, terminal, -, told⟩⟩
  · exact absurd stopped stage
  · rw [done] at unfinished
    cases unfinished
  · have member : e ∈ s.published.filter Event.isTeardown := by simp [told]
    exact ⟨e, (List.mem_filter.mp member).1, terminal⟩

/-! ## Moves -/

/-- The calls, the stage and the end of the teardown are the same in both states. -/
structure SameConduct (s t : Supervisor) : Prop where
  calls : t.calls = s.calls
  stage : t.stage = s.stage
  done : t.done = s.done

namespace SameConduct

theorem submit (s : Supervisor) (task : Task) (origin : Option Nat) :
    SameConduct s (s.submit task origin) := by
  unfold Supervisor.submit
  split
  · exact ⟨rfl, rfl, rfl⟩
  · rw [launch_eq]
    exact ⟨rfl, rfl, rfl⟩
  · exact ⟨rfl, rfl, rfl⟩

theorem foldl_launch (tasks : List Task) (s : Supervisor) :
    SameConduct s (tasks.foldl (fun s task => s.launch task none) s) := by
  induction tasks generalizing s with
  | nil => exact ⟨rfl, rfl, rfl⟩
  | cons task rest ih =>
      have later := ih (s.launch task none)
      have launched := launch_eq s task none
      exact ⟨later.calls.trans (by rw [launched]; rfl), later.stage.trans (by rw [launched]; rfl),
        later.done.trans (by rw [launched]; rfl)⟩

theorem leave {number : Nat} {panic : Option Payload} (h : s.leave number panic = some t) :
    SameConduct s t := by
  obtain ⟨r, scope, fault, found, phase, ready⟩ := exists_calling h
  rw [leave_eq found phase ready, Option.some.injEq] at h
  subst h
  cases scope with
  | own => exact afterCallback_own s number fault ▸ ⟨rfl, rfl, rfl⟩
  | global => exact afterCallback_global s number fault ▸ ⟨rfl, rfl, rfl⟩

end SameConduct

/-- A move is one change, or it does not concern the teardown, or it is the start. -/
theorem apply_cases {m : Move} (h : s.apply m = some t) :
    Advances s t ∨ SameConduct s t ∨
      (s.stage = .created ∧ SameConduct { s with stage := .started } t) := by
  cases compound : m.isCompound with
  | false => exact .inl (apply_advances compound h)
  | true => cases apply_compound compound h with
    | idle prepared =>
        obtain ⟨_, _, _, rfl⟩ := prepared
        exact .inr (.inl ⟨rfl, rfl, rfl⟩)
    | submit prepared task origin submitted =>
        obtain ⟨delays, streaks, journal, rfl⟩ := prepared
        subst submitted
        have same := SameConduct.submit { s with delays, streaks, journal } task origin
        exact .inr (.inl ⟨same.calls, same.stage, same.done⟩)
    | start created started =>
        rw [start, created] at started
        cases started
        have same := SameConduct.foldl_launch s.pending
          (({ s with stage := .started, loop := .running, pending := []
                     listener := s.openListener } : Supervisor).record (.started s.pending.length))
        exact .inr (.inr ⟨created, same.calls, same.stage, same.done⟩)
    | leave left =>
        have same := SameConduct.leave left
        exact .inr (.inl ⟨same.calls, same.stage, same.done⟩)

end Supervisor

end Supervision
