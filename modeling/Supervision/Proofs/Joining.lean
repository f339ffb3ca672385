import Supervision.Proofs.Conduct
import Supervision.Proofs.Courses
import Supervision.Proofs.Draining

/-!
# All are joined before `AllStopped`

The call that carries the teardown out publishes `AllStopped` when the loop has exited. By then
nobody holds a sender of the outcome queue, so all runs are finished and the queue is empty: every
run has passed all stations of its course. It has waited for the delays before that. Afterwards
the subscribers may still have events to handle, and somebody who submitted a task before the start
may still have a notice to post. Nobody else is left who could publish anything.

Results:
1. `Attained.barrierIsEmpty`: the barrier is empty once the queue is closed for the loop to exit.
2. `apply_allStopped`, `apply_graceExceeded`: which step publishes a terminal event.
3. `Chain.unposted`: after the loop has exited and the teardown is over, nothing but reports of
   subscribers and notices that were still to be posted is published.
4. `joined`: what is true when `AllStopped` is published, and of whatever comes later.
5. `taskQueued_after_allStopped`: `AllStopped` need not be the last word about the tasks.
-/

namespace Supervision

/-! ## Notices -/

theorem Notice.events_marks (n : Notice) : n.marks.filterMap Mark.event? = [n.event] := rfl

@[simp] theorem Notice.isTeardown_event (n : Notice) : n.event.isTeardown = false := by
  unfold Notice.event
  split <;> rfl

@[simp] theorem Notice.isReport_event (n : Notice) : n.event.isReport = false := by
  unfold Notice.event
  split <;> rfl

namespace Supervisor

variable {setup : Setup} {s t u : Supervisor}

/-! ## The barrier -/

/-- A call that waits for the loop did so before, or the barrier was empty for it. -/
theorem Conduct.awaitingLoop {told : List Mark} (h : Conduct s told t) {call : Call}
    (member : call ∈ t.calls) (awaits : call.state = .awaitingLoop) :
    (∃ old ∈ s.calls, old.state = .awaitingLoop) ∨ (s.barrierIsEmpty = true ∧
      ∃ requester deadline, ⟨requester, .draining deadline, false⟩ ∈ s.calls) := by
  rcases h.call_cases member with ⟨old, there, -, same⟩ | new | ⟨requester, before, found, step⟩
  · exact .inl ⟨old, there, same.trans awaits⟩
  · rw [awaits] at new
    cases new
  · rw [awaits] at step
    generalize t.stage = stage at step
    generalize t.done = done at step
    cases step with
    | drained empty => exact .inr ⟨empty, _, _, found⟩

/-- The barrier is empty once a call waits for the loop. -/
theorem Attained.barrierIsEmpty (h : Attained setup s) {call : Call} (member : call ∈ s.calls)
    (awaits : call.state = .awaitingLoop) : s.barrierIsEmpty = true := by
  refine h.invariant
    (P := fun s => ∀ call ∈ s.calls, call.state = .awaitingLoop → s.barrierIsEmpty = true)
    (fun _ member => by cases member) ?_ call member awaits
  intro s t marks before inv change call member awaits
  have passed := before.teardownInvariant.calls
  rcases change.conduct.awaitingLoop member awaits with
    ⟨old, there, waited⟩ | ⟨empty, requester, deadline, waits⟩
  · have torn : s.IsTornDown ∧ s.senderOpen = false := by
      have passed := passed old there
      rwa [waited] at passed
    exact change.barrierIsEmpty before torn.1.stopped (inv old there waited)
  · have torn : s.IsTornDown := passed _ waits
    exact change.barrierIsEmpty before torn.stopped empty

/-! ## Where events come from -/

/-- The call that carries the teardown out has waited for the loop, and ends. -/
structure Concludes (s : Supervisor) (index : Nat) (owner : Requester) (t : Supervisor) :
    Prop where
  exited : s.loop = .exited
  awaiting : s.calls[index]? = some ⟨owner, .awaitingLoop, false⟩
  after : t = s.conclude index owner

/-- The call that carries the teardown out has waited for the runs until its deadline, and ends. -/
structure GivesUp (s : Supervisor) (index : Nat) (owner : Requester) (t : Supervisor) : Prop where
  busy : s.barrierIsEmpty = false
  late : ∃ deadline,
    s.calls[index]? = some ⟨owner, .draining (some deadline), false⟩ ∧ deadline ≤ s.now
  after : t = s.giveUp index owner

/-- What has to be the case in `s` for an event of a kind to be published on the way to `t`, if that
does not post a notice. -/
inductive Source (s t : Supervisor) : EventKind → Prop
  | replaced (started : s.stage = .started) : Source s t .taskReplaced
  | run {kind : EventKind} {n : Nat} {r : Run} (found : s.run? n = some r)
      (busy : r.phase.isFinished = false)
      (own : kind = .taskStarting ∨ kind = .taskStopped ∨ kind = .taskFailed) : Source s t kind
  | outcome (running : s.loop = .running) : Source s t .outcomeObserved
  | request (started : s.stage = .started) : Source s t .shutdownRequested
  | overrun {index : Nat} {owner : Requester} (givesUp : GivesUp s index owner t) :
      Source s t .graceExceeded
  | conclude {index : Nat} {owner : Requester} (concludes : Concludes s index owner t) :
      Source s t .allStopped
  | report {kind : EventKind} (own : kind = .subscriberOverflow ∨ kind = .subscriberPanicked) :
      Source s t kind

theorem Source.effects {effects : Effects} (h : effects.AreReports) {e : Event}
    (told : e ∈ effects.marks.filterMap Mark.event?) : Source s t e.kind := by
  refine .report (h e ?_)
  obtain ⟨m, member, event⟩ := List.mem_filterMap.mp told
  rcases List.mem_append.mp member with there | there
  · obtain ⟨r, -, rfl⟩ := List.mem_map.mp there
    cases event
  · obtain ⟨e', known, rfl⟩ := List.mem_map.mp there
    cases event
    exact known

theorem CourseStep.source {number : Nat} {r : Run} {marks : List Mark} {phase : Phase}
    (h : s.CourseStep number r marks phase) (found : s.run? number = some r) {e : Event}
    (told : e ∈ marks.filterMap Mark.event?) : Source s t e.kind := by
  refine .run found h.away.1.2 ?_
  cases h with
  | begin | beginIdle =>
      rw [List.mem_singleton.mp told]
      exact .inl rfl
  | @report fault _ =>
      rw [List.mem_singleton.mp told]
      cases fault with
      | none => exact .inr (.inl rfl)
      | some _ => exact .inr (.inr rfl)
  | leave panic => cases panic <;> cases told
  | finish | call | pass => cases told

/-- A notice that was still to be posted is posted. -/
structure Posts (s : Supervisor) (marks : List Mark) (t : Supervisor) (index : Nat) (n : Notice) :
    Prop where
  found : s.notices[index]? = some n
  unposted : n.posted = false
  told : marks = n.marks
  after : t = s.withPosted index

/-- Every event that a change publishes comes from somewhere. -/
theorem Change.posts_or_source {marks : List Mark} (h : Change s marks t) :
    (∃ index n, Posts s marks t index n) ∨
      ((s.stage = .created ∨ t.notices = s.notices) ∧
        ∀ e ∈ marks.filterMap Mark.event?, Source s (t.writeAll marks) e.kind) := by
  have quiet : ∀ e ∈ ([] : List Mark).filterMap Mark.event?, Source s (t.writeAll []) e.kind :=
    fun _ none => by cases none
  cases h
  case remark m remark =>
    refine .inr ⟨.inr rfl, fun e told => ?_⟩
    cases m with
    | published => cases remark
    | _ => cases told
  case enqueue task created => exact .inr ⟨.inl created, quiet⟩
  case post index n found unposted => exact .inl ⟨index, n, found, unposted, rfl, rfl⟩
  case launch task origin started _ =>
    refine .inr ⟨.inr rfl, fun e told => ?_⟩
    unfold launchMarks at told
    dsimp only at told
    split at told
    · cases told
    · rw [List.mem_singleton.mp told]
      exact .replaced started
  case course found step => exact .inr ⟨.inr rfl, fun e told => step.source found told⟩
  case lineUp ended =>
    refine .inr ⟨.inr rfl, fun e told => ?_⟩
    cases ended with
    | pass => cases told
    | leave panic => cases panic <;> cases told
  case observe r running _ _ =>
    refine .inr ⟨.inr rfl, fun e told => ?_⟩
    rw [List.mem_singleton.mp told, outcomeEvent_eq]
    exact .outcome running
  case announce started =>
    refine .inr ⟨.inr rfl, fun e told => ?_⟩
    rw [List.mem_singleton.mp told]
    exact .request started
  case giveUp index requester deadline found busy late =>
    refine .inr ⟨.inr rfl, fun e told => ?_⟩
    obtain ⟨time, rfl, past⟩ := (Option.any_eq_true _ _).mp late
    rw [List.mem_singleton.mp told]
    exact .overrun
      ⟨busy, ⟨time, found, of_decide_eq_true past⟩, (giveUp_eq s index requester).symm⟩
  case conclude index requester found exited =>
    refine .inr ⟨.inr rfl, fun e told => ?_⟩
    rw [List.mem_singleton.mp told]
    exact .conclude ⟨exited, found, (conclude_eq s index requester).symm⟩
  case hear => exact .inr ⟨.inr rfl, fun e told => .effects (Effects.AreReports.offerAll _ _) told⟩
  case serve taken =>
    exact .inr ⟨.inr rfl, fun e told => .effects (Effects.AreReports.take taken) told⟩
  case letGo released =>
    exact .inr ⟨.inr rfl, fun e told => .effects (Effects.AreReports.release released) told⟩
  case send | discard | release | cancelRun | heed | exitLoop | cancelAll | lag | resolveWait |
      refuse | joined => exact .inr ⟨.inr rfl, fun _ none => by cases none⟩
  all_goals exact .inr ⟨.inr rfl, quiet⟩

/-- What a change tells of the teardown comes from somewhere. -/
theorem Change.source {marks : List Mark} (h : Change s marks t) {e : Event}
    (told : e ∈ marks.filterMap Mark.event?) (teardown : e.isTeardown = true) :
    Source s (t.writeAll marks) e.kind := by
  rcases h.posts_or_source with ⟨index, n, posts⟩ | ⟨-, source⟩
  · rw [posts.told] at told
    rw [List.mem_singleton.mp told, n.isTeardown_event] at teardown
    cases teardown
  · exact source e told

/-! ## Finality -/

/-- As long as the stage and the end of the teardown stay, nothing is told of the teardown. -/
theorem HasStory.silent (before : HasStory s) (after : HasStory t)
    (stage : t.stage = .stopped ↔ s.stage = .stopped) (done : t.done = s.done)
    {events : List Event} (told : t.published = s.published ++ events) :
    ∀ e ∈ events, e.isTeardown = false := by
  have count : ∀ {u : Supervisor}, HasStory u → (u.published.filter Event.isTeardown).length =
      if u.stage = .stopped then if u.done then 2 else 1 else 0 := by
    intro u story
    rcases story.events with ⟨stage, none⟩ | ⟨_, stopped, ⟨unfinished, one⟩ | ⟨_, done, -, -, two⟩⟩
    · simp [stage, none]
    · simp [stopped, unfinished, one]
    · simp [stopped, done, two]
  have same := count after
  rw [told, List.filter_append, List.length_append, count before, done] at same
  simp only [stage] at same
  have none : (events.filter Event.isTeardown).length = 0 := by omega
  intro e member
  have rejected := List.filter_eq_nil_iff.mp (List.eq_nil_of_length_eq_zero none) e member
  simpa using rejected

/-- Whatever a move tells of the teardown comes from somewhere. -/
theorem apply_source (h : Reachable setup s) {m : Move} (applied : s.apply m = some t)
    {events : List Event} (told : t.published = s.published ++ events) {e : Event}
    (member : e ∈ events) (teardown : e.isTeardown = true) : Source s t e.kind := by
  have before := h.attained.hasStory
  have after := (h.step applied).attained.hasStory
  rcases apply_cases applied with ⟨marks, u, change, rfl⟩ | same | ⟨created, same⟩
  · rw [published_writeAll, Supervisor.published, change.journal_eq] at told
    rw [← List.append_cancel_left told] at member
    exact change.source member teardown
  · rw [before.silent after (by rw [same.stage]) same.done told e member] at teardown
    cases teardown
  · rw [before.silent after (by simp [same.stage, created]) same.done told e member] at teardown
    cases teardown

/-- The step that publishes `AllStopped` ends the call that carries the teardown out. -/
theorem apply_allStopped (h : Reachable setup s) {m : Move} (applied : s.apply m = some t)
    {events : List Event} (told : t.published = s.published ++ events) {e : Event}
    (member : e ∈ events) (kind : e.kind = .allStopped) :
    ∃ index owner, Concludes s index owner t := by
  have source := apply_source h applied told member
    (by simp [Event.isTeardown, Event.isTerminal, kind])
  rw [kind] at source
  cases source with
  | conclude concludes => exact ⟨_, _, concludes⟩
  | run _ _ own => simp at own
  | report own => simp at own

/-- The step that publishes `GraceExceeded` ends the call that carries the teardown out. -/
theorem apply_graceExceeded (h : Reachable setup s) {m : Move} (applied : s.apply m = some t)
    {events : List Event} (told : t.published = s.published ++ events) {e : Event}
    (member : e ∈ events) (kind : e.kind = .graceExceeded) :
    ∃ index owner, GivesUp s index owner t := by
  have source := apply_source h applied told member
    (by simp [Event.isTeardown, Event.isTerminal, kind])
  rw [kind] at source
  cases source with
  | overrun givesUp => exact ⟨_, _, givesUp⟩
  | run _ _ own => simp at own
  | report own => simp at own

/-- The events of the notices that are still to be posted. -/
def unposted (s : Supervisor) : List Event := (s.notices.filter (!·.posted)).map Notice.event

/-- A notice that is posted is one of those that were still to be posted. -/
theorem perm_unposted {notices : List Notice} {index : Nat} {n : Notice}
    (found : notices[index]? = some n) (waiting : n.posted = false) :
    (n :: (notices.modify index fun n => { n with posted := true }).filter (!·.posted)).Perm
      (notices.filter (!·.posted)) := by
  induction notices generalizing index with
  | nil => cases found
  | cons head rest ih => cases index with
    | zero =>
        obtain rfl : head = n := Option.some.inj found
        simp [waiting]
    | succ k =>
        have found : rest[k]? = some n := found
        have later := ih found
        cases posted : head.posted with
        | true => simpa [posted] using later
        | false => simpa [posted] using (List.Perm.swap head n _).trans (later.cons head)

/-- Once the loop has exited, nothing but the teardown, the subscribers and the notices that were
still to be posted can publish anything. -/
theorem Change.unposted {marks : List Mark} (h : Change s marks t)
    (attained : Attained setup s) (exited : s.loop = .exited) :
    (((marks.filterMap Mark.event?).filter fun e => !e.isReport && !e.isTeardown) ++
      t.unposted).Perm s.unposted := by
  obtain ⟨closed, -, finished⟩ := attained.loopInvariant.exited exited
  have stopped := (attained.teardownInvariant.closed closed).stopped
  rcases h.posts_or_source with ⟨index, n, found, waiting, rfl, rfl⟩ | ⟨same, source⟩
  · have told : [n.event].filter (fun e => !e.isReport && !e.isTeardown) = [n.event] := by simp
    rw [n.events_marks, told]
    exact (perm_unposted found waiting).map Notice.event
  · have none : (marks.filterMap Mark.event?).filter
        (fun e => !e.isReport && !e.isTeardown) = [] := by
      refine List.filter_eq_nil_iff.mpr fun e told => ?_
      have source := source e told
      generalize about : e.kind = kind at source
      cases source with
      | report own =>
          rcases own with rfl | rfl <;> simp [Event.isReport, about]
      | request | overrun | conclude => simp [Event.isTeardown, Event.isTerminal, about]
      | replaced started =>
          rw [stopped] at started
          cases started
      | run found busy =>
          rw [finished _ _ found] at busy
          cases busy
      | outcome running =>
          rw [exited] at running
          cases running
    rcases same with created | same
    · rw [stopped] at created
      cases created
    · rw [none, Supervisor.unposted, same]
      exact .refl _

/-- A loop that has exited does not come back. -/
theorem Change.exited {marks : List Mark} (h : Change s marks t) (attained : Attained setup s)
    (exited : s.loop = .exited) : t.loop = .exited := by
  rcases h.loop_cases with ⟨loop, -⟩ | ⟨-, started⟩ | ⟨-, -, rfl⟩
  · exact loop.trans exited
  · have closed := (attained.loopInvariant.exited exited).1
    have stopped := h.onward.stopped (attained.teardownInvariant.closed closed).stopped
    rw [started] at stopped
    cases stopped
  · rfl

theorem Chain.unposted_of_exited (h : Chain s t) (attained : Attained setup s)
    (exited : s.loop = .exited) :
    t.loop = .exited ∧ ∃ events, t.published = s.published ++ events ∧
      ((events.filter fun e => !e.isReport && !e.isTeardown) ++ t.unposted).Perm s.unposted := by
  induction h with
  | refl => exact ⟨exited, [], by simp⟩
  | tail chain advances ih =>
      obtain ⟨marks, u, change, rfl⟩ := advances
      obtain ⟨still, events, told, perm⟩ := ih
      have there : Attained setup _ := attained.trans chain
      refine ⟨change.exited there still, events ++ marks.filterMap Mark.event?, ?_, ?_⟩
      · rw [published_writeAll, Supervisor.published, change.journal_eq, ← List.append_assoc,
          ← told]
        rfl
      · rw [List.filter_append, List.append_assoc]
        exact ((change.unposted there still).append_left _).trans perm

/-- The loop has exited before `AllStopped` is published. -/
theorem Attained.exited_of_allStopped (h : Attained setup s) {e : Event} (told : e ∈ s.published)
    (kind : e.kind = .allStopped) : s.loop = .exited := by
  refine h.invariant (P := fun s => ∀ e ∈ s.published, e.kind = .allStopped → s.loop = .exited)
    (fun _ none => by cases none) ?_ e told kind
  intro s t marks before inv change e told kind
  rw [published_writeAll, Supervisor.published, change.journal_eq] at told
  rcases List.mem_append.mp told with old | new
  · exact change.exited before (inv e old kind)
  · have source := change.source new (by simp [Event.isTeardown, Event.isTerminal, kind])
    rw [kind] at source
    cases source with
    | conclude concludes => exact change.exited before concludes.exited
    | run _ _ own => simp at own
    | report own => simp at own

/-- When the loop has exited and the teardown is over, nothing is published but reports of
subscribers and the notices that were still to be posted, each at most once. -/
theorem Chain.unposted (h : Chain s t) (attained : Attained setup s) (exited : s.loop = .exited)
    (done : s.done = true) : ∃ events, t.published = s.published ++ events ∧
      (events.filter (!·.isReport) ++ t.unposted).Perm s.unposted := by
  obtain ⟨-, events, told, perm⟩ := h.unposted_of_exited attained exited
  have inv := attained.teardownInvariant
  have stopped := (inv.closed (inv.done done)).stopped
  have later : Attained setup t := attained.trans h
  have silent := attained.hasStory.silent later.hasStory
    (by simp [h.onward.stopped stopped, stopped]) ((h.onward.done done).trans done.symm) told
  refine ⟨events, told, ?_⟩
  rwa [List.filter_congr fun e member => by rw [silent e member, Bool.not_false, Bool.and_true]]
    at perm

/-! ## All are joined -/

/-- What is true when `AllStopped` is published on the way from `s` to `t`, and afterwards. -/
structure Joined (s t : Supervisor) : Prop where
  published : t.published = s.published ++ [.ofKind .allStopped]
  /-- Every run that was ever launched is finished, and has passed all stations before. -/
  runs : ∀ n ∈ t.journal.launched, ∃ r fault, t.run? n = some r ∧ r.phase = .finished fault ∧
    s.journal.course n = s.wholeCourse r.task fault
  registry : t.registry.entries = []
  barrier : t.barrierIsEmpty = true
  delays : ∀ d ∈ t.delays, d.state = .fired ∨ d.state = .abandoned
  /-- Nobody holds a sender of the outcome queue, and no outcome is left. -/
  senders : t.hasSenders = false
  queue : t.queue = []
  line : t.line = []
  loop : t.loop = .exited
  /-- Apart from reports of subscribers, all that is still published is the notices about
  submissions to the supervisor before its start that were not posted yet, each at most once. -/
  final : ∀ u, Leads t u → ∃ events, u.published = t.published ++ events ∧
    (events.filter (!·.isReport) ++ u.unposted).Perm t.unposted

/-- A registry without active runs is empty. -/
theorem RegistryInvariant.entries_eq_nil (inv : RegistryInvariant s)
    (released : ∀ n r, s.run? n = some r → r.phase.isReleased = true) :
    s.registry.entries = [] := by
  cases entries : s.registry.entries with
  | nil => rfl
  | cons entry rest =>
      have active : s.registry.lookup entry.id = some entry.run := by
        simp [Registry.lookup, entries]
      obtain ⟨r, found, unreleased⟩ := ((inv.lookup_iff entry.id entry.run).mp active).2
      rw [released _ r found] at unreleased
      cases unreleased

/-- A run that is finished and whose outcome has left the queue has passed all stations. -/
theorem courseOf_finished {n : Nat} {r : Run} {fault : Option Fault} (found : s.run? n = some r)
    (phase : r.phase = .finished fault) (queue : s.queue = []) :
    s.courseOf n = s.wholeCourse r.task fault := by
  simp [courseOf, found, phase, queue, courseTo, wholeCourse, Phase.isFinished, Phase.fault?]

/-- Whenever `AllStopped` is published, all runs and delays are over and have been seen to be, and
nothing but reports of subscribers and late notices comes after it. -/
theorem joined (h : Reachable setup s) {m : Move} (applied : s.apply m = some t)
    {events : List Event} (told : t.published = s.published ++ events) {e : Event}
    (member : e ∈ events) (kind : e.kind = .allStopped) : Joined s t := by
  obtain ⟨index, owner, exited, awaiting, rfl⟩ := apply_allStopped h applied told member kind
  have reached := h.step applied
  rw [conclude_eq] at reached ⊢
  obtain ⟨closed, queue, finished⟩ := h.attained.loopInvariant.exited exited
  have empty := h.attained.barrierIsEmpty (List.mem_of_getElem? awaiting) rfl
  refine ⟨?_, ?_, ?_, empty, h.attained.isSettled empty,
    hasSenders_eq_false_iff.mpr ⟨closed, finished⟩, queue, ?_, exited, ?_⟩
  · rw [published_writeAll]
    rfl
  · intro n launched
    obtain ⟨r, found⟩ := reached.attained.run?_of_launched launched
    have known : s.run? n = some r := found
    have through := finished n r known
    cases phase : r.phase with
    | finished fault =>
        refine ⟨r, fault, found, phase, ?_⟩
        rw [h.attained.course, courseOf_finished known phase queue]
    | _ =>
        rw [phase] at through
        cases through
  · refine h.attained.registryInvariant.entries_eq_nil fun n r found => ?_
    have through := finished n r found
    cases phase : r.phase <;> rw [phase] at through <;> first | rfl | cases through
  · refine List.eq_nil_iff_forall_not_mem.mpr fun n member => ?_
    have stands := (h.attained.outcomeInvariant.line n).mp member
    exact h.attained.loopInvariant.not_exited stands exited
  · intro u later
    exact (chain_of_leads later).unposted reached.attained exited rfl

/-- A thread keeps a task for the start and is held up before it posts the notice. Meanwhile others
start and stop the supervisor, and the notice comes after `AllStopped`. -/
theorem taskQueued_after_allStopped :
    ∃ s t u, (create {}).applyAll
        [.submit { id := "a" }, .start, .progress (.begin 1), .progress (.release 1),
          .progress (.report 1), .progress (.call 1), .progress (.call 1), .progress (.send 1),
          .progress .observe, .stop, .progress (.proceed 0), .progress (.proceed 0),
          .progress (.proceed 0), .progress .exitLoop] = some s ∧
      s.apply (.progress (.proceed 0)) = some t ∧
      t.published = s.published ++ [.ofKind .allStopped] ∧
      t.apply (.progress (.post 0)) = some u ∧
      u.published = t.published ++ [(Event.ofKind .taskQueued).withTask "a"] :=
  ⟨_, _, _, rfl, rfl, rfl, rfl, rfl⟩

/-- A run and the one that supersedes it are both joined. -/
theorem joined_of_superseded_run :
    ∃ s t, (create {}).applyAll
        [.start, .submit { id := "a", work := some {}, onFinish := some {} }, .progress (.begin 1),
          .submit { id := "a" }, .progress (.begin 2), .stop, .progress (.proceed 0),
          .progress (.proceed 0), .progress (.release 2), .finish 1 (.returns (some .canceled)),
          .progress (.release 1), .progress (.report 2), .progress (.report 1),
          .progress (.call 1), .progress (.call 2), .progress (.leave 1), .progress (.call 2),
          .progress (.send 2), .progress (.call 1), .progress .observe, .progress (.send 1),
          .progress (.proceed 0), .progress .observe, .progress .exitLoop] = some s ∧
      s.apply (.progress (.proceed 0)) = some t ∧ t.journal.launched = [1, 2] ∧
      t.published = s.published ++ [.ofKind .allStopped] ∧ Joined s t := by
  obtain ⟨s, t, ran, applied, launched, told⟩ : ∃ s t, (create {}).applyAll
        [.start, .submit { id := "a", work := some {}, onFinish := some {} }, .progress (.begin 1),
          .submit { id := "a" }, .progress (.begin 2), .stop, .progress (.proceed 0),
          .progress (.proceed 0), .progress (.release 2), .finish 1 (.returns (some .canceled)),
          .progress (.release 1), .progress (.report 2), .progress (.report 1),
          .progress (.call 1), .progress (.call 2), .progress (.leave 1), .progress (.call 2),
          .progress (.send 2), .progress (.call 1), .progress .observe, .progress (.send 1),
          .progress (.proceed 0), .progress .observe, .progress .exitLoop] = some s ∧
      s.apply (.progress (.proceed 0)) = some t ∧ t.journal.launched = [1, 2] ∧
      t.published = s.published ++ [.ofKind .allStopped] := ⟨_, _, rfl, rfl, rfl, rfl⟩
  have all := joined (reachable_of_applyAll ran) applied told List.mem_cons_self rfl
  exact ⟨s, t, ran, applied, launched, told, all⟩

end Supervisor

end Supervision
