import Supervision.Proofs.Accounts

/-!
# What a panic costs a subscriber

A subscriber that panics while it handles an event goes on with the next one, and the panic is
reported. If it panics after a wait, the report is owed until then. One that panics before it has
begun to handle the event takes its worker along: what is in the queue is lost, and nothing is
reported.

Results:
1. `Subscriber.panicReports`: the reports that some handled events lead to.
2. `Mailbox.Tends.reports`: what a worker publishes is what was owed and what the next events lead
   to, but for what is owed from then on.
3. `Mailbox.Endures`: a worker is lost by one kind of panic only.
4. `works_settled`: a worker that runs as long as it can leaves nothing in the queue that it could
   take.
5. `keepsReceiving`: what all subscribers have got and what is reported, after any steps and after
   the shutdown that may follow.
6. `panic_ends_worker`: an accepted event that its subscriber is never handed.
-/

namespace Supervision

/-! ## Reports of panics -/

namespace Subscriber

/-- The report of a panic while an event is handled, unless the event is itself such a report. -/
def reportOf (sub : Subscriber) (payload : Payload) (e : Event) : Option Event :=
  if e.kind = .subscriberPanicked then none
  else some (.panicked sub.name (payload.textOr "unknown panic"))

/-- The report of the panic that the subscriber raises while it handles an event, whether at once or
after a wait. -/
def panicReport? (sub : Subscriber) (earlier : List Event) (e : Event) : Option Event :=
  match sub.react earlier e with
  | .panics payload | .waits (some payload) => sub.reportOf payload e
  | _ => none

/-- The reports that come of some events which the subscriber handles after the earlier ones. -/
def panicReports (sub : Subscriber) (earlier : List Event) : List Event → List Event
  | [] => []
  | e :: rest => (sub.panicReport? earlier e).toList ++ sub.panicReports (earlier ++ [e]) rest

theorem panicReports_append (sub : Subscriber) (earlier first later : List Event) :
    sub.panicReports earlier (first ++ later) =
      sub.panicReports earlier first ++ sub.panicReports (earlier ++ first) later := by
  induction first generalizing earlier with
  | nil => simp [panicReports]
  | cons e rest ih => simp [panicReports, ih]

theorem kind_of_reportOf {sub : Subscriber} {payload : Payload} {e report : Event}
    (h : sub.reportOf payload e = some report) : report.kind = .subscriberPanicked := by
  obtain ⟨-, h⟩ := Option.ite_none_left_eq_some.mp h
  cases h
  rfl

theorem kind_of_panicReport? {sub : Subscriber} {earlier : List Event} {e report : Event}
    (h : sub.panicReport? earlier e = some report) : report.kind = .subscriberPanicked := by
  unfold panicReport? at h
  split at h
  · exact kind_of_reportOf h
  · exact kind_of_reportOf h
  · cases h

theorem kind_of_mem_panicReports {sub : Subscriber} {earlier events : List Event} {report : Event}
    (h : report ∈ sub.panicReports earlier events) : report.kind = .subscriberPanicked := by
  induction events generalizing earlier with
  | nil => cases h
  | cons e rest ih =>
      rcases List.mem_append.mp h with own | later
      · exact kind_of_panicReport? (Option.mem_toList.mp own)
      · exact ih later

end Subscriber

namespace Mailbox

variable {m m' : Mailbox} {receiving : Prop} {marks : List Mark}

/-- The reports of all panics that the subscriber raises at the events that it was handed so far,
also of one that is to come at the end of a wait. -/
def panicReports (m : Mailbox) : List Event := m.subscriber.panicReports [] m.handled

/-- The report that is owed while the subscriber waits, if it is to panic when it goes on. -/
def owed (m : Mailbox) : List Event :=
  match m.worker with
  | .waiting e (some payload) => (m.subscriber.reportOf payload e).toList
  | _ => []

theorem kind_of_mem_owed {report : Event} (h : report ∈ m.owed) :
    report.kind = .subscriberPanicked := by
  unfold owed at h
  split at h
  · exact Subscriber.kind_of_reportOf (Option.mem_toList.mp h)
  · cases h

theorem panicReports_offer (m : Mailbox) (e : Event) :
    (m.offer e).1.panicReports = m.panicReports := by
  unfold offer
  split <;> rfl

theorem owed_offer (m : Mailbox) (e : Event) : (m.offer e).1.owed = m.owed := by
  unfold offer
  split <;> rfl

theorem events_panicEffects (m : Mailbox) (payload : Payload) (e : Event) :
    (m.panicEffects payload e).events = (m.subscriber.reportOf payload e).toList := by
  dsimp only [panicEffects, Subscriber.reportOf]
  split <;> rfl

/-- A panic is reported when an idle subscriber is handed the event, or the report is owed from then
on. -/
theorem reports_handle (idle : m.worker = .idle) (e : Event) :
    (m.subscriber.panicReport? m.handled e).toList =
      (m.handle e).2.events ++ (m.handle e).1.owed := by
  unfold handle Subscriber.panicReport?
  dsimp only
  cases m.subscriber.react m.handled e with
  | panics payload => simp [events_panicEffects, owed, idle]
  | waits panic => cases panic <;> rfl
  | returns | records => simp [owed, idle]
  | dies => rfl

/-- A worker is lost if its subscriber dies of the event, and not otherwise. -/
theorem worker_handle (alive : m.worker ≠ .dead) (e : Event) :
    (m.handle e).1.worker = .dead ↔ m.subscriber.react m.handled e = .dies := by
  unfold handle
  dsimp only
  cases m.subscriber.react m.handled e <;> simp [alive]

/-- What is owed and what comes of the events that the subscriber is handed next is published, but
for what is owed in the end. -/
theorem Tends.reports (h : m.Tends receiving marks m') : ∃ seen, m'.handled = m.handled ++ seen ∧
    m.owed ++ m.subscriber.panicReports m.handled seen =
      marks.filterMap Mark.event? ++ m'.owed := by
  cases h with
  | take taken =>
      obtain ⟨e, rest, idle, -, handled⟩ := take_eq taken
      have same := handled_handle { m with queue := rest } e
      have reports := reports_handle (m := { m with queue := rest }) idle e
      rw [handled] at same reports
      refine ⟨[e], same.1, ?_⟩
      rw [Effects.filterMap_marks, ← reports]
      simp [owed, idle, Subscriber.panicReports]
  | release released =>
      refine ⟨[], ?_⟩
      rw [Effects.filterMap_marks]
      obtain ⟨rfl, e, ⟨waiting, rfl⟩ | ⟨payload, waiting, rfl⟩⟩ := release_eq released
      · simp [owed, waiting, Subscriber.panicReports]
      · simp [owed, waiting, Subscriber.panicReports, events_panicEffects]
  | retire _ retired =>
      obtain ⟨idle, -, rfl⟩ := retire_eq retired
      exact ⟨[], by simp [owed, idle, Subscriber.panicReports]⟩

/-! ## How workers are lost -/

/-- A worker is lost if and only if its subscriber has panicked before it began to handle an event.
Such an event is the last one. -/
structure Endures (m : Mailbox) : Prop where
  survived : m.worker ≠ .dead → ∀ earlier e, earlier ++ [e] <+: m.handled →
    m.subscriber.react earlier e ≠ .dies
  struck : m.worker = .dead → ∃ earlier e, m.handled = earlier ++ [e] ∧
    m.subscriber.react earlier e = .dies
  ended : m.worker = .ended → m.queue = []

namespace Endures

theorem create (subscriber : Subscriber) : Endures { subscriber } where
  survived _ earlier e before := by simp at before
  struck dead := by cases dead
  ended ended := by cases ended

theorem offer (h : m.Endures) (e : Event) : (m.offer e).1.Endures := by
  unfold Mailbox.offer
  split
  · exact h
  · next accepts =>
      refine ⟨h.survived, h.struck, fun ended => ?_⟩
      have shut : m.isOver = true := by
        change m.worker = .ended at ended
        simp [isOver, ended]
      simp [refusal, shut] at accepts

theorem tends (h : m.Endures) (tends : m.Tends receiving marks m') : m'.Endures := by
  have subscriber := tends.subscriber
  cases tends with
  | take taken =>
      obtain ⟨e, rest, idle, -, same⟩ := take_eq taken
      have alive : m.worker ≠ .dead := by simp [idle]
      have handled := (handled_handle { m with queue := rest } e).1
      have lost := worker_handle (m := { m with queue := rest }) alive e
      rw [same] at handled lost
      refine ⟨fun alive' earlier e' before => ?_, fun dead => ?_, fun ended => ?_⟩
      · rw [handled] at before
        rw [subscriber]
        rcases List.prefix_concat_iff.mp before with last | before
        · obtain ⟨rfl, own⟩ := List.append_inj' last rfl
          cases own
          exact mt lost.mpr alive'
        · exact h.survived alive earlier e' before
      · exact ⟨m.handled, e, handled, subscriber ▸ lost.mp dead⟩
      · obtain ⟨_, _, -, -, -, ⟨-, dead⟩ | ⟨-, worker⟩⟩ := take_cases taken
        · simp [dead] at ended
        · simp [isWaiting, ended] at worker
  | release released =>
      obtain ⟨rfl, -⟩ := release_eq released
      exact ⟨fun _ => h.survived (alive_of_release released), Worker.noConfusion,
        Worker.noConfusion⟩
  | retire _ retired =>
      obtain ⟨idle, empty, rfl⟩ := retire_eq retired
      exact ⟨fun _ => h.survived (by simp [idle]), Worker.noConfusion, fun _ => empty⟩

end Endures

/-! ## A worker that runs as long as it can -/

/-- A worker does some things in turn, which publish the events. -/
inductive Works (receiving : Prop) : Mailbox → List Event → Mailbox → Prop
  | rest (m : Mailbox) : Works receiving m [] m
  | go {m m' m'' : Mailbox} {marks : List Mark} {later : List Event}
      (first : m.Tends receiving marks m') (others : Works receiving m' later m'') :
      Works receiving m (marks.filterMap Mark.event? ++ later) m''

namespace Works

variable {m'' : Mailbox} {events later : List Event} {closing : Bool} {accepted : List Event}

theorem trans (h : Works receiving m events m') (k : Works receiving m' later m'') :
    Works receiving m (events ++ later) m'' := by
  induction h with
  | rest => exact k
  | go first _ ih =>
      rw [List.append_assoc]
      exact .go first (ih k)

theorem once (h : m.Tends receiving marks m') :
    Works receiving m (marks.filterMap Mark.event?) m' := by
  simpa using Works.go h (.rest m')

/-- What one thing leaves owed, a later one publishes. -/
theorem reports (h : Works receiving m events m') : ∃ seen, m'.handled = m.handled ++ seen ∧
    m.owed ++ m.subscriber.panicReports m.handled seen = events ++ m'.owed := by
  induction h with
  | rest m => exact ⟨[], by simp [Subscriber.panicReports]⟩
  | @go m m₁ m₂ marks later first others ih =>
      obtain ⟨seen, handled, reports⟩ := first.reports
      obtain ⟨seen', handled', reports'⟩ := ih
      refine ⟨seen ++ seen', by rw [handled', handled, List.append_assoc], ?_⟩
      rw [first.subscriber] at reports'
      rw [Subscriber.panicReports_append, ← List.append_assoc, reports, List.append_assoc,
        ← handled, reports', List.append_assoc]

theorem endures (h : Works receiving m events m') (before : m.Endures) : m'.Endures := by
  induction h with
  | rest => exact before
  | go first _ ih => exact ih (before.tends first)

theorem accounts (h : Works (closing = false) m events m') (before : m.Accounts closing accepted) :
    m'.Accounts closing accepted := by
  induction h with
  | rest => exact before
  | go first _ ih => exact ih (before.tends first)

end Works

/-- A waiting subscriber goes on if the gate is open. -/
theorem works_release (receiving : Prop) (gateOpen : Bool) (m : Mailbox) :
    Works receiving m (if gateOpen then m.release.getD (m, {}) else (m, {})).2.events
      (if gateOpen then m.release.getD (m, {}) else (m, {})).1 := by
  cases gateOpen with
  | false => exact .rest m
  | true => cases released : m.release with
    | none => exact .rest m
    | some after =>
        have tends : m.Tends receiving after.2.marks after.1 := .release released
        have all := Works.once tends
        rw [Effects.filterMap_marks] at all
        exact all

theorem works_run (receiving : Prop) (gateOpen : Bool) (rounds : Nat) (m : Mailbox) :
    Works receiving m (Audience.run gateOpen rounds m).2.events
      (Audience.run gateOpen rounds m).1 := by
  induction rounds generalizing m with
  | zero => exact .rest m
  | succ rounds ih =>
      have released := works_release receiving gateOpen m
      unfold Audience.run
      generalize (if gateOpen then m.release.getD (m, {}) else (m, {})) = before at *
      obtain ⟨ready, before⟩ := before
      dsimp only at *
      cases taken : ready.take with
      | none => exact released
      | some result =>
          have tends : ready.Tends receiving result.2.marks result.1 := .take taken
          have first := Works.once tends
          rw [Effects.filterMap_marks] at first
          exact (released.trans first).trans (ih result.1)

theorem works_settled (gateOpen closing : Bool) (m : Mailbox) :
    Works (closing = false) m (Audience.settled gateOpen closing m).2.events
      (Audience.settled gateOpen closing m).1 := by
  have ran := works_run (closing = false) gateOpen (m.queue.length + 1) m
  unfold Audience.settled
  generalize Audience.run gateOpen (m.queue.length + 1) m = result at *
  dsimp only
  cases closing with
  | false => exact ran
  | true => cases retired : result.1.retire with
    | none => exact ran
    | some m' =>
        have all := ran.trans (.once (.retire (by simp) retired))
        rw [List.filterMap_nil, List.append_nil] at all
        exact all

/-- Nothing is left to do for the worker: it is lost, or it waits at the closed gate, or the queue
is empty; then it has ended, if the mailbox is closed. -/
def IsSettled (gateOpen closing : Bool) (m : Mailbox) : Prop :=
  m.worker = .dead ∨ m.isWaiting = true ∧ gateOpen = false ∨
    m.queue = [] ∧ (closing = true → m.worker = .ended)

/-- There are rounds enough to take the whole queue. -/
theorem run_exhausts (gateOpen : Bool) {rounds : Nat} (enough : m.queue.length < rounds) :
    ((Audience.run gateOpen rounds m).1.worker = .idle →
        (Audience.run gateOpen rounds m).1.queue = []) ∧
      (gateOpen = true → (Audience.run gateOpen rounds m).1.isWaiting = false) := by
  induction rounds generalizing m with
  | zero => exact absurd enough (Nat.not_lt_zero _)
  | succ rounds ih =>
      obtain ⟨queue, open_⟩ :
          (if gateOpen then m.release.getD (m, {}) else (m, {})).1.queue = m.queue ∧
            (gateOpen = true →
              (if gateOpen then m.release.getD (m, {}) else (m, {})).1.isWaiting = false) := by
        cases gateOpen with
        | false => exact ⟨rfl, Bool.noConfusion⟩
        | true => cases worker : m.worker <;> simp [release, isWaiting, worker]
      unfold Audience.run
      generalize (if gateOpen then m.release.getD (m, {}) else (m, {})) = before at *
      obtain ⟨ready, before⟩ := before
      dsimp only at *
      cases taken : ready.take with
      | none =>
          refine ⟨fun idle => ?_, open_⟩
          change ready.worker = .idle at idle
          change ready.queue = []
          cases left : ready.queue with
          | nil => rfl
          | cons e rest => simp [take, idle, left] at taken
      | some result =>
          obtain ⟨m', own⟩ := result
          obtain ⟨e, rest, -, left, -, how⟩ := take_cases taken
          refine ih ?_
          have length : m'.queue.length ≤ rest.length := by
            rcases how with ⟨-, dead⟩ | ⟨same, -⟩
            · simp [Accounts.queue_of_dead taken dead]
            · rw [same]
          rw [← queue, left, List.length_cons] at enough
          omega

theorem isSettled_settled (gateOpen closing : Bool) (h : m.Endures) :
    (Audience.settled gateOpen closing m).1.IsSettled gateOpen closing := by
  have endures := (works_run True gateOpen (m.queue.length + 1) m).endures h
  obtain ⟨taken, woken⟩ := run_exhausts gateOpen (Nat.lt_succ_self m.queue.length)
  unfold Audience.settled
  generalize Audience.run gateOpen (m.queue.length + 1) m = result at *
  obtain ⟨m', effects⟩ := result
  dsimp only at *
  unfold IsSettled
  cases worker : m'.worker with
  | idle => cases closing <;> simp [retire, worker, taken worker]
  | waiting =>
      have shut : gateOpen = false := by
        cases gateOpen with
        | false => rfl
        | true => simp [isWaiting, worker] at woken
      cases closing <;> simp [retire, isWaiting, worker, shut]
  | dead => cases closing <;> simp [retire, worker]
  | ended => cases closing <;> simp [retire, worker, endures.ended worker]

end Mailbox

namespace Audience

variable {a b : Audience} {subscribers : List Subscriber} {list : List Step} {effects : Effects}

/-! ## All workers -/

theorem settleAll_fst (gateOpen closing : Bool) (mailboxes : List Mailbox) :
    (settleAll gateOpen closing mailboxes).1 =
      mailboxes.map fun m => (settled gateOpen closing m).1 := by
  induction mailboxes with
  | nil => rfl
  | cons m rest ih => simp [settleAll, settled, ih]

theorem events_settleAll (gateOpen closing : Bool) (mailboxes : List Mailbox) :
    (settleAll gateOpen closing mailboxes).2.events =
      mailboxes.flatMap fun m => (settled gateOpen closing m).2.events := by
  induction mailboxes with
  | nil => rfl
  | cons m rest ih =>
      have both : (settleAll gateOpen closing (m :: rest)).2.events =
          (settled gateOpen closing m).2.events ++
            (settleAll gateOpen closing rest).2.events := rfl
      rw [both, ih, List.flatMap_cons]

/-- The reports of panics among some events. -/
def panicsAmong (events : List Event) : List Event :=
  events.filter (·.kind == .subscriberPanicked)

theorem panicsAmong_append (events later : List Event) :
    panicsAmong (events ++ later) = panicsAmong events ++ panicsAmong later :=
  List.filter_append ..

theorem panicsAmong_eq_self {events : List Event}
    (h : ∀ e ∈ events, e.kind = .subscriberPanicked) : panicsAmong events = events :=
  List.filter_eq_self.mpr fun e member => beq_iff_eq.mpr (h e member)

/-- Whoever offers an event to mailboxes reports no panic. -/
theorem panicsAmong_offerAll (mailboxes : List Mailbox) (e : Event) :
    panicsAmong (offerAll mailboxes e).2.events = [] := by
  rw [events_offerAll, panicsAmong, List.filter_eq_nil_iff]
  intro report member
  split at member
  · cases member
  · obtain ⟨m, -, refused⟩ := List.mem_filterMap.mp member
    obtain ⟨refusal, -, rfl⟩ := Option.map_eq_some_iff.mp refused
    exact Bool.false_ne_true

/-- In a sum over mailboxes one of them is exchanged for another one. -/
theorem flatMap_set_perm {mailboxes : List Mailbox} {index : Nat} {m : Mailbox}
    (found : mailboxes[index]? = some m) (m' : Mailbox) (f : Mailbox → List Event) :
    ((mailboxes.set index m').flatMap f ++ f m).Perm (mailboxes.flatMap f ++ f m') := by
  obtain ⟨inside, rfl⟩ := List.getElem?_eq_some_iff.mp found
  obtain ⟨before, behind, whole, -, changed⟩ : ∃ before behind, mailboxes = before ++
      mailboxes[index] :: behind ∧ before.length = index ∧
        mailboxes.set index m' = before ++ m' :: behind := List.exists_of_set inside
  have sum := congrArg (List.flatMap f) whole
  rw [changed, sum, List.perm_iff_count]
  intro e
  simp only [List.flatMap_append, List.flatMap_cons, List.count_append]
  omega

/-- Every mailbox knows how its worker is lost, and the reports of all panics are published, but for
those that are owed. -/
structure IsReported (a : Audience) (published : List Event) : Prop where
  endures : ∀ m ∈ a.mailboxes, m.Endures
  reports : (panicsAmong published ++ a.mailboxes.flatMap Mailbox.owed).Perm
    (a.mailboxes.flatMap Mailbox.panicReports)

namespace IsReported

variable {published : List Event}

theorem create (subscribers : List Subscriber) : (ofSubscribers subscribers).IsReported [] where
  endures m member := by
    obtain ⟨subscriber, -, rfl⟩ := List.mem_map.mp member
    exact .create subscriber
  reports := by
    simp [ofSubscribers, List.flatMap_map, Mailbox.owed, Mailbox.panicReports,
      Subscriber.panicReports, panicsAmong]

/-- What a worker does keeps the reports in balance. -/
theorem balance {m m' : Mailbox} {index : Nat} (found : a.mailboxes[index]? = some m)
    {receiving : Prop} (tends : m.Tends receiving effects.marks m')
    (before : (panicsAmong published ++ a.mailboxes.flatMap Mailbox.owed).Perm
      (a.mailboxes.flatMap Mailbox.panicReports)) :
    (panicsAmong (published ++ effects.events) ++
      (a.setMailbox index m').mailboxes.flatMap Mailbox.owed).Perm
        ((a.setMailbox index m').mailboxes.flatMap Mailbox.panicReports) := by
  obtain ⟨seen, handled, reports⟩ := tends.reports
  rw [Effects.filterMap_marks] at reports
  have panics : panicsAmong effects.events = effects.events := by
    refine panicsAmong_eq_self fun e member => ?_
    have among : e ∈ m.owed ++ m.subscriber.panicReports m.handled seen :=
      reports ▸ List.mem_append_left _ member
    rcases List.mem_append.mp among with owed | later
    · exact Mailbox.kind_of_mem_owed owed
    · exact Subscriber.kind_of_mem_panicReports later
  have grows : m'.panicReports = m.panicReports ++ m.subscriber.panicReports m.handled seen := by
    rw [Mailbox.panicReports, handled, tends.subscriber, Subscriber.panicReports_append,
      Mailbox.panicReports, List.nil_append]
  have owed := flatMap_set_perm found m' Mailbox.owed
  have raised := flatMap_set_perm found m' Mailbox.panicReports
  rw [panicsAmong_append, panics]
  rw [List.perm_iff_count] at *
  intro e
  have count := congrArg (List.count e) reports
  specialize before e
  specialize owed e
  specialize raised e
  simp only [setMailbox, grows, List.count_append] at *
  omega

theorem step (h : a.IsReported published) {step : Step}
    (stepped : a.step step = some (b, effects)) :
    b.IsReported (published ++ effects.events) := by
  cases step_cases stepped with
  | emit e open_ =>
      constructor
      · intro m' member
        obtain ⟨m, known, rfl⟩ := List.mem_map.mp member
        exact (h.endures m known).offer e
      · rw [panicsAmong_append, panicsAmong_offerAll, List.append_nil, List.flatMap_map,
          List.flatMap_map]
        simpa only [Mailbox.owed_offer, Mailbox.panicReports_offer] using h.reports
  | @tend _ index m m' _ found tends silent =>
      constructor
      · intro m'' member
        rcases List.mem_or_eq_of_mem_set member with known | rfl
        · exact h.endures m'' known
        · exact (h.endures m (List.mem_of_getElem? found)).tends tends
      · exact balance found tends h.reports
  | openGate | shutdown =>
      have silent : published ++ ({} : Effects).events = published := List.append_nil _
      rw [silent]
      exact ⟨h.endures, h.reports⟩

theorem steps (h : a.IsReported published) (ran : a.steps list = some (b, effects)) :
    b.IsReported (published ++ effects.events) := by
  induction list generalizing a published effects with
  | nil =>
      cases ran
      have silent : published ++ ({} : Effects).events = published := List.append_nil _
      rwa [silent]
  | cons first rest ih =>
      obtain ⟨c, own, later, stepped, others, rfl⟩ := steps_cons ran
      have after := ih (h.step stepped) others
      rw [List.append_assoc] at after
      exact after

/-- A subscriber that panics after a wait is handed the next event all the same. -/
example : ((ofSubscribers [.reacting "late" 16 [.taskStarting] (.waits (some (.text "no")))]).steps
      [.emit (.ofKind .taskStarting), .emit (.ofKind .taskStopped), .openGate, .serve 0, .letGo 0,
        .serve 0]).map (fun (a, effects) => (effects.events, a.mailboxes.map (·.handled.length))) =
    some ([.panicked "late" "no"], [2]) := by decide

theorem shutdown (h : a.IsReported published) :
    (a.perform .shutdown).1.IsReported (published ++ (a.perform .shutdown).2.events) := by
  obtain ⟨list, ran⟩ := exists_steps a .shutdown
  exact h.steps ran

end IsReported

/-! ## What the subscribers get -/

/-- What one subscriber has got of the events that its queue has accepted. -/
structure Reception (m : Mailbox) (accepted : List Event) : Prop where
  /-- The worker is lost if and only if the subscriber has panicked before it began to handle an
  event. -/
  lost_iff : m.worker = .dead ↔ ∃ earlier e, earlier ++ [e] <+: m.handled ∧
    m.subscriber.react earlier e = .dies
  /-- Otherwise every accepted event was handed to it just once, in order, or waits in the queue. -/
  kept : m.worker ≠ .dead → m.handled ++ m.queue = accepted
  /-- What comes after such a panic is never handed to it. -/
  dropped : m.worker = .dead → m.queue = [] ∧ m.handled <+: accepted

theorem reception_of_accounts {m : Mailbox} {closing : Bool} {accepted : List Event}
    (endures : m.Endures) (accounts : m.Accounts closing accepted) : Reception m accepted where
  lost_iff := by
    refine ⟨fun dead => ?_, fun ⟨earlier, e, before, dies⟩ => ?_⟩
    · obtain ⟨earlier, e, handled, dies⟩ := endures.struck dead
      exact ⟨earlier, e, handled ▸ List.prefix_rfl, dies⟩
    · by_contra alive
      exact endures.survived alive earlier e before dies
  kept := accounts.kept
  dropped := accounts.lost

/-- What all subscribers have got of the accepted events, and what was published about them. -/
structure Receives (a : Audience) (published : List Event) (accepted : Nat → List Event) :
    Prop where
  reception : ∀ (index : Nat) (m : Mailbox), a.mailboxes[index]? = some m →
    Reception m (accepted index)
  /-- For each panic of each subscriber one report was published that has its name and the text of
  the panic, unless the event was such a report; and no other reports of panics were. A report is
  owed only as long as the subscriber waits in the middle of the event. -/
  reports : (panicsAmong published ++ a.mailboxes.flatMap Mailbox.owed).Perm
    (a.mailboxes.flatMap Mailbox.panicReports)

/-- Subscribers that panic go on receiving, unless they panic before they begin to handle an event;
and they get the rest when the audience is shut down. -/
structure KeepsReceiving (a : Audience) (published : List Event) (accepted : Nat → List Event) :
    Prop where
  now : Receives a published accepted
  /-- The shutdown adds nothing to what was accepted. -/
  afterwards : Receives (a.perform .shutdown).1 (published ++ (a.perform .shutdown).2.events)
    accepted
  /-- After the shutdown the queue of every worker that is not lost is empty, unless the subscriber
  waits at the closed gate. -/
  drained : ∀ m ∈ (a.perform .shutdown).1.mailboxes,
    m.worker = .dead ∨ m.isWaiting = true ∧ a.gateOpen = false ∨ m.queue = [] ∧ m.worker = .ended

theorem accounts_shutdown {accepted : Nat → List Event} (h : a.Accounts accepted) :
    (a.perform .shutdown).1.Accounts accepted := by
  intro index m' found'
  change ((settleAll a.gateOpen true a.mailboxes).1)[index]? = some m' at found'
  rw [settleAll_fst, List.getElem?_map] at found'
  obtain ⟨m, found, rfl⟩ := Option.map_eq_some_iff.mp found'
  exact (Mailbox.works_settled a.gateOpen true m).accounts (h index m found).close

theorem receives_of_accounts {published : List Event} {accepted : Nat → List Event}
    (reported : a.IsReported published) (accounts : a.Accounts accepted) :
    Receives a published accepted where
  reception index m found :=
    reception_of_accounts (reported.endures m (List.mem_of_getElem? found)) (accounts index m found)
  reports := reported.reports

theorem keepsReceiving (ran : (ofSubscribers subscribers).steps list = some (a, effects)) :
    KeepsReceiving a effects.events fun index =>
      accepted index (ofSubscribers subscribers) list := by
  have reported := (IsReported.create subscribers).steps ran
  rw [List.nil_append] at reported
  have accounts := accounts_of_steps ran
  refine ⟨receives_of_accounts reported accounts,
    receives_of_accounts reported.shutdown (accounts_shutdown accounts), fun m' member => ?_⟩
  change m' ∈ (settleAll a.gateOpen true a.mailboxes).1 at member
  rw [settleAll_fst] at member
  obtain ⟨m, known, rfl⟩ := List.mem_map.mp member
  have settled := Mailbox.isSettled_settled a.gateOpen true (reported.endures m known)
  simpa [Mailbox.IsSettled] using settled

/-- One subscriber panics at every event, reports of panics included. The other one panics at the
first event that it gets and dies of the second one. -/
def shakyAudience : List Subscriber :=
  [{ name := "shaky",
     react := fun _ e => .panics (.text (if e.reason = none then "no" else "why")) },
    { name := "frail", react := fun handled _ => if handled = [] then .panics .value else .dies }]

def scare : List Step :=
  [.emit (.ofKind .taskStarting), .emit (.panicked "other" "no"), .serve 1, .serve 0,
    .emit ((Event.ofKind .taskReplaced).withReason "running"), .serve 1]

theorem keepsReceiving_of_scare :
    ∃ a effects, (ofSubscribers shakyAudience).steps scare = some (a, effects) ∧
      effects.events = [.panicked "frail" "unknown panic", .panicked "shaky" "no"] ∧
      a.mailboxes.map (·.worker) = [.idle, .dead] ∧
      (a.perform .shutdown).2.events = [.panicked "shaky" "why"] ∧
      KeepsReceiving a effects.events fun index =>
        accepted index (ofSubscribers shakyAudience) scare := by
  obtain ⟨a, effects, ran, reports, workers, later⟩ : ∃ a effects,
      (ofSubscribers shakyAudience).steps scare = some (a, effects) ∧
      effects.events = [.panicked "frail" "unknown panic", .panicked "shaky" "no"] ∧
      a.mailboxes.map (·.worker) = [.idle, .dead] ∧
      (a.perform .shutdown).2.events = [.panicked "shaky" "why"] :=
    ⟨_, _, rfl, by decide, by decide, by decide⟩
  exact ⟨a, effects, ran, reports, workers, later, keepsReceiving ran⟩

/-- A subscriber that panics before it begins to handle the first of two accepted events is not
handed the second one, and the panic is not reported. -/
theorem panic_ends_worker :
    ∃ a effects, (ofSubscribers [.reacting "frail" 16 [.taskStarting] .dies]).steps
        [.emit (.ofKind .taskStarting), .emit (.ofKind .taskStopped)] = some (a, effects) ∧
      accepted 0 (ofSubscribers [.reacting "frail" 16 [.taskStarting] .dies])
        [.emit (.ofKind .taskStarting), .emit (.ofKind .taskStopped)] =
          [.ofKind .taskStarting, .ofKind .taskStopped] ∧
      (a.perform .shutdown).1.mailboxes.map (·.handled) = [[.ofKind .taskStarting]] ∧
      (a.perform .shutdown).1.mailboxes.map (·.worker) = [.dead] ∧
      (effects ++ (a.perform .shutdown).2).events = [] :=
  ⟨_, _, rfl, by decide, by decide, by decide, by decide⟩

end Audience

end Supervision
