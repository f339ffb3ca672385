import Mathlib.Logic.Relation
import Supervision.Supervisor.Move

/-!
# Elementary changes

Every move of a supervisor is a chain of elementary changes. `Change s marks t` says that `s` can
turn into `t` in one such change, which leaves `marks` in the journal; `t` itself is written with
the journal of `s`, so what a change does to the state and what it writes stand apart. `Advances`
joins the two.

A state is attained if some chain of changes leads to it from the beginning. Every reachable state
is attained, so an invariant is proved by one case analysis of `Change`.

Results:
1. `launch_eq`, `giveUp_eq` and the like write an operation as what it does to the state and what
   it writes down.
2. `Attained.invariant`: what every change keeps holds of all that is attained.
-/

namespace Supervision

/-- What effects leave in the journal. -/
def Effects.marks (e : Effects) : List Mark :=
  e.records.map .recorded ++ e.events.map (.published · none)

/-- What a notice writes down when it is posted. -/
def Notice.marks (n : Notice) : List Mark := [.recorded n.record, .published n.event none]

/-- Does a mark only comment on what happens, without any change of the state? -/
def Mark.isRemark : Mark → Bool
  | .noted _ _ => true
  | .recorded (.submissionDropped _) | .recorded (.started _) | .recorded (.notRestarting _)
  | .recorded (.restarting _) | .recorded (.restartingAfter _ _ _)
  | .recorded (.budgetExhausted _ _) => true
  | _ => false

namespace Supervisor

/-! ## Writing several marks -/

/-- Writes down some marks at the present time. -/
def writeAll (s : Supervisor) (marks : List Mark) : Supervisor :=
  { s with journal := s.journal ++ marks.map fun m => ⟨s.now, m⟩ }

@[simp] theorem writeAll_nil (s : Supervisor) : s.writeAll [] = s := by simp [writeAll]

@[simp] theorem writeAll_writeAll (s : Supervisor) (marks others : List Mark) :
    (s.writeAll marks).writeAll others = s.writeAll (marks ++ others) := by
  simp [writeAll, List.append_assoc]

theorem mark_eq (s : Supervisor) (m : Mark) : s.mark m = s.writeAll [m] := rfl

theorem record_eq (s : Supervisor) (r : Record) : s.record r = s.writeAll [.recorded r] := rfl

theorem publish_eq (s : Supervisor) (e : Event) (run : Option Nat) :
    s.publish e run = s.writeAll [.published e run] := rfl

@[simp] theorem run?_writeAll (s : Supervisor) (marks : List Mark) (n : Nat) :
    (s.writeAll marks).run? n = s.run? n := rfl

theorem foldl_record (s : Supervisor) (records : List Record) :
    records.foldl record s = s.writeAll (records.map .recorded) := by
  induction records generalizing s with
  | nil => simp
  | cons r rest ih => simp [ih, record_eq]

theorem foldl_publish (s : Supervisor) (events : List Event) :
    events.foldl (fun s e => s.publish e) s = s.writeAll (events.map (.published · none)) := by
  induction events generalizing s with
  | nil => simp
  | cons e rest ih =>
      rw [List.foldl_cons, ih, publish_eq, writeAll_writeAll]
      rfl

theorem emit_eq (s : Supervisor) (effects : Effects) :
    s.emit effects = s.writeAll effects.marks := by
  simp [emit, foldl_record, foldl_publish, Effects.marks]

theorem published_writeAll (s : Supervisor) (marks : List Mark) :
    (s.writeAll marks).published = s.published ++ marks.filterMap Mark.event? := by
  simp only [published, writeAll, Journal.events, List.filterMap_append, List.filterMap_map]
  rfl

/-! ## Runs -/

/-- Changing a run leaves everything but the runs alone. -/
theorem modifyRun_eq (s : Supervisor) (number : Nat) (f : Run → Run) :
    s.modifyRun number f = { s with runs := (s.modifyRun number f).runs } := by
  cases number <;> rfl

theorem modifyRun_writeAll (s : Supervisor) (marks : List Mark) (number : Nat) (f : Run → Run) :
    (s.writeAll marks).modifyRun number f = (s.modifyRun number f).writeAll marks := by
  cases number <;> rfl

theorem length_runs_modifyRun (s : Supervisor) (number : Nat) (f : Run → Run) :
    (s.modifyRun number f).runs.length = s.runs.length := by
  cases number <;> simp [modifyRun]

theorem foldl_cancelToken_eq (s : Supervisor) (numbers : List Nat) :
    numbers.foldl cancelToken s = { s with runs := (numbers.foldl cancelToken s).runs } := by
  induction numbers generalizing s with
  | nil => rfl
  | cons number rest ih =>
      rw [List.foldl_cons, ih]
      rw [show s.cancelToken number = { s with runs := (s.cancelToken number).runs } from
        modifyRun_eq s number _]

theorem length_runs_foldl_cancelToken (s : Supervisor) (numbers : List Nat) :
    (numbers.foldl cancelToken s).runs.length = s.runs.length := by
  induction numbers generalizing s with
  | nil => rfl
  | cons number rest ih => exact (ih _).trans (length_runs_modifyRun s number _)

/-- The runs once the active run of an id, if there is one, is cancelled. -/
def evict (s : Supervisor) (id : String) : List Run :=
  match s.registry.lookup id with
  | none => s.runs
  | some predecessor => (s.cancelToken predecessor).runs

/-- The state with one more run, which is the active one of its id. -/
def withRun (s : Supervisor) (task : Task) (origin : Option Nat) : Supervisor :=
  { s with registry := (s.registry.install task.id).registry
           runs := s.evict task.id ++ [{ task, origin }] }

/-- What a launch writes down. -/
def launchMarks (s : Supervisor) (task : Task) : List Mark :=
  let run := s.registry.numbered + 1
  match s.registry.lookup task.id with
  | none => [.launched run]
  | some _ =>
      [.recorded (.activeReplaced task.id run),
        .published ((Event.ofKind .taskReplaced).withTask task.id |>.withReason "running") none,
        .launched run]

theorem launch_eq (s : Supervisor) (task : Task) (origin : Option Nat) :
    s.launch task origin = (s.withRun task origin).writeAll (s.launchMarks task) := by
  unfold launch withRun launchMarks evict
  simp only [Registry.install]
  cases h : s.registry.lookup task.id with
  | none => rfl
  | some predecessor =>
      simp only [cancelToken]
      rw [modifyRun_eq]
      simp [mark_eq, record_eq, publish_eq, writeAll]

/-- The state after a notice has been posted. -/
def withPosted (s : Supervisor) (index : Nat) : Supervisor :=
  { s with notices := s.notices.modify index fun n => { n with posted := true } }

/-- The state after a caller has dropped a call. -/
def withDropped (s : Supervisor) (index : Nat) : Supervisor :=
  { s with calls := s.calls.modify index fun call => { call with dropped := true } }

/-! ## The changes -/

/-- Why a task may be restarted on behalf of a run: a callback of the run is at work and its token
is not cancelled, or a delay of the run has come to its end. -/
inductive Grounds (s : Supervisor) (number : Nat) (task : Task) : Prop
  | callback {r : Run} {scope : Scope} {fault : Option Fault} (found : s.run? number = some r)
      (phase : r.phase = .calling scope fault) (kept : s.tokenIsCancelled r = false)
      (same : r.task = task)
  | delay {d : Delay} (member : d ∈ s.delays) (fired : d.state = .fired)
      (origin : d.origin = number) (same : d.task = task)

/-- What the end of a callback writes down. -/
def panicMarks (id : String) (scope : Scope) : Option Payload → List Mark
  | none => []
  | some payload => [.recorded (.callbackPanicked id scope (.ofPanic payload))]

/-- A step of a run that concerns nothing but the run: what it writes down, and the next phase. -/
inductive CourseStep (s : Supervisor) (number : Nat) (r : Run) : List Mark → Phase → Prop
  | begin {routine : Routine} (phase : r.phase = .launched) (work : r.task.work = some routine) :
      CourseStep s number r
        [.published ((Event.ofKind .taskStarting).withTask r.task.id) (some number),
          .recorded (.runStarting r.task.id number), .invoked number] .working
  | beginIdle (phase : r.phase = .launched) (work : r.task.work = none) :
      CourseStep s number r
        [.published ((Event.ofKind .taskStarting).withTask r.task.id) (some number),
          .recorded (.runStarting r.task.id number)] (.returned none)
  | finish (ending : Ending) (phase : r.phase = .working) (free : s.awaitsStop number = false) :
      CourseStep s number r [] (.returned ending.fault)
  | report {fault : Option Fault} (phase : r.phase = .released fault) :
      CourseStep s number r [.published (endEvent r.task.id fault) (some number)] (.due .own fault)
  | call {scope : Scope} {fault : Option Fault} {callback : Callback}
      (phase : r.phase = .due scope fault) (some : s.callback? r.task scope = some callback) :
      CourseStep s number r [.called number scope fault (s.tokenIsCancelled r)]
        (.calling scope fault)
  | pass {fault : Option Fault} (phase : r.phase = .due .own fault)
      (none : s.callback? r.task .own = none) : CourseStep s number r [] (.due .global fault)
  | leave {fault : Option Fault} (panic : Option Payload) (phase : r.phase = .calling .own fault)
      (ready : s.isDeferring number = false) :
      CourseStep s number r (panicMarks r.task.id .own panic) (.due .global fault)

/-- The callbacks of a run are over: what that writes down, and the fault of the run. -/
inductive CallbacksOver (s : Supervisor) (number : Nat) (r : Run) :
    List Mark → Option Fault → Prop
  | pass {fault : Option Fault} (phase : r.phase = .due .global fault)
      (none : s.callback? r.task .global = none) : CallbacksOver s number r [] fault
  | leave {fault : Option Fault} (panic : Option Payload)
      (phase : r.phase = .calling .global fault) (ready : s.isDeferring number = false) :
      CallbacksOver s number r (panicMarks r.task.id .global panic) fault

/-- Is a trigger there for the coordinating loop? -/
def TriggerIsPresent (s : Supervisor) : Trigger → Prop
  | .stop => False
  | .interrupt => s.setup.interruptible = true ∧ s.interrupted = true
  | .parentCancelled => s.parentCancelled = true

/-- May somebody call for a teardown? A work routine does so one call at a time. -/
def MayCall (s : Supervisor) : Requester → Prop
  | .caller number => number = s.callers
  | .run number => s.awaitsStop number = false ∧ ∃ r, s.run? number = some r ∧ r.phase = .working
  | .loop _ => False

/-- The state after a run has come into another phase. -/
def withPhase (s : Supervisor) (number : Nat) (phase : Phase) : Supervisor :=
  { s with runs := (s.setPhase number phase).runs }

/-- The state after the outcome of a run has left the line. -/
def withDelivery (s : Supervisor) (number : Nat) (fault : Option Fault) : Supervisor :=
  { s with line := s.line.erase number }.withPhase number (.finished fault)

/-- The state after the active runs and the lifetime scope have been cancelled. -/
def withAllCancelled (s : Supervisor) : Supervisor :=
  { s with runs := (s.registry.runs.foldl cancelToken s).runs, scopeCancelled := true }

/-- When the wait for the runs ends that a teardown begins now, if there is a grace period. -/
def deadline (s : Supervisor) : Option Nat :=
  s.setup.settings.gracePeriod.map fun grace => s.now + grace.timerMillis

/-- The error of a teardown that gives up now. -/
def overrun (s : Supervisor) : GraceExceeded := ⟨s.setup.settings.grace, s.registry.ids⟩

theorem setPhase_eq (s : Supervisor) (number : Nat) (phase : Phase) :
    s.setPhase number phase = s.withPhase number phase := modifyRun_eq s number _

theorem withPhase_writeAll (s : Supervisor) (marks : List Mark) (number : Nat) (phase : Phase) :
    (s.writeAll marks).withPhase number phase = (s.withPhase number phase).writeAll marks := by
  rw [← setPhase_eq, ← setPhase_eq]
  exact modifyRun_writeAll s marks number _

/-- What follows a callback of a run, or the lack of one, is one change. -/
theorem afterCallback_own (s : Supervisor) (number : Nat) (fault : Option Fault) :
    s.afterCallback number .own fault = s.withPhase number (.due .global fault) :=
  setPhase_eq s number _

theorem afterCallback_global (s : Supervisor) (number : Nat) (fault : Option Fault) :
    s.afterCallback number .global fault =
      { s with line := s.line ++ [number] }.withPhase number (.inLine fault) :=
  setPhase_eq _ number _

theorem afterCallback_writeAll (s : Supervisor) (marks : List Mark) (number : Nat) (scope : Scope)
    (fault : Option Fault) : (s.writeAll marks).afterCallback number scope fault =
      (s.afterCallback number scope fault).writeAll marks := by
  cases scope with
  | own => exact modifyRun_writeAll s marks number _
  | global => exact modifyRun_writeAll { s with line := s.line ++ [number] } marks number _

theorem announce_eq (s : Supervisor) (index : Nat) (trigger : Trigger) :
    s.announce index trigger =
      ({ s with stage := .stopped }.setCall index .announced).writeAll
        [.recorded (.stopping trigger),
          .published ((Event.ofKind .shutdownRequested).withReason trigger.name) none] := by
  simp [announce, record_eq, publish_eq, setCall, writeAll]

theorem cancelAll_eq (s : Supervisor) (index : Nat) :
    s.cancelAll index =
      (s.withAllCancelled.setCall index (.draining s.deadline)).writeAll
        [.recorded (.runsCancelled s.registry.runs.length)] := by
  unfold cancelAll
  dsimp only
  rw [foldl_cancelToken_eq]
  rfl

theorem giveUp_eq (s : Supervisor) (index : Nat) (requester : Requester) :
    s.giveUp index requester =
      ({ s with detached := s.detached + s.unfinished, senderOpen := false, done := true }.setCall
        index (.resolved (.graceExceeded s.overrun))).writeAll
          [.recorded (.graceElapsed s.overrun.grace s.overrun.stuck),
            .published ((Event.ofKind .graceExceeded).withReason
              (String.intercalate "," s.overrun.stuck)) none,
            .stopResolved requester (.graceExceeded s.overrun)] := by
  simp [giveUp, resolve, record_eq, publish_eq, mark_eq, setCall, writeAll, overrun]

theorem conclude_eq (s : Supervisor) (index : Nat) (requester : Requester) :
    s.conclude index requester =
      ({ s with done := true }.setCall index (.resolved .success)).writeAll
        [.published (.ofKind .allStopped) none, .recorded (.stopped requester.trigger),
          .stopResolved requester .success] := by
  simp [conclude, resolve, record_eq, publish_eq, mark_eq, setCall, writeAll]

/-- One elementary change: what it writes down, and the state it leads to. -/
inductive Change (s : Supervisor) : List Mark → Supervisor → Prop
  -- submissions
  | remark (m : Mark) (h : m.isRemark = true) : Change s [m] s
  | enqueue (task : Task) (created : s.stage = .created) :
      Change s [] (s.enqueue task)
  | post {index : Nat} {n : Notice} (found : s.notices[index]? = some n)
      (unposted : n.posted = false) : Change s n.marks (s.withPosted index)
  | launch (task : Task) (origin : Option Nat) (started : s.stage = .started)
      (grounds : ∀ number, origin = some number → s.Grounds number task) :
      Change s (s.launchMarks task) (s.withRun task origin)
  | opened (created : s.stage = .created) :
      Change s []
        { s with stage := .started, loop := .running, pending := [], listener := s.openListener }
  | defer {number : Nat} {r : Run} {scope : Scope} {fault : Option Fault} (delay : Duration)
      (found : s.run? number = some r) (phase : r.phase = .calling scope fault)
      (kept : s.tokenIsCancelled r = false) (alive : s.stage ≠ .stopped) (later : delay ≠ .zero) :
      Change s []
        { s with delays := s.delays ++
            [{ task := r.task, origin := number, due := s.now + delay.timerMillis }] }
  | count (streaks : List Streaks) : Change s [] { s with streaks }
  -- the course of a run
  | course {number : Nat} {r : Run} {marks : List Mark} {phase : Phase}
      (found : s.run? number = some r) (step : s.CourseStep number r marks phase) :
      Change s marks (s.withPhase number phase)
  | release {number : Nat} {r : Run} {fault : Option Fault} (found : s.run? number = some r)
      (phase : r.phase = .returned fault) :
      Change s [.released number]
        ({ s with registry := (s.registry.release r.task.id number).1 }.withPhase number
          (.released fault))
  | lineUp {number : Nat} {r : Run} {marks : List Mark} {fault : Option Fault}
      (found : s.run? number = some r) (ended : s.CallbacksOver number r marks fault) :
      Change s marks ({ s with line := s.line ++ [number] }.withPhase number (.inLine fault))
  | send {number : Nat} {r : Run} {fault : Option Fault} (found : s.run? number = some r)
      (phase : r.phase = .inLine fault) (read : s.loop ≠ .exited)
      (place : s.hasPlace number = true) :
      Change s [.sent number] { s.withDelivery number fault with queue := s.queue ++ [number] }
  | discard {number : Nat} {r : Run} {fault : Option Fault} (found : s.run? number = some r)
      (phase : r.phase = .inLine fault) (unread : s.loop = .exited) :
      Change s [.recorded (.outcomeDropped r.task.id number)] (s.withDelivery number fault)
  | cancelRun {number : Nat} {r : Run} (found : s.run? number = some r)
      (begun : r.phase ≠ .launched) :
      Change s [.cancelled number] { s with runs := (s.cancelToken number).runs }
  -- delays
  | fire {index : Nat} {d : Delay} (found : s.delays[index]? = some d)
      (pending : d.state = .pending) (due : d.due ≤ s.now) :
      Change s [] (s.setDelay index .fired)
  | abandon {index : Nat} {d : Delay} (found : s.delays[index]? = some d)
      (pending : d.state = .pending) (ended : s.scopeIsCancelled = true) :
      Change s [] (s.setDelay index .abandoned)
  | arm {index : Nat} {d : Delay} (found : s.delays[index]? = some d)
      (decided : d.state = .decided) : Change s [] (s.setDelay index .pending)
  -- the coordinating loop
  | observe {number : Nat} {rest : List Nat} {r : Run} (running : s.loop = .running)
      (queue : s.queue = number :: rest) (found : s.run? number = some r) :
      Change s
        [.recorded (outcomeRecord r.task.id r.phase.fault?.join),
          .published (outcomeEvent r.task.id r.phase.fault?.join) (some number)]
        { s with queue := rest }
  | skip {number : Nat} {rest : List Nat} (running : s.loop = .running)
      (queue : s.queue = number :: rest) (missing : s.run? number = none) :
      Change s [] { s with queue := rest }
  | heed {trigger : Trigger} (running : s.loop = .running) (first : s.heeded = false)
      (present : s.TriggerIsPresent trigger) :
      Change s [.recorded (.triggerReceived trigger)]
        ({ s with heeded := true }.addCall (.loop trigger))
  | exitLoop (running : s.loop = .running) (queue : s.queue = []) (senders : s.hasSenders = false) :
      Change s [.recorded .loopExited] { s with loop := .exited }
  -- the calls for a teardown
  | refuse {index : Nat} {requester : Requester}
      (found : s.calls[index]? = some ⟨requester, .called, false⟩) (created : s.stage = .created) :
      Change s [.stopResolved requester .notStarted] (s.setCall index (.resolved .notStarted))
  | announce {index : Nat} {requester : Requester}
      (found : s.calls[index]? = some ⟨requester, .called, false⟩) (started : s.stage = .started) :
      Change s
        [.recorded (.stopping requester.trigger),
          .published ((Event.ofKind .shutdownRequested).withReason requester.trigger.name) none]
        ({ s with stage := .stopped }.setCall index .announced)
  | join {index : Nat} {requester : Requester}
      (found : s.calls[index]? = some ⟨requester, .called, false⟩)
      (stopped : s.stage = .stopped) : Change s [] (s.setCall index .joining)
  | joined {index : Nat} {requester : Requester}
      (found : s.calls[index]? = some ⟨requester, .joining, false⟩) (done : s.done = true) :
      Change s [.stopResolved requester .success] (s.setCall index (.resolved .success))
  | cancelAll {index : Nat} {requester : Requester}
      (found : s.calls[index]? = some ⟨requester, .announced, false⟩) :
      Change s [.recorded (.runsCancelled s.registry.runs.length)]
        (s.withAllCancelled.setCall index (.draining s.deadline))
  | drained {index : Nat} {requester : Requester} {deadline : Option Nat}
      (found : s.calls[index]? = some ⟨requester, .draining deadline, false⟩)
      (empty : s.barrierIsEmpty = true) :
      Change s [] ({ s with senderOpen := false }.setCall index .awaitingLoop)
  | giveUp {index : Nat} {requester : Requester} {deadline : Option Nat}
      (found : s.calls[index]? = some ⟨requester, .draining deadline, false⟩)
      (busy : s.barrierIsEmpty = false) (late : deadline.any (· ≤ s.now) = true) :
      Change s
        [.recorded (.graceElapsed s.overrun.grace s.overrun.stuck),
          .published ((Event.ofKind .graceExceeded).withReason
            (String.intercalate "," s.overrun.stuck)) none,
          .stopResolved requester (.graceExceeded s.overrun)]
        ({ s with detached := s.detached + s.unfinished, senderOpen := false, done := true }.setCall
          index (.resolved (.graceExceeded s.overrun)))
  | conclude {index : Nat} {requester : Requester}
      (found : s.calls[index]? = some ⟨requester, .awaitingLoop, false⟩)
      (exited : s.loop = .exited) :
      Change s
        [.published (.ofKind .allStopped) none, .recorded (.stopped requester.trigger),
          .stopResolved requester .success]
        ({ s with done := true }.setCall index (.resolved .success))
  | drop {index : Nat} {requester : Requester} {state : CallState}
      (found : s.calls[index]? = some ⟨requester, state, false⟩)
      (outside : ∀ trigger, requester ≠ .loop trigger) (suspended : state.isSuspended = true) :
      Change s [] (s.withDropped index)
  | resolveWait {number : Nat} (done : s.done = true) (waiting : s.waits[number]? = some false) :
      Change s [.waitResolved number] { s with waits := s.waits.set number true }
  -- what others do
  | addCall (requester : Requester) (may : s.MayCall requester) : Change s [] (s.addCall requester)
  | addWait : Change s [] { s with waits := s.waits ++ [false] }
  | interrupt : Change s [] { s with interrupted := true }
  | cancelParent : Change s [] { s with parentCancelled := true }
  | cancelScope : Change s [] { s with scopeCancelled := true }
  | tick {time : Nat} (quiescent : s.isQuiescent = true) (later : s.now < time)
      (timers : s.timers.all (time ≤ ·) = true) : Change s [] { s with now := time }
  -- the listener
  | lag {l : Listener} {lost position : Nat} (found : s.listener = some l)
      (receiving : l.state = .receiving) (reading : s.nextReading l = (.lagged lost, position)) :
      Change s [.recorded (.listenerLagged lost)] { s with listener := some { l with position } }
  | hear {l : Listener} {e : Event} {position : Nat} (found : s.listener = some l)
      (receiving : l.state = .receiving) (reading : s.nextReading l = (.event e, position)) :
      Change s (offerAll l.mailboxes e).2.marks
        { s with listener := some ⟨position, if e.isTerminal then .closing else .receiving,
            (offerAll l.mailboxes e).1⟩ }
  | serve {l : Listener} {index : Nat} {m m' : Mailbox} {effects : Effects}
      (found : s.listener = some l) (mailbox : l.mailboxes[index]? = some m)
      (taken : m.take = some (m', effects)) : Change s effects.marks (s.setMailbox l index m')
  | letGo {l : Listener} {index : Nat} {m m' : Mailbox} {effects : Effects}
      (found : s.listener = some l) (mailbox : l.mailboxes[index]? = some m)
      (released : m.release = some (m', effects)) :
      Change s effects.marks (s.setMailbox l index m')
  | retire {l : Listener} {index : Nat} {m m' : Mailbox} (found : s.listener = some l)
      (closed : l.state ≠ .receiving) (mailbox : l.mailboxes[index]? = some m)
      (retired : m.retire = some m') : Change s [] (s.setMailbox l index m')
  | closeListener {l : Listener} (found : s.listener = some l) (closing : l.state = .closing)
      (ended : l.mailboxes.all (·.isOver) = true) :
      Change s [] { s with listener := some { l with state := .ended } }

/-- One elementary change with what it writes down. -/
def Advances (s t : Supervisor) : Prop := ∃ marks u, Change s marks u ∧ t = u.writeAll marks

/-- Some elementary changes in turn. -/
abbrev Chain : Supervisor → Supervisor → Prop := Relation.ReflTransGen Advances

/-- Some chain of elementary changes leads to the state from the beginning. -/
def Attained (setup : Setup) (s : Supervisor) : Prop := Chain (create setup) s

/-- What holds at the creation and is kept by every change holds of all that is attained. -/
theorem Attained.invariant {setup : Setup} {P : Supervisor → Prop} {s : Supervisor}
    (h : Attained setup s) (created : P (create setup))
    (kept : ∀ {s t : Supervisor} {marks : List Mark}, Attained setup s → P s → Change s marks t →
      P (t.writeAll marks)) : P s := by
  induction h with
  | refl => exact created
  | tail chain advances ih =>
      obtain ⟨marks, t, change, rfl⟩ := advances
      exact kept chain ih change

end Supervisor

end Supervision
