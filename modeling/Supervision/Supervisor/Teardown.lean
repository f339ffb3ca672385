import Supervision.Supervisor.State

/-!
# The coordinating loop and the teardown

The coordinating loop is the only reader of the outcome queue. It also watches for the interrupt and
for the end of the parent scope, and starts a teardown at the first of them. It exits when the queue
is empty and nobody can put an outcome into it any more.

The first call for a teardown carries it out: it stops the supervisor, cancels the runs, waits for
them, closes the queue, waits for the loop and publishes `AllStopped`. If there is a grace period
and it ends before the runs have finished, the runs are left behind and `GraceExceeded` is
published. The other calls wait for the end of the teardown.

A call is carried out by its caller. When the caller drops it, nobody takes it over: the supervisor
stays stopped, and a teardown that the call carried out never ends.

It is assumed that waiting for the interrupt raises no panic. The loop then ends only by exiting,
and a teardown that waits for the loop is not told of an abnormal end.
-/

namespace Supervision

namespace Supervisor

/-! ## The coordinating loop -/

/-- The record about an observed outcome. -/
def outcomeRecord (id : String) : Option Fault → Record
  | none => .taskFinished id
  | some .canceled => .taskReturnedCancelled id
  | some fault => .taskFailed id fault

/-- The event about an observed outcome. -/
def outcomeEvent (id : String) (fault : Option Fault) : Event :=
  let event := (Event.ofKind .outcomeObserved).withTask id
  match fault with
  | none => event
  | some fault => event.withError fault.message

/-- The loop takes the next outcome from the queue. -/
def observe (s : Supervisor) : Option Supervisor :=
  match s.loop, s.queue with
  | .running, number :: rest =>
      let s := { s with queue := rest }
      match s.run? number with
      | none => some s
      | some r =>
          let fault := r.phase.fault?.join
          some ((s.record (outcomeRecord r.task.id fault)).publish (outcomeEvent r.task.id fault)
            (some number))
  | _, _ => none

/-- Somebody calls for a teardown. -/
def addCall (s : Supervisor) (requester : Requester) : Supervisor :=
  let call : Call := { requester }
  { s with calls := s.calls ++ [call] }

/-- The loop acts on a trigger, once in its life. -/
def heed (s : Supervisor) (trigger : Trigger) (present : Bool) : Option Supervisor :=
  if s.loop = .running ∧ s.heeded = false ∧ present = true then
    some (({ s with heeded := true }.addCall (.loop trigger)).record (.triggerReceived trigger))
  else none

def heedInterrupt (s : Supervisor) : Option Supervisor :=
  s.heed .interrupt (s.setup.interruptible && s.interrupted)

def heedParent (s : Supervisor) : Option Supervisor := s.heed .parentCancelled s.parentCancelled

/-- The loop exits. -/
def exitLoop (s : Supervisor) : Option Supervisor :=
  if s.loop = .running ∧ s.queue = [] ∧ s.hasSenders = false then
    some ({ s with loop := .exited }.record .loopExited)
  else none

/-! ## The teardown -/

def setCall (s : Supervisor) (index : Nat) (state : CallState) : Supervisor :=
  { s with calls := s.calls.modify index fun call => { call with state } }

/-- A call has its result. -/
def resolve (s : Supervisor) (index : Nat) (requester : Requester) (verdict : Verdict) :
    Supervisor :=
  (s.setCall index (.resolved verdict)).mark (.stopResolved requester verdict)

/-- A call that comes first stops the supervisor and announces the teardown. -/
def announce (s : Supervisor) (index : Nat) (trigger : Trigger) : Supervisor :=
  (({ s with stage := .stopped }.record (.stopping trigger)).publish
    ((Event.ofKind .shutdownRequested).withReason trigger.name)).setCall index .announced

/-- Cancels the active runs and the lifetime scope, and begins to wait. -/
def cancelAll (s : Supervisor) (index : Nat) : Supervisor :=
  let runs := s.registry.runs
  let deadline := s.setup.settings.gracePeriod.map fun grace => s.now + grace.timerMillis
  ({ runs.foldl cancelToken s with scopeCancelled := true }.record
    (.runsCancelled runs.length)).setCall index (.draining deadline)

/-- The number of runs and delays that are not over. -/
def unfinished (s : Supervisor) : Nat :=
  s.runs.countP (!·.phase.isFinished) + s.delays.countP (·.state == .pending)

/-- The grace period has ended: what is not over is left behind, and the teardown ends. -/
def giveUp (s : Supervisor) (index : Nat) (requester : Requester) : Supervisor :=
  let error : GraceExceeded := ⟨s.setup.settings.grace, s.registry.ids⟩
  let s := { s with detached := s.detached + s.unfinished }
  let s := (s.record (.graceElapsed error.grace error.stuck)).publish
    ((Event.ofKind .graceExceeded).withReason (String.intercalate "," error.stuck))
  { s with senderOpen := false, done := true }.resolve index requester (.graceExceeded error)

/-- All runs have finished and the loop has exited: the teardown ends. -/
def conclude (s : Supervisor) (index : Nat) (requester : Requester) : Supervisor :=
  let s := (s.publish (.ofKind .allStopped)).record (.stopped requester.trigger)
  { s with done := true }.resolve index requester .success

/-- A call for a teardown goes one step further. One that its caller has dropped does not. -/
def proceed (s : Supervisor) (index : Nat) : Option Supervisor :=
  match s.calls[index]? with
  | none => none
  | some { requester, state, dropped } =>
    if dropped then none
    else match state with
    | .called => match s.stage with
      | .created => some (s.resolve index requester .notStarted)
      | .started => some (s.announce index requester.trigger)
      | .stopped => some (s.setCall index .joining)
    | .joining => if s.done then some (s.resolve index requester .success) else none
    | .announced => some (s.cancelAll index)
    | .draining deadline =>
        if s.barrierIsEmpty then some ({ s with senderOpen := false }.setCall index .awaitingLoop)
        else if deadline.any (· ≤ s.now) then some (s.giveUp index requester)
        else none
    | .awaitingLoop => if s.loop = .exited then some (s.conclude index requester) else none
    | .resolved _ => none

/-- Whoever made a call drops it while it waits for something. A call of the loop is never
dropped. -/
def drop (s : Supervisor) (index : Nat) : Option Supervisor :=
  match s.calls[index]? with
  | none | some { requester := .loop _, .. } => none
  | some { state, dropped, .. } =>
      if state.isSuspended = true ∧ dropped = false then
        some { s with calls := s.calls.modify index fun call => { call with dropped := true } }
      else none

/-- Somebody who waited for the end of the teardown goes on. -/
def resolveWait (s : Supervisor) (number : Nat) : Option Supervisor :=
  if s.done = true ∧ s.waits[number]? = some false then
    some ({ s with waits := s.waits.set number true }.mark (.waitResolved number))
  else none

end Supervisor

end Supervision
