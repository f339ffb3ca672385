import Supervision.Supervisor.Submission

/-!
# The course of a run

A run publishes that it starts and invokes its work routine, even if its token is already cancelled.
When the routine has ended, by returning or by a panic, the run gives back its registry entry,
publishes how it ended, calls its own finish callback and then the global one, and puts its outcome
into the queue. The entry is given back before any callback is called, so a callback can submit the
same id without cancelling anything. A callback that panics is logged and changes nothing else.

It is assumed that a panic of a work routine is always caught, as `Ending` has it.
-/

namespace Supervision

namespace Supervisor

/-- A launched run starts. A task without a work routine succeeds at once. -/
def begin (s : Supervisor) (number : Nat) : Option Supervisor :=
  match s.run? number with
  | some r => match r.phase with
    | .launched =>
        let s := (s.publish ((Event.ofKind .taskStarting).withTask r.task.id)
          (some number)).record (.runStarting r.task.id number)
        some (match r.task.work with
          | some _ => (s.mark (.invoked number)).setPhase number .working
          | none => s.setPhase number (.returned none))
    | _ => none
  | none => none

/-- Does the work routine of a run wait for a teardown? -/
def awaitsStop (s : Supervisor) (number : Nat) : Bool :=
  s.calls.any fun call => match call.requester, call.state with
    | .run _, .resolved _ => false
    | .run n, _ => n == number && !call.dropped
    | _, _ => false

/-- The work routine of a run ends. It does so in every case that `Ending` covers. -/
def finish (s : Supervisor) (number : Nat) (ending : Ending) : Option Supervisor :=
  match s.run? number with
  | some r => match r.phase with
    | .working =>
        if s.awaitsStop number then none else some (s.setPhase number (.returned ending.fault))
    | _ => none
  | none => none

/-- A run whose routine has ended gives back its registry entry, if it still has one. -/
def release (s : Supervisor) (number : Nat) : Option Supervisor :=
  match s.run? number with
  | some r => match r.phase with
    | .returned fault =>
        some (({ s with registry := (s.registry.release r.task.id number).1 }.mark
          (.released number)).setPhase number (.released fault))
    | _ => none
  | none => none

/-- The event that tells how a run ended. -/
def endEvent (id : String) : Option Fault → Event
  | none => (Event.ofKind .taskStopped).withTask id
  | some fault => (Event.ofKind .taskFailed).withTask id |>.withError fault.message

/-- A run publishes how it ended. -/
def report (s : Supervisor) (number : Nat) : Option Supervisor :=
  match s.run? number with
  | some r => match r.phase with
    | .released fault =>
        some ((s.publish (endEvent r.task.id fault) (some number)).setPhase number
          (.due .own fault))
    | _ => none
  | none => none

/-- What comes after the callback of a scope. -/
def afterCallback (s : Supervisor) (number : Nat) (scope : Scope) (fault : Option Fault) :
    Supervisor :=
  match scope with
  | .own => s.setPhase number (.due .global fault)
  | .global => { s with line := s.line ++ [number] }.setPhase number (.inLine fault)

/-- The finish callback of a task in a scope. -/
def callback? (s : Supervisor) (task : Task) : Scope → Option Callback
  | .own => task.onFinish
  | .global => s.setup.onFinish

/-- A run calls the next finish callback, or passes over it if there is none. -/
def call (s : Supervisor) (number : Nat) : Option Supervisor :=
  match s.run? number with
  | some r => match r.phase with
    | .due scope fault =>
        some (match s.callback? r.task scope with
          | some _ => (s.mark (.called number scope fault (s.tokenIsCancelled r))).setPhase number
              (.calling scope fault)
          | none => s.afterCallback number scope fault)
    | _ => none
  | none => none

/-- A finish callback ends, by returning or by a panic. -/
def leave (s : Supervisor) (number : Nat) (panic : Option Payload) : Option Supervisor :=
  match s.run? number with
  | some r => match r.phase with
    | .calling scope fault =>
        if s.isDeferring number then none
        else
          let s := match panic with
            | none => s
            | some payload => s.record (.callbackPanicked r.task.id scope (.ofPanic payload))
          some (s.afterCallback number scope fault)
    | _ => none
  | none => none

/-- A callback of a run hands the outcome to a restarter. If that raises a panic, the callback ends
with it. -/
def handTo (s : Supervisor) (number index draw : Nat) : Option Supervisor :=
  match s.run? number with
  | some r => match r.phase with
    | .calling _ fault =>
        if s.isDeferring number then none
        else match s.consult number r fault index draw with
          | (s, none) => some s
          | (s, some payload) => s.leave number (some payload)
    | _ => none
  | none => none

/-- Is there a place in the queue for a run in line? The places go to those in front first. -/
def hasPlace (s : Supervisor) (number : Nat) : Bool :=
  s.queue.length + s.line.idxOf number < s.setup.settings.outcomePlaces

/-- A run puts its outcome into the queue and is finished. Once nobody reads the queue, the outcome
is dropped. -/
def send (s : Supervisor) (number : Nat) : Option Supervisor :=
  match s.run? number with
  | some r => match r.phase with
    | .inLine fault =>
        let away := { s with line := s.line.erase number }.setPhase number (.finished fault)
        if s.loop = .exited then some (away.record (.outcomeDropped r.task.id number))
        else if s.hasPlace number then
          some ({ away with queue := s.queue ++ [number] }.mark (.sent number))
        else none
    | _ => none
  | none => none

/-- Somebody who was handed the token of a run cancels it. -/
def cancelRun (s : Supervisor) (number : Nat) : Option Supervisor :=
  match s.run? number with
  | some r => match r.phase with
    | .launched => none
    | _ => some ((s.mark (.cancelled number)).cancelToken number)
  | none => none

/-- A work routine or a callback writes something down. -/
def note (s : Supervisor) (number : Nat) (n : Note) : Option Supervisor :=
  match s.run? number with
  | some _ => some (s.mark (.noted number n))
  | none => none

end Supervisor

end Supervision
