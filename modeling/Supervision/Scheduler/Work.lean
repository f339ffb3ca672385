import Supervision.Scheduler.State

/-!
# Carrying out work routines and callbacks

The steps of a work routine are carried out until one has to wait; the rest is kept for the next
turn. The actions of a callback are carried out all at once, up to the first that raises a panic.
-/

namespace Supervision

namespace Scheduler

/-! ## Work routines -/

/-- Lets the work routine of a run wait. -/
def hold (m : Scheduler) (number : Nat) (hold : Hold) (rest : List Step) : Scheduler :=
  m.setProgram number { hold, rest }

/-- Ends the work routine of a run. -/
def endWork (m : Scheduler) (number : Nat) (ending : Ending) : Scheduler :=
  (m.note number (.ending ending.word)).make (.finish number ending)

/-- Takes a call for a teardown as far as it goes. -/
def advanceCall (index : Nat) : Nat → Scheduler → Scheduler
  | 0, m => m
  | steps + 1, m =>
      if m.allows (.progress (.proceed index)) then
        advanceCall index steps (m.make (.progress (.proceed index)))
      else m

/-- A call takes at most this many steps. -/
def callSteps : Nat := 6

/-- Carries out the steps of a work routine until it has to wait or ends. -/
def perform (number : Nat) : List Step → Scheduler → Scheduler
  | [], m => m.endWork number (.returns none)
  | step :: rest, m =>
      let now := m.supervisor.now
      match step with
      | .finish ending => m.endWork number ending
      | .sleep ms =>
          if ms = 0 then perform number rest m else m.hold number (.time (now + ms)) rest
      | .sleepOrCancel ms =>
          if m.isCancelled number then m.endWork number (.returns (some .canceled))
          else if ms = 0 then perform number rest m
          else m.hold number (.timeOrCancel (now + ms)) rest
      | .awaitCancel =>
          if m.isCancelled number then perform number rest m else m.hold number .cancel rest
      | .awaitGate gate =>
          if m.isOpen gate then perform number rest m else m.hold number (.gate gate) rest
      | .giveWay times =>
          if times = 0 then perform number rest m else m.hold number (.turns times) rest
      | .submit task => perform number rest (m.submit task)
      | .openGate gate => perform number rest (m.openGate gate)
      | .cancelSelf => perform number rest (m.make (.cancelRun number))
      | .stop =>
          let index := m.supervisor.calls.length
          let m := advanceCall index callSteps (m.make (.stopFrom number))
          if m.isResolved index then perform number rest m else m.hold number (.call index) rest
      | .askCancelled => perform number rest (m.note number (.cancelled (m.isCancelled number)))
      | .probe => perform number rest (m.note number m.probe)

/-- Goes on with the work routine of a run, if its wait is over. -/
def resume (m : Scheduler) (number : Nat) : Scheduler :=
  let p := m.program number
  match p.hold with
  | .timeOrCancel due =>
      if m.isCancelled number then m.endWork number (.returns (some .canceled))
      else if due ≤ m.supervisor.now then perform number p.rest m
      else m
  | .turns left =>
      if left ≤ 1 then perform number p.rest m else m.hold number (.turns (left - 1)) p.rest
  | .call index =>
      let m := advanceCall index callSteps m
      if m.isResolved index then perform number p.rest m else m
  | hold => if m.isOver number hold then perform number p.rest m else m

/-- Begins a run. If the task has a work routine, it counts as invoked once more. -/
def enter (m : Scheduler) (number : Nat) : Scheduler :=
  let m := m.make (.progress (.begin number))
  match (m.supervisor.run? number).bind (·.task.work) with
  | none => m
  | some routine =>
      let m := { m with invocations := m.invocations.add routine.name }
      let count := m.invocations.count routine.name
      (m.note number (.invoked routine.name count (m.isCancelled number))).hold number .free
        (routine.behaviour count)

/-! ## Callbacks -/

/-- What a callback is called with: the run, its task and fault, the scope, and the number of calls
of this callback so far, this one included. -/
structure Occasion where
  number : Nat
  task : Task
  scope : Scope
  fault : Option Fault
  calls : Nat
deriving DecidableEq, Repr

/-- Carries out one action of a callback. The action may raise a panic. -/
def act (o : Occasion) : Action → Scheduler → Scheduler × Option Payload
  | .restart, m => (m.make (.restart o.number .always), none)
  | .restartOnError, m => (m.make (.restart o.number .onError), none)
  | .restartOnSuccess, m => (m.make (.restart o.number .onSuccess), none)
  | .restarter index, m => (m.handTo o.number index, none)
  | .submit task, m => (m.submit task, none)
  | .stop, m => (m.make .stop, none)
  | .openGate gate, m => (m.openGate gate, none)
  | .cancelToken, m => (m.make (.cancelRun o.number), none)
  | .panic payload, m => (m, some payload)
  | .describe, m =>
      let outcome := describeOutcome o.task.id o.fault (m.isCancelled o.number)
      (m.note o.number (.described outcome o.task.describe), none)
  | .probe, m => (m.note o.number m.probe, none)
  | .wants, m =>
      (m.note o.number (.wanted (RestartPolicy.always.wants o.fault)
        (RestartPolicy.onError.wants o.fault) (RestartPolicy.onSuccess.wants o.fault)), none)
  | .first calls action, m => if o.calls ≤ calls then act o action m else (m, none)
  | .onSuccess action, m => if o.fault.isNone then act o action m else (m, none)
  | .onError action, m => if o.fault.isSome then act o action m else (m, none)
  | .ifId id action, m => if o.task.id = id then act o action m else (m, none)

/-- Is the callback still at work? -/
def isCalling (m : Scheduler) (o : Occasion) : Bool :=
  m.phase? o.number == some (.calling o.scope o.fault)

/-- Carries out the actions of a callback; after a panic none is left. -/
def actAll (o : Occasion) : List Action → Scheduler → Scheduler
  | [], m => m.make (.progress (.leave o.number))
  | action :: rest, m => match act o action m with
    | (m, some payload) => m.make (.panicIn o.number payload)
    | (m, none) => if m.isCalling o then actAll o rest m else m

/-- Calls the finish callback of a run in a scope. -/
def callBack (m : Scheduler) (number : Nat) (scope : Scope) (fault : Option Fault) : Scheduler :=
  match m.supervisor.run? number with
  | none => m
  | some r => match m.supervisor.callback? r.task scope with
    | none => m
    | some callback =>
        let m := { m with callbackCalls := m.callbackCalls.add (scope, callback.key) }
        let calls := m.callbackCalls.count (scope, callback.key)
        actAll { number, task := r.task, scope, fault, calls } callback.actions m

end Scheduler

end Supervision
