import Supervision.Fault

/-!
# Tasks

A task is an id with an optional work routine and an optional finish callback. What the routine and
the callback do is written down as data: a routine as a list of behaviours, one for each time it is
invoked, a behaviour as a list of steps, and a callback as a list of actions. Steps and actions name
other tasks; the names are resolved where a scenario runs.
-/

namespace Supervision

/-- How a work routine ends. A routine is a closure: whenever it panics, even at the call and before
there is anything to wait for, the panic is caught. A routine of another make that panics at the
call is not covered; nobody catches that panic, and its run never comes to an end. -/
inductive Ending
  | returns (fault : Option Fault)
  | panics (payload : Payload)
deriving DecidableEq, Repr

namespace Ending

/-- The fault that the run ends with: a panic counts as one. -/
def fault : Ending → Option Fault
  | .returns fault => fault
  | .panics payload => some (.ofPanic payload)

/-- The word for this way of ending. -/
def word : Ending → String
  | .returns none => "ok"
  | .returns (some (.failed _)) => "fail"
  | .returns (some .canceled) => "canceled"
  | .returns (some (.panicked _)) => "panicked"
  | .panics _ => "panic"

end Ending

/-- One step of a work routine. -/
inductive Step
  /-- Sleeps for some milliseconds. -/
  | sleep (ms : Nat)
  /-- Sleeps; if the run is cancelled before or meanwhile, the routine ends as cancelled. -/
  | sleepOrCancel (ms : Nat)
  /-- Waits until the run is cancelled. -/
  | awaitCancel
  /-- Waits until the gate is open. -/
  | awaitGate (gate : String)
  /-- Lets the others go first, so many times. -/
  | giveWay (times : Nat)
  | submit (task : String)
  | openGate (gate : String)
  /-- Cancels the run's own token. -/
  | cancelSelf
  /-- Stops the supervisor and waits for the result. -/
  | stop
  /-- Writes down whether the run is cancelled. -/
  | askCancelled
  /-- Writes down the stage of the supervisor and the active ids. -/
  | probe
  | finish (ending : Ending)
deriving DecidableEq, Repr

/-- What a work routine does in one run; running off the end is success. -/
abbrev Behaviour := List Step

/-- A work routine: its name and what it does each time it is invoked; the last behaviour
repeats. -/
structure Routine where
  name : String := ""
  behaviours : List Behaviour := []
deriving DecidableEq, Repr

/-- What the routine does when it is invoked for the `count`-th time, counted from one. -/
def Routine.behaviour (r : Routine) (count : Nat) : Behaviour :=
  match r.behaviours[count - 1]? with
  | some b => b
  | none => r.behaviours.getLast?.getD []

/-- One action of a finish callback. -/
inductive Action
  | restart
  | restartOnError
  | restartOnSuccess
  /-- Hands the outcome to one of the restarters. -/
  | restarter (index : Nat)
  | submit (task : String)
  /-- Lets someone stop the supervisor, without waiting for it. -/
  | stop
  | openGate (gate : String)
  /-- Cancels the token of the finished run. -/
  | cancelToken
  | panic (payload : Payload)
  /-- Writes down the outcome and its task. -/
  | describe
  | probe
  /-- Writes down which restart policies want the outcome. -/
  | wants
  /-- Acts in the first calls of the callback only. -/
  | first (calls : Nat) (action : Action)
  | onSuccess (action : Action)
  | onError (action : Action)
  | ifId (id : String) (action : Action)
deriving DecidableEq, Repr

/-- A finish callback. Calls are counted under its key. -/
structure Callback where
  key : String := ""
  actions : List Action := []
deriving DecidableEq, Repr

/-- An immutable unit of work, addressed by its id. -/
structure Task where
  id : String
  work : Option Routine := none
  onFinish : Option Callback := none
deriving DecidableEq, Repr

namespace Task

/-- A task with a work routine and no callback. -/
def ofRoutine (id : String) (routine : Routine) : Task := { id, work := some routine }

def withOnFinish (t : Task) (callback : Callback) : Task := { t with onFinish := some callback }

def describe (t : Task) : String :=
  Text.labelled "Task"
    [("id", Text.quoted t.id), ("work", Text.truth t.work.isSome),
      ("on_finish", Text.truth t.onFinish.isSome)]

end Task

/-- An outcome in words: the id of the task, the fault and whether the run is cancelled. -/
def describeOutcome (id : String) (fault : Option Fault) (cancelled : Bool) : String :=
  let error := match fault with
    | some f => "Some(" ++ f.describe ++ ")"
    | none => "None"
  Text.labelled "Outcome"
    [("task", Text.quoted id), ("error", error), ("cancelled", Text.truth cancelled)]

end Supervision
