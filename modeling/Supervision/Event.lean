/-!
# Lifecycle events

An event tells what happened to a task, to the supervisor or to a subscriber. `task` names the task
or the subscriber, `error` is the text of a fault, `reason` any further detail.
-/

namespace Supervision

/-- What happened. -/
inductive EventKind
  | taskQueued
  | taskReplaced
  | taskStarting
  | taskStopped
  | taskFailed
  | outcomeObserved
  | shutdownRequested
  | allStopped
  | graceExceeded
  | subscriberPanicked
  | subscriberOverflow
deriving DecidableEq, Repr

namespace EventKind

def all : List EventKind :=
  [.taskQueued, .taskReplaced, .taskStarting, .taskStopped, .taskFailed, .outcomeObserved,
    .shutdownRequested, .allStopped, .graceExceeded, .subscriberPanicked, .subscriberOverflow]

def name : EventKind → String
  | .taskQueued => "TaskQueued"
  | .taskReplaced => "TaskReplaced"
  | .taskStarting => "TaskStarting"
  | .taskStopped => "TaskStopped"
  | .taskFailed => "TaskFailed"
  | .outcomeObserved => "OutcomeObserved"
  | .shutdownRequested => "ShutdownRequested"
  | .allStopped => "AllStopped"
  | .graceExceeded => "GraceExceeded"
  | .subscriberPanicked => "SubscriberPanicked"
  | .subscriberOverflow => "SubscriberOverflow"

def ofName? (text : String) : Option EventKind := all.find? (·.name == text)

end EventKind

/-- One event. -/
structure Event where
  kind : EventKind
  task : Option String := none
  error : Option String := none
  reason : Option String := none
deriving DecidableEq, Repr

namespace Event

/-- An event without details. -/
def ofKind (kind : EventKind) : Event := { kind }

def withTask (e : Event) (text : String) : Event := { e with task := some text }

def withError (e : Event) (text : String) : Event := { e with error := some text }

def withReason (e : Event) (text : String) : Event := { e with reason := some text }

/-- A subscriber's queue refused an event. -/
def overflow (subscriber reason : String) : Event :=
  { kind := .subscriberOverflow, task := some subscriber, reason := some reason }

/-- A subscriber panicked while it handled an event. -/
def panicked (subscriber info : String) : Event :=
  { kind := .subscriberPanicked, task := some subscriber, reason := some info }

/-- Does the event end the life of a supervisor? -/
def isTerminal (e : Event) : Bool := e.kind == .allStopped || e.kind == .graceExceeded

/-- Kind, task, error and reason as texts: the key by which lists of events are sorted. -/
def sortKey (e : Event) : List String :=
  [e.kind.name, e.task.getD "", e.error.getD "", e.reason.getD ""]

end Event

end Supervision
