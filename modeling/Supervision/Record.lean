import Supervision.Event
import Supervision.Fault

/-!
# Log records

A record is one line of the log: a level, a topic if it is not the supervisor's own, a message and
fields in a fixed order. `Record` lists the occasions, `Record.render` the wording.
-/

namespace Supervision

inductive Level
  | debug
  | info
  | warn
  | error
deriving DecidableEq, Repr

def Level.name : Level → String
  | .debug => "DEBUG"
  | .info => "INFO"
  | .warn => "WARN"
  | .error => "ERROR"

/-- What starts a teardown. -/
inductive Trigger
  | stop
  | interrupt
  | parentCancelled
deriving DecidableEq, Repr

def Trigger.name : Trigger → String
  | .stop => "stop"
  | .interrupt => "interrupt"
  | .parentCancelled => "parent_cancelled"

/-- Whose finish callback: the task's own, or the one that the supervisor has for all tasks. -/
inductive Scope
  | own
  | global
deriving DecidableEq, Repr

/-- The word for a scope in the log. -/
def Scope.logName : Scope → String
  | .own => "task"
  | .global => "supervisor"

/-- One occasion for a log record. -/
inductive Record
  | submissionDropped (task : String)
  | taskQueued (task : String)
  | pendingReplaced (task : String)
  | activeReplaced (task : String) (run : Nat)
  | started (pending : Nat)
  | runStarting (task : String) (run : Nat)
  | callbackPanicked (task : String) (scope : Scope) (fault : Fault)
  | outcomeDropped (task : String) (run : Nat)
  | taskFinished (task : String)
  | taskReturnedCancelled (task : String)
  | taskFailed (task : String) (fault : Fault)
  | triggerReceived (trigger : Trigger)
  | loopExited
  | stopping (trigger : Trigger)
  | runsCancelled (count : Nat)
  | graceElapsed (grace : Duration) (stuck : List String)
  | stopped (trigger : Trigger)
  | notRestarting (task : String)
  | restarting (task : String)
  | restartingAfter (task : String) (streak : Nat) (delay : Duration)
  | budgetExhausted (task : String) (restarts : Nat)
  | listenerLagged (lost : Nat)
  | eventRefused (subscriber reason : String)
  | subscriberPanicked (subscriber info : String)
  /-- An event that the log writer was handed. -/
  | lifecycle (event : Event)
deriving DecidableEq, Repr

/-- The parts of a line. -/
structure Line where
  level : Level
  topic : Option String := none
  message : String
  fields : List (String × String) := []
deriving DecidableEq, Repr

/-- Level, topic, message and fields, with blanks between. -/
def Line.render (l : Line) : String :=
  String.intercalate " "
    (l.level.name :: (l.topic.map (· ++ ":")).toList ++ [l.message]
      ++ l.fields.map fun f => f.1 ++ "=" ++ f.2)

/-- The line about an event. A detail that the event lacks is written as a hyphen. -/
def Event.line (e : Event) : Line :=
  let task := e.task.getD "-"
  let error := e.error.getD "-"
  let reason := e.reason.getD "-"
  let line (level : Level) (message : String) (fields : List (String × String)) : Line :=
    { level, topic := some "events", message, fields }
  match e.kind with
  | .taskQueued => line .debug "queued" [("task", task)]
  | .taskReplaced => line .debug "replaced" [("task", task), ("site", reason)]
  | .taskStarting => line .debug "starting" [("task", task)]
  | .taskStopped => line .debug "stopped" [("task", task)]
  | .taskFailed => line .warn "failed" [("task", task), ("error", error)]
  | .outcomeObserved => line .debug "outcome observed" [("task", task)]
  | .shutdownRequested => line .debug "shutdown requested" [("reason", reason)]
  | .allStopped => line .debug "all stopped" []
  | .graceExceeded => line .warn "grace exceeded" [("stuck", reason)]
  | .subscriberPanicked | .subscriberOverflow =>
      line .warn "subscriber trouble" [("subscriber", task), ("reason", reason)]

namespace Record

/-- The line of each record. -/
def line : Record → Line
  | .submissionDropped task =>
      { level := .debug, message := "supervisor stopped; submission dropped"
        fields := [("task", task)] }
  | .taskQueued task =>
      { level := .debug, message := "task queued until start", fields := [("task", task)] }
  | .pendingReplaced task =>
      { level := .debug, message := "pending task replaced", fields := [("task", task)] }
  | .activeReplaced task run =>
      { level := .debug, message := "active run replaced"
        fields := [("task", task), ("run", toString run)] }
  | .started pending =>
      { level := .info, message := "supervisor started", fields := [("pending", toString pending)] }
  | .runStarting task run =>
      { level := .debug, message := "run starting"
        fields := [("task", task), ("run", toString run)] }
  | .callbackPanicked task scope fault =>
      { level := .warn, message := "finish callback panicked"
        fields := [("task", task), ("scope", scope.logName), ("error", fault.message)] }
  | .outcomeDropped task run =>
      { level := .debug, message := "outcome queue closed; outcome dropped"
        fields := [("task", task), ("run", toString run)] }
  | .taskFinished task =>
      { level := .debug, message := "task finished", fields := [("task", task)] }
  | .taskReturnedCancelled task =>
      { level := .debug, message := "task returned after cancellation", fields := [("task", task)] }
  | .taskFailed task fault =>
      { level := .error, message := "task failed"
        fields := [("task", task), ("error", fault.message), ("label", fault.label)] }
  | .triggerReceived trigger =>
      { level := .info, message := "shutdown trigger received"
        fields := [("trigger", trigger.name)] }
  | .loopExited => { level := .debug, message := "coordinating loop exited" }
  | .stopping trigger =>
      { level := .info, message := "supervisor stopping", fields := [("trigger", trigger.name)] }
  | .runsCancelled count =>
      { level := .debug, message := "active runs cancelled; waiting for them to return"
        fields := [("cancelled", toString count)] }
  | .graceElapsed grace stuck =>
      { level := .warn, message := "runs still active after grace period; detaching"
        fields := [("grace", grace.compact), ("stuck", Text.bracketed (stuck.map Text.quoted))] }
  | .stopped trigger =>
      { level := .info, message := "supervisor stopped", fields := [("trigger", trigger.name)] }
  | .notRestarting task =>
      { level := .debug, message := "run was cancelled; not restarting"
        fields := [("task", task)] }
  | .restarting task => { level := .debug, message := "restarting", fields := [("task", task)] }
  | .restartingAfter task streak delay =>
      { level := .debug, message := "restarting"
        fields := [("task", task), ("streak", toString streak), ("delay", delay.compact)] }
  | .budgetExhausted task restarts =>
      { level := .warn, message := "restart budget exhausted"
        fields := [("task", task), ("restarts", toString restarts)] }
  | .listenerLagged lost =>
      { level := .warn, message := "event listener lagged", fields := [("skipped", toString lost)] }
  | .eventRefused subscriber reason =>
      { level := .warn, message := "subscriber dropped event"
        fields := [("subscriber", subscriber), ("reason", reason)] }
  | .subscriberPanicked subscriber info =>
      { level := .warn, message := "subscriber panicked"
        fields := [("subscriber", subscriber), ("panic", info)] }
  | .lifecycle event => event.line

def render (r : Record) : String := r.line.render

end Record

end Supervision
