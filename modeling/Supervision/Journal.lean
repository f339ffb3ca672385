import Supervision.Record

/-!
# The journal of a supervisor

Everything that can be observed of a supervisor is written into one journal, in the order in which
it happens: the events it publishes, the records it logs, what its runs and callbacks do, and the
results of the calls made on it. `Journal.events` and `Journal.records` are views of the journal.
-/

namespace Supervision

/-- The stages of a supervisor's life, in order. -/
inductive Stage
  | created
  | started
  | stopped
deriving DecidableEq, Repr

def Stage.name : Stage → String
  | .created => "Created"
  | .started => "Started"
  | .stopped => "Stopped"

/-- How a call for a teardown ends. -/
inductive Verdict
  | success
  | graceExceeded (error : GraceExceeded)
  /-- The supervisor had not been started. -/
  | notStarted
deriving DecidableEq, Repr

/-- The text of the panic that a call on a supervisor not yet started raises. -/
def Verdict.notStartedText : String := "Supervisor::stop called before start"

/-- Who asks for a teardown. -/
inductive Requester
  /-- A call made from outside or by a callback; such calls are numbered from zero. -/
  | caller (number : Nat)
  /-- The work routine of a run, which waits for the result. -/
  | run (number : Nat)
  /-- The coordinating loop, on behalf of a trigger. -/
  | loop (trigger : Trigger)
deriving DecidableEq, Repr

/-- What counts as the trigger of a teardown that the requester starts. -/
def Requester.trigger : Requester → Trigger
  | .loop trigger => trigger
  | _ => .stop

/-- What a work routine or a callback writes down about its run. -/
inductive Note
  /-- The routine was invoked, for the `count`-th time. -/
  | invoked (routine : String) (count : Nat) (cancelled : Bool)
  /-- The routine is about to end, in the way that the word says. -/
  | ending (word : String)
  | cancelled (yes : Bool)
  | probed (stage : Stage) (active : List String)
  | described (outcome task : String)
  /-- Which restart policies want the outcome. -/
  | wanted (always onError onSuccess : Bool)
deriving DecidableEq, Repr

/-- One thing that happened. Runs go by their numbers. -/
inductive Mark
  /-- An event was published, on behalf of a run if one is named. -/
  | published (event : Event) (run : Option Nat)
  | recorded (record : Record)
  | launched (run : Nat)
  /-- The work routine was invoked. -/
  | invoked (run : Nat)
  /-- The token of the run was cancelled by somebody who was handed it. -/
  | cancelled (run : Nat)
  /-- The run gave back its registry entry, if it still had one. -/
  | released (run : Nat)
  /-- A finish callback was called; `cancelled` tells whether the token was cancelled then. -/
  | called (run : Nat) (scope : Scope) (fault : Option Fault) (cancelled : Bool)
  /-- The outcome was put into the queue. -/
  | sent (run : Nat)
  | noted (run : Nat) (note : Note)
  /-- A call for a teardown has its result. -/
  | stopResolved (requester : Requester) (verdict : Verdict)
  /-- Somebody who waited for the end of the teardown goes on. -/
  | waitResolved (number : Nat)
deriving DecidableEq, Repr

namespace Mark

def event? : Mark → Option Event
  | .published event _ => some event
  | _ => none

def record? : Mark → Option Record
  | .recorded record => some record
  | _ => none

end Mark

/-- A mark and the time, in milliseconds, at which it was made. -/
structure Entry where
  time : Nat
  mark : Mark
deriving DecidableEq, Repr

/-- Everything that happened, the earliest first. -/
abbrev Journal := List Entry

namespace Journal

/-- The published events, in order. -/
def events (j : Journal) : List Event := j.filterMap (·.mark.event?)

/-- The log records, in order. -/
def records (j : Journal) : List Record := j.filterMap (·.mark.record?)

@[simp] theorem events_append (j k : Journal) : events (j ++ k) = events j ++ events k := by
  simp [events]

end Journal

end Supervision
