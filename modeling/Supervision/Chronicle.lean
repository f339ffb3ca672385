import Supervision.Journal
import Supervision.Sorting

/-!
# Reading a journal

A chronicle reads a journal entry by entry and says of each what it tells about a run, a submission,
the supervisor, a call, a subscriber or the log.

A run is named after its id and its place among the starts of that id, such as `a#2`. An observed
outcome does not name its run: the outcomes of an id belong to its runs in the order in which these
have ended.
-/

namespace Supervision

/-- What happened in a run. -/
inductive RunItem
  | starting (time : Nat)
  | invoked (routine : String) (count : Nat) (cancelled : Bool) (time : Nat)
  | cancelled (yes : Bool) (time : Nat)
  | probed (stage : Stage) (active : List String)
  | ending (word : String)
  | stopped (time : Nat)
  | failed (error : String) (time : Nat)
  | called (scope : Scope) (fault : Option Fault) (cancelled : Bool) (time : Nat)
  | described (outcome task : String)
  | wanted (always onError onSuccess : Bool)
  | stopReturned (verdict : Verdict) (time : Nat)
  | observed (error : Option String) (time : Nat)
deriving DecidableEq, Repr

/-- What the supervisor published about itself; `observed` counts the outcomes observed until
then. -/
inductive SupervisorItem
  | shutdownRequested (reason : String) (time : Nat)
  | graceExceeded (reason : String) (time : Nat)
  | allStopped (time observed : Nat)
deriving DecidableEq, Repr

/-- A call that has its result. -/
inductive CallItem
  | stop (number : Nat) (verdict : Verdict) (time : Nat)
  | wait (number : Nat) (time : Nat)
deriving DecidableEq, Repr

/-- Calls for a teardown come first, then waits, both by their numbers. -/
def CallItem.le : CallItem → CallItem → Bool
  | .stop a _ _, .stop b _ _ => a ≤ b
  | .stop _ _ _, .wait _ _ => true
  | .wait _ _, .stop _ _ _ => false
  | .wait a _, .wait b _ => a ≤ b

/-- What one entry of a journal tells. -/
inductive Item
  | started (run : String)
  /-- A submission was queued, or took the place of another, which stood at the site. -/
  | submission (id : String) (site : Option String)
  | run (name : String) (item : RunItem)
  | supervisor (item : SupervisorItem)
  | call (item : CallItem)
  | trouble (event : Event)
  | log (line : String)
deriving DecidableEq, Repr

/-- How far a journal has been read. -/
structure Chronicle where
  /-- The ids of the runs that have started, in order. -/
  starts : List String := []
  /-- The names of the runs, by their numbers. -/
  names : List (Nat × String) := []
  /-- The id and the name of each run that has ended, in order. -/
  ended : List (String × String) := []
  /-- The ids of the observed outcomes, in order. -/
  observed : List String := []
deriving DecidableEq, Repr

namespace Chronicle

/-- The name of the run that starts next for an id. -/
def nextName (c : Chronicle) (id : String) : String :=
  id ++ "#" ++ toString (c.starts.count id + 1)

/-- The name of a run. -/
def name (c : Chronicle) (run : Nat) : String := (c.names.lookup run).getD ""

/-- The name of the run that the next observed outcome of an id belongs to. -/
def nextObserved (c : Chronicle) (id : String) : String :=
  (((c.ended.filter (·.1 == id))[c.observed.count id]?).map (·.2)).getD ""

/-- Reads a published event. -/
def readEvent (c : Chronicle) (time : Nat) (e : Event) (run : Option Nat) : Chronicle × List Item :=
  let id := e.task.getD ""
  let reason := e.reason.getD ""
  let own := c.name (run.getD 0)
  let ending := { c with ended := c.ended ++ [(id, own)] }
  match e.kind with
  | .taskQueued => (c, [.submission id none])
  | .taskReplaced => (c, [.submission id (some reason)])
  | .taskStarting =>
      let name := c.nextName id
      ({ c with starts := c.starts ++ [id], names := (run.getD 0, name) :: c.names },
        [.started name, .run name (.starting time)])
  | .taskStopped => (ending, [.run own (.stopped time)])
  | .taskFailed => (ending, [.run own (.failed (e.error.getD "") time)])
  | .outcomeObserved =>
      ({ c with observed := c.observed ++ [id] },
        [.run (c.nextObserved id) (.observed e.error time)])
  | .shutdownRequested => (c, [.supervisor (.shutdownRequested reason time)])
  | .graceExceeded => (c, [.supervisor (.graceExceeded reason time)])
  | .allStopped => (c, [.supervisor (.allStopped time c.observed.length)])
  | .subscriberPanicked | .subscriberOverflow => (c, [.trouble e])

/-- What a note tells. -/
def noteItem (time : Nat) : Note → RunItem
  | .invoked routine count cancelled => .invoked routine count cancelled time
  | .ending word => .ending word
  | .cancelled yes => .cancelled yes time
  | .probed stage active => .probed stage active
  | .described outcome task => .described outcome task
  | .wanted always onError onSuccess => .wanted always onError onSuccess

/-- Reads one entry. -/
def read (c : Chronicle) (entry : Entry) : Chronicle × List Item :=
  let time := entry.time
  match entry.mark with
  | .published e run => c.readEvent time e run
  | .recorded record => (c, [.log record.render])
  | .called run scope fault cancelled =>
      (c, [.run (c.name run) (.called scope fault cancelled time)])
  | .noted run note => (c, [.run (c.name run) (noteItem time note)])
  | .stopResolved (.caller number) verdict => (c, [.call (.stop number verdict time)])
  | .stopResolved (.run run) verdict => (c, [.run (c.name run) (.stopReturned verdict time)])
  | .stopResolved (.loop _) _ => (c, [])
  | .waitResolved number => (c, [.call (.wait number time)])
  | .launched _ | .invoked _ | .cancelled _ | .released _ | .sent _ => (c, [])

/-- Reads some entries in turn. -/
def readAll (c : Chronicle) : Journal → Chronicle × List Item
  | [] => (c, [])
  | entry :: rest =>
      let (c, items) := c.read entry
      let (c, more) := readAll c rest
      (c, items ++ more)

end Chronicle

/-! ## Gathering what belongs together -/

namespace Item

def started? : Item → Option String
  | .started name => some name
  | _ => none

def submission? : Item → Option (String × Option String)
  | .submission id site => some (id, site)
  | _ => none

def run? : Item → Option (String × RunItem)
  | .run name item => some (name, item)
  | _ => none

def supervisor? : Item → Option SupervisorItem
  | .supervisor item => some item
  | _ => none

def call? : Item → Option CallItem
  | .call item => some item
  | _ => none

def trouble? : Item → Option Event
  | .trouble event => some event
  | _ => none

def log? : Item → Option String
  | .log line => some line
  | _ => none

end Item

/-- Events by kind, task, error and reason. -/
def Event.le (a b : Event) : Bool := textsLe a.sortKey b.sortKey

/-- What some items tell, sorted by subject. -/
structure Digest where
  /-- The runs that started, in order. -/
  started : List String
  /-- The submissions, by id. -/
  submissions : List (String × Option String)
  /-- What happened in each run, in order. -/
  runs : List (String × List RunItem)
  supervisor : List SupervisorItem
  calls : List CallItem
  trouble : List Event
  logs : List String
deriving Repr

def Digest.ofItems (items : List Item) : Digest :=
  let runs := items.filterMap Item.run?
  { started := items.filterMap Item.started?
    submissions := sortBy (fun a b => textLe a.1 b.1) (items.filterMap Item.submission?)
    runs := (runs.map (·.1)).eraseDups.map fun name =>
      (name, (runs.filter (·.1 == name)).map (·.2))
    supervisor := items.filterMap Item.supervisor?
    calls := sortBy CallItem.le (items.filterMap Item.call?)
    trouble := sortBy Event.le (items.filterMap Item.trouble?)
    logs := sortBy textLe (items.filterMap Item.log?) }

end Supervision
