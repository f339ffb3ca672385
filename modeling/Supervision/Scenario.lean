import Supervision.Chronicle
import Supervision.Scheduler.Turn

/-!
# Scenarios

A scenario drives a supervisor from outside, operation by operation. The deeds of one operation are
done back to back; then everybody comes to rest, and a report says what is to be seen of the
supervisor and what happened since the report before.
-/

namespace Supervision

/-- What is done from outside. -/
inductive Deed
  | submit (task : String)
  /-- Submits a task with this id and neither work nor callback. -/
  | submitBare (id : String)
  | start
  | stop
  | wait
  | interrupt
  | cancelParent
  | cancelScope
  | openGate (gate : String)
  /-- Lets some milliseconds pass. -/
  | advance (ms : Nat)
deriving DecidableEq, Repr

/-- A supervisor's setup and the tasks that can be submitted, by name. -/
structure Scenario where
  setup : Setup := {}
  tasks : List (String × Task) := []

/-- What is seen after an operation. -/
structure Report where
  time : Nat
  stage : Stage
  isStarted : Bool
  isStopped : Bool
  isRunning : Bool
  active : List String
  detached : Nat
  scopeIsCancelled : Bool
  /-- The text of a panic raised by a start. -/
  panic : Option String
  digest : Digest
  /-- How often each work routine was invoked since the beginning. -/
  invocations : Tally String
deriving Repr

namespace Scenario

/-- The state of a scenario between two operations. -/
structure State where
  scheduler : Scheduler
  chronicle : Chronicle := {}
  /-- How much of the journal has been reported. -/
  reported : Nat := 0

def State.init (scenario : Scenario) : State :=
  { scheduler := { supervisor := .create scenario.setup, tasks := scenario.tasks } }

/-- Does one deed. Starting a stopped supervisor raises a panic with the text in the result. -/
def perform (m : Scheduler) : Deed → Scheduler × Option String
  | .submit task => (m.submit task, none)
  | .submitBare id => (m.submitTask { id }, none)
  | .start => (m.make .start, match m.supervisor.start with
      | .ok _ => none
      | .error error => some error.message)
  | .stop => (m.make .stop, none)
  | .wait => (m.make .wait, none)
  | .interrupt => (m.make .interrupt, none)
  | .cancelParent => (m.make .cancelParent, none)
  | .cancelScope => (m.make .cancelScope, none)
  | .openGate gate => (m.openGate gate, none)
  | .advance ms =>
      let m := m.settle Scheduler.turns
      (m.advance (m.supervisor.now + ms) (ms + 1), none)

/-- Does some deeds back to back. Of several panics the first one counts. -/
def performAll (m : Scheduler) : List Deed → Scheduler × Option String
  | [] => (m, none)
  | deed :: rest =>
      let (m, panic) := perform m deed
      let (m, later) := performAll m rest
      (m, panic.or later)

/-- Carries out an operation and reports on it. -/
def operate (st : State) (deeds : List Deed) : State × Report :=
  let (m, panic) := performAll st.scheduler deeds
  let m := m.settle Scheduler.turns
  let s := m.supervisor
  let (chronicle, items) := st.chronicle.readAll (s.journal.drop st.reported)
  ({ scheduler := m, chronicle, reported := s.journal.length },
    { time := s.now
      stage := s.stage
      isStarted := s.isStarted
      isStopped := s.isStopped
      isRunning := s.isRunning
      active := s.active
      detached := s.detached
      scopeIsCancelled := s.scopeIsCancelled
      panic
      digest := .ofItems items
      invocations := m.invocations })

/-- Carries out operations in turn. -/
def operateAll (st : State) : List (List Deed) → State × List Report
  | [] => (st, [])
  | deeds :: rest =>
      let (st, report) := operate st deeds
      let (st, reports) := operateAll st rest
      (st, report :: reports)

/-- The events that the subscriber at a position handled, in order of kind, task, error and
reason. -/
def State.handled (st : State) (index : Nat) : List Event :=
  match st.scheduler.supervisor.listener with
  | some l => sortBy Event.le ((l.mailboxes[index]?.map (·.handled)).getD [])
  | none => []

/-- Plays a scenario: a report on each operation, and the events that each of the first so many
subscribers handled. -/
def play (scenario : Scenario) (operations : List (List Deed)) (subscribers : Nat) :
    List Report × List (List Event) :=
  let (st, reports) := operateAll (.init scenario) operations
  (reports, (List.range subscribers).map st.handled)

end Scenario

end Supervision
