import Supervision.Feed
import Supervision.Journal
import Supervision.Registry
import Supervision.Restart
import Supervision.Settings
import Supervision.Subscriber
import Supervision.Task

/-!
# The state of a supervisor

A supervisor owns runs, delayed resubmissions, the outcome queue with its coordinating loop, the
calls that ask for its teardown, and the listener that hands events to the subscribers. Runs are
numbered from one in the order of their launches and stay in the list after they have ended.

A token is cancelled when its own run is, or when the lifetime scope is; the scope is cancelled when
its parent is.
-/

namespace Supervision

/-- What a supervisor is built with. -/
structure Setup where
  settings : Settings := {}
  /-- The finish callback for all tasks. -/
  onFinish : Option Callback := none
  /-- Is there an interrupt that can be fired? -/
  interruptible : Bool := true
  subscribers : List Subscriber := []
  /-- The restarters that callbacks refer to. -/
  restarters : List Restarter := []

/-- Where a run stands. -/
inductive Phase
  /-- Launched, but not begun. -/
  | launched
  /-- The work routine is at work. -/
  | working
  /-- The work routine has ended. -/
  | returned (fault : Option Fault)
  /-- The registry entry is given back. -/
  | released (fault : Option Fault)
  /-- The end is published, and the callback of this scope is next, if there is one. -/
  | due (scope : Scope) (fault : Option Fault)
  /-- A finish callback is at work. -/
  | calling (scope : Scope) (fault : Option Fault)
  /-- The outcome waits for a place in the queue. -/
  | inLine (fault : Option Fault)
  /-- The outcome is handed over; the run is finished. -/
  | finished (fault : Option Fault)
deriving DecidableEq, Repr

namespace Phase

/-- How the work routine ended, once it has. -/
def fault? : Phase → Option (Option Fault)
  | .launched | .working => none
  | .returned fault | .released fault | .due _ fault | .calling _ fault | .inLine fault
  | .finished fault => some fault

/-- Has the work routine ended? -/
def isReturned (p : Phase) : Bool := p.fault?.isSome

def isFinished : Phase → Bool
  | .finished _ => true
  | _ => false

end Phase

/-- One run of a task. -/
structure Run where
  task : Task
  /-- The run on whose behalf a restart launched this one. -/
  origin : Option Nat := none
  /-- Is the run's own token cancelled? -/
  cancelled : Bool := false
  phase : Phase := .launched
deriving DecidableEq, Repr

/-- What has become of a delay. -/
inductive DelayState
  /-- Decided on; the callback that did so has yet to set the timer. -/
  | decided
  | pending
  | fired
  | abandoned
deriving DecidableEq, Repr

/-- A resubmission on behalf of the run `origin`, to be made at the time `due`. -/
structure Delay where
  task : Task
  origin : Nat
  due : Nat
  state : DelayState := .decided
deriving DecidableEq, Repr

/-- A notice that a task waits for the start. The task is kept under a lock; the notice is posted
when the lock has been let go. -/
structure Notice where
  id : String
  /-- Has the task come in place of a waiting one? -/
  replaces : Bool
  posted : Bool := false
deriving DecidableEq, Repr

namespace Notice

def record (n : Notice) : Record :=
  if n.replaces then .pendingReplaced n.id else .taskQueued n.id

def event (n : Notice) : Event :=
  if n.replaces then (Event.ofKind .taskReplaced).withTask n.id |>.withReason "pending"
  else (Event.ofKind .taskQueued).withTask n.id

end Notice

/-- How far a call for a teardown has come. -/
inductive CallState
  | called
  /-- Another call carries out the teardown; this one waits for its end. -/
  | joining
  /-- The teardown is announced; the runs are to be cancelled next. -/
  | announced
  /-- Waits for the runs to finish, until the deadline if there is one. -/
  | draining (deadline : Option Nat)
  /-- The queue is closed; waits for the coordinating loop to exit. -/
  | awaitingLoop
  | resolved (verdict : Verdict)
deriving DecidableEq, Repr

/-- Does a call that has come so far wait for something? One that has not begun does, too. -/
def CallState.isSuspended : CallState → Bool
  | .announced | .resolved _ => false
  | _ => true

/-- A call for a teardown. -/
structure Call where
  requester : Requester
  state : CallState := .called
  /-- Has its caller dropped it? It then stays where it is. -/
  dropped : Bool := false
deriving DecidableEq, Repr

/-- The coordinating loop, which reads the outcome queue. -/
inductive Loop
  | absent
  | running
  | exited
deriving DecidableEq, Repr

/-- What the listener does. -/
inductive ListenerState
  | receiving
  /-- A terminal event was handed on; waits for the workers to finish. -/
  | closing
  | ended
deriving DecidableEq, Repr

/-- The listener reads the event feed and hands each event to the mailboxes. -/
structure Listener where
  /-- How much of the feed it has read or lost. -/
  position : Nat
  state : ListenerState := .receiving
  mailboxes : List Mailbox

/-- A supervisor. -/
structure Supervisor where
  setup : Setup
  /-- The time in milliseconds. -/
  now : Nat := 0
  stage : Stage := .created
  /-- Tasks that wait for the start. -/
  pending : List Task := []
  /-- The notices about tasks that wait, or have waited, for the start. -/
  notices : List Notice := []
  registry : Registry := {}
  runs : List Run := []
  delays : List Delay := []
  scopeCancelled : Bool := false
  parentCancelled : Bool := false
  interrupted : Bool := false
  /-- Does the supervisor still hold a sender of the outcome queue of its own? -/
  senderOpen : Bool := true
  /-- The runs whose outcomes are in the queue. -/
  queue : List Nat := []
  /-- The runs whose outcomes wait for a place, the first come first. -/
  line : List Nat := []
  loop : Loop := .absent
  /-- Has the loop acted on a trigger? -/
  heeded : Bool := false
  calls : List Call := []
  /-- For each caller who waits for the end of the teardown, whether the wait is over. -/
  waits : List Bool := []
  /-- Is the teardown over? -/
  done : Bool := false
  /-- How many runs were left behind when a grace period ended. -/
  detached : Nat := 0
  listener : Option Listener := none
  /-- The streaks of each restarter. -/
  streaks : List Streaks := []
  journal : Journal := []

namespace Supervisor

/-- A supervisor as it is built. -/
def create (setup : Setup) : Supervisor :=
  { setup, streaks := setup.restarters.map fun _ => {} }

/-! ## Views -/

def isStarted (s : Supervisor) : Bool := s.stage != .created

def isStopped (s : Supervisor) : Bool := s.stage == .stopped

def isRunning (s : Supervisor) : Bool := s.stage == .started

/-- The ids of the active runs, in ascending order. -/
def active (s : Supervisor) : List String := s.registry.ids

/-- The events published so far. -/
def published (s : Supervisor) : List Event := s.journal.events

/-- A run by its number. -/
def run? (s : Supervisor) : Nat → Option Run
  | 0 => none
  | k + 1 => s.runs[k]?

/-- Is the lifetime scope cancelled? -/
def scopeIsCancelled (s : Supervisor) : Bool := s.scopeCancelled || s.parentCancelled

/-- Is the token of a run cancelled? -/
def tokenIsCancelled (s : Supervisor) (r : Run) : Bool := r.cancelled || s.scopeIsCancelled

/-- Are all runs finished and all delays over? -/
def barrierIsEmpty (s : Supervisor) : Bool :=
  s.runs.all (·.phase.isFinished) && s.delays.all (·.state != .pending)

/-- Does anybody still hold a sender of the outcome queue? -/
def hasSenders (s : Supervisor) : Bool := s.senderOpen || s.runs.any fun r => !r.phase.isFinished

/-! ## Writing -/

def mark (s : Supervisor) (m : Mark) : Supervisor :=
  { s with journal := s.journal ++ [⟨s.now, m⟩] }

def record (s : Supervisor) (r : Record) : Supervisor := s.mark (.recorded r)

/-- Publishes an event, on behalf of a run if one is named. -/
def publish (s : Supervisor) (e : Event) (run : Option Nat := none) : Supervisor :=
  s.mark (.published e run)

/-- Writes the records and publishes the events of some effects. -/
def emit (s : Supervisor) (effects : Effects) : Supervisor :=
  effects.events.foldl (fun s e => s.publish e) (effects.records.foldl record s)

def modifyRun (s : Supervisor) (number : Nat) (f : Run → Run) : Supervisor :=
  match number with
  | 0 => s
  | k + 1 => { s with runs := s.runs.modify k f }

def setPhase (s : Supervisor) (number : Nat) (phase : Phase) : Supervisor :=
  s.modifyRun number fun r => { r with phase }

/-- Cancels the token of one run. -/
def cancelToken (s : Supervisor) (number : Nat) : Supervisor :=
  s.modifyRun number fun r => { r with cancelled := true }

/-! ## What writing does to the views -/

@[simp] theorem published_mark (s : Supervisor) (m : Mark) :
    (s.mark m).published = s.published ++ m.event?.toList := by
  cases h : m.event? <;> simp [published, mark, Journal.events, h]

@[simp] theorem run?_mark (s : Supervisor) (m : Mark) (n : Nat) : (s.mark m).run? n = s.run? n := by
  cases n <;> rfl

@[simp] theorem run?_modifyRun (s : Supervisor) (number n : Nat) (f : Run → Run) :
    (s.modifyRun number f).run? n = if n = number then (s.run? n).map f else s.run? n := by
  cases number with
  | zero => cases n <;> simp [modifyRun, run?]
  | succ k => cases n with
    | zero => simp [run?]
    | succ j =>
        by_cases h : j = k
        · simp [modifyRun, run?, h]
        · have : ¬ k = j := fun h' => h h'.symm
          simp [modifyRun, run?, h, this]

end Supervisor

end Supervision
