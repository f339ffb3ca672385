import Supervision.Supervisor.Move

/-!
# Who can move

A scheduler makes the moves of a supervisor one at a time. Whatever can move by itself is a process:
a run with its work routine and its callbacks, a delay, the listener, the coordinating loop, a call,
a wait, a worker of a mailbox. After each move the processes that it has enabled line up for a turn.
A new process gets a turn in any case.

Of the processes that one move enables, those that had their last turn earlier go first. When time
passes that is all; otherwise runs come before delays, delays before the listener, and so on, and
workers go by their positions. When the lifetime scope is cancelled, the runs learn of it one after
the other, the last member of the scope first.

Work routines and callbacks are given as data, so a scheduler also keeps what is left of the routine
of each run, counts invocations and calls, and knows which gates are open.
-/

namespace Supervision

/-- Something that moves when its turn comes. -/
inductive Process
  | run (number : Nat)
  | delay (index : Nat)
  | listener
  | loop
  | call (index : Nat)
  | wait (number : Nat)
  | worker (index : Nat)
deriving DecidableEq, Repr

/-- What a work routine waits for. -/
inductive Hold
  | free
  | time (due : Nat)
  | timeOrCancel (due : Nat)
  | cancel
  | gate (name : String)
  /-- Lets the others go first, so many times. -/
  | turns (left : Nat)
  /-- The result of a call for a teardown. -/
  | call (index : Nat)
deriving DecidableEq, Repr

/-- What is left of the work routine of a run. -/
structure Program where
  hold : Hold := .free
  rest : List Step := []
deriving DecidableEq, Repr

/-- How often each key was counted. -/
abbrev Tally (κ : Type) := List (κ × Nat)

namespace Tally

def count {κ : Type} [BEq κ] (t : Tally κ) (key : κ) : Nat := (t.lookup key).getD 0

/-- Counts a key once more. -/
def add {κ : Type} [BEq κ] (t : Tally κ) (key : κ) : Tally κ :=
  t.filter (·.1 != key) ++ [(key, t.count key + 1)]

end Tally

/-- A supervisor, its tasks by name, and everything that is needed to run them. -/
structure Scheduler where
  supervisor : Supervisor
  tasks : List (String × Task) := []
  programs : List (Nat × Program) := []
  /-- How often each work routine was invoked. -/
  invocations : Tally String := []
  /-- How often each callback was called. -/
  callbackCalls : Tally (Scope × String) := []
  /-- The gates that are open. -/
  gates : List String := []
  /-- The processes that wait for their turn. -/
  ready : List Process := []
  /-- The process whose turn it is. -/
  current : Option Process := none
  /-- The processes that have had a turn, the last turn longest ago first. -/
  known : List Process := []
  /-- The runs that let the others go first, the last one first. -/
  yielding : List Process := []
  /-- The runs under the lifetime scope. -/
  members : List Nat := []

namespace Scheduler

/-- The gate that the subscribers share. -/
def subscribersGate : String := "subscribers"

/-- The draw for the jitter: the largest. -/
def draw : Nat := 2 ^ 64

def program (m : Scheduler) (number : Nat) : Program := (m.programs.lookup number).getD {}

def setProgram (m : Scheduler) (number : Nat) (p : Program) : Scheduler :=
  { m with programs := (number, p) :: m.programs.filter (·.1 != number) }

def isOpen (m : Scheduler) (gate : String) : Bool := m.gates.contains gate

/-- Is the token of a run cancelled? -/
def isCancelled (m : Scheduler) (number : Nat) : Bool :=
  match m.supervisor.run? number with
  | some r => m.supervisor.tokenIsCancelled r
  | none => false

def phase? (m : Scheduler) (number : Nat) : Option Phase := (m.supervisor.run? number).map (·.phase)

def allows (m : Scheduler) (move : Move) : Bool := (m.supervisor.apply move).isSome

/-- Does a call have its result? -/
def isResolved (m : Scheduler) (index : Nat) : Bool :=
  match m.supervisor.calls[index]? with
  | some { state := .resolved _, .. } => true
  | _ => false

/-! ## Who can move -/

/-- Is the wait of a work routine over? -/
def isOver (m : Scheduler) (number : Nat) : Hold → Bool
  | .free => true
  | .time due => due ≤ m.supervisor.now
  | .timeOrCancel due => due ≤ m.supervisor.now || m.isCancelled number
  | .cancel => m.isCancelled number
  | .gate name => m.isOpen name
  | .turns _ => false
  | .call index => m.isResolved index || m.allows (.progress (.proceed index))

/-- The moves of a process that is no run, the first choice first. -/
def options (m : Scheduler) : Process → List Move
  | .run _ => []
  | .delay index => [.progress (.abandon index), .progress (.fire index)]
  | .listener => [.progress .listen, .progress .closeListener]
  | .loop =>
      [.progress .heedInterrupt, .progress .heedParent, .progress .observe, .progress .exitLoop]
  | .call index => [.progress (.proceed index)]
  | .wait number => [.progress (.resolveWait number)]
  | .worker index =>
      (if m.isOpen subscribersGate then [.letGo index] else [])
        ++ [.progress (.serve index), .progress (.retire index)]

/-- Can a process move? -/
def canMove (m : Scheduler) : Process → Bool
  | .run number => match m.phase? number with
    | some .working => m.isOver number (m.program number).hold
    | some (.inLine _) => m.allows (.progress (.send number))
    | some (.finished _) | none => false
    | _ => true
  | p => (m.options p).any m.allows

/-- All processes. A call made by a work routine is no process of its own: the run sees to it. -/
def processes (m : Scheduler) : List Process :=
  let s := m.supervisor
  let calls := (List.range s.calls.length).filter fun index =>
    match s.calls[index]? with
    | some { requester := .run _, .. } => false
    | _ => true
  let workers := (s.listener.map (·.mailboxes.length)).getD 0
  (List.range workers).map .worker
    ++ (if s.listener.isSome then [.listener] else [])
    ++ (if s.loop = .absent then [] else [.loop])
    ++ (List.range s.runs.length).map (fun k => .run (k + 1))
    ++ (List.range s.delays.length).map .delay
    ++ calls.map .call
    ++ (List.range s.waits.length).map .wait

/-- The place of a process among those that one move enables. -/
def rank : Process → Nat
  | .run _ => 0
  | .delay _ => 1
  | .listener => 2
  | .loop => 3
  | .call _ => 4
  | .wait _ => 5
  | .worker _ => 6

/-- The processes that have had a turn, in the order in which a move enables them. -/
def order (m : Scheduler) (move : Option Move) : List Process :=
  let ofRank (n : Nat) : List Process := m.known.filter (rank · = n)
  let runs := match move with
    | some .cancelScope | some .cancelParent =>
        (m.members.reverse.map .run).filter m.known.contains
    | _ => ofRank 0
  let workers := (List.range (ofRank 6).length).map .worker
  match move with
  | some (.tick _) => m.known
  | _ => runs ++ ofRank 1 ++ ofRank 2 ++ ofRank 3 ++ ofRank 4 ++ ofRank 5 ++ workers

/-- Lines up the processes that a move has enabled, and new ones. -/
def wake (m : Scheduler) (move : Option Move) : Scheduler :=
  let absent (p : Process) : Bool := m.current != some p && !m.ready.contains p
  let enabled := (m.order move).filter fun p => absent p && m.canMove p
  let newcomers := m.processes.filter fun p => absent p && !m.known.contains p
  { m with ready := m.ready ++ enabled ++ newcomers }

/-- Takes a member out of a list; the last one moves into its place. -/
def takeOut (members : List Nat) (number : Nat) : List Nat :=
  match members.getLast? with
  | none => members
  | some last =>
      if members.contains number then
        (members.map fun n => if n = number then last else n).dropLast
      else members

/-- New runs join the lifetime scope; a run leaves it when it has finished and its outcome has left
the queue. -/
def updateMembers (m : Scheduler) (before : Supervisor) : Scheduler :=
  let s := m.supervisor
  let joined := (List.range (s.runs.length - before.runs.length)).map (before.runs.length + 1 + ·)
  let left := m.members.filter fun n =>
    !s.queue.contains n && (s.run? n).any (·.phase.isFinished)
  { m with members := left.foldl takeOut m.members ++ joined }

/-- Makes a move, if it is possible. -/
def make (m : Scheduler) (move : Move) : Scheduler :=
  match m.supervisor.apply move with
  | some supervisor => ({ m with supervisor }.updateMembers m.supervisor).wake (some move)
  | none => m

/-- Opens a gate for good. -/
def openGate (m : Scheduler) (gate : String) : Scheduler :=
  { m with gates := gate :: m.gates }.wake none

/-- Submits a task, and posts the notice of it if it waits for the start. -/
def submitTask (m : Scheduler) (task : Task) : Scheduler :=
  let notice := m.supervisor.notices.length
  (m.make (.submit task)).make (.progress (.post notice))

/-- Submits a task by its name. -/
def submit (m : Scheduler) (name : String) : Scheduler :=
  match m.tasks.lookup name with
  | some task => m.submitTask task
  | none => m

/-- Hands the outcome of a run to a restarter, and sets the timer if that decides on a delay. -/
def handTo (m : Scheduler) (number index : Nat) : Scheduler :=
  let delay := m.supervisor.delays.length
  (m.make (.handTo number index draw)).make (.progress (.arm delay))

def note (m : Scheduler) (number : Nat) (n : Note) : Scheduler := m.make (.note number n)

/-- What a routine or a callback sees of the supervisor. -/
def probe (m : Scheduler) : Note := .probed m.supervisor.stage m.supervisor.active

end Scheduler

end Supervision
