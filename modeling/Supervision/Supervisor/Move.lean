import Supervision.Supervisor.Course
import Supervision.Supervisor.Listening
import Supervision.Supervisor.Teardown

/-!
# Moves of a supervisor

`Progress` lists what a supervisor does by itself, `Move` adds what others do to it: callers, work
routines, finish callbacks, subscribers that go on, and the clock. `apply` makes one move, or none
where it is not possible. A supervisor is quiescent when it can make no progress by itself; time
passes only then, and never beyond the next timer. `Reachable` holds of the states that some
sequence of moves leads to.
-/

namespace Supervision

/-- What a supervisor does by itself. Runs go by their numbers; delays, notices, calls, waits and
mailboxes go by their positions. -/
inductive Progress
  | begin (run : Nat)
  | release (run : Nat)
  | report (run : Nat)
  | call (run : Nat)
  /-- A finish callback returns. -/
  | leave (run : Nat)
  | send (run : Nat)
  | fire (delay : Nat)
  | abandon (delay : Nat)
  /-- A callback sets the timer of a delay that it has decided on. -/
  | arm (delay : Nat)
  /-- Somebody who submitted a task before the start posts the notice of it. -/
  | post (notice : Nat)
  | observe
  | heedInterrupt
  | heedParent
  | exitLoop
  | proceed (call : Nat)
  | resolveWait (wait : Nat)
  | listen
  | serve (mailbox : Nat)
  | retire (mailbox : Nat)
  | closeListener
deriving DecidableEq, Repr

/-- What can happen to a supervisor. -/
inductive Move
  | progress (p : Progress)
  | submit (task : Task)
  | start
  | stop
  | wait
  | interrupt
  | cancelParent
  | cancelScope
  /-- The work routine of a run asks for the teardown and waits for the result. -/
  | stopFrom (run : Nat)
  /-- A caller drops a call for the teardown that has no result yet. -/
  | drop (call : Nat)
  /-- Somebody who was handed the token of a run cancels it. -/
  | cancelRun (run : Nat)
  /-- The work routine of a run ends. -/
  | finish (run : Nat) (ending : Ending)
  /-- A finish callback restarts the task if the policy wants the outcome. -/
  | restart (run : Nat) (policy : RestartPolicy)
  /-- A finish callback hands the outcome to a restarter; `draw` is the draw for the jitter. -/
  | handTo (run index draw : Nat)
  /-- A finish callback panics. -/
  | panicIn (run : Nat) (payload : Payload)
  | note (run : Nat) (note : Note)
  /-- A waiting subscriber goes on. -/
  | letGo (mailbox : Nat)
  /-- The clock moves on to a time. -/
  | tick (time : Nat)
deriving DecidableEq, Repr

/-- Why a supervisor cannot be started. -/
inductive StartError
  | stopped
deriving DecidableEq, Repr

def StartError.message : StartError → String
  | .stopped => "Supervisor::start called on a stopped supervisor"

namespace Supervisor

/-! ## Starting -/

/-- The listener of a supervisor that starts now, if there are subscribers. -/
def openListener (s : Supervisor) : Option Listener :=
  match s.setup.subscribers with
  | [] => none
  | subscribers =>
      some { position := s.published.length
             mailboxes := subscribers.map fun subscriber => { subscriber } }

/-- Starts the supervisor and launches the waiting tasks. A started one stays as it is. It is
assumed that the subscribers tell their names and capacities without a panic and that no capacity is
beyond what a queue can have, so that a supervisor that was not started yet can be started. -/
def start (s : Supervisor) : Except StartError Supervisor :=
  match s.stage with
  | .started => .ok s
  | .stopped => .error .stopped
  | .created =>
      let opened := { s with stage := .started, loop := .running, pending := []
                             listener := s.openListener }
      .ok (s.pending.foldl (fun s task => s.launch task none)
        (opened.record (.started s.pending.length)))

/-! ## Delays -/

def setDelay (s : Supervisor) (index : Nat) (state : DelayState) : Supervisor :=
  { s with delays := s.delays.modify index fun d => { d with state } }

/-- A delay that is due submits its task. -/
def fire (s : Supervisor) (index : Nat) : Option Supervisor :=
  match s.delays[index]? with
  | some d =>
      if d.state = .pending ∧ d.due ≤ s.now then
        some ((s.setDelay index .fired).submit d.task (some d.origin))
      else none
  | none => none

/-- A delay is given up once the lifetime scope is cancelled. -/
def abandon (s : Supervisor) (index : Nat) : Option Supervisor :=
  match s.delays[index]? with
  | some d =>
      if d.state = .pending ∧ s.scopeIsCancelled = true then some (s.setDelay index .abandoned)
      else none
  | none => none

/-- A callback sets the timer of a delay, whatever has happened since it decided on it. -/
def arm (s : Supervisor) (index : Nat) : Option Supervisor :=
  match s.delays[index]? with
  | some d => if d.state = .decided then some (s.setDelay index .pending) else none
  | none => none

/-! ## Making moves -/

/-- Makes some progress, if it is possible. -/
def progress (s : Supervisor) : Progress → Option Supervisor
  | .begin run => s.begin run
  | .release run => s.release run
  | .report run => s.report run
  | .call run => s.call run
  | .leave run => s.leave run none
  | .send run => s.send run
  | .fire delay => s.fire delay
  | .abandon delay => s.abandon delay
  | .arm delay => s.arm delay
  | .post notice => s.post notice
  | .observe => s.observe
  | .heedInterrupt => s.heedInterrupt
  | .heedParent => s.heedParent
  | .exitLoop => s.exitLoop
  | .proceed call => s.proceed call
  | .resolveWait wait => s.resolveWait wait
  | .listen => s.listen
  | .serve mailbox => s.serve mailbox
  | .retire mailbox => s.retire mailbox
  | .closeListener => s.closeListener

/-- All progress that could be possible. -/
def candidates (s : Supervisor) : List Progress :=
  let mailboxes := (s.listener.map (·.mailboxes.length)).getD 0
  ((List.range s.runs.length).flatMap fun k =>
      ([.begin (k + 1), .release (k + 1), .report (k + 1), .call (k + 1), .leave (k + 1),
        .send (k + 1)] : List Progress))
    ++ ((List.range s.delays.length).flatMap fun k =>
      ([.fire k, .abandon k, .arm k] : List Progress))
    ++ (List.range s.notices.length).map Progress.post
    ++ ([.observe, .heedInterrupt, .heedParent, .exitLoop] : List Progress)
    ++ (List.range s.calls.length).map Progress.proceed
    ++ (List.range s.waits.length).map Progress.resolveWait
    ++ ([.listen, .closeListener] : List Progress)
    ++ ((List.range mailboxes).flatMap fun k => ([.serve k, .retire k] : List Progress))

/-- Is no progress possible? -/
def isQuiescent (s : Supervisor) : Bool := s.candidates.all fun p => (s.progress p).isNone

/-- The times at which a pending delay is due or a grace period ends. Nobody waits for the end of
the grace period of a call that is dropped. -/
def timers (s : Supervisor) : List Nat :=
  (s.delays.filter (·.state == .pending)).map (·.due)
    ++ s.calls.filterMap fun call => match call.state with
      | .draining deadline => if call.dropped then none else deadline
      | _ => none

/-- The clock moves on. -/
def tick (s : Supervisor) (time : Nat) : Option Supervisor :=
  if s.isQuiescent = true ∧ s.now < time ∧ s.timers.all (time ≤ ·) = true then
    some { s with now := time }
  else none

/-- The number of calls for a teardown made from outside or by callbacks. -/
def callers (s : Supervisor) : Nat :=
  s.calls.countP fun call => match call.requester with
    | .caller _ => true
    | _ => false

/-- The work routine of a run asks for the teardown. -/
def stopFrom (s : Supervisor) (number : Nat) : Option Supervisor :=
  match s.run? number with
  | some r => match r.phase with
    | .working => if s.awaitsStop number then none else some (s.addCall (.run number))
    | _ => none
  | none => none

/-- Makes a move, if it is possible. -/
def apply (s : Supervisor) : Move → Option Supervisor
  | .progress p => s.progress p
  | .submit task => some (s.submit task)
  | .start => match s.start with
    | .ok s => some s
    | .error _ => some s
  | .stop => some (s.addCall (.caller s.callers))
  | .wait => some { s with waits := s.waits ++ [false] }
  | .interrupt => some { s with interrupted := true }
  | .cancelParent => some { s with parentCancelled := true }
  | .cancelScope => some { s with scopeCancelled := true }
  | .stopFrom run => s.stopFrom run
  | .drop call => s.drop call
  | .cancelRun run => s.cancelRun run
  | .finish run ending => s.finish run ending
  | .restart run policy => s.restart run policy
  | .handTo run index draw => s.handTo run index draw
  | .panicIn run payload => s.leave run (some payload)
  | .note run n => s.note run n
  | .letGo mailbox => s.letGo mailbox
  | .tick time => s.tick time

/-- Makes some moves in turn. -/
def applyAll (s : Supervisor) : List Move → Option Supervisor
  | [] => some s
  | m :: rest => (s.apply m).bind (applyAll · rest)

/-- The states that a supervisor with this setup can get into. -/
inductive Reachable (setup : Setup) : Supervisor → Prop
  | init : Reachable setup (create setup)
  | step {s t : Supervisor} {m : Move} :
      Reachable setup s → s.apply m = some t → Reachable setup t

/-- Some sequence of moves leads from one state to another. -/
inductive Leads : Supervisor → Supervisor → Prop
  | refl (s : Supervisor) : Leads s s
  | step {s t u : Supervisor} {m : Move} : Leads s t → t.apply m = some u → Leads s u

theorem Leads.trans {s t u : Supervisor} (h : Leads s t) (k : Leads t u) : Leads s u := by
  induction k with
  | refl => exact h
  | step _ happly ih => exact ih.step happly

theorem Reachable.leads {setup : Setup} {s t : Supervisor} (h : Reachable setup s)
    (k : Leads s t) : Reachable setup t := by
  induction k with
  | refl => exact h
  | step _ happly ih => exact ih.step happly

/-- What some moves in turn lead to. -/
theorem leads_of_applyAll {s t : Supervisor} {moves : List Move}
    (h : s.applyAll moves = some t) : Leads s t := by
  induction moves generalizing s with
  | nil =>
      cases h
      exact .refl _
  | cons m rest ih =>
      obtain ⟨u, happly, hrest⟩ := Option.bind_eq_some_iff.mp h
      exact ((Leads.refl s).step happly).trans (ih hrest)

theorem reachable_of_applyAll {setup : Setup} {s : Supervisor} {moves : List Move}
    (h : (create setup).applyAll moves = some s) : Reachable setup s :=
  Reachable.init.leads (leads_of_applyAll h)

end Supervisor

end Supervision
