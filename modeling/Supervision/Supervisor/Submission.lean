import Supervision.Supervisor.State

/-!
# Submitting tasks

A submission to a supervisor that is not started waits for the start, in place of a waiting task
with the same id. A submission to a started supervisor is launched at once; an active run with the
same id is cancelled and superseded. A submission to a stopped supervisor is dropped.

Nobody holds a lock from the beginning of a call to its end. A task is kept for the start in one
step, and the notice of it is posted in another. A callback decides on a delay in one step and sets
its timer in another. In between others can do anything, even start and stop the supervisor.

Callbacks resubmit a finished task through `restart` and `consult`. Both leave a cancelled run
alone: it was superseded or torn down.
-/

namespace Supervision

namespace Supervisor

/-- Launches a run of a task; an active run with the same id is cancelled and superseded. -/
def launch (s : Supervisor) (task : Task) (origin : Option Nat) : Supervisor :=
  let installed := s.registry.install task.id
  let s := match installed.evicted with
    | none => s
    | some predecessor =>
        ((s.cancelToken predecessor).record (.activeReplaced task.id installed.run)).publish
          ((Event.ofKind .taskReplaced).withTask task.id |>.withReason "running")
  let run : Run := { task, origin }
  { s with registry := installed.registry, runs := s.runs ++ [run] }.mark (.launched installed.run)

/-- Keeps a task until the start, in place of a waiting task with the same id. The notice of it is
still to be posted. -/
def enqueue (s : Supervisor) (task : Task) : Supervisor :=
  let sameId (t : Task) : Bool := t.id == task.id
  { s with pending := s.pending.eraseP sameId ++ [task]
           notices := s.notices ++ [{ id := task.id, replaces := s.pending.any sameId }] }

/-- Posts a notice about a waiting task, whatever has happened since the task was kept. -/
def post (s : Supervisor) (index : Nat) : Option Supervisor :=
  match s.notices[index]? with
  | some notice =>
      if notice.posted then none
      else
        let notices := s.notices.modify index fun n => { n with posted := true }
        some (({ s with notices }.record notice.record).publish notice.event)
  | none => none

/-- Submits a task, on behalf of the run `origin` if it is a restart. -/
def submit (s : Supervisor) (task : Task) (origin : Option Nat := none) : Supervisor :=
  match s.stage with
  | .created => s.enqueue task
  | .started => s.launch task origin
  | .stopped => s.record (.submissionDropped task.id)

/-- Submits the task of the run `origin` again after a delay, at once if the delay is zero. The
timer of the delay is still to be set. -/
def submitAfter (s : Supervisor) (task : Task) (origin : Nat) (delay : Duration) : Supervisor :=
  if delay = .zero then s.submit task (some origin)
  else { s with delays := s.delays ++ [{ task, origin, due := s.now + delay.timerMillis }] }

/-- Does a callback of the run have a timer to set? Until then it does nothing else. -/
def isDeferring (s : Supervisor) (number : Nat) : Bool :=
  s.delays.any fun d => d.origin == number && d.state == .decided

/-- Submits the task of a finished run again, unless the run was cancelled or the supervisor is
stopped. -/
def resubmit (s : Supervisor) (number : Nat) (r : Run) : Supervisor :=
  if s.tokenIsCancelled r then s.record (.notRestarting r.task.id)
  else if s.isStopped then s
  else (s.record (.restarting r.task.id)).submit r.task (some number)

/-- A callback of a run restarts the task if the policy wants the outcome. -/
def restart (s : Supervisor) (number : Nat) (policy : RestartPolicy) : Option Supervisor :=
  match s.run? number with
  | some r => match r.phase with
    | .calling _ fault =>
        if s.isDeferring number then none
        else some (if policy.wants fault then s.resubmit number r else s)
    | _ => none
  | none => none

/-- Carries out what a restarter decided about a run. A delay that cannot be computed raises a
panic, whose payload is the second part of the result. -/
def enact (s : Supervisor) (number : Nat) (task : Task) : Decision → Supervisor × Option Payload
  | .unwanted | .stopped => (s, none)
  | .cancelled => (s.record (.notRestarting task.id), none)
  | .exhausted streak => (s.record (.budgetExhausted task.id streak), none)
  | .again streak delay =>
      ((s.record (.restartingAfter task.id streak delay)).submitAfter task number delay, none)
  | .overflow error => (s, some (.text error.message))

/-- Lets a restarter decide about the outcome of a run, and keeps its streaks. -/
def consult (s : Supervisor) (number : Nat) (r : Run) (fault : Option Fault) (index draw : Nat) :
    Supervisor × Option Payload :=
  match s.setup.restarters[index]?, s.streaks[index]? with
  | some restarter, some streaks =>
      let (streaks, decision) :=
        restarter.decide streaks r.task.id fault (s.tokenIsCancelled r) s.isStopped draw
      { s with streaks := s.streaks.set index streaks }.enact number r.task decision
  | _, _ => (s, none)

end Supervisor

end Supervision
