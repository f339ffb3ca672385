import Supervision.Scheduler.Work

/-!
# Turns and time

Processes get their turns in the order in which they lined up, and each moves until it has to wait.
Time stands still until nobody can move.
-/

namespace Supervision

namespace Scheduler

/-! ## Turns -/

/-- A run takes its course until it has to wait. -/
def course (number : Nat) : Nat → Scheduler → Scheduler
  | 0, m => m
  | steps + 1, m => match m.phase? number with
    | some .launched => course number steps (m.enter number)
    | some .working =>
        let m := m.resume number
        if m.phase? number = some .working then m else course number steps m
    | some (.returned _) => course number steps (m.make (.progress (.release number)))
    | some (.released _) => course number steps (m.make (.progress (.report number)))
    | some (.due _ _) => course number steps (m.make (.progress (.call number)))
    | some (.calling scope fault) => course number steps (m.callBack number scope fault)
    | some (.inLine _) => m.make (.progress (.send number))
    | some (.finished _) | none => m

/-- A run passes through at most this many phases. -/
def phases : Nat := 10

/-- A process that is no run makes moves until it has to wait or has made enough for one turn. -/
def turn (p : Process) : Nat → Scheduler → Scheduler
  | 0, m => m
  | moves + 1, m => match (m.options p).find? m.allows with
    | none => m
    | some move => turn p moves (m.make move)

/-- The moves that a process may make in one turn. -/
def movesPerTurn : Nat := 128

/-- Does a process let the others go first? -/
def isYielding (m : Scheduler) : Process → Bool
  | .run number => m.phase? number = some .working &&
      match (m.program number).hold with
      | .turns _ => true
      | _ => false
  | _ => false

/-- Gives a process its turn. -/
def serve (m : Scheduler) (p : Process) : Scheduler :=
  let m := { m with current := some p }
  let m := match p with
    | .run number => course number phases m
    | p => turn p movesPerTurn m
  let m := { m with current := none, known := m.known.erase p ++ [p] }
  if m.isYielding p then { m with yielding := p :: m.yielding } else m.wake none

/-- Gives processes their turns until nobody can move or the number of turns is used up. Those who
let the others go first follow when nobody else is ready. -/
def settle : Nat → Scheduler → Scheduler
  | 0, m => m
  | turns + 1, m => match m.ready with
    | [] => match m.yielding with
      | [] => m
      | yielding => settle turns { m with ready := yielding, yielding := [] }
    | p :: rest => settle turns ({ m with ready := rest }.serve p)

/-- Enough turns for everybody to come to rest. -/
def turns : Nat := 1000000

/-! ## Time -/

/-- The times at which work routines wake up. -/
def alarms (m : Scheduler) : List Nat :=
  m.programs.filterMap fun (number, p) =>
    if m.phase? number = some .working then
      match p.hold with
      | .time due | .timeOrCancel due => some due
      | _ => none
    else none

/-- The next time at which something is due after the present one. -/
def nextTime (m : Scheduler) : Option Nat :=
  ((m.supervisor.timers ++ m.alarms).filter (m.supervisor.now < ·)).min?

/-- Lets time pass up to `target`; at every instant at which something is due everybody comes to
rest first. -/
def advance (target : Nat) : Nat → Scheduler → Scheduler
  | 0, m => m
  | instants + 1, m =>
      match m.nextTime.filter (· ≤ target) with
      | some time => advance target instants (settle turns (m.make (.tick time)))
      | none => if m.supervisor.now < target then m.make (.tick target) else m

end Scheduler

end Supervision
