import Supervision.Supervisor.State

/-!
# Listening to the feed

The listener reads the event feed from the start of the supervisor on and offers each event to every
mailbox, up to and including the first terminal event. What the subscribers publish goes back into
the feed. After the terminal event the mailboxes are closed, and the listener ends when all workers
have finished.
-/

namespace Supervision

namespace Supervisor

/-- What the listener would read, and its position after that. -/
def nextReading (s : Supervisor) (l : Listener) : Reading × Nat :=
  readFeed (ringPlaces s.setup.settings.busPlaces) s.published l.position

/-- The listener reads once. -/
def listen (s : Supervisor) : Option Supervisor :=
  match s.listener with
  | none => none
  | some l =>
      if l.state != .receiving then none
      else match s.nextReading l with
        | (.empty, _) => none
        | (.lagged lost, position) =>
            some ({ s with listener := some { l with position } }.record (.listenerLagged lost))
        | (.event e, position) =>
            let (mailboxes, effects) := offerAll l.mailboxes e
            let state := if e.isTerminal then .closing else .receiving
            some ({ s with listener := some { position, state, mailboxes } }.emit effects)

def setMailbox (s : Supervisor) (l : Listener) (index : Nat) (m : Mailbox) : Supervisor :=
  { s with listener := some { l with mailboxes := l.mailboxes.set index m } }

/-- A worker hands the next event to its subscriber. -/
def serve (s : Supervisor) (index : Nat) : Option Supervisor := do
  let l ← s.listener
  let m ← l.mailboxes[index]?
  let (m, effects) ← m.take
  return (s.setMailbox l index m).emit effects

/-- A waiting subscriber goes on. -/
def letGo (s : Supervisor) (index : Nat) : Option Supervisor := do
  let l ← s.listener
  let m ← l.mailboxes[index]?
  let (m, effects) ← m.release
  return (s.setMailbox l index m).emit effects

/-- A worker of a closed mailbox ends. -/
def retire (s : Supervisor) (index : Nat) : Option Supervisor := do
  let l ← s.listener
  if l.state = .receiving then none
  else
    let m ← l.mailboxes[index]?
    let m ← m.retire
    return s.setMailbox l index m

/-- The listener ends. -/
def closeListener (s : Supervisor) : Option Supervisor :=
  match s.listener with
  | some l =>
      if l.state = .closing ∧ l.mailboxes.all (·.isOver) = true then
        some { s with listener := some { l with state := .ended } }
      else none
  | none => none

end Supervisor

end Supervision
