import Supervision.Sorting
import Supervision.Subscriber

/-!
# Subscribers driven by hand

An audience is a set of subscribers that gets its events from `emit` and whose workers run only when
they are asked to: in `settle`, and after the gate was opened or the audience was closed. A
subscriber that waits goes on once the gate is open; the gate stays open.
-/

namespace Supervision

/-- Mailboxes, a gate and whether no further events come. -/
structure Audience where
  mailboxes : List Mailbox
  gateOpen : Bool := false
  closing : Bool := false

namespace Audience

def ofSubscribers (subscribers : List Subscriber) : Audience :=
  { mailboxes := subscribers.map fun subscriber => { subscriber } }

/-- Lets one worker run until it has to wait, dies or finds the queue empty. Every event taken
shortens the queue, so its length bounds the number of rounds. -/
def run (gateOpen : Bool) : Nat → Mailbox → Mailbox × Effects
  | 0, m => (m, {})
  | rounds + 1, m =>
      let (m, before) := if gateOpen then m.release.getD (m, {}) else (m, {})
      match m.take with
      | none => (m, before)
      | some (m, own) =>
          let (m, later) := run gateOpen rounds m
          (m, before ++ own ++ later)

/-- Lets the workers run one after the other; a worker of a closed audience ends when it is done. -/
def settleAll (gateOpen closing : Bool) : List Mailbox → List Mailbox × Effects
  | [] => ([], {})
  | m :: rest =>
      let (m, own) := run gateOpen (m.queue.length + 1) m
      let m := if closing then m.retire.getD m else m
      let (rest, others) := settleAll gateOpen closing rest
      (m :: rest, own ++ others)

def settle (a : Audience) : Audience × Effects :=
  let (mailboxes, effects) := settleAll a.gateOpen a.closing a.mailboxes
  ({ a with mailboxes }, effects)

/-- Emits one event some times; no worker runs meanwhile. -/
def emit (e : Event) : Nat → Audience → Audience × Effects
  | 0, a => (a, {})
  | times + 1, a =>
      let (mailboxes, own) := offerAll a.mailboxes e
      let (a, later) := emit e times { a with mailboxes }
      (a, own ++ later)

/-- Have all workers finished? -/
def isOver (a : Audience) : Bool := a.mailboxes.all (·.isOver)

/-- What can be done to an audience. -/
inductive Operation
  | emit (event : Event) (times : Nat)
  | settle
  | openGate
  | shutdown
deriving DecidableEq, Repr

/-- Does an operation come too late? -/
def refuses (a : Audience) : Operation → Bool
  | .emit _ _ => a.closing
  | _ => false

def perform (a : Audience) : Operation → Audience × Effects
  | .emit e times => if a.closing then (a, {}) else emit e times a
  | .settle => a.settle
  | .openGate => { a with gateOpen := true }.settle
  | .shutdown => { a with closing := true }.settle

/-- What is seen of one operation. -/
structure Report where
  /-- The events that each subscriber was handed. -/
  seen : List (List Event)
  /-- Reports of refused events, in the order in which they were published. -/
  overflows : List Event
  /-- Reports of panics, ordered by the names of the subscribers. -/
  panics : List Event
  /-- The lines of the log, in ascending order. -/
  logs : List String
  /-- Has the shutdown finished? Nothing before it was asked for. -/
  closed : Option Bool
  /-- Did the operation come too late? -/
  refused : Bool
deriving Repr

/-- Performs an operation and reports on it. -/
def observe (a : Audience) (op : Operation) : Audience × Report :=
  let (after, effects) := a.perform op
  let byName (x y : Event) : Bool := textLe (x.task.getD "") (y.task.getD "")
  (after,
    { seen := List.zipWith (fun old new => new.handled.drop old.handled.length)
        a.mailboxes after.mailboxes
      overflows := effects.events.filter (·.kind == .subscriberOverflow)
      panics := sortBy byName (effects.events.filter (·.kind == .subscriberPanicked))
      logs := sortBy textLe (effects.records.map (·.render))
      closed := if after.closing then some after.isOver else none
      refused := a.refuses op })

end Audience

end Supervision
