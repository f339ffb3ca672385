import Supervision.Record

/-!
# Subscribers and their mailboxes

A subscriber handles events one at a time, in the order in which its mailbox accepted them. The
mailbox has a bounded queue and a worker. `offer` puts an event into the queue or refuses it, `take`
hands the next event to the subscriber. A subscriber that panics while it handles an event, whether
at once or after a wait, goes on with the next one. If it panics before it has begun to handle the
event, the worker is lost and the queue with it.
-/

namespace Supervision

/-- What a subscriber does with an event. -/
inductive Reaction
  | returns
  /-- Writes a log record. -/
  | records (record : Record)
  | panics (payload : Payload)
  /-- Waits until somebody lets it go on, and then returns or panics. -/
  | waits (panic : Option Payload := none)
  /-- Panics before it has begun to handle the event. -/
  | dies
deriving DecidableEq, Repr

/-- A subscriber: its name, the places in its queue, and what it does with an event after the events
it has handled before. -/
structure Subscriber where
  name : String
  capacity : Nat := 1024
  react : List Event → Event → Reaction

namespace Subscriber

/-- A subscriber that reacts to events of some kinds in one way and only looks at the others. -/
def reacting (name : String) (capacity : Nat) (kinds : List EventKind) (reaction : Reaction) :
    Subscriber :=
  { name, capacity, react := fun _ e => if kinds.contains e.kind then reaction else .returns }

/-- The subscriber that writes every event to the log. -/
def logWriter : Subscriber := { name := "log-writer", react := fun _ e => .records (.lifecycle e) }

/-- The places in the queue: a capacity of zero counts as one. -/
def places (s : Subscriber) : Nat := max s.capacity 1

end Subscriber

/-- What is written and published besides. -/
structure Effects where
  records : List Record := []
  events : List Event := []
deriving DecidableEq, Repr

instance : Append Effects := ⟨fun a b => ⟨a.records ++ b.records, a.events ++ b.events⟩⟩

/-- Why a mailbox does not take an event. -/
inductive Refusal
  | full
  | closed
deriving DecidableEq, Repr

def Refusal.reason : Refusal → String
  | .full => "full"
  | .closed => "closed"

/-- What a refused event leads to: a record, and a report unless the event is such a report. -/
def Refusal.effects (refusal : Refusal) (name : String) (e : Event) : Effects :=
  { records := [.eventRefused name refusal.reason]
    events := if e.kind = .subscriberOverflow then [] else [.overflow name refusal.reason] }

/-- What a worker does. -/
inductive Worker
  | idle
  /-- The subscriber waits in the middle of an event. When it goes on it returns or panics. -/
  | waiting (event : Event) (panic : Option Payload)
  /-- A panic has ended the worker. -/
  | dead
  /-- The mailbox was closed and everything in it was handled. -/
  | ended
deriving DecidableEq, Repr

/-- A subscriber with its queue, the events it was handed so far and its worker. -/
structure Mailbox where
  subscriber : Subscriber
  queue : List Event := []
  handled : List Event := []
  worker : Worker := .idle

namespace Mailbox

/-- Has the worker finished? -/
def isOver (m : Mailbox) : Bool := m.worker == .dead || m.worker == .ended

/-- Does the subscriber wait in the middle of an event? -/
def isWaiting (m : Mailbox) : Bool := m.worker matches .waiting _ _

/-- Does the mailbox refuse another event? -/
def refusal (m : Mailbox) : Option Refusal :=
  if m.isOver then some .closed
  else if m.subscriber.places ≤ m.queue.length then some .full
  else none

/-- Puts an event into the queue unless it is refused. -/
def offer (m : Mailbox) (e : Event) : Mailbox × Effects :=
  match m.refusal with
  | some refusal => (m, refusal.effects m.subscriber.name e)
  | none => ({ m with queue := m.queue ++ [e] }, {})

/-- What a panic while an event is handled leads to: a record, and a report unless the event is such
a report. -/
def panicEffects (m : Mailbox) (payload : Payload) (e : Event) : Effects :=
  let info := payload.textOr "unknown panic"
  { records := [.subscriberPanicked m.subscriber.name info]
    events :=
      if e.kind = .subscriberPanicked then [] else [.panicked m.subscriber.name info] }

/-- Hands an event to the subscriber. -/
def handle (m : Mailbox) (e : Event) : Mailbox × Effects :=
  let after := { m with handled := m.handled ++ [e] }
  match m.subscriber.react m.handled e with
  | .returns => (after, {})
  | .records record => (after, { records := [record] })
  | .panics payload => (after, m.panicEffects payload e)
  | .waits panic => ({ after with worker := .waiting e panic }, {})
  | .dies => ({ after with worker := .dead, queue := [] }, {})

/-- Hands the next event to the subscriber, if the worker is idle and there is one. -/
def take (m : Mailbox) : Option (Mailbox × Effects) :=
  match m.worker, m.queue with
  | .idle, e :: rest => some ({ m with queue := rest }.handle e)
  | _, _ => none

/-- Lets a waiting subscriber go on. -/
def release (m : Mailbox) : Option (Mailbox × Effects) :=
  match m.worker with
  | .waiting e panic =>
      some ({ m with worker := .idle }, match panic with
        | none => {}
        | some payload => m.panicEffects payload e)
  | _ => none

/-- Ends the worker of a closed mailbox, once it is idle and the queue is empty. -/
def retire (m : Mailbox) : Option Mailbox :=
  if m.worker = .idle ∧ m.queue = [] then some { m with worker := .ended } else none

end Mailbox

/-- Offers an event to each of some mailboxes in turn. -/
def offerAll : List Mailbox → Event → List Mailbox × Effects
  | [], _ => ([], {})
  | m :: rest, e =>
      let (m, own) := m.offer e
      let (rest, others) := offerAll rest e
      (m :: rest, own ++ others)

end Supervision
