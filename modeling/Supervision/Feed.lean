import Supervision.Event

/-!
# The event feed

Every event that is published goes to the end of the feed. The feed retains the last events only, as
many as its ring has places; the places are the capacity rounded up to a power of two. A reader has
a position of its own. A reader that has fallen behind the retained events learns how many it lost
and goes on with the oldest retained one.
-/

namespace Supervision

/-- The least power of two, out of the first `bits`, that is not below `n`. -/
def powerAbove : Nat → Nat → Nat
  | 0, _ => 1
  | bits + 1, n => if n ≤ 1 then 1 else 2 * powerAbove bits ((n + 1) / 2)

/-- The places of a ring with the given capacity: at least one, rounded up to a power of two. -/
def ringPlaces (capacity : Nat) : Nat := powerAbove (capacity.log2 + 1) capacity

/-- What a reader gets. -/
inductive Reading
  | empty
  | event (event : Event)
  | lagged (lost : Nat)
deriving DecidableEq, Repr

/-- Reads at `position` from the events published so far: what is read and the next position. -/
def readFeed (places : Nat) (sent : List Event) (position : Nat) : Reading × Nat :=
  if position + places < sent.length then
    (.lagged (sent.length - places - position), sent.length - places)
  else match sent[position]? with
    | some event => (.event event, position + 1)
    | none => (.empty, position)

/-- A feed with its readers and the handles through which events are published. -/
structure Bus where
  capacity : Nat
  sent : List Event := []
  /-- The position of each reader, as long as it reads. -/
  readers : List (Option Nat) := []
  /-- Does the first handle still exist? -/
  live : Bool := true
  /-- Further handles. -/
  clones : Nat := 0
deriving DecidableEq, Repr

namespace Bus

/-- Publishes through the first handle; tells whether there was one. -/
def publish (b : Bus) (e : Event) : Bus × Bool :=
  if b.live then ({ b with sent := b.sent ++ [e] }, true) else (b, false)

/-- Adds a reader of what is published from now on. The result numbers it. -/
def subscribe (b : Bus) : Bus × Option Nat :=
  if b.live then
    ({ b with readers := b.readers ++ [some b.sent.length] }, some b.readers.length)
  else (b, none)

/-- What a receive on a reader gives. -/
inductive Receipt
  | reading (reading : Reading)
  | closed
  | gone
deriving DecidableEq, Repr

/-- Reads without waiting. A reader with nothing to read finds the bus closed once no handle is
left. -/
def receive (b : Bus) (reader : Nat) : Bus × Receipt :=
  match b.readers[reader]?.join with
  | none => (b, .gone)
  | some position =>
      let (reading, next) := readFeed (ringPlaces b.capacity) b.sent position
      let b := { b with readers := b.readers.set reader (some next) }
      if reading = .empty && !b.live && b.clones == 0 then (b, .closed) else (b, .reading reading)

def unsubscribe (b : Bus) (reader : Nat) : Bus := { b with readers := b.readers.set reader none }

/-- Adds a handle, if there is one to copy. -/
def clone (b : Bus) : Bus := if b.live then { b with clones := b.clones + 1 } else b

def drop (b : Bus) : Bus := { b with live := false }

def dropClones (b : Bus) : Bus := { b with clones := 0 }

end Bus

end Supervision
