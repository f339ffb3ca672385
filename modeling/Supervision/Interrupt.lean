/-!
# Interrupts fired by hand

Handles share a bell: firing through one handle fires it for every handle that shares the bell.
Once fired, a bell stays fired.
-/

namespace Supervision

/-- Handles, each with the number of its bell, and whether each bell has been fired. -/
structure Interrupts where
  handles : List Nat
  fired : List Bool
deriving DecidableEq, Repr

namespace Interrupts

/-- One handle with a bell of its own. -/
def single : Interrupts := ⟨[0], [false]⟩

/-- Adds a handle with a new bell. The result names the handle. -/
def create (s : Interrupts) : Interrupts × Nat :=
  (⟨s.handles ++ [s.fired.length], s.fired ++ [false]⟩, s.handles.length)

/-- Adds a handle that shares the bell of `handle`. -/
def share (s : Interrupts) (handle : Nat) : Option (Interrupts × Nat) :=
  s.handles[handle]?.map fun bell => ({ s with handles := s.handles ++ [bell] }, s.handles.length)

/-- Fires the bell of `handle`; firing it again changes nothing. -/
def fire (s : Interrupts) (handle : Nat) : Interrupts :=
  match s.handles[handle]? with
  | some bell => { s with fired := s.fired.set bell true }
  | none => s

/-- Has the bell of `handle` been fired? Waiting on the handle is over exactly then. -/
def isFired (s : Interrupts) (handle : Nat) : Bool :=
  match s.handles[handle]? with
  | some bell => s.fired[bell]?.getD false
  | none => false

end Interrupts

end Supervision
