import Supervision.Sorting

/-!
# The registry of active runs

The registry knows for each id at most one active run. A new run of an id takes the place of its
predecessor. A run that ends clears the entry only if the entry is still its own, so a superseded
run never removes its successor. Runs are numbered from one in the order in which they came.

The numbers are taken from a counter that never wraps. A counter of 64 bits gives the same numbers
as long as fewer than `2 ^ 64` runs are installed, and that is assumed.

Results: `lookup_install` and `lookup_release` say what an operation does to the entry of its id,
and that it leaves the other ids alone.
-/

namespace Supervision

/-- The active run of an id. -/
structure RegistryEntry where
  id : String
  run : Nat
deriving DecidableEq, Repr

/-- Entries in the order of their runs, and how many runs have been numbered. -/
structure Registry where
  numbered : Nat := 0
  entries : List RegistryEntry := []
deriving DecidableEq, Repr

/-- What `Registry.install` did. -/
structure Installed where
  registry : Registry
  /-- The number of the new run. -/
  run : Nat
  /-- The predecessor, whose token is to be cancelled. -/
  evicted : Option Nat
deriving DecidableEq, Repr

namespace Registry

/-- The active run of an id. -/
def lookup (r : Registry) (id : String) : Option Nat :=
  (r.entries.find? (·.id == id)).map (·.run)

/-- Numbers a new run and makes it the active run of `id`. -/
def install (r : Registry) (id : String) : Installed :=
  let run := r.numbered + 1
  { registry := ⟨run, r.entries.filter (·.id != id) ++ [⟨id, run⟩]⟩
    run
    evicted := r.lookup id }

/-- Clears the entry of `id` if it belongs to `run`, and tells whether it did. -/
def release (r : Registry) (id : String) (run : Nat) : Registry × Bool :=
  if r.lookup id = some run then
    ({ r with entries := r.entries.filter (·.id != id) }, true)
  else (r, false)

/-- The numbers of all active runs. -/
def runs (r : Registry) : List Nat := r.entries.map (·.run)

/-- The ids with an active run, in ascending order. -/
def ids (r : Registry) : List String := sortBy textLe (r.entries.map (·.id))

/-! ## What the operations do to look-ups -/

theorem find?_others (entries : List RegistryEntry) (id x : String) :
    (entries.filter (·.id != id)).find? (·.id == x) =
      if x = id then none else entries.find? (·.id == x) := by
  rw [List.find?_filter]
  by_cases hx : x = id
  · simp [hx]
  · rw [if_neg hx]
    congr 1
    funext e
    by_cases he : e.id = x
    · simp [he, hx]
    · simp [he]

/-- A new run is the active one of its id and leaves the other ids alone. -/
@[simp] theorem lookup_install (r : Registry) (id x : String) :
    (r.install id).registry.lookup x = if x = id then some (r.numbered + 1) else r.lookup x := by
  unfold lookup install
  rw [List.find?_append, find?_others]
  by_cases hx : x = id
  · simp [hx]
  · have : ¬ id = x := fun h => hx h.symm
    simp [hx, this]

/-- A release clears the entry of its id, if the entry belongs to the run. -/
@[simp] theorem lookup_release (r : Registry) (id x : String) (run : Nat) :
    (r.release id run).1.lookup x =
      if x = id ∧ r.lookup id = some run then none else r.lookup x := by
  unfold release
  by_cases h : r.lookup id = some run
  · rw [if_pos h]
    conv => lhs; unfold lookup
    rw [find?_others]
    by_cases hx : x = id
    · simp [h, hx]
    · simp [hx, lookup]
  · simp [h]

end Registry

end Supervision
