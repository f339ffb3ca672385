import Supervision.Backoff
import Supervision.Fault

/-!
# Restarting

A restart is a resubmission made by a finish callback. `RestartPolicy.wants` says which outcomes
call for one. A `Restarter` also counts, for each id, the restarts since the last outcome that
called for none; the count chooses the delay and is held against a budget. The count stops at
`2^32 - 1`.
-/

namespace Supervision

/-- Which outcomes call for a restart. -/
inductive RestartPolicy
  | always
  | onError
  | onSuccess
deriving DecidableEq, Repr

/-- Does an outcome with this fault call for a restart? -/
def RestartPolicy.wants (policy : RestartPolicy) (fault : Option Fault) : Bool :=
  match policy with
  | .always => true
  | .onError => fault.isSome
  | .onSuccess => fault.isNone

/-- A restart rule with an optional delay and an optional budget. -/
structure Restarter where
  policy : RestartPolicy := .onError
  backoff : Option Backoff := none
  budget : Option Nat := none
deriving DecidableEq, Repr

/-- The number of consecutive restarts of each id. -/
structure Streaks where
  counts : List (String × Nat) := []
deriving DecidableEq, Repr

namespace Streaks

def get (s : Streaks) (id : String) : Nat := (s.counts.lookup id).getD 0

def clear (s : Streaks) (id : String) : Streaks := ⟨s.counts.filter (·.1 != id)⟩

/-- Counts one more restart of `id`. -/
def bump (s : Streaks) (id : String) : Streaks :=
  ⟨(s.clear id).counts ++ [(id, min (s.get id + 1) (2 ^ 32 - 1))]⟩

theorem lookup_others (counts : List (String × Nat)) (id x : String) :
    (counts.filter (·.1 != id)).lookup x = if x = id then none else counts.lookup x := by
  induction counts with
  | nil => simp
  | cons c rest ih =>
      obtain ⟨y, n⟩ := c
      by_cases hy : y = id
      · rw [List.filter_cons, if_neg (by simp [hy]), ih]
        by_cases hx : x = id
        · simp [hx]
        · have : (x == id) = false := beq_false_of_ne hx
          simp [hx, hy, List.lookup_cons, this]
      · rw [List.filter_cons, if_pos (by simp [hy])]
        by_cases hxy : x = y
        · simp [hxy, hy]
        · have : (x == y) = false := beq_false_of_ne hxy
          simp [List.lookup_cons, this, ih]

/-- Clearing forgets the restarts of one id. -/
@[simp] theorem get_clear (s : Streaks) (id x : String) :
    (s.clear id).get x = if x = id then 0 else s.get x := by
  by_cases hx : x = id <;> simp [get, clear, lookup_others, hx]

/-- Bumping counts one more restart of one id, up to the largest count. -/
@[simp] theorem get_bump (s : Streaks) (id x : String) :
    (s.bump id).get x = if x = id then min (s.get id + 1) (2 ^ 32 - 1) else s.get x := by
  by_cases hx : x = id
  · simp [get, bump, clear, List.lookup_append, lookup_others, hx]
  · have : (x == id) = false := beq_false_of_ne hx
    simp [get, bump, clear, List.lookup_append, lookup_others, List.lookup_cons, hx, this]

end Streaks

/-- What a restarter decides about an outcome. -/
inductive Decision
  /-- The outcome calls for no restart; the streak is over. -/
  | unwanted
  /-- The run was cancelled, so it was superseded or torn down. -/
  | cancelled
  /-- The supervisor is stopped. -/
  | stopped
  /-- The budget is spent. -/
  | exhausted (streak : Nat)
  /-- The restart is made after the delay. -/
  | again (streak : Nat) (delay : Duration)
  /-- The delay cannot be computed. -/
  | overflow (error : Backoff.Overflow)
deriving DecidableEq, Repr

namespace Restarter

/-- Decides about an outcome of `id` and keeps the streak. `draw` is the draw for the jitter. -/
def decide (r : Restarter) (streaks : Streaks) (id : String) (fault : Option Fault)
    (cancelled stopped : Bool) (draw : Nat) : Streaks × Decision :=
  if !r.policy.wants fault then (streaks.clear id, .unwanted)
  else if cancelled then (streaks, .cancelled)
  else if stopped then (streaks, .stopped)
  else
    let streak := streaks.get id
    let streaks := streaks.bump id
    if r.budget.any (· ≤ streak) then (streaks, .exhausted streak)
    else match r.backoff with
      | none => (streaks, .again streak .zero)
      | some backoff => match backoff.next streak draw with
        | .ok delay => (streaks, .again streak delay)
        | .error error => (streaks, .overflow error)

end Restarter

end Supervision
