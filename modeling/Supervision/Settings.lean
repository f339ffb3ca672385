import Supervision.Duration
import Supervision.Text.Quoted

/-!
# Settings of a supervisor

A grace of zero stands for no limit, and a capacity of zero counts as one.
-/

namespace Supervision

/-- Sizes and times that a supervisor is built with. -/
structure Settings where
  outcomeCapacity : Nat := 64
  busCapacity : Nat := 1024
  grace : Duration := .zero
deriving DecidableEq, Repr

namespace Settings

/-- How long a teardown waits for runs, if it does not wait without limit. -/
def gracePeriod (s : Settings) : Option Duration := if s.grace = .zero then none else some s.grace

/-- The places in the outcome queue. -/
def outcomePlaces (s : Settings) : Nat := max s.outcomeCapacity 1

/-- The places in the ring of the event feed, as asked for. -/
def busPlaces (s : Settings) : Nat := max s.busCapacity 1

def describe (s : Settings) : String :=
  Text.labelled "SupervisorConfig"
    [("outcome_capacity", toString s.outcomeCapacity), ("bus_capacity", toString s.busCapacity),
      ("grace", s.grace.compact)]

end Settings

end Supervision
