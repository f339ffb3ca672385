import Supervision.Duration

/-!
# Jitter

Jitter spreads restarts that would fall on the same instant. It works on whole milliseconds, so a
delay below one millisecond is left alone, and a count beyond 64 bits is cut to the largest one.
A draw is the number that the random source returns; a draw beyond its range counts as the largest.
-/

namespace Supervision

/-- How a delay is varied. -/
inductive Jitter
  | none
  | full
  | equal
deriving DecidableEq, Repr

/-- Whole milliseconds, at most `2^64 - 1`. -/
def Duration.cappedMillis (d : Duration) : Nat := min d.wholeMillis (2 ^ 64 - 1)

namespace Jitter

/-- The largest draw that makes a difference: the range of draws is `0` to this number. -/
def range (jitter : Jitter) (delay : Duration) : Nat :=
  match jitter with
  | .none => 0
  | .full => delay.cappedMillis
  | .equal => delay.cappedMillis / 2

/-- `full` takes a whole number of milliseconds up to the delay, `equal` half of the milliseconds
and a number up to that half. -/
def apply (jitter : Jitter) (draw : Nat) (delay : Duration) : Duration :=
  if delay.cappedMillis = 0 then delay else
  match jitter with
  | .none => delay
  | .full => .ofMillis (min draw (jitter.range delay))
  | .equal => .ofMillis (delay.cappedMillis / 2 + min draw (jitter.range delay))

/-- The number of different results. -/
def choices (jitter : Jitter) (delay : Duration) : Nat :=
  if delay.cappedMillis = 0 then 1 else jitter.range delay + 1

/-- Every result, in ascending order. -/
def outcomes (jitter : Jitter) (delay : Duration) : List Duration :=
  (List.range (jitter.choices delay)).map fun draw => jitter.apply draw delay

/-- What many draws turn up, in ascending order: every result, and nothing without a draw. -/
def support (jitter : Jitter) (delay : Duration) (draws : Nat) : List Duration :=
  if draws = 0 then [] else jitter.outcomes delay

/-- What holds of every result of a jitter on one delay. -/
structure Summary where
  atMostDelay : Bool
  atLeastHalf : Bool
  wholeMillis : Bool
  constant : Bool
deriving DecidableEq, Repr

/-- The number of different results whose milliseconds are below half of those of the delay. -/
def lowChoices (jitter : Jitter) (delay : Duration) : Nat :=
  min (jitter.choices delay) (delay.wholeMillis / 2 - (jitter.apply 0 delay).wholeMillis)

/-- The results lie between the one of the least draw and the one of the largest, so these two
decide what holds of all. Half of the delay is kept as long as the expected number of low results
among the draws is below one. With no draw everything holds; with one draw nothing varies. -/
def summary (jitter : Jitter) (delay : Duration) (draws : Nat) : Summary :=
  if draws = 0 then ⟨true, true, true, true⟩ else
  let least := jitter.apply 0 delay
  let most := jitter.apply (jitter.range delay) delay
  { atMostDelay := decide (most ≤ delay)
    atLeastHalf := draws * jitter.lowChoices delay < jitter.choices delay
    wholeMillis := least.nanos % 1000000 == 0 && most.nanos % 1000000 == 0
    constant := draws == 1 || least == most }

end Jitter

end Supervision
