import Supervision.Jitter

/-!
# Backoff

The delay before restart number `n` of a streak, counted from zero, is `first · factor^n`, at most
`ceiling`, and then varied by the jitter. It depends on `n` alone.
-/

namespace Supervision

/-- How the delays between restarts grow. -/
structure Backoff where
  first : Duration := .ofMillis 100
  ceiling : Duration := .ofSeconds 30
  factor : Binary64 := .ofNat 2
  jitter : Jitter := .none
deriving DecidableEq, Repr

namespace Backoff

/-- The same delay before every restart. -/
def constant (delay : Duration) : Backoff :=
  { first := delay, ceiling := delay, factor := .one, jitter := .none }

/-- Why a delay cannot be computed. -/
inductive Overflow
  | tooManySeconds
deriving DecidableEq, Repr

def Overflow.message : Overflow → String
  | .tooManySeconds => "cannot convert float seconds to Duration: value is either too big or NaN"

/-- The growth in seconds, before the ceiling. The exponent stops at `2^31 - 1`. -/
def growth (b : Backoff) (restart : Nat) : Binary64 :=
  b.first.toBinary64.mul (b.factor.power (min restart (2 ^ 31 - 1)))

/-- The delay before jitter. Seconds that are not finite, below zero or above those of the ceiling
give the ceiling. The comparison is one of rounded seconds, so seconds can pass it that no duration
holds. -/
def base (b : Backoff) (restart : Nat) : Except Overflow Duration :=
  let seconds := b.growth restart
  if !seconds.isFinite || seconds.isNegative || seconds.exceeds b.ceiling.toBinary64 then
    .ok b.ceiling
  else match Duration.ofBinary64? seconds with
    | some delay => .ok delay
    | none => .error .tooManySeconds

/-- The delay before restart number `restart`, for one draw of the random source. -/
def next (b : Backoff) (restart draw : Nat) : Except Overflow Duration :=
  (b.base restart).map (b.jitter.apply draw)

end Backoff

end Supervision
