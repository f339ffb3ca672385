/-!
# Binary64 numbers, exactly

A finite binary64 number is `mantissa · 2^exponent`. Every operation computes the exact rational
result and rounds it once, to the nearest number of the format, a half going to the even mantissa.

Results:
1. `Binary64.nearest` is the single place where rounding happens.
2. `Binary64.power` multiplies by repeated squaring, lowest bit of the exponent first, so the
   order of the roundings is fixed.
-/

namespace Supervision

/-- The powers of natural numbers, the same ones whatever other powers are in scope. -/
@[default_instance high]
instance naturalPower : Pow Nat Nat := instPowNat

/-- The quotient rounded to the nearest integer, a half going to the even neighbour. -/
def roundHalfEven (num den : Nat) : Nat :=
  let quotient := num / den
  match compare (2 * (num % den)) den with
  | .lt => quotient
  | .gt => quotient + 1
  | .eq => if quotient % 2 = 0 then quotient else quotient + 1

/-- The largest `k` with `2^k ≤ num / den`, for positive `num` and `den`. -/
def floorLog (num den : Nat) : Int :=
  let guess : Int := (Nat.log2 num : Int) - (Nat.log2 den : Int)
  if den * 2 ^ guess.toNat ≤ num * 2 ^ (-guess).toNat then guess else guess - 1

/-- A binary64 number. A finite one has a mantissa below `2^53`, and one below `2^52` only at the
least exponent `-1074`; zero keeps its sign. -/
inductive Binary64
  | finite (negative : Bool) (mantissa : Nat) (exponent : Int)
  | infinite (negative : Bool)
  | nan
deriving DecidableEq, Repr

namespace Binary64

/-- The number nearest to `num / den` with the given sign; beyond the largest finite number it is
infinite. -/
def nearest (negative : Bool) (num den : Nat) : Binary64 :=
  if num = 0 then .finite negative 0 (-1074) else
  let exponent := max (floorLog num den - 52) (-1074)
  let mantissa := roundHalfEven (num * 2 ^ (-exponent).toNat) (den * 2 ^ exponent.toNat)
  let (mantissa, exponent) :=
    if mantissa = 2 ^ 53 then (2 ^ 52, exponent + 1) else (mantissa, exponent)
  if 971 < exponent then .infinite negative else .finite negative mantissa exponent

/-- The number nearest to `mantissa · 2^exponent`. -/
def ofBinary (negative : Bool) (mantissa : Nat) (exponent : Int) : Binary64 :=
  nearest negative (mantissa * 2 ^ exponent.toNat) (2 ^ (-exponent).toNat)

/-- The number nearest to `digits · 10^exponent`. -/
def ofDecimal (negative : Bool) (digits : Nat) (exponent : Int) : Binary64 :=
  nearest negative (digits * 10 ^ exponent.toNat) (10 ^ (-exponent).toNat)

def ofNat (n : Nat) : Binary64 := nearest false n 1

def one : Binary64 := .finite false (2 ^ 52) (-52)

def isFinite : Binary64 → Bool
  | .finite .. => true
  | _ => false

/-- The signed mantissa counted in units of `2^unit`, exact when `unit` is at most `exponent`. -/
def signedUnits (negative : Bool) (mantissa : Nat) (exponent unit : Int) : Int :=
  let size : Int := (mantissa * 2 ^ (exponent - unit).toNat : Nat)
  if negative then -size else size

/-- The rounded sum. Opposite infinities have none, and two zeros keep a common sign only. -/
def add : Binary64 → Binary64 → Binary64
  | .finite s m e, .finite t n f =>
      let unit := min e f
      let total := signedUnits s m e unit + signedUnits t n f unit
      if total = 0 then .finite (s && t) 0 (-1074) else ofBinary (total < 0) total.natAbs unit
  | .infinite s, .infinite t => if s = t then .infinite s else .nan
  | .infinite s, .finite .. => .infinite s
  | .finite .., .infinite t => .infinite t
  | _, _ => .nan

/-- The rounded product. Zero times infinity is no number. -/
def mul : Binary64 → Binary64 → Binary64
  | .finite s m e, .finite t n f => ofBinary (s != t) (m * n) (e + f)
  | .infinite s, .infinite t => .infinite (s != t)
  | .infinite s, .finite t n _ => if n = 0 then .nan else .infinite (s != t)
  | .finite s m _, .infinite t => if m = 0 then .nan else .infinite (s != t)
  | _, _ => .nan

/-- Is the first number greater than the second? Never, if one of them is no number. -/
def exceeds : Binary64 → Binary64 → Bool
  | .finite s m e, .finite t n f =>
      let unit := min e f
      signedUnits t n f unit < signedUnits s m e unit
  | .finite .., .infinite t => t
  | .infinite s, .finite .. => !s
  | .infinite s, .infinite t => !s && t
  | _, _ => false

/-- Is the number below zero? Negative zero is not. -/
def isNegative (a : Binary64) : Bool := (Binary64.finite false 0 (-1074)).exceeds a

/-- Multiplies `acc` by `base^n`, taking at most `bits` bits of `n`, the lowest first. -/
def powerLoop : Nat → Binary64 → Binary64 → Nat → Binary64
  | 0, acc, _, _ => acc
  | bits + 1, acc, base, n =>
      let acc := if n % 2 = 1 then acc.mul base else acc
      if n / 2 = 0 then acc else powerLoop bits acc (base.mul base) (n / 2)

/-- The power by repeated squaring, rounded after each product. -/
def power (base : Binary64) (n : Nat) : Binary64 := powerLoop (n.log2 + 1) one base n

end Binary64

end Supervision
