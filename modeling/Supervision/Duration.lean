import Supervision.Binary64

/-!
# Durations

A duration is a whole number of nanoseconds. It is written in two ways: `fixed` with all nine
places of the second, and `compact` in the largest unit that leaves a whole part, without trailing
zeros. Durations that a clock can hold have fewer than `2^64` seconds.
-/

namespace Supervision

/-- A length of time in whole nanoseconds. -/
structure Duration where
  nanos : Nat
deriving DecidableEq, Repr

/-- The decimal digits of a number, with leading zeros up to the given width. -/
def paddedDigits (width n : Nat) : List Char :=
  let digits := Nat.toDigits 10 n
  List.replicate (width - digits.length) '0' ++ digits

namespace Duration

def zero : Duration := ⟨0⟩

def ofMillis (ms : Nat) : Duration := ⟨ms * 1000000⟩

def ofSeconds (s : Nat) : Duration := ⟨s * 1000000000⟩

def seconds (d : Duration) : Nat := d.nanos / 1000000000

def subsecond (d : Duration) : Nat := d.nanos % 1000000000

/-- Whole milliseconds, rounded down. -/
def wholeMillis (d : Duration) : Nat := d.nanos / 1000000

/-- Whole milliseconds, rounded up: a timer fires at the first millisecond not before its time. -/
def ceilMillis (d : Duration) : Nat := (d.nanos + 999999) / 1000000

/-- A delay that no clock can add to its present reading is cut to thirty years. -/
def timerMillis (d : Duration) : Nat :=
  if d.seconds < 2 ^ 63 then d.ceilMillis else 30 * 365 * 86400 * 1000

theorem timerMillis_pos {d : Duration} (h : d ≠ .zero) : 0 < d.timerMillis := by
  have positive : 0 < d.nanos := Nat.pos_of_ne_zero fun none => h (congrArg Duration.mk none)
  unfold timerMillis ceilMillis
  split <;> omega

instance : LE Duration := ⟨fun a b => a.nanos ≤ b.nanos⟩

instance (a b : Duration) : Decidable (a ≤ b) := inferInstanceAs (Decidable (a.nanos ≤ b.nanos))

/-- The duration in seconds: whole seconds and the fraction are rounded apart, then their sum. -/
def toBinary64 (d : Duration) : Binary64 :=
  (Binary64.ofNat d.seconds).add (Binary64.nearest false d.subsecond 1000000000)

/-- The duration of a number of seconds, to the nearest nanosecond, a half going to the even one.
There is none for a number below zero, no number, or `2^64` seconds and more. -/
def ofBinary64? : Binary64 → Option Duration
  | .finite negative mantissa exponent =>
      if negative && mantissa != 0 then none
      else if 2 ^ 64 * 2 ^ (-exponent).toNat ≤ mantissa * 2 ^ exponent.toNat then none
      else some ⟨roundHalfEven (mantissa * 1000000000 * 2 ^ exponent.toNat) (2 ^ (-exponent).toNat)⟩
  | _ => none

/-- Seconds, a point and nine places. -/
def fixed (d : Duration) : String :=
  toString d.seconds ++ "." ++ String.ofList (paddedDigits 9 d.subsecond)

/-- A point and the places of a fraction without its trailing zeros; nothing for a whole number. -/
def fractionText (places fraction : Nat) : String :=
  let digits := ((paddedDigits places fraction).reverse.dropWhile (· == '0')).reverse
  if digits.isEmpty then "" else "." ++ String.ofList digits

/-- The duration in the largest of seconds, milliseconds, microseconds and nanoseconds that leaves
a whole part. -/
def compact (d : Duration) : String :=
  let inUnit (places : Nat) (unit : String) : String :=
    toString (d.nanos / 10 ^ places) ++ fractionText places (d.nanos % 10 ^ places) ++ unit
  if 1000000000 ≤ d.nanos then inUnit 9 "s"
  else if 1000000 ≤ d.nanos then inUnit 6 "ms"
  else if 1000 ≤ d.nanos then inUnit 3 "µs"
  else inUnit 0 "ns"

/-- The value of a list of decimal digits. -/
def digitsValue (digits : List Char) : Nat :=
  digits.foldl (fun n c => 10 * n + (c.toNat - '0'.toNat)) 0

/-- Reads what `fixed` writes: digits, a point and exactly nine digits, below `2^64` seconds. -/
def parse? (text : String) : Option Duration :=
  let chars := text.toList
  let whole := chars.takeWhile Char.isDigit
  match chars.dropWhile Char.isDigit with
  | '.' :: places =>
      if whole.isEmpty || places.length != 9 || !places.all Char.isDigit then none
      else if 2 ^ 64 ≤ digitsValue whole then none
      else some ⟨digitsValue whole * 1000000000 + digitsValue places⟩
  | _ => none

end Duration

end Supervision
