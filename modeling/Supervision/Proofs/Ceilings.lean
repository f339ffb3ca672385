import Supervision.Proofs.Rounding
import Supervision.Proofs.Streaks
import Supervision.Proofs.VariedDelays

/-!
# Ceilings of delays

A backoff compares the seconds of a delay with those of its ceiling, both as binary64 numbers. A
delay that passes may still be longer than the ceiling, by as much as the rounding has made the
ceiling longer, and for the last 1024 seconds that a clock can hold that is too long for any clock.

Results:
1. `Duration.HasSeconds.eq_iff`: the durations whose seconds are rounded to `2^64`.
2. `Duration.ofBinary64?_toBinary64`: the durations that survive the rounding.
3. `Backoff.base_cases`: the delays that are converted, and those that the ceiling replaces.
4. `Backoff.caps`: how far a ceiling bounds delays, and which ceilings bound all of them.
5. `Backoff.ceiling_exceeded`: a delay above its ceiling, and one that cannot be computed.
-/

namespace Supervision

open Binary64

namespace Binary64

variable {x q : ℚ}

/-! ## Next to `2^64` -/

theorem isPlace_two_pow_64 : IsPlace (2 ^ 64) := by
  have place : IsPlace (2 ^ (64 : ℤ)) := isPlace_two_zpow (by norm_num)
  rwa [zpow_ofNat] at place

theorem two_pow_64_le_iff (h : IsNearest x q) : 2 ^ 64 ≤ x ↔ 2 ^ 64 - 1024 ≤ q := by
  have reach := h.two_zpow_le_iff (e := 11) (by norm_num)
  norm_num at reach ⊢
  exact reach

theorem le_two_pow_64 (h : IsNearest x q) (close : q < 2 ^ 64 + 2048) : x ≤ 2 ^ 64 := by
  have most := h.le_two_zpow (e := 12) (by norm_num) (by norm_num at close ⊢; exact close)
  norm_num at most ⊢
  exact most

theorem IsPlace.le_pred_two_pow_64 (h : IsPlace x) (lt : x < 2 ^ 64) : x ≤ 2 ^ 64 - 2048 := by
  have := h.le_pred (e := 11) (by norm_num at lt ⊢; exact lt)
  norm_num at this ⊢
  exact this

end Binary64

namespace Duration

variable {d : Duration} {a : Binary64} {x c whole fraction : ℚ}

/-! ## Seconds as binary64 numbers -/

/-- The duration in seconds, exactly. -/
def toRat (d : Duration) : ℚ := d.nanos / 1000000000

/-- Seconds are too many from `2^64` on; fewer are rounded to nanoseconds. -/
theorem ofBinary64?_cases (value : a.toRat? = some x) (nonneg : 0 ≤ x) :
    2 ^ 64 ≤ x ∧ ofBinary64? a = none ∨
    x < 2 ^ 64 ∧ ∃ d, ofBinary64? a = some d ∧ IsRoundedTo d.nanos (x * 1000000000) := by
  obtain ⟨negative, mantissa, exponent, rfl, rfl⟩ := exists_of_toRat? value
  obtain ⟨positive, same⟩ := nonneg_signOf_mul nonneg
  have divisor : (0 : ℚ) < (2 ^ (-exponent).toNat : ℕ) := by
    exact_mod_cast Nat.two_pow_pos _
  have tooMany : 2 ^ 64 * 2 ^ (-exponent).toNat ≤ mantissa * 2 ^ exponent.toNat ↔
      (2 : ℚ) ^ 64 ≤ mantissa * 2 ^ exponent := by
    rw [mul_two_zpow_eq, le_div_iff₀ divisor]
    norm_cast
  rw [same]
  unfold ofBinary64?
  simp only [positive, Bool.false_eq_true, if_false, tooMany]
  split
  · next large => exact .inl ⟨large, rfl⟩
  · next small =>
      refine .inr ⟨not_le.mp small, _, rfl, ?_⟩
      have rounded := isRoundedTo_roundHalfEven (mantissa * 1000000000 * 2 ^ exponent.toNat)
        (Nat.two_pow_pos (-exponent).toNat)
      rw [← mul_two_zpow_eq, Nat.cast_mul, mul_right_comm (mantissa : ℚ), Nat.cast_ofNat] at rounded
      exact rounded

/-- The seconds are what the duration is rounded to: the whole ones and the fraction apart, then
their sum. -/
def HasSeconds (d : Duration) (c : ℚ) : Prop :=
  ∃ whole fraction, IsNearest whole d.seconds ∧ IsNearest fraction (d.subsecond / 1000000000) ∧
    IsNearest c (whole + fraction)

theorem subsecond_le (d : Duration) : (d.subsecond : ℚ) / 1000000000 ≤ 1 := by
  have less : d.subsecond ≤ 1000000000 := (Nat.mod_lt _ (by norm_num)).le
  rw [div_le_one (by norm_num)]
  exact_mod_cast less

theorem FitsClock.seconds_le (fits : d.FitsClock) : (d.seconds : ℚ) ≤ 2 ^ 64 - 1 := by
  have : (d.seconds : ℚ) + 1 ≤ 2 ^ 64 := by exact_mod_cast Nat.succ_le_of_lt fits
  linarith

theorem fraction_bounds (h : IsNearest fraction (d.subsecond / 1000000000)) :
    0 ≤ fraction ∧ fraction ≤ 1 :=
  ⟨h.ge isPlace_zero (by positivity),
    h.le (by exact_mod_cast isPlace_natCast Nat.one_le_two_pow) d.subsecond_le⟩

theorem whole_bounds (fits : d.FitsClock) (h : IsNearest whole d.seconds) :
    0 ≤ whole ∧ whole ≤ 2 ^ 64 :=
  ⟨h.ge isPlace_zero (by positivity), h.le isPlace_two_pow_64 (by linarith [fits.seconds_le])⟩

theorem exists_toBinary64 (fits : d.FitsClock) :
    ∃ c, d.HasSeconds c ∧ d.toBinary64.toRat? = some c := by
  have seconds := fits.seconds_le
  have fewer := d.subsecond_le
  have wholeRounds := rounds_nearest false d.seconds Nat.one_pos
  have fractionRounds := @rounds_nearest false d.subsecond 1000000000 (by norm_num)
  simp only [signOf, Bool.false_eq_true, if_false, one_mul, Nat.cast_one, div_one,
    Nat.cast_ofNat] at wholeRounds fractionRounds
  obtain ⟨whole, wholeNearest, wholeValue⟩ := wholeRounds.exists_toRat? (e := 65) (by norm_num)
    (by norm_num) (by rw [abs_of_nonneg (by positivity)]; linarith)
  obtain ⟨fraction, fractionNearest, fractionValue⟩ := fractionRounds.exists_toRat? (e := 65)
    (by norm_num) (by norm_num) (by rw [abs_of_nonneg (by positivity)]; linarith)
  have wholeBounds := whole_bounds fits wholeNearest
  have fractionBounds := fraction_bounds fractionNearest
  obtain ⟨c, nearest, value⟩ := (rounds_add wholeValue fractionValue).exists_toRat? (e := 65)
    (by norm_num) (by norm_num) (by rw [abs_of_nonneg (by linarith)]; linarith)
  exact ⟨c, ⟨whole, fraction, wholeNearest, fractionNearest, nearest⟩, value⟩

namespace HasSeconds

theorem nonneg (h : d.HasSeconds c) (fits : d.FitsClock) : 0 ≤ c := by
  obtain ⟨whole, fraction, wholeNearest, fractionNearest, nearest⟩ := h
  have := whole_bounds fits wholeNearest
  have := fraction_bounds fractionNearest
  exact nearest.ge isPlace_zero (by linarith)

theorem le (h : d.HasSeconds c) (fits : d.FitsClock) : c ≤ 2 ^ 64 := by
  obtain ⟨whole, fraction, wholeNearest, fractionNearest, nearest⟩ := h
  have wholeBounds := whole_bounds fits wholeNearest
  have fractionBounds := fraction_bounds fractionNearest
  exact le_two_pow_64 nearest (by linarith)

/-- The last 1024 seconds that a clock can hold are rounded to more than it can. -/
theorem eq_iff (h : d.HasSeconds c) (fits : d.FitsClock) :
    c = 2 ^ 64 ↔ 2 ^ 64 - 1024 ≤ d.seconds := by
  have most := h.le fits
  obtain ⟨whole, fraction, wholeNearest, fractionNearest, nearest⟩ := h
  have wholeBounds := whole_bounds fits wholeNearest
  have fractionBounds := fraction_bounds fractionNearest
  have cast : 2 ^ 64 - 1024 ≤ d.seconds ↔ (2 : ℚ) ^ 64 - 1024 ≤ d.seconds := by
    rw [sub_le_iff_le_add, Nat.sub_le_iff_le_add]
    exact_mod_cast Iff.rfl
  rw [cast, ← two_pow_64_le_iff wholeNearest]
  constructor
  · intro full
    by_contra below
    have less := wholeNearest.isPlace.le_pred_two_pow_64 (not_le.mp below)
    have reached := (two_pow_64_le_iff nearest).mp full.ge
    linarith
  · intro last
    exact le_antisymm most ((two_pow_64_le_iff nearest).mpr (by linarith))

/-- A short duration is rounded to less than half a nanosecond, and so is one of whole seconds. -/
theorem abs_sub_lt (h : d.HasSeconds c)
    (short : d.seconds < 2 ^ 23 ∨ d.subsecond = 0 ∧ d.seconds ≤ 2 ^ 53) :
    |c * 1000000000 - d.nanos| < 1 / 2 := by
  have nanos : (d.nanos : ℚ) = d.seconds * 1000000000 + d.subsecond := by
    have : d.nanos = d.seconds * 1000000000 + d.subsecond := (Nat.div_add_mod' ..).symm
    exact_mod_cast this
  obtain ⟨whole, fraction, wholeNearest, fractionNearest, nearest⟩ := h
  have few : d.seconds ≤ 2 ^ 53 := by
    rcases short with short | ⟨-, short⟩
    · exact short.le.trans (Nat.pow_le_pow_right two_pos (by norm_num))
    · exact short
  obtain rfl := wholeNearest.eq_of_isPlace (isPlace_natCast few)
  rcases short with short | ⟨none, -⟩
  · have fractionBounds := fraction_bounds fractionNearest
    have fractionOff := fractionNearest.abs_sub_le_half (e := -53) (by norm_num)
      (by rw [abs_of_nonneg (by positivity)]; simpa using d.subsecond_le)
    have seconds : (d.seconds : ℚ) + 1 ≤ 2 ^ 23 := by exact_mod_cast short
    have off := nearest.abs_sub_le_half (e := -30) (by norm_num)
      (by rw [abs_of_nonneg (by linarith)]; norm_num at seconds ⊢; linarith)
    rw [abs_le] at off fractionOff
    norm_num at off fractionOff
    rw [abs_lt, nanos]
    constructor <;> linarith
  · rw [none, Nat.cast_zero, zero_div] at fractionNearest
    obtain rfl := fractionNearest.eq_of_isPlace isPlace_zero
    rw [add_zero] at nearest
    obtain rfl := nearest.eq_of_isPlace (isPlace_natCast few)
    rw [nanos, none, Nat.cast_zero, add_zero, sub_self, abs_zero]
    norm_num

end HasSeconds

/-- Rounded to binary64 seconds and converted back, the duration is no longer than it was. -/
def IsStable (d : Duration) : Prop :=
  ∃ restored, ofBinary64? d.toBinary64 = some restored ∧ restored ≤ d

instance (d : Duration) : Decidable d.IsStable :=
  decidable_of_iff ((ofBinary64? d.toBinary64).any (· ≤ d)) (by
    rw [Option.any_eq_true]
    simp only [decide_eq_true_eq, IsStable])

/-- Durations of less than 97 days come back as they were, and so do whole seconds. -/
theorem ofBinary64?_toBinary64 (fits : d.FitsClock)
    (short : d.seconds < 2 ^ 23 ∨ d.subsecond = 0 ∧ d.seconds ≤ 2 ^ 53) :
    ofBinary64? d.toBinary64 = some d := by
  obtain ⟨c, seconds, value⟩ := exists_toBinary64 fits
  rcases ofBinary64?_cases value (seconds.nonneg fits) with ⟨large, -⟩ | ⟨-, restored, found, rounded⟩
  · have full := (seconds.eq_iff fits).mp (le_antisymm (seconds.le fits) large)
    omega
  · have off := abs_lt.mp (seconds.abs_sub_lt short)
    have near := abs_le.mp rounded.abs_sub_le_half
    have less : (restored.nanos : ℚ) < d.nanos + 1 := by linarith
    have more : (d.nanos : ℚ) < restored.nanos + 1 := by linarith
    have same : restored.nanos = d.nanos :=
      Nat.le_antisymm (Nat.lt_succ_iff.mp (by exact_mod_cast less))
        (Nat.lt_succ_iff.mp (by exact_mod_cast more))
    rw [found]
    exact congrArg (some ∘ Duration.mk) same

end Duration

namespace Backoff

open Duration

variable {b : Backoff} {ceiling delay : Duration} {c g : ℚ} {restart : ℕ}

/-! ## The delay before jitter -/

/-- A growth that is a number of seconds up to those of the ceiling is converted; for any other the
delay is the ceiling. -/
theorem base_cases (value : b.ceiling.toBinary64.toRat? = some c) (restart : ℕ) :
    (∃ g, (b.growth restart).toRat? = some g ∧ 0 ≤ g ∧ g ≤ c ∧
      (2 ^ 64 ≤ g ∧ b.base restart = .error .tooManySeconds ∨
        g < 2 ^ 64 ∧ ∃ delay, b.base restart = .ok delay ∧
          IsRoundedTo delay.nanos (g * 1000000000))) ∨
    (∀ g, (b.growth restart).toRat? = some g → g < 0 ∨ c < g) ∧
      b.base restart = .ok b.ceiling := by
  unfold base
  cases known : (b.growth restart).toRat? with
  | none =>
      have infinite : (b.growth restart).isFinite = false := by
        rw [← Bool.not_eq_true, isFinite_iff, known]
        simp
      exact .inr ⟨by simp, by simp [infinite]⟩
  | some g =>
      have finite : (b.growth restart).isFinite = true := isFinite_iff.mpr ⟨g, known⟩
      have negative := isNegative_iff known
      have exceeds := exceeds_iff known value
      by_cases taken : 0 ≤ g ∧ g ≤ c
      · have passes : (!(b.growth restart).isFinite || (b.growth restart).isNegative ||
            (b.growth restart).exceeds b.ceiling.toBinary64) = false := by
          rw [finite, Bool.eq_false_iff.mpr (mt negative.mp (not_lt.mpr taken.1)),
            Bool.eq_false_iff.mpr (mt exceeds.mp (not_lt.mpr taken.2))]
          rfl
        refine .inl ⟨g, rfl, taken.1, taken.2, ?_⟩
        simp only [passes, Bool.false_eq_true, if_false]
        rcases ofBinary64?_cases known taken.1 with ⟨large, none⟩ | ⟨small, delay, found, rounded⟩
        · exact .inl ⟨large, by rw [none]⟩
        · exact .inr ⟨small, delay, by rw [found], rounded⟩
      · have caught : g < 0 ∨ c < g := by
          rw [← not_le, ← not_le, ← not_and_or]
          exact taken
        refine .inr ⟨by simpa using caught, if_pos ?_⟩
        rw [Bool.or_eq_true, Bool.or_eq_true, negative, exceeds]
        rcases caught with below | above
        · exact .inl (.inr below)
        · exact .inr above

theorem next_of_base (computed : b.base restart = .ok delay) (draw : ℕ) :
    b.next restart draw = .ok (b.jitter.apply draw delay) := by
  rw [next, computed]
  rfl

theorem eq_of_next {plain : Duration} {draw : ℕ} (base : b.base restart = .ok plain)
    (computed : b.next restart draw = .ok delay) : delay = b.jitter.apply draw plain :=
  Except.ok.inj (computed.symm.trans (next_of_base base draw))

theorem next_eq_error_iff {error : Overflow} (draw : ℕ) :
    b.next restart draw = .error error ↔ b.base restart = .error error := by
  unfold next
  cases b.base restart <;> simp [Except.map]

/-- The growth of a constant backoff is the delay in seconds. -/
theorem toRat?_growth_constant (fits : ceiling.FitsClock)
    (value : ceiling.toBinary64.toRat? = some c) (restart : ℕ) :
    ((constant ceiling).growth restart).toRat? = some c := by
  obtain ⟨seconds, has, same⟩ := exists_toBinary64 fits
  obtain rfl : seconds = c := Option.some.inj (same.symm.trans value)
  have one : Binary64.one.toRat? = some 1 := by
    simp [toRat?, Binary64.one, signOf, zpow_neg]
    norm_num
  rw [growth, constant, Binary64.power_one]
  obtain ⟨x, nearest, product⟩ := (rounds_mul value one).exists_toRat? (e := 65) (by norm_num)
    (by norm_num) (by
      rw [mul_one, abs_of_nonneg (has.nonneg fits)]
      linarith [has.le fits])
  obtain ⟨whole, fraction, -, -, sum⟩ := has
  rw [mul_one] at nearest
  rw [product, nearest.eq_of_isPlace sum.isPlace]

/-! ## What a ceiling does -/

theorem toRat_lt (fits : ceiling.FitsClock) : ceiling.toRat < 2 ^ 64 := by
  have less : ceiling.nanos < 2 ^ 64 * 1000000000 := (Nat.div_lt_iff_lt_mul (by norm_num)).mp fits
  rw [toRat, div_lt_iff₀ (by norm_num)]
  exact_mod_cast less

theorem toRat_lt_of_lt (longer : ¬ delay ≤ ceiling)
    (rounded : IsRoundedTo delay.nanos (g * 1000000000)) : ceiling.toRat < g := by
  have more : (ceiling.nanos : ℚ) + 1 ≤ delay.nanos := by
    exact_mod_cast Nat.succ_le_of_lt (Nat.lt_of_not_le longer)
  have near := abs_le.mp rounded.abs_sub_le_half
  rw [toRat, div_lt_iff₀ (by norm_num)]
  linarith

/-- What is computed without a look at the ceiling is below it, or above it by the rounding of the
ceiling only. -/
theorem next_or_between (fits : b.ceiling.FitsClock) (restart draw : ℕ) :
    (∃ delay, b.next restart draw = .ok delay ∧ delay ≤ b.ceiling) ∨
    ∃ g c, (b.growth restart).toRat? = some g ∧ b.ceiling.toBinary64.toRat? = some c ∧
      b.ceiling.toRat < g ∧ g ≤ c := by
  obtain ⟨c, seconds, value⟩ := exists_toBinary64 fits
  rcases base_cases value restart with ⟨g, known, -, le, taken⟩ | ⟨-, computed⟩
  · rcases taken with ⟨large, -⟩ | ⟨-, delay, computed, converted⟩
    · exact .inr ⟨g, c, known, value, lt_of_lt_of_le (toRat_lt fits) large, le⟩
    · by_cases shorter : delay ≤ b.ceiling
      · exact .inl ⟨_, next_of_base computed draw,
          Nat.le_trans (b.jitter.apply_le draw delay) shorter⟩
      · exact .inr ⟨g, c, known, value, toRat_lt_of_lt shorter converted, le⟩
  · exact .inl ⟨_, next_of_base computed draw, b.jitter.apply_le draw _⟩

/-- A delay is no longer than the ceiling, or no longer than the ceiling comes back. -/
theorem le_or_le_restored (fits : b.ceiling.FitsClock) {draw : ℕ}
    (computed : b.next restart draw = .ok delay) :
    delay ≤ b.ceiling ∨
      ∃ restored, ofBinary64? b.ceiling.toBinary64 = some restored ∧ delay ≤ restored := by
  obtain ⟨c, seconds, value⟩ := exists_toBinary64 fits
  rcases base_cases value restart with ⟨g, known, -, le, taken⟩ | ⟨-, base⟩
  · rcases taken with ⟨-, error⟩ | ⟨small, plain, base, converted⟩
    · rw [(next_eq_error_iff draw).mpr error] at computed
      cases computed
    · have shortened : delay ≤ plain := eq_of_next base computed ▸ b.jitter.apply_le draw plain
      rcases ofBinary64?_cases value (seconds.nonneg fits) with
        ⟨large, -⟩ | ⟨-, restored, found, rounded⟩
      · -- the places below `2^64` end well before the ceiling
        have last := (seconds.eq_iff fits).mp (le_antisymm (seconds.le fits) large)
        have place := (isPlace_mul known).le_pred_two_pow_64 small
        have near := abs_le.mp converted.abs_sub_le_half
        have bounded : (plain.nanos : ℚ) ≤ (2 ^ 64 - 1024 : ℕ) * 1000000000 := by
          push_cast
          linarith
        have reached : (2 ^ 64 - 1024) * 1000000000 ≤ b.ceiling.nanos :=
          (Nat.le_div_iff_mul_le (by norm_num)).mp last
        exact .inl (Nat.le_trans shortened (Nat.le_trans (by exact_mod_cast bounded) reached))
      · exact .inr ⟨restored, found, Nat.le_trans shortened (converted.mono rounded (by linarith))⟩
  · exact .inl (eq_of_next base computed ▸ b.jitter.apply_le draw b.ceiling)

/-- There is no delay exactly if its seconds and those of the ceiling are `2^64`. -/
theorem next_eq_tooManySeconds_iff (fits : b.ceiling.FitsClock) (restart draw : ℕ) :
    b.next restart draw = .error .tooManySeconds ↔
      (b.growth restart).toRat? = some (2 ^ 64) ∧ 2 ^ 64 - 1024 ≤ b.ceiling.seconds := by
  obtain ⟨c, seconds, value⟩ := exists_toBinary64 fits
  have few := seconds.le fits
  rw [next_eq_error_iff, ← seconds.eq_iff fits]
  rcases base_cases value restart with ⟨g, known, -, le, taken⟩ | ⟨caught, base⟩
  · rw [known, Option.some.injEq]
    rcases taken with ⟨large, error⟩ | ⟨small, delay, base, -⟩
    · obtain rfl : g = 2 ^ 64 := le_antisymm (le.trans few) large
      exact ⟨fun _ => ⟨rfl, le_antisymm few le⟩, fun _ => error⟩
    · rw [base]
      exact ⟨nofun, fun full => absurd full.1 small.ne⟩
  · rw [base]
    refine ⟨nofun, fun ⟨known, full⟩ => ?_⟩
    rcases caught _ known with below | above
    · norm_num at below
    · exact absurd (full ▸ above) (lt_irrefl _)

/-- A stable ceiling holds every delay down. -/
theorem exists_next_of_isStable (fits : b.ceiling.FitsClock) (stable : b.ceiling.IsStable)
    (restart draw : ℕ) : ∃ delay, b.next restart draw = .ok delay ∧ delay ≤ b.ceiling := by
  obtain ⟨restored, found, shorter⟩ := stable
  cases computed : b.next restart draw with
  | ok delay =>
      refine ⟨delay, rfl, ?_⟩
      rcases le_or_le_restored fits computed with le | ⟨other, same, le⟩
      · exact le
      · obtain rfl : restored = other := Option.some.inj (found.symm.trans same)
        exact Nat.le_trans le shorter
  | error =>
      obtain ⟨c, seconds, value⟩ := exists_toBinary64 fits
      have last := ((next_eq_tooManySeconds_iff fits restart draw).mp computed).2
      rcases ofBinary64?_cases value (seconds.nonneg fits) with ⟨-, none⟩ | ⟨small, -⟩
      · rw [found] at none
        cases none
      · exact absurd ((seconds.eq_iff fits).mpr last) small.ne

/-- The constant backoff makes of the ceiling what it comes back as. -/
theorem next_constant_eq (fits : ceiling.FitsClock)
    (computed : (constant ceiling).next 0 0 = .ok delay) :
    ofBinary64? ceiling.toBinary64 = some delay := by
  obtain ⟨c, seconds, value⟩ := exists_toBinary64 fits
  have growth := toRat?_growth_constant fits value 0
  have nonneg := seconds.nonneg fits
  rcases base_cases (b := constant ceiling) value 0 with ⟨g, known, -, -, taken⟩ | ⟨caught, -⟩
  · obtain rfl : c = g := Option.some.inj (growth.symm.trans known)
    rcases taken with ⟨-, error⟩ | ⟨small, plain, base, converted⟩
    · rw [(next_eq_error_iff 0).mpr error] at computed
      cases computed
    · have same : delay = plain :=
        (eq_of_next base computed).trans (Jitter.apply_of_untouched (.inl rfl) 0)
      rcases ofBinary64?_cases value nonneg with ⟨large, -⟩ | ⟨-, restored, found, rounded⟩
      · exact absurd small (not_lt.mpr large)
      · rw [found, same]
        exact congrArg (some ∘ Duration.mk) (rounded.unique converted)
  · rcases caught c growth with below | above
    · exact absurd nonneg (not_le.mpr below)
    · exact absurd above (lt_irrefl c)

/-- How far a ceiling bounds the delays of the backoffs that have it. -/
structure Caps (ceiling : Duration) : Prop where
  /-- All of them compute each of their delays, and none is longer than the ceiling, if and only if
  rounding does not make the ceiling longer. -/
  iff_isStable : (∀ b : Backoff, b.ceiling = ceiling → ∀ restart draw,
    ∃ delay, b.next restart draw = .ok delay ∧ delay ≤ ceiling) ↔ ceiling.IsStable
  /-- A ceiling below 97 days is not made longer, nor is one of whole seconds. -/
  isStable : ceiling.seconds < 2 ^ 23 ∨ ceiling.subsecond = 0 ∧ ceiling.seconds ≤ 2 ^ 53 →
    ceiling.IsStable
  /-- A delay fails only if its seconds are more than the ceiling and no more than what the ceiling
  is rounded to. -/
  next : ∀ b : Backoff, b.ceiling = ceiling → ∀ restart draw,
    (∃ delay, b.next restart draw = .ok delay ∧ delay ≤ ceiling) ∨
    ∃ g c, (b.growth restart).toRat? = some g ∧ ceiling.toBinary64.toRat? = some c ∧
      ceiling.toRat < g ∧ g ≤ c
  /-- If it is longer than the ceiling, it is no longer than the ceiling comes back. -/
  restored : ∀ b : Backoff, b.ceiling = ceiling → ∀ restart draw delay,
    b.next restart draw = .ok delay → delay ≤ ceiling ∨
      ∃ restored, ofBinary64? ceiling.toBinary64 = some restored ∧ delay ≤ restored
  /-- There is none exactly if its seconds are `2^64` and the ceiling is at most 1024 seconds less. -/
  overflow_iff : ∀ b : Backoff, b.ceiling = ceiling → ∀ restart draw,
    b.next restart draw = .error .tooManySeconds ↔
      (b.growth restart).toRat? = some (2 ^ 64) ∧ 2 ^ 64 - 1024 ≤ ceiling.seconds

theorem caps (fits : ceiling.FitsClock) : Caps ceiling where
  iff_isStable := by
    constructor
    · intro kept
      obtain ⟨delay, computed, le⟩ := kept (constant ceiling) rfl 0 0
      exact ⟨delay, next_constant_eq fits computed, le⟩
    · rintro stable b rfl
      exact exists_next_of_isStable fits stable
  isStable short := ⟨ceiling, ofBinary64?_toBinary64 fits short, Nat.le_refl _⟩
  next := by
    rintro b rfl
    exact next_or_between fits
  restored := by
    rintro b rfl restart draw delay
    exact le_or_le_restored fits
  overflow_iff := by
    rintro b rfl
    exact next_eq_tooManySeconds_iff fits

/-- A ceiling of 97 days and a few hours is a nanosecond too long to be kept: its own constant
backoff exceeds it. -/
theorem caps_of_ninetySevenDays :
    (⟨8388608000000001⟩ : Duration).FitsClock ∧ ¬ (⟨8388608000000001⟩ : Duration).IsStable ∧
      Caps ⟨8388608000000001⟩ :=
  ⟨by decide, by decide +kernel, caps (by decide)⟩

/-- A delay that is longer than the ceiling, and one that cannot be computed. -/
theorem ceiling_exceeded :
    (constant ⟨8388608000000001⟩).next 0 0 = .ok ⟨8388608000000002⟩ ∧
    ¬ (⟨8388608000000002⟩ : Duration) ≤ (constant ⟨8388608000000001⟩).ceiling ∧
    ({ first := .ofSeconds 1, ceiling := ⟨2 ^ 64 * 1000000000 - 1⟩ } : Backoff).next 64 0 =
      .error .tooManySeconds :=
  ⟨by decide +kernel, by decide, by decide +kernel⟩

end Backoff

end Supervision
