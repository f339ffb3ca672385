import Mathlib.Algebra.Order.Round
import Mathlib.Algebra.Order.Field.Power
import Mathlib.Data.Rat.Floor
import Mathlib.Tactic.FieldSimp
import Mathlib.Tactic.Linarith
import Mathlib.Tactic.NormNum
import Mathlib.Tactic.Positivity
import Mathlib.Tactic.Ring
import Supervision.Binary64

/-!
# What binary64 operations round to

A finite binary64 number stands for a rational number. The operations compute the exact rational
result and round it: to the nearest place of the format, and of two places that are equally near to
the even one. A place is a number with at most 53 binary digits and none below `2^-1074`; a result
that is rounded to `2^1024` or more is infinite.

Results:
1. `isRoundedTo_roundHalfEven`: the rounding of quotients to whole numbers.
2. `Binary64.IsNearest.two_zpow_le_iff`, `Binary64.IsNearest.abs_sub_le_half`: what rounding does
   next to a power of two, and by how much it is off anywhere.
3. `Binary64.rounds_nearest`, `Binary64.rounds_add`, `Binary64.rounds_mul`: the operations round the
   exact result once.
4. `Binary64.exceeds_iff`: the comparison is that of the rational numbers.
-/

namespace Supervision

/-! ## Rounding to whole numbers -/

/-- The whole number is the one nearest to `q`; of two that are equally near it is the even one. -/
def IsRoundedTo (n : ℕ) (q : ℚ) : Prop :=
  ∀ k : ℕ, k ≤ n ↔ (k : ℚ) - 1 / 2 < q ∨ (k : ℚ) - 1 / 2 = q ∧ Even k

namespace IsRoundedTo

variable {n m : ℕ} {q r : ℚ}

theorem mono (h : IsRoundedTo n q) (k : IsRoundedTo m r) (le : q ≤ r) : n ≤ m := by
  refine (k n).mpr ?_
  rcases (h n).mp (Nat.le_refl n) with below | ⟨tie, even⟩
  · exact .inl (lt_of_lt_of_le below le)
  · rcases lt_or_eq_of_le le with lt | same
    · exact .inl (tie ▸ lt)
    · exact .inr ⟨tie.trans same, even⟩

theorem unique (h : IsRoundedTo n q) (k : IsRoundedTo m q) : n = m :=
  Nat.le_antisymm (h.mono k le_rfl) (k.mono h le_rfl)

theorem abs_sub_le_half (h : IsRoundedTo n q) : |(n : ℚ) - q| ≤ 1 / 2 := by
  have below : (n : ℚ) - 1 / 2 ≤ q := by
    rcases (h n).mp (Nat.le_refl n) with below | ⟨tie, -⟩
    · exact below.le
    · exact tie.le
  have above : q ≤ (n : ℚ) + 1 / 2 := by
    by_contra beyond
    have : n + 1 ≤ n := (h (n + 1)).mpr (.inl (by push_cast; linarith))
    omega
  exact abs_le.mpr ⟨by linarith, by linarith⟩

theorem even_of_tie (h : IsRoundedTo n q) (tie : |(n : ℚ) - q| = 1 / 2) : Even n := by
  rcases (abs_eq (by norm_num)).mp tie with above | below
  · rcases (h n).mp (Nat.le_refl n) with strict | ⟨-, even⟩
    · linarith
    · exact even
  · by_contra odd
    have : n + 1 ≤ n := (h (n + 1)).mpr
      (.inr ⟨by push_cast; linarith, (Nat.not_even_iff_odd.mp odd).add_one⟩)
    omega

theorem one_le_abs_sub {k : ℤ} (other : k ≠ n) : 1 ≤ |(n : ℚ) - k| := by
  have : (1 : ℤ) ≤ |(n : ℤ) - k| := Int.one_le_abs (sub_ne_zero.mpr other.symm)
  exact_mod_cast this

/-- Two whole numbers are at least one apart, so any other is half as far or further. -/
theorem half_le_abs_sub (h : IsRoundedTo n q) {k : ℤ} (other : k ≠ n) : 1 / 2 ≤ |(k : ℚ) - q| := by
  have apart := one_le_abs_sub other
  have near := h.abs_sub_le_half
  have triangle := abs_sub_le (n : ℚ) q k
  rw [abs_sub_comm q] at triangle
  linarith

/-- No whole number is nearer. -/
theorem abs_sub_le_abs (h : IsRoundedTo n q) (k : ℤ) : |(n : ℚ) - q| ≤ |(k : ℚ) - q| := by
  by_cases same : k = n
  · rw [same, Int.cast_natCast]
  · exact h.abs_sub_le_half.trans (h.half_le_abs_sub same)

end IsRoundedTo

theorem le_roundHalfEven_iff (num : ℕ) {den : ℕ} (pos : 0 < den) (k : ℕ) :
    k ≤ roundHalfEven num den ↔
      2 * (k * den) < 2 * num + den ∨ 2 * (k * den) = 2 * num + den ∧ Even k := by
  have split := Nat.div_add_mod num den
  have rest := Nat.mod_lt num pos
  unfold roundHalfEven
  dsimp only
  generalize num / den = quotient at *
  generalize num % den = remainder at *
  have next : (quotient + 1) * den = den * quotient + den := by ring
  rcases Nat.lt_trichotomy k (quotient + 1) with below | rfl | above
  · have least := Nat.mul_le_mul_right den (Nat.lt_succ_iff.mp below)
    rw [Nat.mul_comm quotient] at least
    have strict : 2 * (k * den) < 2 * num + den := by omega
    simp only [strict, true_or, iff_true]
    split <;> try split
    all_goals omega
  · -- the remainder decides, and the parity of the quotient if it is one half
    rw [next, Nat.even_add_one, Nat.even_iff]
    split
    · next less => have := Nat.compare_eq_lt.mp less; omega
    · next more => have := Nat.compare_eq_gt.mp more; omega
    · next half =>
        have := Nat.compare_eq_eq.mp half
        split <;> omega
  · have most := Nat.mul_le_mul_right den (Nat.succ_le_of_lt above)
    rw [Nat.succ_mul, next] at most
    have beyond : ¬ 2 * (k * den) < 2 * num + den ∧ ¬ 2 * (k * den) = 2 * num + den := by omega
    simp only [beyond, false_or, false_and, iff_false]
    split <;> try split
    all_goals omega

theorem isRoundedTo_roundHalfEven (num : ℕ) {den : ℕ} (pos : 0 < den) :
    IsRoundedTo (roundHalfEven num den) (num / den) := by
  intro k
  have positive : (0 : ℚ) < den := by exact_mod_cast pos
  rw [le_roundHalfEven_iff num pos, lt_div_iff₀ positive, eq_div_iff positive.ne',
    ← Nat.cast_lt (α := ℚ), ← Nat.cast_inj (R := ℚ)]
  push_cast
  refine or_congr ?_ (and_congr_left fun _ => ?_)
  all_goals constructor <;> intro h <;> linarith

/-! ## Powers of two -/

theorem two_zpow_eq (e : ℤ) : (2 : ℚ) ^ e = 2 ^ e.toNat / 2 ^ (-e).toNat := by
  rcases Int.le_total 0 e with positive | negative
  · obtain ⟨n, rfl⟩ := Int.eq_ofNat_of_zero_le positive
    simp
  · obtain ⟨n, hn⟩ := Int.eq_ofNat_of_zero_le (Int.neg_nonneg_of_nonpos negative)
    obtain rfl : e = -n := by omega
    simp

theorem mul_two_zpow_eq (num : ℕ) (e : ℤ) :
    (num : ℚ) * 2 ^ e = (num * 2 ^ e.toNat : ℕ) / (2 ^ (-e).toNat : ℕ) := by
  rw [two_zpow_eq]
  push_cast
  ring

theorem div_two_zpow_eq (num den : ℕ) (e : ℤ) :
    (num : ℚ) / den / 2 ^ e = (num * 2 ^ (-e).toNat : ℕ) / (den * 2 ^ e.toNat : ℕ) := by
  rw [two_zpow_eq]
  push_cast
  field_simp

/-- A quotient reaches a power of two if it does so in whole numbers. -/
theorem two_zpow_le_div_iff (num : ℕ) {den : ℕ} (pos : 0 < den) (e : ℤ) :
    (2 : ℚ) ^ e ≤ num / den ↔ den * 2 ^ e.toNat ≤ num * 2 ^ (-e).toNat := by
  have positive : (0 : ℚ) < (den * 2 ^ e.toNat : ℕ) := by
    exact_mod_cast Nat.mul_pos pos (Nat.two_pow_pos _)
  rw [← one_le_div (zpow_pos two_pos e), div_two_zpow_eq, one_le_div positive, Nat.cast_le]

theorem floorLog_spec {num den : ℕ} (some : 0 < num) (pos : 0 < den) :
    (2 : ℚ) ^ floorLog num den ≤ num / den ∧ (num : ℚ) / den < 2 ^ (floorLog num den + 1) := by
  have numLeast : (2 : ℚ) ^ num.log2 ≤ num := by exact_mod_cast Nat.log2_self_le some.ne'
  have numMost : (num : ℚ) < 2 ^ (num.log2 + 1) := by
    exact_mod_cast (Nat.lt_log2_self : num < 2 ^ (num.log2 + 1))
  have denLeast : (2 : ℚ) ^ den.log2 ≤ den := by exact_mod_cast Nat.log2_self_le pos.ne'
  have denMost : (den : ℚ) < 2 ^ (den.log2 + 1) := by
    exact_mod_cast (Nat.lt_log2_self : den < 2 ^ (den.log2 + 1))
  have least : (2 : ℚ) ^ ((num.log2 : ℤ) - den.log2 - 1) ≤ num / den := by
    rw [sub_sub, zpow_sub₀ two_ne_zero]
    exact_mod_cast div_le_div₀ (by positivity) numLeast (by positivity) denMost.le
  have most : (num : ℚ) / den < 2 ^ ((num.log2 : ℤ) - den.log2 + 1) := by
    rw [sub_add_eq_add_sub, zpow_sub₀ two_ne_zero]
    exact_mod_cast div_lt_div₀ numMost denLeast (by positivity) (by positivity)
  have reaches := two_zpow_le_div_iff num pos ((num.log2 : ℤ) - den.log2)
  unfold floorLog
  dsimp only
  split
  · next reached => exact ⟨reaches.mpr reached, most⟩
  · next missed =>
      rw [sub_add_cancel]
      exact ⟨least, not_le.mp (mt reaches.mp missed)⟩

namespace Binary64

/-! ## The places of the format -/

/-- A number of the format, if there were no largest one: at most 53 binary digits, and none of them
below `2^-1074`. -/
def IsPlace (x : ℚ) : Prop := ∃ k e : ℤ, |k| ≤ 2 ^ 53 ∧ -1074 ≤ e ∧ x = k * 2 ^ e

theorem isPlace_neg {x : ℚ} (h : IsPlace x) : IsPlace (-x) := by
  obtain ⟨k, e, short, low, rfl⟩ := h
  exact ⟨-k, e, (abs_neg k).trans_le short, low, by push_cast; ring⟩

theorem isPlace_zero : IsPlace 0 := ⟨0, 0, by norm_num, by norm_num, by norm_num⟩

theorem isPlace_natCast {n : ℕ} (short : n ≤ 2 ^ 53) : IsPlace n :=
  ⟨n, 0, by rw [Nat.abs_cast]; exact_mod_cast short, by norm_num, by simp⟩

theorem isPlace_two_zpow {e : ℤ} (low : -1074 ≤ e) : IsPlace (2 ^ e) :=
  ⟨1, e, by norm_num, low, by simp⟩

/-- A place is a multiple of a power of two, or it has digits below that power and is small. -/
theorem IsPlace.cases {x : ℚ} (h : IsPlace x) (e : ℤ) :
    (∃ k : ℤ, x = k * 2 ^ e) ∨ -1074 < e ∧ |x| ≤ 2 ^ (e + 52) := by
  obtain ⟨k, f, short, low, rfl⟩ := h
  rcases Int.lt_or_le f e with below | above
  · have digits : (|k| : ℚ) ≤ 2 ^ (53 : ℤ) := by exact_mod_cast short
    refine .inr ⟨lt_of_le_of_lt low below, ?_⟩
    calc |(k : ℚ) * 2 ^ f| = |(k : ℚ)| * 2 ^ f := by
          rw [abs_mul, abs_of_pos (zpow_pos two_pos f : (0 : ℚ) < 2 ^ f)]
      _ ≤ 2 ^ (53 : ℤ) * 2 ^ f := mul_le_mul_of_nonneg_right digits (by positivity)
      _ = 2 ^ (53 + f) := (zpow_add₀ two_ne_zero 53 f).symm
      _ ≤ 2 ^ (e + 52) := zpow_le_zpow_right₀ one_le_two (by omega)
  · obtain ⟨n, hn⟩ := Int.eq_ofNat_of_zero_le (Int.sub_nonneg_of_le above)
    refine .inl ⟨k * 2 ^ n, ?_⟩
    obtain rfl : f = e + n := by omega
    rw [zpow_add₀ two_ne_zero, zpow_natCast]
    push_cast
    ring

/-- From a power of two on, the places are multiples of its last digit. -/
theorem IsPlace.exists_multiple {x : ℚ} (h : IsPlace x) {e : ℤ} (le : 2 ^ (e + 52) ≤ x) :
    ∃ k : ℤ, x = k * 2 ^ e := by
  rcases h.cases e with multiple | ⟨-, small⟩
  · exact multiple
  · refine ⟨2 ^ 52, ?_⟩
    rw [le_antisymm ((le_abs_self x).trans small) le, zpow_add₀ two_ne_zero]
    push_cast
    ring

/-- Below a power of two there is no place for as long as its last digit there. -/
theorem IsPlace.le_pred {x : ℚ} (h : IsPlace x) {e : ℤ} (lt : x < 2 ^ (e + 53)) :
    x ≤ 2 ^ (e + 53) - 2 ^ e := by
  have unit : (0 : ℚ) < 2 ^ e := zpow_pos two_pos e
  rw [zpow_add₀ two_ne_zero, zpow_ofNat] at lt ⊢
  rcases h.cases e with ⟨k, rfl⟩ | ⟨-, small⟩
  · rw [mul_comm, mul_lt_mul_iff_right₀ unit] at lt
    have : (k : ℚ) ≤ 2 ^ 53 - 1 := by
      have : k ≤ 2 ^ 53 - 1 := Int.le_sub_one_of_lt (by exact_mod_cast lt)
      exact_mod_cast this
    nlinarith
  · rw [zpow_add₀ two_ne_zero, zpow_ofNat] at small
    have := (le_abs_self x).trans small
    linarith

/-- Nor is there one above. -/
theorem IsPlace.succ_le {x : ℚ} (h : IsPlace x) {e : ℤ} (lt : 2 ^ (e + 52) < x) :
    2 ^ (e + 52) + 2 ^ e ≤ x := by
  have unit : (0 : ℚ) < 2 ^ e := zpow_pos two_pos e
  obtain ⟨k, rfl⟩ := h.exists_multiple lt.le
  rw [zpow_add₀ two_ne_zero, zpow_ofNat] at lt ⊢
  rw [mul_comm (k : ℚ), mul_lt_mul_iff_right₀ unit] at lt
  have : (2 : ℚ) ^ 52 + 1 ≤ k := by
    have : 2 ^ 52 + 1 ≤ k := Int.add_one_le_of_lt (by exact_mod_cast lt)
    exact_mod_cast this
  nlinarith

/-! ## The nearest place -/

/-- The place nearest to `q`; of two that are equally near it is the one that is an even multiple of
their distance. -/
structure IsNearest (x q : ℚ) : Prop where
  isPlace : IsPlace x
  nearest : ∀ y, IsPlace y → |x - q| ≤ |y - q|
  even : ∀ y, IsPlace y → y ≠ x → |x - q| = |y - q| → ∃ k : ℤ, Even k ∧ x = k * |x - y|

namespace IsNearest

variable {x y q : ℚ}

theorem neg (h : IsNearest x q) : IsNearest (-x) (-q) := by
  have mirror : ∀ a b : ℚ, |-a - -b| = |a - b| := by
    intro a b
    rw [neg_sub_neg, abs_sub_comm]
  refine ⟨isPlace_neg h.isPlace, fun y place => ?_, fun y place other tie => ?_⟩
  · rw [mirror, ← neg_neg y, mirror]
    exact h.nearest _ (isPlace_neg place)
  · rw [mirror, ← neg_neg y, mirror] at tie
    obtain ⟨k, even, multiple⟩ := h.even _ (isPlace_neg place) (fun same => other (by linarith)) tie
    refine ⟨-k, even.neg, ?_⟩
    rw [← neg_neg y, mirror]
    push_cast
    linarith

theorem of_isPlace (h : IsPlace q) : IsNearest q q where
  isPlace := h
  nearest y _ := by
    rw [sub_self, abs_zero]
    exact abs_nonneg _
  even y _ other tie := by
    rw [sub_self, abs_zero, eq_comm, abs_eq_zero, sub_eq_zero] at tie
    exact absurd tie other

theorem eq_of_isPlace (h : IsNearest x q) (place : IsPlace q) : x = q := by
  have := h.nearest q place
  rwa [sub_self, abs_zero, abs_nonpos_iff, sub_eq_zero] at this

/-- Nothing is rounded up past a place. -/
theorem le (h : IsNearest x q) (place : IsPlace y) (le : q ≤ y) : x ≤ y := by
  by_contra beyond
  have := h.nearest y place
  rw [abs_of_nonneg (by linarith), abs_of_nonneg (by linarith)] at this
  linarith

/-- Nothing is rounded down past a place. -/
theorem ge (h : IsNearest x q) (place : IsPlace y) (le : y ≤ q) : y ≤ x := by
  by_contra beyond
  have := h.nearest y place
  rw [abs_of_nonpos (by linarith), abs_of_nonpos (by linarith)] at this
  linarith

/-- Numbers up to `2^(e + 53)` are rounded by no more than half of `2^e`. -/
theorem abs_sub_le_half (h : IsNearest x q) {e : ℤ} (low : -1074 ≤ e) (small : |q| ≤ 2 ^ (e + 53)) :
    |x - q| ≤ 2 ^ e / 2 := by
  have unit : (0 : ℚ) < 2 ^ e := zpow_pos two_pos e
  have near := abs_sub_round (q / 2 ^ e)
  have scaled : |(round (q / 2 ^ e) : ℚ) * 2 ^ e - q| ≤ 2 ^ e / 2 := by
    have : (round (q / 2 ^ e) : ℚ) * 2 ^ e - q = -((q / 2 ^ e - round (q / 2 ^ e)) * 2 ^ e) := by
      field_simp
      ring
    rw [this, abs_neg, abs_mul, abs_of_pos unit]
    linarith [mul_le_mul_of_nonneg_right near unit.le]
  have short : |round (q / 2 ^ e)| ≤ 2 ^ 53 := by
    have most : |q / 2 ^ e| ≤ 2 ^ (53 : ℤ) := by
      rw [abs_div, abs_of_pos unit, div_le_iff₀ unit, ← zpow_add₀ two_ne_zero, add_comm]
      exact small
    have : (|round (q / 2 ^ e)| : ℚ) < 2 ^ 53 + 1 := by
      have := abs_sub_abs_le_abs_sub (round (q / 2 ^ e) : ℚ) (q / 2 ^ e)
      rw [abs_sub_comm] at this
      norm_num at most ⊢
      linarith
    exact Int.lt_add_one_iff.mp (by exact_mod_cast this)
  exact (h.nearest _ ⟨_, e, short, low, rfl⟩).trans scaled

/-- A power of two is reached from half of the last digit below it, which is a tie. -/
theorem two_zpow_le_iff (h : IsNearest x q) {e : ℤ} (low : -1074 ≤ e) :
    2 ^ (e + 53) ≤ x ↔ 2 ^ (e + 53) - 2 ^ e / 2 ≤ q := by
  have unit : (0 : ℚ) < 2 ^ e := zpow_pos two_pos e
  have power : (2 : ℚ) ^ (e + 53) = 2 ^ 53 * 2 ^ e := by
    rw [zpow_add₀ two_ne_zero, zpow_ofNat, mul_comm]
  have reach := h.nearest _ (isPlace_two_zpow (e := e + 53) (by omega))
  constructor
  · intro reached
    by_contra below
    have place : IsPlace (2 ^ (e + 53) - 2 ^ e) :=
      ⟨2 ^ 53 - 1, e, by norm_num, low, by rw [power]; push_cast; ring⟩
    have nearer := h.nearest _ place
    rw [abs_of_nonneg (by linarith)] at nearer
    rcases abs_cases ((2 : ℚ) ^ (e + 53) - 2 ^ e - q) with ⟨same, -⟩ | ⟨same, -⟩ <;> linarith
  · intro close
    by_contra missed
    have below := h.isPlace.le_pred (not_le.mp missed)
    have away : q ≤ 2 ^ (e + 53) := by
      by_contra beyond
      exact missed (h.ge (isPlace_two_zpow (by omega)) (not_le.mp beyond).le)
    rw [abs_of_nonpos (by linarith), abs_of_nonneg (by linarith)] at reach
    -- the tie, which goes to the even one
    have tie : x = 2 ^ (e + 53) - 2 ^ e := by linarith
    obtain ⟨k, even, multiple⟩ := h.even _ (isPlace_two_zpow (e := e + 53) (by omega))
      (by linarith) (by rw [abs_of_nonpos (by linarith), abs_of_nonneg (by linarith)]; linarith)
    rw [abs_of_neg (by linarith), tie, power] at multiple
    have odd : (k : ℚ) = 2 ^ 53 - 1 := mul_right_cancel₀ unit.ne' (by linarith)
    have : k = 2 ^ 53 - 1 := by exact_mod_cast odd
    rw [this] at even
    exact absurd even (by decide)

/-- A power of two is not left for less than half of the last digit above it. -/
theorem le_two_zpow (h : IsNearest x q) {e : ℤ} (low : -1074 ≤ e)
    (close : q < 2 ^ (e + 52) + 2 ^ e / 2) : x ≤ 2 ^ (e + 52) := by
  have unit : (0 : ℚ) < 2 ^ e := zpow_pos two_pos e
  by_contra left
  have above := h.isPlace.succ_le (not_le.mp left)
  have nearer := h.nearest _ (isPlace_two_zpow (e := e + 52) (by omega))
  rw [abs_of_nonneg (by linarith)] at nearer
  rcases abs_cases ((2 : ℚ) ^ (e + 52) - q) with ⟨same, -⟩ | ⟨same, -⟩ <;> linarith

end IsNearest

/-- What is rounded to a multiple of `2^e` is rounded to the nearest place, if `2^e` is the last
digit there. -/
theorem isNearest_of_isRoundedTo {m : ℕ} {q : ℚ} {e : ℤ} (rounded : IsRoundedTo m (q / 2 ^ e))
    (short : m ≤ 2 ^ 53) (low : -1074 ≤ e) (last : -1074 < e → 2 ^ (e + 52) ≤ q) :
    IsNearest (m * 2 ^ e) q := by
  have unit : (0 : ℚ) < 2 ^ e := zpow_pos two_pos e
  have scaled : ∀ k : ℚ, |k * 2 ^ e - q| = |k - q / 2 ^ e| * 2 ^ e := by
    intro k
    rw [← abs_of_pos unit, ← abs_mul, abs_of_pos unit]
    congr 1
    field_simp
  have multiple : ∀ k : ℤ, |m * 2 ^ e - q| ≤ |k * 2 ^ e - q| := by
    intro k
    rw [scaled, scaled]
    exact mul_le_mul_of_nonneg_right (rounded.abs_sub_le_abs k) unit.le
  -- a place that has digits below is further off than a power of two
  have cases : ∀ y, IsPlace y → (∃ k : ℤ, y = k * 2 ^ e) ∨ |m * 2 ^ e - q| < |y - q| := by
    intro y place
    rcases place.cases e with found | ⟨normal, small⟩
    · exact .inl found
    · by_cases found : ∃ k : ℤ, y = k * 2 ^ e
      · exact .inl found
      · have power : ((2 ^ 52 : ℤ) : ℚ) * 2 ^ e = 2 ^ (e + 52) := by
          rw [zpow_add₀ two_ne_zero]
          push_cast
          ring
        have lt : y < 2 ^ (e + 52) := lt_of_le_of_ne ((le_abs_self y).trans small)
          fun same => found ⟨2 ^ 52, same.trans power.symm⟩
        have reached := last normal
        refine .inr (lt_of_le_of_lt (multiple (2 ^ 52)) ?_)
        rw [power, abs_of_nonpos (by linarith), abs_of_neg (by linarith)]
        linarith
  constructor
  · exact ⟨m, e, by rw [Nat.abs_cast]; exact_mod_cast short, low, by simp⟩
  · intro y place
    rcases cases y place with ⟨k, rfl⟩ | further
    · exact multiple k
    · exact further.le
  · intro y place other tie
    rcases cases y place with ⟨k, rfl⟩ | further
    · have different : k ≠ m := fun same => other (by rw [same, Int.cast_natCast])
      have equal : |(m : ℚ) - q / 2 ^ e| = |(k : ℚ) - q / 2 ^ e| := by
        rw [scaled, scaled] at tie
        exact mul_right_cancel₀ unit.ne' tie
      have far := rounded.half_le_abs_sub different
      have near := rounded.abs_sub_le_half
      have one : |(m : ℚ) - k| = 1 := by
        have apart := IsRoundedTo.one_le_abs_sub different
        have triangle := abs_sub_le (m : ℚ) (q / 2 ^ e) k
        rw [abs_sub_comm (q / 2 ^ e)] at triangle
        linarith
      refine ⟨m, ?_, ?_⟩
      · exact_mod_cast rounded.even_of_tie (by linarith)
      · rw [← sub_mul, abs_mul, one, one_mul, abs_of_pos unit, Int.cast_natCast]
    · exact absurd tie further.ne

/-! ## What the operations round -/

/-- The sign as a factor. -/
def signOf (negative : Bool) : ℚ := if negative then -1 else 1

/-- The number that a finite number stands for. -/
def toRat? : Binary64 → Option ℚ
  | .finite negative mantissa exponent => some (signOf negative * (mantissa * 2 ^ exponent))
  | _ => none

/-- The number is what `q` is rounded to, or infinite if that is too large. -/
def Rounds (a : Binary64) (q : ℚ) : Prop :=
  ∃ x, IsNearest x q ∧ a.toRat? = if |x| < 2 ^ (1024 : ℤ) then some x else none

/-- What is not too large is rounded to a finite number. -/
theorem Rounds.exists_toRat? {a : Binary64} {q : ℚ} (h : Rounds a q) {e : ℤ} (low : -1074 ≤ e)
    (high : e < 1024) (small : |q| ≤ 2 ^ e) : ∃ x, IsNearest x q ∧ a.toRat? = some x := by
  obtain ⟨x, nearest, value⟩ := h
  have place := isPlace_two_zpow low
  have fits : |x| < 2 ^ (1024 : ℤ) := by
    refine lt_of_le_of_lt (abs_le.mpr ⟨?_, ?_⟩) (zpow_lt_zpow_right₀ one_lt_two high)
    · exact nearest.ge (isPlace_neg place) (abs_le.mp small).1
    · exact nearest.le place (abs_le.mp small).2
  exact ⟨x, nearest, value.trans (if_pos fits)⟩

theorem rounds_zero (negative : Bool) : Rounds (finite negative 0 (-1074)) 0 :=
  ⟨0, IsNearest.of_isPlace isPlace_zero, by simp [toRat?]⟩

theorem isNearest_signOf {x q : ℚ} (h : IsNearest x q) (negative : Bool) :
    IsNearest (signOf negative * x) (signOf negative * q) := by
  cases negative with
  | false => simpa [signOf] using h
  | true => simpa [signOf] using h.neg

theorem abs_signOf_mul (negative : Bool) (x : ℚ) : |signOf negative * x| = |x| := by
  cases negative <;> simp [signOf]

/-- A number that is not below zero has no sign, or it is zero. -/
theorem nonneg_signOf_mul {negative : Bool} {mantissa : ℕ} {exponent : ℤ}
    (nonneg : 0 ≤ signOf negative * ((mantissa : ℚ) * 2 ^ exponent)) :
    (negative && mantissa != 0) = false ∧
      signOf negative * ((mantissa : ℚ) * 2 ^ exponent) = mantissa * 2 ^ exponent := by
  have unit : (0 : ℚ) < 2 ^ exponent := zpow_pos two_pos exponent
  rcases Nat.eq_zero_or_pos mantissa with rfl | some
  · simp
  · have positive : (0 : ℚ) < mantissa * 2 ^ exponent :=
      mul_pos (by exact_mod_cast some) unit
    cases negative with
    | false => simp [signOf]
    | true =>
        simp only [signOf, if_true, neg_one_mul] at nonneg
        linarith

theorem signOf_bne (s t : Bool) : signOf (s != t) = signOf s * signOf t := by
  cases s <;> cases t <;> simp [signOf]

/-- A mantissa that has become too long is carried over. -/
theorem toRat?_carried (negative : Bool) {m : ℕ} {e : ℤ} (short : m ≤ 2 ^ 53)
    (full : 971 < e → 2 ^ 52 ≤ m) :
    (if 971 < (if m = 2 ^ 53 then (2 ^ 52, e + 1) else (m, e)).2 then infinite negative
      else finite negative (if m = 2 ^ 53 then (2 ^ 52, e + 1) else (m, e)).1
        (if m = 2 ^ 53 then (2 ^ 52, e + 1) else (m, e)).2).toRat? =
      if (m : ℚ) * 2 ^ e < 2 ^ (1024 : ℤ) then some (signOf negative * (m * 2 ^ e)) else none := by
  have unit : (0 : ℚ) < 2 ^ e := zpow_pos two_pos e
  by_cases carry : m = 2 ^ 53
  · have value : (m : ℚ) * 2 ^ e = 2 ^ (e + 53) := by
      rw [carry, zpow_add₀ two_ne_zero]
      push_cast
      ring
    have small : (m : ℚ) * 2 ^ e < 2 ^ (1024 : ℤ) ↔ e + 1 ≤ 971 := by
      rw [value, zpow_lt_zpow_iff_right₀ one_lt_two]
      omega
    rw [if_pos carry]
    by_cases fits : e + 1 ≤ 971
    · rw [if_neg (by omega), if_pos (small.mpr fits), toRat?, value, zpow_add₀ two_ne_zero,
        zpow_add₀ two_ne_zero]
      push_cast
      ring_nf
    · rw [if_pos (by omega), if_neg (mt small.mp fits)]
      rfl
  · have below : (m : ℚ) < 2 ^ (53 : ℤ) := by
      exact_mod_cast lt_of_le_of_ne short carry
    rw [if_neg carry]
    by_cases fits : e ≤ 971
    · have small : (m : ℚ) * 2 ^ e < 2 ^ (1024 : ℤ) :=
        calc (m : ℚ) * 2 ^ e < 2 ^ (53 : ℤ) * 2 ^ e := mul_lt_mul_of_pos_right below unit
          _ = 2 ^ (53 + e) := (zpow_add₀ two_ne_zero 53 e).symm
          _ ≤ 2 ^ (1024 : ℤ) := zpow_le_zpow_right₀ one_le_two (by omega)
      rw [if_neg (by omega), if_pos small, toRat?]
    · have least : (2 : ℚ) ^ (52 : ℤ) ≤ m := by exact_mod_cast full (by omega)
      have large : (2 : ℚ) ^ (1024 : ℤ) ≤ m * 2 ^ e :=
        calc (2 : ℚ) ^ (1024 : ℤ) ≤ 2 ^ (52 + e) := zpow_le_zpow_right₀ one_le_two (by omega)
          _ = 2 ^ (52 : ℤ) * 2 ^ e := zpow_add₀ two_ne_zero 52 e
          _ ≤ m * 2 ^ e := mul_le_mul_of_nonneg_right least unit.le
      rw [if_pos (by omega), if_neg (not_lt.mpr large)]
      rfl

/-- The quotient is rounded to the nearest number. -/
theorem rounds_nearest (negative : Bool) (num : ℕ) {den : ℕ} (pos : 0 < den) :
    Rounds (nearest negative num den) (signOf negative * (num / den)) := by
  unfold nearest
  rcases Nat.eq_zero_or_pos num with rfl | some
  · simpa using rounds_zero negative
  · rw [if_neg some.ne']
    obtain ⟨least, most⟩ := floorLog_spec some pos
    dsimp only
    generalize last : max (floorLog num den - 52) (-1074) = e
    have unit : (0 : ℚ) < 2 ^ e := zpow_pos two_pos e
    have reached : -1074 < e → (2 : ℚ) ^ (e + 52) ≤ num / den := fun normal =>
      (zpow_le_zpow_right₀ one_le_two (by omega)).trans least
    have rounded := isRoundedTo_roundHalfEven (num * 2 ^ (-e).toNat)
      (Nat.mul_pos pos (Nat.two_pow_pos e.toNat))
    rw [← div_two_zpow_eq] at rounded
    generalize roundHalfEven (num * 2 ^ (-e).toNat) (den * 2 ^ e.toNat) = m at *
    have short : m ≤ 2 ^ 53 := by
      have below : (num : ℚ) / den / 2 ^ e < 2 ^ (53 : ℤ) := by
        rw [div_lt_iff₀ unit, ← zpow_add₀ two_ne_zero]
        exact most.trans_le (zpow_le_zpow_right₀ one_le_two (by omega))
      have near := abs_le.mp rounded.abs_sub_le_half
      have : (m : ℚ) < 2 ^ 53 + 1 := by
        rw [zpow_ofNat] at below
        linarith [near.2]
      exact Nat.lt_add_one_iff.mp (by exact_mod_cast this)
    have full : 971 < e → 2 ^ 52 ≤ m := by
      intro high
      have : (2 : ℚ) ^ (52 : ℤ) ≤ num / den / 2 ^ e := by
        rw [le_div_iff₀ unit, ← zpow_add₀ two_ne_zero, add_comm]
        exact reached (by omega)
      rw [zpow_ofNat] at this
      refine (rounded _).mpr (.inl ?_)
      push_cast
      linarith
    refine ⟨_, isNearest_signOf
      (isNearest_of_isRoundedTo rounded short (last ▸ le_max_right ..) reached) negative, ?_⟩
    rw [abs_signOf_mul, abs_of_nonneg (by positivity)]
    exact toRat?_carried negative short full

/-- The number is rounded to the nearest one. -/
theorem rounds_ofBinary (negative : Bool) (mantissa : ℕ) (exponent : ℤ) :
    Rounds (ofBinary negative mantissa exponent)
      (signOf negative * (mantissa * 2 ^ exponent)) := by
  rw [mul_two_zpow_eq]
  exact rounds_nearest negative _ (Nat.two_pow_pos _)

theorem signedUnits_mul (negative : Bool) (mantissa : ℕ) {exponent unit : ℤ}
    (le : unit ≤ exponent) :
    (signedUnits negative mantissa exponent unit : ℚ) * 2 ^ unit =
      signOf negative * (mantissa * 2 ^ exponent) := by
  obtain ⟨n, hn⟩ := Int.eq_ofNat_of_zero_le (Int.sub_nonneg_of_le le)
  obtain rfl : exponent = unit + n := by omega
  unfold signedUnits signOf
  rw [add_sub_cancel_left, Int.toNat_natCast, zpow_add₀ two_ne_zero, zpow_natCast]
  cases negative <;> simp <;> ring

variable {a b : Binary64} {x y : ℚ}

theorem exists_of_toRat? (value : a.toRat? = some x) :
    ∃ negative mantissa exponent, a = .finite negative mantissa exponent ∧
      x = signOf negative * (mantissa * 2 ^ exponent) := by
  cases a with
  | finite negative mantissa exponent =>
      exact ⟨negative, mantissa, exponent, rfl, (Option.some.inj value).symm⟩
  | infinite negative => cases value
  | nan => cases value

/-- The sum is the exact one, rounded. -/
theorem rounds_add (left : a.toRat? = some x) (right : b.toRat? = some y) :
    Rounds (a.add b) (x + y) := by
  obtain ⟨s, m, e, rfl, rfl⟩ := exists_of_toRat? left
  obtain ⟨t, n, f, rfl, rfl⟩ := exists_of_toRat? right
  rw [← signedUnits_mul s m (min_le_left e f), ← signedUnits_mul t n (min_le_right e f), ← add_mul]
  unfold add
  dsimp only
  generalize min e f = unit
  rw [← Int.cast_add]
  generalize signedUnits s m e unit + signedUnits t n f unit = total
  split
  · next zero =>
      subst zero
      simpa using rounds_zero (s && t)
  · have signed : (total : ℚ) = signOf (total < 0) * (total.natAbs : ℕ) := by
      rw [Nat.cast_natAbs]
      unfold signOf
      split
      · next negative =>
          rw [abs_of_neg (of_decide_eq_true negative)]
          push_cast
          ring
      · next positive =>
          rw [abs_of_nonneg (not_lt.mp (of_decide_eq_false (Bool.not_eq_true _ ▸ positive))), one_mul]
    rw [signed, mul_assoc]
    exact rounds_ofBinary _ _ _

/-- The product is the exact one, rounded. -/
theorem rounds_mul (left : a.toRat? = some x) (right : b.toRat? = some y) :
    Rounds (a.mul b) (x * y) := by
  obtain ⟨s, m, e, rfl, rfl⟩ := exists_of_toRat? left
  obtain ⟨t, n, f, rfl, rfl⟩ := exists_of_toRat? right
  have exact : signOf s * (m * 2 ^ e) * (signOf t * (n * 2 ^ f)) =
      signOf (s != t) * ((m * n : ℕ) * 2 ^ (e + f)) := by
    rw [signOf_bne, zpow_add₀ two_ne_zero]
    push_cast
    ring
  rw [exact]
  exact rounds_ofBinary _ _ _

/-- A product that is finite is a place. -/
theorem isPlace_mul (value : (a.mul b).toRat? = some x) : IsPlace x := by
  cases a with
  | finite s m e => cases b with
    | finite t n f =>
        obtain ⟨z, nearest, product⟩ := rounds_mul (a := finite s m e) (b := finite t n f) rfl rfl
        rw [value] at product
        obtain ⟨-, same⟩ := Option.ite_none_right_eq_some.mp product.symm
        exact Option.some.inj same ▸ nearest.isPlace
    | infinite t =>
        unfold mul at value
        dsimp only at value
        split at value <;> cases value
    | nan => cases value
  | infinite s => cases b with
    | finite t n f =>
        unfold mul at value
        dsimp only at value
        split at value <;> cases value
    | infinite t => cases value
    | nan => cases value
  | nan => cases value

/-! ## Comparisons -/

/-- Numbers compare as what they stand for. -/
theorem exceeds_iff (left : a.toRat? = some x) (right : b.toRat? = some y) :
    a.exceeds b = true ↔ y < x := by
  obtain ⟨s, m, e, rfl, rfl⟩ := exists_of_toRat? left
  obtain ⟨t, n, f, rfl, rfl⟩ := exists_of_toRat? right
  rw [← signedUnits_mul s m (min_le_left e f), ← signedUnits_mul t n (min_le_right e f),
    mul_lt_mul_iff_left₀ (zpow_pos two_pos _), Int.cast_lt]
  exact decide_eq_true_iff

theorem isNegative_iff (value : a.toRat? = some x) : a.isNegative = true ↔ x < 0 :=
  exceeds_iff (by simp [toRat?]) value

theorem isFinite_iff : a.isFinite = true ↔ ∃ x, a.toRat? = some x := by
  cases a <;> simp [isFinite, toRat?]

end Binary64

end Supervision
