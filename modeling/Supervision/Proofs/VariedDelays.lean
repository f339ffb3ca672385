import Supervision.Backoff

/-!
# Varied delays

Jitter works on a number of milliseconds that fits in 64 bits. It halves the number or draws one
that is no greater, so nothing can become too large, and no delay becomes longer.

Results:
1. `Jitter.exists_apply_eq_ofMillis`: what is varied is a whole number of milliseconds, no more than
   the delay has.
2. `Jitter.applyWords?_eq`: computed in words of 64 bits it is the same, and no word overflows.
3. `Jitter.onlyShortens`: what jitter does to delays, and to those of a backoff.
-/

namespace Supervision

/-! ## Durations -/

namespace Duration

/-- The duration is one that a clock can hold. -/
def FitsClock (d : Duration) : Prop := d.seconds < 2 ^ 64

instance (d : Duration) : Decidable d.FitsClock := inferInstanceAs (Decidable (d.seconds < 2 ^ 64))

theorem cappedMillis_lt (d : Duration) : d.cappedMillis < 2 ^ 64 := by
  unfold cappedMillis
  omega

theorem cappedMillis_eq_zero_iff (d : Duration) : d.cappedMillis = 0 ↔ d.wholeMillis = 0 := by
  unfold cappedMillis
  omega

theorem ofMillis_le {d : Duration} {ms : Nat} (h : ms ≤ d.cappedMillis) : ofMillis ms ≤ d := by
  have whole : ms ≤ d.nanos / 1000000 := Nat.le_trans h (Nat.min_le_left ..)
  exact Nat.le_trans (Nat.mul_le_mul_right 1000000 whole) (Nat.div_mul_le_self ..)

theorem FitsClock.mono {d d' : Duration} (h : d.FitsClock) (le : d' ≤ d) : d'.FitsClock :=
  Nat.lt_of_le_of_lt (Nat.div_le_div_right le) h

end Duration

namespace Jitter

variable {jitter : Jitter} {delay : Duration}

/-! ## What jitter makes of a delay -/

theorem apply_of_untouched (h : jitter = .none ∨ delay.wholeMillis = 0) (draw : Nat) :
    jitter.apply draw delay = delay := by
  unfold apply
  split
  · rfl
  · next some =>
      rcases h with rfl | short
      · rfl
      · exact absurd (delay.cappedMillis_eq_zero_iff.mpr short) some

theorem apply_full (some : 0 < delay.wholeMillis) (draw : Nat) :
    Jitter.full.apply draw delay = .ofMillis (min draw delay.cappedMillis) :=
  if_neg (mt delay.cappedMillis_eq_zero_iff.mp (Nat.ne_of_gt some))

theorem apply_equal (some : 0 < delay.wholeMillis) (draw : Nat) :
    Jitter.equal.apply draw delay =
      .ofMillis (delay.cappedMillis / 2 + min draw (delay.cappedMillis / 2)) :=
  if_neg (mt delay.cappedMillis_eq_zero_iff.mp (Nat.ne_of_gt some))

/-- A delay that is varied becomes a whole number of milliseconds, no more than it has. -/
theorem exists_apply_eq_ofMillis (varies : jitter ≠ .none) (some : 0 < delay.wholeMillis)
    (draw : Nat) : ∃ ms ≤ delay.cappedMillis, jitter.apply draw delay = .ofMillis ms := by
  cases jitter with
  | none => exact absurd rfl varies
  | full => exact ⟨_, Nat.min_le_right .., apply_full some draw⟩
  | equal =>
      refine ⟨_, ?_, apply_equal some draw⟩
      omega

theorem apply_le (jitter : Jitter) (draw : Nat) (delay : Duration) :
    jitter.apply draw delay ≤ delay := by
  by_cases untouched : jitter = .none ∨ delay.wholeMillis = 0
  · rw [apply_of_untouched untouched]
    exact Nat.le_refl _
  · obtain ⟨varies, some⟩ := not_or.mp untouched
    obtain ⟨ms, le, same⟩ := exists_apply_eq_ofMillis varies (Nat.pos_of_ne_zero some) draw
    rw [same]
    exact Duration.ofMillis_le le

end Jitter

/-! ## Words of 64 bits -/

/-- The sum of two words, if it is one. -/
def addWords? (a b : UInt64) : Option UInt64 :=
  if a.toNat + b.toNat < 2 ^ 64 then some (a + b) else none

namespace Duration

/-- The whole milliseconds as a word, the largest one if they are too many. -/
def millisWord (d : Duration) : UInt64 :=
  if d.wholeMillis < 2 ^ 64 then .ofNat d.wholeMillis else .ofNat (2 ^ 64 - 1)

/-- The duration of some milliseconds, if a clock can hold it. -/
def ofWord? (ms : UInt64) : Option Duration :=
  if (ofMillis ms.toNat).FitsClock then some (ofMillis ms.toNat) else none

theorem toNat_millisWord (d : Duration) : d.millisWord.toNat = d.cappedMillis := by
  unfold millisWord cappedMillis
  split
  · next small =>
      rw [UInt64.toNat_ofNat_of_lt' small]
      omega
  · rw [UInt64.toNat_ofNat_of_lt' (by decide)]
    omega

/-- Milliseconds that are a word are never too many for a clock. -/
theorem ofWord?_eq (ms : UInt64) : ofWord? ms = some (ofMillis ms.toNat) := by
  have small := ms.toNat_lt
  refine if_pos ?_
  show ms.toNat * 1000000 / 1000000000 < 2 ^ 64
  omega

end Duration

theorem addWords?_eq {a b : UInt64} (small : a.toNat + b.toNat < 2 ^ 64) :
    ∃ c, addWords? a b = some c ∧ c.toNat = a.toNat + b.toNat :=
  ⟨a + b, if_pos small, by rw [UInt64.toNat_add, Nat.mod_eq_of_lt small]⟩

theorem toNat_minWord (a b : UInt64) : (min a b).toNat = min a.toNat b.toNat := by
  show (if a ≤ b then a else b).toNat = _
  split
  · next le => exact (Nat.min_eq_left (UInt64.le_iff_toNat_le.mp le)).symm
  · next gt => exact (Nat.min_eq_right (Nat.le_of_not_le (mt UInt64.le_iff_toNat_le.mpr gt))).symm

namespace Jitter

/-- What jitter makes of a delay, computed in words. There is no result if a sum is no word or if no
clock can hold the duration. -/
def applyWords? (jitter : Jitter) (draw : UInt64) (delay : Duration) : Option Duration :=
  let ms := delay.millisWord
  if ms = 0 then some delay else
  match jitter with
  | .none => some delay
  | .full => Duration.ofWord? (min draw ms)
  | .equal => (addWords? (ms / 2) (min draw (ms / 2))).bind Duration.ofWord?

/-- No word overflows, and a clock can hold every duration that is made. -/
theorem applyWords?_eq (jitter : Jitter) (draw : UInt64) (delay : Duration) :
    jitter.applyWords? draw delay = some (jitter.apply draw.toNat delay) := by
  have word := delay.toNat_millisWord
  have zero : delay.millisWord = 0 ↔ delay.cappedMillis = 0 := by
    rw [← UInt64.toNat_inj, word]
    rfl
  unfold applyWords? apply
  dsimp only
  simp only [zero]
  split
  · rfl
  · cases jitter with
    | none => rfl
    | full =>
        dsimp only [range]
        rw [Duration.ofWord?_eq, toNat_minWord, word]
    | equal =>
        have half : (delay.millisWord / 2).toNat = delay.cappedMillis / 2 := by
          rw [UInt64.toNat_div, word]
          rfl
        have drawn : (min draw (delay.millisWord / 2)).toNat =
            min draw.toNat (delay.cappedMillis / 2) := by rw [toNat_minWord, half]
        have capped := delay.cappedMillis_lt
        obtain ⟨total, added, sum⟩ := addWords?_eq (a := delay.millisWord / 2)
          (b := min draw (delay.millisWord / 2)) (by omega)
        dsimp only [range]
        rw [added, Option.bind_some, Duration.ofWord?_eq, sum, half, drawn]

/-! ## Delays before restarts -/

/-- What a kind of jitter does to delays. -/
structure OnlyShortens (jitter : Jitter) : Prop where
  /-- A backoff with this jitter waits no longer than one without, for whatever draws, and computes
  its delay unless that one cannot either. -/
  next : ∀ (b : Backoff) (restart draw other : Nat),
    (∃ error, { b with jitter }.next restart draw = .error error ∧
      { b with jitter := .none }.next restart other = .error error) ∨
    ∃ varied plain, { b with jitter }.next restart draw = .ok varied ∧
      { b with jitter := .none }.next restart other = .ok plain ∧ varied ≤ plain
  /-- The same is computed in words of 64 bits: no sum overflows, nor does a duration. -/
  words : ∀ (draw : UInt64) (delay : Duration),
    jitter.applyWords? draw delay = some (jitter.apply draw.toNat delay)
  fits : ∀ (draw : Nat) (delay : Duration), delay.FitsClock → (jitter.apply draw delay).FitsClock
  /-- Without jitter, and below a millisecond, a delay is left as it is. -/
  untouched : ∀ (draw : Nat) (delay : Duration), jitter = .none ∨ delay.wholeMillis = 0 →
    jitter.apply draw delay = delay
  /-- Otherwise it becomes a whole number of milliseconds. -/
  whole : ∀ (draw : Nat) (delay : Duration), jitter ≠ .none → 0 < delay.wholeMillis →
    ∃ ms ≤ delay.wholeMillis, jitter.apply draw delay = .ofMillis ms

theorem next_shortens (jitter : Jitter) (b : Backoff) (restart draw other : Nat) :
    (∃ error, { b with jitter }.next restart draw = .error error ∧
      { b with jitter := .none }.next restart other = .error error) ∨
    ∃ varied plain, { b with jitter }.next restart draw = .ok varied ∧
      { b with jitter := .none }.next restart other = .ok plain ∧ varied ≤ plain := by
  -- the delay before jitter does not depend on the jitter
  have base : ∀ jitter, { b with jitter }.base restart = b.base restart := fun _ => rfl
  unfold Backoff.next
  rw [base jitter, base .none]
  cases b.base restart with
  | error error => exact .inl ⟨error, rfl, rfl⟩
  | ok delay =>
      refine .inr ⟨_, _, rfl, rfl, ?_⟩
      rw [apply_of_untouched (.inl rfl)]
      exact apply_le jitter draw delay

theorem onlyShortens (jitter : Jitter) : OnlyShortens jitter where
  next := next_shortens jitter
  words := applyWords?_eq jitter
  fits draw delay fits := fits.mono (apply_le jitter draw delay)
  untouched draw _ h := apply_of_untouched h draw
  whole draw delay varies some := by
    obtain ⟨ms, le, same⟩ := exists_apply_eq_ofMillis varies some draw
    exact ⟨ms, Nat.le_trans le (Nat.min_le_left ..), same⟩

end Jitter

end Supervision
