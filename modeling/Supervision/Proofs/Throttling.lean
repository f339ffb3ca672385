import Supervision.Proofs.Streaks
import Supervision.Proofs.VariedDelays

/-!
# Delays that are halved

Equal jitter keeps half of a delay and draws the rest. It halves the whole milliseconds and drops
the remainder, so half of the delay is kept for certain only if the delay is an even number of
milliseconds. One millisecond is halved to nothing: then a restart that should wait is made at once.

Results:
1. `Jitter.keepsHalf_iff`: the delays of which no draw leaves less than half.
2. `Jitter.equal_eq_zero_iff`: the delays of which nothing is left.
3. `Supervisor.handTo_again`: how a restart with a delay is made.
4. `Supervisor.throttles`: all of this together.
5. `Supervisor.halved_to_nothing`: a restart that does not wait.
-/

namespace Supervision

/-- A timer waits for as many milliseconds as a word can count. -/
theorem Duration.timerMillis_ofMillis {ms : Nat} (small : ms < 2 ^ 64) :
    (ofMillis ms).timerMillis = ms := by
  have few : (ofMillis ms).seconds < 2 ^ 63 := by
    show ms * 1000000 / 1000000000 < 2 ^ 63
    omega
  rw [timerMillis, if_pos few]
  show (ms * 1000000 + 999999) / 1000000 = ms
  omega

namespace Jitter

variable {delay : Duration}

/-! ## What is left of a delay -/

/-- The milliseconds that a draw leaves of a delay. -/
def halved (draw : Nat) (delay : Duration) : Nat :=
  delay.cappedMillis / 2 + min draw (delay.cappedMillis / 2)

theorem nanos_equal (some : 0 < delay.wholeMillis) (draw : Nat) :
    (Jitter.equal.apply draw delay).nanos = halved draw delay * 1000000 := by
  rw [apply_equal some]
  rfl

/-- No draw leaves less than half of the delay if and only if the delay is an even number of
milliseconds and the number is a word. -/
theorem keepsHalf_iff (some : 0 < delay.wholeMillis) :
    (∀ draw, delay.nanos ≤ 2 * (Jitter.equal.apply draw delay).nanos) ↔
      delay.nanos % 2000000 = 0 ∧ delay.wholeMillis < 2 ^ 64 := by
  simp only [nanos_equal some, halved, Duration.cappedMillis, Duration.wholeMillis]
  constructor
  · intro kept
    have least := kept 0
    omega
  · rintro ⟨even, word⟩ draw
    omega

/-- Less than two milliseconds are missing from half of the delay, doubled, as long as the
milliseconds are a word. -/
theorem nanos_lt_equal (word : delay.wholeMillis < 2 ^ 64) (some : 0 < delay.wholeMillis)
    (draw : Nat) : delay.nanos < 2 * (Jitter.equal.apply draw delay).nanos + 2000000 := by
  rw [nanos_equal some, halved, Duration.cappedMillis]
  unfold Duration.wholeMillis at *
  omega

/-- Nothing is left of one millisecond, whatever is drawn, and something of every longer delay. -/
theorem equal_eq_zero_iff (some : 0 < delay.wholeMillis) (draw : Nat) :
    Jitter.equal.apply draw delay = .zero ↔ delay.wholeMillis = 1 := by
  have zero : Jitter.equal.apply draw delay = .zero ↔ halved draw delay = 0 := by
    rw [apply_equal some, ← halved, Duration.ofMillis, Duration.zero, Duration.mk.injEq]
    omega
  rw [zero, halved, Duration.cappedMillis]
  omega

end Jitter

/-- The delay of a restart that is asked for. -/
theorem Restarter.delay?_of_again {r : Restarter} {streaks : Streaks} {c : Consultation}
    {streak : Nat} {delay : Duration} (again : (r.answer streaks c).2 = .again streak delay) :
    r.delay? streak c.draw = .ok delay := by
  cases wanted : r.policy.wants c.fault with
  | false =>
      rw [answer_of_unwanted wanted] at again
      cases again
  | true => cases counted : r.counts c with
    | true =>
        rw [answer_of_counts counted] at again
        obtain ⟨rfl, -, computed⟩ := judge_again_iff.mp again
        exact computed
    | false =>
        obtain ⟨decision, undone, idle⟩ := answer_of_idle wanted counted
        rw [idle] at again
        rcases undone with rfl | rfl <;> cases again

namespace Supervisor

variable {s t : Supervisor} {r : Restarter} {run : Run} {index number draw : Nat}

/-! ## Restarts -/

/-- A restart that is asked for is made after the delay. -/
theorem handTo_again {streaks : Streaks} {scope : Scope} {fault : Option Fault} {streak : Nat}
    {delay : Duration} (found : s.setup.restarters[index]? = some r)
    (kept : s.streaks[index]? = some streaks) (known : s.run? number = some run)
    (phase : run.phase = .calling scope fault) (free : s.isDeferring number = false)
    (again : (r.answer streaks (s.consultation run fault draw)).2 = .again streak delay) :
    s.handTo number index draw =
      some (((s.withStreaks index (r.answer streaks (s.consultation run fault draw)).1).record
        (.restartingAfter run.task.id streak delay)).submitAfter run.task number delay) := by
  have computed : ∀ error,
      (r.answer streaks (s.consultation run fault draw)).2 ≠ .overflow error := by simp [again]
  rw [handTo_enacts found kept known phase computed, again, if_neg (by simp [free])]
  rfl

/-- A restart of the task on behalf of a run is made at once. -/
def RestartsAtOnce (s t : Supervisor) (number : Nat) (task : Task) : Prop :=
  ∃ streaks journal, t = ({ s with streaks, journal } : Supervisor).submit task (some number)

/-- A restart of the task on behalf of a run waits for some milliseconds, as soon as the callback
has set the timer; nothing else is done about it now. -/
def RestartsLater (s t : Supervisor) (number : Nat) (task : Task) (ms : Nat) : Prop :=
  let delay : Delay := { task, origin := number, due := s.now + ms }
  0 < ms ∧ (∃ streaks journal, t = { s with streaks, journal, delays := s.delays ++ [delay] }) ∧
    t.arm s.delays.length =
      some { t with delays := s.delays ++ [{ delay with state := .pending }] }

/-- The callback sets the timer of the delay that came last. -/
theorem arm_append (s : Supervisor) {delay : Delay} (decided : delay.state = .decided) :
    ({ s with delays := s.delays ++ [delay] } : Supervisor).arm s.delays.length =
      some { s with delays := s.delays ++ [{ delay with state := .pending }] } := by
  simp [arm, setDelay, decided, List.modify_eq_set_getElem?]

/-- What becomes of a delay of at least a millisecond, and of a restart that it is for. -/
structure Throttles (delay : Duration) : Prop where
  le : ∀ draw, Jitter.equal.apply draw delay ≤ delay
  /-- Half of the delay is kept for certain if and only if it is an even number of milliseconds, and
  the number is a word. -/
  half_iff : (∀ draw, delay.nanos ≤ 2 * (Jitter.equal.apply draw delay).nanos) ↔
    delay.nanos % 2000000 = 0 ∧ delay.wholeMillis < 2 ^ 64
  /-- Otherwise hardly more is lost, as long as the number is a word. -/
  nearly : delay.wholeMillis < 2 ^ 64 → ∀ draw,
    delay.nanos < 2 * (Jitter.equal.apply draw delay).nanos + 2000000
  /-- Nothing is left of a delay below two milliseconds, and something of any other. -/
  zero_iff : ∀ draw, Jitter.equal.apply draw delay = .zero ↔ delay.wholeMillis = 1
  /-- A restarter with such a backoff waits before a restart, unless nothing is left of the delay;
  then the restart is made at once. -/
  restart : ∀ {s : Supervisor} {index number draw : Nat} {r : Restarter} {b : Backoff}
    {streaks : Streaks} {run : Run} {scope : Scope} {fault : Option Fault} {streak : Nat}
    {varied : Duration}, s.setup.restarters[index]? = some r → s.streaks[index]? = some streaks →
      s.run? number = some run → run.phase = .calling scope fault →
      s.isDeferring number = false → r.backoff = some b → b.jitter = .equal →
      b.base streak = .ok delay →
      (r.answer streaks (s.consultation run fault draw)).2 = .again streak varied →
        ∃ t, s.handTo number index draw = some t ∧
          if delay.wholeMillis = 1 then RestartsAtOnce s t number run.task
          else RestartsLater s t number run.task (Jitter.halved draw delay)

theorem throttles {delay : Duration} (some : 0 < delay.wholeMillis) : Throttles delay where
  le draw := Jitter.apply_le .equal draw delay
  half_iff := Jitter.keepsHalf_iff some
  nearly word := Jitter.nanos_lt_equal word some
  zero_iff := Jitter.equal_eq_zero_iff some
  restart := by
    intro s index number draw r b streaks run scope fault streak varied found kept known phase
      free backoff jitter base again
    have varied_eq : varied = Jitter.equal.apply draw delay := by
      have computed := Restarter.delay?_of_again again
      rw [Restarter.delay?, backoff] at computed
      change b.next streak draw = .ok varied at computed
      rw [Backoff.next, base, jitter] at computed
      exact (Except.ok.inj computed).symm
    refine ⟨_, handTo_again found kept known phase free again, ?_⟩
    have zero_iff := Jitter.equal_eq_zero_iff some draw
    rw [← varied_eq] at zero_iff
    unfold submitAfter
    by_cases one : delay.wholeMillis = 1
    · rw [if_pos one, if_pos (zero_iff.mpr one)]
      exact ⟨_, _, rfl⟩
    · have halved : varied = .ofMillis (Jitter.halved draw delay) :=
        varied_eq.trans (Jitter.apply_equal some draw)
      have word := delay.cappedMillis_lt
      have waits : 0 < Jitter.halved draw delay ∧ Jitter.halved draw delay < 2 ^ 64 := by
        unfold Jitter.halved Duration.cappedMillis
        omega
      rw [if_neg one, if_neg (mt zero_iff.mp one), halved, Duration.timerMillis_ofMillis waits.2]
      exact ⟨waits.1, ⟨_, _, rfl⟩, arm_append _ rfl⟩

/-- A restarter with a constant delay of some milliseconds and equal jitter. -/
def throttled (ms : Nat) : Setup :=
  { restarters := [{ backoff := some { Backoff.constant (.ofMillis ms) with jitter := .equal } }] }

/-- A task with a restarter fails, and its callback is called. -/
def failure : List Move :=
  [.start,
    .submit { id := "watch", work := some {}, onFinish := some { actions := [.restarter 0] } },
    .progress (.begin 1), .finish 1 (.returns (some (.failed "down"))), .progress (.release 1),
    .progress (.report 1), .progress (.call 1)]

/-- A restart with a delay of three milliseconds waits for one or two, though that is less than half
of three. -/
theorem throttles_of_threeMillis :
    ∃ s t, (create (throttled 3)).applyAll failure = some s ∧ s.handTo 1 0 0 = some t ∧
      t.runs.length = 1 ∧ t.delays.map (·.due) = [1] ∧ 0 < (Duration.ofMillis 3).wholeMillis ∧
      Throttles (.ofMillis 3) := by
  have facts : ((create (throttled 3)).applyAll failure).any (fun s =>
      (s.handTo 1 0 0).any fun t => t.runs.length = 1 ∧ t.delays.map (·.due) = [1]) = true := by
    decide +kernel
  obtain ⟨s, ran, facts⟩ := (Option.any_eq_true _ _).mp facts
  obtain ⟨t, handed, facts⟩ := (Option.any_eq_true _ _).mp facts
  obtain ⟨runs, delays⟩ := of_decide_eq_true facts
  exact ⟨s, t, ran, handed, runs, delays, by decide, throttles (by decide)⟩

/-- A delay of one millisecond is halved to nothing, whatever is drawn: the task is launched again
at once. -/
theorem halved_to_nothing :
    ∃ s t, (create (throttled 1)).applyAll failure = some s ∧ s.handTo 1 0 0 = some t ∧
      (Backoff.constant (.ofMillis 1)).base 0 = .ok (.ofMillis 1) ∧
      (∀ draw, Jitter.equal.apply draw (.ofMillis 1) = .zero) ∧
      s.now = 0 ∧ t.now = 0 ∧ s.runs.length = 1 ∧ t.runs.length = 2 ∧ t.delays = [] := by
  have facts : ((create (throttled 1)).applyAll failure).any (fun s =>
      (s.handTo 1 0 0).any fun t => s.now = 0 ∧ t.now = 0 ∧ s.runs.length = 1 ∧
        t.runs.length = 2 ∧ t.delays = []) = true := by
    decide +kernel
  obtain ⟨s, ran, facts⟩ := (Option.any_eq_true _ _).mp facts
  obtain ⟨t, handed, facts⟩ := (Option.any_eq_true _ _).mp facts
  have base : (Backoff.constant (.ofMillis 1)).base 0 = .ok (.ofMillis 1) := by decide +kernel
  exact ⟨s, t, ran, handed, base,
    fun draw => (Jitter.equal_eq_zero_iff (by decide) draw).mpr (by decide),
    of_decide_eq_true facts⟩

end Supervisor

end Supervision
