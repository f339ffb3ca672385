import Mathlib.Data.List.DropRight
import Supervision.Proofs.Chains
import Supervision.Proofs.Histories
import Supervision.Proofs.Marks

/-!
# The decisions of a restarter

A restarter may be shared by any tasks, so it is told outcomes of many ids in any order. Still it
decides about an outcome of an id as if there were no other ids: the streak of the id is the number
of outcomes that counted since the last one that called for no restart. An outcome counts if it
calls for a restart and the restart is still possible, whether or not the budget allows it.

Results:
1. `get_streaksAfter`: the closed form of what a restarter remembers of an id.
2. `isAgain_iff`, `decisionAfter_again_iff`: when it asks for a restart, and with which delay.
3. `decisionAfter_own`: outcomes of other ids do not matter.
4. `countP_restarted_le`: no more restarts than the budget allows while every outcome of the id
   calls for one.
5. `heard_of_applyAll`: what the streaks of a supervisor are after any history.
6. `followsStreaks`: all of this together, and what comes of a decision.
-/

namespace Supervision

/-- What a finish callback tells a restarter. -/
structure Consultation where
  id : String
  fault : Option Fault
  /-- Is the token of the run cancelled? -/
  cancelled : Bool
  /-- The stage of the supervisor, if there still is one. -/
  stage : Option Stage
  /-- The draw for the jitter. -/
  draw : Nat
deriving DecidableEq, Repr

/-- Is there nobody left to submit a task to? -/
def Consultation.isTooLate (c : Consultation) : Bool := c.stage.all (· == .stopped)

def Decision.isAgain : Decision → Bool
  | .again _ _ => true
  | _ => false

/-- The powers of one are one. -/
theorem Binary64.power_one (n : Nat) : Binary64.one.power n = .one := by
  have square : Binary64.one.mul .one = .one := by decide +kernel
  suffices loop : ∀ bits n, powerLoop bits .one .one n = .one from loop _ n
  intro bits
  induction bits with
  | zero => exact fun _ => rfl
  | succ bits ih =>
      intro n
      rw [powerLoop, square, ite_self]
      split
      · rfl
      · exact ih _

/-- A constant backoff does not grow. -/
theorem Backoff.next_constant (delay : Duration) (restart draw : Nat) :
    (Backoff.constant delay).next restart draw = (Backoff.constant delay).next 0 draw := by
  have growth : ∀ n, (Backoff.constant delay).growth n = delay.toBinary64.mul .one := by
    intro n
    rw [Backoff.growth, Backoff.constant, Binary64.power_one]
  rw [Backoff.next, Backoff.base, growth, Backoff.next, Backoff.base, growth]

namespace Restarter

variable {r : Restarter} {told : List Consultation} {c : Consultation}

/-! ## One outcome after another -/

/-- The restarter decides about an outcome. -/
def answer (r : Restarter) (streaks : Streaks) (c : Consultation) : Streaks × Decision :=
  r.decide streaks c.id c.fault c.cancelled c.isTooLate c.draw

/-- The streaks after some outcomes, from the beginning on. -/
def streaksAfter (r : Restarter) (told : List Consultation) : Streaks :=
  told.foldl (fun streaks c => (r.answer streaks c).1) {}

/-- The decision about an outcome after some others. -/
def decisionAfter (r : Restarter) (told : List Consultation) (c : Consultation) : Decision :=
  (r.answer (r.streaksAfter told) c).2

/-- Of some more outcomes, those that the restarter answers with a restart. -/
def restarted (r : Restarter) (told : List Consultation) : List Consultation → List Consultation
  | [] => []
  | c :: rest =>
      (if (r.decisionAfter told c).isAgain then [c] else []) ++ r.restarted (told ++ [c]) rest

/-- Does an outcome count? -/
def counts (r : Restarter) (c : Consultation) : Bool :=
  r.policy.wants c.fault && !c.cancelled && !c.isTooLate

/-- How many outcomes of an id have counted since the last one that called for no restart. -/
def streak (r : Restarter) (told : List Consultation) (id : String) : Nat :=
  min (((told.filter (·.id == id)).rtakeWhile (r.policy.wants ·.fault)).countP r.counts)
    (2 ^ 32 - 1)

theorem streaksAfter_concat (told : List Consultation) (c : Consultation) :
    r.streaksAfter (told ++ [c]) = (r.answer (r.streaksAfter told) c).1 :=
  List.foldl_concat ..

/-! ## The closed form of the streaks -/

/-- An outcome of another id does not matter. -/
theorem streak_concat_of_ne {id : String} (other : c.id ≠ id) :
    r.streak (told ++ [c]) id = r.streak told id := by
  rw [streak, List.filter_append, List.filter_cons_of_neg (by simpa using other), List.filter_nil,
    List.append_nil, streak]

/-- An outcome that calls for no restart ends the streak. -/
theorem streak_concat_of_unwanted (unwanted : r.policy.wants c.fault = false) :
    r.streak (told ++ [c]) c.id = 0 := by
  rw [streak, List.filter_append, List.filter_cons_of_pos (by simp), List.filter_nil,
    List.rtakeWhile_concat_neg _ _ _ (by simp [unwanted]), List.countP_nil, Nat.zero_min]

/-- An outcome that calls for a restart makes the streak longer if it counts. -/
theorem streak_concat_of_wanted (wanted : r.policy.wants c.fault = true) :
    r.streak (told ++ [c]) c.id =
      min (r.streak told c.id + if r.counts c then 1 else 0) (2 ^ 32 - 1) := by
  rw [streak, List.filter_append, List.filter_cons_of_pos (by simp), List.filter_nil,
    List.rtakeWhile_concat_pos _ _ _ (by simpa using wanted), List.countP_append,
    List.countP_singleton, streak]
  omega

/-! ## Answers -/

/-- The delay before a restart, if it can be computed. -/
def delay? (r : Restarter) (streak draw : Nat) : Except Backoff.Overflow Duration :=
  match r.backoff with
  | none => .ok .zero
  | some backoff => backoff.next streak draw

/-- The decision about an outcome that counts. -/
def judge (r : Restarter) (streak draw : Nat) : Decision :=
  if r.budget.any (· ≤ streak) then .exhausted streak
  else match r.delay? streak draw with
    | .ok delay => .again streak delay
    | .error error => .overflow error

theorem answer_of_unwanted (unwanted : r.policy.wants c.fault = false) (streaks : Streaks) :
    r.answer streaks c = (streaks.clear c.id, .unwanted) := by
  rw [answer, decide, unwanted]
  rfl

/-- An outcome that calls for a restart, but comes too late for it, changes nothing. -/
theorem answer_of_idle (wanted : r.policy.wants c.fault = true) (idle : r.counts c = false) :
    ∃ decision : Decision, (decision = .cancelled ∨ decision = .stopped) ∧
      ∀ streaks, r.answer streaks c = (streaks, decision) := by
  unfold answer decide
  rw [wanted]
  cases cancelled : c.cancelled with
  | true => exact ⟨.cancelled, .inl rfl, fun _ => rfl⟩
  | false => cases late : c.isTooLate with
    | true => exact ⟨.stopped, .inr rfl, fun _ => rfl⟩
    | false => simp [counts, wanted, cancelled, late] at idle

/-- An outcome that counts makes the streak longer, whatever is decided. -/
theorem answer_of_counts (counted : r.counts c = true) (streaks : Streaks) :
    r.answer streaks c = (streaks.bump c.id, r.judge (streaks.get c.id) c.draw) := by
  rw [counts, Bool.and_eq_true, Bool.and_eq_true, Bool.not_eq_true', Bool.not_eq_true'] at counted
  obtain ⟨⟨wanted, kept⟩, intime⟩ := counted
  rw [answer, decide, wanted, kept, intime, judge, delay?]
  simp only [Bool.not_true, Bool.false_eq_true, if_false]
  split
  · rfl
  · cases r.backoff with
    | none => rfl
    | some backoff =>
        dsimp only
        cases backoff.next (streaks.get c.id) c.draw <;> rfl

theorem judge_again_iff {k draw streak : Nat} {delay : Duration} :
    r.judge k draw = .again streak delay ↔
      streak = k ∧ r.budget.any (· ≤ k) = false ∧ r.delay? k draw = .ok delay := by
  unfold judge
  cases r.budget.any (· ≤ k) with
  | true => simp
  | false =>
      cases r.delay? k draw with
      | ok delay => simp [eq_comm]
      | error error => simp

/-! ## The closed form of the streaks -/

/-- What a restarter remembers of an id is the streak of the id. -/
theorem get_streaksAfter (told : List Consultation) (id : String) :
    (r.streaksAfter told).get id = r.streak told id := by
  induction told using List.reverseRecOn generalizing id with
  | nil => rfl
  | append_singleton told c ih =>
      rw [streaksAfter_concat]
      by_cases own : c.id = id
      · subst own
        cases wanted : r.policy.wants c.fault with
        | false =>
            rw [answer_of_unwanted wanted, Streaks.get_clear, if_pos rfl,
              streak_concat_of_unwanted wanted]
        | true =>
            rw [streak_concat_of_wanted wanted]
            cases counted : r.counts c with
            | true => rw [answer_of_counts counted, Streaks.get_bump, if_pos rfl, ih, if_pos rfl]
            | false =>
                have capped : r.streak told c.id ≤ 2 ^ 32 - 1 := Nat.min_le_right ..
                obtain ⟨decision, -, idle⟩ := answer_of_idle wanted counted
                rw [idle, ih, if_neg (by simp), Nat.add_zero, Nat.min_eq_left capped]
      · rw [streak_concat_of_ne own, ← ih id]
        cases wanted : r.policy.wants c.fault with
        | false => rw [answer_of_unwanted wanted, Streaks.get_clear, if_neg (Ne.symm own)]
        | true => cases counted : r.counts c with
          | true => rw [answer_of_counts counted, Streaks.get_bump, if_neg (Ne.symm own)]
          | false =>
              obtain ⟨decision, -, idle⟩ := answer_of_idle wanted counted
              rw [idle]

/-! ## Decisions -/

/-- When a restart is asked for, and how it is made. -/
theorem decisionAfter_again_iff {streak : Nat} {delay : Duration} :
    r.decisionAfter told c = .again streak delay ↔
      r.counts c = true ∧ streak = r.streak told c.id ∧
        r.budget.any (· ≤ r.streak told c.id) = false ∧
        r.delay? (r.streak told c.id) c.draw = .ok delay := by
  rw [decisionAfter]
  cases wanted : r.policy.wants c.fault with
  | false => simp [answer_of_unwanted wanted, counts, wanted]
  | true => cases counted : r.counts c with
    | true => simp [answer_of_counts counted, get_streaksAfter, judge_again_iff]
    | false =>
        obtain ⟨decision, rfl | rfl, idle⟩ := answer_of_idle wanted counted <;> simp [idle]

/-- Outcomes of other ids have no influence. -/
theorem streak_own (told : List Consultation) (id : String) :
    r.streak (told.filter (·.id == id)) id = r.streak told id := by
  rw [streak, List.filter_filter, streak]
  simp only [Bool.and_self]

theorem decisionAfter_own (told : List Consultation) (c : Consultation) :
    r.decisionAfter (told.filter (·.id == c.id)) c = r.decisionAfter told c := by
  have same : (r.streaksAfter (told.filter (·.id == c.id))).get c.id =
      (r.streaksAfter told).get c.id := by
    rw [get_streaksAfter, get_streaksAfter, streak_own]
  rw [decisionAfter, decisionAfter]
  cases wanted : r.policy.wants c.fault with
  | false => rw [answer_of_unwanted wanted, answer_of_unwanted wanted]
  | true => cases counted : r.counts c with
    | true => rw [answer_of_counts counted, answer_of_counts counted, same]
    | false =>
        obtain ⟨decision, -, idle⟩ := answer_of_idle wanted counted
        rw [idle, idle]

/-- Can the delay before every restart be computed? -/
def Computes (r : Restarter) : Prop :=
  ∀ streak < 2 ^ 32, ∀ draw, ∃ delay, r.delay? streak draw = .ok delay

theorem streak_lt (told : List Consultation) (id : String) : r.streak told id < 2 ^ 32 := by
  have capped : r.streak told id ≤ 2 ^ 32 - 1 := Nat.min_le_right ..
  omega

/-- A restart is asked for if and only if the outcome counts and the budget allows one more. -/
theorem isAgain_iff (computes : r.Computes) :
    (r.decisionAfter told c).isAgain = true ↔
      r.counts c = true ∧ ∀ max, r.budget = some max → r.streak told c.id < max := by
  have allows : r.budget.any (· ≤ r.streak told c.id) = false ↔
      ∀ max, r.budget = some max → r.streak told c.id < max := by
    cases r.budget <;> simp
  rw [← allows]
  constructor
  · intro again
    cases decided : r.decisionAfter told c with
    | again streak delay =>
        obtain ⟨counted, -, allowed, -⟩ := decisionAfter_again_iff.mp decided
        exact ⟨counted, allowed⟩
    | _ =>
        rw [decided] at again
        cases again
  · rintro ⟨counted, allowed⟩
    obtain ⟨delay, computed⟩ := computes _ (streak_lt told c.id) c.draw
    rw [decisionAfter_again_iff.mpr ⟨counted, rfl, allowed, computed⟩]
    rfl

/-- A restarter that computes its delays does not panic. -/
theorem decisionAfter_ne_overflow (computes : r.Computes) (error : Backoff.Overflow) :
    r.decisionAfter told c ≠ .overflow error := by
  rw [decisionAfter]
  cases wanted : r.policy.wants c.fault with
  | false =>
      rw [answer_of_unwanted wanted]
      exact Decision.noConfusion
  | true => cases counted : r.counts c with
    | true =>
        obtain ⟨delay, computed⟩ := computes _ (streak_lt told c.id) c.draw
        rw [answer_of_counts counted, get_streaksAfter, judge, computed]
        split <;> exact Decision.noConfusion
    | false =>
        obtain ⟨decision, rfl | rfl, idle⟩ := answer_of_idle wanted counted <;> simp [idle]

/-! ## The budget -/

/-- A restart makes the streak of its id longer. -/
theorem streak_of_isAgain {max : Nat} (budget : r.budget = some max) (small : max < 2 ^ 32)
    (again : (r.decisionAfter told c).isAgain = true) :
    r.streak (told ++ [c]) c.id = r.streak told c.id + 1 ∧ r.streak told c.id < max := by
  cases decided : r.decisionAfter told c with
  | again streak delay =>
      obtain ⟨counted, -, allowed, -⟩ := decisionAfter_again_iff.mp decided
      have below : r.streak told c.id < max := by simpa [budget] using allowed
      have wanted : r.policy.wants c.fault = true := by
        rw [counts, Bool.and_eq_true, Bool.and_eq_true] at counted
        exact counted.1.1
      rw [streak_concat_of_wanted wanted, if_pos counted]
      omega
  | _ =>
      rw [decided] at again
      cases again

/-- As long as every outcome of an id calls for a restart, its streak does not become shorter. -/
theorem streak_le_concat (told : List Consultation) {id : String}
    (wanted : c.id = id → r.policy.wants c.fault = true) :
    r.streak told id ≤ r.streak (told ++ [c]) id := by
  by_cases own : c.id = id
  · subst own
    have capped : r.streak told c.id ≤ 2 ^ 32 - 1 := Nat.min_le_right ..
    rw [streak_concat_of_wanted (wanted rfl)]
    omega
  · exact (streak_concat_of_ne own).ge

/-- While every outcome of an id calls for a restart, no more restarts of it are asked for than what
the streak leaves of the budget. -/
theorem countP_restarted_le {max : Nat} (budget : r.budget = some max) (small : max < 2 ^ 32)
    (id : String) (told stretch : List Consultation)
    (wanted : ∀ c ∈ stretch, c.id = id → r.policy.wants c.fault = true) :
    (r.restarted told stretch).countP (·.id == id) ≤ max - r.streak told id := by
  induction stretch generalizing told with
  | nil => exact Nat.zero_le _
  | cons c rest ih =>
      have later := ih (told ++ [c]) fun d member => wanted d (.tail c member)
      have longer := streak_le_concat told (wanted c (.head rest))
      rw [restarted, List.countP_append]
      split
      · next again =>
          rw [List.countP_singleton]
          by_cases own : c.id = id
          · subst own
            obtain ⟨longer, below⟩ := streak_of_isAgain budget small again
            rw [if_pos (by simp)]
            omega
          · rw [if_neg (by simpa using own)]
            omega
      · rw [List.countP_nil]
        omega

end Restarter

namespace Supervisor

variable {setup : Setup} {s t : Supervisor} {r : Restarter} {run : Run} {index : Nat}

/-! ## What callbacks tell -/

/-- What a callback tells a restarter about a run that has ended with the fault. -/
def consultation (s : Supervisor) (run : Run) (fault : Option Fault) (draw : Nat) : Consultation :=
  ⟨run.task.id, fault, s.tokenIsCancelled run, some s.stage, draw⟩

/-- What a move tells one of the restarters. -/
def consultations (index : Nat) (s : Supervisor) (m : Move) (_ : Supervisor) :
    List Consultation :=
  match m with
  | .handTo number i draw => match s.run? number with
    | some run => match run.phase with
      | .calling _ fault => if i = index then [s.consultation run fault draw] else []
      | _ => []
    | none => []
  | _ => []

/-- The state after a restarter has counted. -/
def withStreaks (s : Supervisor) (index : Nat) (streaks : Streaks) : Supervisor :=
  { s with streaks := s.streaks.set index streaks }

/-- A restarter that is consulted answers, and keeps the streaks. -/
theorem consult_answer {streaks : Streaks} (found : s.setup.restarters[index]? = some r)
    (kept : s.streaks[index]? = some streaks) (number : Nat) (run : Run) (fault : Option Fault)
    (draw : Nat) :
    s.consult number run fault index draw =
      (s.withStreaks index (r.answer streaks (s.consultation run fault draw)).1).enact number
        run.task (r.answer streaks (s.consultation run fault draw)).2 := by
  unfold consult
  rw [found, kept]
  rfl

theorem enact_streaks (s : Supervisor) (number : Nat) (task : Task) (decision : Decision) :
    (s.enact number task decision).1.streaks = s.streaks := by
  cases decision with
  | again streak delay =>
      simp only [enact, submitAfter]
      split
      · exact (submit_keeps ..).streaks
      · rfl
  | _ => rfl

/-- Only the restarter that is consulted counts. -/
theorem consult_streaks_of_ne {i : Nat} (other : i ≠ index) (number : Nat) (run : Run)
    (fault : Option Fault) (draw : Nat) :
    (s.consult number run fault i draw).1.streaks[index]? = s.streaks[index]? := by
  unfold consult
  split
  · rw [enact_streaks]
    exact List.getElem?_set_ne other
  · rfl

/-- The streaks of a restarter after some more outcomes. -/
theorem handTo_streaks {streaks : Streaks} {number i draw : Nat}
    (found : s.setup.restarters[index]? = some r) (kept : s.streaks[index]? = some streaks)
    (h : s.handTo number i draw = some t) :
    t.streaks[index]? = some ((consultations index s (.handTo number i draw) t).foldl
      (fun streaks c => (r.answer streaks c).1) streaks) := by
  unfold handTo at h
  split at h
  · next run known =>
      split at h
      · next scope fault phase =>
          have answered : (s.consult number run fault i draw).1.streaks[index]? =
              some ((consultations index s (.handTo number i draw) t).foldl
                (fun streaks c => (r.answer streaks c).1) streaks) := by
            simp only [consultations, known, phase]
            split
            · next own =>
                subst own
                have within : i < s.streaks.length := (List.getElem?_eq_some_iff.mp kept).1
                rw [consult_answer found kept, enact_streaks]
                exact List.getElem?_set_self within
            · next other => exact (consult_streaks_of_ne other ..).trans kept
          split at h
          · cases h
          · split at h
            · next u consulted =>
                cases h
                rwa [consulted] at answered
            · next u payload consulted =>
                rw [consulted] at answered
                rwa [(leave_steps h).keeps.streaks]
      · cases h
  · cases h

theorem start_streaks (h : s.start = .ok t) : t.streaks = s.streaks := by
  unfold start at h
  split at h <;> cases h
  · rfl
  · exact (launches_keep ..).streaks

theorem fire_streaks {i : Nat} (h : s.fire i = some t) : t.streaks = s.streaks := by
  obtain ⟨d, -, -, -, rfl⟩ := fire_eq h
  exact (submit_keeps ..).streaks

/-- A move that tells no restarter anything keeps all streaks. -/
theorem apply_streaks_of_silent {m : Move} (silent : ∀ number i draw, m ≠ .handTo number i draw)
    (h : s.apply m = some t) : t.streaks = s.streaks := by
  cases compound : m.isCompound with
  | false => exact (apply_simple compound h).2.2.2
  | true => cases m with
    | submit task =>
        cases h
        exact (submit_keeps ..).streaks
    | start =>
        cases started : s.start with
        | ok u =>
            simp only [apply, started, Option.some.injEq] at h
            exact h ▸ start_streaks started
        | error e =>
            simp only [apply, started, Option.some.injEq] at h
            exact h ▸ rfl
    | restart => exact (restart_keeps h).streaks
    | handTo number i draw => exact absurd rfl (silent number i draw)
    | progress p => cases p with
      | fire => exact fire_streaks h
      | _ => cases compound
    | _ => cases compound

/-- The streaks of a restarter after one more move. -/
theorem apply_streaks {m : Move} {streaks : Streaks}
    (found : s.setup.restarters[index]? = some r) (kept : s.streaks[index]? = some streaks)
    (h : s.apply m = some t) :
    t.streaks[index]? = some ((consultations index s m t).foldl
      (fun streaks c => (r.answer streaks c).1) streaks) := by
  cases m with
  | handTo number i draw => exact handTo_streaks found kept h
  | _ =>
      rw [apply_streaks_of_silent (fun _ _ _ => Move.noConfusion) h]
      exact kept

/-- After any history a restarter remembers what it was told in the course of it. -/
theorem heard_of_applyAll {moves : List Move} (found : setup.restarters[index]? = some r)
    (h : (create setup).applyAll moves = some s) :
    s.streaks[index]? =
      some (r.streaksAfter (trace (consultations index) (create setup) moves)) := by
  refine trace_invariant (consultations index)
    (P := fun u told => u.streaks[index]? = some (r.streaksAfter told)) h ?_ ?_
  · show (setup.restarters.map fun _ => ({} : Streaks))[index]? = some {}
    rw [List.getElem?_map, found, Option.map_some]
  · intro u v m told leads kept applied
    have known : u.setup.restarters[index]? = some r := by
      rwa [(Reachable.init.leads leads).attained.setup_eq]
    rw [apply_streaks known kept applied, Restarter.streaksAfter, Restarter.streaksAfter,
      List.foldl_append]

/-- The callback goes on with the decision, unless the delay cannot be computed. It does so when the
timer of the decision before is set. -/
theorem handTo_enacts {streaks : Streaks} {number : Nat} {scope : Scope} {fault : Option Fault}
    {draw : Nat} (found : s.setup.restarters[index]? = some r)
    (kept : s.streaks[index]? = some streaks) (known : s.run? number = some run)
    (phase : run.phase = .calling scope fault)
    (computed : ∀ error, (r.answer streaks (s.consultation run fault draw)).2 ≠ .overflow error) :
    s.handTo number index draw = if s.isDeferring number then none else
      some ((s.withStreaks index (r.answer streaks (s.consultation run fault draw)).1).enact number
        run.task (r.answer streaks (s.consultation run fault draw)).2).1 := by
  unfold handTo
  rw [known]
  dsimp only
  rw [phase]
  dsimp only
  rw [consult_answer found kept]
  congr 1
  cases decided : (r.answer streaks (s.consultation run fault draw)).2 with
  | overflow error => exact absurd decided (computed error)
  | _ => rfl

/-- The callback goes on with what the restarter has decided. -/
theorem handTo_answer {told : List Consultation} {number : Nat} {scope : Scope}
    {fault : Option Fault} {draw : Nat} (found : s.setup.restarters[index]? = some r)
    (kept : s.streaks[index]? = some (r.streaksAfter told)) (known : s.run? number = some run)
    (phase : run.phase = .calling scope fault) (computes : r.Computes) :
    s.handTo number index draw = if s.isDeferring number then none else
      some ((s.withStreaks index (r.streaksAfter (told ++ [s.consultation run fault draw]))).enact
        number run.task (r.decisionAfter told (s.consultation run fault draw))).1 := by
  rw [Restarter.streaksAfter_concat]
  exact handTo_enacts found kept known phase (Restarter.decisionAfter_ne_overflow computes)

/-- A restarter decides about every outcome by the streak of the id, and the supervisor carries the
decision out. -/
structure FollowsStreaks (r : Restarter) : Prop where
  /-- A restart is asked for if and only if the outcome counts and the budget allows one more. -/
  asks : ∀ {told c}, (r.decisionAfter told c).isAgain = true ↔
    r.counts c = true ∧ ∀ max, r.budget = some max → r.streak told c.id < max
  /-- The delay is that of the backoff for the streak, or zero without a backoff. -/
  delays : ∀ {told c streak delay}, r.decisionAfter told c = .again streak delay →
    streak = r.streak told c.id ∧ r.delay? streak c.draw = .ok delay
  /-- As long as every outcome of an id calls for a restart, there are no more than the budget
  allows. -/
  bounded : ∀ {told stretch id max}, r.budget = some max → max < 2 ^ 32 →
    (∀ c ∈ stretch, c.id = id → r.policy.wants c.fault = true) →
      (r.restarted told stretch).countP (·.id == id) ≤ max
  /-- Only what was told about the same id matters. -/
  own : ∀ {told c}, r.decisionAfter (told.filter (·.id == c.id)) c = r.decisionAfter told c
  /-- The restarter remembers what the callbacks have told it, whatever else has happened. -/
  heard : ∀ {setup index moves s}, setup.restarters[index]? = some r →
    (create setup).applyAll moves = some s →
      s.streaks[index]? =
        some (r.streaksAfter (trace (consultations index) (create setup) moves))
  /-- A restart is made as it was decided, once the timer of the decision before is set. -/
  again : ∀ {s : Supervisor} {index number draw told run scope fault streak delay},
    s.setup.restarters[index]? = some r → s.streaks[index]? = some (r.streaksAfter told) →
    s.run? number = some run → run.phase = .calling scope fault →
    r.decisionAfter told (s.consultation run fault draw) = .again streak delay →
      s.handTo number index draw = if s.isDeferring number then none else
        some (((s.withStreaks index
          (r.streaksAfter (told ++ [s.consultation run fault draw]))).record
            (.restartingAfter run.task.id streak delay)).submitAfter run.task number delay)
  /-- Without a restart nothing is submitted: only the streaks and the journal change. -/
  rests : ∀ {s : Supervisor} {index number draw told run scope fault},
    s.setup.restarters[index]? = some r → s.streaks[index]? = some (r.streaksAfter told) →
    s.run? number = some run → run.phase = .calling scope fault →
    (r.decisionAfter told (s.consultation run fault draw)).isAgain = false →
      ∃ streaks journal, s.handTo number index draw =
        if s.isDeferring number then none else some { s with streaks, journal }

theorem followsStreaks (computes : r.Computes) : FollowsStreaks r where
  asks := Restarter.isAgain_iff computes
  delays := fun decided => by
    obtain ⟨-, same, -, computed⟩ := Restarter.decisionAfter_again_iff.mp decided
    exact ⟨same, same ▸ computed⟩
  bounded := fun budget small wanted =>
    (Restarter.countP_restarted_le budget small _ _ _ wanted).trans (Nat.sub_le ..)
  own := Restarter.decisionAfter_own ..
  heard := heard_of_applyAll
  again := fun found kept known phase decided => by
    rw [handTo_answer found kept known phase computes, decided]
    rfl
  rests := fun {s index number draw told run scope fault} found kept known phase decided => by
    rw [handTo_answer found kept known phase computes]
    cases decision : r.decisionAfter told (s.consultation run fault draw) with
    | again streak delay =>
        rw [decision] at decided
        cases decided
    | _ => exact ⟨_, _, rfl⟩

/-- A restarter with a budget and a delay of ten seconds decides so. -/
theorem followsStreaks_of_tenSeconds :
    ∃ r : Restarter, r = { budget := some 2, backoff := some (.constant (.ofSeconds 10)) } ∧
      r.Computes ∧ FollowsStreaks r := by
  have computes : Restarter.Computes
      { budget := some 2, backoff := some (.constant (.ofSeconds 10)) } := by
    intro streak small draw
    refine ⟨.ofSeconds 10, ?_⟩
    have first : (Backoff.constant (.ofSeconds 10)).base 0 = .ok (.ofSeconds 10) := by
      decide +kernel
    show (Backoff.constant (.ofSeconds 10)).next streak draw = .ok (.ofSeconds 10)
    rw [Backoff.next_constant, Backoff.next, first]
    rfl
  exact ⟨_, rfl, computes, followsStreaks computes⟩

/-- Two failures of one id are answered with a restart, but not the third, unless a success comes
in between. Failures of another id do not matter. -/
example :
    let failure (id : String) : Consultation := ⟨id, some .canceled, false, some .started, 0⟩
    let success (id : String) : Consultation := ⟨id, none, false, some .started, 0⟩
    (Restarter.restarted { budget := some 2 } []
      [failure "a", failure "b", failure "a", failure "a", success "a", failure "a"]).map (·.id) =
        ["a", "b", "a", "a"] := by
  decide

end Supervisor

end Supervision
