import Mathlib.Algebra.GroupWithZero.Nat
import Supervision.Proofs.Standings

/-!
# Requests for a restart

A finish callback restarts its task in one of several ways: at once, by a policy alone, or through a
restarter, which counts and may put the restart off. A restart by a policy alone is what a restarter
without a backoff and without a budget asks for.

Results:
1. `delay?_of_isSteady`: without jitter the delay before a restart depends on its number only.
2. `judge_cases`: what is decided about an outcome that counts.
3. `request_of_ask`: what a request does to the standing of an id, whichever action makes it.
-/

namespace Supervision

/-- The rule by which an action restarts the task of a run, if it does. -/
def Action.rule? (restarters : List Restarter) : Action → Option Restarter
  | .restart => some { policy := .always }
  | .restartOnError => some { policy := .onError }
  | .restartOnSuccess => some { policy := .onSuccess }
  | .restarter index => restarters[index]?
  | _ => none

/-- The restarter of an action, if there is one, has counted so many restarts. -/
def Action.HasCounted (counts : List Nat) (k : Nat) : Action → Prop
  | .restarter index => counts[index]? = some (min k (2 ^ 32 - 1))
  | _ => True

namespace Restarter

/-- Does the budget allow the restart with this number, counted from zero? -/
def Allows (rule : Restarter) (k : Nat) : Prop := ∀ max, rule.budget = some max → k < max

/-- Do the delays not hang on chance? -/
def IsSteady (rule : Restarter) : Prop :=
  ∀ backoff, rule.backoff = some backoff → backoff.jitter = .none

/-- The delay before the restart with this number; the count stops at the largest one. -/
def delayBefore? (rule : Restarter) (k : Nat) : Except Backoff.Overflow Duration :=
  rule.delay? (min k (2 ^ 32 - 1)) 0

theorem delay?_of_isSteady {rule : Restarter} (steady : rule.IsSteady) (streak draw : Nat) :
    rule.delay? streak draw = rule.delay? streak 0 := by
  unfold delay?
  split
  · rfl
  · next backoff found =>
      have same : backoff.jitter.apply draw = backoff.jitter.apply 0 := by
        rw [steady backoff found]
        rfl
      rw [Backoff.next, Backoff.next, same]

/-- If a constant delay can be computed at all, so it can before every restart. -/
theorem computes_of_constant {rule : Restarter} {delay : Duration}
    (backoff : rule.backoff = some (.constant delay))
    (first : (Backoff.constant delay).base 0 = .ok delay) : rule.Computes := by
  intro streak _ draw
  refine ⟨delay, ?_⟩
  rw [delay?, backoff]
  dsimp only
  rw [Backoff.next_constant, Backoff.next, first, Except.map, Backoff.constant, Jitter.apply]
  exact congrArg _ (ite_self _)

/-- A budget that is spent for the count is spent for the number of restarts. -/
theorem any_le_streak {rule : Restarter} (small : ∀ max, rule.budget = some max → max < 2 ^ 32)
    (k : Nat) : rule.budget.any (· ≤ min k (2 ^ 32 - 1)) = true ↔
      ∃ max, rule.budget = some max ∧ max ≤ k := by
  cases budget : rule.budget with
  | none => simp
  | some max =>
      have bound := small max budget
      simp only [Option.any_some, decide_eq_true_eq, Option.some.injEq, exists_eq_left']
      omega

/-- What is decided about an outcome that counts: the budget is spent, or the restart is made after
its delay. -/
theorem judge_cases {rule : Restarter} (computes : rule.Computes) (steady : rule.IsSteady)
    (small : ∀ max, rule.budget = some max → max < 2 ^ 32) (k draw : Nat) :
    ((∃ streak, rule.judge (min k (2 ^ 32 - 1)) draw = .exhausted streak) ∧
      ∃ max, rule.budget = some max ∧ max ≤ k) ∨
    ∃ streak delay, rule.judge (min k (2 ^ 32 - 1)) draw = .again streak delay ∧
      rule.Allows k ∧ rule.delayBefore? k = .ok delay := by
  have spent := any_le_streak small k
  unfold judge
  split
  · next exhausted => exact .inl ⟨⟨_, rfl⟩, spent.mp exhausted⟩
  · next left =>
      have allowed : rule.Allows k := by
        intro max budget
        by_contra more
        exact left (spent.mpr ⟨max, budget, Nat.le_of_not_lt more⟩)
      obtain ⟨delay, computed⟩ := computes (min k (2 ^ 32 - 1)) (by omega) draw
      rw [computed]
      exact .inr ⟨_, delay, rfl, allowed, (delay?_of_isSteady steady _ draw).symm.trans computed⟩

end Restarter

/-- The action restarts by the rule. The rule can compute the delay before every restart, chance has
no part in it, and the budget is a number of 32 bits. -/
structure Action.IsRuledBy (action : Action) (setup : Setup) (rule : Restarter) : Prop where
  known : action.rule? setup.restarters = some rule
  computes : rule.Computes
  steady : rule.IsSteady
  small : ∀ max, rule.budget = some max → max < 2 ^ 32

namespace Supervisor

variable {s t : Supervisor} {id : String} {n k : Nat} {r : Run} {scope : Scope}
  {fault : Option Fault} {rule : Restarter} {action : Action}

/-- What a request for restart number `k` on behalf of run `n`, which has ended with the fault, does
to the standing of the id of the run. -/
inductive Request (s : Supervisor) (id : String) (rule : Restarter) (action : Action) (k : Nat)
    (fault : Option Fault) (t : Supervisor) : Prop
  /-- The outcome calls for no restart, or the budget is spent. -/
  | declined
      (final : rule.policy.wants fault = false ∨ ∃ max, rule.budget = some max ∧ max ≤ k)
      (runs : t.runsOf id = s.runsOf id) (dues : t.duesOf id = s.duesOf id)
  | atOnce (wanted : rule.policy.wants fault = true) (allowed : rule.Allows k)
      (delay : rule.delayBefore? k = .ok .zero)
      (runs : t.runsOf id = s.runsOf id ++ [s.runs.length + 1])
      (dues : t.duesOf id = s.duesOf id)
      (counted : action.HasCounted (t.countsOf id) (k + 1))
      (told : ⟨s.now, .launched (s.runs.length + 1)⟩ ∈ t.journal)
  | later {delay : Duration} (wanted : rule.policy.wants fault = true)
      (allowed : rule.Allows k) (computed : rule.delayBefore? k = .ok delay)
      (runs : t.runsOf id = s.runsOf id)
      (dues : t.duesOf id = s.duesOf id ++ [s.now + delay.timerMillis])
      (counted : action.HasCounted (t.countsOf id) (k + 1))

/-- A restart by a policy alone. -/
theorem restart_request {policy : RestartPolicy} (started : s.stage = .started)
    (numbered : s.registry.numbered = s.runs.length) (found : s.run? n = some r)
    (phase : r.phase = .calling scope fault) (kept : s.tokenIsCancelled r = false)
    (uncounted : ∀ index, action ≠ .restarter index) (h : s.restart n policy = some t) :
    Request s r.task.id { policy := policy } action k fault t := by
  obtain ⟨q, its, ended, known, current, step⟩ := restart_cases h
  obtain rfl : q = r := Option.some.inj (known.symm.trans found)
  rw [phase, Phase.calling.injEq] at current
  obtain ⟨-, rfl⟩ := current
  cases step with
  | unwanted unwanted => exact .declined (.inl unwanted) rfl rfl
  | cancelled cancelled =>
      rw [kept] at cancelled
      cases cancelled
  | stopped stopped => simp [isStopped, started] at stopped
  | again wanted _ _ =>
      have after := standing_submit (s := s.record (.restarting q.task.id)) started q.task (some n)
        q.task.id
      rw [if_pos rfl] at after
      have counted : ∀ counts, action.HasCounted counts (k + 1) := by
        intro counts
        cases action with
        | restarter index => exact absurd rfl (uncounted index)
        | _ => trivial
      exact .atOnce wanted (fun _ none => by cases none) rfl (congrArg Standing.runs after)
        (congrArg Standing.dues after) (counted _)
        (mem_journal_submit (s := s.record (.restarting q.task.id)) started numbered _ _)

/-- A restarter has counted one more restart. -/
theorem hasCounted_bump {index : Nat} {streaks : Streaks} (found : s.streaks[index]? = some streaks)
    (count : streaks.get id = min k (2 ^ 32 - 1)) :
    (Action.restarter index).HasCounted ((s.withStreaks index (streaks.bump id)).countsOf id)
      (k + 1) := by
  have bound : index < s.streaks.length := (List.getElem?_eq_some_iff.mp found).1
  have more : (streaks.bump id).get id = min (k + 1) (2 ^ 32 - 1) := by
    rw [Streaks.get_bump, if_pos rfl, count]
    omega
  rw [Action.HasCounted, countsOf, withStreaks, List.getElem?_map, List.getElem?_set_self bound,
    Option.map_some, more]

/-- A restart that is made after its delay, once it has been counted. -/
theorem submitAfter_request {u : Supervisor} {delay : Duration} (started : u.stage = .started)
    (numbered : u.registry.numbered = u.runs.length) (now : u.now = s.now) (runs : u.runs = s.runs)
    (delays : u.delays = s.delays) (wanted : rule.policy.wants fault = true)
    (allowed : rule.Allows k) (computed : rule.delayBefore? k = .ok delay)
    (counted : action.HasCounted (u.countsOf r.task.id) (k + 1)) (n : Nat) :
    Request s r.task.id rule action k fault (u.submitAfter r.task n delay) := by
  have same : u.runsOf r.task.id = s.runsOf r.task.id := by rw [runsOf, runsOf, tasks, tasks, runs]
  have dues : u.duesOf r.task.id = s.duesOf r.task.id := by
    rw [duesOf, duesOf, pendingOf, pendingOf, delays]
  unfold submitAfter
  split
  · next zero =>
      have after := standing_submit started r.task (some n) r.task.id
      have told := mem_journal_submit started numbered r.task (some n)
      rw [if_pos rfl, same, runs] at after
      rw [now, runs] at told
      refine .atOnce wanted allowed (zero ▸ computed) (congrArg Standing.runs after)
        ((congrArg Standing.dues after).trans dues) ?_ told
      rw [show (u.submit r.task (some n)).countsOf r.task.id = u.countsOf r.task.id from
        congrArg Standing.counts after]
      exact counted
  · refine .later wanted allowed computed same ?_ counted
    rw [← dues, ← now]
    simp [duesOf, pendingOf, List.filter_append, DelayState.isOpen]

/-- A restart through a restarter. -/
theorem handTo_request {index draw : Nat}
    (ruled : (Action.restarter index).IsRuledBy s.setup rule) (started : s.stage = .started)
    (numbered : s.registry.numbered = s.runs.length) (found : s.run? n = some r)
    (phase : r.phase = .calling scope fault) (kept : s.tokenIsCancelled r = false)
    (counted : (Action.restarter index).HasCounted (s.countsOf r.task.id) k)
    (h : s.handTo n index draw = some t) :
    Request s r.task.id rule (.restarter index) k fault t := by
  obtain ⟨streaks, known, count⟩ : ∃ streaks, s.streaks[index]? = some streaks ∧
      streaks.get r.task.id = min k (2 ^ 32 - 1) := by
    rw [Action.HasCounted, countsOf, List.getElem?_map] at counted
    exact Option.map_eq_some_iff.mp counted
  unfold handTo at h
  rw [found] at h
  dsimp only at h
  rw [phase] at h
  dsimp only at h
  obtain ⟨-, h⟩ := Option.ite_none_left_eq_some.mp h
  rw [consult_answer ruled.known known] at h
  cases wanted : rule.policy.wants fault with
  | false =>
      rw [Restarter.answer_of_unwanted (c := s.consultation r fault draw) wanted] at h
      cases h
      exact .declined (.inl wanted) rfl rfl
  | true =>
      have counts : rule.counts (s.consultation r fault draw) = true := by
        simp [Restarter.counts, consultation, wanted, kept, Consultation.isTooLate, started]
      have id : (s.consultation r fault draw).id = r.task.id := rfl
      rw [Restarter.answer_of_counts counts, id, count] at h
      obtain ⟨⟨streak, judged⟩, spent⟩ | ⟨streak, delay, judged, allowed, computed⟩ :=
        Restarter.judge_cases ruled.computes ruled.steady ruled.small k
          (s.consultation r fault draw).draw
      · rw [judged] at h
        cases h
        exact .declined (.inr spent) rfl rfl
      · rw [judged] at h
        cases h
        let counting := (s.withStreaks index (streaks.bump r.task.id)).record
          (.restartingAfter r.task.id streak delay)
        have more : (Action.restarter index).HasCounted (counting.countsOf r.task.id) (k + 1) :=
          hasCounted_bump known count
        exact submitAfter_request (s := s) (u := counting) started numbered rfl rfl rfl wanted
          allowed computed more n

/-- A callback that asks for a restart does so on behalf of a run whose callback is at work. -/
theorem calling_of_ask {m : Move} (own : m.ask? = some (n, action)) (h : s.apply m = some t) :
    ∃ r scope fault, s.run? n = some r ∧ r.phase = .calling scope fault := by
  cases m with
  | restart number policy =>
      obtain ⟨r, scope, fault, found, phase, -⟩ := restart_cases h
      obtain rfl : number = n := by cases policy <;> cases own <;> rfl
      exact ⟨r, scope, fault, found, phase⟩
  | handTo number index draw =>
      obtain ⟨r, scope, fault, -, found, phase, -⟩ := handTo_cases h
      cases own
      exact ⟨r, scope, fault, found, phase⟩
  | _ => cases own

/-- What becomes of a request, whichever action makes it. -/
theorem request_of_ask {m : Move} (own : m.ask? = some (n, action))
    (ruled : action.IsRuledBy s.setup rule) (started : s.stage = .started)
    (numbered : s.registry.numbered = s.runs.length) (found : s.run? n = some r)
    (phase : r.phase = .calling scope fault) (kept : s.tokenIsCancelled r = false)
    (counted : action.HasCounted (s.countsOf r.task.id) k) (h : s.apply m = some t) :
    Request s r.task.id rule action k fault t := by
  cases m with
  | restart number policy =>
      have h : s.restart number policy = some t := h
      have known := ruled.known
      cases policy <;> cases own <;> cases known <;>
        exact restart_request started numbered found phase kept (fun _ => Action.noConfusion) h
  | handTo number index draw =>
      cases own
      exact handTo_request ruled started numbered found phase kept counted h
  | _ => cases own

end Supervisor

end Supervision
