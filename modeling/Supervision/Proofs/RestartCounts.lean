import Mathlib.Order.Bounds.Basic
import Supervision.Proofs.Requests

/-!
# How often a task is run

A task whose callback restarts it is run again and again until the rule of the callback wants no
more. If nothing else is done about its id, the results of the runs decide how often that is: up to
the first one that calls for no restart, and no more often than the budget allows. Run after run
begins at the time at which the one before has ended, or after the delay that the rule computes for
the number of the restart.

Results:
1. `Headway.apply`: how far the runs of an id have come is kept up by every move.
2. `headway_of_applyAll`: how far they have come after any history.
3. `restartCounts`: how many runs there are once nothing moves any more, and when they came.
-/

namespace Supervision

/-- The relation holds for any two neighbours in the list, and the place of the first one. -/
def Consecutive {α : Type} (L : Nat → α → α → Prop) (list : List α) : Prop :=
  ∀ k a b, list[k]? = some a → list[k + 1]? = some b → L k a b

namespace Consecutive

variable {α : Type} {L L' : Nat → α → α → Prop} {list : List α} {a b : α}

theorem nil : Consecutive L [] := fun _ _ _ found => by cases found

theorem singleton (a : α) : Consecutive L [a] := fun _ _ _ _ found => by cases found

theorem imp (h : Consecutive L list) (weaker : ∀ k a b, L k a b → L' k a b) :
    Consecutive L' list := fun k a b first second => weaker k a b (h k a b first second)

/-- One more element has the last one as its neighbour. -/
theorem concat (h : Consecutive L (list ++ [a])) (last : L list.length a b) :
    Consecutive L (list ++ [a] ++ [b]) := by
  intro k c d first second
  have bound : k + 1 < (list ++ [a] ++ [b]).length := (List.getElem?_eq_some_iff.mp second).1
  simp only [List.length_append, List.length_singleton] at bound
  rw [List.getElem?_append_left (by simp; omega)] at first
  by_cases inside : k + 1 < list.length + 1
  · rw [List.getElem?_append_left (by simpa using inside)] at second
    exact h k c d first second
  · obtain rfl : k = list.length := by omega
    rw [List.getElem?_concat_length, Option.some.injEq] at first
    rw [List.getElem?_append_right (by simp), List.length_append, List.length_singleton,
      Nat.sub_self, List.getElem?_cons_zero, Option.some.injEq] at second
    subst first second
    exact last

/-- An element that is not related to a next one is the last one. -/
theorem eq_last (h : Consecutive L (list ++ [a])) (member : b ∈ list ++ [a])
    (none : ∀ k c, ¬ L k b c) : b = a := by
  obtain ⟨k, found⟩ := List.mem_iff_getElem?.mp member
  have bound := (List.getElem?_eq_some_iff.mp found).1
  simp only [List.length_append, List.length_singleton] at bound
  by_cases inside : k + 1 < list.length + 1
  · have next : k + 1 < (list ++ [a]).length := by simpa using inside
    exact absurd (h k b _ found (List.getElem?_eq_getElem next)) (none k _)
  · obtain rfl : k = list.length := by omega
    rw [List.getElem?_concat_length, Option.some.injEq] at found
    exact found.symm

end Consecutive

/-- Of the tasks that wait for the start one has the id, if any of those submitted had it. -/
theorem length_numbersOf_survivors (id : String) (tasks : List Task) :
    (numbersOf id (survivors tasks)).length = if id ∈ tasks.map (·.id) then 1 else 0 := by
  have once := (nodup_survivors tasks).count (a := id)
  rw [List.count_eq_countP, List.countP_map, List.countP_eq_length_filter] at once
  simp only [mem_survivors_ids] at once
  exact (length_numbersOf id (survivors tasks)).trans once

namespace Supervisor

variable {setup : Setup} {s t : Supervisor} {moves done : List Move} {m : Move} {task : Task}
  {action : Action} {rule : Restarter} {k n n' : Nat} {finish : Nat} {delay : Duration}

/-! ## A task on its own -/

/-- The tasks with an id that some moves submit from outside. -/
def submissionsOf (moves : List Move) (id : String) : List Task :=
  (moves.filterMap Move.submitted?).filter (·.id == id)

theorem submissionsOf_concat (moves : List Move) (m : Move) (id : String) :
    submissionsOf (moves ++ [m]) id =
      submissionsOf moves id ++ m.submitted?.toList.filter (·.id == id) := by
  cases submitted : m.submitted? <;>
    simp [submissionsOf, List.filterMap_append, submitted]

theorem submissionsOf_of_unsubmitted {id : String}
    (unsubmitted : ∀ task, m.submitted? = some task → task.id ≠ id) :
    submissionsOf (done ++ [m]) id = submissionsOf done id := by
  rw [submissionsOf_concat]
  cases submitted : m.submitted? with
  | none => simp
  | some task => simp [unsubmitted task submitted]

theorem submissionsOf_eq_nil_iff {id : String} :
    submissionsOf moves id = [] ↔ id ∉ (moves.filterMap Move.submitted?).map (·.id) := by
  rw [submissionsOf, List.filter_eq_nil_iff, List.mem_map, not_exists]
  simp only [beq_iff_eq, not_and]

theorem submissionsOf_ne_nil {id : String} (h : submissionsOf done id ≠ []) (m : Move) :
    submissionsOf (done ++ [m]) id ≠ [] := by
  rw [submissionsOf_concat]
  exact List.append_ne_nil_of_left_ne_nil h _

/-- Nothing is done about the id of the task but what the task does itself: it is submitted once at
most, its callback makes one request, by the action, and there is neither a cancellation of its
tokens nor a teardown. -/
structure IsLeftAlone (setup : Setup) (moves : List Move) (s : Supervisor) (task : Task)
    (action : Action) : Prop where
  submitted : submissionsOf moves task.id <+: [task]
  running : s.stage ≠ .stopped
  kept : ∀ r ∈ s.runs, r.task.id = task.id → s.tokenIsCancelled r = false
  /-- What is asked for on behalf of a run is what its own callback asks for, -/
  asks : ∀ n ∈ s.runsOf task.id, trace (asksOf n) (create setup) moves <+: [(.own, action)]
  /-- and the callback has asked for it when it is over. -/
  asked : ∀ n ∈ s.runsOf task.id, ∀ r, s.run? n = some r → r.phase.isPastOwn = true →
    trace (asksOf n) (create setup) moves = [(.own, action)]

theorem mem_runsOf_of_chain (h : Chain s t) {id : String} (member : n ∈ s.runsOf id) :
    n ∈ t.runsOf id := by
  obtain ⟨r, found, own⟩ := mem_runsOf.mp member
  obtain ⟨r', found', evolves⟩ := h.evolves found
  exact mem_runsOf.mpr ⟨r', found', evolves.task ▸ own⟩

/-- What a run past its own callback asks for is not asked for by that callback. -/
theorem not_mem_asksOf {r : Run} (found : s.run? n = some r) (past : r.phase.isPastOwn = true)
    (m : Move) (t : Supervisor) : (.own, action) ∉ asksOf n s m t := by
  intro member
  unfold asksOf at member
  split at member
  · split at member
    · rw [found, Option.bind_some, Option.mem_toList, Option.map_eq_some_iff] at member
      obtain ⟨scope, calling, same⟩ := member
      cases same
      cases phase : r.phase with
      | calling its fault =>
          rw [phase] at calling past
          cases calling
          cases past
      | _ =>
          rw [phase] at calling
          cases calling
    · cases member
  · cases member

/-- What is alone has been so before. -/
theorem IsLeftAlone.earlier (h : IsLeftAlone setup (done ++ [m]) t task action)
    (ran : (create setup).applyAll done = some s) (applied : s.apply m = some t) :
    IsLeftAlone setup done s task action := by
  have chain := apply_chain applied
  have traced : ∀ n, trace (asksOf n) (create setup) (done ++ [m]) =
      trace (asksOf n) (create setup) done ++ asksOf n s m t := fun n => trace_concat ran applied
  refine ⟨?_, fun stopped => h.running (chain.onward.stopped stopped), ?_, ?_, ?_⟩
  · refine List.IsPrefix.trans ?_ h.submitted
    rw [submissionsOf_concat]
    exact List.prefix_append _ _
  · intro r member own
    obtain ⟨n, found⟩ := mem_runs_iff.mp member
    obtain ⟨r', found', evolves⟩ := chain.evolves found
    have kept := h.kept r' (mem_runs_iff.mpr ⟨n, found'⟩) (evolves.task ▸ own)
    by_contra cancelled
    rw [Bool.not_eq_false, tokenIsCancelled, Bool.or_eq_true] at cancelled
    rw [tokenIsCancelled, Bool.or_eq_false_iff] at kept
    rcases cancelled with itself | scope
    · rw [evolves.cancelled itself] at kept
      cases kept.1
    · rw [chain.scopeIsCancelled scope] at kept
      cases kept.2
  · intro n member
    refine List.IsPrefix.trans ?_ (h.asks n (mem_runsOf_of_chain chain member))
    rw [traced]
    exact List.prefix_append _ _
  · intro n member r found past
    obtain ⟨r', found', past'⟩ := chain.isPastOwn found past
    have all := h.asked n (mem_runsOf_of_chain chain member) r' found' past'
    rw [traced] at all
    rcases List.append_eq_singleton_iff.mp all with ⟨-, new⟩ | ⟨old, -⟩
    · exact absurd (new ▸ List.mem_singleton_self _) (not_mem_asksOf found past m t)
    · exact old

/-! ## How far the runs have come -/

/-- Run `n`, which was restarted `k` times before, has ended at a time, and has asked for the next
restart with a delay. -/
structure HasAsked (setup : Setup) (moves : List Move) (s : Supervisor) (rule : Restarter)
    (k n finish : Nat) (delay : Duration) : Prop where
  asked : trace (asksOf n) (create setup) moves ≠ []
  wanted : ∃ r fault, s.run? n = some r ∧ r.phase.fault? = some fault ∧
    rule.policy.wants fault = true
  allowed : rule.Allows k
  ended : trace (returnsOf n) (create setup) moves = [finish]
  delay : rule.delayBefore? k = .ok delay

/-- Run `n'` is the restart that run `n` has asked for, after the delay. -/
def IsRestartOf (setup : Setup) (moves : List Move) (s : Supervisor) (rule : Restarter)
    (k n n' : Nat) : Prop :=
  ∃ finish delay, HasAsked setup moves s rule k n finish delay ∧
    ⟨finish + delay.timerMillis, .launched n'⟩ ∈ s.journal

/-- Where the last run of the id stands. -/
inductive Front (setup : Setup) (moves : List Move) (s : Supervisor) (id : String)
    (action : Action) (rule : Restarter) : Prop
  /-- There is none, for nothing has been submitted or started. -/
  | absent (runs : s.runsOf id = []) (dues : s.duesOf id = [])
      (counted : action.HasCounted (s.countsOf id) 0)
      (unlaunched : s.stage ≠ .started ∨ submissionsOf moves id = [])
  /-- Its callback has not asked for anything yet. -/
  | live {before : List Nat} {n : Nat} (runs : s.runsOf id = before ++ [n])
      (unasked : trace (asksOf n) (create setup) moves = []) (dues : s.duesOf id = [])
      (counted : action.HasCounted (s.countsOf id) before.length)
  /-- The restart that it has asked for is still to come. -/
  | waiting {before : List Nat} {n finish : Nat} {delay : Duration}
      (runs : s.runsOf id = before ++ [n])
      (asked : HasAsked setup moves s rule before.length n finish delay)
      (dues : s.duesOf id = [finish + delay.timerMillis])
      (counted : action.HasCounted (s.countsOf id) (before.length + 1))
  /-- It has asked in vain: its outcome calls for no restart, or the budget is spent. -/
  | settled {before : List Nat} {n : Nat} {r : Run} {fault : Option Fault}
      (runs : s.runsOf id = before ++ [n]) (asked : trace (asksOf n) (create setup) moves ≠ [])
      (found : s.run? n = some r) (ended : r.phase.fault? = some fault)
      (final : rule.policy.wants fault = false ∨
        ∃ max, rule.budget = some max ∧ max ≤ before.length)
      (dues : s.duesOf id = [])

/-- How far the runs of an id have come. -/
structure Headway (setup : Setup) (moves : List Move) (s : Supervisor) (id : String)
    (action : Action) (rule : Restarter) : Prop where
  submitted : s.runsOf id ≠ [] → submissionsOf moves id ≠ []
  restarts : Consecutive (IsRestartOf setup moves s rule) (s.runsOf id)
  front : Front setup moves s id action rule

/-- Only the last run has not asked for anything yet. -/
theorem Headway.exists_live {id : String} (h : Headway setup done s id action rule)
    (member : n ∈ s.runsOf id) (unasked : trace (asksOf n) (create setup) done = []) :
    ∃ before, s.runsOf id = before ++ [n] ∧ s.duesOf id = [] ∧
      action.HasCounted (s.countsOf id) before.length := by
  have eq_last : ∀ {before a}, s.runsOf id = before ++ [a] → n = a := by
    intro before a last
    rw [last] at member
    refine (last ▸ h.restarts).eq_last member ?_
    rintro k c ⟨_, _, asked, -⟩
    exact asked.asked unasked
  cases h.front with
  | absent none =>
      rw [none] at member
      cases member
  | live last _ quiet counted => exact ⟨_, eq_last last ▸ last, quiet, counted⟩
  | waiting last asked => exact absurd (eq_last last ▸ unasked) asked.asked
  | settled last asked => exact absurd (eq_last last ▸ unasked) asked

/-- Without runs nothing is pending and nothing is counted. -/
theorem Headway.of_runs_eq_nil {id : String} (h : Headway setup done s id action rule)
    (none : s.runsOf id = []) : s.duesOf id = [] ∧ action.HasCounted (s.countsOf id) 0 := by
  cases h.front with
  | absent _ quiet counted => exact ⟨quiet, counted⟩
  | live last | waiting last | settled last => simp [none] at last

/-- No delay of the id is given up, for its runs are not cancelled. -/
theorem Headway.not_abandoned {d : Delay} (h : Headway setup done s task.id action rule)
    (alone : IsLeftAlone setup done s task action) (member : d ∈ s.pendingOf task.id) :
    ¬ s.scopeIsCancelled = true := by
  intro cancelled
  have some : s.runsOf task.id ≠ [] := fun none => by
    rw [duesOf_eq_nil_iff.mp (h.of_runs_eq_nil none).1] at member
    cases member
  obtain ⟨n, run⟩ := List.exists_mem_of_ne_nil _ some
  obtain ⟨r, found, same⟩ := mem_runsOf.mp run
  have kept := alone.kept r (mem_runs_iff.mpr ⟨n, found⟩) same
  rw [tokenIsCancelled, cancelled, Bool.or_true] at kept
  cases kept

/-- Before the start there are no runs. -/
theorem headway_of_dormant {id : String} (dormant : s.IsDormant)
    (counted : action.HasCounted (s.countsOf id) 0) : Headway setup done s id action rule := by
  have runs : s.runsOf id = [] := by rw [runsOf, tasks, dormant.runs]; rfl
  have dues : s.duesOf id = [] := by rw [duesOf, pendingOf, dormant.delays]; rfl
  refine ⟨fun some => absurd runs some, runs ▸ .nil, .absent runs dues counted (.inl ?_)⟩
  rw [dormant.stage]
  exact Stage.noConfusion

section Step

variable (ran : (create setup).applyAll done = some s) (applied : s.apply m = some t)

include ran applied

theorem HasAsked.apply (h : HasAsked setup done s rule k n finish delay) :
    HasAsked setup (done ++ [m]) t rule k n finish delay := by
  obtain ⟨r, fault, found, ended, wanted⟩ := h.wanted
  obtain ⟨r', found', evolves⟩ := (apply_chain applied).evolves found
  have returned : s.hasReturned n = true := hasReturned_iff.mpr
    ⟨r, found, Option.isSome_iff_exists.mpr ⟨fault, ended⟩⟩
  refine ⟨?_, ⟨r', fault, found', evolves.fault fault ended, wanted⟩, h.allowed, ?_, h.delay⟩
  · rw [trace_concat ran applied]
    exact List.append_ne_nil_of_left_ne_nil h.asked _
  · rw [trace_concat ran applied, returnsOf_of_returned returned, List.append_nil, h.ended]

theorem IsRestartOf.apply (h : IsRestartOf setup done s rule k n n') :
    IsRestartOf setup (done ++ [m]) t rule k n n' := by
  obtain ⟨finish, delay, asked, told⟩ := h
  exact ⟨finish, delay, asked.apply ran applied, (apply_chain applied).journal.subset told⟩

/-- On behalf of other runs nothing is told about a run. -/
theorem asks_apply (other : ∀ action, m.ask? ≠ some (n, action)) :
    trace (asksOf n) (create setup) (done ++ [m]) = trace (asksOf n) (create setup) done := by
  have silent : asksOf n s m t = [] := by
    unfold asksOf
    split
    · next run action asked =>
        refine if_neg ?_
        rintro rfl
        exact other action asked
    · rfl
  rw [trace_concat ran applied, silent, List.append_nil]

/-- Nothing has been asked for on behalf of a run that is launched by the move. -/
theorem asks_of_new : trace (asksOf (s.runs.length + 1)) (create setup) (done ++ [m]) = [] := by
  have missing : s.run? (s.runs.length + 1) = none := List.getElem?_eq_none (Nat.le_refl _)
  rw [trace_concat ran applied, asks_of_missing ran missing, asksOf_of_run?_eq_none missing,
    List.append_nil]

theorem Headway.restarts_apply {id : String} (h : Headway setup done s id action rule) :
    Consecutive (IsRestartOf setup (done ++ [m]) t rule) (s.runsOf id) :=
  h.restarts.imp fun _ _ _ next => next.apply ran applied

/-- A move that leaves the standing of the id alone keeps up how far its runs have come. -/
theorem Headway.aside {id : String} (h : Headway setup done s id action rule)
    (started : s.stage = .started)
    (unasked : ∀ n action, m.ask? = some (n, action) → n ∉ s.runsOf id)
    (unsubmitted : ∀ task, m.submitted? = some task → task.id ≠ id)
    (same : t.standing id = s.standing id) : Headway setup (done ++ [m]) t id action rule := by
  have runs : t.runsOf id = s.runsOf id := congrArg Standing.runs same
  have dues : t.duesOf id = s.duesOf id := congrArg Standing.dues same
  have counts : t.countsOf id = s.countsOf id := congrArg Standing.counts same
  have submitted : submissionsOf (done ++ [m]) id = submissionsOf done id :=
    submissionsOf_of_unsubmitted unsubmitted
  have asks : ∀ {before n}, s.runsOf id = before ++ [n] →
      trace (asksOf n) (create setup) (done ++ [m]) = trace (asksOf n) (create setup) done := by
    intro before n last
    refine asks_apply ran applied fun action asked => unasked n action asked ?_
    rw [last]
    exact List.mem_append_right _ (List.mem_singleton_self n)
  refine ⟨by rw [runs, submitted]; exact h.submitted, runs ▸ h.restarts_apply ran applied, ?_⟩
  · cases h.front with
    | absent none quiet counted unlaunched =>
        have unlaunched := unlaunched.resolve_left (fun other => other started)
        exact .absent (runs.trans none) (dues.trans quiet) (counts ▸ counted)
          (.inr (submitted.trans unlaunched))
    | live last silent quiet counted =>
        exact .live (runs.trans last) ((asks last).trans silent) (dues.trans quiet)
          (counts ▸ counted)
    | waiting last asked waits counted =>
        exact .waiting (runs.trans last) (asked.apply ran applied) (dues.trans waits)
          (counts ▸ counted)
    | settled last asked found ended final quiet =>
        obtain ⟨r', found', evolves⟩ := (apply_chain applied).evolves found
        exact .settled (runs.trans last) ((asks last).symm ▸ asked) found'
          (evolves.fault _ ended) final (dues.trans quiet)

/-- The first run is launched. -/
theorem Headway.arrive {id : String} (submitted : submissionsOf (done ++ [m]) id ≠ [])
    (missing : s.run? n = none) (runs : t.runsOf id = [n]) (dues : t.duesOf id = [])
    (counted : action.HasCounted (t.countsOf id) 0) :
    Headway setup (done ++ [m]) t id action rule := by
  have last : t.runsOf id = [] ++ [n] := runs
  refine ⟨fun _ => submitted, runs ▸ .singleton n, .live last ?_ dues counted⟩
  rw [trace_concat ran applied, asks_of_missing ran missing, asksOf_of_run?_eq_none missing,
    List.append_nil]

/-- The restart that the last run has asked for is launched. -/
theorem Headway.extend {id : String} {before : List Nat}
    (h : Headway setup done s id action rule) (last : s.runsOf id = before ++ [n])
    (next : IsRestartOf setup (done ++ [m]) t rule before.length n (s.runs.length + 1))
    (runs : t.runsOf id = s.runsOf id ++ [s.runs.length + 1]) (dues : t.duesOf id = [])
    (counted : action.HasCounted (t.countsOf id) (before.length + 1)) :
    Headway setup (done ++ [m]) t id action rule := by
  refine ⟨fun _ => submissionsOf_ne_nil (h.submitted (by simp [last])) m, ?_, ?_⟩
  · have restarts := h.restarts_apply ran applied
    rw [runs, last]
    exact (last ▸ restarts).concat next
  · rw [last] at runs
    refine .live runs ?_ dues (by simpa using counted)
    exact asks_of_new ran applied

/-- A delay of the id launches the restart that it was made for. -/
theorem Headway.fire {id : String} {d : Delay} (h : Headway setup done s id action rule)
    (member : d ∈ s.pendingOf id) (due : d.due ≤ s.now)
    (runs : t.runsOf id = s.runsOf id ++ [s.runs.length + 1])
    (fewer : (t.duesOf id).length + 1 = (s.duesOf id).length)
    (counts : t.countsOf id = s.countsOf id)
    (told : ⟨s.now, .launched (s.runs.length + 1)⟩ ∈ t.journal) :
    Headway setup (done ++ [m]) t id action rule := by
  have there := mem_duesOf member
  cases front : h.front with
  | absent _ quiet | live _ _ quiet | settled _ _ _ _ _ quiet =>
      rw [quiet] at there
      cases there
  | waiting last asked waits counted =>
      -- the delay is due, but not overdue
      obtain ⟨delayed, state⟩ := List.mem_filter.mp member
      have early := (reachable_of_applyAll ran).attained.le_due delayed
        (Bool.and_eq_true_iff.mp state).1
      rw [waits, List.mem_singleton] at there
      have now := (Nat.le_antisymm early due).trans there
      rw [waits, List.length_singleton, Nat.add_eq_right] at fewer
      refine h.extend ran applied last ?_ runs (List.eq_nil_of_length_eq_zero fewer)
        (counts ▸ counted)
      exact ⟨_, _, asked.apply ran applied, now ▸ told⟩

/-- A request on behalf of a run of the id is the first one, and the own callback of the run makes
it, by the action. -/
theorem IsLeftAlone.first_request {made : Action}
    (h : IsLeftAlone setup (done ++ [m]) t task action) (own : m.ask? = some (n, made))
    (member : n ∈ s.runsOf task.id) :
    made = action ∧ trace (asksOf n) (create setup) done = [] ∧
      trace (asksOf n) (create setup) (done ++ [m]) ≠ [] ∧
      ∃ r fault, s.run? n = some r ∧ r.task.id = task.id ∧ r.phase = .calling .own fault := by
  obtain ⟨r, scope, fault, found, phase⟩ := calling_of_ask own applied
  obtain ⟨q, there, same⟩ := mem_runsOf.mp member
  obtain rfl : q = r := Option.some.inj (there.symm.trans found)
  have traced : trace (asksOf n) (create setup) (done ++ [m]) =
      trace (asksOf n) (create setup) done ++ [(scope, made)] := by
    rw [trace_concat ran applied]
    simp [asksOf, own, found, phase, Phase.scope?]
  have all := h.asks n (mem_runsOf_of_chain (apply_chain applied) member)
  rw [traced] at all ⊢
  have unasked : trace (asksOf n) (create setup) done = [] := by
    have length := all.length_le
    rw [List.length_append] at length
    exact List.eq_nil_of_length_eq_zero (by simpa using length)
  rw [unasked] at all
  have first : (scope, made) = (.own, action) := by simpa using all
  cases first
  exact ⟨rfl, unasked, by simp, q, fault, found, same, phase⟩

/-- A run whose own callback is at work has ended just now. -/
theorem returns_of_calling {r : Run} {fault : Option Fault} (found : s.run? n = some r)
    (phase : r.phase = .calling .own fault) :
    trace (returnsOf n) (create setup) (done ++ [m]) = [s.now] := by
  have returned : s.hasReturned n = true :=
    hasReturned_iff.mpr ⟨r, found, by rw [phase]; rfl⟩
  obtain ⟨finish, told, now⟩ := (isTimed_of_applyAll ran n).once returned
  rw [trace_concat ran applied, returnsOf_of_returned returned, List.append_nil, told,
    now r found (by rw [phase]; rfl)]

/-- The callback of the last run asks for a restart. -/
theorem Headway.ask {made : Action} (h : Headway setup done s task.id action rule)
    (alone : IsLeftAlone setup (done ++ [m]) t task action)
    (ruled : action.IsRuledBy setup rule) (started : s.stage = .started)
    (own : m.ask? = some (n, made))
    (member : n ∈ s.runsOf task.id) : Headway setup (done ++ [m]) t task.id action rule := by
  have attained := (reachable_of_applyAll ran).attained
  obtain ⟨rfl, unasked, asked, r, fault, found, same, phase⟩ :=
    alone.first_request ran applied own member
  obtain ⟨before, last, quiet, counted⟩ := h.exists_live member unasked
  have finish := returns_of_calling ran applied found phase
  have kept := (alone.earlier ran applied).kept r (mem_runs_iff.mpr ⟨n, found⟩) same
  have request := request_of_ask own (attained.setup_eq.symm ▸ ruled) started
    attained.registryInvariant.numbered found phase kept (same ▸ counted) applied
  rw [same] at request
  obtain ⟨r', found', evolves⟩ := (apply_chain applied).evolves found
  have ended : r'.phase.fault? = some fault := evolves.fault fault (by rw [phase]; rfl)
  have submitted := submissionsOf_ne_nil (h.submitted (by simp [last])) m
  have restarts := h.restarts_apply ran applied
  cases request with
  | declined final runs dues =>
      exact ⟨fun _ => submitted, runs ▸ restarts,
        .settled (runs.trans last) asked found' ended final (dues.trans quiet)⟩
  | atOnce wanted allowed delay runs dues counted told =>
      refine h.extend ran applied last ?_ runs (dues.trans quiet) counted
      exact ⟨s.now, .zero, ⟨asked, ⟨r', fault, found', ended, wanted⟩, allowed, finish, delay⟩,
        told⟩
  | later wanted allowed computed runs dues counted =>
      rw [quiet, List.nil_append] at dues
      exact ⟨fun _ => submitted, runs ▸ restarts, .waiting (runs.trans last)
        ⟨asked, ⟨r', fault, found', ended, wanted⟩, allowed, finish, computed⟩ dues counted⟩

/-- Before the start there are no runs, and the start launches one at most. -/
theorem Headway.of_created (h : Headway setup done s task.id action rule)
    (created : s.stage = .created) :
    Headway setup (done ++ [m]) t task.id action rule := by
  have collects := collects_of_applyAll ran created
  have dormant := collects.dormant
  have none : s.runsOf task.id = [] := by rw [runsOf, tasks, dormant.runs]; rfl
  have silent : ∀ number i draw, m ≠ .handTo number i draw := by
    rintro number i draw rfl
    obtain ⟨r, -, -, -, found, -⟩ := handTo_cases applied
    rw [dormant.run?] at found
    cases found
  have streaks := apply_streaks_of_silent silent applied
  have counted : action.HasCounted (t.countsOf task.id) 0 := by
    rw [countsOf, streaks]
    exact (h.of_runs_eq_nil none).2
  cases dormant.step applied with
  | submit x => exact headway_of_dormant (dormant.enqueue x) counted
  | post => exact headway_of_dormant (dormant.post _ _) counted
  | aside _ still => exact headway_of_dormant still counted
  | start begun =>
      have same := applied
      simp only [Supervisor.apply, dormant.start_eq collects.distinct, Option.some.injEq] at applied
      have runs : t.runsOf task.id = numbersOf task.id s.pending := by
        rw [← applied, runsOf, tasks]
        simp [withRuns, writeAll, opened, dormant.runs, Function.comp_def]
      have dues : t.duesOf task.id = [] := by
        rw [← applied, duesOf, pendingOf]
        simp [withRuns, writeAll, opened, dormant.delays]
      have length := length_numbersOf_survivors task.id (done.filterMap Move.submitted?)
      rw [← collects.pending, ← runs] at length
      have told : submissionsOf (done ++ [.start]) task.id = submissionsOf done task.id :=
        submissionsOf_of_unsubmitted fun _ made => by cases made
      by_cases none : submissionsOf done task.id = []
      · rw [if_neg (submissionsOf_eq_nil_iff.mp none)] at length
        have runs := List.eq_nil_of_length_eq_zero length
        exact ⟨fun some => absurd runs some, runs ▸ .nil,
          .absent runs dues counted (.inr (told.trans none))⟩
      · rw [if_pos (not_not.mp (mt submissionsOf_eq_nil_iff.mpr none))] at length
        obtain ⟨n, runs⟩ := List.length_eq_one_iff.mp length
        exact Headway.arrive ran same (told ▸ none) (dormant.run? n) runs dues counted

/-- The only submission comes before any run. -/
theorem Headway.submit {x : Task} (h : Headway setup done s task.id action rule)
    (alone : IsLeftAlone setup (done ++ [m]) t task action) (own : m = .submit x)
    (same : x.id = task.id) (after : t.standing task.id =
      { s.standing task.id with runs := s.runsOf task.id ++ [s.runs.length + 1] }) :
    Headway setup (done ++ [m]) t task.id action rule := by
  have told : submissionsOf (done ++ [m]) task.id = submissionsOf done task.id ++ [x] := by
    rw [submissionsOf_concat, own]
    simp [Move.submitted?, same]
  have first : submissionsOf done task.id = [] := by
    have length := alone.submitted.length_le
    rw [told, List.length_append] at length
    exact List.eq_nil_of_length_eq_zero (by simpa using length)
  have none : s.runsOf task.id = [] := by
    by_contra some
    exact h.submitted some first
  obtain ⟨quiet, counted⟩ := h.of_runs_eq_nil none
  have runs := congrArg Standing.runs after
  have counts : t.countsOf task.id = s.countsOf task.id := congrArg Standing.counts after
  have missing : s.run? (s.runs.length + 1) = .none := List.getElem?_eq_none (Nat.le_refl _)
  rw [none] at runs
  exact .arrive ran applied (by simp [told]) missing runs
    ((congrArg Standing.dues after).trans quiet) (counts ▸ counted)

/-- Every move keeps up how far the runs of the id have come. -/
theorem Headway.apply (h : Headway setup done s task.id action rule)
    (alone : IsLeftAlone setup (done ++ [m]) t task action)
    (ruled : action.IsRuledBy setup rule) :
    Headway setup (done ++ [m]) t task.id action rule := by
  have before := alone.earlier ran applied
  cases stage : s.stage with
  | created => exact h.of_created ran applied stage
  | stopped => exact absurd stage before.running
  | started =>
      have numbered := (reachable_of_applyAll ran).attained.registryInvariant.numbered
      cases deed_of_apply stage numbered applied task.id with
      | aside unasked unsubmitted same =>
          exact h.aside ran applied stage unasked unsubmitted same
      | submit own same after =>
          exact h.submit ran applied alone own same after
      | fire _ member due runs fewer counts told =>
          exact h.fire ran applied member due runs fewer counts told
      | abandon member cancelled => exact absurd cancelled (h.not_abandoned before member)
      | ask own member =>
          exact h.ask ran applied alone ruled stage own member

end Step

/-- How far the runs of the id have come after any history. -/
theorem headway_of_applyAll (ran : (create setup).applyAll moves = some s)
    (alone : IsLeftAlone setup moves s task action) (ruled : action.IsRuledBy setup rule) :
    Headway setup moves s task.id action rule := by
  refine history_invariant (P := fun s moves => IsLeftAlone setup moves s task action →
    Headway setup moves s task.id action rule) ran (fun _ => ?_) ?_ alone
  · refine headway_of_dormant (.create setup) ?_
    cases action with
    | restarter index =>
        have bound : index < setup.restarters.length :=
          (List.getElem?_eq_some_iff.mp ruled.known).1
        simp [Action.HasCounted, countsOf, create, Streaks.get, bound]
    | _ => trivial
  · intro u v m done ran inv applied alone
    exact (inv (alone.earlier ran applied)).apply ran applied alone ruled

/-! ## The number of runs -/

/-- The first millisecond at which the delay is over. -/
def IsEndOf (finish : Nat) (delay : Duration) (time : Nat) : Prop :=
  finish * 1000000 + delay.nanos ≤ time * 1000000 ∧
    time * 1000000 < finish * 1000000 + delay.nanos + 1000000

/-- A timer ends there, unless its delay is cut. -/
theorem isEndOf_timerMillis {finish : Nat} {delay : Duration} (uncut : delay.seconds < 2 ^ 63) :
    IsEndOf finish delay (finish + delay.timerMillis) := by
  rw [Duration.timerMillis, if_pos uncut]
  unfold IsEndOf Duration.ceilMillis
  omega

/-- The numbers of runs at which there may be no further one: the budget is spent, or the result of
the last run, the first run having number zero, calls for no restart. -/
def limits (rule : Restarter) (results : Nat → Option Fault) : Set Nat :=
  {total | (∃ max, rule.budget = some max ∧ total = max + 1) ∨
    ∃ k, rule.policy.wants (results k) = false ∧ total = k + 1}

/-- How often a task has been run, and when. The results are those of its runs, in order. -/
structure RestartCounts (setup : Setup) (moves : List Move) (s : Supervisor) (task : Task)
    (rule : Restarter) (results : Nat → Option Fault) : Prop where
  /-- The runs of the id are runs of the task. -/
  same : ∀ n r, s.run? n = some r → r.task.id = task.id → r.task = task
  /-- Every run was launched once. -/
  once : ∀ n ∈ s.runsOf task.id, s.journal.launched.count n = 1
  /-- A restart is launched at the time at which the run before has ended, plus the delay before the
  restart with that number, rounded up to a millisecond. -/
  spacing : ∀ k n n', (s.runsOf task.id)[k]? = some n → (s.runsOf task.id)[k + 1]? = some n' →
    ∃ finish launch delay, trace (returnsOf n) (create setup) moves = [finish] ∧
      ⟨launch, .launched n'⟩ ∈ s.journal ∧ rule.delayBefore? k = .ok delay ∧
      (delay = .zero → launch = finish) ∧ (delay.seconds < 2 ^ 63 → IsEndOf finish delay launch)
  /-- A delay that is still to come is the one before the next restart, and it is not overdue. -/
  pending : ∀ d ∈ s.pendingOf task.id, s.now ≤ d.due ∧
    ∃ k n finish delay, (s.runsOf task.id)[k]? = some n ∧ (s.runsOf task.id).length = k + 1 ∧
      trace (returnsOf n) (create setup) moves = [finish] ∧ rule.delayBefore? k = .ok delay ∧
      (delay.seconds < 2 ^ 63 → IsEndOf finish delay d.due)
  /-- Once nothing moves and nothing is to come any more, the number of runs is the least limit. -/
  count : s.stage = .started → submissionsOf moves task.id ≠ [] → s.isQuiescent = true →
    s.pendingOf task.id = [] → (∀ n ∈ s.runsOf task.id, s.hasReturned n = true) →
      IsLeast (limits rule results) (s.runsOf task.id).length

/-- The last run of the id has ended and asked in vain, if nothing is to come any more. -/
theorem Headway.exists_final (h : Headway setup moves s task.id action rule)
    (alone : IsLeftAlone setup moves s task action) (started : s.stage = .started)
    (submitted : submissionsOf moves task.id ≠ []) (still : s.isQuiescent = true)
    (quiet : s.duesOf task.id = [])
    (returned : ∀ n ∈ s.runsOf task.id, s.hasReturned n = true) :
    ∃ before n r fault, s.runsOf task.id = before ++ [n] ∧ s.run? n = some r ∧
      r.phase.fault? = some fault ∧ (rule.policy.wants fault = false ∨
        ∃ max, rule.budget = some max ∧ max ≤ before.length) := by
  cases h.front with
  | absent _ _ _ unlaunched =>
      exact absurd (unlaunched.resolve_left (fun other => other started)) submitted
  | @live before n last unasked =>
      -- its callback is over, so it has asked
      have member : n ∈ s.runsOf task.id := last ▸ List.mem_append_right _ (.head _)
      obtain ⟨r, found, ended⟩ := hasReturned_iff.mp (returned n member)
      have past : r.phase.isPastOwn = true := by
        by_contra busy
        exact not_quiescent_of_returned found ended (by simpa using busy) still
      rw [alone.asked n member r found past] at unasked
      cases unasked
  | waiting _ _ waits =>
      rw [waits] at quiet
      cases quiet
  | settled last _ found ended final => exact ⟨_, _, _, _, last, found, ended, final⟩

/-- Every restart was wanted, and the budget allowed it. -/
theorem Headway.restarted {id : String} (h : Headway setup moves s id action rule)
    {results : Nat → Option Fault}
    (actual : ∀ k n r fault, (s.runsOf id)[k]? = some n → s.run? n = some r →
      r.phase.fault? = some fault → results k = fault)
    (inside : k + 1 < (s.runsOf id).length) :
    rule.policy.wants (results k) = true ∧ rule.Allows k := by
  have here : (s.runsOf id)[k]? = some (s.runsOf id)[k] :=
    List.getElem?_eq_getElem (Nat.lt_of_succ_lt inside)
  obtain ⟨finish, delay, asked, -⟩ := h.restarts k _ _ here (List.getElem?_eq_getElem inside)
  obtain ⟨r, fault, found, ended, wanted⟩ := asked.wanted
  exact ⟨actual k _ r fault here found ended ▸ wanted, asked.allowed⟩

/-- At the end the number of runs is a limit, and there is no lower one. -/
theorem Headway.isLeast {results : Nat → Option Fault}
    (h : Headway setup moves s task.id action rule)
    (alone : IsLeftAlone setup moves s task action)
    (actual : ∀ k n r fault, (s.runsOf task.id)[k]? = some n → s.run? n = some r →
      r.phase.fault? = some fault → results k = fault)
    (started : s.stage = .started) (submitted : submissionsOf moves task.id ≠ [])
    (still : s.isQuiescent = true) (quiet : s.pendingOf task.id = [])
    (returned : ∀ n ∈ s.runsOf task.id, s.hasReturned n = true) :
    IsLeast (limits rule results) (s.runsOf task.id).length := by
  obtain ⟨before, n, r, fault, last, found, ended, final⟩ :=
    h.exists_final alone started submitted still (duesOf_eq_nil_iff.mpr quiet) returned
  have length : (s.runsOf task.id).length = before.length + 1 := by rw [last]; simp
  have restarted := fun k inside => h.restarted (k := k) actual inside
  -- all restarts that were made were allowed
  have allowed : ∀ max, rule.budget = some max → before.length ≤ max := by
    intro max budget
    by_contra beyond
    have spent := (restarted max (by omega)).2 max budget
    omega
  have here : (s.runsOf task.id)[before.length]? = some n := by
    rw [last, List.getElem?_concat_length]
  rw [length]
  refine ⟨?_, ?_⟩
  · rcases final with unwanted | ⟨max, budget, spent⟩
    · exact .inr ⟨before.length, (actual _ n r fault here found ended).symm ▸ unwanted, rfl⟩
    · exact .inl ⟨max, budget, congrArg (· + 1) (Nat.le_antisymm (allowed max budget) spent)⟩
  · rintro total (⟨max, budget, rfl⟩ | ⟨k, unwanted, rfl⟩)
    · exact Nat.succ_le_succ (allowed max budget)
    · by_contra fewer
      rw [(restarted k (by omega)).1] at unwanted
      cases unwanted

/-- The results of its runs decide how often a task is run that is left to itself, and every restart
comes when it is due. -/
theorem restartCounts {results : Nat → Option Fault}
    (ran : (create setup).applyAll moves = some s)
    (alone : IsLeftAlone setup moves s task action) (ruled : action.IsRuledBy setup rule)
    (actual : ∀ k n r fault, (s.runsOf task.id)[k]? = some n → s.run? n = some r →
      r.phase.fault? = some fault → results k = fault) :
    RestartCounts setup moves s task rule results := by
  have attained := (reachable_of_applyAll ran).attained
  have headway := headway_of_applyAll ran alone ruled
  refine ⟨?_, ?_, ?_, ?_, headway.isLeast alone actual⟩
  · intro n r found own
    have member : r.task ∈ submissionsOf moves task.id :=
      List.mem_filter.mpr ⟨(areAmong_of_applyAll ran).task_mem found, by simp [own]⟩
    exact List.mem_singleton.mp (alone.submitted.subset member)
  · intro n member
    obtain ⟨r, found, -⟩ := mem_runsOf.mp member
    have bounds := run?_bounds found
    rw [attained.launched]
    exact List.count_eq_one_of_mem List.nodup_range' (List.mem_range'_1.mpr (by omega))
  · intro k n n' first second
    obtain ⟨finish, delay, asked, told⟩ := headway.restarts k n n' first second
    refine ⟨finish, _, delay, asked.ended, told, asked.delay, ?_, isEndOf_timerMillis⟩
    rintro rfl
    rfl
  · intro d member
    obtain ⟨there, state⟩ := List.mem_filter.mp member
    refine ⟨attained.le_due there (Bool.and_eq_true_iff.mp state).1, ?_⟩
    have due := mem_duesOf member
    cases headway.front with
    | absent _ quiet | live _ _ quiet | settled _ _ _ _ _ quiet =>
        rw [quiet] at due
        cases due
    | @waiting before n finish delay last asked waits =>
        rw [waits, List.mem_singleton] at due
        refine ⟨before.length, n, finish, delay, ?_, ?_, asked.ended, asked.delay, ?_⟩
        · rw [last, List.getElem?_concat_length]
        · rw [last, List.length_append, List.length_singleton]
        · exact fun uncut => due ▸ isEndOf_timerMillis uncut

/-- One restart is allowed, and it waits for a millisecond and a half. -/
def oneRetry : Restarter :=
  { budget := some 1, backoff := some (.constant ⟨1500000⟩) }

def retried : Task := { id := "a", work := some {}, onFinish := some { actions := [.restarter 0] } }

/-- The task fails after five milliseconds and again when it is restarted. -/
def retry : List Move :=
  [.start, .submit retried, .progress (.begin 1), .tick 5, .finish 1 (.returns (some .canceled)),
    .progress (.release 1), .progress (.report 1), .progress (.call 1), .handTo 1 0 0,
    .progress (.arm 0), .progress (.leave 1), .progress (.call 1), .progress (.send 1),
    .progress .observe, .tick 7, .progress (.fire 0), .progress (.begin 2),
    .finish 2 (.returns (some .canceled)), .progress (.release 2), .progress (.report 2),
    .progress (.call 2), .handTo 2 0 0, .progress (.leave 2), .progress (.call 2),
    .progress (.send 2), .progress .observe]

theorem restartCounts_of_retry :
    ∃ s, (create { restarters := [oneRetry] }).applyAll retry = some s ∧
      s.isQuiescent = true ∧ s.runsOf "a" = [1, 2] ∧ ⟨7, .launched 2⟩ ∈ s.journal ∧
      RestartCounts { restarters := [oneRetry] } retry s retried oneRetry
        fun _ => some .canceled := by
  have facts : ((create { restarters := [oneRetry] }).applyAll retry).any (fun s => decide
      (s.isQuiescent = true ∧ s.runsOf "a" = [1, 2] ∧ ⟨7, .launched 2⟩ ∈ s.journal ∧
        s.stage = .started ∧ ∀ r ∈ s.runs, s.tokenIsCancelled r = false ∧
          r.phase.fault? = some (some .canceled))) = true := by
    decide +kernel
  obtain ⟨s, ran, holds⟩ := (Option.any_eq_true _ _).mp facts
  obtain ⟨still, runs, told, started, ended⟩ := of_decide_eq_true holds
  have requests : ∀ n ∈ [1, 2], trace (asksOf n) (create { restarters := [oneRetry] }) retry =
      [(.own, .restarter 0)] := by
    decide +kernel
  have alone : IsLeftAlone { restarters := [oneRetry] } retry s retried (.restarter 0) := by
    refine ⟨by decide, by simp [started], fun r member _ => (ended r member).1, ?_, ?_⟩
    · exact fun n member => requests n (runs ▸ member) ▸ List.prefix_rfl
    · exact fun n member _ _ _ => requests n (runs ▸ member)
  have ruled : (Action.restarter 0).IsRuledBy { restarters := [oneRetry] } oneRetry := by
    refine ⟨rfl, Restarter.computes_of_constant rfl (by decide +kernel), ?_, ?_⟩
    · rintro _ ⟨⟩
      rfl
    · rintro _ ⟨⟩
      decide
  refine ⟨s, ran, still, runs, told, restartCounts ran alone ruled ?_⟩
  intro _ n r fault _ found failed
  rw [(ended r (mem_runs_iff.mpr ⟨n, found⟩)).2] at failed
  exact Option.some.inj failed

end Supervisor

end Supervision
