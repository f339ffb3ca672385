import Supervision.Proofs.Counterparts
import Supervision.Proofs.Loads

/-!
# Redundant calls

Calls are made in addition to those of a history: starts of a supervisor that is started or stopped,
calls for a teardown that come before the start or after the first one, and waits for its end. The
history goes on as if they had not been made, whatever they get for it and whenever they get it. A
call that raises a panic has changed nothing before it does so.

A plan says where calls are made in addition, and a history carries the plan out. The relation is a
simulation in both directions. What the calls in addition do by themselves has no counterpart, and
all other moves have one; time passes at the same instants, because the calls in addition have
nothing left to do by then.

Results:
1. `Carries.kept`: without the calls in addition, the history is possible as well and ends alike.
2. `apply_counts`: a move that is not a call for a teardown does not make one from outside.
3. `exists_settled`: calls in addition come to where they can only wait.
4. `exists_carries`: wherever calls are made in addition, the history is possible with them.
5. `ignoresRedundantCalls`: what this means for histories from the beginning.
-/

namespace Supervision

/-- A call that is made in addition, from outside of the runs. -/
inductive Extra
  | start
  | stop
  | wait
deriving DecidableEq, Repr

def Extra.move : Extra → Move
  | .start => .start
  | .stop => .stop
  | .wait => .wait

/-- A call in addition is illegal or redundant: it raises a panic, or it finds the supervisor
started already, or the teardown begun. A wait may be made at any time. -/
def Extra.IsUseless (s : Supervisor) : Extra → Prop
  | .start => s.stage ≠ .created
  | .stop => s.stage ≠ .started
  | .wait => True

/-- An item of a plan: a move of the history, or a call in addition. -/
inductive Planned
  | move (m : Move)
  | extra (e : Extra)
deriving DecidableEq, Repr

namespace Planned

def move? : Planned → Option Move
  | .move m => some m
  | .extra _ => none

/-- Is a call for a teardown made in addition? -/
def stop? : Planned → Option Bool
  | .move .stop => some false
  | .extra .stop => some true
  | _ => none

/-- Is a wait made in addition? -/
def wait? : Planned → Option Bool
  | .move .wait => some false
  | .extra .wait => some true
  | _ => none

end Planned

/-- The history without the calls in addition. -/
def history (plan : List Planned) : List Move := plan.filterMap Planned.move?

/-- The calls in addition, by the numbers that they get. -/
def omission (plan : List Planned) : Omission where
  calls n := (plan.filterMap Planned.stop?).getD n false
  waits n := (plan.filterMap Planned.wait?).getD n false

namespace Supervisor

variable {setup : Setup} {o : Omission} {s t u : Supervisor} {m m' : Move} {moves : List Move}
  {plan : List Planned}

/-! ## A supervisor without some of the calls -/

/-- The supervisor as if what is left out had not been called. -/
def without (o : Omission) (s : Supervisor) : Supervisor :=
  s.lacking o (s.journal.filterMap o.written?)

theorem published_without : (s.without o).published = s.published :=
  events_filterMap_written? o s.journal

theorem Mirrors.eq_without {t' : Supervisor}
    (h : Mirrors o s.journal (s.journal.filterMap o.written?) t t') : t' = t.without o := by
  obtain ⟨new, grown, rfl⟩ := h
  rw [without, grown, List.filterMap_append]

section Pairs

variable (reached : Reachable setup s) (reached' : Reachable setup (s.without o))

include reached reached'

theorem leavesAside_of_reachable : s.LeavesAside o :=
  leavesAside reached.attained.hasStory reached'.attained.hasStory

/-- A move and what stands for it are alike. Before time passes, nothing that is left out must be
able to go on. -/
theorem alike_without (stands : s.standIn? o m = some m')
    (idle : ∀ time, m = .tick time → s.IsIdle o) :
    Alike o s.journal (s.journal.filterMap o.written?) (s.apply m) ((s.without o).apply m') := by
  by_cases clock : ∃ time, m = .tick time
  · obtain ⟨time, rfl⟩ := clock
    obtain rfl : Move.tick time = m' := Option.some.inj stands
    exact tick_alike (idle time rfl) (leavesAside_of_reachable reached reached')
      published_without time
  · exact apply_alike reached.attained.isNumbered published_without stands
      fun time same => clock ⟨time, same⟩

theorem apply_standIn (stands : s.standIn? o m = some m') (made : s.apply m = some t) :
    (s.without o).apply m' = some (t.without o) := by
  have alike := alike_without reached reached' stands fun time same => by
    rw [same, apply, tick] at made
    split at made
    · next still => exact .of_quiescent still.1
    · cases made
  rw [made] at alike
  generalize (s.without o).apply m' = result at alike
  cases alike with
  | some mirrors => rw [mirrors.eq_without]

/-- As long as nothing that is left out can go on, every move stands for one. -/
theorem exists_standIn (idle : s.IsIdle o) (stop : m' = .stop → o.calls s.callers = false)
    (wait : m' = .wait → o.waits s.waits.length = false) {t' : Supervisor}
    (made : (s.without o).apply m' = some t') :
    ∃ m t, s.standIn? o m = some m' ∧ s.apply m = some t ∧ t.without o = t' := by
  suffices stands : ∃ m, s.standIn? o m = some m' by
    obtain ⟨m, stands⟩ := stands
    have alike := alike_without reached reached' stands fun _ _ => idle
    rw [made] at alike
    generalize here : s.apply m = result at alike
    cases alike with
    | some mirrors => exact ⟨m, _, stands, here, mirrors.eq_without.symm⟩
  cases kind : m' with
  | progress p' =>
      rw [kind] at made
      obtain ⟨p, _, stands, -, -⟩ := exists_counterpart published_without made
      exact ⟨.progress p, by rw [standIn?, stands]; rfl⟩
  | stop => exact ⟨.stop, by simp [standIn?, stop kind]⟩
  | wait => exact ⟨.wait, by simp [standIn?, wait kind]⟩
  | drop k =>
      rw [kind] at made
      obtain ⟨_, _, found, -⟩ := drop_eq made
      obtain ⟨i, call, here, kept, rfl⟩ := exists_place found
      exact ⟨.drop i, by simp [standIn?, here, kept]⟩
  | _ => exact ⟨m', by rw [kind]; rfl⟩

/-- What is left out goes on by itself. -/
theorem without_eq_of_own (own : s.standIn? o m = none) (redundant : s.IsRedundant o m)
    (made : s.apply m = some t) : t.without o = s.without o :=
  (apply_own made own (leavesAside_of_reachable reached reached') redundant).eq_without.symm

end Pairs

/-! ## Histories with calls in addition -/

/-- A start is of no effect once the supervisor is started. -/
theorem apply_start (begun : s.stage ≠ .created) : s.apply .start = some s := by
  rw [apply, start]
  cases stage : s.stage with
  | created => exact absurd stage begun
  | started | stopped => rfl

/-- Some moves carry a plan out. Each move of the plan is made by the one that it stands for, calls
in addition are made where the plan has them, and anywhere else they go on by themselves or are
dropped. None of them is the first one to call a started supervisor for a teardown. -/
inductive Carries (o : Omission) : Supervisor → List Move → List Planned → Supervisor → Prop
  | done (s : Supervisor) : Carries o s [] [] s
  | move {s t u : Supervisor} {m m' : Move} {moves : List Move} {plan : List Planned}
      (stands : s.standIn? o m = some m') (made : s.apply m = some t)
      (rest : Carries o t moves plan u) : Carries o s (m :: moves) (.move m' :: plan) u
  | start {s u : Supervisor} {moves : List Move} {plan : List Planned}
      (begun : s.stage ≠ .created) (rest : Carries o s moves plan u) :
      Carries o s (.start :: moves) (.extra .start :: plan) u
  | call {s t u : Supervisor} {e : Extra} {moves : List Move} {plan : List Planned}
      (own : s.standIn? o e.move = none) (made : s.apply e.move = some t)
      (rest : Carries o t moves plan u) : Carries o s (e.move :: moves) (.extra e :: plan) u
  | goOn {s t u : Supervisor} {p : Progress} {moves : List Move} {plan : List Planned}
      (own : s.standIn? o (.progress p) = none) (redundant : s.IsRedundant o (.progress p))
      (made : s.apply (.progress p) = some t) (rest : Carries o t moves plan u) :
      Carries o s (.progress p :: moves) plan u
  | drop {s t u : Supervisor} {index : Nat} {moves : List Move} {plan : List Planned}
      (own : s.standIn? o (.drop index) = none) (made : s.apply (.drop index) = some t)
      (rest : Carries o t moves plan u) : Carries o s (.drop index :: moves) plan u

theorem Carries.ran (h : Carries o s moves plan u) : s.applyAll moves = some u := by
  induction h with
  | done => rfl
  | move _ made _ ih | call _ made _ ih | goOn _ _ made _ ih | drop _ made _ ih =>
      exact Option.bind_eq_some_iff.mpr ⟨_, made, ih⟩
  | start begun _ ih => exact Option.bind_eq_some_iff.mpr ⟨_, apply_start begun, ih⟩

/-- What is left of a call in addition once it has been made goes on before the plan does. -/
theorem Carries.append {moves' : List Move} (h : Carries o s moves [] t)
    (rest : Carries o t moves' plan u) : Carries o s (moves ++ moves') plan u := by
  generalize none : ([] : List Planned) = nothing at h
  induction h with
  | done => exact rest
  | goOn own redundant made _ ih => exact .goOn own redundant made (ih rest none)
  | drop own made _ ih => exact .drop own made (ih rest none)
  | move | start | call => cases none

/-- A call in addition is redundant wherever it is made. -/
theorem isRedundant_extra (e : Extra) : s.IsRedundant o e.move := by
  intro i call same
  cases e <;> cases same

/-- To drop a call begins nothing. -/
theorem isRedundant_drop (index : Nat) : s.IsRedundant o (.drop index) := by
  intro i call same
  cases same

/-- Without the calls in addition the same comes about. -/
theorem Carries.kept (h : Carries o s moves plan u) (reached : Reachable setup s)
    (reached' : Reachable setup (s.without o)) :
    (s.without o).applyAll (history plan) = some (u.without o) := by
  induction h with
  | done => rfl
  | move stands made _ ih =>
      have made' := apply_standIn reached reached' stands made
      exact Option.bind_eq_some_iff.mpr
        ⟨_, made', ih (reached.step made) (reached'.step made')⟩
  | start _ _ ih => exact ih reached reached'
  | @call _ _ _ e _ _ own made _ ih =>
      have same := without_eq_of_own reached reached' own (isRedundant_extra e) made
      exact same ▸ ih (reached.step made) (same ▸ reached')
  | goOn own redundant made _ ih =>
      have same := without_eq_of_own reached reached' own redundant made
      exact same ▸ ih (reached.step made) (same ▸ reached')
  | @drop _ _ _ index _ _ own made _ ih =>
      have same := without_eq_of_own reached reached' own (isRedundant_drop index) made
      exact same ▸ ih (reached.step made) (same ▸ reached')

/-! ## How many calls there are -/

theorem Change.callers_le {marks : List Mark} (h : Change s marks t) : s.callers ≤ t.callers := by
  rw [callers_eq s, callers_eq t]
  rcases h.requesters_cases with same | ⟨requester, same, -⟩
  · rw [same]
  · rw [same, List.filterMap_append, List.length_append]
    exact Nat.le_add_right _ _

theorem Change.length_waits_le {marks : List Mark} (h : Change s marks t) :
    s.waits.length ≤ t.waits.length := by
  cases h
  case resolveWait => exact List.length_set.ge
  case addWait => exact List.length_append ▸ Nat.le_add_right _ _
  all_goals exact Nat.le_refl _

theorem Chain.counts_le (h : Chain s t) :
    s.callers ≤ t.callers ∧ s.waits.length ≤ t.waits.length := by
  induction h with
  | refl => exact ⟨Nat.le_refl _, Nat.le_refl _⟩
  | tail _ advances ih =>
      obtain ⟨marks, u, change, rfl⟩ := advances
      exact ⟨ih.1.trans change.callers_le, ih.2.trans change.length_waits_le⟩

/-- All calls that have not been made yet. -/
def unmade (s : Supervisor) : Omission where
  calls n := decide (s.callers ≤ n)
  waits n := decide (s.waits.length ≤ n)

theorem rank_late (bound : Nat) {n : Nat} (whole : rank (fun k => decide (bound ≤ k)) n = n) :
    n ≤ bound := by
  refine Nat.le_of_not_lt fun beyond => ?_
  have early := rank_eq_self.mp whole bound beyond
  simp at early

theorem isSpared_unmade (numbered : s.IsNumbered) : s.IsSpared s.unmade where
  calls call member := by
    obtain ⟨requester, state, dropped⟩ := call
    cases requester with
    | caller n =>
        have made : n < s.callers := by
          have present : n ∈ s.requesters.filterMap Requester.caller? :=
            List.mem_filterMap.mpr ⟨.caller n, List.mem_map_of_mem member, rfl⟩
          rw [numbered] at present
          exact List.mem_range.mp present
        have spared : ∀ k ≤ n, s.unmade.calls k = false := fun k le =>
          decide_eq_false (Nat.not_le_of_lt (le.trans_lt made))
        have here : rank s.unmade.calls n = n :=
          rank_eq_self.mpr fun k below => spared k (Nat.le_of_lt below)
        simp [Omission.call?, Omission.requester?, spared n (Nat.le_refl n), here]
    | run | loop => rfl
  waits n bound := decide_eq_false (Nat.not_le_of_lt bound)

/-- A move that does not call itself does the same if all later calls are left out, so it makes
none. -/
theorem apply_counts (reached : Reachable setup s) (made : s.apply m = some t) :
    t.callers = s.callers + (if m = .stop then 1 else 0) ∧
      t.waits.length = s.waits.length + if m = .wait then 1 else 0 := by
  by_cases stop : m = .stop
  · subst stop
    cases made
    exact ⟨by simp [callers, addCall, List.countP_append], rfl⟩
  by_cases wait : m = .wait
  · subst wait
    cases made
    exact ⟨rfl, List.length_append⟩
  by_cases clock : ∃ time, m = .tick time
  · obtain ⟨time, rfl⟩ := clock
    rw [apply, tick] at made
    split at made
    · cases made
      exact ⟨rfl, rfl⟩
    · cases made
  have numbered := reached.attained.isNumbered
  have spared := isSpared_unmade numbered
  have stands : s.standIn? s.unmade m = some m := by
    cases m with
    | progress p =>
        rw [standIn?, spared.counterpart?_eq made]
        rfl
    | stop => exact absurd rfl stop
    | wait => exact absurd rfl wait
    | drop index => exact spared.standIn?_drop made
    | _ => rfl
  have alike := apply_alike (j := s.journal) numbered rfl stands fun time same => clock ⟨time, same⟩
  rw [spared.lacking_eq s.journal, made] at alike
  cases alike with
  | some mirrors =>
      obtain ⟨new, -, same⟩ := mirrors
      have grown := (apply_chain made).counts_le
      have numbered' := (reached.step made).attained.isNumbered
      rw [if_neg stop, if_neg wait]
      refine ⟨Nat.le_antisymm (rank_late _ ?_) grown.1, Nat.le_antisymm (rank_late _ ?_) grown.2⟩
      · exact (callers_lacking numbered').symm.trans (congrArg callers same.symm)
      · have whole := place_wait? s.unmade (Nat.le_refl t.waits.length)
        rw [place, List.take_of_length_le (by simp)] at whole
        exact whole.symm.trans (congrArg (·.waits.length) same.symm)

/-! ## Calls in addition come to rest -/

/-- No call that is left out is about to begin the teardown. -/
def IsHarmless (o : Omission) (s : Supervisor) : Prop :=
  ∀ call ∈ s.calls, o.call? call = none → call.dropped = false → call.state = .called →
    s.stage ≠ .started

/-- How far the calls and the waits are from their results. -/
def outstanding (s : Supervisor) : Nat :=
  (s.calls.map (·.state.remaining)).sum + s.waits.count false

theorem outstanding_setCall {i : Nat} {call : Call} (found : s.calls[i]? = some call)
    {after : CallState} (nearer : after.remaining < call.state.remaining) :
    (s.setCall i after).outstanding < s.outstanding := by
  have calls : (s.setCall i after).calls = s.calls.set i { call with state := after } := by
    rw [setCall, List.modify_eq_set_getElem?, found]
    rfl
  have changed : ((s.setCall i after).calls.map (·.state.remaining)).sum + call.state.remaining =
      (s.calls.map (·.state.remaining)).sum + after.remaining := by
    rw [calls]
    exact sum_map_set (fun call : Call => call.state.remaining) found _
  refine Nat.add_lt_add_right ?_ (s.waits.count false)
  omega

/-- What is left out takes a step of its own. -/
structure Subsides (o : Omission) (s t : Supervisor) : Prop where
  nearer : t.outstanding < s.outstanding
  harmless : t.IsHarmless o
  callers : t.callers = s.callers
  waits : t.waits.length = s.waits.length

theorem subsides_of_own (harmless : s.IsHarmless o) (aside : s.LeavesAside o) {p : Progress}
    (own : s.counterpart? o p = none) (made : s.progress p = some t) : Subsides o s t := by
  cases p with
  | proceed i =>
      cases found : s.calls[i]? with
      | none => simp [progress, proceed, found] at made
      | some call =>
          rw [counterpart?, found, Option.map_eq_none_iff] at own
          have left : o.call? call = none := own
          have member := List.mem_of_getElem? found
          obtain ⟨after, marks, rfl, nearer, -⟩ :=
            proceed_aside found (aside call member left) (harmless call member left) made
          refine ⟨outstanding_setCall found nearer, ?_, ?_, rfl⟩
          · intro other there gone kept called
            rcases mem_setCall there with old | new
            · exact harmless other old gone kept called
            · rw [← new, called] at nearer
              cases state : call.state <;> simp [state, CallState.remaining] at nearer
          · have same : ((s.setCall i after).writeAll marks).requesters = s.requesters :=
              requesters_setCall s i after
            rw [callers_eq, callers_eq, same]
  | resolveWait n =>
      obtain ⟨waiting, rfl⟩ := resolveWait_eq made
      obtain ⟨bound, here⟩ := List.getElem?_eq_some_iff.mp waiting
      refine ⟨?_, harmless, rfl, List.length_set⟩
      refine Nat.add_lt_add_left ?_ _
      show (s.waits.set n true).count false < s.waits.count false
      have some : 0 < s.waits.count false := List.count_pos_iff.mpr (List.mem_of_getElem? waiting)
      rw [List.count_set bound, here]
      exact Nat.sub_lt some Nat.one_pos
  | _ => cases own

theorem exists_own_of_not_isIdle (busy : ¬ s.IsIdle o) :
    ∃ p t, s.counterpart? o p = none ∧ s.progress p = some t := by
  by_contra none
  push Not at none
  refine busy ⟨fun i call found left => ?_, fun n left => ?_⟩
  · refine Option.eq_none_iff_forall_ne_some.mpr fun t => none (.proceed i) t ?_
    simp [counterpart?, found, left]
  · refine Option.eq_none_iff_forall_ne_some.mpr fun t => none (.resolveWait n) t ?_
    cases s.waits[n]? <;> simp [counterpart?, Omission.wait?, left]

/-- What is left out goes on by itself until it cannot. -/
theorem exists_settled (reached : Reachable setup s) (reached' : Reachable setup (s.without o))
    (harmless : s.IsHarmless o) :
    ∃ moves u, Carries o s moves [] u ∧ u.IsIdle o ∧ u.callers = s.callers ∧
      u.waits.length = s.waits.length := by
  generalize left : s.outstanding = total
  induction total using Nat.strongRecOn generalizing s with
  | ind total ih =>
      by_cases idle : s.IsIdle o
      · exact ⟨[], s, .done s, idle, rfl, rfl⟩
      · obtain ⟨p, t, own, made⟩ := exists_own_of_not_isIdle idle
        have subsides :=
          subsides_of_own harmless (leavesAside_of_reachable reached reached') own made
        have own : s.standIn? o (.progress p) = none := by rw [standIn?, own]; rfl
        have redundant : s.IsRedundant o (.progress p) := fun _ call _ found =>
          harmless call (List.mem_of_getElem? found)
        have same := without_eq_of_own reached reached' own redundant made
        obtain ⟨moves, u, carries, idle, callers, waits⟩ :=
          ih _ (left ▸ subsides.nearer) (reached.step (m := .progress p) made) (same ▸ reached')
            subsides.harmless rfl
        exact ⟨.progress p :: moves, u, .goOn own redundant made carries, idle,
          callers.trans subsides.callers, waits.trans subsides.waits⟩

/-! ## Calls that have been polled -/

/-- Every call that is left out has been polled, unless it is dropped. -/
def IsPolled (o : Omission) (s : Supervisor) : Prop :=
  ∀ call ∈ s.calls, o.call? call = none → call.dropped = false → call.state ≠ .called

theorem IsPolled.isHarmless (polled : s.IsPolled o) : s.IsHarmless o :=
  fun call member left kept called => absurd called (polled call member left kept)

/-- Whatever has not been polled can be. -/
theorem IsIdle.isPolled (idle : s.IsIdle o) : s.IsPolled o := by
  intro call member left kept called
  obtain ⟨i, found⟩ := List.getElem?_of_mem member
  have stuck := idle.calls i call found left
  obtain ⟨requester, state, dropped⟩ := call
  obtain rfl : state = .called := called
  obtain rfl : dropped = false := kept
  rw [proceed, found] at stuck
  cases stage : s.stage <;> simp [stage] at stuck

theorem CallStep.ne_called {requester : Requester} {before after : CallState} {told : List Mark}
    {stage : Stage} {done : Bool} (h : s.CallStep requester before after told stage done) :
    after ≠ .called := by
  cases h <;> exact CallState.noConfusion

/-- A move of the history makes no call that is left out. -/
theorem isPolled_of_standIn (reached : Reachable setup s) (polled : s.IsPolled o)
    (stands : s.standIn? o m = some m') (made : s.apply m = some t) : t.IsPolled o := by
  intro call member left running
  by_cases stop : m = .stop
  · subst stop
    cases made
    rcases List.mem_append.mp member with old | new
    · exact polled call old left running
    · rw [standIn?] at stands
      split at stands
      · cases stands
      · next kept =>
          rw [List.mem_singleton.mp new] at left
          simp [Omission.call?, Omission.requester?, kept] at left
  · have counted : t.callers = s.callers := by simpa [stop] using (apply_counts reached made).1
    rcases apply_cases made with ⟨marks, u, change, rfl⟩ | same | ⟨-, same⟩
    · have member : call ∈ u.calls := member
      cases change.conduct with
      | aside calls | goOn _ calls => exact polled call (calls ▸ member) left running
      | step _ step calls =>
          rcases mem_setCall (calls ▸ member) with old | new
          · exact polled call old left running
          · exact new ▸ step.ne_called
      | drop _ _ _ calls =>
          exact polled call (mem_of_mem_withDropped (calls ▸ member) running) left running
      | ask requester calls =>
          rcases List.mem_append.mp (calls ▸ member) with old | new
          · exact polled call old left running
          · rw [List.mem_singleton.mp new] at left
            cases requester with
            | caller n =>
                have more : u.callers = s.callers + 1 := by
                  rw [callers, calls]
                  simp [callers, addCall, List.countP_append]
                exact absurd (more.symm.trans counted) (Nat.succ_ne_self _)
            | run | loop => cases left
    · exact polled call (same.calls ▸ member) left running
    · exact polled call (same.calls ▸ member) left running

/-! ## Every plan is carried out -/

/-- Every call in addition is useless where it is made. -/
def Admits : Supervisor → List Planned → Prop
  | _, [] => True
  | s, .move m :: plan => ∀ t, s.apply m = some t → t.Admits plan
  | s, .extra e :: plan => e.IsUseless s ∧ s.Admits plan

/-- From now on the calls that are left out are those that the plan has in addition. -/
structure Foresees (o : Omission) (s : Supervisor) (plan : List Planned) : Prop where
  calls : ∀ k, o.calls (s.callers + k) = (plan.filterMap Planned.stop?).getD k false
  waits : ∀ k, o.waits (s.waits.length + k) = (plan.filterMap Planned.wait?).getD k false

section Foresight

variable {item : Planned}

theorem Foresees.call (h : s.Foresees o (item :: plan)) {extra : Bool}
    (stop : item.stop? = some extra) : o.calls s.callers = extra := by
  have first := h.calls 0
  rwa [List.filterMap_cons_some stop] at first

theorem Foresees.wait (h : s.Foresees o (item :: plan)) {extra : Bool}
    (wait : item.wait? = some extra) : o.waits s.waits.length = extra := by
  have first := h.waits 0
  rwa [List.filterMap_cons_some wait] at first

/-- A call in addition is left out, if it is not a start. -/
theorem Foresees.extra {e : Extra} (h : s.Foresees o (.extra e :: plan)) :
    e = .start ∨ s.standIn? o e.move = none := by
  cases e with
  | start => exact .inl rfl
  | stop => exact .inr (if_pos (h.call rfl))
  | wait => exact .inr (if_pos (h.wait rfl))

/-- The plan goes on when its first item has been carried out. -/
theorem Foresees.next (h : s.Foresees o (item :: plan))
    (callers : t.callers = s.callers + item.stop?.toList.length)
    (waits : t.waits.length = s.waits.length + item.wait?.toList.length) : t.Foresees o plan where
  calls k := by
    rw [callers]
    cases stop : item.stop? with
    | none =>
        have same := h.calls k
        rwa [List.filterMap_cons_none stop] at same
    | some extra =>
        have later := h.calls (k + 1)
        rw [List.filterMap_cons_some stop] at later
        rw [Nat.add_assoc, Nat.add_comm _ k]
        exact later
  waits k := by
    rw [waits]
    cases wait : item.wait? with
    | none =>
        have same := h.waits k
        rwa [List.filterMap_cons_none wait] at same
    | some extra =>
        have later := h.waits (k + 1)
        rw [List.filterMap_cons_some wait] at later
        rw [Nat.add_assoc, Nat.add_comm _ k]
        exact later

end Foresight

theorem counts_of_standIn (reached : Reachable setup s) (stands : s.standIn? o m = some m')
    (made : s.apply m = some t) :
    t.callers = s.callers + (Planned.move m').stop?.toList.length ∧
      t.waits.length = s.waits.length + (Planned.move m').wait?.toList.length := by
  have counted := apply_counts reached made
  cases m with
  | stop | wait =>
      rw [standIn?] at stands
      split at stands <;> cases stands
      exact counted
  | progress p =>
      obtain ⟨p', -, rfl⟩ := Option.map_eq_some_iff.mp stands
      exact counted
  | drop index =>
      obtain ⟨call', -, rfl⟩ := Option.map_eq_some_iff.mp stands
      exact counted
  | _ =>
      cases stands
      exact counted

theorem apply_extra {e : Extra} (useless : e.IsUseless s) : ∃ t, s.apply e.move = some t := by
  cases e with
  | start => exact ⟨s, apply_start useless⟩
  | stop | wait => exact ⟨_, rfl⟩

theorem counts_of_extra (reached : Reachable setup s) {e : Extra} (made : s.apply e.move = some t) :
    t.callers = s.callers + (Planned.extra e).stop?.toList.length ∧
      t.waits.length = s.waits.length + (Planned.extra e).wait?.toList.length := by
  have counted := apply_counts reached made
  cases e <;> exact counted

/-- A call in addition begins nothing. -/
theorem isHarmless_of_useless {e : Extra} (useless : e.IsUseless s) (polled : s.IsPolled o)
    (made : s.apply e.move = some t) : t.IsHarmless o := by
  cases e with
  | start =>
      rw [Extra.move, apply_start useless] at made
      cases made
      exact polled.isHarmless
  | stop =>
      cases made
      exact fun _ _ _ _ _ => useless
  | wait =>
      cases made
      exact polled.isHarmless

/-- Wherever calls are made in addition, the history is possible with them. -/
theorem exists_carries {t' : Supervisor} (reached : Reachable setup s)
    (reached' : Reachable setup (s.without o)) (idle : s.IsIdle o) (foresees : s.Foresees o plan)
    (admits : (s.without o).Admits plan)
    (ran : (s.without o).applyAll (history plan) = some t') :
    ∃ moves u, Carries o s moves plan u := by
  induction plan generalizing s with
  | nil => exact ⟨[], s, .done s⟩
  | cons item plan ih =>
      -- what is left out comes to rest, and then the plan goes on
      have goOn : ∀ {t}, Reachable setup t → Reachable setup (t.without o) → t.IsHarmless o →
          t.callers = s.callers + item.stop?.toList.length →
          t.waits.length = s.waits.length + item.wait?.toList.length → (t.without o).Admits plan →
          (t.without o).applyAll (history plan) = some t' →
          ∃ moves u, Carries o t moves plan u := by
        intro t reached reached' harmless callers waits admits ran
        obtain ⟨own, u, settled, idle, callers', waits'⟩ :=
          exists_settled reached reached' harmless
        have same : t.without o = u.without o :=
          Option.some.inj (settled.kept reached reached')
        rw [same] at reached' admits ran
        obtain ⟨moves, v, carries⟩ := ih (reached.leads (leads_of_applyAll settled.ran)) reached'
          idle (foresees.next (callers'.trans callers) (waits'.trans waits)) admits ran
        exact ⟨own ++ moves, v, settled.append carries⟩
      cases item with
      | move m' =>
          obtain ⟨_, made', ran⟩ := Option.bind_eq_some_iff.mp ran
          obtain ⟨m, t, stands, made, rfl⟩ := exists_standIn reached reached' idle
            (fun stop => foresees.call (by rw [stop]; rfl))
            (fun wait => foresees.wait (by rw [wait]; rfl)) made'
          obtain ⟨callers, waits⟩ := counts_of_standIn reached stands made
          obtain ⟨moves, u, carries⟩ := goOn (reached.step made) (reached'.step made')
            (isPolled_of_standIn reached idle.isPolled stands made).isHarmless callers waits
            (admits _ made') ran
          exact ⟨m :: moves, u, .move stands made carries⟩
      | extra e =>
          obtain ⟨useless, admits⟩ := admits
          rcases foresees.extra with rfl | own
          · obtain ⟨moves, u, carries⟩ := goOn reached reached' idle.isPolled.isHarmless rfl rfl
              admits ran
            exact ⟨.start :: moves, u, .start useless carries⟩
          · have useless : e.IsUseless s := by cases e <;> exact useless
            obtain ⟨t, made⟩ := apply_extra useless
            have same := without_eq_of_own reached reached' own (isRedundant_extra e) made
            obtain ⟨callers, waits⟩ := counts_of_extra reached made
            rw [← same] at reached' admits ran
            obtain ⟨moves, u, carries⟩ := goOn (reached.step made) reached'
              (isHarmless_of_useless useless idle.isPolled made) callers waits admits ran
            exact ⟨e.move :: moves, u, .call own made carries⟩

/-! ## From the beginning -/

theorem foresees_create (setup : Setup) (plan : List Planned) :
    (create setup).Foresees (omission plan) plan where
  calls k := by
    rw [show (create setup).callers + k = k from Nat.zero_add k]
    rfl
  waits k := by
    rw [show (create setup).waits.length + k = k from Nat.zero_add k]
    rfl

theorem isIdle_create (setup : Setup) (o : Omission) : (create setup).IsIdle o where
  calls i call found := by cases found
  waits n _ := if_neg fun guard => by cases guard.1

/-- Redundant and illegal calls change nothing but their own results. -/
structure IgnoresRedundantCalls (setup : Setup) : Prop where
  /-- Some moves that carry a plan out are a history, and so is what the plan has without the calls
  in addition. It ends in the state that is reached with them, but for these calls. -/
  ignored : ∀ {o : Omission} {moves : List Move} {plan : List Planned} {s : Supervisor},
    Carries o (create setup) moves plan s →
      (create setup).applyAll moves = some s ∧
        (create setup).applyAll (history plan) = some (s.without o)
  /-- Wherever illegal or redundant calls are put into a history, some moves carry this out. -/
  possible : ∀ {plan : List Planned} {t : Supervisor},
    (create setup).applyAll (history plan) = some t → (create setup).Admits plan →
      ∃ moves s, Carries (omission plan) (create setup) moves plan s ∧
        s.without (omission plan) = t
  /-- No call in addition ever carries the teardown out. -/
  aside : ∀ {o : Omission} {moves : List Move} {plan : List Planned} {s : Supervisor},
    Carries o (create setup) moves plan s →
      ∀ call ∈ s.calls, o.call? call = none → call.state.isAtWork = false
  /-- The same events are published. -/
  events : ∀ (o : Omission) (s : Supervisor), (s.without o).published = s.published
  /-- The results of the calls in addition are all that the journal lacks without them. -/
  results : ∀ (o : Omission) (entry : Entry), o.written? entry = none →
    (∃ n verdict, o.calls n = true ∧ entry.mark = .stopResolved (.caller n) verdict) ∨
      ∃ n, o.waits n = true ∧ entry.mark = .waitResolved n

theorem written?_eq_none {entry : Entry} (left : o.written? entry = none) :
    (∃ n verdict, o.calls n = true ∧ entry.mark = .stopResolved (.caller n) verdict) ∨
      ∃ n, o.waits n = true ∧ entry.mark = .waitResolved n := by
  obtain ⟨time, mark⟩ := entry
  rw [Omission.written?, Option.map_eq_none_iff] at left
  cases mark with
  | stopResolved requester verdict => cases requester with
    | caller n =>
        refine .inl ⟨n, verdict, ?_, rfl⟩
        simpa [Omission.mark?, Omission.requester?] using left
    | run | loop => cases left
  | waitResolved n => exact .inr ⟨n, by simpa [Omission.mark?] using left, rfl⟩
  | _ => cases left

theorem ignoresRedundantCalls (setup : Setup) : IgnoresRedundantCalls setup where
  ignored carries := ⟨carries.ran, carries.kept .init .init⟩
  possible {plan t} ran admits := by
    obtain ⟨moves, s, carries⟩ := exists_carries (o := omission plan) .init .init
      (isIdle_create setup _) (foresees_create setup plan) admits ran
    have same := (carries.kept .init .init).symm.trans ran
    exact ⟨moves, s, carries, Option.some.inj same⟩
  aside carries :=
    leavesAside_of_reachable (reachable_of_applyAll carries.ran)
      (reachable_of_applyAll (carries.kept .init .init))
  events _ _ := published_without
  results _ _ := written?_eq_none

end Supervisor

end Supervision
