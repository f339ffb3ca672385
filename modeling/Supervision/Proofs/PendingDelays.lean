import Supervision.Proofs.Deadlines
import Supervision.Proofs.Loads

/-!
# Pending delays do not hold a teardown up

A delay is an entry of the barrier that a teardown waits for, as a run is. It is given up as soon
as the lifetime scope is cancelled. While there is a delay to give up, the supervisor is not at
rest, so the clock stands still. The delay does not come due then, and the timer for the grace
period does not either. Nor can a callback decide on a new delay: the token of its run is cancelled
with the scope, and a restarter asks whether the supervisor is stopped.

A callback that has decided on a delay before the stop sets the timer of it all the same, even if
the supervisor is stopped by then. This delay is given up like the others.

Results:
1. `apply_delays`: once the end has begun, a move leaves the delays alone, or it ends one of them,
   or it sets the timer of one.
2. `delays_of_leads`: what becomes of delays that were not over when the end began.
3. `exists_settled_now`: all delays can be given up at once.
4. `endsAtOnce`: a teardown is over at the time at which the last work routine has returned.
5. `abandonsDelays`: all of this together.
6. `timer_set_after_stop`: what a stop and the end of a grace period do not keep from happening.
-/

namespace Supervision

/-- How many steps a delay is away from its end when it is to be given up. -/
def DelayState.remaining : DelayState → Nat
  | .decided => 2
  | .pending => 1
  | .fired | .abandoned => 0

namespace Supervisor

variable {setup : Setup} {s t u : Supervisor} {m : Move} {k : Nat} {d : Delay}

/-! ## Time -/

/-- Time passes only at rest. -/
theorem apply_now (h : s.apply m = some t) : t.now = s.now ∨ s.isQuiescent = true := by
  cases compound : m.isCompound with
  | false =>
      obtain ⟨marks, u, change, rfl⟩ := apply_advances compound h
      exact change.now_cases.imp_right (·.1)
  | true => cases apply_compound compound h with
    | idle prepared =>
        obtain ⟨_, _, _, rfl⟩ := prepared
        exact .inl rfl
    | submit prepared task origin after =>
        obtain ⟨_, _, _, rfl⟩ := prepared
        exact .inl (after ▸ (submit_keeps _ task origin).now)
    | start created started =>
        rw [start, created] at started
        cases started
        exact .inl (launches_keep s.pending _).now
    | leave left =>
        obtain ⟨r, scope, fault, found, phase, ready⟩ := exists_calling left
        rw [leave_eq found phase ready, Option.some.injEq] at left
        exact .inl (left ▸ (afterCallback_journal _ _ scope fault).2)

/-- Between two times there is an instant of rest at the first one. -/
theorem Leads.exists_instant (h : Leads s t) :
    t.now = s.now ∨ ∃ u, Leads s u ∧ Leads u t ∧ u.isQuiescent = true ∧ u.now = s.now := by
  induction h with
  | refl => exact .inl rfl
  | @step u v m before applied ih =>
      rcases ih with same | ⟨w, first, second, still, now⟩
      · rcases apply_now applied with now | still
        · exact .inl (now.trans same)
        · exact .inr ⟨u, before, (Leads.refl u).step applied, still, same⟩
      · exact .inr ⟨w, first, second.step applied, still, now⟩

/-! ## The end has begun -/

/-- The teardown has begun, or the lifetime scope is cancelled. -/
def IsEnding (s : Supervisor) : Prop := s.stage = .stopped ∨ s.scopeIsCancelled = true

/-- A lifetime scope that is cancelled stays so. -/
theorem Chain.scopeIsCancelled (h : Chain s t) (cancelled : s.scopeIsCancelled = true) :
    t.scopeIsCancelled = true := by
  rw [Supervisor.scopeIsCancelled, Bool.or_eq_true] at cancelled ⊢
  refine cancelled.imp h.onward.cancelled fun ended => ?_
  have present : s.TriggerIsPresent .parentCancelled := ended
  exact h.triggerIsPresent present

theorem IsEnding.chain (ending : s.IsEnding) (h : Chain s t) : t.IsEnding :=
  ending.imp h.onward.stopped h.scopeIsCancelled

/-- A call that has not got beyond the announcement carries the teardown out as long as the scope is
not cancelled. It cannot be dropped there. -/
theorem Attained.exists_announced (h : Attained setup s) (stopped : s.stage = .stopped)
    (kept : s.scopeCancelled = false) :
    ∃ (index : Nat) (owner : Requester), s.calls[index]? = some ⟨owner, .announced, false⟩ := by
  have inv := h.teardownInvariant
  have torn : ¬ s.IsTornDown := fun torn => by
    rw [torn.cancelled] at kept
    cases kept
  obtain ⟨-, story, -, -, stands⟩ := h.hasStory
  cases stands with
  | quiet stage => exact absurd stopped stage
  | ended _ done => exact absurd (inv.closed (inv.done done)) torn
  | @underway index owner state dropped _ _ found busy =>
      have passed := inv.calls _ (List.mem_of_getElem? found)
      cases state with
      | announced => cases dropped with
        | false => exact ⟨index, owner, found⟩
        | true => cases (h.mayBeDropped found rfl).1
      | draining => exact absurd passed torn
      | awaitingLoop => exact absurd passed.1 torn
      | called | joining | resolved => cases busy

/-- At rest all delays are over once the end has begun. -/
theorem IsEnding.isSettled (ending : s.IsEnding) (h : Reachable setup s)
    (quiescent : s.isQuiescent = true) : s.IsSettled := by
  refine isSettled_of_quiescent quiescent (ending.elim (fun stopped => ?_) id)
  cases kept : s.scopeCancelled with
  | true => simp [scopeIsCancelled, kept]
  | false =>
      obtain ⟨index, owner, found⟩ := h.attained.exists_announced stopped kept
      have idle := isQuiescent_iff.mp quiescent (.proceed index)
      simp [progress, proceed, found] at idle

/-- A delay whose timer is still to be set is not due, for no time passes until it is. -/
theorem Attained.lt_due_of_decided (h : Attained setup s) (member : d ∈ s.delays)
    (decided : d.state = .decided) : s.now < d.due := by
  refine h.invariant (P := fun s => ∀ d ∈ s.delays, d.state = .decided → s.now < d.due)
    (fun _ none => by cases none) ?_ d member decided
  intro s t marks _ inv change d member decided
  rcases change.decided_cases member decided with old | ⟨-, -, early⟩
  · rcases change.now_cases with now | ⟨quiescent, -⟩
    · exact now ▸ inv d old decided
    · exact absurd decided (delay_of_quiescent quiescent old)
  · exact early

/-! ## What a move does to the delays -/

theorem getElem?_setDelay (s : Supervisor) (index k : Nat) (state : DelayState) :
    (s.setDelay index state).delays[k]? =
      if k = index then s.delays[k]?.map fun d => { d with state } else s.delays[k]? := by
  rw [setDelay, List.getElem?_modify]
  rcases eq_or_ne k index with rfl | differ
  · rw [if_pos rfl]
    simp
  · rw [if_neg differ]
    simp [differ.symm]

theorem getElem?_setDelay_self (found : s.delays[k]? = some d) (state : DelayState) :
    (s.setDelay k state).delays[k]? = some { d with state } := by
  rw [getElem?_setDelay, if_pos rfl, found]
  rfl

theorem getElem?_setDelay_ne {index : Nat} (differ : k ≠ index) (state : DelayState) :
    (s.setDelay index state).delays[k]? = s.delays[k]? := by
  rw [getElem?_setDelay, if_neg differ]

/-- Once the end has begun no restarter decides for a restart. -/
theorem IsEnding.decision_ne_again (ending : s.IsEnding) (r : Run) (fault : Option Fault)
    (index draw streak : Nat) (delay : Duration) :
    s.decision r fault index draw ≠ .again streak delay := by
  intro again
  obtain ⟨kept, alive⟩ := decision_again again
  rcases ending with stopped | cancelled
  · simp [isStopped, stopped] at alive
  · simp [tokenIsCancelled, cancelled] at kept

theorem IsEnding.handTo_delays (ending : s.IsEnding) {number index draw : Nat}
    (h : s.handTo number index draw = some t) : t.delays = s.delays := by
  obtain ⟨r, scope, fault, streaks, -, -, enacted | ⟨payload, -, left⟩⟩ := handTo_cases h
  · cases decided : s.decision r fault index draw with
    | again streak delay =>
        exact absurd decided (ending.decision_ne_again r fault index draw streak delay)
    | overflow error =>
        rw [decided] at enacted
        cases enacted
    | unwanted | cancelled | stopped | exhausted =>
        rw [decided] at enacted
        cases enacted
        rfl
  · exact (leave_steps left).keeps.delays

/-- What a move does to the delays once the end has begun. -/
inductive DelayStep (s : Supervisor) (m : Move) (t : Supervisor) : Prop
  | keep (same : t.delays = s.delays)
  | abandon {k : Nat} {d : Delay} (own : m = .progress (.abandon k))
      (found : s.delays[k]? = some d) (pending : d.state = .pending)
      (after : t = s.setDelay k .abandoned)
  | arm {k : Nat} {d : Delay} (own : m = .progress (.arm k)) (found : s.delays[k]? = some d)
      (decided : d.state = .decided) (after : t = s.setDelay k .pending)
  | fire {k : Nat} {d : Delay} (found : s.delays[k]? = some d) (pending : d.state = .pending)
      (due : d.due ≤ s.now) (after : t.delays = (s.setDelay k .fired).delays)

theorem apply_delays (ending : s.IsEnding) (h : s.apply m = some t) : DelayStep s m t := by
  cases compound : m.isCompound with
  | false => cases simple_cases compound h with
    | steps steps => exact .keep steps.keeps.delays
    | abandon own found pending _ after => exact .abandon own found pending after
    | arm own found decided after => exact .arm own found decided after
    | feed _ _ aside =>
        obtain ⟨_, _, rfl⟩ := aside
        exact .keep rfl
  | true => cases m with
    | submit task =>
        cases h
        exact .keep (submit_keeps ..).delays
    | start =>
        cases stage : s.stage with
        | created =>
            rw [apply, start, stage] at h
            cases h
            exact .keep (launches_keep ..).delays
        | started | stopped =>
            rw [apply, start, stage] at h
            cases h
            exact .keep rfl
    | restart => exact .keep (restart_keeps h).delays
    | handTo => exact .keep (ending.handTo_delays h)
    | progress p => cases p with
      | fire k =>
          obtain ⟨d, found, pending, due, rfl⟩ := fire_eq h
          exact .fire found pending due (submit_keeps ..).delays
      | _ => cases compound
    | _ => cases compound

/-- No delay is added. -/
theorem DelayStep.length (h : DelayStep s m t) : t.delays.length = s.delays.length := by
  cases h with
  | keep same => rw [same]
  | abandon _ _ _ after | arm _ _ _ after =>
      rw [after]
      exact List.length_modify ..
  | fire _ _ _ after =>
      rw [after]
      exact List.length_modify ..

/-- What a move does to one delay once the end has begun. -/
inductive DelayTurn (s : Supervisor) (m : Move) (t : Supervisor) (k : Nat) (d : Delay) : Prop
  | kept (same : t.delays[k]? = some d)
  | abandoned (own : m = .progress (.abandon k)) (pending : d.state = .pending)
      (after : t = s.setDelay k .abandoned)
  | armed (own : m = .progress (.arm k)) (decided : d.state = .decided)
      (after : t = s.setDelay k .pending)
  | fired (pending : d.state = .pending) (due : d.due ≤ s.now)

theorem DelayStep.turn (h : DelayStep s m t) (found : s.delays[k]? = some d) :
    DelayTurn s m t k d := by
  cases h with
  | keep same => exact .kept (same ▸ found)
  | @abandon index _ own known pending after =>
      rcases eq_or_ne k index with rfl | differ
      · obtain rfl := Option.some.inj (found.symm.trans known)
        exact .abandoned own pending after
      · exact .kept (after ▸ (getElem?_setDelay_ne differ _).trans found)
  | @arm index _ own known decided after =>
      rcases eq_or_ne k index with rfl | differ
      · obtain rfl := Option.some.inj (found.symm.trans known)
        exact .armed own decided after
      · exact .kept (after ▸ (getElem?_setDelay_ne differ _).trans found)
  | @fire index _ known pending due after =>
      rcases eq_or_ne k index with rfl | differ
      · obtain rfl := Option.some.inj (found.symm.trans known)
        exact .fired pending due
      · exact .kept (after ▸ (getElem?_setDelay_ne differ _).trans found)

/-- A delay that is over remains as it is. -/
theorem DelayTurn.of_over (h : DelayTurn s m t k d)
    (past : d.state = .fired ∨ d.state = .abandoned) : t.delays[k]? = some d := by
  cases h with
  | kept same => exact same
  | abandoned _ state | armed _ state | fired state =>
      rcases past with past | past <;> rw [state] at past <;> cases past

/-! ## What becomes of the delays -/

/-- No pending delay is due. -/
def NoneDue (s : Supervisor) : Prop := ∀ d ∈ s.delays, d.state = .pending → s.now < d.due

theorem NoneDue.lt_due (noneDue : s.NoneDue) (h : Attained setup s) (member : d ∈ s.delays)
    (unspent : d.state = .decided ∨ d.state = .pending) : s.now < d.due :=
  unspent.elim (h.lt_due_of_decided member) (noneDue d member)

/-- What has become of the delays of a state in a later one. -/
structure DelaysEnd (s t : Supervisor) : Prop where
  /-- Nobody has decided on a new delay. -/
  length : t.delays.length = s.delays.length
  /-- A delay that was over remains as it is. -/
  spent : ∀ (k : Nat) (d : Delay), s.delays[k]? = some d →
    d.state = .fired ∨ d.state = .abandoned → t.delays[k]? = some d
  /-- A delay is given up, or it is still pending and no time has passed. -/
  pending : ∀ (k : Nat) (d : Delay), s.delays[k]? = some d → d.state = .pending →
    t.delays[k]? = some { d with state := .abandoned } ∨
      (t.delays[k]? = some d ∧ t.now = s.now)
  /-- This is also what becomes of a delay whose timer was still to be set. -/
  decided : ∀ (k : Nat) (d : Delay), s.delays[k]? = some d → d.state = .decided →
    t.delays[k]? = some { d with state := .abandoned } ∨
      ((t.delays[k]? = some d ∨ t.delays[k]? = some { d with state := .pending }) ∧
        t.now = s.now)

/-- A delay is over, or it was there when the end began and no time has passed. -/
theorem DelaysEnd.cases (h : DelaysEnd s t) (found : t.delays[k]? = some d) :
    (d.state = .fired ∨ d.state = .abandoned) ∨
      ∃ before ∈ s.delays, (before.state = .decided ∨ before.state = .pending) ∧
        d.due = before.due ∧ t.now = s.now := by
  have bound : k < s.delays.length := h.length ▸ (List.getElem?_eq_some_iff.mp found).1
  have known : s.delays[k]? = some s.delays[k] := List.getElem?_eq_getElem bound
  generalize s.delays[k] = before at known
  have member := List.mem_of_getElem? known
  cases state : before.state with
  | pending =>
      rcases h.pending k before known state with gone | ⟨same, now⟩
      · obtain rfl := Option.some.inj (found.symm.trans gone)
        exact .inl (.inr rfl)
      · obtain rfl := Option.some.inj (found.symm.trans same)
        exact .inr ⟨d, member, .inr state, rfl, now⟩
  | decided =>
      rcases h.decided k before known state with gone | ⟨same | armed, now⟩
      · obtain rfl := Option.some.inj (found.symm.trans gone)
        exact .inl (.inr rfl)
      · obtain rfl := Option.some.inj (found.symm.trans same)
        exact .inr ⟨d, member, .inl state, rfl, now⟩
      · obtain rfl := Option.some.inj (found.symm.trans armed)
        exact .inr ⟨before, member, .inl state, rfl, now⟩
  | fired =>
      obtain rfl := Option.some.inj (found.symm.trans (h.spent k before known (.inl state)))
      exact .inl (.inl state)
  | abandoned =>
      obtain rfl := Option.some.inj (found.symm.trans (h.spent k before known (.inr state)))
      exact .inl (.inr state)

/-- A delay that is pending later on was there when the end began, so it is not due. -/
theorem DelaysEnd.not_due (h : DelaysEnd s t) (attained : Attained setup s) (noneDue : s.NoneDue)
    (found : t.delays[k]? = some d) (pending : d.state = .pending) : t.now < d.due := by
  rcases h.cases found with past | ⟨before, member, unspent, due, now⟩
  · rcases past with past | past <;> rw [pending] at past <;> cases past
  · rw [now, due]
    exact noneDue.lt_due attained member unspent

theorem DelaysEnd.refl (s : Supervisor) : DelaysEnd s s :=
  ⟨rfl, fun _ _ found _ => found, fun _ _ found _ => .inr ⟨found, rfl⟩,
    fun _ _ found _ => .inr ⟨.inl found, rfl⟩⟩

/-- One more move does nothing else to the delays. -/
theorem DelaysEnd.step (h : DelaysEnd s t) (first : Reachable setup s) (noneDue : s.NoneDue)
    (reached : Reachable setup t) (ending : t.IsEnding) (applied : t.apply m = some u) :
    DelaysEnd s u := by
  -- as long as a delay is not over, time stands still
  have still : ∀ {k : Nat} {d : Delay}, t.delays[k]? = some d →
      d.state = .decided ∨ d.state = .pending → u.now = t.now := by
    intro k d found unspent
    refine (apply_now applied).resolve_right fun quiescent => ?_
    have past := ending.isSettled reached quiescent d (List.mem_of_getElem? found)
    rcases unspent with state | state <;> simp [state] at past
  have early : ∀ {k : Nat} {d : Delay}, t.delays[k]? = some d → d.state = .pending →
      ¬ d.due ≤ t.now :=
    fun found state => Nat.not_le_of_lt (h.not_due first.attained noneDue found state)
  have step := apply_delays ending applied
  refine ⟨step.length.trans h.length, fun k d found past => ?_, fun k d found state => ?_,
    fun k d found state => ?_⟩
  · exact (step.turn (h.spent k d found past)).of_over past
  · rcases h.pending k d found state with gone | ⟨there, now⟩
    · exact .inl ((step.turn gone).of_over (.inr rfl))
    · cases step.turn there with
      | kept same => exact .inr ⟨same, (still there (.inr state)).trans now⟩
      | abandoned _ _ after => exact .inl (after ▸ getElem?_setDelay_self there _)
      | armed _ decided =>
          rw [state] at decided
          cases decided
      | fired _ due => exact absurd due (early there state)
  · rcases h.decided k d found state with gone | ⟨there | there, now⟩
    · exact .inl ((step.turn gone).of_over (.inr rfl))
    · have now := (still there (.inl state)).trans now
      cases step.turn there with
      | kept same => exact .inr ⟨.inl same, now⟩
      | armed _ _ after => exact .inr ⟨.inr (after ▸ getElem?_setDelay_self there _), now⟩
      | abandoned _ pending | fired pending =>
          rw [state] at pending
          cases pending
    · cases step.turn there with
      | kept same => exact .inr ⟨.inr same, (still there (.inr rfl)).trans now⟩
      | abandoned _ _ after => exact .inl (after ▸ getElem?_setDelay_self there _)
      | armed _ decided => cases decided
      | fired _ due => exact absurd due (early there rfl)

/-- What becomes of delays that were not over when the end began. -/
theorem delays_of_leads (reached : Reachable setup s) (ending : s.IsEnding) (noneDue : s.NoneDue)
    (later : Leads s t) : DelaysEnd s t := by
  induction later with
  | refl => exact .refl s
  | @step t u m before applied ih =>
      exact ih.step reached noneDue (reached.leads before) (ending.chain (chain_of_leads before))
        applied

/-- After the end has begun nothing ends a delay but its abandonment, and that changes nothing else.
Until then nothing happens to it but that its timer is set. -/
theorem DelaysEnd.ended_by (h : DelaysEnd s t) (first : Reachable setup s) (noneDue : s.NoneDue)
    (ending : t.IsEnding) (found : t.delays[k]? = some d) (applied : t.apply m = some u)
    (ended : u.delays[k]? ≠ some d) :
    (m = .progress (.abandon k) ∧ u = t.setDelay k .abandoned) ∨
      (d.state = .decided ∧ m = .progress (.arm k) ∧ u = t.setDelay k .pending) := by
  cases (apply_delays ending applied).turn found with
  | kept same => exact absurd same ended
  | abandoned own _ after => exact .inl ⟨own, after⟩
  | armed own decided after => exact .inr ⟨decided, own, after⟩
  | fired pending due =>
      exact absurd due (Nat.not_le_of_lt (h.not_due first.attained noneDue found pending))

/-! ## Giving all delays up at once -/

/-- The states differ in nothing that has to do with runs, events or time. -/
structure Unmoved (s t : Supervisor) : Prop where
  now : t.now = s.now
  runs : t.runs.length = s.runs.length
  published : t.published = s.published

/-- How many steps all delays are away from their ends. -/
def delaysLeft (s : Supervisor) : Nat := (s.delays.map (·.state.remaining)).sum

theorem delaysLeft_setDelay (found : s.delays[k]? = some d) {state : DelayState}
    (nearer : state.remaining < d.state.remaining) :
    (s.setDelay k state).delaysLeft < s.delaysLeft := by
  have set : (s.setDelay k state).delays = s.delays.set k { d with state } := by
    rw [setDelay, List.modify_eq_set_getElem?, found]
    rfl
  have changed := sum_map_set (fun d : Delay => d.state.remaining) found { d with state }
  rw [delaysLeft, delaysLeft, set]
  dsimp only at changed
  omega

/-- Once the scope is cancelled a delay that is not over can take a step to its end. -/
theorem exists_setDelay (cancelled : s.scopeIsCancelled = true) (unsettled : ¬ s.IsSettled) :
    ∃ p k state, s.apply (.progress p) = some (s.setDelay k state) ∧
      (s.setDelay k state).delaysLeft < s.delaysLeft := by
  rw [IsSettled] at unsettled
  push Not at unsettled
  obtain ⟨d, member, unfired, unabandoned⟩ := unsettled
  obtain ⟨k, found⟩ := List.mem_iff_getElem?.mp member
  cases state : d.state with
  | fired => exact absurd state unfired
  | abandoned => exact absurd state unabandoned
  | decided =>
      exact ⟨.arm k, k, .pending, by simp [apply, progress, arm, found, state],
        delaysLeft_setDelay found (by simp [state, DelayState.remaining])⟩
  | pending =>
      exact ⟨.abandon k, k, .abandoned, by simp [apply, progress, abandon, found, state, cancelled],
        delaysLeft_setDelay found (by simp [state, DelayState.remaining])⟩

/-- Once the scope is cancelled all delays can be given up, one after the other. -/
theorem exists_settled_of_cancelled (cancelled : s.scopeIsCancelled = true) :
    ∃ (steps : List Progress) (u : Supervisor), s.applyAll (steps.map .progress) = some u ∧
      u.IsSettled ∧ Unmoved s u := by
  generalize left : s.delaysLeft = total
  induction total using Nat.strongRecOn generalizing s with
  | ind total ih =>
      by_cases settled : s.IsSettled
      · exact ⟨[], s, rfl, settled, ⟨rfl, rfl, rfl⟩⟩
      · obtain ⟨p, k, state, stepped, nearer⟩ := exists_setDelay cancelled settled
        obtain ⟨steps, u, ran, settled, unmoved⟩ :=
          ih _ (left ▸ nearer) (s := s.setDelay k state) cancelled rfl
        refine ⟨p :: steps, u, Option.bind_eq_some_iff.mpr ⟨_, stepped, ran⟩, settled, ?_⟩
        exact ⟨unmoved.now, unmoved.runs, unmoved.published⟩

/-- All delays can be given up at once; no run is launched for it and no event is published. -/
theorem exists_settled_now (reached : Reachable setup s) (ending : s.IsEnding) :
    ∃ (steps : List Progress) (u : Supervisor), s.applyAll (steps.map .progress) = some u ∧
      u.IsSettled ∧ Unmoved s u := by
  cases cancelled : s.scopeIsCancelled with
  | true => exact exists_settled_of_cancelled cancelled
  | false =>
      -- the call that carries the teardown out cancels the scope first
      have stopped : s.stage = .stopped := ending.resolve_right (by simp [cancelled])
      have kept : s.scopeCancelled = false := (Bool.or_eq_false_iff.mp cancelled).1
      obtain ⟨index, owner, found⟩ := reached.attained.exists_announced stopped kept
      have cancels : s.apply (.progress (.proceed index)) = some (s.cancelAll index) := by
        simp [apply, progress, proceed, found]
      rw [cancelAll_eq] at cancels
      generalize after : (s.withAllCancelled.setCall index (.draining s.deadline)).writeAll
        [.recorded (.runsCancelled s.registry.runs.length)] = t at cancels
      have cancelled : t.scopeIsCancelled = true := by rw [← after]; rfl
      obtain ⟨steps, u, ran, settled, unmoved⟩ := exists_settled_of_cancelled cancelled
      refine ⟨.proceed index :: steps, u, Option.bind_eq_some_iff.mpr ⟨t, cancels, ran⟩, settled,
        unmoved.now.trans ?_, unmoved.runs.trans ?_, unmoved.published.trans ?_⟩
      · rw [← after]
        rfl
      · rw [← after]
        exact length_runs_foldl_cancelToken ..
      · rw [← after, published_writeAll]
        exact List.append_nil _

/-! ## The end of a teardown -/

theorem Chain.mem_journal (h : Chain s t) {entry : Entry} (member : entry ∈ t.journal) :
    entry ∈ s.journal ∨ s.now ≤ entry.time := by
  induction h with
  | refl => exact .inl member
  | tail chain advances ih =>
      obtain ⟨marks, u, change, rfl⟩ := advances
      rcases mem_journal_writeAll.mp member with old | ⟨now, -⟩
      · exact ih (change.journal_eq ▸ old)
      · exact .inr (now ▸ (Chain.now_le chain).trans change.now_le)

theorem Chain.allReturned (h : Chain s t) (stopped : s.stage = .stopped)
    (returned : s.AllReturned) : t.AllReturned := by
  induction h with
  | refl => exact returned
  | tail chain advances ih =>
      obtain ⟨marks, u, change, rfl⟩ := advances
      intro n r' found
      obtain ⟨r, known, evolves⟩ := change.exists_run? ((Chain.onward chain).stopped stopped) found
      obtain ⟨fault, ended⟩ := Option.isSome_iff_exists.mp (ih n r known)
      exact Option.isSome_iff_exists.mpr ⟨fault, evolves.fault fault ended⟩

/-- A call that gets its result after the stop is told it. -/
theorem CallStep.tells {requester : Requester} {before after : CallState} {told : List Mark}
    {stage : Stage} {done : Bool} (h : s.CallStep requester before after told stage done)
    (stopped : s.stage = .stopped) {verdict : Verdict} (resolved : after = .resolved verdict) :
    verdict ≠ .notStarted ∧ .stopResolved requester verdict ∈ told := by
  cases h with
  | refuse created =>
      rw [stopped] at created
      cases created
  | announce | join | cancelAll | drained => cases resolved
  | joined | giveUp | conclude =>
      cases resolved
      exact ⟨Verdict.noConfusion, by simp⟩

/-- A call that is open after the stop stays so, or it is told a result at some later time. -/
def IsAnswered (s t : Supervisor) (index : Nat) (requester : Requester) : Prop :=
  ∃ state dropped, t.calls[index]? = some ⟨requester, state, dropped⟩ ∧
    ∀ verdict, state = .resolved verdict → verdict ≠ .notStarted ∧
      ∃ time, s.now ≤ time ∧ ⟨time, .stopResolved requester verdict⟩ ∈ t.journal

theorem Chain.isAnswered (h : Chain s t) (stopped : s.stage = .stopped) {index : Nat}
    {requester : Requester} {state : CallState} {dropped : Bool}
    (found : s.calls[index]? = some ⟨requester, state, dropped⟩)
    (unresolved : ∀ verdict, state ≠ .resolved verdict) : IsAnswered s t index requester := by
  induction h with
  | refl =>
      exact ⟨state, dropped, found, fun verdict resolved => absurd resolved (unresolved verdict)⟩
  | @tail t v chain advances ih =>
      obtain ⟨marks, u, change, rfl⟩ := advances
      obtain ⟨before, dropped, there, answered⟩ := ih
      have still : ∀ verdict, before = .resolved verdict → verdict ≠ .notStarted ∧
          ∃ time, s.now ≤ time ∧
            ⟨time, .stopResolved requester verdict⟩ ∈ (u.writeAll marks).journal := by
        intro verdict resolved
        obtain ⟨passed, time, late, told⟩ := answered verdict resolved
        exact ⟨passed, time, late, mem_journal_writeAll.mpr (.inl (change.journal_eq ▸ told))⟩
      have conduct := change.conduct
      generalize told : marks.filter Mark.isTeardown = writes at conduct
      cases conduct with
      | aside calls | goOn _ calls => exact ⟨before, dropped, calls ▸ there, still⟩
      | ask _ calls => exact ⟨before, dropped, calls ▸ getElem?_addCall there _, still⟩
      | @drop _ _ changed _ _ _ calls =>
          obtain ⟨dropped, there⟩ := exists_getElem?_withDropped there changed
          exact ⟨before, dropped, calls ▸ there, still⟩
      | @step owner _ after changed known step calls =>
          rcases eq_or_ne index changed with rfl | differ
          · rw [there, Option.some.injEq, Call.mk.injEq] at known
            obtain ⟨rfl, rfl, rfl⟩ := known
            refine ⟨after, false, calls ▸ getElem?_setCall_self there after,
              fun verdict resolved => ?_⟩
            obtain ⟨passed, member⟩ := step.tells ((Chain.onward chain).stopped stopped) resolved
            refine ⟨passed, u.now, (Chain.now_le chain).trans change.now_le,
              mem_journal_writeAll.mpr (.inr ⟨rfl, ?_⟩)⟩
            rw [← told] at member
            exact List.mem_of_mem_filter member
          · exact ⟨before, dropped, calls ▸ (getElem?_setCall_ne differ after).trans there, still⟩

/-- A teardown publishes one terminal event. -/
theorem HasStory.terminal_eq (h : HasStory s) {e e' : Event} (told : e ∈ s.published)
    (told' : e' ∈ s.published) (terminal : e.isTerminal = true) (terminal' : e'.isTerminal = true) :
    s.done = true ∧ e = e' := by
  have picked : ∀ {e : Event}, e ∈ s.published → e.isTerminal = true →
      e ∈ s.published.filter Event.isTeardown ∧ ∀ trigger : Trigger, e ≠ trigger.event := by
    intro e told terminal
    refine ⟨List.mem_filter.mpr ⟨told, by simp [Event.isTeardown, terminal]⟩, ?_⟩
    rintro trigger rfl
    cases terminal
  obtain ⟨member, own⟩ := picked told terminal
  obtain ⟨member', own'⟩ := picked told' terminal'
  rcases h.events with ⟨-, story⟩ | ⟨trigger, -, ⟨-, story⟩ | ⟨last, done, -, -, story⟩⟩
  · rw [story] at member
    cases member
  · rw [story, List.mem_singleton] at member
    exact absurd member (own trigger)
  · rw [story] at member member'
    simp only [List.mem_cons, own trigger, own' trigger, List.not_mem_nil, false_or,
      or_false] at member member'
    exact ⟨done, member.trans member'.symm⟩

/-- The end of the grace period of a teardown is still to come, if there is one. -/
def IsInGrace (s : Supervisor) : Prop :=
  ∀ start ∈ s.journal.timesOf .shutdownRequested, ∀ deadline ∈ s.deadlineFrom start,
    s.now < deadline

theorem Chain.timesOf (h : Chain s t) {kind : EventKind} {time : Nat}
    (told : time ∈ s.journal.timesOf kind) : time ∈ t.journal.timesOf kind := by
  obtain ⟨m, e, member, published, about⟩ := Journal.mem_timesOf.mp told
  exact Journal.mem_timesOf.mpr ⟨m, e, h.journal.subset member, published, about⟩

/-- Within the grace period nobody gives up. -/
theorem IsInGrace.kind_ne_graceExceeded (inGrace : s.IsInGrace) (reached : Reachable setup s)
    (stopped : s.stage = .stopped) (later : Leads s t) (now : t.now = s.now) :
    ∀ e ∈ t.published, e.kind ≠ .graceExceeded := by
  intro e told kind
  have chain := chain_of_leads later
  have after := (reached.leads later).attained
  obtain ⟨trigger, request⟩ : ∃ trigger : Trigger, trigger.event ∈ s.published := by
    have listed : ∃ trigger : Trigger, trigger.event ∈ s.published.filter Event.isTeardown := by
      rcases reached.attained.hasStory.events with
        ⟨other, -⟩ | ⟨trigger, -, ⟨-, story⟩ | ⟨_, -, -, -, story⟩⟩
      · exact absurd stopped other
      · exact ⟨trigger, story ▸ List.mem_singleton_self _⟩
      · exact ⟨trigger, story ▸ List.mem_cons_self⟩
    exact listed.imp fun _ member => List.mem_of_mem_filter member
  obtain ⟨start, begun⟩ := Journal.exists_mem_timesOf.mpr ⟨trigger.event, request, rfl⟩
  obtain ⟨past, gaveUp⟩ := Journal.exists_mem_timesOf.mpr ⟨e, told, kind⟩
  obtain ⟨index, owner, error, dropped, found⟩ := after.hasStory.exists_overrun told kind
  have limited := after.gracePeriod_isSome (List.mem_of_getElem? found) rfl
  obtain ⟨grace, limited⟩ := Option.isSome_iff_exists.mp limited
  have deadline : ∀ {u : Supervisor}, u.setup = setup →
      u.deadlineFrom start = some (start + grace.timerMillis) := fun same => by
    rw [deadlineFrom, same, limited]
    rfl
  have ahead := inGrace start begun _ (deadline reached.attained.setup_eq)
  have late := (after.isPunctual (chain.timesOf begun)).late past gaveUp _ (deadline after.setup_eq)
  obtain ⟨m, e, member, -⟩ := Journal.mem_timesOf.mp gaveUp
  have early : past ≤ t.now := after.time_le member
  omega

/-- The teardown that was underway in the first state is over in the second one, and it came to a
good end at the time of the first one. -/
structure EndsAtOnce (s t : Supervisor) : Prop where
  done : t.done = true
  told : s.now ∈ t.journal.timesOf .allStopped
  /-- Every call for the teardown has succeeded, unless it has been dropped. -/
  calls : ∀ (index : Nat) (requester : Requester) (state : CallState) (dropped : Bool),
    s.calls[index]? = some ⟨requester, state, dropped⟩ → (∀ verdict, state ≠ .resolved verdict) →
      (∃ after, t.calls[index]? = some ⟨requester, after, true⟩) ∨
      (t.calls[index]? = some ⟨requester, .resolved .success, false⟩ ∧
        ⟨s.now, .stopResolved requester .success⟩ ∈ t.journal)
  /-- Nothing was left behind. -/
  kept : t.detached = 0

/-- The good end of a teardown that was not over is told later on. -/
theorem Chain.le_of_allStopped (h : Chain s t) (story : HasStory s) (unfinished : s.done = false)
    {time : Nat} (told : time ∈ t.journal.timesOf .allStopped) : s.now ≤ time := by
  obtain ⟨m, e, written, published, about⟩ := Journal.mem_timesOf.mp told
  refine (h.mem_journal written).resolve_left fun old => ?_
  have early : e ∈ s.published := List.mem_filterMap.mpr ⟨_, old, published⟩
  have final : e.isTerminal = true := by simp [Event.isTerminal, about]
  rw [(story.terminal_eq early early final final).1] at unfinished
  cases unfinished

/-- A teardown that has come to a good end has left nothing behind. -/
theorem Attained.detached_eq_zero (h : Attained setup s) {time : Nat}
    (told : time ∈ s.journal.timesOf .allStopped) : s.detached = 0 := by
  refine Nat.eq_zero_of_not_pos fun left => ?_
  obtain ⟨e, wellTold, well⟩ := Journal.exists_mem_timesOf.mp ⟨time, told⟩
  obtain ⟨e', badlyTold, badly⟩ := h.detached_pos_iff.mp left
  obtain ⟨-, rfl⟩ := h.hasStory.terminal_eq wellTold badlyTold
    (by simp [Event.isTerminal, well]) (by simp [Event.isTerminal, badly])
  rw [well] at badly
  cases badly

/-- A teardown that has come to its end stays there. -/
theorem EndsAtOnce.leads (h : EndsAtOnce s t) (reached : Reachable setup t) (later : Leads t u) :
    EndsAtOnce s u := by
  have chain := chain_of_leads later
  have told := chain.timesOf h.told
  refine ⟨chain.onward.done h.done, told, fun index requester state dropped found unresolved => ?_,
    (reached.leads later).attained.detached_eq_zero told⟩
  rcases h.calls index requester state dropped found unresolved with
    ⟨after, gone⟩ | ⟨resolved, written⟩
  · exact .inl ⟨after, chain.getElem?_of_dropped gone⟩
  · exact .inr ⟨chain.getElem?_of_resolved resolved, chain.journal.subset written⟩

/-- At rest a teardown that has not been abandoned is over if all work routines have returned, and
before the end of the grace period it has come to a good end. -/
theorem endsAtOnce_of_quiescent (reached : Reachable setup s) (stopped : s.stage = .stopped)
    (unfinished : s.done = false) (returned : s.AllReturned) (inGrace : s.IsInGrace)
    (later : Leads s t) (quiescent : t.isQuiescent = true) (now : t.now = s.now)
    (owned : ¬ t.IsAbandoned) : EndsAtOnce s t := by
  have there := reached.leads later
  have chain := chain_of_leads later
  have done := done_of_quiescent there quiescent (chain.onward.stopped stopped)
    (chain.allReturned stopped returned) owned
  have kept := inGrace.kind_ne_graceExceeded reached stopped later now
  -- whatever is told between the two states is told at their time
  have punctual : ∀ {entry : Entry}, entry ∈ t.journal → s.now ≤ entry.time →
      entry.time = s.now :=
    fun member late => Nat.le_antisymm (now ▸ there.attained.time_le member) late
  obtain ⟨e, told, terminal⟩ := there.attained.exists_terminal done
  have kind : e.kind = .allStopped := by simpa [Event.isTerminal, kept e told] using terminal
  obtain ⟨time, allStopped⟩ := Journal.exists_mem_timesOf.mpr ⟨e, told, kind⟩
  obtain rfl : time = s.now := by
    obtain ⟨m, e', written, -⟩ := Journal.mem_timesOf.mp allStopped
    exact punctual written
      (chain.le_of_allStopped reached.attained.hasStory unfinished allStopped)
  refine ⟨done, allStopped, fun index requester state dropped found unresolved => ?_,
    there.attained.detached_eq_zero allStopped⟩
  obtain ⟨after, gone, known, answered⟩ := chain.isAnswered stopped found unresolved
  cases gone with
  | true => exact .inl ⟨after, known⟩
  | false =>
      obtain ⟨verdict, rfl⟩ :=
        (there.attained.answered_of_quiescent quiescent done).1 _ (List.mem_of_getElem? known) rfl
      obtain ⟨passed, time, late, written⟩ := answered verdict rfl
      cases verdict with
      | notStarted => exact absurd rfl passed
      | graceExceeded error =>
          exact absurd rfl (kept _ (there.attained.hasStory.published_of_overrun known))
      | success =>
          obtain rfl : time = s.now := punctual written late
          exact .inr ⟨known, written⟩

/-- A teardown is over at the time at which the last work routine has returned, if and only if the
call that carries it out has not been dropped. -/
theorem endsAtOnce (reached : Reachable setup s) (stopped : s.stage = .stopped)
    (unfinished : s.done = false) (returned : s.AllReturned) (inGrace : s.IsInGrace)
    (later : Leads s t) (after : t.isQuiescent = true ∨ s.now < t.now) :
    EndsAtOnce s t ↔ ¬ t.IsAbandoned := by
  refine ⟨fun ended => (reached.leads later).attained.hasStory.not_isAbandoned ended.done,
    fun owned => ?_⟩
  have atRest := fun {u : Supervisor} => endsAtOnce_of_quiescent reached stopped unfinished
    returned inGrace (t := u)
  rcases later.exists_instant with now | ⟨u, first, second, quiescent, now⟩
  · refine atRest later (after.resolve_right ?_) now owned
    exact now ▸ Nat.lt_irrefl _
  · have owned : ¬ u.IsAbandoned := fun left => owned ((chain_of_leads second).isAbandoned left)
    exact (atRest first quiescent now owned).leads (reached.leads first) second

/-! ## What becomes of delays in the end -/

/-- What is true in a state `t` that comes after one `s` in which the end has begun while no delay
is due. -/
structure AbandonsDelays (s t : Supervisor) : Prop where
  delays : DelaysEnd s t
  /-- No time passes and nothing comes to rest while a delay is not over. -/
  settled : t.isQuiescent = true ∨ s.now < t.now → t.IsSettled
  /-- The only way in which a delay ends is that it is given up, and that changes nothing else. The
  timer of a delay that was decided on before may be set first. -/
  ended : ∀ {m : Move} {u : Supervisor} {k : Nat} {d : Delay}, t.delays[k]? = some d →
    t.apply m = some u → u.delays[k]? ≠ some d →
      (m = .progress (.abandon k) ∧ u = t.setDelay k .abandoned) ∨
      (d.state = .decided ∧ m = .progress (.arm k) ∧ u = t.setDelay k .pending)
  /-- The supervisor can give all delays up by itself at once. -/
  atOnce : ∃ (steps : List Progress) (u : Supervisor), t.applyAll (steps.map .progress) = some u ∧
    u.IsSettled ∧ Unmoved t u
  /-- A teardown ends well at the time at which all work routines have returned, before the end of
  the grace period if there is one, unless the call that carries it out is dropped. -/
  ends : t.stage = .stopped → t.done = false → t.AllReturned → t.IsInGrace →
    ∀ u, Leads t u → (u.isQuiescent = true ∨ t.now < u.now) → (EndsAtOnce t u ↔ ¬ u.IsAbandoned)

/-- Delays that are not over when the end begins are given up, and they hold no teardown up. -/
theorem abandonsDelays (reached : Reachable setup s) (ending : s.IsEnding) (noneDue : s.NoneDue)
    (later : Leads s t) : AbandonsDelays s t := by
  have ends := delays_of_leads reached ending noneDue later
  have there := reached.leads later
  have still := ending.chain (chain_of_leads later)
  refine ⟨ends, ?_, ends.ended_by reached noneDue still, exists_settled_now there still, ?_⟩
  · rintro (quiescent | passed) d member
    · exact still.isSettled there quiescent d member
    · obtain ⟨k, found⟩ := List.mem_iff_getElem?.mp member
      refine (ends.cases found).resolve_right ?_
      rintro ⟨-, -, -, -, now⟩
      exact absurd now (Nat.ne_of_gt passed)
  · exact fun stopped unfinished returned inGrace u after rest =>
      endsAtOnce there stopped unfinished returned inGrace after rest

theorem exists_stages {P : Supervisor → Supervisor → Supervisor → Prop}
    [∀ s t u, Decidable (P s t u)] {v : Supervisor} {first second third : List Move}
    (holds : ((v.applyAll first).any fun s => (s.applyAll second).any fun t =>
      (t.applyAll third).any fun u => decide (P s t u)) = true) :
    ∃ s t u, v.applyAll first = some s ∧ s.applyAll second = some t ∧
      t.applyAll third = some u ∧ P s t u := by
  obtain ⟨s, ran, holds⟩ := (Option.any_eq_true _ _).mp holds
  obtain ⟨t, later, holds⟩ := (Option.any_eq_true _ _).mp holds
  obtain ⟨u, after, holds⟩ := (Option.any_eq_true _ _).mp holds
  exact ⟨s, t, u, ran, later, after, of_decide_eq_true holds⟩

/-- Restarts wait for an hour, and a teardown waits for a second. -/
def hourly : Setup where
  settings := { grace := .ofSeconds 1 }
  restarters := [{ policy := .always, backoff := some (.constant (.ofSeconds 3600)) }]

/-- A callback that decided on a delay before the stop sets its timer when the supervisor is
stopped. And a teardown does not come to a good end if the last work routine returns at the very end
of the grace period. -/
theorem timer_set_after_stop :
    (∃ s t u, (create hourly).applyAll
        [.start, .submit { id := "hourly", onFinish := some {} }, .progress (.begin 1),
          .progress (.release 1), .progress (.report 1), .progress (.call 1), .handTo 1 0 0, .stop,
          .progress (.proceed 0)] = some s ∧
      s.applyAll [.progress (.arm 0)] = some t ∧
      t.applyAll [.progress (.proceed 0), .progress (.abandon 0)] = some u ∧ s.stage = .stopped ∧
      s.delays.map (·.state) = [.decided] ∧ t.delays.map (·.state) = [.pending] ∧
      u.delays.map (·.state) = [.abandoned]) ∧
    ∃ t u, (create hourly).applyAll
        [.start, .submit { id := "a", work := some {} }, .progress (.begin 1), .stop,
          .progress (.proceed 0), .progress (.proceed 0), .tick 1000,
          .finish 1 (.returns none)] = some t ∧
      t.apply (.progress (.proceed 0)) = some u ∧ t.now = 1000 ∧
      t.journal.timesOf .shutdownRequested = [0] ∧
      t.runs.map (·.phase) = [.returned none] ∧
      u.calls = [⟨.caller 0, .resolved (.graceExceeded ⟨.ofSeconds 1, ["a"]⟩), false⟩] :=
  ⟨exists_stages (by decide +kernel), _, _, rfl, rfl, rfl, rfl, rfl, rfl⟩

/-- A teardown begins while one restart is to come in an hour and another one has just been decided
on. A work routine returns after half a second. -/
theorem abandonsDelays_of_hourly :
    ∃ s t u, (create hourly).applyAll
        [.start, .submit { id := "hourly", onFinish := some {} },
          .submit { id := "likewise", onFinish := some {} },
          .submit { id := "a", work := some {} }, .progress (.begin 1), .progress (.begin 2),
          .progress (.begin 3), .progress (.release 1), .progress (.report 1), .progress (.call 1),
          .handTo 1 0 0, .progress (.arm 0), .progress (.leave 1), .progress (.release 2),
          .progress (.report 2), .progress (.call 2), .handTo 2 0 0, .stop,
          .progress (.proceed 0)] = some s ∧
      s.applyAll
        [.progress (.arm 1), .progress (.leave 2), .progress (.call 1), .progress (.send 1),
          .progress (.call 2), .progress (.send 2), .progress (.proceed 0), .progress .observe,
          .progress .observe, .progress (.abandon 0), .progress (.abandon 1), .tick 500,
          .finish 3 (.returns none)] = some t ∧
      t.applyAll
        [.progress (.release 3), .progress (.report 3), .progress (.call 3), .progress (.call 3),
          .progress (.send 3), .progress .observe, .progress (.proceed 0), .progress .exitLoop,
          .progress (.proceed 0)] = some u ∧
      s.delays.map (fun d => (d.state, d.due)) = [(.pending, 3600000), (.decided, 3600000)] ∧
      t.now = 500 ∧ AbandonsDelays s t ∧ EndsAtOnce t u := by
  obtain ⟨s, t, u, ran, later, after, delays, now, stopped, early, still, unfinished, returned,
      begun, quiescent, owned⟩ : ∃ s t u, (create hourly).applyAll
        [.start, .submit { id := "hourly", onFinish := some {} },
          .submit { id := "likewise", onFinish := some {} },
          .submit { id := "a", work := some {} }, .progress (.begin 1), .progress (.begin 2),
          .progress (.begin 3), .progress (.release 1), .progress (.report 1), .progress (.call 1),
          .handTo 1 0 0, .progress (.arm 0), .progress (.leave 1), .progress (.release 2),
          .progress (.report 2), .progress (.call 2), .handTo 2 0 0, .stop,
          .progress (.proceed 0)] = some s ∧
      s.applyAll
        [.progress (.arm 1), .progress (.leave 2), .progress (.call 1), .progress (.send 1),
          .progress (.call 2), .progress (.send 2), .progress (.proceed 0), .progress .observe,
          .progress .observe, .progress (.abandon 0), .progress (.abandon 1), .tick 500,
          .finish 3 (.returns none)] = some t ∧
      t.applyAll
        [.progress (.release 3), .progress (.report 3), .progress (.call 3), .progress (.call 3),
          .progress (.send 3), .progress .observe, .progress (.proceed 0), .progress .exitLoop,
          .progress (.proceed 0)] = some u ∧
      s.delays.map (fun d => (d.state, d.due)) = [(.pending, 3600000), (.decided, 3600000)] ∧
      t.now = 500 ∧ s.stage = .stopped ∧
      (∀ d ∈ s.delays, d.state = .pending → s.now < d.due) ∧
      t.stage = .stopped ∧ t.done = false ∧ (∀ r ∈ t.runs, r.phase.isReturned = true) ∧
      t.journal.timesOf .shutdownRequested = [0] ∧ u.isQuiescent = true ∧
      ∀ call ∈ u.calls, call.dropped = false :=
    exists_stages (by decide +kernel)
  have reached := reachable_of_applyAll ran
  have abandons := abandonsDelays reached (.inl stopped) early (leads_of_applyAll later)
  refine ⟨s, t, u, ran, later, after, delays, now, abandons,
    (abandons.ends still unfinished ?_ ?_ u (leads_of_applyAll after) (.inl quiescent)).mpr ?_⟩
  · exact fun n r found => returned r (mem_runs_iff.mpr ⟨n, found⟩)
  · intro start requested deadline limited
    have there := (reached.leads (leads_of_applyAll later)).attained
    rw [begun, List.mem_singleton] at requested
    rw [deadlineFrom, there.setup_eq, requested] at limited
    have second : deadline = 1000 := Option.some.inj (limited.symm.trans (by decide))
    rw [now, second]
    decide
  · rintro ⟨call, member, dropped, -⟩
    rw [owned call member] at dropped
    cases dropped

end Supervisor

end Supervision
