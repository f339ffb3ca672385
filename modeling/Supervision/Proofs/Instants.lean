import Supervision.Proofs.Histories
import Supervision.Proofs.PendingDelays

/-!
# The instant at which a run ends

Time passes only at rest, and a supervisor is not at rest while a run whose work routine has ended
is not past its own finish callback. So whatever that callback does happens at the time at
which the routine has ended, in particular a restart that it asks for.

Results:
1. `Chain.isPastOwn`: a run that is past its own callback stays so.
2. `isTimed_of_applyAll`: the routine of a run ends once, and at the present time unless the run is
   past its own callback.
3. `Attained.le_due`: no delay that is still to come is overdue.
4. `asks_of_missing`: nothing is asked for on behalf of a run that is not launched.
-/

namespace Supervision

/-- Is the run past its own finish callback? -/
def Phase.isPastOwn : Phase → Bool
  | .due .global _ | .calling .global _ | .inLine _ | .finished _ => true
  | _ => false

/-- The scope of the callback that is at work. -/
def Phase.scope? : Phase → Option Scope
  | .calling scope _ => some scope
  | _ => none

/-- The run on whose behalf a callback asks for a restart, and the action that does so. -/
def Move.ask? : Move → Option (Nat × Action)
  | .restart run .always => some (run, .restart)
  | .restart run .onError => some (run, .restartOnError)
  | .restart run .onSuccess => some (run, .restartOnSuccess)
  | .handTo run index _ => some (run, .restarter index)
  | _ => none

/-- Is the delay still to come to its end? Its timer may have yet to be set. -/
def DelayState.isOpen : DelayState → Bool
  | .decided | .pending => true
  | .fired | .abandoned => false

namespace Supervisor

variable {setup : Setup} {s t : Supervisor} {n : Nat} {r : Run}

/-! ## Beyond the own callback -/

theorem CourseStep.isPastOwn {marks : List Mark} {phase : Phase}
    (h : s.CourseStep n r marks phase) (past : r.phase.isPastOwn = true) :
    phase.isPastOwn = true := by
  cases h with
  | @call scope _ _ before _ =>
      rw [before] at past
      cases scope with
      | own => cases past
      | global => rfl
  | begin before | beginIdle before | finish _ before | report before | pass before
  | leave _ before =>
      rw [before] at past
      cases past

/-- A run that comes into another phase which is not before the end of its own callback. -/
theorem withPhase_isPastOwn {number : Nat} {phase : Phase} (found : s.run? n = some r)
    (past : r.phase.isPastOwn = true) (later : number = n → phase.isPastOwn = true) :
    ∃ r', (s.withPhase number phase).run? n = some r' ∧ r'.phase.isPastOwn = true := by
  by_cases own : number = n
  · subst own
    exact ⟨_, run?_withPhase_self found phase, later rfl⟩
  · exact ⟨r, (run?_withPhase_ne (Ne.symm own) phase).trans found, past⟩

theorem Change.isPastOwn {marks : List Mark} (h : Change s marks t) (found : s.run? n = some r)
    (past : r.phase.isPastOwn = true) :
    ∃ r', t.run? n = some r' ∧ r'.phase.isPastOwn = true := by
  cases h
  case course number q phase known step =>
    refine withPhase_isPastOwn found past fun own => ?_
    subst own
    obtain rfl : q = r := Option.some.inj (known.symm.trans found)
    exact step.isPastOwn past
  case release number q fault known phase =>
    refine withPhase_isPastOwn (s := { s with registry := _ }) found past fun own => ?_
    subst own
    obtain rfl : q = r := Option.some.inj (known.symm.trans found)
    rw [phase] at past
    cases past
  case lineUp => exact withPhase_isPastOwn (s := { s with line := _ }) found past fun _ => rfl
  case send | discard =>
    exact withPhase_isPastOwn (s := { s with line := _ }) found past fun _ => rfl
  case cancelRun number _ _ _ =>
    refine ⟨_, run?_cancelToken found number, ?_⟩
    split <;> exact past
  case cancelAll =>
    refine ⟨_, run?_foldl_cancelToken found s.registry.runs, ?_⟩
    split <;> exact past
  case launch task origin _ _ =>
    refine ⟨_, run?_withRun_of_run? found task origin, ?_⟩
    split <;> exact past
  all_goals exact ⟨r, found, past⟩

theorem Chain.isPastOwn (h : Chain s t) (found : s.run? n = some r)
    (past : r.phase.isPastOwn = true) :
    ∃ r', t.run? n = some r' ∧ r'.phase.isPastOwn = true := by
  induction h with
  | refl => exact ⟨r, found, past⟩
  | tail _ advances ih =>
      obtain ⟨r', found', past'⟩ := ih
      obtain ⟨marks, u, change, rfl⟩ := advances
      exact change.isPastOwn found' past'

/-! ## The end of the work routine -/

/-- Has the work routine of a run ended? -/
def hasReturned (s : Supervisor) (n : Nat) : Bool := (s.run? n).any (·.phase.isReturned)

/-- The time at which a move ends the work routine of a run. -/
def returnsOf (n : Nat) (s : Supervisor) (_ : Move) (t : Supervisor) : List Nat :=
  if s.hasReturned n = false ∧ t.hasReturned n = true then [t.now] else []

theorem hasReturned_iff :
    s.hasReturned n = true ↔ ∃ r, s.run? n = some r ∧ r.phase.isReturned = true := by
  unfold hasReturned
  cases s.run? n <;> simp

theorem Chain.hasReturned (h : Chain s t) (returned : s.hasReturned n = true) :
    t.hasReturned n = true := by
  obtain ⟨r, found, ended⟩ := hasReturned_iff.mp returned
  obtain ⟨fault, known⟩ := Option.isSome_iff_exists.mp ended
  obtain ⟨r', found', evolves⟩ := h.evolves found
  exact hasReturned_iff.mpr
    ⟨r', found', Option.isSome_iff_exists.mpr ⟨fault, evolves.fault fault known⟩⟩

/-- What a run has told about the end of its work routine. -/
structure IsTimed (s : Supervisor) (n : Nat) (told : List Nat) : Prop where
  early : s.hasReturned n = false → told = []
  once : s.hasReturned n = true → ∃ finish, told = [finish] ∧
    ∀ r, s.run? n = some r → r.phase.isPastOwn = false → finish = s.now

/-- While the own callback of a run is not over, the supervisor is not at rest. -/
theorem not_quiescent_of_returned (found : s.run? n = some r) (returned : r.phase.isReturned = true)
    (busy : r.phase.isPastOwn = false) : ¬ s.isQuiescent = true := by
  intro still
  rcases phase_of_quiescent still found with phase | ⟨fault, phase | phase⟩
  · rw [phase] at returned
    cases returned
  all_goals
    rw [phase] at busy
    cases busy

theorem IsTimed.apply {told : List Nat} {m : Move} (h : IsTimed s n told)
    (applied : s.apply m = some t) : IsTimed t n (told ++ returnsOf n s m t) := by
  have chain := apply_chain applied
  cases before : s.hasReturned n with
  | false =>
      rw [h.early before, List.nil_append, returnsOf, before]
      refine ⟨fun still => by simp [still], fun returned => ⟨t.now, by simp [returned], ?_⟩⟩
      exact fun _ _ _ => rfl
  | true =>
      obtain ⟨finish, rfl, current⟩ := h.once before
      have after := chain.hasReturned before
      rw [returnsOf, before, if_neg (by simp), List.append_nil]
      refine ⟨fun early => absurd after (by simp [early]), fun _ => ⟨finish, rfl, ?_⟩⟩
      intro r' found' busy'
      -- the run was there before and not past its callback either, so the clock stands still
      obtain ⟨r, found, returned⟩ := hasReturned_iff.mp before
      have busy : r.phase.isPastOwn = false := by
        by_contra past
        obtain ⟨q, known, later⟩ := chain.isPastOwn found (by simpa using past)
        obtain rfl : q = r' := Option.some.inj (known.symm.trans found')
        rw [busy'] at later
        cases later
      rw [current r found busy]
      exact ((apply_now applied).resolve_right
        (not_quiescent_of_returned found returned busy)).symm

theorem isTimed_of_applyAll {moves : List Move} (ran : (create setup).applyAll moves = some s)
    (n : Nat) : IsTimed s n (trace (returnsOf n) (create setup) moves) := by
  refine trace_invariant (returnsOf n) (P := fun s told => IsTimed s n told) ran ?_
    fun _ inv applied => inv.apply applied
  refine ⟨fun _ => rfl, fun returned => ?_⟩
  cases n <;> cases returned

/-- Nothing more is told once the routine has ended. -/
theorem returnsOf_of_returned (returned : s.hasReturned n = true) (m : Move) :
    returnsOf n s m t = [] := by
  simp [returnsOf, returned]

/-! ## Delays -/

/-- A pending delay is a timer, which the clock does not pass. -/
theorem le_due_of_timers {time : Nat} (timers : s.timers.all (time ≤ ·) = true) {d : Delay}
    (member : d ∈ s.delays) (pending : d.state = .pending) : time ≤ d.due := by
  have timer : d.due ∈ s.timers := List.mem_append_left _
    (List.mem_map.mpr ⟨d, List.mem_filter.mpr ⟨member, by simp [pending]⟩, rfl⟩)
  simpa using List.all_eq_true.mp timers d.due timer

/-- No pending delay is overdue. A timer is set at the time of the decision, for no time passes
until then. -/
theorem Attained.le_due_of_pending (h : Attained setup s) {d : Delay} (member : d ∈ s.delays)
    (pending : d.state = .pending) : s.now ≤ d.due := by
  refine h.invariant (P := fun s => ∀ d ∈ s.delays, d.state = .pending → s.now ≤ d.due)
    (fun _ none => by cases none) ?_ d member pending
  intro s t marks attained inv change d member pending
  -- a delay whose state is set was another one, or has its timer set just now
  have set : ∀ {index : Nat} {before : Delay} {state : DelayState},
      s.delays[index]? = some before → state ≠ .pending ∨ before.state = .decided →
        d ∈ (s.setDelay index state).delays → s.now ≤ d.due := by
    intro index before state there grounds changed
    obtain ⟨k, found⟩ := List.mem_iff_getElem?.mp changed
    rw [getElem?_setDelay] at found
    split at found
    · next here =>
        subst here
        obtain rfl : { before with state } = d := by simpa [there] using found
        rcases grounds with ended | decided
        · exact absurd pending ended
        · have early := attained.lt_due_of_decided (List.mem_of_getElem? there) decided
          exact Nat.le_of_lt early
    · exact inv d (List.mem_of_getElem? found) pending
  cases change
  case defer =>
    rcases List.mem_append.mp member with old | new
    · exact inv d old pending
    · obtain rfl := List.mem_singleton.mp new
      cases pending
  case fire there _ _ => exact set there (.inl DelayState.noConfusion) member
  case abandon there _ _ => exact set there (.inl DelayState.noConfusion) member
  case arm there decided => exact set there (.inr decided) member
  case tick timers => exact le_due_of_timers timers member pending
  all_goals exact inv d member pending

/-- No delay that is still to come is overdue. -/
theorem Attained.le_due (h : Attained setup s) {d : Delay} (member : d ∈ s.delays)
    (isOpen : d.state.isOpen = true) : s.now ≤ d.due := by
  cases state : d.state with
  | decided => exact Nat.le_of_lt (h.lt_due_of_decided member state)
  | pending => exact h.le_due_of_pending member state
  | fired | abandoned =>
      rw [state] at isOpen
      cases isOpen

/-! ## Asking for a restart -/

/-- What a move asks for on behalf of a run, and the scope of the callback that does so. -/
def asksOf (n : Nat) (s : Supervisor) (m : Move) (_ : Supervisor) : List (Scope × Action) :=
  match m.ask? with
  | some (run, action) =>
      if run = n then (((s.run? n).bind (·.phase.scope?)).map fun scope => (scope, action)).toList
      else []
  | none => []

theorem asksOf_of_run?_eq_none (missing : s.run? n = none) (m : Move) : asksOf n s m t = [] := by
  unfold asksOf
  split
  · simp [missing]
  · rfl

theorem run?_eq_none_of_chain (h : Chain s t) (missing : t.run? n = none) : s.run? n = none := by
  cases found : s.run? n with
  | none => rfl
  | some r =>
      obtain ⟨r', found', -⟩ := h.evolves found
      rw [missing] at found'
      cases found'

/-- Nothing is asked for on behalf of a run before its launch. -/
theorem asks_of_missing {moves : List Move} (ran : (create setup).applyAll moves = some s)
    (missing : s.run? n = none) : trace (asksOf n) (create setup) moves = [] := by
  refine trace_invariant (asksOf n) (P := fun s told => s.run? n = none → told = []) ran
    (fun _ => rfl) ?_ missing
  intro u v m told _ inv applied missing
  have before := run?_eq_none_of_chain (apply_chain applied) missing
  rw [inv before, asksOf_of_run?_eq_none before, List.append_nil]

end Supervisor

end Supervision
