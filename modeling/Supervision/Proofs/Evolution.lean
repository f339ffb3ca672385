import Supervision.Proofs.Chains
import Supervision.Proofs.Marks

/-!
# How runs evolve

A run never leaves the list of runs. It keeps its task and its origin, its token stays cancelled
once it is, and it goes through its phases in one direction only: the fault it ended with stays, a
released run stays released, and a finished run stays as it is.

Results:
1. `Change.evolves`, `Chain.evolves`: what becomes of a run in one change, and in many.
2. `Change.run?_cases`: a run that is new after a change was launched by it.
-/

namespace Supervision

/-- Has the run given back its registry entry? -/
def Phase.isReleased : Phase → Bool
  | .launched | .working | .returned _ => false
  | _ => true

/-- What stays as it is when one run turns into another state of itself. -/
structure Run.Evolves (r r' : Run) : Prop where
  task : r'.task = r.task
  origin : r'.origin = r.origin
  cancelled : r.cancelled = true → r'.cancelled = true
  fault : ∀ fault, r.phase.fault? = some fault → r'.phase.fault? = some fault
  released : r.phase.isReleased = true → r'.phase.isReleased = true
  finished : r.phase.isFinished = true → r'.phase = r.phase

namespace Run.Evolves

theorem refl (r : Run) : r.Evolves r := ⟨rfl, rfl, id, fun _ => id, id, fun _ => rfl⟩

theorem trans {r r' r'' : Run} (h : r.Evolves r') (k : r'.Evolves r'') : r.Evolves r'' where
  task := k.task.trans h.task
  origin := k.origin.trans h.origin
  cancelled c := k.cancelled (h.cancelled c)
  fault f hf := k.fault f (h.fault f hf)
  released hr := k.released (h.released hr)
  finished hf := by
    have same := h.finished hf
    rw [k.finished (same ▸ hf), same]

/-- A run that may have been cancelled is the same run. -/
theorem cancel (r : Run) (p : Prop) [Decidable p] :
    r.Evolves (if p then { r with cancelled := true } else r) := by
  split
  · exact ⟨rfl, rfl, fun _ => rfl, fun _ => id, id, fun _ => rfl⟩
  · exact refl r

/-- A run that is not finished goes on to a later phase. -/
theorem phase {r : Run} {phase : Phase}
    (fault : ∀ fault, r.phase.fault? = some fault → phase.fault? = some fault)
    (released : r.phase.isReleased = true → phase.isReleased = true)
    (unfinished : r.phase.isFinished = false) : r.Evolves { r with phase } :=
  ⟨rfl, rfl, id, fault, released, fun h => by rw [unfinished] at h; cases h⟩

end Run.Evolves

namespace Supervisor

variable {s t : Supervisor}

/-! ## Looking up runs -/

theorem run?_eq_some {n : Nat} {r : Run} : s.run? n = some r ↔ 0 < n ∧ s.runs[n - 1]? = some r := by
  cases n <;> simp [run?]

theorem run?_bounds {n : Nat} {r : Run} (h : s.run? n = some r) : 0 < n ∧ n ≤ s.runs.length := by
  obtain ⟨positive, found⟩ := run?_eq_some.mp h
  obtain ⟨bound, -⟩ := List.getElem?_eq_some_iff.mp found
  omega

theorem run?_isSome {n : Nat} (positive : 0 < n) (bound : n ≤ s.runs.length) :
    ∃ r, s.run? n = some r := by
  have inside : n - 1 < s.runs.length := by omega
  exact ⟨s.runs[n - 1], run?_eq_some.mpr ⟨positive, List.getElem?_eq_getElem inside⟩⟩

theorem mem_runs_iff {r : Run} : r ∈ s.runs ↔ ∃ n, s.run? n = some r := by
  constructor
  · intro member
    obtain ⟨k, found⟩ := List.mem_iff_getElem?.mp member
    exact ⟨k + 1, found⟩
  · rintro ⟨n, found⟩
    exact List.mem_of_getElem? (run?_eq_some.mp found).2

theorem all_runs_iff {p : Run → Bool} :
    s.runs.all p = true ↔ ∀ n r, s.run? n = some r → p r = true := by
  rw [List.all_eq_true]
  constructor
  · intro h n r found
    exact h r (mem_runs_iff.mpr ⟨n, found⟩)
  · intro h r member
    obtain ⟨n, found⟩ := mem_runs_iff.mp member
    exact h n r found

theorem run?_congr (same : t.runs = s.runs) (n : Nat) : t.run? n = s.run? n := by
  cases n <;> simp [run?, same]

@[simp] theorem run?_withPhase (s : Supervisor) (number n : Nat) (phase : Phase) :
    (s.withPhase number phase).run? n =
      if n = number then (s.run? n).map fun r => { r with phase } else s.run? n :=
  run?_modifyRun s number n _

theorem run?_withPhase_self {number : Nat} {r : Run} (found : s.run? number = some r)
    (phase : Phase) : (s.withPhase number phase).run? number = some { r with phase } := by
  simp [found]

theorem run?_withPhase_ne {number n : Nat} (other : n ≠ number) (phase : Phase) :
    (s.withPhase number phase).run? n = s.run? n := by
  simp [other]

theorem run?_cancelToken {n : Nat} {r : Run} (found : s.run? n = some r) (number : Nat) :
    (s.cancelToken number).run? n =
      some (if n = number then { r with cancelled := true } else r) := by
  rw [cancelToken, run?_modifyRun, found]
  split <;> rfl

/-- Cancelling the tokens of some runs changes nothing else about any run. -/
theorem run?_foldl_cancelToken {n : Nat} {r : Run} (found : s.run? n = some r)
    (numbers : List Nat) :
    (numbers.foldl cancelToken s).run? n =
      some (if n ∈ numbers then { r with cancelled := true } else r) := by
  induction numbers generalizing s r with
  | nil => simpa using found
  | cons number rest ih =>
      rw [List.foldl_cons, ih (run?_cancelToken found number)]
      by_cases here : n = number <;> by_cases later : n ∈ rest <;> simp [here, later]

theorem length_evict (s : Supervisor) (id : String) : (s.evict id).length = s.runs.length := by
  unfold evict
  split
  · rfl
  · exact length_runs_modifyRun s _ _

theorem run?_evict (s : Supervisor) (id : String) (n : Nat) :
    ({ s with runs := s.evict id } : Supervisor).run? n =
      if s.registry.lookup id = some n then
        (s.run? n).map fun r => { r with cancelled := true }
      else s.run? n := by
  cases h : s.registry.lookup id with
  | none =>
      rw [if_neg (by simp)]
      exact run?_congr (by simp [evict, h]) n
  | some predecessor =>
      have runs : s.evict id = (s.cancelToken predecessor).runs := by simp [evict, h]
      have same : ({ s with runs := s.evict id } : Supervisor).run? n =
          (s.cancelToken predecessor).run? n := run?_congr runs n
      rw [same, cancelToken, run?_modifyRun]
      simp [eq_comm]

theorem run?_append (s : Supervisor) (runs : List Run) (r : Run) (n : Nat) :
    ({ s with runs := runs ++ [r] } : Supervisor).run? n =
      if n = runs.length + 1 then some r else ({ s with runs } : Supervisor).run? n := by
  cases n with
  | zero => rfl
  | succ k =>
      simp only [run?, List.getElem?_append, List.getElem?_singleton]
      grind

/-- The runs after a launch: the new one comes last, and the active run of its id is cancelled. -/
theorem run?_withRun (s : Supervisor) (task : Task) (origin : Option Nat) (n : Nat) :
    (s.withRun task origin).run? n =
      if n = s.runs.length + 1 then some { task, origin }
      else if s.registry.lookup task.id = some n then
        (s.run? n).map fun r => { r with cancelled := true }
      else s.run? n := by
  rw [← run?_evict, ← length_evict s task.id, ← run?_append]
  rfl

theorem run?_withRun_of_run? {n : Nat} {r : Run} (found : s.run? n = some r) (task : Task)
    (origin : Option Nat) :
    (s.withRun task origin).run? n =
      some (if s.registry.lookup task.id = some n then { r with cancelled := true } else r) := by
  have bounds := run?_bounds found
  rw [run?_withRun, if_neg (by omega), found]
  split <;> rfl

theorem length_runs_withRun (s : Supervisor) (task : Task) (origin : Option Nat) :
    (s.withRun task origin).runs.length = s.runs.length + 1 := by
  simp [withRun, length_evict]

theorem run?_new (s : Supervisor) (task : Task) (origin : Option Nat) :
    (s.withRun task origin).run? (s.runs.length + 1) = some { task, origin } := by
  rw [run?_withRun, if_pos rfl]

/-- A run other than the new one was there before the launch. -/
theorem run?_old {task : Task} {origin : Option Nat} {n : Nat} {r' : Run}
    (found : (s.withRun task origin).run? n = some r') (old : n ≠ s.runs.length + 1) :
    ∃ r, s.run? n = some r ∧ r'.task = r.task ∧ r'.phase = r.phase ∧
      (s.registry.lookup task.id = some n ∨ r.cancelled = true → r'.cancelled = true) := by
  rw [run?_withRun, if_neg old] at found
  split at found
  · next evicted =>
      obtain ⟨r, hr, rfl⟩ := Option.map_eq_some_iff.mp found
      exact ⟨r, hr, rfl, rfl, fun _ => rfl⟩
  · next kept =>
      refine ⟨r', found, rfl, rfl, ?_⟩
      rintro (evicted | cancelled)
      · exact absurd evicted kept
      · exact cancelled

/-! ## What becomes of a run -/

theorem withPhase_evolves {number n : Nat} {r q : Run} {phase : Phase}
    (found : s.run? number = some r) (evolves : r.Evolves { r with phase })
    (hq : s.run? n = some q) :
    ∃ q', (s.withPhase number phase).run? n = some q' ∧ q.Evolves q' := by
  by_cases here : n = number
  · subst here
    obtain rfl : r = q := Option.some.inj (found.symm.trans hq)
    exact ⟨_, run?_withPhase_self found phase, evolves⟩
  · exact ⟨q, (run?_withPhase_ne here phase).trans hq, .refl q⟩

theorem CourseStep.evolves {number : Nat} {r : Run} {marks : List Mark} {phase : Phase}
    (h : s.CourseStep number r marks phase) : r.Evolves { r with phase } := by
  cases h <;> refine .phase ?_ ?_ ?_ <;>
    simp_all [Phase.fault?, Phase.isReleased, Phase.isFinished]

theorem CallbacksOver.phase {number : Nat} {r : Run} {marks : List Mark}
    {fault : Option Fault} (h : s.CallbacksOver number r marks fault) :
    r.phase = .due .global fault ∨ r.phase = .calling .global fault := by
  cases h with
  | pass phase _ => exact .inl phase
  | leave _ phase => exact .inr phase

/-- Every change lets every run evolve. -/
theorem Change.evolves {marks : List Mark} (h : Change s marks t) {n : Nat} {q : Run}
    (hq : s.run? n = some q) : ∃ q', t.run? n = some q' ∧ q.Evolves q' := by
  cases h
  case course found step => exact withPhase_evolves found step.evolves hq
  case release r fault found phase =>
    refine withPhase_evolves found (.phase ?_ ?_ ?_) hq <;>
      simp [phase, Phase.fault?, Phase.isReleased, Phase.isFinished]
  case lineUp r fault found ended =>
    rcases ended.phase with phase | phase <;>
      refine withPhase_evolves found (.phase ?_ ?_ ?_) hq <;>
        simp [phase, Phase.fault?, Phase.isReleased, Phase.isFinished]
  case send r fault found phase _ _ | discard r fault found phase _ =>
    refine withPhase_evolves found (.phase ?_ ?_ ?_) hq <;>
      simp [phase, Phase.fault?, Phase.isReleased, Phase.isFinished]
  case cancelRun number r _ _ => exact ⟨_, run?_cancelToken hq number, .cancel q _⟩
  case cancelAll => exact ⟨_, run?_foldl_cancelToken hq s.registry.runs, .cancel q _⟩
  case launch task origin _ _ => exact ⟨_, run?_withRun_of_run? hq task origin, .cancel q _⟩
  all_goals exact ⟨q, hq, .refl q⟩

theorem Chain.evolves (h : Chain s t) {n : Nat} {q : Run} (hq : s.run? n = some q) :
    ∃ q', t.run? n = some q' ∧ q.Evolves q' := by
  induction h with
  | refl => exact ⟨q, hq, .refl q⟩
  | tail _ advances ih =>
      obtain ⟨q', hq', evolved⟩ := ih
      obtain ⟨marks, u, change, rfl⟩ := advances
      obtain ⟨q'', hq'', evolves⟩ := change.evolves hq'
      exact ⟨q'', hq'', evolved.trans evolves⟩

/-- A run that is there after a change was there before, or the change has launched it. -/
theorem Change.run?_cases {marks : List Mark} (h : Change s marks t) {n : Nat} {r' : Run}
    (found : t.run? n = some r') :
    (∃ r, s.run? n = some r ∧ r.Evolves r') ∨
    ∃ task origin, n = s.runs.length + 1 ∧ r' = { task, origin } ∧ t = s.withRun task origin ∧
      ∀ number, origin = some number → s.Grounds number task := by
  have bounds := run?_bounds found
  by_cases known : n ≤ s.runs.length
  · obtain ⟨r, hr⟩ := run?_isSome bounds.1 known
    obtain ⟨q, hq, evolves⟩ := h.evolves hr
    obtain rfl : q = r' := Option.some.inj (hq.symm.trans found)
    exact .inl ⟨r, hr, evolves⟩
  · rcases h.launches with ⟨length, -⟩ | ⟨task, origin, -, grounds, rfl, -⟩
    · omega
    · have last : n = s.runs.length + 1 := by
        rw [length_runs_withRun] at bounds
        omega
      rw [run?_withRun, if_pos last] at found
      exact .inr ⟨task, origin, last, (Option.some.inj found).symm, rfl, grounds⟩

end Supervisor

end Supervision
