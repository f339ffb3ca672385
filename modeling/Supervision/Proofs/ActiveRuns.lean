import Mathlib.Data.String.Basic
import Supervision.Proofs.Quiescence
import Supervision.Sorting

/-!
# One live run per id

The registry, the run numbers, the tokens and the phases of the runs fit together: the registry
entry of an id belongs to the run of the id that was launched last, as long as that run has not
given it back, and whatever other run of the id lingers has lost its token. A superseded run may
linger for as long as it likes; what it gives back then is not its successor's entry. All of that
hangs on numbers that do not repeat, so on fewer than `2 ^ 64` launches.

Results:
1. `Change.standing`: only launches and releases touch what the registry depends on.
2. `Attained.registryInvariant`: the invariant that every change keeps.
3. `oneLiveRun`: what follows for the registry, the tokens and the list of active ids.
-/

namespace Supervision

namespace Registry

/-- Where no id has two entries, looking up an id is finding its entry. -/
theorem lookup_eq_some_iff {r : Registry} (distinct : (r.entries.map (·.id)).Nodup)
    (id : String) (n : Nat) : r.lookup id = some n ↔ ⟨id, n⟩ ∈ r.entries := by
  obtain ⟨numbered, entries⟩ := r
  unfold lookup
  induction entries with
  | nil => simp
  | cons e rest ih =>
      simp only [List.map_cons, List.nodup_cons] at distinct
      by_cases own : e.id = id
      · have elsewhere : ⟨id, n⟩ ∉ rest := fun h =>
          distinct.1 (List.mem_map.mpr ⟨_, h, own.symm⟩)
        cases e
        simp_all [eq_comm]
      · have : ¬ (⟨id, n⟩ : RegistryEntry) = e := fun h => own (h ▸ rfl)
        simpa [own, this] using ih distinct.2

/-- Installing a run leaves one entry for its id. -/
theorem distinct_install {r : Registry} (distinct : (r.entries.map (·.id)).Nodup) (id : String) :
    ((r.install id).registry.entries.map (·.id)).Nodup := by
  have others : ((r.entries.filter (·.id != id)).map (·.id)).Nodup :=
    distinct.sublist (List.filter_sublist.map _)
  simp only [install, List.map_append, List.map_cons, List.map_nil]
  refine List.nodup_append.mpr ⟨others, by simp, ?_⟩
  intro x hx y hy
  obtain ⟨e, he, rfl⟩ := List.mem_map.mp hx
  rw [List.mem_singleton.mp hy]
  simpa using (List.mem_filter.mp he).2

theorem distinct_release {r : Registry} (distinct : (r.entries.map (·.id)).Nodup) (id : String)
    (run : Nat) : ((r.release id run).1.entries.map (·.id)).Nodup := by
  unfold release
  split
  · exact distinct.sublist (List.filter_sublist.map _)
  · exact distinct

theorem numbered_release (r : Registry) (id : String) (run : Nat) :
    (r.release id run).1.numbered = r.numbered := by
  unfold release
  split <;> rfl

end Registry

namespace Supervisor

variable {s t : Supervisor}

/-! ## Which runs matter to the registry -/

/-- The run is the last one that was launched for the id. -/
structure IsLatest (s : Supervisor) (id : String) (n : Nat) : Prop where
  found : ∃ r, s.run? n = some r ∧ r.task.id = id
  last : ∀ m r, s.run? m = some r → r.task.id = id → m ≤ n

/-- The run has been launched and has not been released. -/
def IsUnreleased (s : Supervisor) (n : Nat) : Prop :=
  ∃ r, s.run? n = some r ∧ r.phase.isReleased = false

theorem IsLatest.unique {id : String} {n m : Nat} (h : s.IsLatest id n) (k : s.IsLatest id m) :
    n = m := by
  obtain ⟨r, hr, same⟩ := h.found
  obtain ⟨q, hq, same'⟩ := k.found
  exact Nat.le_antisymm (k.last n r hr same) (h.last m q hq same')

/-- Which run is the latest of an id hangs on the tasks of the runs alone. -/
theorem IsLatest.of_tasks {id : String} {n : Nat} (h : s.IsLatest id n)
    (tasks : ∀ m, (t.run? m).map (·.task) = (s.run? m).map (·.task)) : t.IsLatest id n := by
  obtain ⟨⟨r, hr, same⟩, last⟩ := h
  constructor
  · have there := tasks n
    rw [hr] at there
    obtain ⟨r', hr', task⟩ := Option.map_eq_some_iff.mp there
    exact ⟨r', hr', task ▸ same⟩
  · intro m q' hq' hid
    have there := tasks m
    rw [hq'] at there
    obtain ⟨q, hq, task⟩ := Option.map_eq_some_iff.mp there.symm
    exact last m q hq (task ▸ hid)

theorem isLatest_congr (tasks : ∀ m, (t.run? m).map (·.task) = (s.run? m).map (·.task))
    (id : String) (n : Nat) : t.IsLatest id n ↔ s.IsLatest id n :=
  ⟨fun h => h.of_tasks fun m => (tasks m).symm, fun h => h.of_tasks tasks⟩

/-- The same runs are released in both states, and no token is given back. -/
structure SameStanding (s t : Supervisor) : Prop where
  length : t.runs.length = s.runs.length
  run : ∀ n r, s.run? n = some r → ∃ r', t.run? n = some r' ∧ r'.task = r.task ∧
    r'.phase.isReleased = r.phase.isReleased ∧ (r.cancelled = true → r'.cancelled = true)

namespace SameStanding

theorem of_runs_eq (h : t.runs = s.runs) : SameStanding s t :=
  ⟨by rw [h], fun n r found => ⟨r, (run?_congr h n).trans found, rfl, rfl, id⟩⟩

theorem back (h : SameStanding s t) {n : Nat} {r' : Run} (found : t.run? n = some r') :
    ∃ r, s.run? n = some r ∧ r'.task = r.task ∧
      r'.phase.isReleased = r.phase.isReleased ∧ (r.cancelled = true → r'.cancelled = true) := by
  have bounds := run?_bounds found
  rw [h.length] at bounds
  obtain ⟨r, hr⟩ := run?_isSome bounds.1 bounds.2
  obtain ⟨q, hq, same⟩ := h.run n r hr
  obtain rfl : q = r' := Option.some.inj (hq.symm.trans found)
  exact ⟨r, hr, same⟩

theorem tasks (h : SameStanding s t) (n : Nat) :
    (t.run? n).map (·.task) = (s.run? n).map (·.task) := by
  cases known : s.run? n with
  | some r =>
      obtain ⟨r', hr', task, -⟩ := h.run n r known
      rw [hr', Option.map_some, Option.map_some, task]
  | none => cases there : t.run? n with
    | none => rfl
    | some r' =>
        obtain ⟨r, hr, -⟩ := h.back there
        rw [known] at hr
        cases hr

theorem isUnreleased (h : SameStanding s t) (n : Nat) : t.IsUnreleased n ↔ s.IsUnreleased n := by
  constructor
  · rintro ⟨r', hr', unreleased⟩
    obtain ⟨r, hr, -, same, -⟩ := h.back hr'
    exact ⟨r, hr, same ▸ unreleased⟩
  · rintro ⟨r, hr, unreleased⟩
    obtain ⟨r', hr', -, same, -⟩ := h.run n r hr
    exact ⟨r', hr', same ▸ unreleased⟩

/-- A phase on the same side of the release keeps every standing. -/
theorem withPhase {number : Nat} {r : Run} {phase : Phase} (found : s.run? number = some r)
    (same : phase.isReleased = r.phase.isReleased) : SameStanding s (s.withPhase number phase) := by
  refine ⟨length_runs_modifyRun s number _, fun n q hq => ?_⟩
  by_cases here : n = number
  · subst here
    obtain rfl : r = q := Option.some.inj (found.symm.trans hq)
    exact ⟨_, run?_withPhase_self found phase, rfl, same, id⟩
  · exact ⟨q, (run?_withPhase_ne here phase).trans hq, rfl, rfl, id⟩

end SameStanding

theorem CourseStep.isReleased_eq {number : Nat} {r : Run} {marks : List Mark} {phase : Phase}
    (h : s.CourseStep number r marks phase) : phase.isReleased = r.phase.isReleased := by
  cases h <;> simp_all [Phase.isReleased]

/-- The state after the run has given back its entry, if it had one, and has been released. -/
def withRelease (s : Supervisor) (number : Nat) (r : Run) (fault : Option Fault) : Supervisor :=
  { s with registry := (s.registry.release r.task.id number).1 }.withPhase number (.released fault)

/-- A change launches a run, or releases one, or leaves alone what the registry depends on. -/
theorem Change.standing {marks : List Mark} (h : Change s marks t) :
    (t.registry = s.registry ∧ SameStanding s t) ∨
    (∃ number r fault, s.run? number = some r ∧ t = s.withRelease number r fault) ∨
    ∃ task origin, t = s.withRun task origin := by
  cases h
  case launch task origin _ _ => exact .inr (.inr ⟨task, origin, rfl⟩)
  case release number r fault found _ => exact .inr (.inl ⟨number, r, fault, found, rfl⟩)
  case course found step => exact .inl ⟨rfl, .withPhase found step.isReleased_eq⟩
  case lineUp number r fault found ended =>
    have same : (Phase.inLine fault).isReleased = r.phase.isReleased := by
      rcases ended.phase with phase | phase <;> simp [phase, Phase.isReleased]
    have standing : SameStanding { s with line := s.line ++ [number] } _ := .withPhase found same
    exact .inl ⟨rfl, standing.length, standing.run⟩
  case send number r fault found phase _ _ | discard number r fault found phase _ =>
    have same : (Phase.finished fault).isReleased = r.phase.isReleased := by
      simp [phase, Phase.isReleased]
    have standing : SameStanding { s with line := s.line.erase number } _ := .withPhase found same
    exact .inl ⟨rfl, standing.length, standing.run⟩
  case cancelRun number r _ _ =>
    refine .inl ⟨rfl, length_runs_modifyRun s number _, fun n q hq => ?_⟩
    exact ⟨_, run?_cancelToken hq number, by split <;> simp⟩
  case cancelAll =>
    refine .inl ⟨rfl, length_runs_foldl_cancelToken s s.registry.runs, fun n q hq => ?_⟩
    exact ⟨_, run?_foldl_cancelToken hq s.registry.runs, by split <;> simp⟩
  all_goals exact .inl ⟨rfl, .of_runs_eq rfl⟩

/-! ## The invariant -/

/-- How the registry fits to the runs. -/
structure RegistryInvariant (s : Supervisor) : Prop where
  numbered : s.registry.numbered = s.runs.length
  distinct : (s.registry.entries.map (·.id)).Nodup
  lookup_iff : ∀ id n, s.registry.lookup id = some n ↔ s.IsLatest id n ∧ s.IsUnreleased n
  /-- A run that lingers without an entry has lost its token. -/
  superseded : ∀ n r, s.run? n = some r → r.phase.isReleased = false →
    s.registry.lookup r.task.id ≠ some n → r.cancelled = true

namespace RegistryInvariant

theorem create (setup : Setup) : RegistryInvariant (create setup) where
  numbered := rfl
  distinct := .nil
  lookup_iff id n := by
    constructor
    · intro h
      cases h
    · rintro ⟨⟨⟨r, hr, -⟩, -⟩, -⟩
      cases n <;> cases hr
  superseded n r hr := by cases n <;> cases hr

theorem of_standing (inv : RegistryInvariant s) (registry : t.registry = s.registry)
    (same : SameStanding s t) : RegistryInvariant t where
  numbered := by rw [registry, same.length, inv.numbered]
  distinct := by rw [registry]; exact inv.distinct
  lookup_iff id n := by rw [registry, inv.lookup_iff, isLatest_congr same.tasks, same.isUnreleased]
  superseded n r' hr' unreleased missing := by
    obtain ⟨r, hr, task, released, cancelled⟩ := same.back hr'
    rw [registry, task] at missing
    exact cancelled (inv.superseded n r hr (released ▸ unreleased) missing)

/-- The number that the registry gives to a new run is its place in the list of runs. -/
theorem lookup_withRun (inv : RegistryInvariant s) (task : Task) (origin : Option Nat)
    (id : String) : (s.withRun task origin).registry.lookup id =
      if id = task.id then some (s.runs.length + 1) else s.registry.lookup id := by
  rw [withRun, Registry.lookup_install, inv.numbered]

/-- A new run is the latest of its id, and the other ids keep theirs. -/
theorem isLatest_withRun (s : Supervisor) (task : Task) (origin : Option Nat) (id : String)
    (n : Nat) : (s.withRun task origin).IsLatest id n ↔
      if id = task.id then n = s.runs.length + 1 else s.IsLatest id n := by
  have bound : ∀ m r, (s.withRun task origin).run? m = some r → m ≤ s.runs.length + 1 :=
    fun m r hr => length_runs_withRun s task origin ▸ (run?_bounds hr).2
  by_cases own : id = task.id
  · rw [if_pos own]
    constructor
    · rintro ⟨⟨r, hr, -⟩, last⟩
      exact Nat.le_antisymm (bound n r hr) (last _ _ (run?_new s task origin) own.symm)
    · rintro rfl
      exact ⟨⟨_, run?_new s task origin, own.symm⟩, fun m r hr _ => bound m r hr⟩
  · rw [if_neg own]
    constructor
    · rintro ⟨⟨r', hr', same⟩, last⟩
      have old : n ≠ s.runs.length + 1 := by
        rintro rfl
        rw [run?_new, Option.some.injEq] at hr'
        subst hr'
        exact own same.symm
      obtain ⟨r, hr, kept, -⟩ := run?_old hr' old
      refine ⟨⟨r, hr, kept ▸ same⟩, fun m q hq hid => ?_⟩
      refine last m _ (run?_withRun_of_run? hq task origin) ?_
      split <;> exact hid
    · rintro ⟨⟨r, hr, same⟩, last⟩
      refine ⟨⟨_, run?_withRun_of_run? hr task origin, by split <;> exact same⟩, ?_⟩
      intro m q hq hid
      have old : m ≠ s.runs.length + 1 := by
        rintro rfl
        rw [run?_new, Option.some.injEq] at hq
        subst hq
        exact own hid.symm
      obtain ⟨r, hr, kept, -⟩ := run?_old hq old
      exact last m r hr (kept ▸ hid)

theorem isUnreleased_withRun {s : Supervisor} {task : Task} {origin : Option Nat} {n : Nat}
    (old : n ≠ s.runs.length + 1) :
    (s.withRun task origin).IsUnreleased n ↔ s.IsUnreleased n := by
  constructor
  · rintro ⟨r', hr', unreleased⟩
    obtain ⟨r, hr, -, kept, -⟩ := run?_old hr' old
    exact ⟨r, hr, kept ▸ unreleased⟩
  · rintro ⟨r, hr, unreleased⟩
    exact ⟨_, run?_withRun_of_run? hr task origin, by split <;> exact unreleased⟩

theorem withRun (inv : RegistryInvariant s) (task : Task) (origin : Option Nat) :
    RegistryInvariant (s.withRun task origin) where
  numbered := by
    rw [length_runs_withRun, ← inv.numbered]
    rfl
  distinct := Registry.distinct_install inv.distinct task.id
  lookup_iff id n := by
    rw [inv.lookup_withRun, isLatest_withRun]
    by_cases own : id = task.id
    · rw [if_pos own, if_pos own]
      constructor
      · rintro ⟨⟩
        exact ⟨rfl, _, run?_new s task origin, rfl⟩
      · rintro ⟨rfl, -⟩
        rfl
    · rw [if_neg own, if_neg own, inv.lookup_iff]
      refine and_congr_right fun latest => (isUnreleased_withRun ?_).symm
      obtain ⟨r, hr, -⟩ := latest.found
      have bounds := run?_bounds hr
      omega
  superseded n r' hr' unreleased missing := by
    by_cases new : n = s.runs.length + 1
    · subst new
      rw [run?_new, Option.some.injEq] at hr'
      subst hr'
      rw [inv.lookup_withRun, if_pos rfl] at missing
      exact absurd rfl missing
    · obtain ⟨r, hr, task', phase, cancelled⟩ := run?_old hr' new
      rw [task', inv.lookup_withRun] at missing
      apply cancelled
      by_cases evicted : s.registry.lookup task.id = some n
      · exact .inl evicted
      · refine .inr (inv.superseded n r hr (phase ▸ unreleased) ?_)
        split at missing
        · next own => rwa [own]
        · exact missing

theorem run?_withRelease {number : Nat} {r : Run} (found : s.run? number = some r)
    (fault : Option Fault) (n : Nat) : (s.withRelease number r fault).run? n =
      if n = number then some { r with phase := .released fault } else s.run? n := by
  let u : Supervisor := { s with registry := (s.registry.release r.task.id number).1 }
  split
  · next here =>
      subst here
      exact run?_withPhase_self (s := u) found _
  · next other => exact run?_withPhase_ne (s := u) other _

theorem isLatest_withRelease {number : Nat} {r : Run} (found : s.run? number = some r)
    (fault : Option Fault) (id : String) (n : Nat) :
    (s.withRelease number r fault).IsLatest id n ↔ s.IsLatest id n := by
  refine isLatest_congr (fun m => ?_) id n
  rw [run?_withRelease found]
  split
  · next here =>
      rw [here, found]
      rfl
  · rfl

theorem isUnreleased_withRelease {number : Nat} {r : Run} (found : s.run? number = some r)
    (fault : Option Fault) (n : Nat) :
    (s.withRelease number r fault).IsUnreleased n ↔ n ≠ number ∧ s.IsUnreleased n := by
  simp only [IsUnreleased, run?_withRelease found]
  split
  · next here =>
      constructor
      · rintro ⟨q, hq, lingers⟩
        cases hq
        cases lingers
      · rintro ⟨other, -⟩
        exact absurd here other
  · next other => exact (and_iff_right other).symm

/-- The entry that goes away, if one does, is the one of the run that is released. -/
theorem lookup_withRelease (inv : RegistryInvariant s) {number : Nat} {r : Run}
    (found : s.run? number = some r) (fault : Option Fault) (id : String) (n : Nat) :
    (s.withRelease number r fault).registry.lookup id = some n ↔
      n ≠ number ∧ s.registry.lookup id = some n := by
  change (s.registry.release r.task.id number).1.lookup id = some n ↔ _
  rw [Registry.lookup_release]
  constructor
  · intro h
    split at h
    · cases h
    · next kept =>
        refine ⟨?_, h⟩
        rintro rfl
        obtain ⟨⟨q, hq, same⟩, -⟩ := ((inv.lookup_iff id n).mp h).1
        obtain rfl : q = r := Option.some.inj (hq.symm.trans found)
        exact kept ⟨same.symm, same.symm ▸ h⟩
  · rintro ⟨other, h⟩
    rw [if_neg, h]
    rintro ⟨rfl, own⟩
    exact other (Option.some.inj (h.symm.trans own))

theorem withRelease (inv : RegistryInvariant s) {number : Nat} {r : Run}
    (found : s.run? number = some r) (fault : Option Fault) :
    RegistryInvariant (s.withRelease number r fault) where
  numbered := by
    have length : (s.withRelease number r fault).runs.length = s.runs.length :=
      length_runs_modifyRun _ number _
    rw [length, ← inv.numbered]
    exact Registry.numbered_release _ _ _
  distinct := Registry.distinct_release inv.distinct r.task.id number
  lookup_iff id n := by
    rw [inv.lookup_withRelease found, inv.lookup_iff, isLatest_withRelease found,
      isUnreleased_withRelease found, and_left_comm]
  superseded n q hq lingers missing := by
    have other : n ≠ number := ((isUnreleased_withRelease found fault n).mp ⟨q, hq, lingers⟩).1
    rw [run?_withRelease found, if_neg other] at hq
    refine inv.superseded n q hq lingers fun h => missing ?_
    exact (inv.lookup_withRelease found fault _ n).mpr ⟨other, h⟩

end RegistryInvariant

theorem Change.registryInvariant {marks : List Mark} (h : Change s marks t)
    (inv : RegistryInvariant s) : RegistryInvariant t := by
  rcases h.standing with ⟨registry, same⟩ | ⟨number, r, fault, found, rfl⟩ |
    ⟨task, origin, rfl⟩
  · exact inv.of_standing registry same
  · exact inv.withRelease found fault
  · exact inv.withRun task origin

theorem Attained.registryInvariant {setup : Setup} (h : Attained setup s) :
    RegistryInvariant s := by
  refine h.invariant (.create setup) fun _ inv change => ?_
  exact (change.registryInvariant inv).of_standing rfl (.of_runs_eq rfl)

/-! ## One live run per id -/

namespace RegistryInvariant

/-- Of the runs of an id that have not been released only the latest may have a token that is not
cancelled. -/
theorem isLatest_of_live (inv : RegistryInvariant s) {n : Nat} {r : Run}
    (found : s.run? n = some r) (unreleased : r.phase.isReleased = false)
    (live : s.tokenIsCancelled r = false) : s.IsLatest r.task.id n := by
  have kept : r.cancelled = false := by
    cases cancelled : r.cancelled with
    | false => rfl
    | true => simp [tokenIsCancelled, cancelled] at live
  cases registered : decide (s.registry.lookup r.task.id = some n) with
  | true => exact ((inv.lookup_iff _ _).mp (of_decide_eq_true registered)).1
  | false =>
      rw [inv.superseded n r found unreleased (of_decide_eq_false registered)] at kept
      cases kept

theorem mem_active_iff (inv : RegistryInvariant s) (id : String) :
    id ∈ s.active ↔ ∃ n, s.IsLatest id n ∧ s.IsUnreleased n := by
  have sorted : id ∈ s.active ↔ id ∈ s.registry.entries.map (·.id) :=
    (sortBy_perm textLe _).mem_iff
  rw [sorted]
  constructor
  · intro h
    obtain ⟨⟨_, n⟩, member, rfl⟩ := List.mem_map.mp h
    exact ⟨n, (inv.lookup_iff _ n).mp ((Registry.lookup_eq_some_iff inv.distinct _ n).mpr member)⟩
  · rintro ⟨n, latest⟩
    have registered := (inv.lookup_iff id n).mpr latest
    have member := (Registry.lookup_eq_some_iff inv.distinct id n).mp registered
    exact List.mem_map.mpr ⟨_, member, rfl⟩

/-- The active ids are in strictly ascending order. -/
theorem pairwise_active (inv : RegistryInvariant s) : s.active.Pairwise (· < ·) := by
  have distinct : s.active.Nodup := (sortBy_perm textLe _).nodup_iff.mpr inv.distinct
  have ascending : s.active.Pairwise (textLe · ·) := by
    refine pairwise_sortBy ?_ ?_ _
    · intro a b
      simpa [textLe] using le_total a b
    · intro a b c hab hbc
      simp only [textLe, decide_eq_true_eq] at hab hbc ⊢
      exact hab.trans hbc
  refine (ascending.and distinct).imp ?_
  rintro a b ⟨below, other⟩
  exact lt_of_le_of_ne (by simpa [textLe] using below) other

end RegistryInvariant

/-- A run that is released clears its own entry at most. -/
theorem registry_of_release {number : Nat} (h : s.release number = some t) :
    ∃ r, s.run? number = some r ∧ t.registry = (s.registry.release r.task.id number).1 := by
  unfold release at h
  split at h
  · next r found =>
      split at h
      · cases h
        refine ⟨r, found, ?_⟩
        rw [setPhase_eq]
        rfl
      · cases h
  · cases h

/-- What the registry says of the runs, in one state. -/
structure OneLiveRun (s : Supervisor) : Prop where
  /-- An id has the entry of a run if and only if the run is the latest of the id and has not been
  released. -/
  entry_iff : ∀ id n, ⟨id, n⟩ ∈ s.registry.entries ↔ s.IsLatest id n ∧ s.IsUnreleased n
  /-- Any other run that has not been released has lost its token. -/
  superseded : ∀ n r, s.run? n = some r → s.IsUnreleased n → ¬ s.IsLatest r.task.id n →
    s.tokenIsCancelled r = true
  /-- An id has at most one run that is neither released nor cancelled. -/
  unique : ∀ n m r q, s.run? n = some r → s.run? m = some q → r.task.id = q.task.id →
    r.phase.isReleased = false → q.phase.isReleased = false →
    s.tokenIsCancelled r = false → s.tokenIsCancelled q = false → n = m
  /-- A run that is released takes no entry away but its own. -/
  release_keeps : ∀ n t, s.release n = some t → ∀ id m, m ≠ n →
    ⟨id, m⟩ ∈ s.registry.entries → ⟨id, m⟩ ∈ t.registry.entries
  /-- The active ids are those of the latest runs that have not been released, in order. -/
  active_sorted : s.active.Pairwise (· < ·)
  active_iff : ∀ id, id ∈ s.active ↔ ∃ n, s.IsLatest id n ∧ s.IsUnreleased n
  /-- At rest the runs that have been released are those whose work has ended. -/
  released_iff : s.isQuiescent = true → ∀ n r, s.run? n = some r →
    (r.phase.isReleased = true ↔ r.phase.isReturned = true)

/-- In every reachable state each id has at most one live run, and the registry knows it. -/
theorem oneLiveRun {setup : Setup} (h : Reachable setup s) : OneLiveRun s := by
  have inv := h.attained.registryInvariant
  refine ⟨?_, ?_, ?_, ?_, inv.pairwise_active, inv.mem_active_iff, ?_⟩
  · intro id n
    rw [← Registry.lookup_eq_some_iff inv.distinct, inv.lookup_iff]
  · intro n r found ⟨q, hq, unreleased⟩ stale
    obtain rfl : q = r := Option.some.inj (hq.symm.trans found)
    cases live : s.tokenIsCancelled q with
    | true => rfl
    | false => exact absurd (inv.isLatest_of_live found unreleased live) stale
  · intro n m r q hr hq same hn hm liven livem
    have latest := inv.isLatest_of_live hr hn liven
    rw [same] at latest
    exact latest.unique (inv.isLatest_of_live hq hm livem)
  · intro n t released id m other member
    have next : Reachable setup t := h.step (m := .progress (.release n)) released
    have distinct := next.attained.registryInvariant.distinct
    rw [← Registry.lookup_eq_some_iff distinct]
    rw [← Registry.lookup_eq_some_iff inv.distinct] at member
    obtain ⟨r, -, registry⟩ := registry_of_release released
    rw [registry, Registry.lookup_release, if_neg, member]
    rintro ⟨rfl, own⟩
    exact other (Option.some.inj (member.symm.trans own))
  · intro quiescent n r found
    rcases phase_of_quiescent quiescent found with phase | ⟨fault, phase | phase⟩ <;>
      simp [phase, Phase.isReleased, Phase.isReturned, Phase.fault?]

/-- A run that was replaced ends after its successor has begun, and leaves the entry alone. -/
theorem oneLiveRun_of_replacement :
    ∃ s, (create {}).applyAll
        [.start, .submit { id := "sync", work := some {} }, .progress (.begin 1),
          .submit { id := "sync", work := some {} }, .finish 1 (.returns none),
          .progress (.release 1)] = some s ∧
      s.registry.entries = [⟨"sync", 2⟩] ∧ OneLiveRun s := by
  obtain ⟨s, ran, entries⟩ : ∃ s, (create {}).applyAll
        [.start, .submit { id := "sync", work := some {} }, .progress (.begin 1),
          .submit { id := "sync", work := some {} }, .finish 1 (.returns none),
          .progress (.release 1)] = some s ∧ s.registry.entries = [⟨"sync", 2⟩] := ⟨_, rfl, rfl⟩
  exact ⟨s, ran, entries, oneLiveRun (reachable_of_applyAll ran)⟩

end Supervisor

end Supervision
