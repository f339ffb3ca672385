import Supervision.Proofs.ActiveRuns

/-!
# What a restart supersedes

A restart acts on behalf of a run that has given its registry entry back. Until the restart is made
anybody can submit the id again, and that submission cancels nothing: there is no entry to clear and
no token to cancel. The restart, at once or after its delay, then launches a run all the same, and
supersedes the newer submission if it is still active.

Results:
1. `Attained.originInvariant`: delays and restarted runs come from runs that were released.
2. `Chain.isBarred`, `isBarred_of_superseded`: a run that lost its entry to a successor is never
   restarted.
3. `resubmission_evicts_iff`: a restart supersedes a newer run if and only if the id is active.
4. `delayedRestart_evicts_newer`: a delayed restart can supersede a submission that came later.
-/

namespace Supervision

namespace Supervisor

variable {s t u : Supervisor}

/-! ## Where delays and restarted runs come from -/

/-- The run `n` is one of the task and has been released. -/
def IsReleasedRunOf (s : Supervisor) (n : Nat) (task : Task) : Prop :=
  ∃ r, s.run? n = some r ∧ r.task = task ∧ r.phase.isReleased = true

structure OriginInvariant (s : Supervisor) : Prop where
  runs : ∀ k r n, s.run? k = some r → r.origin = some n → n < k ∧ s.IsReleasedRunOf n r.task
  delays : ∀ d ∈ s.delays, s.IsReleasedRunOf d.origin d.task

theorem IsReleasedRunOf.change {marks : List Mark} (h : Change s marks t) {n : Nat} {task : Task}
    (released : s.IsReleasedRunOf n task) : t.IsReleasedRunOf n task := by
  obtain ⟨r, hr, same, phase⟩ := released
  obtain ⟨r', hr', evolves⟩ := h.evolves hr
  exact ⟨r', hr', evolves.task.trans same, evolves.released phase⟩

theorem Grounds.isReleasedRunOf {n : Nat} {task : Task} (grounds : s.Grounds n task)
    (inv : OriginInvariant s) : s.IsReleasedRunOf n task := by
  cases grounds with
  | callback found phase _ same => exact ⟨_, found, same, by rw [phase]; rfl⟩
  | delay member _ origin same =>
      have released := inv.delays _ member
      rwa [origin, same] at released

/-- A delay that is there after a change was there before, or a callback of a run that is not
cancelled has asked for it. -/
theorem Change.delay_cases {marks : List Mark} (h : Change s marks t) {d : Delay}
    (member : d ∈ t.delays) :
    (∃ d' ∈ s.delays, d'.task = d.task ∧ d'.origin = d.origin) ∨
    ∃ r scope fault, s.run? d.origin = some r ∧ r.phase = .calling scope fault ∧
      s.tokenIsCancelled r = false ∧ r.task = d.task := by
  -- a delay that is set to a new state is the same in all else
  have set : ∀ index state, d ∈ (s.setDelay index state).delays →
      ∃ d' ∈ s.delays, d'.task = d.task ∧ d'.origin = d.origin := by
    intro index state there
    obtain ⟨k, found⟩ := List.mem_iff_getElem?.mp there
    simp only [setDelay, List.getElem?_modify] at found
    obtain ⟨before, known, rfl⟩ := Option.map_eq_some_iff.mp found
    refine ⟨before, List.mem_of_getElem? known, ?_⟩
    split <;> exact ⟨rfl, rfl⟩
  cases h
  case defer number r scope fault delay found phase kept _ _ =>
    rcases List.mem_append.mp member with old | new
    · exact .inl ⟨d, old, rfl, rfl⟩
    · rw [List.mem_singleton.mp new]
      exact .inr ⟨r, scope, fault, found, phase, kept, rfl⟩
  case fire index _ _ _ _ => exact .inl (set index .fired member)
  case abandon index _ _ _ _ => exact .inl (set index .abandoned member)
  case arm index _ _ _ => exact .inl (set index .pending member)
  all_goals exact .inl ⟨d, member, rfl, rfl⟩

theorem OriginInvariant.create (setup : Setup) : OriginInvariant (create setup) where
  runs k r n found := by cases k <;> cases found
  delays d member := by cases member

theorem Change.originInvariant {marks : List Mark} (h : Change s marks t)
    (inv : OriginInvariant s) : OriginInvariant t where
  runs k r' n found origin := by
    rcases h.run?_cases found with ⟨r, hr, evolves⟩ | ⟨task, o, rfl, rfl, -, grounds⟩
    · rw [evolves.origin] at origin
      obtain ⟨earlier, released⟩ := inv.runs k r n hr origin
      rw [evolves.task]
      exact ⟨earlier, released.change h⟩
    · obtain ⟨r, hr, released⟩ := (grounds n origin).isReleasedRunOf inv
      have bounds := run?_bounds hr
      exact ⟨by omega, IsReleasedRunOf.change h ⟨r, hr, released⟩⟩
  delays d member := by
    rcases h.delay_cases member with
      ⟨d', old, task, origin⟩ | ⟨r, scope, fault, found, phase, -, same⟩
    · have released := inv.delays d' old
      rw [task, origin] at released
      exact released.change h
    · exact IsReleasedRunOf.change h ⟨r, found, same, by rw [phase]; rfl⟩

theorem Attained.originInvariant {setup : Setup} (h : Attained setup s) : OriginInvariant s := by
  refine h.invariant (.create setup) fun _ inv change => ?_
  have next := change.originInvariant inv
  exact ⟨next.runs, next.delays⟩

/-! ## Runs that are never restarted -/

/-- The run was cancelled before anything was done on its behalf. -/
structure IsBarred (s : Supervisor) (n : Nat) : Prop where
  cancelled : ∃ r, s.run? n = some r ∧ r.cancelled = true
  noDelay : ∀ d ∈ s.delays, d.origin ≠ n
  noRun : ∀ k r, s.run? k = some r → r.origin ≠ some n

theorem IsBarred.contradiction {n : Nat} (barred : s.IsBarred n) {r : Run}
    (found : s.run? n = some r) (kept : s.tokenIsCancelled r = false) : False := by
  obtain ⟨q, hq, cancelled⟩ := barred.cancelled
  obtain rfl : q = r := Option.some.inj (hq.symm.trans found)
  rw [tokenIsCancelled, cancelled] at kept
  cases kept

theorem Change.isBarred {marks : List Mark} (h : Change s marks t) {n : Nat}
    (barred : s.IsBarred n) : t.IsBarred n where
  cancelled := by
    obtain ⟨r, hr, cancelled⟩ := barred.cancelled
    obtain ⟨r', hr', evolves⟩ := h.evolves hr
    exact ⟨r', hr', evolves.cancelled cancelled⟩
  noDelay d member same := by
    rcases h.delay_cases member with ⟨d', old, -, origin⟩ | ⟨r, _, _, found, -, kept, -⟩
    · exact barred.noDelay d' old (origin.trans same)
    · exact barred.contradiction (same ▸ found) kept
  noRun k r' found origin := by
    rcases h.run?_cases found with ⟨r, hr, evolves⟩ | ⟨task, o, -, rfl, -, grounds⟩
    · exact barred.noRun k r hr (evolves.origin ▸ origin)
    · cases grounds n origin with
      | callback hr _ kept _ => exact barred.contradiction hr kept
      | delay member _ same _ => exact barred.noDelay _ member same

theorem Chain.isBarred (h : Chain s t) {n : Nat} (barred : s.IsBarred n) : t.IsBarred n := by
  induction h with
  | refl => exact barred
  | tail _ advances ih =>
      obtain ⟨marks, u, change, rfl⟩ := advances
      have still := change.isBarred ih
      exact ⟨still.cancelled, still.noDelay, still.noRun⟩

/-- A run that has lost its entry to a successor is barred from being restarted. -/
theorem isBarred_of_superseded {setup : Setup} (h : Attained setup s) {n : Nat} {r : Run}
    (found : s.run? n = some r) (unreleased : r.phase.isReleased = false)
    (stale : ¬ s.IsLatest r.task.id n) : s.IsBarred n where
  cancelled := by
    refine ⟨r, found, h.registryInvariant.superseded n r found unreleased fun registered => ?_⟩
    exact stale ((h.registryInvariant.lookup_iff _ _).mp registered).1
  noDelay d member same := by
    obtain ⟨q, hq, -, released⟩ := h.originInvariant.delays d member
    rw [same, found, Option.some.injEq] at hq
    rw [← hq, unreleased] at released
    cases released
  noRun k q hq origin := by
    obtain ⟨-, p, hp, -, released⟩ := h.originInvariant.runs k q n hq origin
    rw [found, Option.some.injEq] at hp
    rw [← hp, unreleased] at released
    cases released

/-! ## Moves that restart a task -/

/-- The move from `s` to `t` launches a run on behalf of the run `n`. -/
def Resubmits (s t : Supervisor) (n : Nat) : Prop :=
  ∃ r, t.run? (s.runs.length + 1) = some r ∧ r.origin = some n

/-- The move from `s` to `t` cancels the active run `m` and puts the run that it launches in its
place. -/
def Evicts (s t : Supervisor) (m : Nat) : Prop :=
  ∃ id r, s.registry.lookup id = some m ∧ t.registry.lookup id = some (s.runs.length + 1) ∧
    t.run? m = some r ∧ r.cancelled = true

/-- But for what the registry does not depend on, `t` is `s` after a launch on behalf of `n`. -/
def LaunchesFor (s t : Supervisor) (n : Nat) : Prop :=
  ∃ (u : Supervisor) (task : Task) (marks : List Mark), u.runs = s.runs ∧
    u.registry = s.registry ∧ t = (u.withRun task (some n)).writeAll marks

/-- If a move from `s` to `t` restarts a task then it does not launch anything besides. -/
def RestartsAlone (s t : Supervisor) : Prop := ∀ n, Resubmits s t n → LaunchesFor s t n

namespace RestartsAlone

theorem of_length (h : t.runs.length = s.runs.length) : RestartsAlone s t := by
  rintro n ⟨r, found, -⟩
  have bounds := run?_bounds found
  omega

theorem of_withRun (runs : u.runs = s.runs) (registry : u.registry = s.registry) (task : Task)
    (origin : Option Nat) (marks : List Mark) :
    RestartsAlone s ((u.withRun task origin).writeAll marks) := by
  rintro n ⟨r, found, own⟩
  rw [run?_writeAll, ← runs, run?_new, Option.some.injEq] at found
  subst found
  obtain rfl : origin = some n := own
  exact ⟨u, task, marks, runs, registry, rfl⟩

theorem of_advances (runs : u.runs = s.runs) (registry : u.registry = s.registry)
    (h : Advances u t) : RestartsAlone s t := by
  obtain ⟨marks, v, change, rfl⟩ := h
  rcases change.launches with ⟨length, -⟩ | ⟨task, origin, -, -, rfl, -⟩
  · rw [runs] at length
    exact of_length length
  · exact of_withRun runs registry task origin marks

theorem submit (runs : u.runs = s.runs) (registry : u.registry = s.registry) (task : Task)
    (origin : Option Nat) : RestartsAlone s (u.submit task origin) := by
  unfold Supervisor.submit
  split
  · exact of_length (congrArg _ runs)
  · rw [launch_eq]
    exact of_withRun runs registry task origin _
  · exact of_length (congrArg _ runs)

/-- The tasks that wait for the start are not restarts. -/
theorem foldl_launch (tasks : List Task) (u : Supervisor) (shorter : s.runs.length ≤ u.runs.length)
    (own : ∀ r n, u.run? (s.runs.length + 1) = some r → r.origin ≠ some n) :
    RestartsAlone s (tasks.foldl (fun u task => u.launch task none) u) := by
  induction tasks generalizing u with
  | nil =>
      rintro n ⟨r, found, origin⟩
      exact absurd origin (own r n found)
  | cons task rest ih =>
      refine ih (u.launch task none) ?_ ?_
      · rw [launch_eq]
        have length := length_runs_withRun u task none
        exact shorter.trans (length ▸ Nat.le_succ _)
      · intro r n found origin
        rw [launch_eq, run?_writeAll, run?_withRun] at found
        split at found
        · cases found
          cases origin
        · split at found
          · obtain ⟨q, hq, rfl⟩ := Option.map_eq_some_iff.mp found
            exact own q n hq origin
          · exact own r n found origin

theorem start (h : s.start = .ok t) : RestartsAlone s t := by
  unfold Supervisor.start at h
  split at h
  · cases h
    exact of_length rfl
  · cases h
  · cases h
    refine foldl_launch s.pending _ (Nat.le_refl _) ?_
    intro r n found
    have bounds := run?_bounds found
    exact absurd bounds.2 (Nat.not_succ_le_self _)

theorem apply {m : Move} (h : s.apply m = some t) : RestartsAlone s t := by
  cases compound : m.isCompound with
  | false => exact of_advances rfl rfl (apply_advances compound h)
  | true => cases apply_compound compound h with
    | idle prepared =>
        obtain ⟨_, _, _, rfl⟩ := prepared
        exact of_length rfl
    | submit prepared task origin submitted =>
        obtain ⟨_, _, _, rfl⟩ := prepared
        subst submitted
        exact submit rfl rfl task origin
    | start _ started => exact start started
    | @leave streaks _ _ left =>
        exact of_advances (u := { s with streaks }) rfl rfl (leave_steps left).advances

end RestartsAlone

/-! ## What a restart supersedes -/

/-- What a launch evicts is the active run of its id. -/
theorem RegistryInvariant.evicts_iff (inv : RegistryInvariant s) (runs : u.runs = s.runs)
    (registry : u.registry = s.registry) (task : Task) (origin : Option Nat) (marks : List Mark)
    (m : Nat) : Evicts s ((u.withRun task origin).writeAll marks) m ↔
      s.registry.lookup task.id = some m := by
  have lookup : ∀ id, ((u.withRun task origin).writeAll marks).registry.lookup id =
      if id = task.id then some (s.runs.length + 1) else s.registry.lookup id := by
    intro id
    change (u.registry.install task.id).registry.lookup id = _
    rw [registry, Registry.lookup_install, inv.numbered]
  have found : ∀ id, s.registry.lookup id = some m → ∃ r, s.run? m = some r := by
    intro id registered
    obtain ⟨⟨r, hr, -⟩, -⟩ := ((inv.lookup_iff id m).mp registered).1
    exact ⟨r, hr⟩
  constructor
  · rintro ⟨id, -, before, after, -⟩
    rw [lookup] at after
    split at after
    · next here => rwa [here] at before
    · obtain ⟨r, hr⟩ := found id before
      have bounds := run?_bounds hr
      rw [before, Option.some.injEq] at after
      omega
  · intro before
    obtain ⟨r, hr⟩ := found task.id before
    refine ⟨task.id, { r with cancelled := true }, before, by rw [lookup, if_pos rfl], ?_, rfl⟩
    rw [← run?_congr runs] at hr
    rw [run?_writeAll, run?_withRun_of_run? hr, registry, if_pos before]

/-- A run with an entry that shares its id with a released run is newer than that run. -/
theorem RegistryInvariant.lt_of_isReleased (inv : RegistryInvariant s) {n m : Nat} {r : Run}
    (found : s.run? n = some r) (released : r.phase.isReleased = true)
    (registered : s.registry.lookup r.task.id = some m) : n < m := by
  obtain ⟨latest, q, hq, unreleased⟩ := (inv.lookup_iff _ m).mp registered
  refine Nat.lt_of_le_of_ne (latest.last n r found rfl) ?_
  rintro rfl
  rw [found, Option.some.injEq] at hq
  rw [← hq, released] at unreleased
  cases unreleased

/-- Only a run that was the latest of its id for as long as it had its entry is restarted. -/
theorem isLatest_of_resubmits {setup : Setup} (reachable : Reachable setup u) (leads : Leads u s)
    {move : Move} (step : s.apply move = some t) {n : Nat} (resubmits : Resubmits s t n) {r : Run}
    (found : u.run? n = some r) (unreleased : r.phase.isReleased = false) :
    u.IsLatest r.task.id n := by
  by_cases latest : u.IsLatest r.task.id n
  · exact latest
  · have barred := isBarred_of_superseded reachable.attained found unreleased latest
    have chain := (chain_of_leads leads).trans (apply_chain step)
    obtain ⟨q, new, origin⟩ := resubmits
    exact absurd origin ((Chain.isBarred chain barred).noRun _ q new)

/-- A restart supersedes nothing but the active run of its id, which is newer than the run that it
acts for, and it supersedes that run whenever there is one. Only a run that was the latest of its
id for as long as it had its entry is restarted. -/
theorem resubmission_evicts_iff {setup : Setup} (h : Reachable setup s) {move : Move}
    (step : s.apply move = some t) {n : Nat} (resubmits : Resubmits s t n) :
    ∃ r, s.run? n = some r ∧ r.phase.isReleased = true ∧
      (∀ m, Evicts s t m → n < m) ∧
      ((∃ m, Evicts s t m) ↔ r.task.id ∈ s.active) ∧
      ∀ u, Reachable setup u → Leads u s → u.IsUnreleased n → u.IsLatest r.task.id n := by
  have inv := h.attained.registryInvariant
  have alone := RestartsAlone.apply step n resubmits
  obtain ⟨u, task, marks, runs, registry, rfl⟩ := alone
  have new : ((u.withRun task (some n)).writeAll marks).run? (u.runs.length + 1) =
      some { task, origin := some n } := run?_new u task (some n)
  -- the run that is restarted was there before the launch, and had been released
  have origins := (h.step step).attained.originInvariant
  obtain ⟨earlier, r', hr', same', released'⟩ := origins.runs _ _ n new rfl
  obtain ⟨r, hr, same, phase, -⟩ := run?_old hr' (Nat.ne_of_lt earlier)
  rw [run?_congr runs] at hr
  rw [phase] at released'
  obtain rfl : r.task = task := same.symm.trans same'
  refine ⟨r, hr, released', ?_, ?_, ?_⟩
  · intro m evicted
    rw [inv.evicts_iff runs registry] at evicted
    exact inv.lt_of_isReleased hr released' evicted
  · rw [inv.mem_active_iff]
    refine exists_congr fun m => ?_
    rw [inv.evicts_iff runs registry, inv.lookup_iff]
  · intro v reachable leads ⟨q, hq, unreleased⟩
    have latest := isLatest_of_resubmits reachable leads step resubmits hq unreleased
    obtain ⟨q', hq', evolves⟩ := (chain_of_leads leads).evolves hq
    obtain rfl : q' = r := Option.some.inj (hq'.symm.trans hr)
    rwa [evolves.task]

/-- The first restart of a task that nobody has submitted again evicts nothing. -/
theorem resubmission_evicts_iff_of_lone_task :
    ∃ s t, (create {}).applyAll
        [.start, .submit { id := "watch", onFinish := some {} }, .progress (.begin 1),
          .progress (.release 1), .progress (.report 1), .progress (.call 1)] = some s ∧
      s.apply (.restart 1 .always) = some t ∧ Resubmits s t 1 ∧ ¬ ∃ m, Evicts s t m := by
  obtain ⟨s, t, ran, step, resubmits, idle⟩ : ∃ s t, (create {}).applyAll
        [.start, .submit { id := "watch", onFinish := some {} }, .progress (.begin 1),
          .progress (.release 1), .progress (.report 1), .progress (.call 1)] = some s ∧
      s.apply (.restart 1 .always) = some t ∧ Resubmits s t 1 ∧ s.active = [] :=
    ⟨_, _, rfl, rfl, ⟨_, rfl, rfl⟩, rfl⟩
  obtain ⟨r, -, -, -, evicts, -⟩ :=
    resubmission_evicts_iff (reachable_of_applyAll ran) step resubmits
  have nothing : ¬ ∃ m, Evicts s t m := by
    rw [evicts, idle]
    exact List.not_mem_nil
  exact ⟨s, t, ran, step, resubmits, nothing⟩

/-- A task whose callback hands every outcome to a restarter. -/
def watch : Task :=
  { id := "watch", work := some {}, onFinish := some { actions := [.restarter 0] } }

/-- A run of the task fails, and the task is submitted again before the delay of its restart is
over. -/
def submissionDuringDelay : List Move :=
  [.start, .submit watch, .progress (.begin 1), .finish 1 (.returns (some (.failed "down"))),
    .progress (.release 1), .progress (.report 1), .progress (.call 1), .handTo 1 0 0,
    .progress (.arm 0), .progress (.leave 1), .progress (.call 1), .progress (.send 1),
    .progress .observe, .submit watch, .progress (.begin 2), .tick 100]

/-- The restart that comes due evicts the submission that came meanwhile. -/
theorem delayedRestart_evicts_newer :
    ∃ s t, Reachable { restarters := [{ backoff := some (.constant (.ofMillis 100)) }] } s ∧
      s.apply (.progress (.fire 0)) = some t ∧ Resubmits s t 1 ∧ Evicts s t 2 ∧
      ∃ r, s.run? 2 = some r ∧ r.origin = none := by
  have facts : (applyAll (create { restarters := [{ backoff := some (.constant (.ofMillis 100)) }] })
      submissionDuringDelay).any (fun s => (s.apply (.progress (.fire 0))).any fun t =>
        s.runs.length = 2 ∧ s.registry.lookup "watch" = some 2 ∧
        (s.run? 2).map (·.origin) = some none ∧ t.registry.lookup "watch" = some 3 ∧
        (t.run? 2).map (·.cancelled) = some true ∧ (t.run? 3).map (·.origin) = some (some 1)) =
      true := by decide +kernel
  obtain ⟨s, ran, facts⟩ := (Option.any_eq_true _ _).mp facts
  obtain ⟨t, step, facts⟩ := (Option.any_eq_true _ _).mp facts
  obtain ⟨length, before, submitted, after, superseded, restarted⟩ := of_decide_eq_true facts
  obtain ⟨r, found, cancelled⟩ := Option.map_eq_some_iff.mp superseded
  rw [Option.map_eq_some_iff] at submitted restarted
  refine ⟨s, t, reachable_of_applyAll ran, step, ?_, ?_, submitted⟩
  · rw [Resubmits, length]
    exact restarted
  · exact ⟨"watch", r, before, by rw [length, after], found, cancelled⟩

end Supervisor

end Supervision
