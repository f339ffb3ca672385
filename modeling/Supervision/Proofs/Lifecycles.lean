import Supervision.Proofs.Courses

/-!
# The life of a run

Whatever the other runs do, a run passes the stations of its course one after the other, each once:
it tells that it starts, invokes its work routine, gives back its registry entry, tells how it has
ended, has its own callback called and then the global one, sends its outcome, and the outcome is
told. By the time that a callback is called the run has no entry, so a callback that submits the id
again can evict nothing but another run of the id that is active.

Results:
1. `courseOf_prefix`, `nodup_wholeCourse`: the course of a run is the beginning of a sequence in
   which nothing comes twice.
2. `Attained.called`: whatever callback was called was called with the token and the outcome of its
   run, which had no entry any more.
3. `ReplacesAtMost.apply`: what a callback evicts that submits the id of its run.
4. `lifecycle`: what is true of every run that was launched.
-/

namespace Supervision

/-- Marks that are silent on a run tell of no call of its callbacks. -/
theorem IsSilentOn.not_called {marks : List Mark} {n : Nat} (silent : IsSilentOn marks n)
    {scope : Scope} {fault : Option Fault} {cancelled : Bool} :
    Mark.called n scope fault cancelled ∉ marks := by
  intro member
  have none := List.filterMap_eq_nil_iff.mp silent _ member
  simp [Mark.station?] at none

/-- Does a move submit the id, or does it let a callback of the run decide about a restart? -/
def Move.isResubmission (n : Nat) (id : String) : Move → Bool
  | .submit task => task.id == id
  | .restart run _ | .handTo run _ _ => run == n
  | _ => false

namespace Supervisor

variable {setup : Setup} {s t u : Supervisor}

/-! ## The course of a run -/

/-- Nothing comes twice in a whole course. -/
theorem nodup_wholeCourse (s : Supervisor) (task : Task) (fault : Option Fault) :
    (s.wholeCourse task fault).Nodup := by
  cases work : task.work <;> cases own : task.onFinish <;> cases all : s.setup.onFinish <;>
    cases fault <;>
    simp [wholeCourse, calledBack, ended, opening, callStation, callback?, work, own, all, endEvent,
      outcomeEvent, Event.withTask, Event.withError, Event.ofKind]

/-- What a run in a phase has passed is a beginning of the whole course for the fault that it has
ended with. As long as it has not ended that is so for every fault. -/
theorem courseTo_prefix (s : Supervisor) (task : Task) {phase : Phase} {fault : Option Fault}
    (ends : ∀ f, phase.fault? = some f → f = fault) :
    s.courseTo task phase <+: s.wholeCourse task fault := by
  have sent : s.calledBack task fault ++ [.sent] <+: s.wholeCourse task fault :=
    ⟨[.told (outcomeEvent task.id fault)], List.append_assoc ..⟩
  have back : s.calledBack task fault <+: s.wholeCourse task fault := List.prefix_append ..
  have called : ended task fault ++ s.callStation task .own fault <+: s.wholeCourse task fault :=
    (List.prefix_append ..).trans back
  have told : ended task fault <+: s.wholeCourse task fault := (List.prefix_append ..).trans called
  have released : opening task ++ [.released] <+: ended task fault :=
    ⟨[.told (endEvent task.id fault)], List.append_assoc ..⟩
  have opened : opening task <+: s.wholeCourse task fault := (List.prefix_append ..).trans told
  cases phase with
  | launched => exact List.nil_prefix
  | working | returned => exact opened
  | released => exact released.trans told
  | due scope f =>
      obtain rfl := ends f rfl
      cases scope with
      | own => exact told
      | global => exact called
  | calling scope f =>
      obtain rfl := ends f rfl
      cases scope with
      | own => exact called
      | global => exact back
  | inLine f =>
      obtain rfl := ends f rfl
      exact back
  | finished f =>
      obtain rfl := ends f rfl
      exact sent

theorem courseOf_prefix {n : Nat} {r : Run} (found : s.run? n = some r) {fault : Option Fault}
    (ends : ∀ f, r.phase.fault? = some f → f = fault) :
    s.courseOf n <+: s.wholeCourse r.task fault := by
  rw [courseOf, found]
  dsimp only
  split
  · next through =>
      -- the outcome is told of a run that has passed everything else
      cases phase : r.phase with
      | finished f =>
          obtain rfl := ends f (by rw [phase]; rfl)
          simp [courseTo, wholeCourse, Phase.fault?]
      | _ => simp [phase, Phase.isFinished] at through
  · rw [List.append_nil]
    exact s.courseTo_prefix r.task ends

/-! ## Callbacks -/

/-- A run that has been released has no entry. -/
theorem RegistryInvariant.lookup_ne (inv : RegistryInvariant s) {n : Nat} {r : Run}
    (found : s.run? n = some r) (released : r.phase.isReleased = true) (id : String) :
    s.registry.lookup id ≠ some n := by
  intro registered
  obtain ⟨-, q, known, unreleased⟩ := (inv.lookup_iff id n).mp registered
  rw [found, Option.some.injEq] at known
  rw [← known, released] at unreleased
  cases unreleased

/-- A callback of the run is called with the token and the outcome of the run. -/
structure CallsBack (s : Supervisor) (n : Nat) (scope : Scope) (fault : Option Fault)
    (cancelled : Bool) (t : Supervisor) : Prop where
  step : s.apply (.progress (.call n)) = some t
  due : ∃ r, s.run? n = some r ∧ r.phase = .due scope fault ∧ cancelled = s.tokenIsCancelled r
  calling : ∃ r, t.run? n = some r ∧ r.phase = .calling scope fault
  noEntry : ∀ id, t.registry.lookup id ≠ some n

/-- Only the step of a run that calls a callback tells of a call. -/
theorem Change.called {marks : List Mark} (h : Change s marks t) {n : Nat} {scope : Scope}
    {fault : Option Fault} {cancelled : Bool} (member : .called n scope fault cancelled ∈ marks) :
    ∃ r callback, s.run? n = some r ∧ r.phase = .due scope fault ∧
      s.callback? r.task scope = some callback ∧ cancelled = s.tokenIsCancelled r ∧
      marks = [.called n scope fault cancelled] ∧ t = s.withPhase n (.calling scope fault) := by
  cases h
  case course number r phase found step =>
    by_cases own : n = number
    · subst own
      cases step with
      | call due some =>
          obtain ⟨rfl, rfl, rfl⟩ : scope = _ ∧ fault = _ ∧ cancelled = _ := by simpa using member
          exact ⟨r, _, found, due, some, rfl, rfl, rfl⟩
      | leave panic => exact absurd member (IsSilentOn.panicMarks _ _ panic n).not_called
      | begin | beginIdle | finish | report | pass => simp at member
    · exact absurd member (step.isSilentOn own).not_called
  case remark remark => exact absurd member (IsSilentOn.remark remark n).not_called
  case post notice _ _ => exact absurd member (IsSilentOn.notice notice n).not_called
  case launch task _ _ _ => exact absurd member (IsSilentOn.launchMarks s task n).not_called
  case lineUp ended => exact absurd member (ended.isSilentOn n).not_called
  case hear | serve | letGo => exact absurd member (IsSilentOn.effects _ n).not_called
  all_goals simp at member

theorem Change.callsBack {marks : List Mark} (h : Change s marks t) (attained : Attained setup s)
    {n : Nat} {scope : Scope} {fault : Option Fault} {cancelled : Bool}
    (member : .called n scope fault cancelled ∈ marks) :
    CallsBack s n scope fault cancelled (t.writeAll marks) := by
  have next : Attained setup (t.writeAll marks) := attained.tail h.advances
  obtain ⟨r, callback, found, due, some, token, rfl, rfl⟩ := h.called member
  have moved := run?_withPhase_self found (.calling scope fault)
  refine ⟨?_, ⟨r, found, due, token⟩, ⟨_, moved, rfl⟩, next.registryInvariant.lookup_ne moved rfl⟩
  simp only [apply, progress, call, found, due, some, token]
  rw [setPhase_eq, mark_eq, withPhase_writeAll]

/-- Whatever callback was called was called with the token and the outcome of its run. -/
theorem Attained.called (h : Attained setup s) {entry : Entry} (member : entry ∈ s.journal)
    {n : Nat} {scope : Scope} {fault : Option Fault} {cancelled : Bool}
    (tells : entry.mark = .called n scope fault cancelled) :
    ∃ u v, Attained setup u ∧ CallsBack u n scope fault cancelled v ∧ Chain v s := by
  refine h.invariant (P := fun s => ∀ entry ∈ s.journal,
    entry.mark = .called n scope fault cancelled →
      ∃ u v, Attained setup u ∧ CallsBack u n scope fault cancelled v ∧ Chain v s)
    (fun _ member => by cases member) ?_ entry member tells
  intro s t marks before inv change entry member tells
  rw [writeAll, change.journal_eq] at member
  rcases List.mem_append.mp member with old | new
  · obtain ⟨u, v, attained, calls, later⟩ := inv entry old tells
    exact ⟨u, v, attained, calls, later.tail change.advances⟩
  · obtain ⟨m, told, rfl⟩ := List.mem_map.mp new
    obtain rfl : m = _ := tells
    exact ⟨s, _, before, change.callsBack before told, .refl⟩

/-! ## Submissions by a callback -/

/-- Of the runs that are there at most the active one of the id is cancelled, and at most its entry
is taken over. -/
structure ReplacesAtMost (s t : Supervisor) (id : String) : Prop where
  tokens : ∀ k q, s.run? k = some q → ∃ q', t.run? k = some q' ∧
    (q'.cancelled = q.cancelled ∨ s.registry.lookup id = some k)
  entries : ∀ other k, s.registry.lookup other = some k →
    t.registry.lookup other = some k ∨ other = id

/-- The runs and the registry are the same in both states. -/
structure SameRuns (s u : Supervisor) : Prop where
  runs : u.runs = s.runs
  registry : u.registry = s.registry

namespace ReplacesAtMost

theorem of_same {id : String} (same : SameRuns s t) : ReplacesAtMost s t id where
  tokens k q found := ⟨q, (run?_congr same.runs k).trans found, .inl rfl⟩
  entries other k registered := .inl (by rw [same.registry, registered])

theorem withPhase {number : Nat} {phase : Phase} {id : String} (same : SameRuns s u) :
    ReplacesAtMost s (u.withPhase number phase) id where
  tokens k q found := by
    rw [run?_withPhase, run?_congr same.runs, found]
    split <;> exact ⟨_, rfl, .inl rfl⟩
  entries other k registered := .inl (by rwa [← same.registry] at registered)

/-- The end of a callback replaces nothing. -/
theorem leave {id : String} (same : SameRuns s u) {number : Nat} {panic : Option Payload}
    (h : u.leave number panic = some t) : ReplacesAtMost s t id := by
  obtain ⟨r, scope, fault, found, phase, ready⟩ := exists_calling h
  rw [leave_eq found phase ready, Option.some.injEq] at h
  subst h
  cases scope with
  | own =>
      rw [afterCallback_own, ← withPhase_writeAll]
      exact withPhase ⟨same.runs, same.registry⟩
  | global =>
      rw [afterCallback_global, ← withPhase_writeAll]
      exact withPhase ⟨same.runs, same.registry⟩

theorem submit {task : Task} {origin : Option Nat} (same : SameRuns s u) :
    ReplacesAtMost s (u.submit task origin) task.id := by
  unfold Supervisor.submit
  split
  · exact of_same ⟨same.runs, same.registry⟩
  · rw [launch_eq]
    constructor
    · intro k q found
      rw [← run?_congr same.runs] at found
      refine ⟨_, run?_withRun_of_run? found task origin, ?_⟩
      split
      · next registered => exact .inr (same.registry ▸ registered)
      · exact .inl rfl
    · intro other k registered
      change (u.registry.install task.id).registry.lookup other = some k ∨ _
      rw [Registry.lookup_install, same.registry]
      split
      · next own => exact .inr own
      · exact .inl registered
  · exact of_same ⟨same.runs, same.registry⟩

theorem restart {n : Nat} {r : Run} {policy : RestartPolicy} (found : s.run? n = some r)
    (h : s.restart n policy = some t) : ReplacesAtMost s t r.task.id := by
  obtain ⟨r', scope, fault, known, -, step⟩ := restart_cases h
  obtain rfl : r' = r := Option.some.inj (known.symm.trans found)
  cases step with
  | unwanted | cancelled | stopped => exact of_same ⟨rfl, rfl⟩
  | again => exact submit ⟨rfl, rfl⟩

theorem enact (s : Supervisor) (streaks : List Streaks) (number : Nat) (task : Task)
    (decision : Decision) :
    ReplacesAtMost s (({ s with streaks } : Supervisor).enact number task decision).1 task.id := by
  cases decision with
  | unwanted | stopped | cancelled | exhausted | overflow => exact of_same ⟨rfl, rfl⟩
  | again streak delay =>
      simp only [Supervisor.enact, submitAfter]
      split
      · exact submit ⟨rfl, rfl⟩
      · exact of_same ⟨rfl, rfl⟩

theorem handTo {n index draw : Nat} {r : Run} (found : s.run? n = some r)
    (h : s.handTo n index draw = some t) : ReplacesAtMost s t r.task.id := by
  obtain ⟨r', scope, fault, streaks, known, -, how⟩ := handTo_cases h
  obtain rfl : r' = r := Option.some.inj (known.symm.trans found)
  rcases how with enacted | ⟨payload, -, left⟩
  · have replaces := enact s streaks n r'.task (s.decision r' fault index draw)
    rwa [enacted] at replaces
  · exact leave (u := { s with streaks }) ⟨rfl, rfl⟩ left

theorem apply {m : Move} {n : Nat} {r : Run} (found : s.run? n = some r)
    (again : m.isResubmission n r.task.id = true) (h : s.apply m = some t) :
    ReplacesAtMost s t r.task.id := by
  cases m with
  | submit task =>
      cases h
      rw [← eq_of_beq again]
      exact submit ⟨rfl, rfl⟩
  | restart run policy =>
      obtain rfl : run = n := eq_of_beq again
      exact restart found h
  | handTo run index draw =>
      obtain rfl : run = n := eq_of_beq again
      exact handTo found h
  | _ => cases again

/-- What is not the active run of the id keeps its token and its entry. -/
theorem spares {id : String} (h : ReplacesAtMost s t id) {k : Nat} {q : Run}
    (found : s.run? k = some q) (other : s.registry.lookup id ≠ some k) :
    ∃ q', t.run? k = some q' ∧ q'.cancelled = q.cancelled ∧
      ∀ key, s.registry.lookup key = some k → t.registry.lookup key = some k := by
  obtain ⟨q', there, same | evicted⟩ := h.tokens k q found
  · refine ⟨q', there, same, fun key registered => ?_⟩
    rcases h.entries key k registered with kept | rfl
    · exact kept
    · exact absurd registered other
  · exact absurd evicted other

end ReplacesAtMost

/-! ## The life of a run -/

/-- What is true of a run in one state. -/
structure Lifecycle (setup : Setup) (s : Supervisor) (n : Nat) (r : Run) : Prop where
  found : s.run? n = some r
  /-- The journal tells of those stations that the phase of the run says. -/
  stands : s.journal.course n = s.courseOf n
  /-- They are a beginning of the whole sequence for the outcome of the run, and for every outcome
  as long as there is none. -/
  course : ∀ fault, (∀ f, r.phase.fault? = some f → f = fault) →
    s.journal.course n <+: s.wholeCourse r.task fault
  once : (s.journal.course n).Nodup
  /-- The run begins by invoking its work routine, whether or not its token is cancelled. -/
  begins : r.phase = .launched → ∃ t, s.apply (.progress (.begin n)) = some t ∧
    t.journal.course n = opening r.task
  /-- Every callback was called with the token and the outcome of the run. -/
  called : ∀ entry ∈ s.journal, ∀ scope fault cancelled,
    entry.mark = .called n scope fault cancelled →
      ∃ u v, Attained setup u ∧ CallsBack u n scope fault cancelled v ∧ Chain v s
  /-- The run has no entry while a callback is at work. -/
  noEntry : ∀ scope fault, r.phase = .calling scope fault →
    ∀ id, s.registry.lookup id ≠ some n
  /-- When the callback submits the id again, every run keeps its token and its entry except for
  another run of the id that is active. -/
  evicts : ∀ scope fault, r.phase = .calling scope fault → ∀ m t,
    m.isResubmission n r.task.id = true → s.apply m = some t → ∀ k q, s.run? k = some q →
      (∃ q', t.run? k = some q' ∧ q'.cancelled = q.cancelled ∧
        ∀ id, s.registry.lookup id = some k → t.registry.lookup id = some k) ∨
      (k ≠ n ∧ s.IsLatest r.task.id k ∧ s.IsUnreleased k)

theorem begin_launched {n : Nat} {r : Run} (found : s.run? n = some r)
    (phase : r.phase = .launched) : ∃ t q, s.apply (.progress (.begin n)) = some t ∧
      t.run? n = some q ∧ q.task = r.task ∧ (q.phase = .working ∨ q.phase = .returned none) := by
  simp only [apply, progress, begin, found, phase]
  cases work : r.task.work with
  | some routine =>
      refine ⟨_, { r with phase := .working }, rfl, ?_, rfl, .inl rfl⟩
      simp [setPhase_eq, record, publish, found]
  | none =>
      refine ⟨_, { r with phase := .returned none }, rfl, ?_, rfl, .inr rfl⟩
      simp [setPhase_eq, record, publish, found]

/-- Every run that was launched lives such a life, whatever happens besides. -/
theorem lifecycle (h : Reachable setup s) {n : Nat} (launched : n ∈ s.journal.launched) :
    ∃ r, Lifecycle setup s n r := by
  have attained := h.attained
  have inv := attained.registryInvariant
  obtain ⟨r, found⟩ := attained.run?_of_launched launched
  have course := attained.course n
  have beginning : ∀ fault, (∀ f, r.phase.fault? = some f → f = fault) →
      s.journal.course n <+: s.wholeCourse r.task fault := fun fault ends =>
    course ▸ courseOf_prefix found ends
  refine ⟨r, found, course, beginning, ?_, ?_, fun entry member scope fault cancelled tells =>
    attained.called member tells, ?_, ?_⟩
  · have whole := beginning (r.phase.fault?.getD none) fun f ended => by rw [ended]; rfl
    exact (s.nodup_wholeCourse r.task _).sublist whole.sublist
  · intro phase
    obtain ⟨t, q, begun, known, task, later⟩ := begin_launched found phase
    refine ⟨t, begun, ?_⟩
    rw [(h.step begun).attained.course]
    rcases later with working | returned
    · rw [courseOf_of_run? known (by rw [working]; rfl), working, task]
      rfl
    · rw [courseOf_of_run? known (by rw [returned]; rfl), returned, task]
      rfl
  · intro scope fault phase
    exact inv.lookup_ne found (by rw [phase]; rfl)
  · intro scope fault phase m t again applied k q known
    by_cases active : s.registry.lookup r.task.id = some k
    · right
      obtain ⟨latest, unreleased⟩ := (inv.lookup_iff _ k).mp active
      refine ⟨?_, latest, unreleased⟩
      rintro rfl
      exact inv.lookup_ne found (by rw [phase]; rfl) _ active
    · exact .inl ((ReplacesAtMost.apply found again applied).spares known active)

/-- A superseded run has its own callback called while its successor is at work. -/
theorem lifecycle_of_superseded_run :
    ∃ s, (create { onFinish := some {} }).applyAll
        [.start, .submit { id := "a", work := some {}, onFinish := some {} }, .progress (.begin 1),
          .submit { id := "a", work := some {} }, .progress (.begin 2),
          .finish 1 (.returns (some .canceled)), .progress (.release 1), .progress (.report 1),
          .progress (.call 1)] = some s ∧
      s.journal.course 1 = [.told ((Event.ofKind .taskStarting).withTask "a"), .invoked, .released,
        .told (endEvent "a" (some .canceled)), .called .own (some .canceled)] ∧
      s.registry.lookup "a" = some 2 ∧ ∃ r, Lifecycle { onFinish := some {} } s 1 r := by
  obtain ⟨s, ran, course, active, launched⟩ : ∃ s, (create { onFinish := some {} }).applyAll
        [.start, .submit { id := "a", work := some {}, onFinish := some {} }, .progress (.begin 1),
          .submit { id := "a", work := some {} }, .progress (.begin 2),
          .finish 1 (.returns (some .canceled)), .progress (.release 1), .progress (.report 1),
          .progress (.call 1)] = some s ∧
      s.journal.course 1 = [.told ((Event.ofKind .taskStarting).withTask "a"), .invoked, .released,
        .told (endEvent "a" (some .canceled)), .called .own (some .canceled)] ∧
      s.registry.lookup "a" = some 2 ∧ s.journal.launched = [1, 2] := ⟨_, rfl, rfl, rfl, rfl⟩
  have member : 1 ∈ s.journal.launched := by simp [launched]
  exact ⟨s, ran, course, active, lifecycle (reachable_of_applyAll ran) member⟩

end Supervisor

end Supervision
