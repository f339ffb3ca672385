import Supervision.Proofs.Outcomes

/-!
# The course of a run in the journal

Every run passes the same stations: it is told that it starts, its work routine is invoked, it gives
back its registry entry, its end is told, its own callback is called and then the global one, its
outcome is sent, and the outcome is told. The journal has the stations of each run in this order, up
to where the run stands.

Results:
1. `CourseStep.course`, `Change.course`: a change adds those stations to the journal that a run
   passes by it.
2. `Attained.course`: the journal tells of every run exactly what its phase says.
3. `Attained.exists_sent`: the journal tells of every run that has finished.
4. `Attained.launched`: the journal tells of every launch.
-/

namespace Supervision

/-- What a run passes on its course. -/
inductive Station
  /-- An event is published on behalf of the run. -/
  | told (event : Event)
  | invoked
  | released
  | called (scope : Scope) (fault : Option Fault)
  | sent
deriving DecidableEq, Repr

/-- The station of a run that a mark tells of. -/
def Mark.station? (n : Nat) : Mark → Option Station
  | .published event run => if run = some n then some (.told event) else none
  | .invoked run => if run = n then some .invoked else none
  | .released run => if run = n then some .released else none
  | .called run scope fault _ => if run = n then some (.called scope fault) else none
  | .sent run => if run = n then some .sent else none
  | _ => none

/-- The stations of a run that the journal tells of, in order. -/
def Journal.course (j : Journal) (n : Nat) : List Station := j.filterMap (·.mark.station? n)

/-- The marks tell of no station of the run. -/
def IsSilentOn (marks : List Mark) (n : Nat) : Prop := marks.filterMap (Mark.station? n) = []

namespace IsSilentOn

theorem of_forall {marks : List Mark} {n : Nat} (h : ∀ m ∈ marks, m.station? n = none) :
    IsSilentOn marks n := List.filterMap_eq_nil_iff.mpr h

theorem effects (e : Effects) (n : Nat) : IsSilentOn e.marks n := by
  refine of_forall fun m member => ?_
  rcases List.mem_append.mp member with there | there
  · obtain ⟨r, -, rfl⟩ := List.mem_map.mp there
    rfl
  · obtain ⟨event, -, rfl⟩ := List.mem_map.mp there
    rfl

theorem remark {m : Mark} (h : m.isRemark = true) (n : Nat) : IsSilentOn [m] n := by
  cases m <;> first | rfl | cases h

theorem panicMarks (id : String) (scope : Scope) (panic : Option Payload) (n : Nat) :
    IsSilentOn (Supervisor.panicMarks id scope panic) n := by
  cases panic <;> rfl

theorem notice (notice : Notice) (n : Nat) : IsSilentOn notice.marks n := rfl

theorem launchMarks (s : Supervisor) (task : Task) (n : Nat) :
    IsSilentOn (s.launchMarks task) n := by
  unfold Supervisor.launchMarks
  dsimp only
  split <;> rfl

end IsSilentOn

namespace Supervisor

variable {setup : Setup} {s t : Supervisor}

/-! ## Stations -/

/-- The stations of a run of the task until its work routine is at work. -/
def opening (task : Task) : List Station :=
  .told ((Event.ofKind .taskStarting).withTask task.id) :: (task.work.map fun _ => .invoked).toList

/-- The stations until the end of the run is told. -/
def ended (task : Task) (fault : Option Fault) : List Station :=
  opening task ++ [.released, .told (endEvent task.id fault)]

/-- The call of the callback in a scope, if there is one. -/
def callStation (s : Supervisor) (task : Task) (scope : Scope) (fault : Option Fault) :
    List Station := ((s.callback? task scope).map fun _ => .called scope fault).toList

/-- The stations until both callbacks are over. -/
def calledBack (s : Supervisor) (task : Task) (fault : Option Fault) : List Station :=
  ended task fault ++ s.callStation task .own fault ++ s.callStation task .global fault

/-- All stations of a run. -/
def wholeCourse (s : Supervisor) (task : Task) (fault : Option Fault) : List Station :=
  s.calledBack task fault ++ [.sent, .told (outcomeEvent task.id fault)]

/-- The stations that a run of the task has passed when it is in a phase. -/
def courseTo (s : Supervisor) (task : Task) : Phase → List Station
  | .launched => []
  | .working | .returned _ => opening task
  | .released _ => opening task ++ [.released]
  | .due .own fault => ended task fault
  | .calling .own fault | .due .global fault => ended task fault ++ s.callStation task .own fault
  | .calling .global fault | .inLine fault => s.calledBack task fault
  | .finished fault => s.calledBack task fault ++ [.sent]

/-- The stations that a run has passed; the outcome of a finished run is told when it has left the
queue. -/
def courseOf (s : Supervisor) (n : Nat) : List Station :=
  match s.run? n with
  | none => []
  | some r => s.courseTo r.task r.phase ++
      if r.phase.isFinished = true ∧ n ∉ s.queue then
        [.told (outcomeEvent r.task.id r.phase.fault?.join)]
      else []

theorem courseOf_of_run? {n : Nat} {r : Run} (found : s.run? n = some r)
    (busy : r.phase.isFinished = false) : s.courseOf n = s.courseTo r.task r.phase := by
  simp [courseOf, found, busy]

theorem courseTo_congr (setup : t.setup = s.setup) (task : Task) (phase : Phase) :
    t.courseTo task phase = s.courseTo task phase := by
  have same : ∀ scope fault, t.callStation task scope fault = s.callStation task scope fault := by
    intro scope fault
    cases scope <;> simp [callStation, callback?, setup]
  unfold courseTo calledBack
  simp only [same]

/-- A run that stays in its phase passes nothing. -/
theorem Change.courseOf_congr {marks : List Mark} (h : Change s marks t) {n : Nat}
    (setup : t.setup = s.setup) (queue : n ∈ t.queue ↔ n ∈ s.queue)
    (phase : ∀ r, s.run? n = some r → ∃ r', t.run? n = some r' ∧ r'.phase = r.phase) :
    t.courseOf n = s.courseOf n := by
  cases known : s.run? n with
  | some r =>
      obtain ⟨r', there, same⟩ := phase r known
      obtain ⟨q, evolved, evolves⟩ := h.evolves known
      obtain rfl : q = r' := Option.some.inj (evolved.symm.trans there)
      simp only [courseOf, known, there, same, evolves.task, queue, courseTo_congr setup]
  | none => cases there : t.run? n with
    | none => rw [courseOf, courseOf, known, there]
    | some r' =>
        rcases h.run?_cases there with ⟨r, hr, -⟩ | ⟨task, origin, -, rfl, -⟩
        · rw [known] at hr
          cases hr
        · simp [courseOf, known, there, courseTo, Phase.isFinished]

/-! ## Steps -/

theorem CourseStep.course {number : Nat} {r : Run} {marks : List Mark} {phase : Phase}
    (h : s.CourseStep number r marks phase) :
    s.courseTo r.task phase =
      s.courseTo r.task r.phase ++ marks.filterMap (Mark.station? number) := by
  cases h with
  | begin phase work | beginIdle phase work =>
      simp [courseTo, opening, phase, work, Mark.station?, List.filterMap_cons]
  | finish ending phase => simp [courseTo, phase]
  | report phase => simp [courseTo, ended, phase, Mark.station?]
  | @call scope fault callback phase some =>
      cases scope <;> simp [courseTo, calledBack, callStation, phase, some, Mark.station?]
  | pass phase none => simp [courseTo, callStation, phase, none]
  | leave panic phase _ =>
      rw [IsSilentOn.panicMarks r.task.id .own panic number, List.append_nil, phase]
      rfl

theorem CourseStep.isSilentOn {number : Nat} {r : Run} {marks : List Mark} {phase : Phase}
    (h : s.CourseStep number r marks phase) {n : Nat} (other : n ≠ number) :
    IsSilentOn marks n := by
  have differ : number ≠ n := Ne.symm other
  cases h
  case leave panic _ _ => exact .panicMarks r.task.id .own panic n
  all_goals simp [IsSilentOn, Mark.station?, differ]

theorem CallbacksOver.course {number : Nat} {r : Run} {marks : List Mark}
    {fault : Option Fault} (h : s.CallbacksOver number r marks fault) :
    s.courseTo r.task (.inLine fault) = s.courseTo r.task r.phase := by
  cases h <;> simp_all [courseTo, callStation, calledBack]

theorem CallbacksOver.isSilentOn {number : Nat} {r : Run} {marks : List Mark}
    {fault : Option Fault} (h : s.CallbacksOver number r marks fault) (n : Nat) :
    IsSilentOn marks n := by
  cases h with
  | pass => rfl
  | leave panic => exact .panicMarks r.task.id .global panic n

/-- A step of one run that is not finished adds to its course what the run passes by it. -/
theorem Change.courseOf_step {marks : List Mark} (h : Change s marks t) {number : Nat} {r : Run}
    (phase : Phase) (found : s.run? number = some r) (busy : r.phase.isFinished = false)
    (setup : t.setup = s.setup) (queue : ∀ n, n ≠ number → (n ∈ t.queue ↔ n ∈ s.queue))
    (runs : ∀ n, t.run? n = (s.withPhase number phase).run? n)
    (passed : s.courseTo r.task phase =
      s.courseTo r.task r.phase ++ marks.filterMap (Mark.station? number))
    (sent : phase.isFinished = true → number ∈ t.queue)
    (silent : ∀ n, n ≠ number → IsSilentOn marks n) (n : Nat) :
    t.courseOf n = s.courseOf n ++ marks.filterMap (Mark.station? n) := by
  by_cases here : n = number
  · subst here
    have moved : t.run? n = some { r with phase } :=
      (runs n).trans (run?_withPhase_self found phase)
    have untold : ¬ (phase.isFinished = true ∧ n ∉ t.queue) :=
      fun ⟨finished, away⟩ => away (sent finished)
    rw [courseOf_of_run? found busy, ← passed, courseOf, moved]
    dsimp only
    rw [if_neg untold, List.append_nil, courseTo_congr setup]
  · have same : t.run? n = s.run? n := (runs n).trans (run?_withPhase_ne here phase)
    rw [silent n here, List.append_nil]
    exact h.courseOf_congr setup (queue n here) fun r known => ⟨r, same.trans known, rfl⟩

/-- The loop tells of the outcome of the first run in the queue, which is finished. -/
theorem courseOf_observe {number : Nat} {rest : List Nat} {r : Run}
    (outcomes : OutcomeInvariant s) (queue : s.queue = number :: rest)
    (found : s.run? number = some r) (n : Nat) :
    ({ s with queue := rest } : Supervisor).courseOf n = s.courseOf n ++
      if n = number then [.told (outcomeEvent r.task.id r.phase.fault?.join)] else [] := by
  have same : ({ s with queue := rest } : Supervisor).run? n = s.run? n := rfl
  by_cases here : n = number
  · subst here
    have waits : n ∈ s.handedOver := by simp [handedOver, queue]
    have through : r.phase.isFinished = true := by
      have through := (outcomes.handed n).mp waits
      rwa [isOver, found, Option.any_some] at through
    have once : n ∉ rest := by
      have distinct := (List.nodup_append.mp outcomes.handed_nodup).2.1
      rw [queue] at distinct
      exact (List.nodup_cons.mp distinct).1
    have task : ({ s with queue := rest } : Supervisor).courseTo r.task r.phase =
        s.courseTo r.task r.phase := courseTo_congr rfl r.task r.phase
    simp only [courseOf, same, found, task]
    simp [through, once, queue]
  · rw [if_neg here, List.append_nil]
    unfold courseOf
    rw [same]
    cases s.run? n with
    | none => rfl
    | some r =>
        have task : ({ s with queue := rest } : Supervisor).courseTo r.task r.phase =
            s.courseTo r.task r.phase := courseTo_congr rfl r.task r.phase
        simp [task, queue, here]

/-- What a change writes down adds to every course what its run passes by the change. -/
theorem Change.courseOf_eq {marks : List Mark} (h : Change s marks t)
    (outcomes : OutcomeInvariant s) (loop : LoopInvariant s) (n : Nat) :
    t.courseOf n = s.courseOf n ++ marks.filterMap (Mark.station? n) := by
  -- most changes leave alone what courses depend on
  have kept : t.setup = s.setup → t.queue = s.queue → IsSilentOn marks n →
      (∀ r, s.run? n = some r → ∃ r', t.run? n = some r' ∧ r'.phase = r.phase) →
      t.courseOf n = s.courseOf n ++ marks.filterMap (Mark.station? n) := by
    intro setup queue silent phase
    rw [silent, List.append_nil]
    exact h.courseOf_congr setup (by rw [queue]) phase
  have step := @Change.courseOf_step s t marks h
  cases h
  case remark remark => exact kept rfl rfl (.remark remark n) fun r found => ⟨r, found, rfl⟩
  case post notice _ _ =>
    exact kept rfl rfl (.notice notice n) fun r found => ⟨r, found, rfl⟩
  case hear | serve | letGo => exact kept rfl rfl (.effects _ n) fun r found => ⟨r, found, rfl⟩
  case launch task origin _ _ =>
    refine kept rfl rfl (.launchMarks s task n) fun r found => ?_
    exact ⟨_, run?_withRun_of_run? found task origin, by split <;> rfl⟩
  case cancelRun number _ _ _ =>
    refine kept rfl rfl rfl fun r found => ?_
    exact ⟨_, run?_cancelToken found number, by split <;> rfl⟩
  case cancelAll =>
    refine kept rfl rfl rfl fun r found => ?_
    exact ⟨_, run?_foldl_cancelToken found s.registry.runs, by split <;> rfl⟩
  case course number r phase found passes =>
    refine step phase found passes.away.1.2 rfl (fun _ _ => .rfl) (fun _ => rfl) passes.course ?_
      (fun _ => passes.isSilentOn) n
    intro through
    rw [passes.away.2.2] at through
    cases through
  case release number r fault found phase =>
    refine step (.released fault) found (by rw [phase]; rfl) rfl (fun _ _ => .rfl) ?_ ?_
      (fun through => by cases through) ?_ n
    · intro n
      rw [run?_withPhase, run?_withPhase]
      rfl
    · simp [phase, courseTo, Mark.station?]
    · intro n other
      simp [IsSilentOn, Mark.station?, Ne.symm other]
  case lineUp number r fault found ended =>
    have busy : r.phase.isFinished = false := by
      rcases ended.phase with phase | phase <;> rw [phase] <;> rfl
    refine step (.inLine fault) found busy rfl (fun _ _ => .rfl) ?_ ?_
      (fun through => by cases through) (fun n _ => ended.isSilentOn n) n
    · intro n
      rw [run?_withPhase, run?_withPhase]
      rfl
    · rw [ended.course, ended.isSilentOn number, List.append_nil]
  case send number r fault found phase read place =>
    refine step (.finished fault) found (by rw [phase]; rfl) rfl ?_ ?_ ?_ ?_ ?_ n
    · intro n other
      simp [other]
    · intro n
      change (({ s with line := s.line.erase number } : Supervisor).withPhase number
        (.finished fault)).run? n = _
      rw [run?_withPhase, run?_withPhase]
      rfl
    · simp [phase, courseTo, Mark.station?]
    · intro _
      simp
    · intro n other
      simp [IsSilentOn, Mark.station?, Ne.symm other]
  case discard number r fault found phase unread =>
    have through := (loop.exited unread).2.2 number r found
    rw [phase] at through
    cases through
  case observe number rest r running queue found =>
    rw [courseOf_observe outcomes queue found]
    by_cases here : n = number
    · simp [Mark.station?, List.filterMap_cons, here]
    · simp [Mark.station?, List.filterMap_cons, here, Ne.symm here]
  case skip number rest running queue missing =>
    obtain ⟨r, found⟩ := outcomes.run?_of_queue queue
    rw [missing] at found
    cases found
  all_goals exact kept rfl rfl rfl fun r found => ⟨r, found, rfl⟩

theorem course_writeAll (s : Supervisor) (marks : List Mark) (n : Nat) :
    (s.writeAll marks).journal.course n =
      s.journal.course n ++ marks.filterMap (Mark.station? n) := by
  simp [writeAll, Journal.course, List.filterMap_map]

/-- The journal tells of every run the stations that it has passed. -/
theorem Attained.course (h : Attained setup s) (n : Nat) : s.journal.course n = s.courseOf n := by
  refine h.invariant (P := fun s => s.journal.course n = s.courseOf n) ?_ ?_
  · cases n <;> rfl
  · intro s t marks before inv change
    have told := course_writeAll t marks n
    rw [change.journal_eq, inv,
      ← change.courseOf_eq before.outcomeInvariant before.loopInvariant n] at told
    exact told

/-- The outcome of a run is sent when it finishes. -/
theorem sent_mem_courseOf {n : Nat} :
    .sent ∈ s.courseOf n ↔ ∃ r, s.run? n = some r ∧ r.phase.isFinished = true := by
  have passed : ∀ (task : Task) (phase : Phase),
      .sent ∈ s.courseTo task phase ↔ phase.isFinished = true := by
    intro task phase
    cases phase with
    | due scope | calling scope =>
        cases scope <;> simp [courseTo, calledBack, ended, opening, callStation, Phase.isFinished]
    | _ => simp [courseTo, calledBack, ended, opening, callStation, Phase.isFinished]
  unfold courseOf
  cases s.run? n with
  | none => simp
  | some r => simp [passed]

/-- The journal tells when a run has finished. -/
theorem Attained.exists_sent (h : Attained setup s) {n : Nat} :
    (∃ time, ⟨time, .sent n⟩ ∈ s.journal) ↔ ∃ r, s.run? n = some r ∧ r.phase.isFinished = true := by
  rw [← sent_mem_courseOf, ← h.course, Journal.course, List.mem_filterMap]
  constructor
  · rintro ⟨time, member⟩
    exact ⟨_, member, if_pos rfl⟩
  · rintro ⟨⟨time, m⟩, member, station⟩
    cases m with
    | sent run =>
        simp only [Mark.station?, Option.ite_none_right_eq_some] at station
        exact ⟨time, station.1 ▸ member⟩
    | published | invoked | released | called => simp [Mark.station?] at station
    | recorded | launched | cancelled | noted | stopResolved | waitResolved => cases station

/-! ## Launches -/

/-- The journal tells of the launch of every run, in the order of their numbers. -/
theorem Attained.launched (h : Attained setup s) :
    s.journal.launched = List.range' 1 s.runs.length := by
  refine h.invariant (P := fun s => s.journal.launched = List.range' 1 s.runs.length) rfl ?_
  intro s t marks before inv change
  have told := launched_writeAll t marks
  rw [change.journal_eq, inv] at told
  rcases change.launches with ⟨length, silent⟩ | ⟨task, origin, -, -, rfl, rfl⟩
  · rw [told, silent, List.append_nil, ← length]
    rfl
  · have last : (s.launchMarks task).filterMap Mark.launched? = [s.runs.length + 1] := by
      rw [← before.registryInvariant.numbered]
      unfold launchMarks
      dsimp only
      split <;> rfl
    have length : ((s.withRun task origin).writeAll (s.launchMarks task)).runs.length =
        s.runs.length + 1 := length_runs_withRun s task origin
    rw [told, last, length, List.range'_1_concat, Nat.add_comm]

/-- Whoever the journal tells of as launched is there. -/
theorem Attained.run?_of_launched (h : Attained setup s) {n : Nat}
    (launched : n ∈ s.journal.launched) : ∃ r, s.run? n = some r := by
  rw [h.launched, List.mem_range'_1] at launched
  exact run?_isSome (by omega) (by omega)

end Supervisor

end Supervision
