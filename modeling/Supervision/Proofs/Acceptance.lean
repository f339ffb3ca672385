import Supervision.Proofs.Histories
import Supervision.Proofs.Joining

/-!
# Every accepted submission is run once

A submission that comes before the start is accepted unless another one of the same id comes before
the start, too. A submission to a started supervisor is always accepted, and one to a stopped
supervisor never is. What is accepted is launched once, in order, and what is launched begins and
invokes its work routine once: neither a cancelled token nor a teardown keeps it from that.

Results:
1. `survivors_concat`: what one more submission before the start does to those that survive.
2. `Tally.apply`, `tally_of_applyAll`: how the runs fit to the submissions, after one move and after
   any moves.
3. `Journal.invocations_eq`: how often the work routine of a run was invoked.
4. `execution`: what has become of the submissions, after any moves.
-/

namespace Supervision

/-! ## Submissions -/

/-- A task that was submitted, and the stage at which it was. -/
structure Submission where
  stage : Stage
  task : Task
deriving DecidableEq, Repr

/-- The tasks that were submitted at a stage, in order. -/
def madeIn (stage : Stage) (told : List Submission) : List Task :=
  (told.filter (·.stage == stage)).map (·.task)

theorem madeIn_concat (stage : Stage) (told : List Submission) (own : Stage) (task : Task) :
    madeIn stage (told ++ [⟨own, task⟩]) =
      madeIn stage told ++ if own = stage then [task] else [] := by
  by_cases same : own = stage <;> simp [madeIn, same]

/-- The tasks that no later one with the same id replaces. -/
def survivors : List Task → List Task
  | [] => []
  | task :: later =>
      if later.any (·.id == task.id) then survivors later else task :: survivors later

theorem survivors_sublist (tasks : List Task) : (survivors tasks).Sublist tasks := by
  induction tasks with
  | nil => exact .slnil
  | cons first later ih =>
      unfold survivors
      split
      · exact ih.cons first
      · exact ih.cons_cons first

/-- One more task replaces the one with its id. -/
theorem survivors_concat (tasks : List Task) (task : Task) : survivors (tasks ++ [task]) =
    (survivors tasks).eraseP (fun t => t.id == task.id) ++ [task] := by
  induction tasks with
  | nil => rfl
  | cons first later ih =>
      -- the first task is replaced before, or by the new one, or not at all
      by_cases replaced : later.any (·.id == first.id) = true
      · have before : (later ++ [task]).any (·.id == first.id) = true := by
          rw [List.any_append, replaced, Bool.true_or]
        simp only [List.cons_append, survivors, replaced, before, if_true, ih]
      · by_cases own : first.id = task.id
        · have gone : (later ++ [task]).any (·.id == first.id) = true := by simp [own]
          have others : ∀ t ∈ survivors later, ¬ (t.id == task.id) = true := by
            intro t member same
            refine replaced (List.any_eq_true.mpr ⟨t, (survivors_sublist later).subset member, ?_⟩)
            rwa [own]
          simp only [List.cons_append, survivors, gone, if_true, ih]
          rw [if_neg replaced, List.eraseP_cons_of_pos (by simp [own]),
            List.eraseP_of_forall_not others]
        · have kept : ¬ (later ++ [task]).any (·.id == first.id) = true := by
            rw [List.any_append, Bool.or_eq_true]
            rintro (before | last)
            · exact replaced before
            · simp [Ne.symm own] at last
          simp only [List.cons_append, survivors]
          rw [if_neg kept, if_neg replaced, ih, List.eraseP_cons_of_neg (by simp [own]),
            List.cons_append]

/-- The tasks that are accepted, in order: those submitted before the start that are not replaced,
and all that are submitted until the stop. -/
def accepted (told : List Submission) : List Task :=
  survivors (madeIn .created told) ++ madeIn .started told

/-- After the start a submission is accepted if and only if it comes before the stop. -/
theorem accepted_concat (told : List Submission) {own : Stage} (begun : own ≠ .created)
    (task : Task) : accepted (told ++ [⟨own, task⟩]) =
      accepted told ++ if own = .started then [task] else [] := by
  rw [accepted, accepted, madeIn_concat, madeIn_concat, if_neg begun, List.append_nil,
    List.append_assoc]

/-- How often the work routine of a run was invoked. -/
def Journal.invocations (j : Journal) (n : Nat) : Nat :=
  j.countP fun entry => entry.mark == .invoked n

/-- The work routine is a station of the run. -/
theorem Journal.invocations_eq (j : Journal) (n : Nat) :
    j.invocations n = (j.course n).count .invoked := by
  have station : ∀ mark : Mark,
      (mark == .invoked n) = (mark.station? n == some .invoked) := by
    intro mark
    cases mark <;> simp [Mark.station?]
  rw [invocations, course, List.count_filterMap]
  simp only [station]

namespace Supervisor

variable {setup : Setup} {s t u : Supervisor}

/-! ## Runs and submissions -/

/-- What a move submits, and when. -/
def submissions (s : Supervisor) (m : Move) (_ : Supervisor) : List Submission :=
  (s.submission? m).toList.map fun task => ⟨s.stage, task⟩

/-- The tasks of the runs, in the order of their launches. -/
def tasks (s : Supervisor) : List Task := s.runs.map (·.task)

theorem getElem?_tasks {k : Nat} : s.tasks[k]? = (s.run? (k + 1)).map (·.task) :=
  List.getElem?_map

/-- Runs keep their tasks, so if none is added the tasks are the same. -/
theorem Chain.tasks_eq (h : Chain s t) (length : t.runs.length = s.runs.length) :
    t.tasks = s.tasks := by
  refine List.ext_getElem? fun k => ?_
  rw [getElem?_tasks, getElem?_tasks]
  cases found : s.run? (k + 1) with
  | some r =>
      obtain ⟨r', known, evolves⟩ := h.evolves found
      rw [known, Option.map_some, evolves.task]
      rfl
  | none =>
      have missing : t.run? (k + 1) = none := by
        have beyond : s.runs[k]? = none := found
        rw [List.getElem?_eq_none_iff, ← length] at beyond
        exact List.getElem?_eq_none beyond
      rw [missing]

theorem tasks_launch (s : Supervisor) (task : Task) (origin : Option Nat) :
    (s.launch task origin).tasks = s.tasks ++ [task] := by
  refine List.ext_getElem? fun k => ?_
  have length : s.tasks.length = s.runs.length := List.length_map _
  rw [launch_eq, getElem?_tasks, run?_writeAll, run?_withRun, List.getElem?_append, getElem?_tasks,
    length]
  by_cases old : k < s.runs.length
  · rw [if_neg (by omega), if_pos old]
    -- a run that is replaced is cancelled, but keeps its task
    split <;> simp [Function.comp_def]
  · have missing : s.run? (k + 1) = none := List.getElem?_eq_none (Nat.not_lt.mp old)
    rw [if_neg old, missing]
    by_cases last : k = s.runs.length
    · simp [last]
    · rw [if_neg (by omega), List.getElem?_eq_none (by simp; omega)]
      simp

theorem tasks_launches (tasks : List Task) (s : Supervisor) :
    (tasks.foldl (fun s task => s.launch task none) s).tasks = s.tasks ++ tasks := by
  induction tasks generalizing s with
  | nil => simp
  | cons task rest ih => rw [List.foldl_cons, ih, tasks_launch, List.append_assoc]; rfl

/-- How the waiting tasks and the runs fit to the submissions. -/
structure Tally (s : Supervisor) (told : List Submission) : Prop where
  early : s.stage = .created → madeIn .started told = []
  waiting : s.stage = .created → s.pending = survivors (madeIn .created told)
  unlaunched : s.stage = .created → s.runs = []
  launched : s.stage ≠ .created → s.tasks = accepted told

namespace Tally

variable {told : List Submission} {m : Move}

theorem create (setup : Setup) : Tally (create setup) [] :=
  ⟨fun _ => rfl, fun _ => rfl, fun _ => rfl, fun begun => absurd rfl begun⟩

/-- From the start on it is about the runs only. -/
theorem of_begun (begun : s.stage ≠ .created) (launched : s.tasks = accepted told) :
    Tally s told :=
  ⟨fun created => absurd created begun, fun created => absurd created begun,
    fun created => absurd created begun, fun _ => launched⟩

/-- What submits nothing keeps the waiting tasks and the tasks of the runs. -/
theorem keep (h : Tally s told) (chain : Chain s t) (pending : t.pending = s.pending)
    (length : t.runs.length = s.runs.length) (created : s.stage = .created → t.stage = .created) :
    Tally t told := by
  have before : t.stage = .created → s.stage = .created := by
    intro still
    by_contra begun
    exact chain.begun begun still
  refine ⟨fun still => h.early (before still), fun still => ?_, fun still => ?_, fun begun => ?_⟩
  · rw [pending, h.waiting (before still)]
  · rw [h.unlaunched (before still)] at length
    exact List.eq_nil_of_length_eq_zero length
  · rw [chain.tasks_eq length]
    exact h.launched (mt created begun)

/-- A submission waits in place of one with its id, or it is launched, or it is dropped. -/
theorem submit (h : Tally s told) (task : Task) (origin : Option Nat) :
    Tally (s.submit task origin) (told ++ [⟨s.stage, task⟩]) := by
  unfold Supervisor.submit
  cases stage : s.stage with
  | created =>
      have stays : (s.enqueue task).stage = .created := stage
      refine ⟨fun _ => ?_, fun _ => ?_, fun _ => ?_, fun begun => absurd stays begun⟩
      · rw [madeIn_concat, h.early stage]
        rfl
      · rw [madeIn_concat, if_pos rfl, survivors_concat, ← h.waiting stage]
        rfl
      · exact h.unlaunched stage
  | started =>
      have stays : (s.launch task origin).stage = .started := by
        rw [launch_eq]
        exact stage
      refine .of_begun (by simp [stays]) ?_
      rw [tasks_launch, h.launched (by simp [stage]), accepted_concat told Stage.noConfusion]
      rfl
  | stopped =>
      have begun : s.stage ≠ .created := by simp [stage]
      refine .of_begun begun ?_
      have same : (s.record (.submissionDropped task.id)).tasks = s.tasks := rfl
      rw [same, h.launched begun, accepted_concat told Stage.noConfusion]
      exact (List.append_nil _).symm

/-- The start launches what waits. -/
theorem start (h : Tally s told) (created : s.stage = .created) (started : s.start = .ok t) :
    Tally t told := by
  rw [Supervisor.start, created] at started
  cases started
  have stays := (SameConduct.foldl_launch s.pending
    (({ s with stage := .started, loop := .running, pending := []
               listener := s.openListener } : Supervisor).record
      (.started s.pending.length))).stage
  refine .of_begun (stays.trans_ne (show Stage.started ≠ .created from Stage.noConfusion)) ?_
  rw [tasks_launches, accepted, h.early created, h.waiting created, List.append_nil]
  change s.runs.map (·.task) ++ _ = _
  rw [h.unlaunched created]
  rfl

theorem apply (h : Tally s told) (applied : s.apply m = some t) :
    Tally t (told ++ submissions s m t) := by
  have silent : ∀ none : s.submission? m = none, told ++ submissions s m t = told := by
    intro none
    simp [submissions, none]
  cases compound : m.isCompound with
  | false =>
      obtain ⟨pending, length, created, -⟩ := apply_simple compound applied
      rw [silent (submission?_of_simple compound)]
      exact h.keep (apply_chain applied) pending length created
  | true => cases apply_compound compound applied with
    | idle prepared own =>
        obtain ⟨_, _, _, rfl⟩ := prepared
        rw [silent own]
        exact h.keep (apply_chain applied) rfl rfl id
    | submit prepared task origin after own =>
        obtain ⟨delays, streaks, journal, rfl⟩ := prepared
        have one : submissions s m t = [⟨s.stage, task⟩] := by simp [submissions, own]
        have same : Tally { s with delays, streaks, journal } told :=
          ⟨h.early, h.waiting, h.unlaunched, h.launched⟩
        rw [one, after]
        exact same.submit task origin
    | start created started own =>
        rw [silent own]
        exact h.start created started
    | leave left own =>
        have keeps := (leave_steps left).keeps
        rw [silent own]
        exact h.keep (apply_chain applied) keeps.pending keeps.length keeps.created

end Tally

/-- After any moves the runs fit to the submissions. -/
theorem tally_of_applyAll {moves : List Move} (ran : (create setup).applyAll moves = some s) :
    Tally s (trace submissions (create setup) moves) :=
  trace_invariant submissions ran (.create setup) fun _ inv applied => inv.apply applied

/-! ## Invocations -/

theorem count_courseTo (s : Supervisor) (task : Task) {phase : Phase} (begun : phase ≠ .launched) :
    (s.courseTo task phase).count .invoked = if task.work.isSome = true then 1 else 0 := by
  have opened : (opening task).count .invoked = if task.work.isSome = true then 1 else 0 := by
    cases work : task.work <;> simp [opening, work]
  have called : ∀ scope fault, (s.callStation task scope fault).count .invoked = 0 := by
    intro scope fault
    cases callback : s.callback? task scope <;> simp [callStation, callback]
  cases phase with
  | launched => exact absurd rfl begun
  | due scope | calling scope =>
      cases scope <;> simp [courseTo, calledBack, ended, opened, called]
  | _ => simp [courseTo, calledBack, ended, opened, called]

/-- The work routine of a run is invoked when the run begins, if its task has one. -/
theorem count_courseOf {n : Nat} {r : Run} (found : s.run? n = some r)
    (begun : r.phase ≠ .launched) :
    (s.courseOf n).count .invoked = if r.task.work.isSome = true then 1 else 0 := by
  have told : ∀ e : Event, [Station.told e].count .invoked = 0 := fun _ => rfl
  rw [courseOf, found]
  dsimp only
  rw [List.count_append, count_courseTo s r.task begun]
  by_cases gone : r.phase.isFinished = true ∧ n ∉ s.queue <;> simp [gone, told]

theorem courseOf_of_launched {n : Nat} {r : Run} (found : s.run? n = some r)
    (phase : r.phase = .launched) : s.courseOf n = [] := by
  simp [courseOf, found, phase, courseTo, Phase.isFinished]

/-- A run that has begun has told so. -/
theorem opening_isPrefix {n : Nat} {r : Run} (found : s.run? n = some r)
    (begun : r.phase ≠ .launched) : opening r.task <+: s.courseOf n := by
  rw [courseOf, found]
  refine List.IsPrefix.trans ?_ (List.prefix_append _ _)
  cases phase : r.phase with
  | launched => exact absurd phase begun
  | due scope | calling scope => cases scope <;> simp [courseTo, calledBack, ended]
  | _ => simp [courseTo, calledBack, ended]

/-- Nothing waits to begin any more when nothing moves, and neither when `AllStopped` is told. -/
theorem Reachable.begun (h : Reachable setup s)
    (settled : s.isQuiescent = true ∨ ∃ e ∈ s.published, e.kind = .allStopped) {n : Nat} {r : Run}
    (found : s.run? n = some r) : r.phase ≠ .launched := by
  intro phase
  rcases settled with still | ⟨e, told, kind⟩
  · rcases phase_of_quiescent still found with other | ⟨_, other | other⟩ <;>
      rw [phase] at other <;> cases other
  · have finished := (h.attained.loopInvariant.exited
      (h.attained.exited_of_allStopped told kind)).2.2 n r found
    rw [phase] at finished
    cases finished

/-! ## All submissions -/

/-- What has become of all that was submitted. Run `k + 1` is the one of the task at place `k`. -/
structure Execution (s : Supervisor) (told : List Submission) : Prop where
  /-- Before the start those tasks wait that are not replaced. -/
  waiting : s.stage = .created → s.pending = survivors (madeIn .created told) ∧ s.tasks = []
  /-- From the start on there is one run for each accepted submission, and no other one. -/
  runs : s.stage ≠ .created → s.tasks = accepted told
  /-- Every run was launched once. -/
  launched : s.journal.launched = List.range' 1 s.tasks.length
  /-- What is invoked is the work routine of a run, and once only. -/
  invoked : ∀ n, 0 < s.journal.invocations n → s.journal.invocations n = 1 ∧
    ∃ k task, n = k + 1 ∧ s.tasks[k]? = some task ∧ task.work.isSome = true
  /-- When nothing moves any more, and by the time that `AllStopped` is told, every run has begun
  with its own task and has invoked the work routine once, if there is one. -/
  all : (s.isQuiescent = true ∨ ∃ e ∈ s.published, e.kind = .allStopped) →
    ∀ k task, s.tasks[k]? = some task → opening task <+: s.journal.course (k + 1) ∧
      s.journal.invocations (k + 1) = if task.work.isSome = true then 1 else 0

/-- Whatever is accepted is executed once, and nothing else is. -/
theorem execution {moves : List Move} (ran : (create setup).applyAll moves = some s) :
    Execution s (trace submissions (create setup) moves) := by
  have reached := reachable_of_applyAll ran
  have tally := tally_of_applyAll ran
  have length : s.tasks.length = s.runs.length := List.length_map _
  refine ⟨fun created => ⟨tally.waiting created, ?_⟩, tally.launched, ?_, fun n some => ?_, ?_⟩
  · rw [tasks, tally.unlaunched created, List.map_nil]
  · rw [reached.attained.launched, length]
  · rw [Journal.invocations_eq, reached.attained.course] at some ⊢
    cases found : s.run? n with
    | none => simp [courseOf, found] at some
    | some r =>
        -- a run that has not begun has invoked nothing
        by_cases begun : r.phase = .launched
        · simp [courseOf_of_launched found begun] at some
        · rw [count_courseOf found begun] at some ⊢
          have work : r.task.work.isSome = true := by
            by_contra none
            simp [none] at some
          obtain ⟨positive, -⟩ := run?_bounds found
          refine ⟨if_pos work, n - 1, r.task, by omega, ?_, work⟩
          rw [getElem?_tasks, Nat.sub_add_cancel positive, found, Option.map_some]
  · intro settled k task there
    rw [getElem?_tasks] at there
    obtain ⟨r, found, rfl⟩ := Option.map_eq_some_iff.mp there
    have begun := reached.begun settled found
    rw [Journal.invocations_eq, reached.attained.course]
    exact ⟨opening_isPrefix found begun, count_courseOf found begun⟩

/-- The first task is replaced before the start, and the second one before it has begun. Then comes
the teardown, and the last task comes too late. The second and the third one are executed. -/
def lateCrowd : List Move :=
  [.submit { id := "a", work := some { name := "first" } },
    .submit { id := "a", work := some { name := "second" } }, .start,
    .submit { id := "a", work := some { name := "third" } }, .stop, .progress (.proceed 0),
    .progress (.proceed 0), .submit { id := "b" }, .progress (.begin 1), .progress (.begin 2),
    .finish 1 (.returns (some .canceled)), .finish 2 (.returns none)] ++
  [.release 1, .release 2, .report 1, .report 2, .call 1, .call 2, .call 1, .call 2, .send 1,
    .send 2, .observe, .observe, .proceed 0, .exitLoop, .proceed 0].map Move.progress

theorem execution_of_lateCrowd :
    ∃ s, (create {}).applyAll lateCrowd = some s ∧
      (trace submissions (create {}) lateCrowd).map (fun made => (made.stage, made.task.id)) =
        [(.created, "a"), (.created, "a"), (.started, "a"), (.stopped, "b")] ∧
      s.tasks.map (fun task => task.work.map (·.name)) = [some "second", some "third"] ∧
      s.journal.invocations 1 = 1 ∧ s.journal.invocations 2 = 1 ∧
      Execution s (trace submissions (create {}) lateCrowd) := by
  obtain ⟨s, ran, made, tasks, first, second⟩ :
      ∃ s, (create {}).applyAll lateCrowd = some s ∧
        (trace submissions (create {}) lateCrowd).map (fun made => (made.stage, made.task.id)) =
          [(.created, "a"), (.created, "a"), (.started, "a"), (.stopped, "b")] ∧
        s.tasks.map (fun task => task.work.map (·.name)) = [some "second", some "third"] ∧
        s.journal.invocations 1 = 1 ∧ s.journal.invocations 2 = 1 := ⟨_, rfl, rfl, rfl, rfl, rfl⟩
  exact ⟨s, ran, made, tasks, first, second, execution ran⟩

end Supervisor

end Supervision
