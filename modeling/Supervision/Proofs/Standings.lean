import Supervision.Proofs.Instants
import Supervision.Proofs.Omissions
import Supervision.Proofs.PendingTasks
import Supervision.Proofs.Streaks

/-!
# What stands of an id

What a supervisor will do about an id hangs on little: which runs it has launched, which delays are
to come, and what the restarters remember of the id. Most moves leave all of that alone, and those
that do not are few: a submission, a delay that comes to its end, and a callback that asks for a
restart.

Results:
1. `standing_submit`: what a submission does to the standing of an id.
2. `standing_handTo_of_ne`: a restarter that is told about another id leaves the standing alone.
3. `deed_of_apply`: what a move does to the standing of an id while the supervisor runs.
4. `areAmong_of_applyAll`: whatever is run, waits or is put off has been submitted from outside.
-/

namespace Supervision

/-- The numbers, counted from one, of the tasks with an id. -/
def numbersOf (id : String) (tasks : List Task) : List Nat :=
  (tasks.zipIdx 1).filterMap fun (task, n) => if task.id = id then some n else none

theorem numbersOf_concat (id : String) (tasks : List Task) (task : Task) :
    numbersOf id (tasks ++ [task]) =
      numbersOf id tasks ++ if task.id = id then [tasks.length + 1] else [] := by
  rw [numbersOf, List.zipIdx_append, List.filterMap_append, ← numbersOf, Nat.add_comm]
  by_cases own : task.id = id <;> simp [own]

theorem length_numbersOf (id : String) (tasks : List Task) :
    (numbersOf id tasks).length = (tasks.filter (·.id == id)).length := by
  induction tasks using List.reverseRecOn with
  | nil => rfl
  | append_singleton tasks task ih =>
      rw [numbersOf_concat, List.length_append, ih, List.filter_append, List.length_append]
      by_cases own : task.id = id <;> simp [own]

theorem mem_numbersOf {id : String} {tasks : List Task} {n : Nat} :
    n ∈ numbersOf id tasks ↔ ∃ k task, n = k + 1 ∧ tasks[k]? = some task ∧ task.id = id := by
  unfold numbersOf
  constructor
  · intro member
    obtain ⟨⟨task, _⟩, place, found⟩ := List.mem_filterMap.mp member
    obtain ⟨own, same⟩ := Option.ite_none_right_eq_some.mp found
    cases same
    obtain ⟨below, there⟩ := List.mk_mem_zipIdx_iff_le_and_getElem?_sub.mp place
    exact ⟨n - 1, task, by omega, there, own⟩
  · rintro ⟨k, task, rfl, there, own⟩
    refine List.mem_filterMap.mpr ⟨(task, k + 1), ?_, if_pos own⟩
    exact List.mk_mem_zipIdx_iff_le_and_getElem?_sub.mpr ⟨by omega, by simpa using there⟩

/-- What stands of an id: its runs, the times at which the delays are due that are still to come,
and for each restarter how many restarts it has counted. -/
structure Standing where
  runs : List Nat
  dues : List Nat
  counts : List Nat

/-- A restarter that is told about another id keeps the streak. -/
theorem Restarter.get_answer_of_ne {r : Restarter} {c : Consultation} {id : String}
    (other : c.id ≠ id) (streaks : Streaks) : (r.answer streaks c).1.get id = streaks.get id := by
  cases wanted : r.policy.wants c.fault with
  | false => rw [answer_of_unwanted wanted, Streaks.get_clear, if_neg (Ne.symm other)]
  | true => cases counted : r.counts c with
    | true => rw [answer_of_counts counted, Streaks.get_bump, if_neg (Ne.symm other)]
    | false =>
        obtain ⟨decision, -, idle⟩ := answer_of_idle wanted counted
        rw [idle]

namespace Supervisor

variable {setup : Setup} {s t : Supervisor} {id : String} {m : Move}

/-- The numbers of the runs of an id, in the order of their launches. -/
def runsOf (s : Supervisor) (id : String) : List Nat := numbersOf id s.tasks

/-- The delays of an id that are still to come: they are pending, or the timer has yet to be set. -/
def pendingOf (s : Supervisor) (id : String) : List Delay :=
  s.delays.filter fun d => d.state.isOpen && d.task.id == id

/-- The times at which the delays of an id are due that are still to come. -/
def duesOf (s : Supervisor) (id : String) : List Nat := (s.pendingOf id).map (·.due)

/-- What each restarter has counted for an id. -/
def countsOf (s : Supervisor) (id : String) : List Nat := s.streaks.map (·.get id)

theorem duesOf_eq_nil_iff : s.duesOf id = [] ↔ s.pendingOf id = [] := List.map_eq_nil_iff

theorem mem_duesOf {d : Delay} (h : d ∈ s.pendingOf id) : d.due ∈ s.duesOf id :=
  List.mem_map_of_mem h

theorem length_duesOf (s : Supervisor) (id : String) :
    (s.duesOf id).length = (s.pendingOf id).length := List.length_map _

def standing (s : Supervisor) (id : String) : Standing :=
  ⟨s.runsOf id, s.duesOf id, s.countsOf id⟩

theorem mem_runsOf {n : Nat} : n ∈ s.runsOf id ↔ ∃ r, s.run? n = some r ∧ r.task.id = id := by
  rw [runsOf, mem_numbersOf]
  constructor
  · rintro ⟨k, task, rfl, there, own⟩
    rw [getElem?_tasks] at there
    obtain ⟨r, found, rfl⟩ := Option.map_eq_some_iff.mp there
    exact ⟨r, found, own⟩
  · rintro ⟨r, found, own⟩
    obtain ⟨positive, -⟩ := run?_bounds found
    have place : n = n - 1 + 1 := by omega
    refine ⟨n - 1, r.task, place, ?_, own⟩
    rw [getElem?_tasks, ← place, found, Option.map_some]

theorem standing_congr (tasks : t.tasks = s.tasks) (delays : t.delays = s.delays)
    (streaks : t.streaks = s.streaks) (id : String) : t.standing id = s.standing id := by
  rw [standing, standing, runsOf, duesOf, pendingOf, countsOf, tasks, delays, streaks]
  rfl

theorem Steps.standing (h : Steps s t) (id : String) : t.standing id = s.standing id := by
  have chain : Chain s t := .single h.advances
  have keeps := h.keeps
  exact standing_congr (chain.tasks_eq keeps.length) keeps.delays keeps.streaks id

/-! ## Submissions -/

/-- A submission to a running supervisor launches one more run. -/
theorem standing_submit (started : s.stage = .started) (task : Task) (origin : Option Nat)
    (id : String) : (s.submit task origin).standing id =
      { s.standing id with
        runs := s.runsOf id ++ if task.id = id then [s.runs.length + 1] else [] } := by
  have length : s.tasks.length = s.runs.length := List.length_map _
  have launched : s.submit task origin = s.launch task origin := by rw [submit, started]
  have kept := submit_keeps s task origin
  rw [launched] at kept ⊢
  rw [standing, runsOf, tasks_launch, numbersOf_concat, length, duesOf, pendingOf, kept.delays,
    countsOf, kept.streaks]
  rfl

theorem standing_submit_of_ne (started : s.stage = .started) {task : Task} (other : task.id ≠ id)
    (origin : Option Nat) : (s.submit task origin).standing id = s.standing id := by
  rw [standing_submit started, if_neg other, List.append_nil]
  rfl

/-- The launch of the new run is told. -/
theorem mem_journal_submit (started : s.stage = .started)
    (numbered : s.registry.numbered = s.runs.length) (task : Task) (origin : Option Nat) :
    ⟨s.now, .launched (s.runs.length + 1)⟩ ∈ (s.submit task origin).journal := by
  have launched : s.submit task origin = s.launch task origin := by rw [submit, started]
  rw [launched, launch_eq]
  refine mem_journal_writeAll.mpr (.inr ⟨rfl, ?_⟩)
  rw [← numbered, launchMarks]
  split <;> simp

/-! ## Delays -/

section Delays

variable {d : Delay} {index : Nat} {state : DelayState}

theorem duesOf_eq_filterMap (s : Supervisor) (id : String) : s.duesOf id =
    s.delays.filterMap fun d => if d.state.isOpen ∧ d.task.id = id then some d.due else none := by
  rw [duesOf, pendingOf, ← List.filterMap_eq_filter, List.map_filterMap]
  refine List.filterMap_congr fun d _ => ?_
  by_cases counted : d.state.isOpen ∧ d.task.id = id <;> simp [Option.guard, counted]

/-- A delay of another id comes to its end, or a timer is set of one that is still to come. -/
theorem standing_setDelay (found : s.delays[index]? = some d)
    (same : d.task.id ≠ id ∨ state.isOpen = d.state.isOpen) :
    (s.setDelay index state).standing id = s.standing id := by
  have dues : (s.setDelay index state).duesOf id = s.duesOf id := by
    rw [duesOf_eq_filterMap, duesOf_eq_filterMap]
    refine filterMap_modify_of_eq found ?_
    rcases same with other | same <;> simp [*]
  rw [standing, dues]
  rfl

/-- A delay of the id that comes to its end. -/
theorem length_duesOf_setDelay (found : s.delays[index]? = some d)
    (isOpen : d.state.isOpen = true) (own : d.task.id = id) (ended : state.isOpen = false) :
    ((s.setDelay index state).duesOf id).length + 1 = (s.duesOf id).length := by
  obtain ⟨bound, here⟩ := List.getElem?_eq_some_iff.mp found
  have set : (s.setDelay index state).delays = s.delays.set index { d with state } := by
    rw [setDelay, List.modify_eq_set_getElem?, found]
    rfl
  rw [length_duesOf, length_duesOf, pendingOf, pendingOf, set, ← List.countP_eq_length_filter,
    ← List.countP_eq_length_filter, List.countP_set bound, here]
  have more : 0 < s.delays.countP fun d => d.state.isOpen && d.task.id == id :=
    List.countP_pos_iff.mpr ⟨d, List.mem_of_getElem? found, by simp [isOpen, own]⟩
  simp [isOpen, own, ended]
  omega

theorem mem_pendingOf (found : s.delays[index]? = some d) (pending : d.state = .pending) :
    d ∈ s.pendingOf d.task.id :=
  List.mem_filter.mpr ⟨List.mem_of_getElem? found, by simp [pending, DelayState.isOpen]⟩

end Delays

/-! ## Restarts of other ids -/

theorem standing_restart_of_ne (started : s.stage = .started) {number : Nat}
    {policy : RestartPolicy} {r : Run} (found : s.run? number = some r) (other : r.task.id ≠ id)
    (h : s.restart number policy = some t) : t.standing id = s.standing id := by
  obtain ⟨q, scope, fault, known, phase, step⟩ := restart_cases h
  obtain rfl : q = r := Option.some.inj (known.symm.trans found)
  cases step with
  | unwanted | cancelled | stopped => rfl
  | again => exact standing_submit_of_ne (s := s.record (.restarting q.task.id)) started other _

theorem standing_enact_of_ne (started : s.stage = .started) {task : Task} (other : task.id ≠ id)
    (number : Nat) (decision : Decision) :
    (s.enact number task decision).1.standing id = s.standing id := by
  cases decision with
  | unwanted | stopped | cancelled | exhausted | overflow => rfl
  | again streak delay =>
      simp only [enact, submitAfter]
      split
      · exact standing_submit_of_ne (s := s.record (.restartingAfter task.id streak delay)) started
          other _
      · simp [standing, duesOf, pendingOf, runsOf, countsOf, tasks, record, mark,
          List.filter_append, other]

/-- Counting for another id. -/
theorem standing_withStreaks_of_get {index : Nat} {old new : Streaks}
    (found : s.streaks[index]? = some old) (same : new.get id = old.get id) :
    (s.withStreaks index new).standing id = s.standing id := by
  have counts : (s.withStreaks index new).countsOf id = s.countsOf id := by
    rw [countsOf, withStreaks, List.map_set, same]
    refine List.ext_getElem? fun k => ?_
    rw [List.getElem?_set, countsOf]
    split
    · next here =>
        subst here
        obtain ⟨bound, here⟩ := List.getElem?_eq_some_iff.mp found
        simp [bound, here]
    · rfl
  rw [standing, counts]
  rfl

theorem standing_consult_of_ne (started : s.stage = .started) {r : Run} (other : r.task.id ≠ id)
    (number : Nat) (fault : Option Fault) (index draw : Nat) :
    (s.consult number r fault index draw).1.standing id = s.standing id := by
  cases found : s.setup.restarters[index]? with
  | none => simp [consult, found]
  | some restarter => cases kept : s.streaks[index]? with
    | none => simp [consult, found, kept]
    | some streaks =>
        rw [consult_answer found kept]
        refine (standing_enact_of_ne ?_ other number _).trans ?_
        · exact started
        · exact standing_withStreaks_of_get kept
            (Restarter.get_answer_of_ne (c := s.consultation r fault draw) other streaks)

theorem standing_handTo_of_ne (started : s.stage = .started) {number index draw : Nat} {r : Run}
    (found : s.run? number = some r) (other : r.task.id ≠ id)
    (h : s.handTo number index draw = some t) : t.standing id = s.standing id := by
  unfold handTo at h
  rw [found] at h
  dsimp only at h
  split at h
  · next scope fault phase =>
      have same := standing_consult_of_ne started other number fault index draw
      obtain ⟨-, h⟩ := Option.ite_none_left_eq_some.mp h
      split at h
      · next u consulted =>
          cases h
          rwa [consulted] at same
      · next u payload consulted =>
          rw [consulted] at same
          exact ((leave_steps h).standing id).trans same
  · cases h

/-! ## Moves -/

/-- What a move does to the standing of an id while the supervisor runs. -/
inductive Deed (s : Supervisor) (id : String) (m : Move) (t : Supervisor) : Prop
  /-- It leaves the standing alone; then it neither submits a task with the id nor asks for a
  restart of one. -/
  | aside (unasked : ∀ n action, m.ask? = some (n, action) → n ∉ s.runsOf id)
      (unsubmitted : ∀ task, m.submitted? = some task → task.id ≠ id)
      (same : t.standing id = s.standing id)
  | submit {task : Task} (own : m = .submit task) (same : task.id = id)
      (after : t.standing id =
        { s.standing id with runs := s.runsOf id ++ [s.runs.length + 1] })
  /-- A pending delay of the id is due and launches a run. -/
  | fire {k : Nat} {d : Delay} (own : m = .progress (.fire k)) (member : d ∈ s.pendingOf id)
      (due : d.due ≤ s.now) (runs : t.runsOf id = s.runsOf id ++ [s.runs.length + 1])
      (fewer : (t.duesOf id).length + 1 = (s.duesOf id).length)
      (counts : t.countsOf id = s.countsOf id)
      (told : ⟨s.now, .launched (s.runs.length + 1)⟩ ∈ t.journal)
  | abandon {d : Delay} (member : d ∈ s.pendingOf id) (cancelled : s.scopeIsCancelled = true)
  /-- A callback asks for a restart of a run of the id. -/
  | ask {n : Nat} {action : Action} (own : m.ask? = some (n, action)) (member : n ∈ s.runsOf id)

theorem deed_of_simple (simple : m.isCompound = false) (h : s.apply m = some t) (id : String) :
    Deed s id m t := by
  have unasked : ∀ n action, m.ask? = some (n, action) → n ∉ s.runsOf id := by
    intro n action asked
    cases m with
    | restart | handTo => cases simple
    | _ => cases asked
  have unsubmitted : ∀ task, m.submitted? = some task → task.id ≠ id := by
    intro task submitted
    cases m with
    | submit => cases simple
    | _ => cases submitted
  cases simple_cases simple h with
  | steps steps => exact .aside unasked unsubmitted (steps.standing id)
  | @abandon k d own found pending ended after =>
      subst after
      by_cases same : d.task.id = id
      · exact .abandon (same ▸ mem_pendingOf found pending) ended
      · exact .aside unasked unsubmitted (standing_setDelay found (.inl same))
  | @arm k d own found decided after =>
      subst after
      exact .aside unasked unsubmitted (standing_setDelay found (.inr (by rw [decided]; rfl)))
  | feed _ _ aside =>
      obtain ⟨_, _, rfl⟩ := aside
      exact .aside unasked unsubmitted rfl

theorem deed_of_fire (started : s.stage = .started)
    (numbered : s.registry.numbered = s.runs.length) {k : Nat} (h : s.fire k = some t)
    (id : String) : Deed s id (.progress (.fire k)) t := by
  obtain ⟨d, found, pending, due, rfl⟩ := fire_eq h
  have after := standing_submit (s := s.setDelay k .fired) started d.task (some d.origin) id
  by_cases same : d.task.id = id
  · rw [if_pos same] at after
    refine .fire rfl (same ▸ mem_pendingOf found pending) due (congrArg Standing.runs after) ?_
      (congrArg Standing.counts after) ?_
    · rw [show ((s.setDelay k .fired).submit d.task (some d.origin)).duesOf id =
        (s.setDelay k .fired).duesOf id from congrArg Standing.dues after]
      exact length_duesOf_setDelay found (by rw [pending]; rfl) same rfl
    · exact mem_journal_submit (s := s.setDelay k .fired) started numbered d.task _
  · rw [if_neg same, List.append_nil] at after
    refine .aside (fun _ _ asked => by cases asked) (fun _ made => by cases made)
      (after.trans ?_)
    exact standing_setDelay found (.inl same)

/-- A callback that asks for a restart does so for a run of the id, or it leaves the standing
alone. -/
theorem deed_of_ask {n : Nat} {action : Action} {r : Run} (own : m.ask? = some (n, action))
    (found : s.run? n = some r) (unsubmitted : m.submitted? = none)
    (aside : r.task.id ≠ id → t.standing id = s.standing id) : Deed s id m t := by
  by_cases same : r.task.id = id
  · exact .ask own (mem_runsOf.mpr ⟨r, found, same⟩)
  · refine .aside (fun k _ asked member => ?_) (by simp [unsubmitted]) (aside same)
    rw [own, Option.some.injEq, Prod.mk.injEq] at asked
    obtain ⟨q, known, its⟩ := mem_runsOf.mp (asked.1 ▸ member)
    obtain rfl : q = r := Option.some.inj (known.symm.trans found)
    exact same its

theorem deed_of_apply (started : s.stage = .started)
    (numbered : s.registry.numbered = s.runs.length) (h : s.apply m = some t) (id : String) :
    Deed s id m t := by
  cases compound : m.isCompound with
  | false => exact deed_of_simple compound h id
  | true => cases m with
    | submit task =>
        cases h
        by_cases same : task.id = id
        · refine .submit rfl same ((standing_submit started task none id).trans ?_)
          rw [if_pos same]
        · refine .aside (fun _ _ asked => by cases asked) ?_ (standing_submit_of_ne started same _)
          rintro _ ⟨⟩
          exact same
    | start =>
        simp only [apply, start, started, Option.some.injEq] at h
        exact .aside (fun _ _ asked => by cases asked) (fun _ made => by cases made) (h ▸ rfl)
    | restart number policy =>
        obtain ⟨r, -, -, found, -, -⟩ := restart_cases h
        have aside : r.task.id ≠ id → t.standing id = s.standing id :=
          fun other => standing_restart_of_ne started found other h
        cases policy <;> exact deed_of_ask rfl found rfl aside
    | handTo number index draw =>
        obtain ⟨r, -, -, -, found, -, -⟩ := handTo_cases h
        have aside : r.task.id ≠ id → t.standing id = s.standing id :=
          fun other => standing_handTo_of_ne started found other h
        exact deed_of_ask rfl found rfl aside
    | progress p => cases p with
      | fire k => exact deed_of_fire started numbered h id
      | _ => cases compound
    | _ => cases compound

/-! ## Where tasks come from -/

/-- The tasks that are run, that wait for the start or that are put off are among those given. -/
structure AreAmong (s : Supervisor) (told : List Task) : Prop where
  run : ∀ task ∈ s.tasks, task ∈ told
  waiting : ∀ task ∈ s.pending, task ∈ told
  delayed : ∀ d ∈ s.delays, d.task ∈ told

namespace AreAmong

variable {told : List Task}

theorem congr (h : AreAmong s told) (tasks : t.tasks = s.tasks) (pending : t.pending = s.pending)
    (delays : t.delays = s.delays) : AreAmong t told :=
  ⟨tasks ▸ h.run, pending ▸ h.waiting, delays ▸ h.delayed⟩

theorem append (h : AreAmong s told) (more : List Task) : AreAmong s (told ++ more) :=
  ⟨fun task member => List.mem_append_left _ (h.run task member),
    fun task member => List.mem_append_left _ (h.waiting task member),
    fun d member => List.mem_append_left _ (h.delayed d member)⟩

theorem steps (h : AreAmong s told) (steps : Steps s t) : AreAmong t told := by
  have chain : Chain s t := .single steps.advances
  have keeps := steps.keeps
  exact h.congr (chain.tasks_eq keeps.length) keeps.pending keeps.delays

theorem setDelay (h : AreAmong s told) (index : Nat) (state : DelayState) :
    AreAmong (s.setDelay index state) told := by
  refine ⟨h.run, h.waiting, fun d member => ?_⟩
  obtain ⟨k, found⟩ := List.mem_iff_getElem?.mp member
  rw [getElem?_setDelay] at found
  split at found
  · obtain ⟨before, known, rfl⟩ := Option.map_eq_some_iff.mp found
    exact h.delayed before (List.mem_of_getElem? known)
  · exact h.delayed d (List.mem_of_getElem? found)

theorem launch (h : AreAmong s told) {task : Task} (member : task ∈ told) (origin : Option Nat) :
    AreAmong (s.launch task origin) told := by
  refine ⟨fun x there => ?_, ?_, ?_⟩
  · rw [tasks_launch] at there
    rcases List.mem_append.mp there with old | new
    · exact h.run x old
    · exact List.mem_singleton.mp new ▸ member
  · rw [launch_eq]
    exact h.waiting
  · rw [launch_eq]
    exact h.delayed

theorem launches {tasks : List Task} (h : AreAmong s told) (all : ∀ task ∈ tasks, task ∈ told) :
    AreAmong (tasks.foldl (fun s task => s.launch task none) s) told := by
  induction tasks generalizing s with
  | nil => exact h
  | cons task rest ih =>
      rw [List.forall_mem_cons] at all
      exact ih (h.launch all.1 none) all.2

theorem submit (h : AreAmong s told) {task : Task} (member : task ∈ told) (origin : Option Nat) :
    AreAmong (s.submit task origin) told := by
  unfold Supervisor.submit
  split
  · refine ⟨h.run, fun x there => ?_, h.delayed⟩
    rcases List.mem_append.mp there with old | new
    · exact h.waiting x (List.mem_of_mem_eraseP old)
    · exact List.mem_singleton.mp new ▸ member
  · exact h.launch member origin
  · exact h.congr rfl rfl rfl

theorem start (h : AreAmong s told) (started : s.start = .ok t) : AreAmong t told := by
  unfold Supervisor.start at started
  split at started <;> cases started
  · exact h
  · exact launches ⟨h.run, List.forall_mem_nil _, h.delayed⟩ h.waiting

theorem enact (h : AreAmong s told) {task : Task} (member : task ∈ told) (number : Nat)
    (decision : Decision) : AreAmong (s.enact number task decision).1 told := by
  cases decision with
  | unwanted | stopped | cancelled | exhausted | overflow => exact h.congr rfl rfl rfl
  | again streak delay =>
      have noted : AreAmong (s.record (.restartingAfter task.id streak delay)) told :=
        h.congr rfl rfl rfl
      simp only [Supervisor.enact, submitAfter]
      split
      · exact noted.submit member _
      · refine ⟨noted.run, noted.waiting, fun d there => ?_⟩
        rcases List.mem_append.mp there with old | new
        · exact noted.delayed d old
        · exact List.mem_singleton.mp new ▸ member

theorem task_mem (h : AreAmong s told) {n : Nat} {r : Run} (found : s.run? n = some r) :
    r.task ∈ told :=
  h.run r.task (List.mem_map_of_mem (mem_runs_iff.mpr ⟨n, found⟩))

theorem restart (h : AreAmong s told) {number : Nat} {policy : RestartPolicy}
    (restarted : s.restart number policy = some t) : AreAmong t told := by
  obtain ⟨r, scope, fault, found, phase, step⟩ := restart_cases restarted
  cases step with
  | unwanted | stopped => exact h
  | cancelled => exact h.congr rfl rfl rfl
  | again =>
      have noted : AreAmong (s.record (.restarting r.task.id)) told := h.congr rfl rfl rfl
      exact noted.submit (h.task_mem found) _

theorem handTo (h : AreAmong s told) {number index draw : Nat}
    (handed : s.handTo number index draw = some t) : AreAmong t told := by
  obtain ⟨r, scope, fault, streaks, found, -, how⟩ := handTo_cases handed
  have counted : AreAmong { s with streaks } told := h.congr rfl rfl rfl
  rcases how with enacted | ⟨payload, -, left⟩
  · have all := counted.enact (h.task_mem found) number (s.decision r fault index draw)
    rwa [enacted] at all
  · exact counted.steps (leave_steps left)

theorem apply (h : AreAmong s told) (applied : s.apply m = some t) :
    AreAmong t (told ++ m.submitted?.toList) := by
  cases compound : m.isCompound with
  | false =>
      refine append ?_ _
      cases simple_cases compound applied with
      | steps steps => exact h.steps steps
      | abandon _ _ _ _ after | arm _ _ _ after => exact after ▸ h.setDelay _ _
      | feed _ _ aside =>
          obtain ⟨_, _, rfl⟩ := aside
          exact h.congr rfl rfl rfl
  | true => cases m with
    | submit task =>
        cases applied
        exact (h.append [task]).submit (by simp) none
    | start =>
        refine append ?_ _
        cases started : s.start with
        | ok u =>
            simp only [Supervisor.apply, started, Option.some.injEq] at applied
            exact applied ▸ h.start started
        | error e =>
            simp only [Supervisor.apply, started, Option.some.injEq] at applied
            exact applied ▸ h
    | restart => exact (h.restart applied).append _
    | handTo => exact (h.handTo applied).append _
    | progress p => cases p with
      | fire k =>
          obtain ⟨d, found, -, -, rfl⟩ := fire_eq applied
          have there := h.delayed d (List.mem_of_getElem? found)
          exact ((h.setDelay k .fired).submit there _).append _
      | _ => cases compound
    | _ => cases compound

end AreAmong

/-- Restarts bring nothing new. -/
theorem areAmong_of_applyAll {moves : List Move} (ran : (create setup).applyAll moves = some s) :
    AreAmong s (moves.filterMap Move.submitted?) := by
  refine history_invariant (P := fun s moves => AreAmong s (moves.filterMap Move.submitted?)) ran
    ⟨List.forall_mem_nil _, List.forall_mem_nil _, List.forall_mem_nil _⟩ ?_
  intro u v m done _ inv applied
  have more := inv.apply applied
  rw [List.filterMap_append]
  cases submitted : m.submitted? <;> simpa [submitted] using more

end Supervisor

end Supervision
