import Supervision.Proofs.Acceptance

/-!
# What waits for the start

Before its start a supervisor only collects what is submitted to it. Of the submissions of one id
the last one counts, and it waits in the place of the last one: a task that is submitted again goes
to the end. The start launches what waits, in order, and as no two of the waiting tasks share their
id, none of them replaces another one.

What a submission announces is settled when the task is kept. The announcement itself is posted in a
step of its own, so several submissions that go on at the same time can be announced in another
order than that of the tasks.

Results:
1. `exists_places`: the survivors of some submissions are those at the last places of their ids.
2. `launches_eq`: what becomes of a supervisor that launches tasks with distinct ids, none of which
   is active.
3. `IsDormant.step`: what a move does before the start.
4. `pendingSet`: what waits after any moves before the start, what they have published and will
   publish, and what the start makes of it.
-/

namespace Supervision

/-! ## Last submissions -/

/-- The last submission of its id stands at the place. -/
def IsLastOfId (tasks : List Task) (place : Nat) : Prop :=
  ∃ task, tasks[place]? = some task ∧ ∀ later ∈ tasks.drop (place + 1), later.id ≠ task.id

theorem isLastOfId_succ {first : Task} {later : List Task} {place : Nat} :
    IsLastOfId (first :: later) (place + 1) ↔ IsLastOfId later place := Iff.rfl

theorem isLastOfId_zero {first : Task} {later : List Task} :
    IsLastOfId (first :: later) 0 ↔ later.any (·.id == first.id) = false := by
  simp [IsLastOfId]

/-- The survivors are the tasks at the last places of their ids, in the order of these places. -/
theorem exists_places (tasks : List Task) : ∃ places : List Nat, places.Pairwise (· < ·) ∧
    (∀ place, place ∈ places ↔ IsLastOfId tasks place) ∧
    (survivors tasks).map some = places.map (tasks[·]?) := by
  induction tasks with
  | nil => exact ⟨[], .nil, by simp [IsLastOfId], rfl⟩
  | cons first later ih =>
      obtain ⟨places, ascending, last, found⟩ := ih
      have shifted : (places.map (· + 1)).Pairwise (· < ·) :=
        ascending.map _ fun a b below => Nat.succ_lt_succ below
      have same : (places.map (· + 1)).map ((first :: later)[·]?) = places.map (later[·]?) := by
        simp [Function.comp_def]
      by_cases replaced : later.any (·.id == first.id) = true
      · refine ⟨places.map (· + 1), shifted, fun place => ?_, ?_⟩
        · cases place with
          | zero => simp [isLastOfId_zero, replaced]
          | succ k => simpa [isLastOfId_succ] using last k
        · rw [survivors, if_pos replaced, same, found]
      · refine ⟨0 :: places.map (· + 1), .cons (by simp) shifted, fun place => ?_, ?_⟩
        · cases place with
          | zero => simp [isLastOfId_zero, replaced]
          | succ k => simpa [isLastOfId_succ] using last k
        · rw [survivors, if_neg replaced, List.map_cons, List.map_cons, same, found]
          rfl

/-- One task of each id survives. -/
theorem nodup_survivors (tasks : List Task) : ((survivors tasks).map (·.id)).Nodup := by
  induction tasks with
  | nil => exact .nil
  | cons first later ih =>
      unfold survivors
      split
      · exact ih
      · next kept =>
          refine List.nodup_cons.mpr ⟨fun again => kept ?_, ih⟩
          obtain ⟨task, survives, same⟩ := List.mem_map.mp again
          exact List.any_eq_true.mpr
            ⟨task, (survivors_sublist later).subset survives, by simp [same]⟩

theorem mem_survivors_ids (tasks : List Task) (id : String) :
    id ∈ (survivors tasks).map (·.id) ↔ id ∈ tasks.map (·.id) := by
  induction tasks with
  | nil => rfl
  | cons first later ih =>
      unfold survivors
      split
      · next replaced =>
          -- the id of the first task comes again
          obtain ⟨task, member, same⟩ := List.any_eq_true.mp replaced
          have again : first.id ∈ later.map (·.id) :=
            List.mem_map.mpr ⟨task, member, by simpa using same⟩
          rw [ih, List.map_cons, List.mem_cons, or_iff_right_of_imp]
          rintro rfl
          exact again
      · rw [List.map_cons, List.map_cons, List.mem_cons, List.mem_cons, ih]

/-- What is published about a submission before the start: whether one with its id came earlier. -/
def announcement (earlier : List Task) (task : Task) : Event :=
  if earlier.any (·.id == task.id) then
    (Event.ofKind .taskReplaced).withTask task.id |>.withReason "pending"
  else (Event.ofKind .taskQueued).withTask task.id

/-- What is published about some submissions before the start, one event for each. -/
def announcements (tasks : List Task) : List Event :=
  tasks.mapIdx fun k task => announcement (tasks.take k) task

theorem announcements_concat (tasks : List Task) (task : Task) :
    announcements (tasks ++ [task]) = announcements tasks ++ [announcement tasks task] := by
  unfold announcements
  rw [List.mapIdx_concat, List.take_left]
  congr 1
  refine List.mapIdx_eq_mapIdx_iff.mpr fun k inside => ?_
  rw [List.take_append_of_le_length (by omega)]

/-- The entries of a list in order, one for each place. -/
theorem map_getElem?_range {α : Type} (l : List α) :
    (List.range l.length).map (l[·]?) = l.map some := by
  refine List.ext_getElem (by simp) fun k _ _ => ?_
  simp

/-- The task that a move submits from outside. -/
def Move.submitted? : Move → Option Task
  | .submit task => some task
  | _ => none

/-- The notice that a move posts. -/
def Move.posted? : Move → Option Nat
  | .progress (.post k) => some k
  | _ => none

namespace Supervisor

variable {s t : Supervisor}

/-! ## Launching tasks with distinct ids -/

/-- The entries of some tasks whose runs are numbered from `first` on. -/
def entriesFrom (first : Nat) (tasks : List Task) : List RegistryEntry :=
  tasks.mapIdx fun k task => ⟨task.id, first + k⟩

/-- The state with one more run for each task, none of which replaces another run. -/
def withRuns (s : Supervisor) (tasks : List Task) : Supervisor :=
  { s with registry := ⟨s.registry.numbered + tasks.length,
                        s.registry.entries ++ entriesFrom (s.registry.numbered + 1) tasks⟩
           runs := s.runs ++ tasks.map fun task => { task } }

/-- A launch of an id that is not active replaces nothing. -/
theorem launch_of_inactive {task : Task} (free : s.registry.lookup task.id = none) :
    s.launch task none = (s.withRuns [task]).writeAll [.launched (s.registry.numbered + 1)] := by
  have others : s.registry.entries.filter (·.id != task.id) = s.registry.entries := by
    refine List.filter_eq_self.mpr fun e member => ?_
    rw [Registry.lookup, Option.map_eq_none_iff, List.find?_eq_none] at free
    simpa using free e member
  rw [launch_eq]
  simp only [launchMarks, withRun, evict, free, Registry.install, others]
  rfl

theorem withRuns_cons (s : Supervisor) (task : Task) (rest : List Task) (marks : List Mark) :
    ((s.withRuns [task]).writeAll marks).withRuns rest =
      (s.withRuns (task :: rest)).writeAll marks := by
  simp [withRuns, writeAll, entriesFrom, List.mapIdx_cons, Nat.add_comm, Nat.add_left_comm]

/-- Tasks with distinct ids, none of which is active, are launched one after the other. -/
theorem launches_eq (tasks : List Task) (distinct : (tasks.map (·.id)).Nodup)
    (free : ∀ task ∈ tasks, s.registry.lookup task.id = none) :
    tasks.foldl (fun s task => s.launch task none) s =
      (s.withRuns tasks).writeAll
        ((List.range' (s.registry.numbered + 1) tasks.length).map .launched) := by
  induction tasks generalizing s with
  | nil => simp [withRuns, entriesFrom]
  | cons task rest ih =>
      rw [List.map_cons, List.nodup_cons] at distinct
      have inactive := free task List.mem_cons_self
      have after : ∀ id, (s.launch task none).registry.lookup id =
          if id = task.id then some (s.registry.numbered + 1) else s.registry.lookup id := by
        intro id
        rw [launch_eq]
        exact Registry.lookup_install s.registry task.id id
      have later : ∀ u ∈ rest, (s.launch task none).registry.lookup u.id = none := by
        intro u member
        have other : u.id ≠ task.id := fun same =>
          distinct.1 (List.mem_map.mpr ⟨u, member, same⟩)
        rw [after, if_neg other]
        exact free u (List.mem_cons_of_mem _ member)
      rw [List.foldl_cons, ih distinct.2 later, launch_of_inactive inactive, withRuns_cons,
        writeAll_writeAll, List.length_cons, List.range'_succ]
      rfl

/-! ## Before the start -/

/-- What holds before the start: nothing is launched or put off, nobody listens, and a call for a
teardown comes no further than to its refusal. -/
structure IsDormant (s : Supervisor) : Prop where
  stage : s.stage = .created
  runs : s.runs = []
  registry : s.registry = {}
  delays : s.delays = []
  loop : s.loop = .absent
  listener : s.listener = none
  done : s.done = false
  calls : ∀ call ∈ s.calls, call.state = .called ∨ ∃ verdict, call.state = .resolved verdict

namespace IsDormant

theorem create (setup : Setup) : IsDormant (create setup) :=
  ⟨rfl, rfl, rfl, rfl, rfl, rfl, rfl, by intro call member; cases member⟩

theorem run? (h : s.IsDormant) (n : Nat) : s.run? n = none := by
  cases n <;> simp [Supervisor.run?, h.runs]

theorem enqueue (h : s.IsDormant) (task : Task) : (s.enqueue task).IsDormant :=
  ⟨h.stage, h.runs, h.registry, h.delays, h.loop, h.listener, h.done, h.calls⟩

theorem post (h : s.IsDormant) (index : Nat) (n : Notice) :
    ((s.withPosted index).writeAll n.marks).IsDormant :=
  ⟨h.stage, h.runs, h.registry, h.delays, h.loop, h.listener, h.done, h.calls⟩

theorem addCall (h : s.IsDormant) (requester : Requester) : (s.addCall requester).IsDormant := by
  refine ⟨h.stage, h.runs, h.registry, h.delays, h.loop, h.listener, h.done, fun call member => ?_⟩
  rcases List.mem_append.mp member with old | new
  · exact h.calls call old
  · exact .inl (List.mem_singleton.mp new ▸ rfl)

theorem withDropped (h : s.IsDormant) (index : Nat) : (s.withDropped index).IsDormant := by
  refine ⟨h.stage, h.runs, h.registry, h.delays, h.loop, h.listener, h.done, fun call member => ?_⟩
  obtain ⟨old, known, -, same⟩ := mem_withDropped member
  exact same ▸ h.calls old known

/-- A call that comes before the start is refused, and nothing is published. -/
theorem proceed (h : s.IsDormant) {index : Nat} (applied : s.proceed index = some t) :
    t.IsDormant ∧ t.pending = s.pending ∧ t.notices = s.notices ∧ t.published = s.published := by
  unfold Supervisor.proceed at applied
  split at applied
  · cases applied
  · next requester state dropped found =>
      have known := h.calls _ (List.mem_of_getElem? found)
      split at applied
      · cases applied
      · cases state with
        | called =>
            simp only [h.stage, Option.some.injEq] at applied
            subst applied
            refine ⟨⟨h.stage, h.runs, h.registry, h.delays, h.loop, h.listener, h.done, ?_⟩, rfl,
              rfl, ?_⟩
            · intro call member
              rcases mem_setCall member with old | resolved
              · exact h.calls call old
              · exact .inr ⟨_, resolved⟩
            · rw [resolve, published_mark]
              exact List.append_nil _
        | resolved => cases applied
        | _ => rcases known with other | ⟨_, other⟩ <;> cases other

/-- What a move does before the start: it submits a task, or it posts a notice, or it is the start,
or it neither touches what waits nor publishes anything. -/
inductive Step (s : Supervisor) : Move → Supervisor → Prop
  | submit (task : Task) : Step s (.submit task) (s.enqueue task)
  | post {k : Nat} {n : Notice} (found : s.notices[k]? = some n) (unposted : n.posted = false) :
      Step s (.progress (.post k)) ((s.withPosted k).writeAll n.marks)
  | start {t : Supervisor} (begun : t.stage ≠ .created) : Step s .start t
  | aside {m : Move} {t : Supervisor} (own : m.submitted? = none ∧ m.posted? = none)
      (dormant : t.IsDormant) (pending : t.pending = s.pending) (notices : t.notices = s.notices)
      (published : t.published = s.published) : Step s m t

theorem step (h : s.IsDormant) {m : Move} (applied : s.apply m = some t) : Step s m t := by
  have none := h.run?
  cases m with
  | submit task =>
      simp only [apply, Supervisor.submit, h.stage, Option.some.injEq] at applied
      exact applied ▸ .submit task
  | start =>
      simp only [apply, Supervisor.start, h.stage, Option.some.injEq] at applied
      refine .start ?_
      rw [← applied]
      have launched := (SameConduct.foldl_launch s.pending
        (({ s with stage := .started, loop := .running, pending := []
                   listener := s.openListener } : Supervisor).record
          (.started s.pending.length))).stage
      exact launched.trans_ne Stage.noConfusion
  | stop =>
      cases applied
      exact .aside ⟨rfl, rfl⟩ (h.addCall _) rfl rfl rfl
  | drop index =>
      obtain ⟨_, _, -, -, -, rfl⟩ := drop_eq applied
      exact .aside ⟨rfl, rfl⟩ (h.withDropped index) rfl rfl rfl
  | wait | interrupt | cancelParent | cancelScope =>
      cases applied
      exact .aside ⟨rfl, rfl⟩
        ⟨h.stage, h.runs, h.registry, h.delays, h.loop, h.listener, h.done, h.calls⟩ rfl rfl rfl
  | tick =>
      obtain ⟨-, same⟩ := Option.ite_none_right_eq_some.mp applied
      cases same
      exact .aside ⟨rfl, rfl⟩
        ⟨h.stage, h.runs, h.registry, h.delays, h.loop, h.listener, h.done, h.calls⟩ rfl rfl rfl
  -- there is no run, no delay, no loop and no listener that could do anything
  | stopFrom => simp [apply, Supervisor.stopFrom, none] at applied
  | cancelRun => simp [apply, Supervisor.cancelRun, none] at applied
  | finish => simp [apply, Supervisor.finish, none] at applied
  | restart => simp [apply, Supervisor.restart, none] at applied
  | handTo => simp [apply, Supervisor.handTo, none] at applied
  | panicIn => simp [apply, Supervisor.leave, none] at applied
  | note => simp [apply, Supervisor.note, none] at applied
  | letGo => simp [apply, Supervisor.letGo, h.listener] at applied
  | progress p => cases p with
    | proceed index =>
        obtain ⟨dormant, pending, notices, published⟩ := h.proceed applied
        exact .aside ⟨rfl, rfl⟩ dormant pending notices published
    | post k =>
        obtain ⟨n, found, unposted, rfl⟩ := post_eq applied
        exact .post found unposted
    | begin => simp [apply, progress, Supervisor.begin, none] at applied
    | release => simp [apply, progress, Supervisor.release, none] at applied
    | report => simp [apply, progress, Supervisor.report, none] at applied
    | call => simp [apply, progress, Supervisor.call, none] at applied
    | leave => simp [apply, progress, Supervisor.leave, none] at applied
    | send => simp [apply, progress, Supervisor.send, none] at applied
    | fire => simp [apply, progress, Supervisor.fire, h.delays] at applied
    | abandon => simp [apply, progress, Supervisor.abandon, h.delays] at applied
    | arm => simp [apply, progress, Supervisor.arm, h.delays] at applied
    | observe => simp [apply, progress, Supervisor.observe, h.loop] at applied
    | heedInterrupt => simp [apply, progress, heedInterrupt, heed, h.loop] at applied
    | heedParent => simp [apply, progress, heedParent, heed, h.loop] at applied
    | exitLoop => simp [apply, progress, Supervisor.exitLoop, h.loop] at applied
    | resolveWait => simp [apply, progress, Supervisor.resolveWait, h.done] at applied
    | listen => simp [apply, progress, Supervisor.listen, h.listener] at applied
    | serve => simp [apply, progress, Supervisor.serve, h.listener] at applied
    | retire => simp [apply, progress, Supervisor.retire, h.listener] at applied
    | closeListener => simp [apply, progress, Supervisor.closeListener, h.listener] at applied

end IsDormant

theorem events_withPosted (s : Supervisor) (k : Nat) :
    (s.withPosted k).notices.map (·.event) = s.notices.map (·.event) := by
  refine List.ext_getElem? fun i => ?_
  rw [List.getElem?_map, List.getElem?_map, withPosted, List.getElem?_modify]
  cases s.notices[i]? with
  | none => rfl
  | some n => split <;> rfl

/-- What some moves before the start have come to, if they submit the tasks and post the notices
with these numbers. -/
structure Collects (s : Supervisor) (tasks : List Task) (posts : List Nat) : Prop where
  dormant : s.IsDormant
  pending : s.pending = survivors tasks
  notices : s.notices.map (·.event) = announcements tasks
  posted : ∀ (k : Nat) (n : Notice), s.notices[k]? = some n → (n.posted = true ↔ k ∈ posts)
  bounded : ∀ k ∈ posts, k < tasks.length
  once : posts.Nodup
  published : s.published.map some = posts.map ((announcements tasks)[·]?)

namespace Collects

variable {tasks : List Task} {posts : List Nat}

theorem length (h : Collects s tasks posts) : s.notices.length = tasks.length := by
  have same := congrArg List.length h.notices
  simpa [announcements] using same

theorem submit (h : Collects s tasks posts) (task : Task) :
    Collects (s.enqueue task) (tasks ++ [task]) posts := by
  -- a task with the id waits if and only if one was submitted
  have known : s.pending.any (fun t => t.id == task.id) = tasks.any (·.id == task.id) := by
    have ids := mem_survivors_ids tasks task.id
    rw [Bool.eq_iff_iff, h.pending]
    simpa only [List.mem_map, List.any_eq_true, beq_iff_eq] using ids
  refine ⟨h.dormant.enqueue task, ?_, ?_, ?_, ?_, h.once, ?_⟩
  · rw [survivors_concat, ← h.pending]
    rfl
  · rw [announcements_concat, ← h.notices, enqueue, List.map_append, known]
    rfl
  · intro k n found
    rw [enqueue, List.getElem?_append] at found
    split at found
    · exact h.posted k n found
    · next beyond =>
        -- the new notice has not been posted
        obtain rfl := List.mem_singleton.mp (List.mem_of_getElem? found)
        refine ⟨fun no => (Bool.false_ne_true no).elim, fun member => ?_⟩
        exact absurd (h.length ▸ h.bounded k member) beyond
  · intro k member
    rw [List.length_append]
    exact Nat.lt_add_right 1 (h.bounded k member)
  · rw [announcements_concat]
    refine h.published.trans (List.map_congr_left fun k member => ?_)
    have bound : k < (announcements tasks).length := by
      simpa [announcements] using h.bounded k member
    exact (List.getElem?_append_left bound).symm

theorem post (h : Collects s tasks posts) {k : Nat} {n : Notice} (found : s.notices[k]? = some n)
    (unposted : n.posted = false) :
    Collects ((s.withPosted k).writeAll n.marks) tasks (posts ++ [k]) := by
  have fresh : k ∉ posts := by
    rw [← h.posted k n found, unposted]
    exact Bool.false_ne_true
  have announced : (announcements tasks)[k]? = some n.event := by
    rw [← h.notices, List.getElem?_map, found]
    rfl
  have bound : k < tasks.length := h.length ▸ (List.getElem?_eq_some_iff.mp found).1
  refine ⟨h.dormant.post k n, h.pending, (events_withPosted s k).trans h.notices, ?_, ?_,
    h.once.append (List.nodup_singleton k) ?_, ?_⟩
  · intro i n' there
    have there : (s.withPosted k).notices[i]? = some n' := there
    rw [withPosted, List.getElem?_modify] at there
    obtain ⟨before, known, rfl⟩ := Option.map_eq_some_iff.mp there
    rw [List.mem_append, List.mem_singleton, ← h.posted i before known]
    by_cases here : k = i
    · simp [here]
    · simp [here, Ne.symm here]
  · intro i member
    rcases List.mem_append.mp member with old | new
    · exact h.bounded i old
    · exact List.mem_singleton.mp new ▸ bound
  · rintro i old new
    rw [List.mem_singleton.mp new] at old
    exact fresh old
  · rw [published_writeAll, List.map_append, List.map_append, List.map_singleton, announced,
      ← h.published]
    rfl

/-- No two waiting tasks share their id. -/
theorem distinct (h : Collects s tasks posts) : (s.pending.map (·.id)).Nodup := by
  rw [h.pending]
  exact nodup_survivors tasks

/-- A notice that has not been posted yet can be. -/
theorem exists_post (h : Collects s tasks posts) {k : Nat} (bound : k < tasks.length)
    (unposted : k ∉ posts) : ∃ t, s.apply (.progress (.post k)) = some t := by
  obtain ⟨n, found⟩ : ∃ n, s.notices[k]? = some n :=
    ⟨_, List.getElem?_eq_getElem (h.length.symm ▸ bound)⟩
  have still : ¬ n.posted = true := mt (h.posted k n found).mp unposted
  simp only [apply, progress, Supervisor.post, found, if_neg still]
  exact ⟨_, rfl⟩

/-- At rest all notices have been posted. -/
theorem published_perm (h : Collects s tasks posts) (quiescent : s.isQuiescent = true) :
    s.published.Perm (announcements tasks) := by
  have all : posts.Perm (List.range tasks.length) := by
    refine (List.perm_ext_iff_of_nodup h.once List.nodup_range).mpr fun k => ?_
    rw [List.mem_range]
    refine ⟨h.bounded k, fun bound => ?_⟩
    by_contra unposted
    obtain ⟨t, applied⟩ := h.exists_post bound unposted
    cases applied.symm.trans (isQuiescent_iff.mp quiescent (.post k))
  have length : (announcements tasks).length = tasks.length := by simp [announcements]
  have same : (s.published.map some).Perm ((announcements tasks).map some) := by
    rw [h.published, ← map_getElem?_range, length]
    exact all.map _
  simpa using same.filterMap id

/-- Announcements whose notices are posted in order are published in order. -/
theorem published_eq (h : Collects s tasks posts) (order : posts = List.range tasks.length) :
    s.published = announcements tasks := by
  have length : tasks.length = (announcements tasks).length := by simp [announcements]
  have same := h.published
  rw [order, length, map_getElem?_range] at same
  exact List.map_injective_iff.mpr (fun _ _ => Option.some.inj) same

end Collects

theorem collects_of_applyAll {setup : Setup} {moves : List Move}
    (ran : (create setup).applyAll moves = some s) (created : s.stage = .created) :
    Collects s (moves.filterMap Move.submitted?) (moves.filterMap Move.posted?) := by
  refine history_invariant (P := fun s moves => s.stage = .created →
      Collects s (moves.filterMap Move.submitted?) (moves.filterMap Move.posted?)) ran
    (fun _ => ⟨.create setup, rfl, rfl, by simp [Supervisor.create], by simp, .nil, rfl⟩) ?_ created
  intro u v m done _ inv applied still
  have before : u.stage = .created := by
    by_contra begun
    exact (apply_chain applied).begun begun still
  have inv := inv before
  rw [List.filterMap_append, List.filterMap_append]
  cases inv.dormant.step applied with
  | submit task =>
      rw [List.filterMap_cons_none (f := Move.posted?) rfl, List.filterMap_nil, List.append_nil]
      exact inv.submit task
  | post found unposted =>
      rw [List.filterMap_cons_none (f := Move.submitted?) rfl, List.filterMap_nil, List.append_nil]
      exact inv.post found unposted
  | start begun => exact absurd still begun
  | aside own dormant pending notices published =>
      rw [List.filterMap_cons_none own.1, List.filterMap_cons_none own.2, List.filterMap_nil,
        List.filterMap_nil, List.append_nil, List.append_nil]
      exact ⟨dormant, pending.trans inv.pending, notices ▸ inv.notices,
        notices ▸ inv.posted, inv.bounded, inv.once, published ▸ inv.published⟩

/-- Where nothing has been started, something has been collected. -/
theorem collects_of_leads {setup : Setup} (h : Leads (create setup) s)
    (created : s.stage = .created) : ∃ tasks posts, Collects s tasks posts := by
  obtain ⟨moves, ran⟩ := exists_applyAll h
  exact ⟨_, _, collects_of_applyAll ran created⟩

/-! ## The pending tasks -/

/-- What the first start makes of the tasks that wait. -/
structure LaunchesPending (s t : Supervisor) : Prop where
  /-- One run for each of them, in order. -/
  runs : t.runs = s.pending.map fun task => { task }
  /-- Run `k + 1` is the active one of the id of the task at place `k`. -/
  registry : t.registry = ⟨s.pending.length, entriesFrom 1 s.pending⟩
  /-- The launches are told in order, and nothing is published. -/
  journal : t.journal = s.journal ++
    (.recorded (.started s.pending.length) ::
      (List.range' 1 s.pending.length).map Mark.launched).map fun m => ⟨s.now, m⟩
  published : t.published = s.published
  /-- Nothing waits any more. -/
  pending : t.pending = []
  /-- What has not been announced yet still is to be. -/
  notices : t.notices = s.notices

/-- What waits for the start after the tasks have been submitted in turn and notices with these
numbers have been posted. -/
structure PendingSet (s : Supervisor) (tasks : List Task) (posts : List Nat) : Prop where
  unlaunched : s.runs = [] ∧ s.registry = {} ∧ s.journal.launched = []
  /-- One task waits for each id that was submitted, -/
  distinct : (s.pending.map (·.id)).Nodup
  ids : ∀ id, id ∈ s.pending.map (·.id) ↔ id ∈ tasks.map (·.id)
  /-- namely the last one of the id, in the order of these last submissions. -/
  last : ∃ places : List Nat, places.Pairwise (· < ·) ∧
    (∀ place, place ∈ places ↔ IsLastOfId tasks place) ∧
    s.pending.map some = places.map (tasks[·]?)
  /-- Each submission is announced as the first one of its id or as a replacement, in the order in
  which the notices are posted: once for each, -/
  published : s.published.map some = posts.map ((announcements tasks)[·]?)
  once : posts.Nodup
  posted : ∀ k < tasks.length, k ∈ posts ∨ ∃ t, s.apply (.progress (.post k)) = some t
  /-- for all of them by the time that the supervisor is at rest, -/
  atRest : s.isQuiescent = true → s.published.Perm (announcements tasks)
  /-- and in the order of the submissions if their notices have been posted in this order. -/
  inOrder : posts = List.range tasks.length → s.published = announcements tasks
  /-- The start launches just these tasks. -/
  started : ∃ t, s.apply .start = some t ∧ LaunchesPending s t

/-- The state that a start begins with. -/
def opened (s : Supervisor) : Supervisor :=
  { s with stage := .started, loop := .running, pending := [], listener := s.openListener }

theorem IsDormant.start_eq (h : s.IsDormant) (distinct : (s.pending.map (·.id)).Nodup) :
    s.start = .ok ((s.opened.withRuns s.pending).writeAll
      (.recorded (.started s.pending.length) ::
        (List.range' 1 s.pending.length).map .launched)) := by
  let begun := s.opened.record (.started s.pending.length)
  have unnumbered : begun.registry = {} := h.registry
  have free : ∀ task ∈ s.pending, begun.registry.lookup task.id = none := by
    intro task _
    rw [unnumbered]
    rfl
  have started : s.start = .ok (s.pending.foldl (fun s task => s.launch task none) begun) := by
    simp only [start, h.stage, begun, opened]
  rw [started, launches_eq s.pending distinct free, unnumbered]
  simp [begun, record_eq, withRuns, writeAll]

theorem IsDormant.launchesPending (h : s.IsDormant) (distinct : (s.pending.map (·.id)).Nodup) :
    ∃ t, s.apply .start = some t ∧ LaunchesPending s t := by
  refine ⟨(s.opened.withRuns s.pending).writeAll (.recorded (.started s.pending.length) ::
    (List.range' 1 s.pending.length).map .launched), ?_, ?_, ?_, rfl, ?_, rfl, rfl⟩
  · simp only [apply, h.start_eq distinct]
  · simp [withRuns, writeAll, opened, h.runs]
  · simp [withRuns, writeAll, opened, h.registry]
  · rw [published_writeAll, List.filterMap_cons_none rfl, List.filterMap_map]
    simp [published, withRuns, opened, Mark.event?, Function.comp_def]

/-- Before the start the last submission of an id counts, whatever else is done. -/
theorem pendingSet {setup : Setup} {moves : List Move}
    (ran : (create setup).applyAll moves = some s) (created : s.stage = .created) :
    PendingSet s (moves.filterMap Move.submitted?) (moves.filterMap Move.posted?) := by
  have collects := collects_of_applyAll ran created
  have distinct := collects.distinct
  have launched : s.journal.launched = [] := by
    rw [(reachable_of_applyAll ran).attained.launched, collects.dormant.runs]
    rfl
  refine ⟨⟨collects.dormant.runs, collects.dormant.registry, launched⟩, distinct, ?_, ?_,
    collects.published, collects.once, fun k bound => ?_, collects.published_perm,
    collects.published_eq, collects.dormant.launchesPending distinct⟩
  · rw [collects.pending]
    exact mem_survivors_ids _
  · rw [collects.pending]
    exact exists_places _
  · exact or_iff_not_imp_left.mpr (collects.exists_post bound)

/-- Submissions of the ids "a", "" and "b", with a call for a teardown in between, which is
refused. The first two are replaced. The second submission is announced after the third one, and the
last one not yet. -/
def earlyCrowd : List Move :=
  [.submit { id := "a", work := some { name := "first" } }, .progress (.post 0),
    .submit { id := "" }, .stop, .submit { id := "b" }, .progress (.post 2), .progress (.post 1),
    .progress (.proceed 0), .submit { id := "a", work := some { name := "second" } },
    .progress (.post 3), .submit { id := "", work := some { name := "third" } }]

theorem pendingSet_of_earlyCrowd :
    ∃ s, (create {}).applyAll earlyCrowd = some s ∧ s.stage = .created ∧
      s.pending.map (fun task => (task.id, task.work.map (·.name))) =
        [("b", none), ("a", some "second"), ("", some "third")] ∧
      s.published.map (fun e => (e.kind, e.task)) =
        [(.taskQueued, some "a"), (.taskQueued, some "b"), (.taskQueued, some ""),
          (.taskReplaced, some "a")] ∧
      PendingSet s (earlyCrowd.filterMap Move.submitted?)
        (earlyCrowd.filterMap Move.posted?) := by
  obtain ⟨s, ran, created, waiting, announced⟩ :
      ∃ s, (create {}).applyAll earlyCrowd = some s ∧ s.stage = .created ∧
        s.pending.map (fun task => (task.id, task.work.map (·.name))) =
          [("b", none), ("a", some "second"), ("", some "third")] ∧
        s.published.map (fun e => (e.kind, e.task)) =
          [(.taskQueued, some "a"), (.taskQueued, some "b"), (.taskQueued, some ""),
            (.taskReplaced, some "a")] := ⟨_, rfl, rfl, rfl, rfl⟩
  exact ⟨s, ran, created, waiting, announced, pendingSet ran created⟩

end Supervisor

end Supervision
