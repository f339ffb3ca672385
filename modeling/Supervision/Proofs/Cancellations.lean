import Supervision.Proofs.PendingTasks

/-!
# Why tokens are cancelled

The token of a run is cancelled by the launch of another run of the same id, as long as the run is
in the registry, by whoever was handed the token, and along with the lifetime scope. The scope is
cancelled by the teardown, by whoever holds it, and along with its parent. Nothing else cancels a
token, and a cancellation does not spread to the scope or to the parent.

Results:
1. `tokens_of_apply`: a move that neither cancels on purpose nor launches anything leaves all tokens
   alone.
2. `cancelStep`: what one move does to the tokens.
3. `cancellations`: after any moves the cancelled tokens are those for which there was a cause, and
   what further moves spare.
-/

namespace Supervision

/-- Why a token is cancelled. -/
inductive Cause
  /-- Another run of its id was launched while the run was in the registry. -/
  | superseded (run : Nat)
  /-- Somebody who was handed the token of the run cancelled it. -/
  | revoked (run : Nat)
  /-- The teardown cancelled the lifetime scope. -/
  | teardown
  /-- Somebody cancelled the lifetime scope. -/
  | scope
  /-- Somebody cancelled the parent of the lifetime scope. -/
  | parent
deriving DecidableEq, Repr

namespace Supervisor

variable {setup : Setup} {s t : Supervisor}

/-- The runs in the registry whose ids have got another run on the way from one state to the
other. -/
def superseded (s t : Supervisor) : List Nat :=
  (s.registry.entries.filter fun e => (t.runs.drop s.runs.length).any (·.task.id == e.id)).map
    (·.run)

/-- What a move cancels on purpose. -/
def deliberate (s : Supervisor) : Move → List Cause
  | .cancelRun run => [.revoked run]
  | .cancelScope => [.scope]
  | .cancelParent => [.parent]
  | .progress (.proceed call) => match s.calls[call]? with
    | some ⟨_, .announced, false⟩ => [.teardown]
    | _ => []
  | _ => []

/-- The causes for a cancellation that a move brings about. -/
def causes (s : Supervisor) (m : Move) (t : Supervisor) : List Cause :=
  (s.superseded t).map .superseded ++ s.deliberate m

/-! ## The tokens -/

/-- All that can be cancelled, and whether it is. -/
structure Tokens where
  runs : List (Task × Bool)
  scope : Bool
  parent : Bool

def tokens (s : Supervisor) : Tokens where
  runs := s.runs.map fun r => (r.task, r.cancelled)
  scope := s.scopeCancelled
  parent := s.parentCancelled

@[simp] theorem tokens_mark (s : Supervisor) (m : Mark) : (s.mark m).tokens = s.tokens := rfl

@[simp] theorem tokens_record (s : Supervisor) (r : Record) :
    (s.record r).tokens = s.tokens := rfl

@[simp] theorem tokens_publish (s : Supervisor) (e : Event) (run : Option Nat) :
    (s.publish e run).tokens = s.tokens := rfl

@[simp] theorem tokens_setCall (s : Supervisor) (index : Nat) (state : CallState) :
    (s.setCall index state).tokens = s.tokens := rfl

theorem tokens_giveUp (s : Supervisor) (index : Nat) (requester : Requester) :
    (s.giveUp index requester).tokens = s.tokens := by
  rw [giveUp_eq]
  rfl

theorem tokens_conclude (s : Supervisor) (index : Nat) (requester : Requester) :
    (s.conclude index requester).tokens = s.tokens := by
  rw [conclude_eq]
  rfl

@[simp] theorem tokens_setPhase (s : Supervisor) (number : Nat) (phase : Phase) :
    (s.setPhase number phase).tokens = s.tokens := by
  cases number with
  | zero => rfl
  | succ k =>
      have runs : (s.runs.modify k fun r => { r with phase }).map (fun r => (r.task, r.cancelled)) =
          s.runs.map fun r => (r.task, r.cancelled) := by
        refine List.ext_getElem? fun j => ?_
        simp only [List.getElem?_map, List.getElem?_modify]
        cases s.runs[j]? <;> simp [apply_ite]
      exact congrArg (Tokens.mk · s.scopeCancelled s.parentCancelled) runs

@[simp] theorem tokens_afterCallback (s : Supervisor) (number : Nat) (scope : Scope)
    (fault : Option Fault) : (s.afterCallback number scope fault).tokens = s.tokens := by
  cases scope with
  | own => exact tokens_setPhase s number _
  | global => exact tokens_setPhase { s with line := s.line ++ [number] } number _

theorem release_tokens {number : Nat} (h : s.release number = some t) : t.tokens = s.tokens := by
  unfold release at h
  repeat' split at h
  all_goals cases h
  exact (tokens_setPhase _ number _).trans rfl

theorem send_tokens {number : Nat} (h : s.send number = some t) : t.tokens = s.tokens := by
  unfold send at h
  dsimp only at h
  repeat' split at h
  all_goals cases h
  all_goals exact (tokens_setPhase { s with line := s.line.erase number } number _).trans rfl

theorem proceed_tokens {index : Nat} (aside : s.deliberate (.progress (.proceed index)) = [])
    (h : s.proceed index = some t) : t.tokens = s.tokens := by
  unfold proceed at h
  split at h
  · cases h
  · next requester state dropped found =>
      cases dropped with
      | true => cases h
      | false =>
          rw [if_neg Bool.false_ne_true] at h
          cases state with
          | announced => simp [deliberate, found] at aside
          | resolved => cases h
          | called =>
              dsimp only at h
              split at h <;> cases h <;> rfl
          | joining =>
              dsimp only at h
              split at h <;> cases h
              rfl
          | draining deadline =>
              dsimp only at h
              repeat' split at h
              all_goals cases h
              · rfl
              · exact tokens_giveUp s index requester
          | awaitingLoop =>
              dsimp only at h
              split at h <;> cases h
              exact tokens_conclude s index requester

/-- A move that cancels nothing on purpose and launches nothing leaves all tokens alone. -/
theorem tokens_of_apply {m : Move} (simple : m.isCompound = false) (aside : s.deliberate m = [])
    (h : s.apply m = some t) : t.tokens = s.tokens := by
  cases feed : m.isOfFeed with
  | true =>
      obtain ⟨-, _, _, rfl⟩ := apply_feed feed h
      rfl
  | false => cases m with
    | submit | start | restart | handTo => cases simple
    | cancelRun | cancelScope | cancelParent => cases aside
    | letGo => cases feed
    | stop | wait | interrupt =>
        cases h
        rfl
    | drop index =>
        obtain ⟨_, _, -, -, -, rfl⟩ := drop_eq h
        rfl
    -- what is not about runs keeps the whole list of runs
    | stopFrom | note | tick =>
        simp only [apply, stopFrom, note, tick] at h
        repeat' split at h
        all_goals cases h
        all_goals rfl
    | finish | panicIn =>
        simp only [apply, finish, leave] at h
        repeat' split at h
        all_goals cases h
        all_goals simp
    | progress p => cases p with
      | fire => cases simple
      | listen | serve | retire | closeListener => cases feed
      | begin | report | call | leave =>
          simp only [apply, progress, begin, report, call, leave] at h
          repeat' split at h
          all_goals cases h
          all_goals simp
      | release => exact release_tokens h
      | send => exact send_tokens h
      | proceed => exact proceed_tokens aside h
      | abandon | arm | post | observe | heedInterrupt | heedParent | exitLoop | resolveWait =>
          simp only [apply, progress, abandon, arm, post, observe, heedInterrupt, heedParent, heed,
            exitLoop, resolveWait] at h
          repeat' split at h
          all_goals cases h
          all_goals rfl

/-! ## One move -/

/-- What a move does to the tokens if the causes are those that it brings about. -/
structure CancelStep (s : Supervisor) (causes : List Cause) (t : Supervisor) : Prop where
  scope : t.scopeCancelled = true ↔
    s.scopeCancelled = true ∨ .teardown ∈ causes ∨ .scope ∈ causes
  parent : t.parentCancelled = true ↔ s.parentCancelled = true ∨ .parent ∈ causes
  /-- A run gets its token cancelled for a cause of its own, or by the teardown while it is
  active. -/
  old : ∀ n r, s.run? n = some r → ∃ r', t.run? n = some r' ∧ r'.task = r.task ∧
    (r'.cancelled = true ↔ r.cancelled = true ∨ .superseded n ∈ causes ∨ .revoked n ∈ causes ∨
      .teardown ∈ causes ∧ n ∈ s.registry.runs)
  new : ∀ n r, s.run? n = none → t.run? n = some r → r.cancelled = false
  known : ∀ n, .superseded n ∈ causes ∨ .revoked n ∈ causes → ∃ r, s.run? n = some r

theorem tokens_run? (same : t.tokens = s.tokens) (n : Nat) :
    (t.run? n).map (fun r => (r.task, r.cancelled)) =
      (s.run? n).map fun r => (r.task, r.cancelled) := by
  cases n with
  | zero => rfl
  | succ k =>
      have there := congrArg (·.runs[k]?) same
      simpa [tokens, run?] using there

theorem length_of_tokens (same : t.tokens = s.tokens) : t.runs.length = s.runs.length := by
  have there := congrArg (·.runs.length) same
  simpa [tokens] using there

/-- Where no run is added, none is superseded. -/
theorem superseded_of_length (length : t.runs.length = s.runs.length) : s.superseded t = [] := by
  simp [superseded, ← length]

theorem CancelStep.of_tokens (same : t.tokens = s.tokens) : CancelStep s [] t where
  scope := by
    rw [show t.scopeCancelled = s.scopeCancelled from congrArg (·.scope) same]
    simp
  parent := by
    rw [show t.parentCancelled = s.parentCancelled from congrArg (·.parent) same]
    simp
  old n r found := by
    have there := tokens_run? same n
    rw [found] at there
    obtain ⟨r', found', both⟩ := Option.map_eq_some_iff.mp there
    obtain ⟨task, cancelled⟩ := Prod.ext_iff.mp both
    exact ⟨r', found', task, by rw [show r'.cancelled = r.cancelled from cancelled]; simp⟩
  new n r missing found := by
    have there := tokens_run? same n
    rw [missing, found] at there
    cases there
  known n told := by rcases told with told | told <;> cases told

/-- A move that leaves the tokens alone launches nothing. -/
theorem CancelStep.of_same (same : t.tokens = s.tokens) :
    CancelStep s ((s.superseded t).map .superseded) t := by
  rw [superseded_of_length (length_of_tokens same)]
  exact .of_tokens same

/-- The tokens of the runs after some of them have been cancelled, and nothing else. -/
theorem CancelStep.of_cancelled {causes : List Cause} (numbers : List Nat)
    (runs : t.runs = (numbers.foldl cancelToken s).runs)
    (own : ∀ n, n ∈ numbers ↔ .superseded n ∈ causes ∨ .revoked n ∈ causes ∨
      .teardown ∈ causes ∧ n ∈ s.registry.runs)
    (scope : t.scopeCancelled = true ↔
      s.scopeCancelled = true ∨ .teardown ∈ causes ∨ .scope ∈ causes)
    (parent : t.parentCancelled = true ↔ s.parentCancelled = true ∨ .parent ∈ causes)
    (known : ∀ n, .superseded n ∈ causes ∨ .revoked n ∈ causes → ∃ r, s.run? n = some r) :
    CancelStep s causes t where
  scope := scope
  parent := parent
  old n r found := by
    refine ⟨_, (run?_congr runs n).trans (run?_foldl_cancelToken found numbers), ?_, ?_⟩
    · split <;> rfl
    · rw [← own]
      by_cases here : n ∈ numbers <;> simp [here]
  new n r missing found := by
    have bounds := run?_bounds found
    rw [runs, length_runs_foldl_cancelToken] at bounds
    obtain ⟨q, there⟩ := run?_isSome bounds.1 bounds.2
    rw [missing] at there
    cases there
  known := known

/-- A launch supersedes the active run of its id, and none but that. -/
theorem mem_superseded (inv : RegistryInvariant s) {task : Task}
    {run : Run} (new : t.runs.drop s.runs.length = [run]) (own : run.task = task) (n : Nat) :
    n ∈ s.superseded t ↔ s.registry.lookup task.id = some n := by
  rw [Registry.lookup_eq_some_iff inv.distinct, superseded, new, List.mem_map]
  constructor
  · rintro ⟨⟨id, m⟩, member, rfl⟩
    obtain ⟨member, same⟩ := List.mem_filter.mp member
    simp only [List.any_cons, List.any_nil, Bool.or_false, beq_iff_eq] at same
    rwa [← own, same]
  · intro member
    exact ⟨_, List.mem_filter.mpr ⟨member, by simp [own]⟩, rfl⟩

theorem RegistryInvariant.known (inv : RegistryInvariant s) {id : String} {n : Nat}
    (active : s.registry.lookup id = some n) : ∃ r, s.run? n = some r := by
  obtain ⟨⟨r, found, -⟩, -⟩ := ((inv.lookup_iff id n).mp active).1
  exact ⟨r, found⟩

theorem CancelStep.launch (inv : RegistryInvariant s) (task : Task) (origin : Option Nat) :
    CancelStep s ((s.superseded (s.withRun task origin)).map .superseded)
      (s.withRun task origin) := by
  have new : (s.withRun task origin).runs.drop s.runs.length = [{ task, origin }] := by
    rw [withRun, ← length_evict s task.id, List.drop_left]
  have superseded : ∀ n, Cause.superseded n ∈
      (s.superseded (s.withRun task origin)).map Cause.superseded ↔
        s.registry.lookup task.id = some n := by
    intro n
    rw [List.mem_map_of_injective fun a b same => Cause.superseded.inj same]
    exact mem_superseded inv new rfl n
  refine ⟨by simp [withRun], by simp [withRun], fun n r found => ?_, fun n r missing found => ?_,
    fun n told => ?_⟩
  · refine ⟨_, run?_withRun_of_run? found task origin, by split <;> rfl, ?_⟩
    rw [superseded]
    by_cases active : s.registry.lookup task.id = some n <;> simp [active]
  · -- the new run is the only one that was not there before
    have last : n = s.runs.length + 1 := by
      by_contra old
      obtain ⟨q, there, -⟩ := run?_old found old
      rw [missing] at there
      cases there
    rw [last, run?_new, Option.some.injEq] at found
    rw [← found]
  · rcases told with told | told
    · exact inv.known ((superseded n).mp told)
    · simp at told

/-- A change of nothing but the delays, the streaks and the journal does not matter to tokens. -/
theorem CancelStep.of_prepared {causes : List Cause} {delays : List Delay} {streaks : List Streaks}
    {journal : Journal} (h : CancelStep { s with delays, streaks, journal } causes t) :
    CancelStep s causes t := ⟨h.scope, h.parent, h.old, h.new, h.known⟩

theorem CancelStep.submit (inv : RegistryInvariant s) (task : Task) (origin : Option Nat) :
    CancelStep s ((s.superseded (s.submit task origin)).map .superseded)
      (s.submit task origin) := by
  unfold Supervisor.submit
  split
  · exact .of_same rfl
  · rw [launch_eq]
    have step := CancelStep.launch inv task origin
    exact ⟨step.scope, step.parent, step.old, step.new, step.known⟩
  · exact .of_same rfl

/-- The start cancels nothing, as nothing was active before and the waiting tasks have distinct
ids. -/
theorem CancelStep.start (dormant : s.IsDormant) (distinct : (s.pending.map (·.id)).Nodup)
    (started : s.start = .ok t) :
    CancelStep s ((s.superseded t).map .superseded) t := by
  have none : s.superseded t = [] := by simp [superseded, dormant.registry]
  rw [dormant.start_eq distinct] at started
  cases started
  rw [none]
  refine ⟨by simp [withRuns, writeAll, opened], by simp [withRuns, writeAll, opened], ?_, ?_, ?_⟩
  · intro n r found
    rw [dormant.run?] at found
    cases found
  · intro n r _ found
    have member := mem_runs_iff.mpr ⟨n, found⟩
    simp only [withRuns, writeAll, opened, dormant.runs, List.nil_append, List.mem_map] at member
    obtain ⟨task, -, rfl⟩ := member
    rfl
  · intro n told
    simp at told

theorem CancelStep.compound (led : Leads (create setup) s) {submitted : Option Task}
    (h : Compound s submitted t) : CancelStep s ((s.superseded t).map .superseded) t := by
  have inv := (Reachable.init.leads led).attained.registryInvariant
  cases h with
  | idle prepared =>
      obtain ⟨_, _, _, rfl⟩ := prepared
      exact .of_same rfl
  | submit prepared task origin after =>
      obtain ⟨delays, streaks, journal, rfl⟩ := prepared
      have inv := inv.of_standing (t := { s with delays, streaks, journal }) rfl (.of_runs_eq rfl)
      exact after ▸ (CancelStep.submit inv task origin).of_prepared
  | start created started =>
      obtain ⟨tasks, posts, collects⟩ := collects_of_leads led created
      exact .start collects.dormant collects.distinct started
  | @leave streaks number payload left =>
      have same : t.tokens = ({ s with streaks } : Supervisor).tokens :=
        tokens_of_apply (m := .panicIn number payload) rfl rfl left
      exact .of_same same

theorem CancelStep.cancelRun {number : Nat} (h : s.cancelRun number = some t) :
    CancelStep s [.revoked number] t := by
  unfold Supervisor.cancelRun at h
  split at h
  · next r found =>
      split at h <;> cases h
      have runs : ((s.mark (.cancelled number)).cancelToken number).runs =
          ([number].foldl cancelToken s).runs := by
        cases number <;> rfl
      have aside := modifyRun_eq (s.mark (.cancelled number)) number
        fun r => { r with cancelled := true }
      rw [cancelToken, aside]
      refine .of_cancelled [number] runs (by simp) (by simp [mark]) (by simp [mark]) ?_
      intro n told
      obtain rfl : n = number := by simpa using told
      exact ⟨r, found⟩
  · cases h

theorem CancelStep.cancelAll (index : Nat) :
    CancelStep s [.teardown] (s.cancelAll index) := by
  rw [cancelAll_eq]
  exact .of_cancelled s.registry.runs rfl (by simp) (by simp [withAllCancelled, setCall, writeAll])
    (by simp [withAllCancelled, setCall, writeAll]) (by simp)

/-- What is cancelled on purpose, and nothing else. -/
theorem CancelStep.simple {m : Move} (simple : m.isCompound = false) (h : s.apply m = some t) :
    CancelStep s (s.deliberate m) t := by
  by_cases aside : s.deliberate m = []
  · rw [aside]
    exact .of_tokens (tokens_of_apply simple aside h)
  · cases m with
    | cancelRun => exact .cancelRun h
    | cancelScope =>
        cases h
        exact .of_cancelled [] rfl (by simp [deliberate]) (by simp [deliberate])
          (by simp [deliberate]) (by simp [deliberate])
    | cancelParent =>
        cases h
        exact .of_cancelled [] rfl (by simp [deliberate]) (by simp [deliberate])
          (by simp [deliberate]) (by simp [deliberate])
    | progress p => cases p with
      | proceed index =>
          obtain ⟨requester, found⟩ :
              ∃ requester, s.calls[index]? = some ⟨requester, .announced, false⟩ := by
            by_contra other
            refine aside ?_
            simp only [deliberate]
            split
            · next found => exact absurd ⟨_, found⟩ other
            · rfl
          have h : s.proceed index = some t := h
          simp only [proceed, found, if_neg Bool.false_ne_true, Option.some.injEq] at h
          simp only [deliberate, found, ← h]
          exact .cancelAll index
      | _ => exact absurd rfl aside
    | _ => exact absurd rfl aside

/-- What one move does to the tokens. -/
theorem cancelStep (led : Leads (create setup) s) {m : Move} (h : s.apply m = some t) :
    CancelStep s (s.causes m t) t := by
  unfold causes
  cases compound : m.isCompound with
  | true =>
      have aside : s.deliberate m = [] := by
        cases m with
        | progress p => cases p <;> first | rfl | cases compound
        | _ => first | rfl | cases compound
      rw [aside, List.append_nil]
      exact .compound led (apply_compound compound h)
  | false =>
      rw [superseded_of_length (apply_simple compound h).2.1]
      exact .simple compound h

/-! ## Any moves -/

/-- How the cancelled tokens fit to the causes so far. -/
structure AreCancelledFor (s : Supervisor) (told : List Cause) : Prop where
  own : ∀ n r, s.run? n = some r → r.cancelled = true →
    .superseded n ∈ told ∨ .revoked n ∈ told ∨ s.scopeCancelled = true
  carried : ∀ n, .superseded n ∈ told ∨ .revoked n ∈ told →
    ∃ r, s.run? n = some r ∧ r.cancelled = true
  scope : s.scopeCancelled = true ↔ .teardown ∈ told ∨ .scope ∈ told
  parent : s.parentCancelled = true ↔ .parent ∈ told

namespace AreCancelledFor

theorem create (setup : Setup) : AreCancelledFor (create setup) [] where
  own n r found := by cases n <;> cases found
  carried n told := by simp at told
  scope := by simp [Supervisor.create]
  parent := by simp [Supervisor.create]

theorem step {told causes : List Cause} (h : AreCancelledFor s told)
    (step : CancelStep s causes t) : AreCancelledFor t (told ++ causes) where
  own n r' found cancelled := by
    cases before : s.run? n with
    | none =>
        rw [step.new n r' before found] at cancelled
        cases cancelled
    | some r =>
        obtain ⟨q, there, -, iff⟩ := step.old n r before
        obtain rfl : q = r' := Option.some.inj (there.symm.trans found)
        have scope := step.scope
        have earlier := h.own n r before
        simp only [List.mem_append]
        grind
  carried n told' := by
    simp only [List.mem_append] at told'
    obtain ⟨r, before⟩ : ∃ r, s.run? n = some r := by
      by_cases new : .superseded n ∈ causes ∨ .revoked n ∈ causes
      · exact step.known n new
      · obtain ⟨r, before, -⟩ := h.carried n (by grind)
        exact ⟨r, before⟩
    obtain ⟨r', found, -, iff⟩ := step.old n r before
    refine ⟨r', found, iff.mpr ?_⟩
    by_cases new : .superseded n ∈ causes ∨ .revoked n ∈ causes
    · grind
    · obtain ⟨q, known, cancelled⟩ := h.carried n (by grind)
      obtain rfl : q = r := Option.some.inj (known.symm.trans before)
      exact .inl cancelled
  scope := by
    rw [step.scope, h.scope, List.mem_append, List.mem_append]
    grind
  parent := by rw [step.parent, h.parent, List.mem_append]

end AreCancelledFor

/-- What a move spares that cancels nothing on purpose. -/
structure Spares (s t : Supervisor) : Prop where
  scope : t.scopeCancelled = s.scopeCancelled
  parent : t.parentCancelled = s.parentCancelled
  /-- The runs of an id keep their tokens as long as no other run of the id is launched. -/
  others : ∀ n r, s.run? n = some r →
    (∀ k q, s.run? k = none → t.run? k = some q → q.task.id ≠ r.task.id) →
    ∃ r', t.run? n = some r' ∧ r'.cancelled = r.cancelled
  /-- A run that has given back its registry entry keeps its token in any case. -/
  released : ∀ n r, s.run? n = some r → r.phase.isReleased = true →
    ∃ r', t.run? n = some r' ∧ r'.cancelled = r.cancelled

/-- Which tokens are cancelled after some moves, of which the causes are told. -/
structure Cancellations (s : Supervisor) (told : List Cause) : Prop where
  /-- The token of a run is cancelled if and only if another run of its id was launched while it
  was in the registry, or the lifetime scope is cancelled, or somebody cancelled the token. -/
  token_iff : ∀ n r, s.run? n = some r → (s.tokenIsCancelled r = true ↔
    .superseded n ∈ told ∨ s.scopeIsCancelled = true ∨ .revoked n ∈ told)
  scope_iff : s.scopeIsCancelled = true ↔ .teardown ∈ told ∨ .parent ∈ told ∨ .scope ∈ told
  /-- Launches, and the ends of runs and callbacks, are no reason to cancel anything else. -/
  spares : ∀ m t, s.apply m = some t → s.deliberate m = [] → Spares s t

/-- A run that is superseded has not been released, and another run of its id is launched. -/
theorem exists_successor (inv : RegistryInvariant s) {n : Nat} {r : Run}
    (superseded : n ∈ s.superseded t) (found : s.run? n = some r) :
    r.phase.isReleased = false ∧
      ∃ k q, s.run? k = none ∧ t.run? k = some q ∧ q.task.id = r.task.id := by
  obtain ⟨⟨id, m⟩, member, rfl⟩ := List.mem_map.mp superseded
  obtain ⟨entry, launched⟩ := List.mem_filter.mp member
  obtain ⟨q, new, same⟩ := List.any_eq_true.mp launched
  have active := (Registry.lookup_eq_some_iff inv.distinct id m).mpr entry
  obtain ⟨⟨⟨r', found', own⟩, -⟩, ⟨r'', found'', unreleased⟩⟩ := (inv.lookup_iff id m).mp active
  obtain rfl : r' = r := Option.some.inj (found'.symm.trans found)
  obtain rfl : r'' = r' := Option.some.inj (found''.symm.trans found)
  obtain ⟨j, there⟩ := List.mem_iff_getElem?.mp new
  rw [List.getElem?_drop] at there
  refine ⟨unreleased, s.runs.length + j + 1, q, ?_, there, ?_⟩
  · exact List.getElem?_eq_none (by omega)
  · rw [beq_iff_eq.mp same, own]

theorem spares (led : Leads (create setup) s) {m : Move} (h : s.apply m = some t)
    (aside : s.deliberate m = []) : Spares s t := by
  have inv := (Reachable.init.leads led).attained.registryInvariant
  have step := cancelStep led h
  rw [causes, aside, List.append_nil] at step
  have kept : ∀ n r, s.run? n = some r → n ∉ s.superseded t →
      ∃ r', t.run? n = some r' ∧ r'.cancelled = r.cancelled := by
    intro n r found safe
    obtain ⟨r', there, -, iff⟩ := step.old n r found
    exact ⟨r', there, Bool.eq_iff_iff.mpr (by simpa [safe] using iff)⟩
  refine ⟨Bool.eq_iff_iff.mpr (by simpa using step.scope),
    Bool.eq_iff_iff.mpr (by simpa using step.parent), fun n r found alone => ?_,
    fun n r found released => ?_⟩
  · refine kept n r found fun superseded => ?_
    obtain ⟨-, k, q, before, after, same⟩ := exists_successor inv superseded found
    exact alone k q before after same
  · refine kept n r found fun superseded => ?_
    rw [(exists_successor inv superseded found).1] at released
    cases released

/-- Tokens are cancelled for a cause, and only for that. -/
theorem cancellations {moves : List Move} (ran : (create setup).applyAll moves = some s) :
    Cancellations s (trace causes (create setup) moves) := by
  have inv : AreCancelledFor s (trace causes (create setup) moves) :=
    trace_invariant causes ran (.create setup) fun led inv applied =>
      inv.step (cancelStep led applied)
  refine ⟨fun n r found => ?_, ?_, fun m t => spares (leads_of_applyAll ran)⟩
  · rw [tokenIsCancelled, Bool.or_eq_true]
    constructor
    · rintro (own | scope)
      · rcases inv.own n r found own with superseded | revoked | scope
        · exact .inl superseded
        · exact .inr (.inr revoked)
        · exact .inr (.inl (by simp [scopeIsCancelled, scope]))
      · exact .inr (.inl scope)
    · intro told
      by_cases scope : s.scopeIsCancelled = true
      · exact .inr scope
      · obtain ⟨q, there, cancelled⟩ := inv.carried n (by grind)
        obtain rfl : q = r := Option.some.inj (there.symm.trans found)
        exact .inl cancelled
  · rw [scopeIsCancelled, Bool.or_eq_true, inv.scope, inv.parent]
    grind

/-- The first run is superseded before it begins, the third one is revoked by its own work, and the
second one, which has another id, keeps its token, even when the third one has ended. -/
def mixedCrowd : List Move :=
  [.submit { id := "a", work := some {} }, .start, .submit { id := "b", work := some {} },
    .submit { id := "a", work := some {} }, .progress (.begin 3), .cancelRun 3,
    .finish 3 (.returns (some .canceled)), .progress (.release 3),
    .submit { id := "a", work := some {} }]

theorem cancellations_of_mixedCrowd :
    ∃ s, (create {}).applyAll mixedCrowd = some s ∧
      trace causes (create {}) mixedCrowd = [.superseded 1, .revoked 3] ∧
      s.runs.map s.tokenIsCancelled = [true, false, true, false] ∧
      Cancellations s (trace causes (create {}) mixedCrowd) := by
  obtain ⟨s, ran, told, tokens⟩ : ∃ s, (create {}).applyAll mixedCrowd = some s ∧
      trace causes (create {}) mixedCrowd = [.superseded 1, .revoked 3] ∧
      s.runs.map s.tokenIsCancelled = [true, false, true, false] := ⟨_, rfl, by decide, rfl⟩
  exact ⟨s, ran, told, tokens, cancellations ran⟩

end Supervisor

end Supervision
