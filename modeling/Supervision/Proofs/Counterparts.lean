import Supervision.Proofs.Conduct
import Supervision.Proofs.Marks
import Supervision.Proofs.Omissions
import Supervision.Proofs.Quiescence

/-!
# Moves without some of the calls

A move that concerns a call or a wait that is left out has no counterpart, and it changes nothing
else. Every other move has a counterpart, which differs at most in the position of the call that it
concerns, and the two are alike. This includes the clock as long as nothing that is left out can go
on: only the call that carries the teardown out sets a timer, and that call is not left out.

Results:
1. `Attained.isNumbered`, `callers_lacking`: calls from outside are numbered in order, also without
   those that are left out.
2. `apply_alike`, `tick_alike`: a move and its counterpart are alike.
3. `exists_counterpart`: every move without the calls is the counterpart of one with them.
4. `apply_own`: a move that has no counterpart changes nothing but what is left out.
5. `leavesAside`: what is left out does not carry the teardown out.
-/

namespace Supervision

/-- How far a call is from its result if another one carries the teardown out. -/
def CallState.remaining : CallState → Nat
  | .resolved _ => 0
  | .joining => 1
  | .called | .announced | .draining _ | .awaitingLoop => 2

namespace Supervisor

variable {o : Omission} {j : Journal} {s t u : Supervisor}

/-! ## Calls that are not left out -/

section Calls

variable {index : Nat} {requester requester' : Requester} {state : CallState} {dropped : Bool}

theorem lacking_setCall (found : s.calls[index]? = some ⟨requester, state, dropped⟩)
    (kept : o.requester? requester = some requester') (after : CallState) :
    (s.lacking o j).setCall (place o.call? s.calls index) after =
      (s.setCall index after).lacking o j := by
  have changed : (s.calls.modify index fun call => { call with state := after }).filterMap o.call? =
      (s.calls.filterMap o.call?).modify (place o.call? s.calls index)
        fun call => { call with state := after } :=
    filterMap_modify found (Omission.call?_of_requester? kept state dropped)
      (Omission.call?_of_requester? kept after dropped)
  simp only [setCall, lacking, changed]

theorem lacking_withDropped (found : s.calls[index]? = some ⟨requester, state, dropped⟩)
    (kept : o.requester? requester = some requester') :
    (s.lacking o j).withDropped (place o.call? s.calls index) =
      (s.withDropped index).lacking o j := by
  have changed : (s.calls.modify index fun call => { call with dropped := true }).filterMap
        o.call? =
      (s.calls.filterMap o.call?).modify (place o.call? s.calls index)
        fun call => { call with dropped := true } :=
    filterMap_modify found (Omission.call?_of_requester? kept state dropped)
      (Omission.call?_of_requester? kept state true)
  simp only [withDropped, lacking, changed]

theorem lacking_withAllCancelled (o : Omission) (j : Journal) (s : Supervisor) :
    (s.lacking o j).withAllCancelled = s.withAllCancelled.lacking o j := by
  have runs : ((s.lacking o j).registry.runs.foldl cancelToken (s.lacking o j)).runs =
      (s.registry.runs.foldl cancelToken s).runs := by
    rw [show (s.lacking o j).registry = s.registry from rfl, lacking_foldl_cancelToken]
    rfl
  rw [withAllCancelled, runs]
  rfl

/-- A call that is not left out goes on in the same way. -/
theorem proceed_alike (found : s.calls[index]? = some ⟨requester, state, dropped⟩)
    (kept : o.requester? requester = some requester') :
    Alike o s.journal j (s.proceed index)
      ((s.lacking o j).proceed (place o.call? s.calls index)) := by
  have found' : (s.lacking o j).calls[place o.call? s.calls index]? =
      some ⟨requester', state, dropped⟩ :=
    getElem?_place found (Omission.call?_of_requester? kept state dropped)
  have set : ∀ (u : Supervisor) (after : CallState), u.calls = s.calls →
      (u.lacking o j).setCall (place o.call? s.calls index) after =
        (u.setCall index after).lacking o j := fun u after same => by
    rw [← same]
    exact lacking_setCall (same ▸ found) kept after
  have resolved : ∀ (u : Supervisor) (verdict : Verdict), u.calls = s.calls →
      Mirrors o u.journal j (u.resolve index requester verdict)
        ((u.lacking o j).resolve (place o.call? s.calls index) requester' verdict) :=
    fun u verdict same => by
      rw [resolve, resolve, set u _ same]
      exact .mark (u.setCall index (.resolved verdict))
        (Omission.mark?_of_requester? kept verdict)
  have trigger := Omission.trigger_of_requester? kept
  unfold proceed
  rw [found, found']
  dsimp only
  refine .ite (fun _ => .none) fun _ => ?_
  cases state with
  | called =>
      dsimp only
      rw [show (s.lacking o j).stage = s.stage from rfl]
      cases s.stage with
      | created => exact .some (resolved s .notStarted rfl)
      | started =>
          refine .some ?_
          rw [announce_eq, announce_eq, trigger]
          let u : Supervisor := { s with stage := .stopped }
          rw [show ({ s.lacking o j with stage := .stopped } : Supervisor) = u.lacking o j from rfl,
            set u _ rfl]
          exact .written (u.setCall index .announced) rfl
      | stopped =>
          refine .some ?_
          rw [set s _ rfl]
          exact .silent (s.setCall index .joining)
  | joining => exact .ite (fun _ => .some (resolved s .success rfl)) fun _ => .none
  | announced =>
      refine .some ?_
      rw [cancelAll_eq, cancelAll_eq, lacking_withAllCancelled, set s.withAllCancelled _ rfl]
      exact .written (s.withAllCancelled.setCall index (.draining s.deadline)) rfl
  | draining deadline =>
      refine .ite (fun _ => .some ?_) fun _ => .ite (fun _ => .some ?_) fun _ => .none
      · let u : Supervisor := { s with senderOpen := false }
        rw [show ({ s.lacking o j with senderOpen := false } : Supervisor) = u.lacking o j from rfl,
          set u _ rfl]
        exact .silent (u.setCall index .awaitingLoop)
      · rw [giveUp_eq, giveUp_eq]
        let u : Supervisor :=
          { s with detached := s.detached + s.unfinished, senderOpen := false, done := true }
        have given := set u (.resolved (.graceExceeded s.overrun)) rfl
        refine given ▸ .told (u.setCall index (.resolved (.graceExceeded s.overrun))) ?_
        simp only [List.filterMap, Omission.mark?, kept, Option.map_some]
        rfl
  | awaitingLoop =>
      refine .ite (fun _ => .some ?_) fun _ => .none
      rw [conclude_eq, conclude_eq, trigger]
      let u : Supervisor := { s with done := true }
      have ended := set u (.resolved .success) rfl
      refine ended ▸ .told (u.setCall index (.resolved .success)) ?_
      simp only [List.filterMap, Omission.mark?, kept, Option.map_some]
  | resolved verdict => exact .none

/-- A call that is not left out is dropped in the same way. -/
theorem drop_alike (found : s.calls[index]? = some ⟨requester, state, dropped⟩)
    (kept : o.requester? requester = some requester') :
    Alike o s.journal j (s.drop index) ((s.lacking o j).drop (place o.call? s.calls index)) := by
  have found' : (s.lacking o j).calls[place o.call? s.calls index]? =
      some ⟨requester', state, dropped⟩ :=
    getElem?_place found (Omission.call?_of_requester? kept state dropped)
  have same : Alike o s.journal j
      (if state.isSuspended = true ∧ dropped = false then some (s.withDropped index) else none)
      (if state.isSuspended = true ∧ dropped = false then
        some ((s.lacking o j).withDropped (place o.call? s.calls index)) else none) := by
    rw [lacking_withDropped found kept]
    exact .ite (fun _ => .some (.silent (s.withDropped index))) fun _ => .none
  unfold drop
  rw [found, found']
  cases requester with
  | caller n =>
      rw [Omission.requester?] at kept
      split at kept <;> cases kept
      exact same
  | run n =>
      cases kept
      exact same
  | loop trigger =>
      cases kept
      exact .none

end Calls

/-! ## Waits that are not left out -/

/-- The place of a wait is its number among those that are not left out. -/
theorem place_wait? (o : Omission) {waits : List Bool} {n : Nat} (bound : n ≤ waits.length) :
    place o.wait? waits.zipIdx n = rank o.waits n := by
  induction n with
  | zero => rfl
  | succ n ih =>
      have found : waits.zipIdx[n]? = some (waits[n], n) := by
        rw [List.getElem?_zipIdx, List.getElem?_eq_getElem bound, Option.map_some, Nat.zero_add]
      rw [place_add_one found, rank_succ, ih (Nat.le_of_succ_le bound), Omission.wait?]
      cases o.waits n <;> rfl

theorem resolveWait_alike {n : Nat} (bound : n < s.waits.length) (kept : o.waits n = false) :
    Alike o s.journal j (s.resolveWait n) ((s.lacking o j).resolveWait (rank o.waits n)) := by
  have found : s.waits[n]? = some s.waits[n] := List.getElem?_eq_getElem bound
  have numbered : s.waits.zipIdx[n]? = some (s.waits[n], n) := by
    rw [List.getElem?_zipIdx, found, Option.map_some, Nat.zero_add]
  have here : ∀ ended, o.wait? (ended, n) = some ended := fun ended => by
    rw [Omission.wait?, kept]
    rfl
  have here' : (s.lacking o j).waits[rank o.waits n]? = some s.waits[n] := by
    rw [← place_wait? o (Nat.le_of_lt bound)]
    exact getElem?_place numbered (here _)
  have changed : (s.waits.zipIdx.modify n fun x => (true, x.2)).filterMap o.wait? =
      (s.waits.zipIdx.filterMap o.wait?).modify (place o.wait? s.waits.zipIdx n) fun _ => true :=
    filterMap_modify numbered (here _) (here true)
  have set : (s.lacking o j).waits.set (rank o.waits n) true =
      (s.waits.set n true).zipIdx.filterMap o.wait? := by
    rw [zipIdx_set, changed, place_wait? o (Nat.le_of_lt bound), List.set_eq_modify]
    rfl
  unfold resolveWait
  rw [found, here', set]
  refine .ite (fun _ => .some ?_) fun _ => .none
  refine .mark { s with waits := s.waits.set n true } ?_
  rw [Omission.mark?, kept]
  rfl

/-! ## Numbers of calls -/

/-- Who has called for a teardown, in order. -/
def requesters (s : Supervisor) : List Requester := s.calls.map (·.requester)

/-- The calls from outside are numbered in the order in which they are made. -/
def IsNumbered (s : Supervisor) : Prop :=
  s.requesters.filterMap Requester.caller? = List.range s.callers

theorem callers_eq (s : Supervisor) :
    s.callers = (s.requesters.filterMap Requester.caller?).length := by
  rw [callers, requesters, List.filterMap_map]
  induction s.calls with
  | nil => rfl
  | cons call rest ih =>
      obtain ⟨requester, state, dropped⟩ := call
      cases requester <;> simp [List.filterMap_cons, Requester.caller?, ih]

theorem requesters_setCall (s : Supervisor) (index : Nat) (state : CallState) :
    (s.setCall index state).requesters = s.requesters := by
  refine List.ext_getElem? fun k => ?_
  rw [requesters, requesters, List.getElem?_map, List.getElem?_map, getElem?_setCall]
  split
  · cases s.calls[k]? <;> rfl
  · rfl

theorem requesters_withDropped (s : Supervisor) (index : Nat) :
    (s.withDropped index).requesters = s.requesters := by
  refine List.ext_getElem? fun k => ?_
  rw [requesters, requesters, List.getElem?_map, List.getElem?_map, withDropped,
    List.getElem?_modify]
  cases s.calls[k]? with
  | none => rfl
  | some call => split <;> rfl

/-- A change adds at most one call, with the next number. -/
theorem Change.requesters_cases {marks : List Mark} (h : Change s marks t) :
    t.requesters = s.requesters ∨ ∃ requester, t.requesters = s.requesters ++ [requester] ∧
      ∀ n, requester = .caller n → n = s.callers := by
  have added : ∀ requester, (s.addCall requester).requesters = s.requesters ++ [requester] :=
    fun requester => by
      rw [requesters, Supervisor.addCall, List.map_append]
      rfl
  cases h
  case addCall requester may =>
    refine .inr ⟨requester, added requester, ?_⟩
    rintro n rfl
    exact may
  case heed trigger _ _ _ =>
    exact .inr ⟨.loop trigger, added _, fun n other => by cases other⟩
  case refuse | announce | join | joined | cancelAll | drained | giveUp | conclude =>
    exact .inl (requesters_setCall ..)
  case drop => exact .inl (requesters_withDropped ..)
  all_goals exact .inl rfl

theorem Attained.isNumbered {setup : Setup} (h : Attained setup s) : s.IsNumbered := by
  refine h.invariant rfl fun {s t marks} _ numbered change => ?_
  have numbered : s.requesters.filterMap Requester.caller? = List.range s.callers := numbered
  show t.requesters.filterMap Requester.caller? = List.range t.callers
  rw [callers_eq t]
  rcases change.requesters_cases with same | ⟨requester, same, next⟩
  · rw [same, numbered, List.length_range]
  · rw [same, List.filterMap_append, numbered]
    cases requester with
    | caller n =>
        obtain rfl := next n rfl
        simp [Requester.caller?, List.range_succ]
    | run | loop => simp [List.filterMap_cons, Requester.caller?]

/-- The number of the next call is the number of calls before it that are not left out. -/
theorem callers_lacking (numbered : s.IsNumbered) :
    (s.lacking o j).callers = rank o.calls s.callers := by
  have counted : ∀ requesters : List Requester,
      ((requesters.filterMap o.requester?).filterMap Requester.caller?).length =
        (requesters.filterMap Requester.caller?).countP (!o.calls ·) := by
    intro requesters
    induction requesters with
    | nil => rfl
    | cons requester rest ih => cases requester with
      | caller n =>
          cases left : o.calls n <;>
            simp [Omission.requester?, Requester.caller?, left, ih]
      | run | loop => simp [List.filterMap_cons, Omission.requester?, Requester.caller?, ih]
  have same : (s.lacking o j).requesters = s.requesters.filterMap o.requester? := by
    rw [requesters, requesters, lacking, List.map_filterMap, List.filterMap_map]
    refine List.filterMap_congr fun call _ => ?_
    show ((o.requester? call.requester).map _).map _ = o.requester? call.requester
    cases o.requester? call.requester <;> rfl
  rw [callers_eq, same, counted, numbered, rank]

/-! ## Moves that are not left out -/

/-- What stands for some progress once calls are left out, unless it concerns one of them. -/
def counterpart? (o : Omission) (s : Supervisor) : Progress → Option Progress
  | .proceed index =>
      (s.calls[index]?.bind o.call?).map fun _ => .proceed (place o.call? s.calls index)
  | .resolveWait n => (s.waits[n]?.bind fun ended => o.wait? (ended, n)).map fun _ =>
      .resolveWait (rank o.waits n)
  | p => some p

/-- What stands for a move once calls are left out, unless it concerns one of them. -/
def standIn? (o : Omission) (s : Supervisor) : Move → Option Move
  | .progress p => (s.counterpart? o p).map .progress
  | .drop index => (s.calls[index]?.bind o.call?).map fun _ => .drop (place o.call? s.calls index)
  | .stop => if o.calls s.callers then none else some .stop
  | .wait => if o.waits s.waits.length then none else some .wait
  | m => some m

/-- Nothing that the supervisor has is left out. -/
structure IsSpared (o : Omission) (s : Supervisor) : Prop where
  calls : ∀ call ∈ s.calls, o.call? call = some call
  waits : ∀ n < s.waits.length, o.waits n = false

/-- Then nothing but the journal is different. -/
theorem IsSpared.lacking_eq (spared : s.IsSpared o) (j : Journal) :
    s.lacking o j = { s with journal := j } := by
  have calls : s.calls.filterMap o.call? = s.calls := by
    rw [List.filterMap_congr spared.calls, List.filterMap_some]
  have waits : s.waits.zipIdx.filterMap o.wait? = s.waits := by
    have first : ∀ x ∈ s.waits.zipIdx, o.wait? x = (some ∘ Prod.fst) x := by
      rintro ⟨ended, n⟩ member
      have bound : n < s.waits.length := (List.mem_zipIdx' member).1
      rw [Omission.wait?, spared.waits n bound]
      rfl
    rw [List.filterMap_congr first, List.filterMap_eq_map, List.zipIdx_map_fst]
  rw [lacking, calls, waits]

/-- Then every call is in its place. -/
theorem IsSpared.place_eq (spared : s.IsSpared o) {i : Nat} {call : Call}
    (found : s.calls[i]? = some call) : place o.call? s.calls i = i := by
  have bound : i ≤ s.calls.length := Nat.le_of_lt (List.getElem?_eq_some_iff.mp found).1
  rw [place, List.filterMap_congr fun call member =>
      spared.calls call (List.mem_of_mem_take member),
    List.filterMap_some, List.length_take, Nat.min_eq_left bound]

/-- Then progress stands for itself. -/
theorem IsSpared.counterpart?_eq (spared : s.IsSpared o) {p : Progress}
    (h : s.progress p = some t) : s.counterpart? o p = some p := by
  cases p with
  | proceed i =>
      cases found : s.calls[i]? with
      | none => simp [progress, proceed, found] at h
      | some call =>
          simp [counterpart?, found, spared.calls call (List.mem_of_getElem? found),
            spared.place_eq found]
  | resolveWait n =>
      cases found : s.waits[n]? with
      | none => simp [progress, resolveWait, found] at h
      | some ended =>
          have bound : n < s.waits.length := (List.getElem?_eq_some_iff.mp found).1
          have here : rank o.waits n = n :=
            rank_eq_self.mpr fun k below => spared.waits k (below.trans bound)
          simp [counterpart?, found, Omission.wait?, spared.waits n bound, here]
  | _ => rfl

/-- Then dropping a call stands for itself. -/
theorem IsSpared.standIn?_drop (spared : s.IsSpared o) {i : Nat} (h : s.drop i = some t) :
    s.standIn? o (.drop i) = some (.drop i) := by
  obtain ⟨_, _, found, -⟩ := drop_eq h
  simp [standIn?, found, spared.calls _ (List.mem_of_getElem? found), spared.place_eq found]

theorem progress_alike (same : j.events = s.published) {p p' : Progress}
    (stands : s.counterpart? o p = some p') :
    Alike o s.journal j (s.progress p) ((s.lacking o j).progress p') := by
  cases p with
  | proceed index =>
      obtain ⟨call', kept, rfl⟩ := Option.map_eq_some_iff.mp stands
      obtain ⟨call, found, kept⟩ := Option.bind_eq_some_iff.mp kept
      exact proceed_alike found (Omission.requester?_of_call? kept)
  | resolveWait n =>
      obtain ⟨_, kept, rfl⟩ := Option.map_eq_some_iff.mp stands
      obtain ⟨ended, found, kept⟩ := Option.bind_eq_some_iff.mp kept
      exact resolveWait_alike (List.getElem?_eq_some_iff.mp found).1 (Omission.waits_of_wait? kept)
  | begin n => exact Option.some.inj stands ▸ begin_alike o j s n
  | release n => exact Option.some.inj stands ▸ release_alike o j s n
  | report n => exact Option.some.inj stands ▸ report_alike o j s n
  | call n => exact Option.some.inj stands ▸ call_alike o j s n
  | leave n => exact Option.some.inj stands ▸ leave_alike o j s n none
  | send n => exact Option.some.inj stands ▸ send_alike o j s n
  | fire k => exact Option.some.inj stands ▸ fire_alike o j s k
  | abandon k => exact Option.some.inj stands ▸ abandon_alike o j s k
  | arm k => exact Option.some.inj stands ▸ arm_alike o j s k
  | post k => exact Option.some.inj stands ▸ post_alike o j s k
  | observe => exact Option.some.inj stands ▸ observe_alike o j s
  | heedInterrupt => exact Option.some.inj stands ▸ heed_alike o j s .interrupt _
  | heedParent => exact Option.some.inj stands ▸ heed_alike o j s .parentCancelled _
  | exitLoop => exact Option.some.inj stands ▸ exitLoop_alike o j s
  | listen => exact Option.some.inj stands ▸ listen_alike o j s same
  | serve k => exact Option.some.inj stands ▸ serve_alike o j s k
  | retire k => exact Option.some.inj stands ▸ retire_alike o j s k
  | closeListener => exact Option.some.inj stands ▸ closeListener_alike o j s

/-- All progress of a supervisor that lacks calls stands for progress of the supervisor itself. -/
theorem exists_counterpart (same : j.events = s.published) {p' : Progress} {t' : Supervisor}
    (h : (s.lacking o j).progress p' = some t') :
    ∃ p t, s.counterpart? o p = some p' ∧ s.progress p = some t ∧
      Mirrors o s.journal j t t' := by
  -- whatever stands for something is alike to it
  suffices stands : ∃ p, s.counterpart? o p = some p' by
    obtain ⟨p, stands⟩ := stands
    have alike := progress_alike same stands
    rw [h] at alike
    generalize made : s.progress p = result at alike
    cases alike with
    | some mirrors => exact ⟨p, _, stands, made, mirrors⟩
  cases kind : p' with
  | proceed k =>
      rw [kind] at h
      cases found : (s.lacking o j).calls[k]? with
      | none => simp [progress, proceed, found] at h
      | some call' =>
          obtain ⟨i, call, here, kept, rfl⟩ := exists_place found
          exact ⟨.proceed i, by simp [counterpart?, here, kept]⟩
  | resolveWait k =>
      rw [kind] at h
      cases found : (s.lacking o j).waits[k]? with
      | none => simp [progress, resolveWait, found] at h
      | some ended' =>
          obtain ⟨i, ⟨ended, n⟩, here, kept, rfl⟩ := exists_place found
          obtain ⟨there, rfl⟩ : s.waits[i]? = some ended ∧ n = i := by
            rw [List.getElem?_zipIdx, Nat.zero_add] at here
            obtain ⟨_, there, same⟩ := Option.map_eq_some_iff.mp here
            cases same
            exact ⟨there, rfl⟩
          have bound : n ≤ s.waits.length := Nat.le_of_lt (List.getElem?_eq_some_iff.mp there).1
          exact ⟨.resolveWait n, by simp [counterpart?, there, kept, place_wait? o bound]⟩
  | _ => exact ⟨p', by rw [kind]; rfl⟩

/-! ## The clock -/

/-- Nothing that is left out can go on. -/
structure IsIdle (o : Omission) (s : Supervisor) : Prop where
  calls : ∀ i call, s.calls[i]? = some call → o.call? call = none → s.proceed i = none
  waits : ∀ n, o.waits n = true → s.resolveWait n = none

/-- No call that is left out carries the teardown out. -/
def LeavesAside (o : Omission) (s : Supervisor) : Prop :=
  ∀ call ∈ s.calls, o.call? call = none → call.state.isAtWork = false

/-- If nothing that is left out can go on, all progress stays possible without it. -/
theorem IsIdle.counterpart (rest : s.IsIdle o) {p : Progress} (h : s.progress p = some t) :
    ∃ p', s.counterpart? o p = some p' := by
  cases kind : p with
  | proceed i =>
      rw [kind] at h
      cases found : s.calls[i]? with
      | none => simp [progress, proceed, found] at h
      | some call => cases kept : o.call? call with
        | some call' =>
            exact ⟨.proceed (place o.call? s.calls i), by simp [counterpart?, found, kept]⟩
        | none =>
            have still : s.progress (.proceed i) = none := rest.calls i call found kept
            rw [still] at h
            cases h
  | resolveWait n =>
      rw [kind] at h
      cases left : o.waits n with
      | true =>
          have still : s.progress (.resolveWait n) = none := rest.waits n left
          rw [still] at h
          cases h
      | false => cases found : s.waits[n]? with
        | none => simp [progress, resolveWait, found] at h
        | some ended =>
            exact ⟨.resolveWait (rank o.waits n), by
              simp [counterpart?, found, Omission.wait?, left]⟩
  | _ => exact ⟨p, by rw [kind]; rfl⟩

theorem IsIdle.isQuiescent_eq (rest : s.IsIdle o) (same : j.events = s.published) :
    (s.lacking o j).isQuiescent = s.isQuiescent := by
  rw [Bool.eq_iff_iff, isQuiescent_iff, isQuiescent_iff]
  constructor
  · intro still p
    cases made : s.progress p with
    | none => rfl
    | some t =>
        obtain ⟨p', stands⟩ := rest.counterpart made
        have alike := progress_alike same stands
        rw [made, still p'] at alike
        cases alike
  · intro still p'
    cases made : (s.lacking o j).progress p' with
    | none => rfl
    | some t' =>
        obtain ⟨p, t, -, made, -⟩ := exists_counterpart same made
        rw [still p] at made
        cases made

/-- In a quiescent supervisor nothing that is left out can go on. -/
theorem IsIdle.of_quiescent (quiescent : s.isQuiescent = true) : s.IsIdle o where
  calls i _ _ _ := isQuiescent_iff.mp quiescent (.proceed i)
  waits n _ := isQuiescent_iff.mp quiescent (.resolveWait n)

/-- Only the call that carries the teardown out sets a timer. -/
theorem timers_lacking (aside : s.LeavesAside o) : (s.lacking o j).timers = s.timers := by
  unfold timers
  refine congrArg (_ ++ ·) ?_
  rw [show (s.lacking o j).calls = s.calls.filterMap o.call? from rfl, List.filterMap_filterMap]
  refine List.filterMap_congr fun call member => ?_
  cases kept : o.call? call with
  | some call' =>
      obtain ⟨requester, -, rfl⟩ := Option.map_eq_some_iff.mp kept
      rfl
  | none =>
      have standing := aside call member kept
      cases state : call.state <;> simp [state, CallState.isAtWork] at standing ⊢

theorem tick_alike (rest : s.IsIdle o) (aside : s.LeavesAside o) (same : j.events = s.published)
    (time : Nat) : Alike o s.journal j (s.tick time) ((s.lacking o j).tick time) := by
  unfold tick
  rw [timers_lacking aside, rest.isQuiescent_eq same]
  exact .ite (fun _ => .some (.silent { s with now := time })) fun _ => .none

/-! ## All moves -/

/-- A move that does not concern what is left out does the same without it. -/
theorem apply_alike (numbered : s.IsNumbered) (same : j.events = s.published) {m m' : Move}
    (stands : s.standIn? o m = some m') (clock : ∀ time, m ≠ .tick time) :
    Alike o s.journal j (s.apply m) ((s.lacking o j).apply m') := by
  cases m with
  | progress p =>
      obtain ⟨p', own, rfl⟩ := Option.map_eq_some_iff.mp stands
      exact progress_alike same own
  | submit task => exact Option.some.inj stands ▸ .some (submit_mirrors o j s task none)
  | start => exact Option.some.inj stands ▸ start_alike o j s same
  | stop =>
      rw [standIn?] at stands
      split at stands
      · cases stands
      · next kept =>
          cases stands
          have added := lacking_addCall o j s (.caller s.callers)
            (.caller (rank o.calls s.callers)) (by simp [Omission.requester?, kept])
          show Alike o s.journal j (some _) (some ((s.lacking o j).addCall _))
          rw [callers_lacking numbered, added]
          exact .some (.silent (s.addCall (.caller s.callers)))
  | wait =>
      rw [standIn?] at stands
      split at stands
      · cases stands
      · next kept =>
          cases stands
          have added : (s.lacking o j).waits ++ [false] =
              (s.waits ++ [false]).zipIdx.filterMap o.wait? := by
            simp [lacking, List.zipIdx_append, Omission.wait?, kept]
          show Alike o s.journal j (some _) (some { s.lacking o j with
            waits := (s.lacking o j).waits ++ [false] })
          rw [added]
          exact .some (.silent { s with waits := s.waits ++ [false] })
  | interrupt => exact Option.some.inj stands ▸ .some (.silent { s with interrupted := true })
  | cancelParent =>
      exact Option.some.inj stands ▸ .some (.silent { s with parentCancelled := true })
  | cancelScope => exact Option.some.inj stands ▸ .some (.silent { s with scopeCancelled := true })
  | stopFrom n => exact Option.some.inj stands ▸ stopFrom_alike o j s n
  | drop index =>
      obtain ⟨call', kept, rfl⟩ := Option.map_eq_some_iff.mp stands
      obtain ⟨call, found, kept⟩ := Option.bind_eq_some_iff.mp kept
      exact drop_alike found (Omission.requester?_of_call? kept)
  | cancelRun n => exact Option.some.inj stands ▸ cancelRun_alike o j s n
  | finish n ending => exact Option.some.inj stands ▸ finish_alike o j s n ending
  | restart n policy => exact Option.some.inj stands ▸ restart_alike o j s n policy
  | handTo n index draw => exact Option.some.inj stands ▸ handTo_alike o j s n index draw
  | panicIn n payload => exact Option.some.inj stands ▸ leave_alike o j s n (some payload)
  | note n note => exact Option.some.inj stands ▸ note_alike o j s n note
  | letGo k => exact Option.some.inj stands ▸ letGo_alike o j s k
  | tick time => exact absurd rfl (clock time)

/-! ## Moves of what is left out -/

/-- A move does not let a call begin a teardown that is left out. -/
def IsRedundant (o : Omission) (s : Supervisor) (m : Move) : Prop :=
  ∀ i call, m = .progress (.proceed i) → s.calls[i]? = some call → o.call? call = none →
    call.dropped = false → call.state = .called → s.stage ≠ .started

/-- Whatever becomes of a call, it is left out if it was. -/
theorem call?_eq_none_of_requester {call after : Call} (left : o.call? call = none)
    (same : after.requester = call.requester) : o.call? after = none := by
  rw [Omission.call?, Option.map_eq_none_iff] at left ⊢
  rw [same, left]

theorem lacking_setCall_of_none {i : Nat} {call : Call} (found : s.calls[i]? = some call)
    (left : o.call? call = none) (after : CallState) :
    (s.setCall i after).lacking o j = s.lacking o j := by
  have calls : (s.setCall i after).calls.filterMap o.call? = s.calls.filterMap o.call? :=
    filterMap_modify_of_none found left (call?_eq_none_of_requester left rfl)
  rw [lacking, calls]
  rfl

theorem lacking_withDropped_of_none {i : Nat} {call : Call} (found : s.calls[i]? = some call)
    (left : o.call? call = none) : (s.withDropped i).lacking o j = s.lacking o j := by
  have calls : (s.withDropped i).calls.filterMap o.call? = s.calls.filterMap o.call? :=
    filterMap_modify_of_none found left (call?_eq_none_of_requester left rfl)
  rw [lacking, calls]
  rfl

/-- What a call comes to that does not carry the teardown out: it gets nearer to its result. -/
theorem proceed_aside {i : Nat} {call : Call} (found : s.calls[i]? = some call)
    (aside : call.state.isAtWork = false)
    (redundant : call.dropped = false → call.state = .called → s.stage ≠ .started)
    (h : s.proceed i = some t) :
    ∃ after marks, t = (s.setCall i after).writeAll marks ∧
      after.remaining < call.state.remaining ∧
      ∀ m ∈ marks, ∃ verdict, m = .stopResolved call.requester verdict := by
  obtain ⟨requester, state, dropped⟩ := call
  have resolved : ∀ verdict, ∀ m ∈ [Mark.stopResolved requester verdict],
      ∃ verdict, m = .stopResolved requester verdict :=
    fun verdict m member => ⟨verdict, List.mem_singleton.mp member⟩
  unfold proceed at h
  rw [found] at h
  dsimp only at h
  by_cases kept : dropped = true
  · rw [if_pos kept] at h
    cases h
  rw [if_neg kept] at h
  cases state with
  | called =>
      dsimp only at h
      cases stage : s.stage with
      | created =>
          rw [stage] at h
          cases h
          exact ⟨.resolved .notStarted, [.stopResolved requester .notStarted], rfl, Nat.two_pos,
            resolved .notStarted⟩
      | started => exact absurd stage (redundant (Bool.eq_false_of_not_eq_true kept) rfl)
      | stopped =>
          rw [stage] at h
          cases h
          exact ⟨.joining, [], (writeAll_nil _).symm, Nat.one_lt_two, by simp⟩
  | joining =>
      dsimp only at h
      split at h
      · cases h
        exact ⟨.resolved .success, [.stopResolved requester .success], rfl, Nat.one_pos,
          resolved .success⟩
      · cases h
  | announced | draining | awaitingLoop => cases aside
  | resolved => cases h

/-- A call that is left out goes on by itself. -/
theorem proceed_own {i : Nat} {call : Call} (found : s.calls[i]? = some call)
    (left : o.call? call = none) (aside : call.state.isAtWork = false)
    (redundant : call.dropped = false → call.state = .called → s.stage ≠ .started)
    (h : s.proceed i = some t) : Mirrors o s.journal j t (s.lacking o j) := by
  obtain ⟨after, marks, rfl, -, results⟩ := proceed_aside found aside redundant h
  have unheard : marks.filterMap o.mark? = [] := by
    refine List.filterMap_eq_nil_iff.mpr fun m member => ?_
    obtain ⟨verdict, rfl⟩ := results m member
    rw [Omission.call?, Option.map_eq_none_iff] at left
    rw [Omission.mark?, left]
    rfl
  have told := Mirrors.told (j := j) (s.setCall i after) unheard
  rwa [writeAll_nil, lacking_setCall_of_none found left] at told

theorem resolveWait_eq {n : Nat} (h : s.resolveWait n = some t) :
    s.waits[n]? = some false ∧
      t = { s with waits := s.waits.set n true }.writeAll [.waitResolved n] := by
  unfold resolveWait at h
  split at h
  · next guard =>
      cases h
      exact ⟨guard.2, rfl⟩
  · cases h

theorem resolveWait_own {n : Nat} (left : o.waits n = true) (h : s.resolveWait n = some t) :
    Mirrors o s.journal j t (s.lacking o j) := by
  obtain ⟨waiting, rfl⟩ := resolveWait_eq h
  have unheard : [Mark.waitResolved n].filterMap o.mark? = [] := by
    simp [Omission.mark?, left]
  have gone : ∀ ended, o.wait? (ended, n) = none := fun ended => by
    rw [Omission.wait?, left]
    rfl
  have numbered : s.waits.zipIdx[n]? = some (false, n) := by
    rw [List.getElem?_zipIdx, waiting, Option.map_some, Nat.zero_add]
  have same : lacking o j { s with waits := s.waits.set n true } = s.lacking o j := by
    have waits : (s.waits.set n true).zipIdx.filterMap o.wait? =
        s.waits.zipIdx.filterMap o.wait? := by
      rw [zipIdx_set]
      exact filterMap_modify_of_none numbered (gone false) (gone true)
    rw [lacking, waits]
    rfl
  have told := Mirrors.told (j := j) { s with waits := s.waits.set n true } unheard
  rwa [writeAll_nil, same] at told

/-- What is left out can be dropped. -/
theorem drop_own {i : Nat} {call : Call} (found : s.calls[i]? = some call)
    (left : o.call? call = none) (h : s.drop i = some t) :
    Mirrors o s.journal j t (s.lacking o j) := by
  obtain ⟨_, _, -, -, -, rfl⟩ := drop_eq h
  exact lacking_withDropped_of_none (j := j) found left ▸ .silent (s.withDropped i)

/-- A move that concerns what is left out changes nothing else. -/
theorem apply_own {m : Move} (h : s.apply m = some t) (own : s.standIn? o m = none)
    (aside : s.LeavesAside o) (redundant : s.IsRedundant o m) :
    Mirrors o s.journal j t (s.lacking o j) := by
  cases m with
  | progress p => cases p with
    | proceed i =>
        rw [standIn?, counterpart?, Option.map_eq_none_iff, Option.map_eq_none_iff] at own
        cases found : s.calls[i]? with
        | none => simp [apply, progress, proceed, found] at h
        | some call =>
            rw [found] at own
            exact proceed_own found own (aside call (List.mem_of_getElem? found) own)
              (redundant i call rfl found own) h
    | resolveWait n =>
        rw [standIn?, counterpart?, Option.map_eq_none_iff, Option.map_eq_none_iff] at own
        cases found : s.waits[n]? with
        | none => simp [apply, progress, resolveWait, found] at h
        | some ended =>
            rw [found] at own
            have left : o.waits n = true := by
              cases kept : o.waits n <;> simp [Omission.wait?, kept] at own ⊢
            exact resolveWait_own left h
    | _ => cases own
  | drop i =>
      rw [standIn?, Option.map_eq_none_iff] at own
      cases found : s.calls[i]? with
      | none => simp [apply, drop, found] at h
      | some call =>
          rw [found] at own
          exact drop_own found own h
  | stop =>
      cases h
      rw [standIn?] at own
      split at own
      · next left =>
          have gone : o.requester? (.caller s.callers) = none := by
            rw [Omission.requester?, if_pos left]
          have same : (s.addCall (.caller s.callers)).lacking o j = s.lacking o j := by
            simp [addCall, lacking, Omission.call?, gone]
          exact same ▸ .silent (s.addCall (.caller s.callers))
      · cases own
  | wait =>
      cases h
      rw [standIn?] at own
      split at own
      · next left =>
          have same : lacking o j { s with waits := s.waits ++ [false] } = s.lacking o j := by
            simp [lacking, List.zipIdx_append, Omission.wait?, left]
          exact same ▸ .silent { s with waits := s.waits ++ [false] }
      · cases own
  | _ => cases own

/-- If both stories are told, the call that carries the teardown out is not left out. -/
theorem leavesAside (story : s.HasStory) (story' : (s.lacking o j).HasStory) : s.LeavesAside o := by
  obtain ⟨_, _, _, _, stands⟩ := story
  obtain ⟨_, _, _, _, stands'⟩ := story'
  intro call member left
  obtain ⟨i, found⟩ := List.getElem?_of_mem member
  cases stands with
  | quiet _ _ calls =>
      rcases calls call member with same | same <;> rw [same] <;> rfl
  | @ended index owner verdict _ _ _ _ _ owned _ others =>
      rcases eq_or_ne i index with rfl | differs
      · rw [owned] at found
        cases found
        rfl
      · exact CallState.isAtWork_of_isAside (others i call found differs)
  | @underway index owner state _ stopped unfinished owned atWork others =>
      rcases eq_or_ne i index with rfl | differs
      · -- somebody who is not left out is at work as well, so it is the same call
        cases stands' with
        | quiet stage => exact absurd stopped stage
        | ended _ done =>
            rw [show (s.lacking o j).done = s.done from rfl, unfinished] at done
            cases done
        | underway _ _ owned' atWork' _ =>
            obtain ⟨i', call', found', kept, -⟩ := exists_place owned'
            obtain ⟨_, -, same⟩ := Option.map_eq_some_iff.mp kept
            cases same
            rcases eq_or_ne i' i with rfl | differs
            · rw [found'] at found
              cases found
              rw [left] at kept
              cases kept
            · rw [CallState.isAtWork_of_isAside (others i' call' found' differs)] at atWork'
              cases atWork'
      · exact CallState.isAtWork_of_isAside (others i call found differs)

end Supervisor

end Supervision
