import Mathlib.Data.List.Basic
import Supervision.Proofs.Changes

/-!
# Leaving calls out of account

An `Omission` names some of the calls for a teardown that are made from outside, and some of the
waits for its end. `lacking` is a supervisor as if these had not been made. The other calls are
numbered anew, and the journal may be any one with the same events, for nothing but the events in it
is ever read.

Results:
1. `getElem?_place`, `filterMap_modify`: an entry of a list has its place among those that are kept.
2. `begin_alike` and the like: what does not concern calls is done alike whether some calls are left
   out or not.
-/

namespace Supervision

/-! ## Places in a list of which something is left out -/

section Places

variable {α β : Type} {f : α → Option β} {l : List α} {i : Nat} {a : α} {b : β}

/-- The place that an entry has once others are left out. -/
def place (f : α → Option β) (l : List α) (i : Nat) : Nat := ((l.take i).filterMap f).length

theorem place_succ_of_none {first : α} (gone : f first = none) (rest : List α) (i : Nat) :
    place f (first :: rest) (i + 1) = place f rest i := by
  rw [place, List.take_succ_cons, List.filterMap_cons_none gone, place]

theorem place_succ_of_some {first : α} (kept : f first = some b) (rest : List α) (i : Nat) :
    place f (first :: rest) (i + 1) = place f rest i + 1 := by
  rw [place, List.take_succ_cons, List.filterMap_cons_some kept, List.length_cons, place]

theorem getElem?_place (found : l[i]? = some a) (kept : f a = some b) :
    (l.filterMap f)[place f l i]? = some b := by
  induction l generalizing i with
  | nil => cases found
  | cons first rest ih => cases i with
    | zero =>
        cases found
        rw [List.filterMap_cons_some kept]
        rfl
    | succ i =>
        have found : rest[i]? = some a := found
        cases here : f first with
        | none => rw [place_succ_of_none here, List.filterMap_cons_none here, ih found]
        | some c =>
            rw [place_succ_of_some here, List.filterMap_cons_some here, List.getElem?_cons_succ,
              ih found]

/-- Every entry that is not left out has its place. -/
theorem exists_place {k : Nat} (h : (l.filterMap f)[k]? = some b) :
    ∃ i a, l[i]? = some a ∧ f a = some b ∧ place f l i = k := by
  induction l generalizing k with
  | nil => cases h
  | cons first rest ih => cases kept : f first with
    | none =>
        rw [List.filterMap_cons_none kept] at h
        obtain ⟨i, a, found, same, here⟩ := ih h
        exact ⟨i + 1, a, found, same, (place_succ_of_none kept rest i).trans here⟩
    | some c =>
        rw [List.filterMap_cons_some kept] at h
        cases k with
        | zero =>
            cases h
            exact ⟨0, first, rfl, kept, rfl⟩
        | succ k =>
            obtain ⟨i, a, found, same, rfl⟩ := ih h
            exact ⟨i + 1, a, found, same, place_succ_of_some kept rest i⟩

/-- Changing an entry that is not left out changes the entry in its place. -/
theorem filterMap_modify {g : α → α} {g' : β → β} (found : l[i]? = some a) (kept : f a = some b)
    (after : f (g a) = some (g' b)) :
    (l.modify i g).filterMap f = (l.filterMap f).modify (place f l i) g' := by
  induction l generalizing i with
  | nil => cases found
  | cons first rest ih => cases i with
    | zero =>
        cases found
        rw [List.modify_zero_cons, List.filterMap_cons_some after, List.filterMap_cons_some kept]
        rfl
    | succ i =>
        have found : rest[i]? = some a := found
        rw [List.modify_succ_cons]
        cases here : f first with
        | none =>
            rw [place_succ_of_none here, List.filterMap_cons_none here,
              List.filterMap_cons_none here, ih found]
        | some c =>
            rw [place_succ_of_some here, List.filterMap_cons_some here,
              List.filterMap_cons_some here, List.modify_succ_cons, ih found]

/-- Changing an entry that is taken for the same before and after changes nothing. -/
theorem filterMap_modify_of_eq {g : α → α} (found : l[i]? = some a) (same : f (g a) = f a) :
    (l.modify i g).filterMap f = l.filterMap f := by
  induction l generalizing i with
  | nil => cases found
  | cons first rest ih => cases i with
    | zero =>
        cases found
        rw [List.modify_zero_cons, List.filterMap_cons, List.filterMap_cons, same]
    | succ i =>
        have found : rest[i]? = some a := found
        rw [List.modify_succ_cons]
        cases here : f first with
        | none => rw [List.filterMap_cons_none here, List.filterMap_cons_none here, ih found]
        | some c => rw [List.filterMap_cons_some here, List.filterMap_cons_some here, ih found]

/-- Changing an entry that is left out changes nothing of the others. -/
theorem filterMap_modify_of_none {g : α → α} (found : l[i]? = some a) (gone : f a = none)
    (after : f (g a) = none) : (l.modify i g).filterMap f = l.filterMap f :=
  filterMap_modify_of_eq found (after.trans gone.symm)

theorem place_add_one (found : l[i]? = some a) :
    place f l (i + 1) = place f l i + (f a).toList.length := by
  rw [place, List.take_add_one, found, List.filterMap_append, List.length_append, place]
  cases kept : f a <;> simp [kept]

/-- Setting an entry keeps its number. -/
theorem zipIdx_set (l : List α) (i : Nat) (a : α) :
    (l.set i a).zipIdx = l.zipIdx.modify i fun x => (a, x.2) := by
  refine List.ext_getElem? fun k => ?_
  rw [List.getElem?_zipIdx, List.getElem?_modify, List.getElem?_zipIdx, List.getElem?_set']
  split
  · cases l[k]? <;> rfl
  · cases l[k]? <;> rfl

end Places

/-! ## What is left out -/

/-- Calls for a teardown that are made from outside, by their numbers, and waits for its end. -/
structure Omission where
  calls : Nat → Bool := fun _ => false
  waits : Nat → Bool := fun _ => false

/-- How many numbers below `n` are not left out. -/
def rank (left : Nat → Bool) (n : Nat) : Nat := (List.range n).countP (!left ·)

theorem rank_succ (left : Nat → Bool) (n : Nat) :
    rank left (n + 1) = rank left n + if left n then 0 else 1 := by
  rw [rank, List.range_succ, List.countP_append, List.countP_singleton, rank]
  cases left n <;> rfl

theorem rank_eq_self {left : Nat → Bool} {n : Nat} :
    rank left n = n ↔ ∀ k < n, left k = false := by
  have all := List.countP_eq_length (p := fun k => !left k) (l := List.range n)
  rw [List.length_range] at all
  simp only [rank, all, List.mem_range, Bool.not_eq_true']

/-- The number of a call from outside. -/
def Requester.caller? : Requester → Option Nat
  | .caller n => some n
  | .run _ | .loop _ => none

namespace Omission

/-- Who asks for a teardown, numbered anew. -/
def requester? (o : Omission) : Requester → Option Requester
  | .caller n => if o.calls n then none else some (.caller (rank o.calls n))
  | .run n => some (.run n)
  | .loop trigger => some (.loop trigger)

def call? (o : Omission) (call : Call) : Option Call :=
  (o.requester? call.requester).map fun requester => { call with requester }

/-- A wait with its number. -/
def wait? (o : Omission) : Bool × Nat → Option Bool
  | (ended, n) => if o.waits n then none else some ended

def mark? (o : Omission) : Mark → Option Mark
  | .stopResolved requester verdict =>
      (o.requester? requester).map fun requester => .stopResolved requester verdict
  | .waitResolved n => if o.waits n then none else some (.waitResolved (rank o.waits n))
  | mark => some mark

def written? (o : Omission) (entry : Entry) : Option Entry :=
  (o.mark? entry.mark).map fun mark => { entry with mark }

variable {o : Omission}

theorem trigger_of_requester? {requester requester' : Requester}
    (kept : o.requester? requester = some requester') :
    requester'.trigger = requester.trigger := by
  cases requester with
  | caller n =>
      simp only [requester?] at kept
      split at kept <;> cases kept
      rfl
  | run | loop =>
      cases kept
      rfl

theorem call?_of_requester? {requester requester' : Requester}
    (kept : o.requester? requester = some requester') (state : CallState) (dropped : Bool) :
    o.call? ⟨requester, state, dropped⟩ = some ⟨requester', state, dropped⟩ := by
  rw [call?, kept]
  rfl

theorem mark?_of_requester? {requester requester' : Requester}
    (kept : o.requester? requester = some requester') (verdict : Verdict) :
    o.mark? (.stopResolved requester verdict) = some (.stopResolved requester' verdict) := by
  rw [mark?, kept]
  rfl

theorem requester?_of_call? {call call' : Call} (h : o.call? call = some call') :
    o.requester? call.requester = some call'.requester := by
  obtain ⟨requester, kept, rfl⟩ := Option.map_eq_some_iff.mp h
  exact kept

theorem waits_of_wait? {ended ended' : Bool} {n : Nat} (h : o.wait? (ended, n) = some ended') :
    o.waits n = false := by
  rw [wait?] at h
  cases left : o.waits n with
  | true =>
      rw [left] at h
      cases h
  | false => rfl

end Omission

namespace Supervisor

variable {o : Omission} {j : Journal} {s t u : Supervisor}

/-- The supervisor as if what is left out had not been made, with another journal. -/
def lacking (o : Omission) (j : Journal) (s : Supervisor) : Supervisor :=
  { s with calls := s.calls.filterMap o.call?, waits := s.waits.zipIdx.filterMap o.wait?
           journal := j }

/-- The second state is the first one without what is left out; the journals have been `old` and
`j` and have been continued in the same way. -/
def Mirrors (o : Omission) (old j : Journal) (t t' : Supervisor) : Prop :=
  ∃ new, t.journal = old ++ new ∧ t' = t.lacking o (j ++ new.filterMap o.written?)

/-- Two moves lead to states that mirror each other, or neither of them can be made. -/
abbrev Alike (o : Omission) (old j : Journal) : Option Supervisor → Option Supervisor → Prop :=
  Option.Rel (Mirrors o old j)

theorem Mirrors.writeAll (u : Supervisor) (marks : List Mark) :
    Mirrors o u.journal j (u.writeAll marks)
      ((u.lacking o j).writeAll (marks.filterMap o.mark?)) := by
  refine ⟨marks.map fun m => ⟨u.now, m⟩, rfl, ?_⟩
  have entries : (marks.map fun m => (⟨u.now, m⟩ : Entry)).filterMap o.written? =
      (marks.filterMap o.mark?).map fun m => ⟨u.now, m⟩ := by
    rw [List.filterMap_map, List.map_filterMap]
    rfl
  rw [entries]
  rfl

theorem Mirrors.told (u : Supervisor) {marks marks' : List Mark}
    (kept : marks.filterMap o.mark? = marks') :
    Mirrors o u.journal j (u.writeAll marks) ((u.lacking o j).writeAll marks') :=
  kept ▸ .writeAll u marks

theorem Mirrors.written (u : Supervisor) {marks : List Mark}
    (kept : marks.filterMap o.mark? = marks) :
    Mirrors o u.journal j (u.writeAll marks) ((u.lacking o j).writeAll marks) := .told u kept

theorem Mirrors.mark (u : Supervisor) {m m' : Mark} (kept : o.mark? m = some m') :
    Mirrors o u.journal j (u.mark m) ((u.lacking o j).mark m') :=
  .told u (by rw [List.filterMap_cons_some kept, List.filterMap_nil])

theorem Mirrors.silent (u : Supervisor) : Mirrors o u.journal j u (u.lacking o j) :=
  ⟨[], (List.append_nil _).symm, by rw [List.filterMap_nil, List.append_nil]⟩

/-- What is left out has no part in the events. -/
theorem events_filterMap_written? (o : Omission) (new : Journal) :
    Journal.events (new.filterMap o.written?) = new.events := by
  rw [Journal.events, List.filterMap_filterMap, Journal.events]
  refine List.filterMap_congr fun entry _ => ?_
  obtain ⟨time, mark⟩ := entry
  cases mark with
  | stopResolved requester verdict =>
      rw [Omission.written?, Omission.mark?]
      cases o.requester? requester <;> rfl
  | waitResolved n =>
      rw [Omission.written?, Omission.mark?]
      cases o.waits n <;> rfl
  | _ => rfl

theorem Mirrors.published {old : Journal} {t' : Supervisor} (h : Mirrors o old j t t')
    (same : j.events = old.events) : t'.published = t.published := by
  obtain ⟨new, grown, rfl⟩ := h
  show Journal.events (j ++ new.filterMap o.written?) = t.journal.events
  rw [grown, Journal.events_append, Journal.events_append, same, events_filterMap_written?]

/-- What follows goes on from the journals that have been reached. -/
theorem Mirrors.trans {old : Journal} {t' u' : Supervisor} (h : Mirrors o old j t t')
    (next : ∀ j', t' = t.lacking o j' → Mirrors o t.journal j' u u') : Mirrors o old j u u' := by
  obtain ⟨new, grown, rfl⟩ := h
  obtain ⟨more, grown', rfl⟩ := next _ rfl
  exact ⟨new ++ more, by rw [grown', grown, List.append_assoc],
    by rw [List.filterMap_append, List.append_assoc]⟩

/-! ## Views of a supervisor that lacks calls -/

section Views

variable (o : Omission) (j : Journal) (s : Supervisor)

theorem run?_lacking (number : Nat) : (s.lacking o j).run? number = s.run? number := by
  cases number <;> rfl

theorem lacking_withPhase (number : Nat) (phase : Phase) :
    (s.lacking o j).withPhase number phase = (s.withPhase number phase).lacking o j := by
  cases number <;> rfl

theorem lacking_cancelToken (number : Nat) :
    (s.lacking o j).cancelToken number = (s.cancelToken number).lacking o j := by
  cases number <;> rfl

theorem lacking_foldl_cancelToken (numbers : List Nat) :
    numbers.foldl cancelToken (s.lacking o j) = (numbers.foldl cancelToken s).lacking o j := by
  induction numbers generalizing s with
  | nil => rfl
  | cons number rest ih => rw [List.foldl_cons, lacking_cancelToken, ih, List.foldl_cons]

/-- Only work routines and the loop wait for a teardown that they have called for. -/
theorem awaitsStop_lacking (number : Nat) :
    (s.lacking o j).awaitsStop number = s.awaitsStop number := by
  rw [awaitsStop, awaitsStop, lacking, List.any_filterMap]
  congr 1
  funext call
  obtain ⟨requester, state, dropped⟩ := call
  cases requester with
  | caller n => cases left : o.calls n <;> simp [Omission.call?, Omission.requester?, left]
  | run | loop => rfl

theorem isDeferring_lacking (number : Nat) :
    (s.lacking o j).isDeferring number = s.isDeferring number := rfl

theorem lacking_addCall (requester requester' : Requester)
    (kept : o.requester? requester = some requester') :
    (s.lacking o j).addCall requester' = (s.addCall requester).lacking o j := by
  simp [addCall, lacking, Omission.call?, kept]

end Views

/-- What is done to a run is alike if it is alike for every run. -/
theorem Alike.onRun {old : Journal} {number : Nat} {f g : Run → Option Supervisor}
    (each : ∀ r, s.run? number = some r → Alike o old j (f r) (g r)) :
    Alike o old j
      (match s.run? number with
        | some r => f r
        | none => none)
      (match (s.lacking o j).run? number with
        | some r => g r
        | none => none) := by
  rw [run?_lacking]
  cases found : s.run? number with
  | none => exact .none
  | some r => exact each r found

/-- Two choices are alike if they depend on the same condition. -/
theorem Alike.ite {old : Journal} {c : Prop} [Decidable c] {a a' b b' : Option Supervisor}
    (yes : c → Alike o old j a a') (no : ¬c → Alike o old j b b') :
    Alike o old j (if c then a else b) (if c then a' else b') := by
  split
  · next holds => exact yes holds
  · next fails => exact no fails

theorem Mirrors.ite {old : Journal} {c : Prop} [Decidable c] {u u' v v' : Supervisor}
    (yes : c → Mirrors o old j u u') (no : ¬c → Mirrors o old j v v') :
    Mirrors o old j (if c then u else v) (if c then u' else v') := by
  split
  · next holds => exact yes holds
  · next fails => exact no fails

/-! ## The course of a run -/

section Course

variable (o : Omission) (j : Journal) (s : Supervisor) (number : Nat)

theorem begin_alike : Alike o s.journal j (s.begin number) ((s.lacking o j).begin number) := by
  refine .onRun fun r _ => ?_
  cases r.phase with
  | launched =>
      refine .some ?_
      cases r.task.work with
      | none =>
          simp only [setPhase_eq, record_eq, publish_eq, withPhase_writeAll, writeAll_writeAll,
            lacking_withPhase]
          exact .written (s.withPhase number (.returned none)) rfl
      | some routine =>
          simp only [setPhase_eq, mark_eq, record_eq, publish_eq, withPhase_writeAll,
            writeAll_writeAll, lacking_withPhase]
          exact .written (s.withPhase number .working) rfl
  | _ => exact .none

theorem finish_alike (ending : Ending) :
    Alike o s.journal j (s.finish number ending) ((s.lacking o j).finish number ending) := by
  refine .onRun fun r _ => ?_
  rw [awaitsStop_lacking]
  cases r.phase with
  | working =>
      dsimp only
      split
      · exact .none
      · rw [setPhase_eq, setPhase_eq, lacking_withPhase]
        exact .some (.silent (s.withPhase number (.returned ending.fault)))
  | _ => exact .none

theorem release_alike :
    Alike o s.journal j (s.release number) ((s.lacking o j).release number) := by
  refine .onRun fun r _ => ?_
  cases r.phase with
  | returned fault =>
      let given : Supervisor := { s with registry := (s.registry.release r.task.id number).1 }
      refine .some ?_
      simp only [setPhase_eq, mark_eq, withPhase_writeAll]
      rw [show ({ s.lacking o j with
          registry := ((s.lacking o j).registry.release r.task.id number).1 } : Supervisor) =
        given.lacking o j from rfl, lacking_withPhase]
      exact .written (given.withPhase number (.released fault)) rfl
  | _ => exact .none

theorem report_alike : Alike o s.journal j (s.report number) ((s.lacking o j).report number) := by
  refine .onRun fun r _ => ?_
  cases r.phase with
  | released fault =>
      refine .some ?_
      simp only [setPhase_eq, publish_eq, withPhase_writeAll, lacking_withPhase]
      exact .written (s.withPhase number (.due .own fault)) (by cases fault <;> rfl)
  | _ => exact .none

theorem afterCallback_mirrors (scope : Scope) (fault : Option Fault) (marks : List Mark)
    (kept : marks.filterMap o.mark? = marks) :
    Mirrors o s.journal j ((s.writeAll marks).afterCallback number scope fault)
      (((s.lacking o j).writeAll marks).afterCallback number scope fault) := by
  rw [afterCallback_writeAll, afterCallback_writeAll]
  cases scope with
  | own =>
      rw [afterCallback_own, afterCallback_own, lacking_withPhase]
      exact .written (s.withPhase number (.due .global fault)) kept
  | global =>
      let lined : Supervisor := { s with line := s.line ++ [number] }
      rw [afterCallback_global, afterCallback_global]
      rw [show ({ s.lacking o j with line := (s.lacking o j).line ++ [number] } : Supervisor) =
        lined.lacking o j from rfl, lacking_withPhase]
      exact .written (lined.withPhase number (.inLine fault)) kept

theorem call_alike : Alike o s.journal j (s.call number) ((s.lacking o j).call number) := by
  refine .onRun fun r _ => ?_
  cases r.phase with
  | due scope fault =>
      refine .some ?_
      rw [show (s.lacking o j).callback? r.task scope = s.callback? r.task scope by
        cases scope <;> rfl]
      cases s.callback? r.task scope with
      | none =>
          have passed := afterCallback_mirrors o j s number scope fault [] rfl
          rwa [writeAll_nil, writeAll_nil] at passed
      | some callback =>
          simp only [setPhase_eq, mark_eq, withPhase_writeAll, lacking_withPhase]
          exact .written (s.withPhase number (.calling scope fault)) rfl
  | _ => exact .none

theorem leave_alike (panic : Option Payload) :
    Alike o s.journal j (s.leave number panic) ((s.lacking o j).leave number panic) := by
  refine .onRun fun r _ => ?_
  cases r.phase with
  | calling scope fault =>
      dsimp only
      rw [isDeferring_lacking]
      refine .ite (fun _ => .none) fun _ => .some ?_
      cases panic with
      | none =>
          have left := afterCallback_mirrors o j s number scope fault [] rfl
          rwa [writeAll_nil, writeAll_nil] at left
      | some payload =>
          exact afterCallback_mirrors o j s number scope fault
            (panicMarks r.task.id scope (some payload)) rfl
  | _ => exact .none

theorem send_alike : Alike o s.journal j (s.send number) ((s.lacking o j).send number) := by
  refine .onRun fun r _ => ?_
  cases r.phase with
  | inLine fault =>
      have away : ∀ u : Supervisor,
          { u with line := u.line.erase number }.setPhase number (.finished fault) =
            u.withDelivery number fault := fun u => setPhase_eq _ number _
      have off : (s.lacking o j).withDelivery number fault =
          (s.withDelivery number fault).lacking o j :=
        lacking_withPhase o j { s with line := s.line.erase number } number _
      dsimp only
      rw [away, away, off]
      refine .ite (fun _ => .some ?_) fun _ => .ite (fun _ => .some ?_) fun _ => .none
      · exact .mark (s.withDelivery number fault) rfl
      · exact .mark { s.withDelivery number fault with queue := s.queue ++ [number] } rfl
  | _ => exact .none

theorem stopFrom_alike :
    Alike o s.journal j (s.stopFrom number) ((s.lacking o j).stopFrom number) := by
  refine .onRun fun r _ => ?_
  rw [awaitsStop_lacking, lacking_addCall o j s (.run number) (.run number) rfl]
  cases r.phase with
  | working => exact .ite (fun _ => .none) fun _ => .some (.silent (s.addCall (.run number)))
  | _ => exact .none

theorem cancelRun_alike :
    Alike o s.journal j (s.cancelRun number) ((s.lacking o j).cancelRun number) := by
  have cancelled : ∀ u : Supervisor, (u.mark (.cancelled number)).cancelToken number =
      (u.cancelToken number).writeAll [.cancelled number] := fun u => by
    rw [mark_eq, cancelToken, modifyRun_writeAll, cancelToken]
  have same : (s.cancelToken number).journal = s.journal := by
    rw [cancelToken, modifyRun_eq]
  refine .onRun fun r _ => ?_
  rw [cancelled, cancelled, lacking_cancelToken, ← same]
  cases r.phase with
  | launched => exact .none
  | _ => exact .some (.written (s.cancelToken number) rfl)

theorem note_alike (n : Note) :
    Alike o s.journal j (s.note number n) ((s.lacking o j).note number n) :=
  .onRun fun _ _ => .some (.mark s rfl)

end Course

/-! ## Submissions -/

section Submissions

variable (o : Omission) (j : Journal) (s : Supervisor)

theorem launch_mirrors (task : Task) (origin : Option Nat) :
    Mirrors o s.journal j (s.launch task origin) ((s.lacking o j).launch task origin) := by
  have evicted : (s.lacking o j).evict task.id = s.evict task.id := by
    unfold evict
    rw [show (s.lacking o j).registry = s.registry from rfl]
    cases s.registry.lookup task.id with
    | none => rfl
    | some predecessor =>
        dsimp only
        rw [lacking_cancelToken]
        rfl
  have added : (s.lacking o j).withRun task origin = (s.withRun task origin).lacking o j := by
    rw [withRun, evicted]
    rfl
  rw [launch_eq, launch_eq, added]
  refine .written (s.withRun task origin) ?_
  unfold launchMarks
  dsimp only
  split <;> rfl

theorem submit_mirrors (task : Task) (origin : Option Nat) :
    Mirrors o s.journal j (s.submit task origin) ((s.lacking o j).submit task origin) := by
  unfold submit
  rw [show (s.lacking o j).stage = s.stage from rfl]
  cases s.stage with
  | created => exact .silent (s.enqueue task)
  | started => exact launch_mirrors o j s task origin
  | stopped => exact .mark s rfl

theorem post_alike (index : Nat) :
    Alike o s.journal j (s.post index) ((s.lacking o j).post index) := by
  unfold post
  rw [show (s.lacking o j).notices = s.notices from rfl]
  cases s.notices[index]? with
  | none => exact .none
  | some n =>
      refine .ite (fun _ => .none) fun _ => .some ?_
      simp only [record_eq, publish_eq, writeAll_writeAll]
      exact .written (s.withPosted index) rfl

theorem launches_mirror (tasks : List Task) :
    Mirrors o s.journal j (tasks.foldl (fun s task => s.launch task none) s)
      (tasks.foldl (fun s task => s.launch task none) (s.lacking o j)) := by
  induction tasks generalizing s j with
  | nil => exact .silent s
  | cons task rest ih =>
      refine (launch_mirrors o j s task none).trans fun j' same => ?_
      rw [List.foldl_cons, List.foldl_cons, same]
      exact ih j' (s.launch task none)

theorem submitAfter_mirrors (task : Task) (origin : Nat) (delay : Duration) :
    Mirrors o s.journal j (s.submitAfter task origin delay)
      ((s.lacking o j).submitAfter task origin delay) := by
  unfold submitAfter
  split
  · exact submit_mirrors o j s task (some origin)
  · exact .silent { s with
      delays := s.delays ++ [{ task, origin, due := s.now + delay.timerMillis }] }

theorem resubmit_mirrors (number : Nat) (r : Run) :
    Mirrors o s.journal j (s.resubmit number r) ((s.lacking o j).resubmit number r) := by
  refine .ite (fun _ => .mark s rfl) fun _ => .ite (fun _ => .silent s) fun _ => ?_
  have recorded : Mirrors o s.journal j (s.record (.restarting r.task.id))
      ((s.lacking o j).record (.restarting r.task.id)) := .mark s rfl
  refine recorded.trans fun j' same => ?_
  rw [same]
  exact submit_mirrors o j' (s.record (.restarting r.task.id)) r.task (some number)

theorem restart_alike (number : Nat) (policy : RestartPolicy) :
    Alike o s.journal j (s.restart number policy) ((s.lacking o j).restart number policy) := by
  refine .onRun fun r _ => ?_
  cases r.phase with
  | calling scope fault =>
      dsimp only
      rw [isDeferring_lacking]
      exact .ite (fun _ => .none) fun _ =>
        .some (.ite (fun _ => resubmit_mirrors o j s number r) fun _ => .silent s)
  | _ => exact .none

theorem enact_mirrors (number : Nat) (task : Task) (decision : Decision) :
    Mirrors o s.journal j (s.enact number task decision).1
      ((s.lacking o j).enact number task decision).1 := by
  cases decision with
  | unwanted | stopped | overflow => exact .silent s
  | cancelled | exhausted => exact .mark s rfl
  | again streak delay =>
      have recorded : Mirrors o s.journal j (s.record (.restartingAfter task.id streak delay))
          ((s.lacking o j).record (.restartingAfter task.id streak delay)) := .mark s rfl
      refine recorded.trans fun j' same => ?_
      rw [enact, enact, same]
      exact submitAfter_mirrors o j' (s.record (.restartingAfter task.id streak delay)) task number
        delay

/-- A restarter is told the same, counts in the same way and decides the same. -/
theorem consult_lacking (number : Nat) (r : Run) (fault : Option Fault) (index draw : Nat) :
    ∃ streaks decision,
      s.consult number r fault index draw = { s with streaks }.enact number r.task decision ∧
      (s.lacking o j).consult number r fault index draw =
        (lacking o j { s with streaks }).enact number r.task decision := by
  unfold consult
  rw [show (s.lacking o j).setup = s.setup from rfl,
    show (s.lacking o j).streaks = s.streaks from rfl]
  cases s.setup.restarters[index]? with
  | none => exact ⟨s.streaks, .unwanted, rfl, rfl⟩
  | some restarter => cases s.streaks[index]? with
    | none => exact ⟨s.streaks, .unwanted, rfl, rfl⟩
    | some streaks => exact ⟨_, _, rfl, rfl⟩

theorem handTo_alike (number index draw : Nat) :
    Alike o s.journal j (s.handTo number index draw)
      ((s.lacking o j).handTo number index draw) := by
  refine .onRun fun r _ => ?_
  cases r.phase with
  | calling scope fault =>
      obtain ⟨streaks, decision, consulted, consulted'⟩ :=
        consult_lacking o j s number r fault index draw
      dsimp only
      rw [isDeferring_lacking, consulted, consulted']
      refine .ite (fun _ => .none) fun _ => ?_
      have enacted := enact_mirrors o j { s with streaks } number r.task decision
      cases decision with
      | overflow error =>
          exact leave_alike o j { s with streaks } number (some (.text error.message))
      | _ => exact .some enacted
  | _ => exact .none

theorem fire_alike (index : Nat) :
    Alike o s.journal j (s.fire index) ((s.lacking o j).fire index) := by
  unfold fire
  rw [show (s.lacking o j).delays = s.delays from rfl]
  cases s.delays[index]? with
  | none => exact .none
  | some d =>
      exact .ite (fun _ => .some (submit_mirrors o j (s.setDelay index .fired) d.task _)) fun _ =>
        .none

theorem abandon_alike (index : Nat) :
    Alike o s.journal j (s.abandon index) ((s.lacking o j).abandon index) := by
  unfold abandon
  rw [show (s.lacking o j).delays = s.delays from rfl]
  cases s.delays[index]? with
  | none => exact .none
  | some d => exact .ite (fun _ => .some (.silent (s.setDelay index .abandoned))) fun _ => .none

theorem arm_alike (index : Nat) :
    Alike o s.journal j (s.arm index) ((s.lacking o j).arm index) := by
  unfold arm
  rw [show (s.lacking o j).delays = s.delays from rfl]
  cases s.delays[index]? with
  | none => exact .none
  | some d => exact .ite (fun _ => .some (.silent (s.setDelay index .pending))) fun _ => .none

theorem published_lacking (same : j.events = s.published) :
    (s.lacking o j).published = s.published := same

theorem start_alike (same : j.events = s.published) :
    Alike o s.journal j (s.apply .start) ((s.lacking o j).apply .start) := by
  have opened : (s.lacking o j).openListener = s.openListener := by
    unfold openListener
    rw [published_lacking o j s same]
    rfl
  unfold apply start
  rw [opened, show (s.lacking o j).stage = s.stage from rfl]
  cases s.stage with
  | started | stopped => exact .some (.silent s)
  | created =>
      let u : Supervisor := { s with
        stage := .started, loop := .running, pending := [], listener := s.openListener }
      have recorded : Mirrors o s.journal j (u.record (.started s.pending.length))
          ((u.lacking o j).record (.started s.pending.length)) := .mark u rfl
      refine .some (recorded.trans fun j' same => ?_)
      have launched := launches_mirror o j' (u.record (.started s.pending.length)) s.pending
      rwa [← same] at launched

end Submissions

/-! ## The loop and the feed -/

section Feed

variable (o : Omission) (j : Journal) (s : Supervisor)

/-- What is done with the next outcome is alike if it is alike for every outcome. -/
theorem Alike.onQueue {old : Journal} {f g : Nat → List Nat → Option Supervisor}
    (each : ∀ number rest, Alike o old j (f number rest) (g number rest)) :
    Alike o old j
      (match s.loop, s.queue with
        | .running, number :: rest => f number rest
        | _, _ => none)
      (match (s.lacking o j).loop, (s.lacking o j).queue with
        | .running, number :: rest => g number rest
        | _, _ => none) := by
  show Alike o old j _ (match s.loop, s.queue with
    | .running, number :: rest => g number rest
    | _, _ => none)
  cases s.loop with
  | absent | exited => exact .none
  | running => cases s.queue with
    | nil => exact .none
    | cons number rest => exact each number rest

theorem observe_alike : Alike o s.journal j s.observe (s.lacking o j).observe := by
  refine Alike.onQueue o j s fun number rest => ?_
  let u : Supervisor := { s with queue := rest }
  have known : Supervisor.run? { s.lacking o j with queue := rest } number = u.run? number :=
    run?_lacking o j u number
  dsimp only
  rw [known]
  cases u.run? number with
  | none => exact .some (.silent u)
  | some r =>
      refine .some ?_
      simp only [record_eq, publish_eq, writeAll_writeAll]
      refine .written u ?_
      cases r.phase.fault?.join <;> rfl

theorem heed_alike (trigger : Trigger) (present : Bool) :
    Alike o s.journal j (s.heed trigger present) ((s.lacking o j).heed trigger present) := by
  refine .ite (fun _ => .some ?_) fun _ => .none
  let u : Supervisor := { s with heeded := true }
  have added : (u.lacking o j).addCall (.loop trigger) = (u.addCall (.loop trigger)).lacking o j :=
    lacking_addCall o j u (.loop trigger) (.loop trigger) rfl
  have recorded := Mirrors.mark (o := o) (j := j) (u.addCall (.loop trigger))
    (m := .recorded (.triggerReceived trigger)) rfl
  rwa [← added] at recorded

theorem exitLoop_alike : Alike o s.journal j s.exitLoop (s.lacking o j).exitLoop :=
  .ite (fun _ => .some (.mark { s with loop := .exited } rfl)) fun _ => .none

/-- What is done with something that is there is alike if it is alike for all that can be there. -/
theorem Alike.bind {α : Type} {old : Journal} {x : Option α} {f g : α → Option Supervisor}
    (each : ∀ a, Alike o old j (f a) (g a)) : Alike o old j (x >>= f) (x >>= g) := by
  cases x with
  | none => exact .none
  | some a => exact each a

theorem emit_mirrors (effects : Effects) :
    Mirrors o s.journal j (s.emit effects) ((s.lacking o j).emit effects) := by
  have kept : effects.marks.filterMap o.mark? = effects.marks := by
    have each : ∀ m ∈ effects.marks, o.mark? m = some m := by
      intro m member
      rcases List.mem_append.mp member with record | event
      · obtain ⟨record, -, rfl⟩ := List.mem_map.mp record
        rfl
      · obtain ⟨event, -, rfl⟩ := List.mem_map.mp event
        rfl
    rw [List.filterMap_congr each, List.filterMap_some]
  rw [emit_eq, emit_eq]
  exact .written s kept

theorem listen_alike (same : j.events = s.published) :
    Alike o s.journal j s.listen (s.lacking o j).listen := by
  have reading : ∀ l, (s.lacking o j).nextReading l = s.nextReading l := fun l => by
    rw [nextReading, published_lacking o j s same]
    rfl
  unfold listen
  rw [show (s.lacking o j).listener = s.listener from rfl]
  cases s.listener with
  | none => exact .none
  | some l =>
      refine .ite (fun _ => .none) fun _ => ?_
      rw [reading]
      rcases s.nextReading l with ⟨_ | e | lost, position⟩
      · exact .none
      · exact .some (emit_mirrors o j { s with listener := some ⟨position,
          if e.isTerminal then .closing else .receiving, (offerAll l.mailboxes e).1⟩ } _)
      · exact .some (.mark { s with listener := some { l with position } } rfl)

theorem serve_alike (index : Nat) :
    Alike o s.journal j (s.serve index) ((s.lacking o j).serve index) :=
  .bind o j fun l => .bind o j fun _ => .bind o j fun (m, effects) =>
    .some (emit_mirrors o j (s.setMailbox l index m) effects)

theorem letGo_alike (index : Nat) :
    Alike o s.journal j (s.letGo index) ((s.lacking o j).letGo index) :=
  .bind o j fun l => .bind o j fun _ => .bind o j fun (m, effects) =>
    .some (emit_mirrors o j (s.setMailbox l index m) effects)

theorem retire_alike (index : Nat) :
    Alike o s.journal j (s.retire index) ((s.lacking o j).retire index) :=
  .bind o j fun l => .ite (fun _ => .none) fun _ => .bind o j fun _ => .bind o j fun m =>
    .some (.silent (s.setMailbox l index m))

theorem closeListener_alike :
    Alike o s.journal j s.closeListener (s.lacking o j).closeListener := by
  unfold closeListener
  rw [show (s.lacking o j).listener = s.listener from rfl]
  cases s.listener with
  | none => exact .none
  | some l =>
      exact .ite (fun _ => .some (.silent { s with
        listener := some { l with state := .ended } })) fun _ => .none

end Feed

end Supervisor

end Supervision
