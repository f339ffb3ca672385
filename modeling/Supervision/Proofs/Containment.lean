import Supervision.Proofs.Counterparts

/-!
# Panics are contained

A work routine that panics ends its run in the way of one that returns the fault of the panic. A
finish callback that panics ends in the way of one that returns, and leaves one warning in the
journal; nobody ever reads the warning, so whatever happens afterwards happens with the panic and
without it.

Results:
1. `applyAll_congr`: the panic of a work routine is a fault that it returns.
2. `applyAll_rebase`: of the journal only the events matter for what comes.
3. `leave_leavesWarning`: the panic of a callback is a return with a warning, whatever follows.
4. `containsPanics`: all of this together.
-/

namespace Supervision

/-! ## Work routines -/

/-- The histories are the same but for work routines that panic in the first one, and that return
the text of the panic as a fault in the second one. -/
inductive SameButPanics : List Move → List Move → Prop
  | nil : SameButPanics [] []
  | cons (m : Move) {moves moves' : List Move} (rest : SameButPanics moves moves') :
      SameButPanics (m :: moves) (m :: moves')
  | panic (run : Nat) (payload : Payload) {moves moves' : List Move}
      (rest : SameButPanics moves moves') :
      SameButPanics (.finish run (.panics payload) :: moves)
        (.finish run (.returns
          (some (.panicked (payload.textOr "non-string panic payload")))) :: moves')

/-- Where a run stands after the callback of a scope. -/
def Scope.next (fault : Option Fault) : Scope → Phase
  | .own => .due .global fault
  | .global => .inLine fault

namespace Supervisor

variable {setup : Setup} {j : Journal} {s t u : Supervisor}

/-- A work routine that panics does the same as one that returns the fault. -/
theorem applyAll_congr {moves moves' : List Move} (h : SameButPanics moves moves') :
    s.applyAll moves = s.applyAll moves' := by
  induction h generalizing s with
  | nil => rfl
  | cons m _ ih =>
      rw [applyAll, applyAll]
      exact Option.bind_congr fun t _ => ih
  | panic run payload _ ih =>
      rw [applyAll, applyAll]
      exact Option.bind_congr fun t _ => ih

/-! ## Journals with the same events -/

theorem rank_nothing (n : Nat) : rank (fun _ => false) n = n := rank_eq_self.mpr fun _ _ => rfl

theorem call?_nothing (call : Call) : ({} : Omission).call? call = some call := by
  obtain ⟨requester, state, dropped⟩ := call
  cases requester <;> simp [Omission.call?, Omission.requester?, rank_nothing]

theorem written?_nothing (entry : Entry) : ({} : Omission).written? entry = some entry := by
  obtain ⟨time, mark⟩ := entry
  cases mark with
  | stopResolved requester verdict =>
      cases requester <;>
        simp [Omission.written?, Omission.mark?, Omission.requester?, rank_nothing]
  | waitResolved n => simp [Omission.written?, Omission.mark?, rank_nothing]
  | _ => rfl

theorem isSpared_nothing (s : Supervisor) : s.IsSpared {} :=
  ⟨fun call _ => call?_nothing call, fun _ _ => rfl⟩

/-- Where nothing is left out, nothing but the journal is different. -/
theorem lacking_nothing (s : Supervisor) (j : Journal) :
    s.lacking {} j = { s with journal := j } := (isSpared_nothing s).lacking_eq j

theorem standIn?_nothing {m : Move} (h : s.apply m = some t) : s.standIn? {} m = some m := by
  cases m with
  | progress p =>
      rw [standIn?, (isSpared_nothing s).counterpart?_eq h]
      rfl
  | drop index => exact (isSpared_nothing s).standIn?_drop h
  | _ => rfl

/-- A move does the same whatever the journal is, as long as the events in it are the same. -/
theorem apply_rebase (reached : Reachable setup s) (same : j.events = s.published) (m : Move) :
    Alike {} s.journal j (s.apply m) (({ s with journal := j } : Supervisor).apply m) := by
  by_cases clock : ∃ time, m = .tick time
  · obtain ⟨time, rfl⟩ := clock
    rw [← lacking_nothing]
    exact tick_alike ⟨fun _ call _ left => by simp [call?_nothing] at left,
      fun _ left => by cases left⟩ (fun call _ left => by simp [call?_nothing] at left) same time
  · have clock : ∀ time, m ≠ .tick time := fun time other => clock ⟨time, other⟩
    have numbered : s.IsNumbered := reached.attained.isNumbered
    cases made : s.apply m with
    | some t =>
        rw [← made, ← lacking_nothing]
        exact apply_alike numbered same (standIn?_nothing made) clock
    | none =>
        -- the journals may change places
        cases made' : ({ s with journal := j } : Supervisor).apply m with
        | none => exact .none
        | some t' =>
            have back := apply_alike (j := s.journal) (s := { s with journal := j }) numbered
              same.symm (standIn?_nothing made') clock
            rw [made', lacking_nothing, made] at back
            cases back

/-- The second state is the first one with another journal; the journals have been `old` and `j`
and have been continued in the same way. -/
def Rebased (old j : Journal) (t t' : Supervisor) : Prop :=
  ∃ new, t.journal = old ++ new ∧ t' = { t with journal := j ++ new }

/-- So a whole history goes on in the same way. -/
theorem applyAll_rebase (reached : Reachable setup s) (same : j.events = s.published)
    (moves : List Move) :
    Option.Rel (Rebased s.journal j) (s.applyAll moves)
      (({ s with journal := j } : Supervisor).applyAll moves) := by
  induction moves generalizing s j with
  | nil => exact .some ⟨[], (List.append_nil _).symm, by rw [List.append_nil]⟩
  | cons m rest ih =>
      have alike := apply_rebase reached same m
      rw [applyAll, applyAll]
      generalize made : s.apply m = result at alike
      generalize ({ s with journal := j } : Supervisor).apply m = result' at alike
      cases alike with
      | none => exact .none
      | @some t t' mirrors =>
          have published : t'.published = t.published := Mirrors.published mirrors same
          obtain ⟨new, grown, rfl⟩ := mirrors
          rw [lacking_nothing] at published ⊢
          have later := ih (reached.step made) published
          show Option.Rel _ (t.applyAll rest) (Supervisor.applyAll _ rest)
          generalize t.applyAll rest = result at later
          generalize Supervisor.applyAll _ rest = result' at later
          cases later with
          | none => exact .none
          | some rebased =>
              obtain ⟨more, grown', rfl⟩ := rebased
              refine .some ⟨new ++ more, by rw [grown', grown, List.append_assoc], ?_⟩
              rw [List.filterMap_congr fun entry _ => written?_nothing entry, List.filterMap_some,
                List.append_assoc]

/-! ## Callbacks -/

/-- The first state is reached with a panic of a callback of the run, the second one with a return
in its place. -/
structure LeavesWarning (u : Supervisor) (number : Nat) (payload : Payload)
    (t t' : Supervisor) : Prop where
  /-- The run and the scope of the callback are named in the warning. -/
  warning : ∃ r scope fault, u.run? number = some r ∧ r.phase = .calling scope fault ∧
    t.journal[u.journal.length]? =
      some ⟨u.now, .recorded (.callbackPanicked r.task.id scope (.ofPanic payload))⟩
  /-- Without the warning, there is no difference. -/
  same : t' = { t with journal := t.journal.eraseIdx u.journal.length }

theorem LeavesWarning.of_rebased {number : Nat} {payload : Payload} {r : Run} {scope : Scope}
    {fault : Option Fault} (found : u.run? number = some r) (phase : r.phase = .calling scope fault)
    {t t' : Supervisor}
    (rebased : Rebased
      (u.journal ++ [⟨u.now, .recorded (.callbackPanicked r.task.id scope (.ofPanic payload))⟩])
      u.journal t t') : LeavesWarning u number payload t t' := by
  obtain ⟨new, grown, rfl⟩ := rebased
  rw [List.append_assoc, List.singleton_append] at grown
  refine ⟨⟨r, scope, fault, found, phase, ?_⟩, ?_⟩
  · rw [grown, List.getElem?_append_right (Nat.le_refl _), Nat.sub_self, List.getElem?_cons_zero]
  · rw [grown, List.eraseIdx_append_of_length_le (Nat.le_refl _), Nat.sub_self,
      List.eraseIdx_cons_zero]

/-- The panic of a callback is a return with a warning, whatever follows. -/
theorem leave_leavesWarning {number : Nat} {payload : Payload}
    (reached : ∀ t, u.leave number (some payload) = some t → Reachable setup t)
    (after : List Move) :
    Option.Rel (LeavesWarning u number payload)
      ((u.leave number (some payload)).bind (applyAll · after))
      ((u.leave number none).bind (applyAll · after)) := by
  by_cases calling : ∃ r scope fault, u.run? number = some r ∧ r.phase = .calling scope fault ∧
      u.isDeferring number = false
  · obtain ⟨r, scope, fault, found, phase, ready⟩ := calling
    have panicked := leave_eq found phase ready (some payload)
    have returned := leave_eq found phase ready none
    rw [panicMarks, writeAll_nil] at returned
    obtain ⟨journal, now⟩ := afterCallback_journal u number scope fault
    generalize u.afterCallback number scope fault = v at panicked returned journal now
    have written : (v.writeAll (panicMarks r.task.id scope (some payload))).journal = u.journal ++
        [⟨u.now, .recorded (.callbackPanicked r.task.id scope (.ofPanic payload))⟩] := by
      rw [← journal, ← now]
      rfl
    -- the warning is no event, so the journal without it serves as well
    have same : u.journal.events =
        (v.writeAll (panicMarks r.task.id scope (some payload))).published := by
      rw [published_writeAll, published, journal]
      exact (List.append_nil _).symm
    have rebased := applyAll_rebase (reached _ panicked) same after
    rw [written, show ({ v.writeAll (panicMarks r.task.id scope (some payload)) with
      journal := u.journal } : Supervisor) = v from journal ▸ rfl] at rebased
    rw [panicked, returned]
    show Option.Rel _ (applyAll _ after) (v.applyAll after)
    generalize applyAll _ after = result at rebased
    generalize v.applyAll after = result' at rebased
    cases rebased with
    | none => exact .none
    | some rebased => exact .some (.of_rebased found phase rebased)
  · have absent : ∀ panic, u.leave number panic = none := by
      intro panic
      exact Option.eq_none_iff_forall_not_mem.mpr fun t left => calling (exists_calling left)
    rw [absent, absent]
    exact .none

/-- A restarter that cannot compute its delay has counted, and then it panics. -/
theorem handTo_overflow {number index draw : Nat} {r : Run} {scope : Scope} {fault : Option Fault}
    {error : Backoff.Overflow} (found : u.run? number = some r)
    (phase : r.phase = .calling scope fault)
    (overflow : u.decision r fault index draw = .overflow error) :
    ∃ streaks, u.handTo number index draw =
      leave { u with streaks } number (some (.text error.message)) := by
  obtain ⟨streaks, consulted⟩ := consult_eq u number r fault index draw
  refine ⟨streaks, ?_⟩
  rw [handTo, found]
  dsimp only
  rw [phase]
  dsimp only
  rw [consulted, overflow]
  split
  · next deferring =>
      -- with a timer to set the callback does not end
      have found : run? { u with streaks } number = some r := by
        cases number <;> exact found
      rw [leave, found]
      dsimp only
      rw [phase]
      exact (if_pos deferring).symm
  · rfl

/-- A callback that has decided on a delay can set the timer of it. -/
theorem exists_arm {number : Nat} (deferring : u.isDeferring number = true) :
    ∃ index d, u.delays[index]? = some d ∧ d.origin = number ∧
      u.apply (.progress (.arm index)) = some (u.setDelay index .pending) := by
  obtain ⟨d, member, here⟩ := List.any_eq_true.mp deferring
  obtain ⟨origin, decided⟩ : d.origin = number ∧ d.state = .decided := by simpa using here
  obtain ⟨index, found⟩ := List.getElem?_of_mem member
  refine ⟨index, d, found, origin, ?_⟩
  simp only [apply, progress, arm, found, if_pos decided]

/-- After the callback of a scope the next one is due, or the outcome waits in line. -/
theorem afterCallback_run? {number : Nat} {r : Run} (found : u.run? number = some r)
    (scope : Scope) (fault : Option Fault) :
    (u.afterCallback number scope fault).run? number =
      some { r with phase := scope.next fault } := by
  cases scope with
  | own => exact afterCallback_own u number fault ▸ run?_withPhase_self found _
  | global =>
      rw [afterCallback_global]
      exact run?_withPhase_self (s := { u with line := u.line ++ [number] }) found _

/-- Panics of work routines and of callbacks are contained. -/
structure ContainsPanics (setup : Setup) : Prop where
  /-- A work routine that panics does in all respects what one does that returns the text of the
  panic as a fault. -/
  routine : ∀ {moves moves' : List Move}, SameButPanics moves moves' →
    (create setup).applyAll moves = (create setup).applyAll moves'
  /-- Whatever has happened and whatever follows, a callback that panics does what one does that
  returns, but for one warning. -/
  callback : ∀ {before after : List Move} {u : Supervisor} {number : Nat} {payload : Payload},
    (create setup).applyAll before = some u →
      Option.Rel (LeavesWarning u number payload)
        (u.applyAll (.panicIn number payload :: after))
        (u.applyAll (.progress (.leave number) :: after))
  /-- This includes the panic of a restarter that cannot compute its delay; it has counted then. -/
  restarter : ∀ {before after : List Move} {u : Supervisor} {number index draw : Nat} {r : Run}
    {scope : Scope} {fault : Option Fault} {error : Backoff.Overflow},
    (create setup).applyAll before = some u → u.run? number = some r →
    r.phase = .calling scope fault → u.decision r fault index draw = .overflow error →
      ∃ streaks, Option.Rel (LeavesWarning { u with streaks } number (.text error.message))
        (u.applyAll (.handTo number index draw :: after))
        (applyAll { u with streaks } (.progress (.leave number) :: after))
  /-- After the panic the other callback is due, or the outcome waits for its delivery. Only a
  callback that is just about to set the timer of a delay does not panic before it has done so. -/
  goesOn : ∀ {u : Supervisor} {number : Nat} {r : Run} {scope : Scope} {fault : Option Fault}
    (payload : Payload), u.run? number = some r → r.phase = .calling scope fault →
      (∃ v, u.apply (.panicIn number payload) = some v ∧
        v.run? number = some { r with phase := scope.next fault }) ∨
      ∃ index d, u.delays[index]? = some d ∧ d.origin = number ∧
        u.apply (.progress (.arm index)) = some (u.setDelay index .pending)

theorem containsPanics (setup : Setup) : ContainsPanics setup where
  routine := applyAll_congr
  callback ran := by
    have reached := reachable_of_applyAll ran
    exact leave_leavesWarning (fun _ panicked => reached.step (m := .panicIn _ _) panicked) _
  restarter ran found phase overflow := by
    have reached := reachable_of_applyAll ran
    obtain ⟨streaks, handed⟩ := handTo_overflow found phase overflow
    refine ⟨streaks, ?_⟩
    rw [applyAll, apply, handed]
    exact leave_leavesWarning
      (fun _ panicked => reached.step (m := .handTo _ _ _) (handed.trans panicked)) _
  goesOn {u number _ _ _} payload found phase := by
    cases ready : u.isDeferring number with
    | true => exact .inr (exists_arm ready)
    | false =>
        exact .inl ⟨_, leave_eq found phase ready (some payload), afterCallback_run? found _ _⟩

end Supervisor

end Supervision
