import Supervision.Proofs.Changes

/-!
# Moves are chains of changes

Results:
1. `progress_feeds`: which changes the listener and the workers make.
2. `simple_cases`, `apply_advances`: a move that submits nothing and decides about no restart is one
   change, and it launches nothing.
3. `fire_eq`, `restart_cases`, `handTo_cases`: what delays and callbacks do about a restart.
4. `apply_chain`: every move is a chain of changes.
5. `Reachable.attained`, `chain_of_leads`: what changes keep, moves keep.
6. `apply_compound`: what a move comes to that is more than one change.
7. `Chain.begun`: what has been started is not unstarted again.
8. `apply_simple`: what only compound moves do.
9. `apply_listener`: only moves of the feed, and the start, concern the listener.
-/

namespace Supervision

/-- Is a move more than one change? Such a move submits a task or lets a callback decide about a
restart. -/
def Move.isCompound : Move → Bool
  | .submit _ | .start | .restart _ _ | .handTo _ _ _ | .progress (.fire _) => true
  | _ => false

/-- Does the progress belong to the feedback of the feed, in which the listener and the workers pass
on what is published and publish more? -/
def Progress.isFeedback : Progress → Bool
  | .listen | .serve _ | .retire _ | .closeListener => true
  | _ => false

/-- Does a move belong to the feed? A waiting subscriber that goes on does, too. -/
def Move.isOfFeed : Move → Bool
  | .letGo _ => true
  | .progress p => p.isFeedback
  | _ => false

/-- The task that a decision about it submits at once. -/
def Decision.submission? (task : Task) : Decision → Option Task
  | .again _ delay => if delay = .zero then some task else none
  | _ => none

namespace Supervisor

/-! ## Moves that are one change -/

variable {s t : Supervisor}

theorem Change.advances {marks : List Mark} {u : Supervisor} (h : Change s marks u) :
    Advances s (u.writeAll marks) := ⟨marks, u, h, rfl⟩

theorem Change.silent {u : Supervisor} (h : Change s [] u) : Advances s u :=
  ⟨[], u, h, (writeAll_nil u).symm⟩

/-- Neither the listener nor the waiting tasks nor the streaks nor the delays change, no run is
added, and nothing is started. -/
structure Keeps (s t : Supervisor) : Prop where
  listener : t.listener = s.listener
  pending : t.pending = s.pending
  length : t.runs.length = s.runs.length
  created : s.stage = .created → t.stage = .created
  streaks : t.streaks = s.streaks
  delays : t.delays = s.delays

/-- One elementary change that keeps the listener, the waiting tasks, the streaks, the delays and
the number of runs, and starts nothing. -/
def Steps (s t : Supervisor) : Prop :=
  ∃ marks u, Change s marks u ∧ Keeps s u ∧ t = u.writeAll marks

theorem Change.steps {marks : List Mark} {u : Supervisor} (h : Change s marks u)
    (keeps : Keeps s u) : Steps s (u.writeAll marks) := ⟨marks, u, h, keeps, rfl⟩

theorem Change.silently {u : Supervisor} (h : Change s [] u) (keeps : Keeps s u) : Steps s u :=
  ⟨[], u, h, keeps, (writeAll_nil u).symm⟩

theorem Steps.advances (h : Steps s t) : Advances s t := by
  obtain ⟨marks, u, change, -, same⟩ := h
  exact ⟨marks, u, change, same⟩

theorem Steps.keeps (h : Steps s t) : Keeps s t := by
  obtain ⟨marks, u, -, keeps, rfl⟩ := h
  exact ⟨keeps.listener, keeps.pending, keeps.length, keeps.created, keeps.streaks,
    keeps.delays⟩

theorem begin_steps {number : Nat} (h : s.begin number = some t) : Steps s t := by
  unfold begin at h
  split at h
  · next r found =>
      split at h
      · next phase =>
          cases h
          cases work : r.task.work with
          | some routine =>
              have step :=
                (Change.course found (.begin phase work)).steps
                  ⟨rfl, rfl, length_runs_modifyRun .., id, rfl, rfl⟩
              simpa [setPhase_eq, mark_eq, record_eq, publish_eq, withPhase_writeAll] using step
          | none =>
              have step :=
                (Change.course found (.beginIdle phase work)).steps
                  ⟨rfl, rfl, length_runs_modifyRun .., id, rfl, rfl⟩
              simpa [setPhase_eq, mark_eq, record_eq, publish_eq, withPhase_writeAll] using step
      · cases h
  · cases h

theorem finish_steps {number : Nat} {ending : Ending} (h : s.finish number ending = some t) :
    Steps s t := by
  unfold finish at h
  split at h
  · next r found =>
      split at h
      · next phase =>
          split at h
          · cases h
          · next free =>
              cases h
              rw [setPhase_eq]
              have free : s.awaitsStop number = false := by simpa using free
              exact (Change.course found (.finish ending phase free)).silently
                ⟨rfl, rfl, length_runs_modifyRun .., id, rfl, rfl⟩
      · cases h
  · cases h

theorem release_steps {number : Nat} (h : s.release number = some t) : Steps s t := by
  unfold release at h
  split at h
  · next r found =>
      split at h
      · next fault phase =>
          cases h
          rw [setPhase_eq, mark_eq, withPhase_writeAll]
          exact (Change.release found phase).steps
            ⟨rfl, rfl, length_runs_modifyRun .., id, rfl, rfl⟩
      · cases h
  · cases h

theorem report_steps {number : Nat} (h : s.report number = some t) : Steps s t := by
  unfold report at h
  split at h
  · next r found =>
      split at h
      · next fault phase =>
          cases h
          rw [setPhase_eq, publish_eq, withPhase_writeAll]
          exact (Change.course found (.report phase)).steps
            ⟨rfl, rfl, length_runs_modifyRun .., id, rfl, rfl⟩
      · cases h
  · cases h

theorem call_steps {number : Nat} (h : s.call number = some t) : Steps s t := by
  unfold call at h
  split at h
  · next r found =>
      split at h
      · next scope fault phase =>
          cases h
          cases callback : s.callback? r.task scope with
          | some c =>
              dsimp only
              rw [setPhase_eq, mark_eq, withPhase_writeAll]
              exact (Change.course found (.call phase callback)).steps
                ⟨rfl, rfl, length_runs_modifyRun .., id, rfl, rfl⟩
          | none =>
              cases scope with
              | own =>
                  rw [afterCallback_own]
                  exact (Change.course found (.pass phase callback)).silently
                    ⟨rfl, rfl, length_runs_modifyRun .., id, rfl, rfl⟩
              | global =>
                  rw [afterCallback_global]
                  exact (Change.lineUp found (.pass phase callback)).silently
                    ⟨rfl, rfl, length_runs_modifyRun .., id, rfl, rfl⟩
      · cases h
  · cases h

theorem afterCallback_steps {number : Nat} {r : Run} {scope : Scope} {fault : Option Fault}
    (found : s.run? number = some r) (phase : r.phase = .calling scope fault)
    (ready : s.isDeferring number = false) (panic : Option Payload) :
    Steps s
      ((s.writeAll (panicMarks r.task.id scope panic)).afterCallback number scope fault) := by
  rw [afterCallback_writeAll]
  cases scope with
  | own =>
      rw [afterCallback_own]
      exact (Change.course found (.leave panic phase ready)).steps
        ⟨rfl, rfl, length_runs_modifyRun .., id, rfl, rfl⟩
  | global =>
      rw [afterCallback_global]
      exact (Change.lineUp found (.leave panic phase ready)).steps
        ⟨rfl, rfl, length_runs_modifyRun .., id, rfl, rfl⟩

/-- What the end of a callback comes to. -/
theorem leave_eq {number : Nat} {r : Run} {scope : Scope} {fault : Option Fault}
    (found : s.run? number = some r) (phase : r.phase = .calling scope fault)
    (ready : s.isDeferring number = false) (panic : Option Payload) :
    s.leave number panic =
      some ((s.afterCallback number scope fault).writeAll (panicMarks r.task.id scope panic)) := by
  rw [← afterCallback_writeAll, leave, found]
  dsimp only
  rw [phase]
  dsimp only
  rw [if_neg (by simp [ready])]
  cases panic with
  | none => rw [panicMarks, writeAll_nil]
  | some payload => rfl

/-- Only a callback that is at work and has no timer to set can end. -/
theorem exists_calling {number : Nat} {panic : Option Payload}
    (h : s.leave number panic = some t) :
    ∃ r scope fault, s.run? number = some r ∧ r.phase = .calling scope fault ∧
      s.isDeferring number = false := by
  unfold leave at h
  split at h
  · next r found =>
      split at h
      · next scope fault phase =>
          split at h
          · cases h
          · next ready => exact ⟨r, scope, fault, found, phase, by simpa using ready⟩
      · cases h
  · cases h

theorem afterCallback_journal (s : Supervisor) (number : Nat) (scope : Scope)
    (fault : Option Fault) : (s.afterCallback number scope fault).journal = s.journal ∧
      (s.afterCallback number scope fault).now = s.now := by
  cases scope with
  | own => exact afterCallback_own s number fault ▸ ⟨rfl, rfl⟩
  | global => exact afterCallback_global s number fault ▸ ⟨rfl, rfl⟩

theorem leave_steps {number : Nat} {panic : Option Payload}
    (h : s.leave number panic = some t) : Steps s t := by
  obtain ⟨r, scope, fault, found, phase, ready⟩ := exists_calling h
  rw [leave_eq found phase ready, ← afterCallback_writeAll, Option.some.injEq] at h
  exact h ▸ afterCallback_steps found phase ready panic

theorem send_steps {number : Nat} (h : s.send number = some t) : Steps s t := by
  unfold send at h
  split at h
  · next r found =>
      split at h
      · next fault phase =>
          dsimp only at h
          split at h
          · next unread =>
              cases h
              rw [setPhase_eq, record_eq]
              exact (Change.discard found phase unread).steps
                ⟨rfl, rfl, length_runs_modifyRun .., id, rfl, rfl⟩
          · next read =>
              split at h
              · next place =>
                  cases h
                  rw [setPhase_eq]
                  exact (Change.send found phase read place).steps
                    ⟨rfl, rfl, length_runs_modifyRun .., id, rfl, rfl⟩
              · cases h
      · cases h
  · cases h

theorem cancelRun_steps {number : Nat} (h : s.cancelRun number = some t) : Steps s t := by
  unfold cancelRun at h
  split at h
  · next r found =>
      split at h
      · cases h
      · next begun =>
          cases h
          have step := (Change.cancelRun found begun).steps
            ⟨rfl, rfl, length_runs_modifyRun .., id, rfl, rfl⟩
          rwa [cancelToken, mark_eq, modifyRun_writeAll, modifyRun_eq]
  · cases h

theorem note_steps {number : Nat} {n : Note} (h : s.note number n = some t) : Steps s t := by
  unfold note at h
  split at h
  · cases h
    exact (Change.remark (.noted number n) rfl).steps ⟨rfl, rfl, rfl, id, rfl, rfl⟩
  · cases h

/-- A delay that is given up is over, and that is all. -/
theorem abandon_eq {index : Nat} (h : s.abandon index = some t) :
    ∃ d, s.delays[index]? = some d ∧ d.state = .pending ∧ s.scopeIsCancelled = true ∧
      t = s.setDelay index .abandoned := by
  unfold abandon at h
  split at h
  · next d found =>
      split at h
      · next guard =>
          cases h
          exact ⟨d, found, guard.1, guard.2, rfl⟩
      · cases h
  · cases h

/-- A delay whose timer is set was decided on before. -/
theorem arm_eq {index : Nat} (h : s.arm index = some t) :
    ∃ d, s.delays[index]? = some d ∧ d.state = .decided ∧ t = s.setDelay index .pending := by
  unfold arm at h
  split at h
  · next d found =>
      split at h
      · next decided =>
          cases h
          exact ⟨d, found, decided, rfl⟩
      · cases h
  · cases h

/-- A notice that is posted was not posted before. -/
theorem post_eq {index : Nat} (h : s.post index = some t) :
    ∃ n, s.notices[index]? = some n ∧ n.posted = false ∧
      t = (s.withPosted index).writeAll n.marks := by
  unfold post at h
  split at h
  · next n found =>
      split at h
      · cases h
      · next unposted =>
          cases h
          exact ⟨n, found, by simpa using unposted, by
            rw [record_eq, publish_eq, writeAll_writeAll]
            rfl⟩
  · cases h

theorem post_steps {index : Nat} (h : s.post index = some t) : Steps s t := by
  obtain ⟨n, found, unposted, rfl⟩ := post_eq h
  exact (Change.post found unposted).steps ⟨rfl, rfl, rfl, id, rfl, rfl⟩

theorem observe_steps (h : s.observe = some t) : Steps s t := by
  unfold observe at h
  split at h
  · next number rest running queue =>
      dsimp only at h
      split at h
      · next missing =>
          cases h
          exact (Change.skip running queue missing).silently ⟨rfl, rfl, rfl, id, rfl, rfl⟩
      · next r found =>
          cases h
          have step := (Change.observe running queue found).steps ⟨rfl, rfl, rfl, id, rfl, rfl⟩
          rwa [record_eq, publish_eq, writeAll_writeAll]
  · cases h

theorem heed_steps {trigger : Trigger} {present : Bool}
    (there : present = true → s.TriggerIsPresent trigger)
    (h : s.heed trigger present = some t) : Steps s t := by
  unfold heed at h
  split at h
  · next guard =>
      cases h
      exact (Change.heed guard.1 guard.2.1 (there guard.2.2)).steps ⟨rfl, rfl, rfl, id, rfl, rfl⟩
  · cases h

theorem exitLoop_steps (h : s.exitLoop = some t) : Steps s t := by
  unfold exitLoop at h
  split at h
  · next guard =>
      cases h
      exact (Change.exitLoop guard.1 guard.2.1 guard.2.2).steps ⟨rfl, rfl, rfl, id, rfl, rfl⟩
  · cases h

theorem proceed_steps {index : Nat} (h : s.proceed index = some t) : Steps s t := by
  unfold proceed at h
  split at h
  · cases h
  · next requester state dropped found =>
      split at h
      · cases h
      next kept =>
      obtain rfl : dropped = false := by simpa using kept
      cases state with
      | called =>
          dsimp only at h
          split at h <;> cases h
          · next created => exact (Change.refuse found created).steps ⟨rfl, rfl, rfl, id, rfl, rfl⟩
          · next started =>
              rw [announce_eq]
              exact (Change.announce found started).steps
                ⟨rfl, rfl, rfl, by simp [started], rfl, rfl⟩
          · next stopped =>
              exact (Change.join found stopped).silently ⟨rfl, rfl, rfl, id, rfl, rfl⟩
      | joining =>
          dsimp only at h
          split at h <;> cases h
          next done => exact (Change.joined found done).steps ⟨rfl, rfl, rfl, id, rfl, rfl⟩
      | announced =>
          cases h
          rw [cancelAll_eq]
          exact (Change.cancelAll found).steps
            ⟨rfl, rfl, length_runs_foldl_cancelToken .., id, rfl, rfl⟩
      | draining deadline =>
          dsimp only at h
          split at h
          · next empty =>
              cases h
              exact (Change.drained found empty).silently ⟨rfl, rfl, rfl, id, rfl, rfl⟩
          · next busy =>
              split at h <;> cases h
              next late =>
                rw [giveUp_eq]
                exact (Change.giveUp found (by simpa using busy) late).steps
                  ⟨rfl, rfl, rfl, id, rfl, rfl⟩
      | awaitingLoop =>
          dsimp only at h
          split at h <;> cases h
          next exited =>
            rw [conclude_eq]
            exact (Change.conclude found exited).steps ⟨rfl, rfl, rfl, id, rfl, rfl⟩
      | resolved verdict => cases h

/-- Only a call from outside or from a work routine that waits for something can be dropped. -/
theorem drop_eq {index : Nat} (h : s.drop index = some t) :
    ∃ requester state, s.calls[index]? = some ⟨requester, state, false⟩ ∧
      (∀ trigger, requester ≠ .loop trigger) ∧ state.isSuspended = true ∧
      t = s.withDropped index := by
  unfold drop at h
  split at h
  · cases h
  · cases h
  · next requester state dropped outside found =>
      split at h
      · next guard =>
          cases h
          obtain ⟨suspended, rfl⟩ := guard
          refine ⟨requester, state, found, ?_, suspended, rfl⟩
          rintro trigger rfl
          exact outside trigger rfl
      · cases h

theorem drop_steps {index : Nat} (h : s.drop index = some t) : Steps s t := by
  obtain ⟨requester, state, found, outside, suspended, rfl⟩ := drop_eq h
  exact (Change.drop found outside suspended).silently ⟨rfl, rfl, rfl, id, rfl, rfl⟩

theorem resolveWait_steps {number : Nat} (h : s.resolveWait number = some t) :
    Steps s t := by
  unfold resolveWait at h
  split at h
  · next guard =>
      cases h
      exact (Change.resolveWait guard.1 guard.2).steps ⟨rfl, rfl, rfl, id, rfl, rfl⟩
  · cases h

/-- A work routine that asks for the teardown makes a call. -/
theorem stopFrom_eq {number : Nat} (h : s.stopFrom number = some t) :
    s.MayCall (.run number) ∧ t = s.addCall (.run number) := by
  unfold stopFrom at h
  split at h
  · next r found =>
      split at h
      · next phase =>
          split at h
          · cases h
          · next free =>
              cases h
              exact ⟨⟨by simpa using free, r, found, phase⟩, rfl⟩
      · cases h
  · cases h

theorem stopFrom_steps {number : Nat} (h : s.stopFrom number = some t) : Steps s t := by
  obtain ⟨may, rfl⟩ := stopFrom_eq h
  exact (Change.addCall (.run number) may).silently ⟨rfl, rfl, rfl, id, rfl, rfl⟩

theorem tick_steps {time : Nat} (h : s.tick time = some t) : Steps s t := by
  unfold tick at h
  split at h
  · next guard =>
      cases h
      exact (Change.tick guard.1 guard.2.1 guard.2.2).silently ⟨rfl, rfl, rfl, id, rfl, rfl⟩
  · cases h

theorem letGo_eq {index : Nat} (h : s.letGo index = some t) :
    ∃ l m m' effects, s.listener = some l ∧ l.mailboxes[index]? = some m ∧
      m.release = some (m', effects) ∧ t = (s.setMailbox l index m').writeAll effects.marks := by
  unfold letGo at h
  obtain ⟨l, found, h⟩ := Option.bind_eq_some_iff.mp h
  obtain ⟨m, mailbox, h⟩ := Option.bind_eq_some_iff.mp h
  obtain ⟨⟨m', effects⟩, released, h⟩ := Option.bind_eq_some_iff.mp h
  cases h
  exact ⟨l, m, m', effects, found, mailbox, released, emit_eq ..⟩

/-- One change by which the listener or a worker passes events on: what it writes down, and the
state it leads to. -/
inductive Feeding (s : Supervisor) : List Mark → Supervisor → Prop
  | lag {l : Listener} {lost position : Nat} (found : s.listener = some l)
      (receiving : l.state = .receiving) (reading : s.nextReading l = (.lagged lost, position)) :
      Feeding s [.recorded (.listenerLagged lost)] { s with listener := some { l with position } }
  | hear {l : Listener} {e : Event} {position : Nat} (found : s.listener = some l)
      (receiving : l.state = .receiving) (reading : s.nextReading l = (.event e, position)) :
      Feeding s (offerAll l.mailboxes e).2.marks
        { s with listener := some ⟨position, if e.isTerminal then .closing else .receiving,
            (offerAll l.mailboxes e).1⟩ }
  | serve {l : Listener} {index : Nat} {m m' : Mailbox} {effects : Effects}
      (found : s.listener = some l) (mailbox : l.mailboxes[index]? = some m)
      (taken : m.take = some (m', effects)) : Feeding s effects.marks (s.setMailbox l index m')
  | retire {l : Listener} {index : Nat} {m m' : Mailbox} (found : s.listener = some l)
      (closed : l.state ≠ .receiving) (mailbox : l.mailboxes[index]? = some m)
      (retired : m.retire = some m') : Feeding s [] (s.setMailbox l index m')
  | closeListener {l : Listener} (found : s.listener = some l) (closing : l.state = .closing)
      (ended : l.mailboxes.all (·.isOver) = true) :
      Feeding s [] { s with listener := some { l with state := .ended } }

/-- The listener or a worker takes a step. -/
def Feeds (s t : Supervisor) : Prop := ∃ marks u, Feeding s marks u ∧ t = u.writeAll marks

theorem Feeding.change {marks : List Mark} {u : Supervisor} (h : Feeding s marks u) :
    Change s marks u := by
  cases h with
  | lag found receiving reading => exact .lag found receiving reading
  | hear found receiving reading => exact .hear found receiving reading
  | serve found mailbox taken => exact .serve found mailbox taken
  | retire found closed mailbox retired => exact .retire found closed mailbox retired
  | closeListener found closing ended => exact .closeListener found closing ended

theorem Feeding.feeds {marks : List Mark} {u : Supervisor} (h : Feeding s marks u) :
    Feeds s (u.writeAll marks) := ⟨marks, u, h, rfl⟩

theorem Feeding.silent {u : Supervisor} (h : Feeding s [] u) : Feeds s u :=
  ⟨[], u, h, (writeAll_nil u).symm⟩

/-- The listener that reads warns of a lag, or it hands an event on. -/
theorem listen_eq (h : s.listen = some t) :
    ∃ l, s.listener = some l ∧ l.state = .receiving ∧
      ((∃ lost position, s.nextReading l = (.lagged lost, position) ∧
        t = ({ s with listener := some { l with position } } : Supervisor).writeAll
          [.recorded (.listenerLagged lost)]) ∨
      ∃ e position, s.nextReading l = (.event e, position) ∧
        t = ({ s with listener := some ⟨position, if e.isTerminal then .closing else .receiving,
            (offerAll l.mailboxes e).1⟩ } : Supervisor).writeAll
          (offerAll l.mailboxes e).2.marks) := by
  unfold listen at h
  split at h
  · cases h
  · next l found =>
      split at h
      · cases h
      · next receiving =>
          have receiving : l.state = .receiving := by simpa using receiving
          split at h
          · cases h
          · next lost position reading =>
              cases h
              exact ⟨l, found, receiving, .inl ⟨lost, position, reading, rfl⟩⟩
          · next e position reading =>
              cases h
              exact ⟨l, found, receiving, .inr ⟨e, position, reading, emit_eq ..⟩⟩

theorem listen_feeds (h : s.listen = some t) : Feeds s t := by
  obtain ⟨l, found, receiving, ⟨lost, position, reading, rfl⟩ | ⟨e, position, reading, rfl⟩⟩ :=
    listen_eq h
  · exact (Feeding.lag found receiving reading).feeds
  · exact (Feeding.hear found receiving reading).feeds

theorem serve_eq {index : Nat} (h : s.serve index = some t) :
    ∃ l m m' effects, s.listener = some l ∧ l.mailboxes[index]? = some m ∧
      m.take = some (m', effects) ∧ t = (s.setMailbox l index m').writeAll effects.marks := by
  unfold serve at h
  obtain ⟨l, found, h⟩ := Option.bind_eq_some_iff.mp h
  obtain ⟨m, mailbox, h⟩ := Option.bind_eq_some_iff.mp h
  obtain ⟨⟨m', effects⟩, taken, h⟩ := Option.bind_eq_some_iff.mp h
  cases h
  exact ⟨l, m, m', effects, found, mailbox, taken, emit_eq ..⟩

theorem serve_feeds {index : Nat} (h : s.serve index = some t) : Feeds s t := by
  obtain ⟨l, m, m', effects, found, mailbox, taken, rfl⟩ := serve_eq h
  exact (Feeding.serve found mailbox taken).feeds

theorem retire_eq {index : Nat} (h : s.retire index = some t) :
    ∃ l m m', s.listener = some l ∧ l.state ≠ .receiving ∧ l.mailboxes[index]? = some m ∧
      m.retire = some m' ∧ t = s.setMailbox l index m' := by
  unfold retire at h
  obtain ⟨l, found, h⟩ := Option.bind_eq_some_iff.mp h
  split at h
  · cases h
  · next closed =>
      obtain ⟨m, mailbox, h⟩ := Option.bind_eq_some_iff.mp h
      obtain ⟨m', retired, h⟩ := Option.bind_eq_some_iff.mp h
      cases h
      exact ⟨l, m, m', found, closed, mailbox, retired, rfl⟩

theorem retire_feeds {index : Nat} (h : s.retire index = some t) : Feeds s t := by
  obtain ⟨l, m, m', found, closed, mailbox, retired, rfl⟩ := retire_eq h
  exact (Feeding.retire found closed mailbox retired).silent

theorem closeListener_eq (h : s.closeListener = some t) :
    ∃ l, s.listener = some l ∧ l.state = .closing ∧ l.mailboxes.all (·.isOver) = true ∧
      t = { s with listener := some { l with state := .ended } } := by
  unfold closeListener at h
  split at h
  · next l found =>
      split at h
      · next guard =>
          cases h
          exact ⟨l, found, guard.1, guard.2, rfl⟩
      · cases h
  · cases h

theorem closeListener_feeds (h : s.closeListener = some t) : Feeds s t := by
  obtain ⟨l, found, closing, ended, rfl⟩ := closeListener_eq h
  exact (Feeding.closeListener found closing ended).silent

/-- Whatever belongs to the feedback is a step of the listener or of a worker. -/
theorem progress_feeds {p : Progress} (feedback : p.isFeedback = true)
    (h : s.progress p = some t) : Feeds s t := by
  cases p with
  | listen => exact listen_feeds h
  | serve => exact serve_feeds h
  | retire => exact retire_feeds h
  | closeListener => exact closeListener_feeds h
  | _ => cases feedback

/-! ## Moves that submit or decide about a restart -/

theorem submit_chain (s : Supervisor) (task : Task) (origin : Option Nat)
    (grounds : ∀ number, origin = some number → s.Grounds number task) :
    Chain s (s.submit task origin) := by
  unfold submit
  split
  · next created =>
      exact .single (Change.enqueue task created).silent
  · next started =>
      rw [launch_eq]
      exact .single (Change.launch task origin started grounds).advances
  · exact .single (Change.remark (.recorded (.submissionDropped task.id)) rfl).advances

/-- A delay that fires was pending and is due, and its task is submitted. -/
theorem fire_eq {index : Nat} (h : s.fire index = some t) :
    ∃ d, s.delays[index]? = some d ∧ d.state = .pending ∧ d.due ≤ s.now ∧
      t = (s.setDelay index .fired).submit d.task (some d.origin) := by
  unfold fire at h
  split at h
  · next d found =>
      split at h
      · next guard =>
          cases h
          exact ⟨d, found, guard.1, guard.2, rfl⟩
      · cases h
  · cases h

theorem fire_chain {index : Nat} (h : s.fire index = some t) : Chain s t := by
  obtain ⟨d, found, pending, due, rfl⟩ := fire_eq h
  refine .head (Change.fire found pending due).silent (submit_chain _ _ _ ?_)
  rintro _ ⟨⟩
  refine .delay (d := { d with state := .fired }) ?_ rfl rfl rfl
  refine List.mem_of_getElem? (i := index) ?_
  simp [setDelay, found]

section Restarts

variable {number index draw : Nat} {policy : RestartPolicy} {r : Run} {scope : Scope}
  {fault : Option Fault}

/-- What becomes of a supervisor whose callback restarts the task of a run. -/
inductive RestartStep (s : Supervisor) (number : Nat) (policy : RestartPolicy) (r : Run)
    (fault : Option Fault) : Supervisor → Prop
  | unwanted (unwanted : policy.wants fault = false) : s.RestartStep number policy r fault s
  | cancelled (cancelled : s.tokenIsCancelled r = true) :
      s.RestartStep number policy r fault (s.record (.notRestarting r.task.id))
  | stopped (stopped : s.isStopped = true) : s.RestartStep number policy r fault s
  | again (wanted : policy.wants fault = true) (kept : s.tokenIsCancelled r = false)
      (alive : s.isStopped = false) :
      s.RestartStep number policy r fault
        ((s.record (.restarting r.task.id)).submit r.task (some number))

theorem restart_cases (h : s.restart number policy = some t) :
    ∃ r scope fault, s.run? number = some r ∧ r.phase = .calling scope fault ∧
      s.RestartStep number policy r fault t := by
  unfold restart at h
  split at h
  · next r found =>
      split at h
      · next scope fault phase =>
          split at h
          · cases h
          cases h
          refine ⟨r, scope, fault, found, phase, ?_⟩
          cases wanted : policy.wants fault with
          | false => exact .unwanted wanted
          | true =>
              rw [if_pos rfl, resubmit]
              cases kept : s.tokenIsCancelled r with
              | true => exact .cancelled kept
              | false => cases alive : s.isStopped with
                | true => exact .stopped alive
                | false => exact .again wanted kept alive
      · cases h
  · cases h

theorem restart_chain (h : s.restart number policy = some t) : Chain s t := by
  obtain ⟨r, scope, fault, found, phase, step⟩ := restart_cases h
  cases step with
  | unwanted | stopped => exact .refl
  | cancelled => exact .single (Change.remark (.recorded (.notRestarting r.task.id)) rfl).advances
  | again _ kept _ =>
      refine .head (Change.remark (.recorded (.restarting r.task.id)) rfl).advances ?_
      refine submit_chain (s.record (.restarting r.task.id)) r.task (some number) ?_
      rintro _ ⟨⟩
      exact .callback found phase kept rfl

/-- A restarter asks for a restart only if the run is not cancelled and the supervisor is not
stopped. -/
theorem decide_again {restarter : Restarter} {streaks streaks' : Streaks} {id : String}
    {fault : Option Fault} {cancelled stopped : Bool} {draw streak : Nat} {delay : Duration}
    (h : restarter.decide streaks id fault cancelled stopped draw =
      (streaks', .again streak delay)) : cancelled = false ∧ stopped = false := by
  unfold Restarter.decide at h
  split at h
  · cases h
  · split at h
    · cases h
    · next kept =>
        split at h
        · cases h
        · next alive => exact ⟨by simpa using kept, by simpa using alive⟩

/-- What a restarter decides about a run that has ended with the fault. Without the restarter
nothing is wanted. -/
def decision (s : Supervisor) (r : Run) (fault : Option Fault) (index draw : Nat) : Decision :=
  match s.setup.restarters[index]?, s.streaks[index]? with
  | some restarter, some streaks =>
      (restarter.decide streaks r.task.id fault (s.tokenIsCancelled r) s.isStopped draw).2
  | _, _ => .unwanted

/-- So does a restarter that is consulted about a run. -/
theorem decision_again {streak : Nat} {delay : Duration}
    (h : s.decision r fault index draw = .again streak delay) :
    s.tokenIsCancelled r = false ∧ s.isStopped = false := by
  unfold decision at h
  split at h
  · exact decide_again (Prod.ext rfl h)
  · cases h

/-- A restarter counts and then carries out its decision. -/
theorem consult_eq (s : Supervisor) (number : Nat) (r : Run) (fault : Option Fault)
    (index draw : Nat) :
    ∃ streaks, s.consult number r fault index draw =
      { s with streaks }.enact number r.task (s.decision r fault index draw) := by
  unfold consult decision
  cases s.setup.restarters[index]? with
  | none => exact ⟨s.streaks, rfl⟩
  | some restarter => cases s.streaks[index]? with
    | none => exact ⟨s.streaks, rfl⟩
    | some streaks => exact ⟨_, rfl⟩

/-- A restarter that panics has done no more than to count. -/
theorem enact_panics {u v : Supervisor} {number : Nat} {task : Task} {decision : Decision}
    {payload : Payload} (h : u.enact number task decision = (v, some payload)) :
    v = u ∧ decision.submission? task = none := by
  cases decision <;> cases h
  exact ⟨rfl, rfl⟩

/-- A restarter counts and carries its decision out, unless that raises a panic, which ends the
callback. -/
theorem handTo_cases (h : s.handTo number index draw = some t) :
    ∃ r scope fault streaks, s.run? number = some r ∧ r.phase = .calling scope fault ∧
      (({ s with streaks } : Supervisor).enact number r.task (s.decision r fault index draw) =
          (t, none) ∨
        ∃ payload, (s.decision r fault index draw).submission? r.task = none ∧
          ({ s with streaks } : Supervisor).leave number (some payload) = some t) := by
  unfold handTo at h
  split at h
  · next r found =>
      split at h
      · next scope fault phase =>
          split at h
          · cases h
          obtain ⟨streaks, consulted⟩ := consult_eq s number r fault index draw
          rw [consulted] at h
          refine ⟨r, scope, fault, streaks, found, phase, ?_⟩
          split at h
          · next u enacted =>
              cases h
              exact .inl enacted
          · next u payload enacted =>
              obtain ⟨rfl, none⟩ := enact_panics enacted
              exact .inr ⟨payload, none, h⟩
      · cases h
  · cases h

theorem submitAfter_chain (found : s.run? number = some r) (phase : r.phase = .calling scope fault)
    (kept : s.tokenIsCancelled r = false) (alive : s.stage ≠ .stopped) (delay : Duration) :
    Chain s (s.submitAfter r.task number delay) := by
  unfold submitAfter
  split
  · refine submit_chain s r.task (some number) ?_
    rintro _ ⟨⟩
    exact .callback found phase kept rfl
  · next later => exact .single (Change.defer delay found phase kept alive later).silent

theorem enact_chain (found : s.run? number = some r) (phase : r.phase = .calling scope fault)
    {decision : Decision}
    (asked : ∀ streak delay, decision = .again streak delay →
      s.tokenIsCancelled r = false ∧ s.stage ≠ .stopped) :
    Chain s (s.enact number r.task decision).1 := by
  cases decision with
  | unwanted | stopped | overflow => exact .refl
  | cancelled => exact .single (Change.remark (.recorded (.notRestarting r.task.id)) rfl).advances
  | exhausted streak =>
      exact .single (Change.remark (.recorded (.budgetExhausted r.task.id streak)) rfl).advances
  | again streak delay =>
      obtain ⟨kept, alive⟩ := asked streak delay rfl
      refine .head
        (Change.remark (.recorded (.restartingAfter r.task.id streak delay)) rfl).advances ?_
      exact submitAfter_chain
        (s := s.record (.restartingAfter r.task.id streak delay)) found phase kept alive delay

theorem handTo_chain (h : s.handTo number index draw = some t) : Chain s t := by
  obtain ⟨r, scope, fault, streaks, found, phase, enacted | ⟨payload, -, left⟩⟩ := handTo_cases h
  · have asked : ∀ streak delay, s.decision r fault index draw = .again streak delay →
        s.tokenIsCancelled r = false ∧ s.stage ≠ .stopped := by
      intro streak delay again
      obtain ⟨kept, alive⟩ := decision_again again
      exact ⟨kept, by simpa [isStopped] using alive⟩
    have chain := enact_chain (s := { s with streaks }) found phase asked
    rw [enacted] at chain
    exact .head (Change.count streaks).silent chain
  · exact .head (Change.count streaks).silent (.single (leave_steps left).advances)

end Restarts

theorem launches_chain (tasks : List Task) (started : s.stage = .started) :
    Chain s (tasks.foldl (fun s task => s.launch task none) s) := by
  induction tasks generalizing s with
  | nil => exact .refl
  | cons task rest ih =>
      have launched : Advances s (s.launch task none) := by
        rw [launch_eq]
        exact (Change.launch task none started (by simp)).advances
      refine .head launched (ih ?_)
      rw [launch_eq]
      exact started

theorem start_chain (h : s.start = .ok t) : Chain s t := by
  unfold start at h
  split at h
  · cases h
    exact .refl
  · cases h
  · next created =>
      cases h
      refine .head (Change.opened created).silent ?_
      refine .head (Change.remark (.recorded (.started s.pending.length)) rfl).advances ?_
      exact launches_chain s.pending rfl

/-! ## All moves -/

/-- A move of the feed is one change, which concerns the listener and the journal only. -/
theorem apply_feed {m : Move} (feed : m.isOfFeed = true) (h : s.apply m = some t) :
    Advances s t ∧ ∃ listener journal, t = { s with listener, journal } := by
  cases m with
  | letGo index =>
      obtain ⟨l, m, m', effects, found, mailbox, released, rfl⟩ := letGo_eq h
      exact ⟨(Change.letGo found mailbox released).advances, _, _, rfl⟩
  | progress p =>
      obtain ⟨marks, u, feeding, rfl⟩ := progress_feeds feed h
      refine ⟨feeding.change.advances, ?_⟩
      cases feeding <;> exact ⟨_, _, rfl⟩
  | _ => cases feed

/-- What a move that is not compound comes to: one change that leaves the feed and the delays alone,
or a delay that is given up or whose timer is set, or a change that concerns the feed only. -/
inductive SimpleStep (s : Supervisor) (m : Move) (t : Supervisor) : Prop
  | steps (steps : Steps s t)
  | abandon {k : Nat} {d : Delay} (own : m = .progress (.abandon k))
      (found : s.delays[k]? = some d) (pending : d.state = .pending)
      (ended : s.scopeIsCancelled = true) (after : t = s.setDelay k .abandoned)
  | arm {k : Nat} {d : Delay} (own : m = .progress (.arm k)) (found : s.delays[k]? = some d)
      (decided : d.state = .decided) (after : t = s.setDelay k .pending)
  | feed (feed : m.isOfFeed = true) (advances : Advances s t)
      (aside : ∃ listener journal, t = { s with listener, journal })

theorem simple_cases {m : Move} (simple : m.isCompound = false) (h : s.apply m = some t) :
    SimpleStep s m t := by
  have feed (feed : m.isOfFeed = true) : SimpleStep s m t := by
    obtain ⟨advances, aside⟩ := apply_feed feed h
    exact .feed feed advances aside
  cases m with
  | submit | start | restart | handTo => cases simple
  | letGo => exact feed rfl
  | progress p => cases p with
    | fire => cases simple
    | listen | serve | retire | closeListener => exact feed rfl
    | begin => exact .steps (begin_steps h)
    | release => exact .steps (release_steps h)
    | report => exact .steps (report_steps h)
    | call => exact .steps (call_steps h)
    | leave run =>
        have h : s.leave run none = some t := h
        exact .steps (leave_steps h)
    | send => exact .steps (send_steps h)
    | abandon =>
        obtain ⟨d, found, pending, ended, after⟩ := abandon_eq h
        exact .abandon rfl found pending ended after
    | arm =>
        obtain ⟨d, found, decided, after⟩ := arm_eq h
        exact .arm rfl found decided after
    | post => exact .steps (post_steps h)
    | observe => exact .steps (observe_steps h)
    | heedInterrupt =>
        have h : s.heed .interrupt (s.setup.interruptible && s.interrupted) = some t := h
        exact .steps (heed_steps (by simp [TriggerIsPresent]) h)
    | heedParent =>
        have h : s.heed .parentCancelled s.parentCancelled = some t := h
        exact .steps (heed_steps id h)
    | exitLoop => exact .steps (exitLoop_steps h)
    | proceed => exact .steps (proceed_steps h)
    | resolveWait => exact .steps (resolveWait_steps h)
  | stop =>
      cases h
      exact .steps ((Change.addCall (.caller s.callers) rfl).silently ⟨rfl, rfl, rfl, id, rfl, rfl⟩)
  | wait =>
      cases h
      exact .steps (Change.addWait.silently ⟨rfl, rfl, rfl, id, rfl, rfl⟩)
  | interrupt =>
      cases h
      exact .steps (Change.interrupt.silently ⟨rfl, rfl, rfl, id, rfl, rfl⟩)
  | cancelParent =>
      cases h
      exact .steps (Change.cancelParent.silently ⟨rfl, rfl, rfl, id, rfl, rfl⟩)
  | cancelScope =>
      cases h
      exact .steps (Change.cancelScope.silently ⟨rfl, rfl, rfl, id, rfl, rfl⟩)
  | stopFrom => exact .steps (stopFrom_steps h)
  | drop => exact .steps (drop_steps h)
  | cancelRun => exact .steps (cancelRun_steps h)
  | finish => exact .steps (finish_steps h)
  | panicIn run payload =>
      have h : s.leave run (some payload) = some t := h
      exact .steps (leave_steps h)
  | note => exact .steps (note_steps h)
  | tick => exact .steps (tick_steps h)

/-- A move that is not compound is one change. -/
theorem apply_advances {m : Move} (simple : m.isCompound = false) (h : s.apply m = some t) :
    Advances s t := by
  cases simple_cases simple h with
  | steps steps => exact steps.advances
  | abandon _ found pending ended after => exact after ▸ (Change.abandon found pending ended).silent
  | arm _ found decided after => exact after ▸ (Change.arm found decided).silent
  | feed _ advances => exact advances

/-- Every move is a chain of changes. -/
theorem apply_chain {m : Move} (h : s.apply m = some t) : Chain s t := by
  cases compound : m.isCompound with
  | false => exact .single (apply_advances compound h)
  | true => cases m with
    | submit task =>
        cases h
        exact submit_chain s task none (by simp)
    | start =>
        cases started : s.start with
        | ok u =>
            simp only [apply, started, Option.some.injEq] at h
            exact h ▸ start_chain started
        | error e =>
            simp only [apply, started, Option.some.injEq] at h
            exact h ▸ .refl
    | restart => exact restart_chain h
    | handTo => exact handTo_chain h
    | progress p => cases p with
      | fire => exact fire_chain h
      | _ => cases compound
    | _ => cases compound

theorem chain_of_leads (h : Leads s t) : Chain s t := by
  induction h with
  | refl => exact .refl
  | step _ happly ih => exact ih.trans (apply_chain happly)

theorem Reachable.attained {setup : Setup} (h : Reachable setup s) : Attained setup s := by
  induction h with
  | init => exact .refl
  | step _ happly ih => exact ih.trans (apply_chain happly)

/-! ## What compound moves come to -/

/-- The states differ in nothing but the delays, the streaks and the journal. -/
def Prepares (s u : Supervisor) : Prop :=
  ∃ delays streaks journal, u = { s with delays, streaks, journal }

/-- The task that a move submits, if it submits one: the given one, the task of a delay, or the task
of a run whose callback restarts it at once. -/
def submission? (s : Supervisor) : Move → Option Task
  | .submit task => some task
  | .progress (.fire delay) => (s.delays[delay]?).map (·.task)
  | .restart number policy => match s.run? number with
    | some r => match r.phase with
      | .calling _ fault =>
          if policy.wants fault && !s.tokenIsCancelled r && !s.isStopped then some r.task else none
      | _ => none
    | none => none
  | .handTo number index draw => match s.run? number with
    | some r => match r.phase with
      | .calling _ fault => (s.decision r fault index draw).submission? r.task
      | _ => none
    | none => none
  | _ => none

/-- What a compound move comes to that submits the task, if it submits one: a submission after some
preparations, or no more than these, or the start, or the end of a callback whose restarter has
raised a panic. -/
inductive Compound (s : Supervisor) (submitted : Option Task) (t : Supervisor) : Prop
  | idle (prepared : s.Prepares t) (own : submitted = none)
  | submit {u : Supervisor} (prepared : s.Prepares u) (task : Task) (origin : Option Nat)
      (after : t = u.submit task origin) (own : submitted = some task)
  | start (created : s.stage = .created) (started : s.start = .ok t) (own : submitted = none)
  | leave {streaks : List Streaks} {number : Nat} {payload : Payload}
      (left : ({ s with streaks } : Supervisor).leave number (some payload) = some t)
      (own : submitted = none)

theorem start_compound (h : s.start = .ok t) : Compound s none t := by
  cases stage : s.stage with
  | created => exact .start stage h rfl
  | started =>
      rw [start, stage] at h
      cases h
      exact .idle ⟨_, _, _, rfl⟩ rfl
  | stopped =>
      rw [start, stage] at h
      cases h

theorem restart_compound {number : Nat} {policy : RestartPolicy}
    (h : s.restart number policy = some t) :
    Compound s (s.submission? (.restart number policy)) t := by
  obtain ⟨r, scope, fault, found, phase, step⟩ := restart_cases h
  cases step with
  | unwanted unwanted =>
      exact .idle ⟨_, _, _, rfl⟩ (by simp [submission?, found, phase, unwanted])
  | cancelled cancelled =>
      exact .idle ⟨_, _, _, rfl⟩ (by simp [submission?, found, phase, cancelled])
  | stopped stopped =>
      exact .idle ⟨_, _, _, rfl⟩ (by simp [submission?, found, phase, stopped])
  | again wanted kept alive =>
      exact .submit ⟨_, _, _, rfl⟩ r.task (some number) rfl
        (by simp [submission?, found, phase, wanted, kept, alive])

theorem enact_compound (s : Supervisor) (streaks : List Streaks) (number : Nat) (task : Task)
    (decision : Decision) : Compound s (decision.submission? task)
      (({ s with streaks } : Supervisor).enact number task decision).1 := by
  cases decision with
  | unwanted | stopped | cancelled | exhausted | overflow => exact .idle ⟨_, _, _, rfl⟩ rfl
  | again streak delay =>
      simp only [enact, submitAfter]
      split
      · next now => exact .submit ⟨_, _, _, rfl⟩ task (some number) rfl (if_pos now)
      · next later => exact .idle ⟨_, _, _, rfl⟩ (if_neg later)

theorem handTo_compound {number index draw : Nat} (h : s.handTo number index draw = some t) :
    Compound s (s.submission? (.handTo number index draw)) t := by
  obtain ⟨r, scope, fault, streaks, found, phase, how⟩ := handTo_cases h
  have own : s.submission? (.handTo number index draw) =
      (s.decision r fault index draw).submission? r.task := by
    simp only [submission?, found, phase]
  rw [own]
  rcases how with enacted | ⟨payload, none, left⟩
  · have compound := enact_compound s streaks number r.task (s.decision r fault index draw)
    rwa [enacted] at compound
  · exact .leave left none

theorem fire_compound {index : Nat} (h : s.fire index = some t) :
    Compound s (s.submission? (.progress (.fire index))) t := by
  obtain ⟨d, found, -, -, rfl⟩ := fire_eq h
  exact .submit ⟨_, _, _, rfl⟩ d.task (some d.origin) rfl (by simp [submission?, found])

theorem apply_compound {m : Move} (compound : m.isCompound = true) (h : s.apply m = some t) :
    Compound s (s.submission? m) t := by
  cases m with
  | submit task =>
      cases h
      exact .submit ⟨_, _, _, rfl⟩ task none rfl rfl
  | start =>
      cases started : s.start with
      | ok u =>
          simp only [apply, started, Option.some.injEq] at h
          exact h ▸ start_compound started
      | error e =>
          simp only [apply, started, Option.some.injEq] at h
          exact h ▸ .idle ⟨_, _, _, rfl⟩ rfl
  | restart => exact restart_compound h
  | handTo => exact handTo_compound h
  | progress p => cases p with
    | fire => exact fire_compound h
    | _ => cases compound
  | _ => cases compound

/-! ## What moves outside the feed leave alone -/

/-- A supervisor that has been started stays so. -/
theorem Change.begun {marks : List Mark} (h : Change s marks t) (begun : s.stage ≠ .created) :
    t.stage ≠ .created := by
  cases h
  case opened | announce => exact Stage.noConfusion
  all_goals exact begun

theorem Chain.begun (h : Chain s t) (begun : s.stage ≠ .created) : t.stage ≠ .created := by
  induction h with
  | refl => exact begun
  | tail _ advances ih =>
      obtain ⟨marks, u, change, rfl⟩ := advances
      exact change.begun ih

/-- A move that is not compound leaves the waiting tasks and the streaks alone, launches nothing and
starts nothing. -/
theorem apply_simple {m : Move} (simple : m.isCompound = false) (h : s.apply m = some t) :
    t.pending = s.pending ∧ t.runs.length = s.runs.length ∧
      (s.stage = .created → t.stage = .created) ∧ t.streaks = s.streaks := by
  cases simple_cases simple h with
  | steps steps =>
      have keeps := steps.keeps
      exact ⟨keeps.pending, keeps.length, keeps.created, keeps.streaks⟩
  | abandon _ _ _ _ after => exact after ▸ ⟨rfl, rfl, id, rfl⟩
  | arm _ _ _ after => exact after ▸ ⟨rfl, rfl, id, rfl⟩
  | feed _ _ aside =>
      obtain ⟨_, _, rfl⟩ := aside
      exact ⟨rfl, rfl, id, rfl⟩

theorem submission?_of_simple {m : Move} (simple : m.isCompound = false) :
    s.submission? m = none := by
  cases m with
  | submit | restart | handTo => cases simple
  | progress p => cases p with
    | fire => cases simple
    | _ => rfl
  | _ => rfl

/-- Neither the listener nor the streaks nor the delays nor the clock change. -/
structure KeepsAside (s t : Supervisor) : Prop where
  listener : t.listener = s.listener
  streaks : t.streaks = s.streaks
  delays : t.delays = s.delays
  now : t.now = s.now

theorem submit_keeps (s : Supervisor) (task : Task) (origin : Option Nat) :
    KeepsAside s (s.submit task origin) := by
  unfold submit
  split
  · exact ⟨rfl, rfl, rfl, rfl⟩
  · rw [launch_eq]
    exact ⟨rfl, rfl, rfl, rfl⟩
  · exact ⟨rfl, rfl, rfl, rfl⟩

theorem launches_keep (tasks : List Task) (s : Supervisor) :
    KeepsAside s (tasks.foldl (fun s task => s.launch task none) s) := by
  induction tasks generalizing s with
  | nil => exact ⟨rfl, rfl, rfl, rfl⟩
  | cons task rest ih =>
      have later := ih (s.launch task none)
      rw [launch_eq] at later
      rw [List.foldl_cons, launch_eq]
      exact ⟨later.listener, later.streaks, later.delays, later.now⟩

theorem restart_keeps {number : Nat} {policy : RestartPolicy}
    (h : s.restart number policy = some t) : KeepsAside s t := by
  obtain ⟨r, scope, fault, -, -, step⟩ := restart_cases h
  cases step with
  | unwanted | cancelled | stopped => exact ⟨rfl, rfl, rfl, rfl⟩
  | again =>
      have kept := submit_keeps (s.record (.restarting r.task.id)) r.task (some number)
      exact ⟨kept.listener, kept.streaks, kept.delays, kept.now⟩

/-- A move outside the feed leaves the listener alone, unless it starts the supervisor. -/
theorem apply_listener {m : Move} (outside : m.isOfFeed = false) (h : s.apply m = some t) :
    t.listener = s.listener ∨ s.stage = .created ∧ t.listener = s.openListener := by
  cases compound : m.isCompound with
  | false => cases simple_cases compound h with
    | steps steps => exact .inl steps.keeps.listener
    | abandon _ _ _ _ after => exact .inl (after ▸ rfl)
    | arm _ _ _ after => exact .inl (after ▸ rfl)
    | feed feed =>
        rw [outside] at feed
        cases feed
  | true => cases apply_compound compound h with
    | idle prepared =>
        obtain ⟨_, _, _, rfl⟩ := prepared
        exact .inl rfl
    | submit prepared task origin submitted =>
        obtain ⟨delays, streaks, journal, rfl⟩ := prepared
        exact .inl (submitted ▸ (submit_keeps _ task origin).listener)
    | start created started =>
        rw [start, created] at started
        cases started
        exact .inr ⟨created, (launches_keep s.pending _).listener⟩
    | leave left => exact .inl (leave_steps left).keeps.listener

end Supervisor

end Supervision
