import Supervision.Proofs.Conduct
import Supervision.Proofs.Feedback
import Supervision.Proofs.Histories
import Supervision.Proofs.Quiescence

/-!
# What the listener hears and what the subscribers get

The listener reads the feed from the start on. It hands every event on, in its place, unless the
ring has dropped the event before; then it warns of exactly the events that it has lost. After a
terminal event it reads no more. A mailbox keeps what it is offered in order, unless its queue is
full or its subscriber dies.

Results:
1. `apply_feedMove`: what a move means to the listener.
2. `Reads`: how what is read and what is told of it fit together.
3. `Mailbox.KeepsUp`: when a mailbox has everything that was handed on.
4. `delivery`: what has come of the events since the start, after any moves.
-/

namespace Supervision

/-- The event that was read. -/
def Reading.event? : Reading → Option Event
  | .event e => some e
  | _ => none

/-- The number of lost events that a record warns of. -/
def Record.lag? : Record → Option Nat
  | .listenerLagged lost => some lost
  | _ => none

/-! ## What is told of a stretch of the feed -/

/-- What the listener does when it reads the feed: it passes an event on, or it warns that some are
lost. -/
inductive Hearing
  | passed (event : Event)
  | warned (lost : Nat)
deriving DecidableEq, Repr

namespace Hearing

def event? : Hearing → Option Event
  | .passed event => some event
  | .warned _ => none

def lost : Hearing → Nat
  | .passed _ => 0
  | .warned lost => lost

end Hearing

/-- The events that were passed on, in order. -/
def forwarded (told : List Hearing) : List Event := told.filterMap Hearing.event?

@[simp] theorem forwarded_passed (told : List Hearing) (e : Event) :
    forwarded (told ++ [.passed e]) = forwarded told ++ [e] := by
  simp [forwarded, Hearing.event?]

@[simp] theorem forwarded_warned (told : List Hearing) (lost : Nat) :
    forwarded (told ++ [.warned lost]) = forwarded told := by
  rw [forwarded, List.filterMap_append]
  exact List.append_nil _

/-- A stretch of the feed was read: every event was passed on in its place, or it is one of those
that a warning counts. No warning is idle. -/
inductive Reads : List Event → List Hearing → Prop
  | nil : Reads [] []
  | pass {stretch : List Event} {told : List Hearing} (h : Reads stretch told) (e : Event) :
      Reads (stretch ++ [e]) (told ++ [.passed e])
  | skip {stretch skipped : List Event} {told : List Hearing} (h : Reads stretch told)
      (some : skipped ≠ []) : Reads (stretch ++ skipped) (told ++ [.warned skipped.length])

namespace Reads

variable {stretch : List Event} {told : List Hearing}

theorem sublist (h : Reads stretch told) : (forwarded told).Sublist stretch := by
  induction h with
  | nil => exact .refl _
  | pass _ e ih =>
      rw [forwarded_passed]
      exact ih.append (.refl [e])
  | @skip _ skipped _ _ _ ih =>
      rw [forwarded_warned]
      exact ih.trans (List.sublist_append_left _ skipped)

theorem length (h : Reads stretch told) :
    stretch.length = (forwarded told).length + (told.map Hearing.lost).sum := by
  induction h with
  | nil => rfl
  | pass _ e ih | skip _ _ ih =>
      simp only [List.length_append, forwarded_passed, forwarded_warned, List.map_append,
        List.sum_append, ih, List.map_cons, List.map_nil, List.sum_cons, List.sum_nil, Hearing.lost,
        List.length_singleton]
      omega

/-- Without a warning everything was passed on. -/
theorem eq_forwarded (h : Reads stretch told) (lossless : ∀ lost, .warned lost ∉ told) :
    stretch = forwarded told := by
  induction h with
  | nil => rfl
  | pass _ e ih =>
      rw [forwarded_passed, ← ih fun lost member => lossless lost (List.mem_append_left _ member)]
  | @skip _ skipped => exact absurd (by simp) (lossless skipped.length)

end Reads

/-- The events through the first terminal one. -/
def throughTerminal : List Event → List Event
  | [] => []
  | e :: rest => if e.isTerminal then [e] else e :: throughTerminal rest

theorem throughTerminal_append {events : List Event} (lasting : ∀ e ∈ events, e.isTerminal = false)
    (rest : List Event) : throughTerminal (events ++ rest) = events ++ throughTerminal rest := by
  induction events with
  | nil => rfl
  | cons e later ih =>
      obtain ⟨first, others⟩ := List.forall_mem_cons.mp lasting
      simp [throughTerminal, first, ih others]

/-! ## Mailboxes -/

namespace Mailbox

variable {m m' : Mailbox} {receiving : Prop} {events : List Event}

/-- What a worker does to its mailbox, as long as the listener receives events or afterwards. -/
inductive Tends (m : Mailbox) (receiving : Prop) : List Mark → Mailbox → Prop
  | take {m' : Mailbox} {effects : Effects} (taken : m.take = some (m', effects)) :
      Tends m receiving effects.marks m'
  | release {m' : Mailbox} {effects : Effects} (released : m.release = some (m', effects)) :
      Tends m receiving effects.marks m'
  | retire {m' : Mailbox} (closed : ¬ receiving) (retired : m.retire = some m') :
      Tends m receiving [] m'

/-- The mailbox has accepted all of some events, and its worker is not lost. -/
structure KeepsUp (m : Mailbox) (receiving : Prop) (events : List Event) : Prop where
  accepted : m.handled ++ m.queue = events
  alive : m.worker ≠ .dead
  ended : m.worker = .ended → m.queue = [] ∧ ¬ receiving

theorem KeepsUp.mono (h : m.KeepsUp receiving events) {receiving' : Prop}
    (weaker : receiving' → receiving) : m.KeepsUp receiving' events where
  accepted := h.accepted
  alive := h.alive
  ended ended := ⟨(h.ended ended).1, mt weaker (h.ended ended).2⟩

/-- A mailbox that keeps up accepts the next event, or its queue is full. -/
theorem KeepsUp.offer (h : m.KeepsUp receiving events) (open_ : receiving) (e : Event) :
    (m.offer e).1.KeepsUp receiving (events ++ [e]) ∨
      .eventRefused m.subscriber.name Refusal.full.reason ∈ (m.offer e).2.records := by
  have busy : m.isOver = false := by
    cases worker : m.worker with
    | idle | waiting => simp [isOver, worker]
    | dead => exact absurd worker h.alive
    | ended => exact absurd open_ (h.ended worker).2
  by_cases full : m.subscriber.places ≤ m.queue.length
  · right
    simp [Mailbox.offer, refusal, busy, full, Refusal.effects]
  · left
    simp only [Mailbox.offer, refusal, busy, full, if_false, Bool.false_eq_true]
    refine ⟨?_, h.alive, fun ended => absurd open_ (h.ended ended).2⟩
    rw [← h.accepted, List.append_assoc]

/-- The worker of a subscriber that never dies loses nothing. -/
theorem KeepsUp.tends (h : m.KeepsUp receiving events)
    (survives : ∀ earlier e, m.subscriber.react earlier e ≠ .dies) {marks : List Mark}
    (tends : m.Tends receiving marks m') : m'.KeepsUp receiving events := by
  cases tends with
  | take taken =>
      obtain ⟨e, rest, -, queue, handled, ⟨dies, -⟩ | ⟨left, worker⟩⟩ := take_cases taken
      · exact absurd dies (survives m.handled e)
      · have accepted := h.accepted
        rw [queue, List.append_cons, ← handled, ← left] at accepted
        refine ⟨accepted, fun dead => ?_, fun ended => ?_⟩
        · simp [isWaiting, dead] at worker
        · simp [isWaiting, ended] at worker
  | release released =>
      obtain ⟨rfl, -⟩ := release_eq released
      exact ⟨h.accepted, Worker.noConfusion, Worker.noConfusion⟩
  | retire closed retired =>
      obtain ⟨-, empty, rfl⟩ := retire_eq retired
      exact ⟨h.accepted, Worker.noConfusion, fun _ => ⟨empty, closed⟩⟩

theorem Tends.subscriber {marks : List Mark} (h : m.Tends receiving marks m') :
    m'.subscriber = m.subscriber := by
  cases h with
  | take taken => exact (relapses_take taken).2
  | release released => exact (burden_release 0 released).2.2
  | retire _ retired => exact (burden_retire 0 retired).2.2

end Mailbox

/-- Every mailbox is offered the event. -/
theorem offerAll_fst (mailboxes : List Mailbox) (e : Event) :
    (offerAll mailboxes e).1 = mailboxes.map fun m => (m.offer e).1 := by
  induction mailboxes with
  | nil => rfl
  | cons m rest ih => simp [offerAll, ih]

/-- Whoever offers an event to mailboxes does not warn of a lag. -/
theorem lag?_offerAll (mailboxes : List Mailbox) (e : Event) :
    (offerAll mailboxes e).2.records.filterMap Record.lag? = [] := by
  induction mailboxes with
  | nil => rfl
  | cons m rest ih =>
      have own : (m.offer e).2.records.filterMap Record.lag? = [] := by
        unfold Mailbox.offer
        split <;> rfl
      have both : (offerAll (m :: rest) e).2.records =
          (m.offer e).2.records ++ (offerAll rest e).2.records := rfl
      rw [both, List.filterMap_append, own, ih]
      rfl

/-- What one mailbox writes and publishes is among what all of them do. -/
theorem offer_subset_offerAll {mailboxes : List Mailbox} {m : Mailbox} (member : m ∈ mailboxes)
    (e : Event) : (m.offer e).2.records ⊆ (offerAll mailboxes e).2.records ∧
      (m.offer e).2.events ⊆ (offerAll mailboxes e).2.events := by
  induction mailboxes with
  | nil => cases member
  | cons first rest ih =>
      rcases List.mem_cons.mp member with rfl | later
      · exact ⟨List.subset_append_left _ _, List.subset_append_left _ _⟩
      · exact ⟨List.subset_append_of_subset_right _ (ih later).1,
          List.subset_append_of_subset_right _ (ih later).2⟩

namespace Supervisor

variable {setup : Setup} {s t u : Supervisor}

/-! ## What a move means to the listener -/

/-- What a move means to the listener. -/
inductive FeedMove (s : Supervisor) (m : Move) (t : Supervisor) : Prop
  | outside (other : m ≠ .progress .listen) (same : t.listener = s.listener)
  | opened (created : s.stage = .created) (listener : t.listener = s.openListener)
  | lag {l : Listener} {lost position : Nat} (own : m = .progress .listen)
      (found : s.listener = some l) (receiving : l.state = .receiving)
      (reading : s.nextReading l = (.lagged lost, position))
      (after : t = ({ s with listener := some { l with position } } : Supervisor).writeAll
        [.recorded (.listenerLagged lost)])
  | hear {l : Listener} {e : Event} {position : Nat} (own : m = .progress .listen)
      (found : s.listener = some l) (receiving : l.state = .receiving)
      (reading : s.nextReading l = (.event e, position))
      (after : t = ({ s with listener := some ⟨position,
        if e.isTerminal then .closing else .receiving, (offerAll l.mailboxes e).1⟩ } :
          Supervisor).writeAll (offerAll l.mailboxes e).2.marks)
  | tend {l : Listener} {index : Nat} {a b : Mailbox} {marks : List Mark}
      (other : m ≠ .progress .listen) (found : s.listener = some l)
      (mailbox : l.mailboxes[index]? = some a) (tends : a.Tends (l.state = .receiving) marks b)
      (after : t = (s.setMailbox l index b).writeAll marks)
  | close {l : Listener} (other : m ≠ .progress .listen) (found : s.listener = some l)
      (closing : l.state = .closing)
      (after : t = { s with listener := some { l with state := .ended } })

theorem apply_feedMove {m : Move} (h : s.apply m = some t) : FeedMove s m t := by
  cases feed : m.isOfFeed with
  | false =>
      rcases apply_listener feed h with same | ⟨created, opened⟩
      · refine .outside ?_ same
        rintro rfl
        cases feed
      · exact .opened created opened
  | true => cases m with
    | letGo index =>
        obtain ⟨l, a, b, effects, found, mailbox, released, rfl⟩ := letGo_eq h
        exact .tend Move.noConfusion found mailbox (.release released) rfl
    | progress p => cases p with
      | listen =>
          obtain ⟨l, found, receiving, ⟨lost, position, reading, after⟩ |
            ⟨e, position, reading, after⟩⟩ := listen_eq h
          · exact .lag rfl found receiving reading after
          · exact .hear rfl found receiving reading after
      | serve index =>
          obtain ⟨l, a, b, effects, found, mailbox, taken, rfl⟩ := serve_eq h
          exact .tend (by simp) found mailbox (.take taken) rfl
      | retire index =>
          obtain ⟨l, a, b, found, closed, mailbox, retired, rfl⟩ := retire_eq h
          exact .tend (by simp) found mailbox (.retire closed retired) (writeAll_nil _).symm
      | closeListener =>
          obtain ⟨l, found, closing, -, rfl⟩ := closeListener_eq h
          exact .close (by simp) found closing rfl
      | _ => cases feed
    | _ => cases feed

/-- Without a listener there is none later. -/
theorem FeedMove.listener_of_none {m : Move} (h : FeedMove s m t) (begun : s.stage ≠ .created)
    (deaf : s.listener = none) : t.listener = none := by
  cases h with
  | outside _ same => exact same.trans deaf
  | opened created => exact absurd created begun
  | lag _ found | hear _ found | tend _ found | close _ found =>
      rw [deaf] at found
      cases found

/-- What the listener does in a move: the event that it reads and hands on, or the lag that it
writes down. -/
def hearings (s : Supervisor) (m : Move) (t : Supervisor) : List Hearing :=
  match m, s.listener with
  | .progress .listen, some l =>
      (s.nextReading l).1.event?.toList.map .passed ++
        ((Journal.records (t.journal.drop s.journal.length)).filterMap Record.lag?).map .warned
  | _, _ => []

theorem hearings_of_none {m : Move} (deaf : s.listener = none) : hearings s m t = [] := by
  unfold hearings
  split
  · next found =>
      rw [deaf] at found
      cases found
  · rfl

theorem hearings_of_ne {m : Move} (other : m ≠ .progress .listen) : hearings s m t = [] := by
  unfold hearings
  split
  · exact absurd rfl other
  · rfl

/-- What was written down since a state. -/
theorem records_drop (same : u.journal = s.journal) (marks : List Mark) :
    Journal.records ((u.writeAll marks).journal.drop s.journal.length) =
      marks.filterMap Mark.record? := by
  simp [writeAll, same, Journal.records, List.filterMap_map]

theorem hearings_lag {l : Listener} {lost position : Nat} (found : s.listener = some l)
    (reading : s.nextReading l = (.lagged lost, position)) (same : u.journal = s.journal) :
    hearings s (.progress .listen) (u.writeAll [.recorded (.listenerLagged lost)]) =
      [.warned lost] := by
  simp only [hearings, found, reading, records_drop same]
  rfl

theorem hearings_hear {l : Listener} {e : Event} {position : Nat} (found : s.listener = some l)
    (reading : s.nextReading l = (.event e, position)) (same : u.journal = s.journal) :
    hearings s (.progress .listen) (u.writeAll (offerAll l.mailboxes e).2.marks) =
      [.passed e] := by
  have records : ∀ effects : Effects, effects.marks.filterMap Mark.record? = effects.records := by
    intro effects
    simp [Effects.marks, List.filterMap_append, List.filterMap_map, Function.comp_def, Mark.record?]
  simp only [hearings, found, reading, records_drop same, records, lag?_offerAll]
  rfl

/-! ## What has come of the events -/

/-- Nothing keeps the events that are handed on from the subscriber of a mailbox: its queue has
refused none, and it never dies. -/
structure IsUndisturbed (s : Supervisor) (m : Mailbox) : Prop where
  accepted : .eventRefused m.subscriber.name Refusal.full.reason ∉ s.journal.records
  survives : ∀ earlier e, m.subscriber.react earlier e ≠ .dies

theorem IsUndisturbed.earlier {a b : Mailbox} (h : t.IsUndisturbed b)
    (journal : s.journal <+: t.journal) (same : b.subscriber = a.subscriber) :
    s.IsUndisturbed a where
  accepted member := h.accepted (same ▸ (journal.filterMap _).subset member)
  survives := same ▸ h.survives

/-- How the listener and the mailboxes stand when some events were published before the start, and
the listener has read a stretch after them. -/
structure Listens (before stretch : List Event) (s : Supervisor) (told : List Hearing)
    (l : Listener) : Prop where
  found : s.listener = some l
  feed : before ++ stretch <+: s.published
  position : l.position = (before ++ stretch).length
  reads : Reads stretch told
  lasting : l.state = .receiving → ∀ e ∈ forwarded told, e.isTerminal = false
  ended : l.state ≠ .receiving → ∃ earlier e, told = earlier ++ [.passed e] ∧
    e.isTerminal = true ∧ ∀ e ∈ forwarded earlier, e.isTerminal = false
  mailboxes : ∀ m ∈ l.mailboxes, s.IsUndisturbed m →
    m.KeepsUp (l.state = .receiving) (forwarded told)

namespace Listens

variable {before stretch : List Event} {told : List Hearing} {l l' : Listener}

/-- What does not concern the position of the listener concerns the mailboxes at most. -/
theorem keep (h : Listens before stretch s told l) (found : t.listener = some l')
    (published : s.published <+: t.published) (position : l'.position = l.position)
    (state : l'.state = .receiving ↔ l.state = .receiving)
    (mailboxes : ∀ m ∈ l'.mailboxes, t.IsUndisturbed m →
      m.KeepsUp (l'.state = .receiving) (forwarded told)) : Listens before stretch t told l' where
  found := found
  feed := h.feed.trans published
  position := position.trans h.position
  reads := h.reads
  lasting receiving := h.lasting (state.mp receiving)
  ended closed := h.ended (mt state.mpr closed)
  mailboxes := mailboxes

theorem lag (h : Listens before stretch s told l) {lost position : Nat}
    (receiving : l.state = .receiving) (reading : s.nextReading l = (.lagged lost, position))
    (found : t.listener = some { l with position }) (journal : s.journal <+: t.journal) :
    ∃ stretch, Listens before stretch t (told ++ [.warned lost]) { l with position } := by
  obtain ⟨onward, -, moved, ringed⟩ := readFeed_lagged reading
  obtain ⟨rest, split⟩ := h.feed
  have here := h.position
  -- the lost events are the next ones of the feed, and there are as many
  have skipped : (rest.take lost).length = lost := by
    have total := congrArg List.length split
    rw [List.length_append] at total
    rw [List.length_take]
    omega
  refine ⟨stretch ++ rest.take lost, found, ?_, ?_, ?_, ?_, ?_, ?_⟩
  · have taken : before ++ stretch ++ rest.take lost <+: s.published := by
      rw [← split]
      exact (List.prefix_append_right_inj _).mpr (List.take_prefix lost rest)
    rw [← List.append_assoc]
    exact taken.trans (journal.filterMap _)
  · rw [← List.append_assoc, List.length_append, skipped, ← here]
    exact moved
  · have some : rest.take lost ≠ [] := List.ne_nil_of_length_pos (by omega)
    have told := h.reads.skip some
    rwa [skipped] at told
  · simpa using h.lasting
  · exact fun closed => absurd receiving closed
  · intro m member undisturbed
    rw [forwarded_warned]
    exact h.mailboxes m member (undisturbed.earlier journal rfl)

theorem hear (h : Listens before stretch s told l) {e : Event} {position : Nat}
    (receiving : l.state = .receiving) (reading : s.nextReading l = (.event e, position))
    (found : t.listener = some ⟨position, if e.isTerminal then .closing else .receiving,
      (offerAll l.mailboxes e).1⟩)
    (journal : t.journal = (s.writeAll (offerAll l.mailboxes e).2.marks).journal) :
    ∃ stretch l', Listens before stretch t (told ++ [.passed e]) l' := by
  obtain ⟨known, moved, -⟩ := readFeed_event reading
  have earlier : s.journal <+: t.journal := journal ▸ List.prefix_append _ _
  obtain ⟨rest, split⟩ := h.feed
  -- the listener stands right behind the stretch, so it reads the first event of the rest
  have next : ∃ later, rest = e :: later := by
    rw [← split, h.position, List.getElem?_append_right (Nat.le_refl _), Nat.sub_self] at known
    exact ⟨rest.tail, List.eq_cons_of_mem_head? (by simpa [List.head?_eq_getElem?] using known)⟩
  obtain ⟨later, rfl⟩ := next
  refine ⟨stretch ++ [e], _, found, ?_, ?_, h.reads.pass e, ?_, ?_, ?_⟩
  · have taken : before ++ stretch ++ [e] <+: s.published := ⟨later, by simp [← split]⟩
    rw [← List.append_assoc]
    exact taken.trans (earlier.filterMap _)
  · rw [← List.append_assoc, List.length_append, ← h.position]
    exact moved
  · intro still
    have lasts : e.isTerminal = false := by
      cases terminal : e.isTerminal with
      | false => rfl
      | true => simp [terminal] at still
    intro e' member
    rw [forwarded_passed] at member
    rcases List.mem_append.mp member with old | new
    · exact h.lasting receiving e' old
    · exact List.mem_singleton.mp new ▸ lasts
  · intro closed
    have terminal : e.isTerminal = true := by
      by_contra lasts
      simp [lasts] at closed
    exact ⟨told, e, rfl, terminal, h.lasting receiving⟩
  · intro m' member undisturbed
    rw [forwarded_passed]
    rw [offerAll_fst] at member
    obtain ⟨m, known, rfl⟩ := List.mem_map.mp member
    have kept := h.mailboxes m known (undisturbed.earlier earlier (m.subscriber_offer e))
    rcases kept.offer receiving e with accepted | refused
    · exact accepted.mono fun _ => receiving
    · -- a refusal would be written down
      refine absurd ?_ undisturbed.accepted
      rw [m.subscriber_offer, journal]
      have written := (offer_subset_offerAll known e).1 refused
      simp [writeAll, Journal.records, List.filterMap_map, Function.comp_def, Effects.marks,
        List.filterMap_append, Mark.record?, written]

theorem step (h : Listens before stretch s told l) {m : Move} (move : FeedMove s m t)
    (begun : s.stage ≠ .created) (journal : s.journal <+: t.journal) :
    ∃ stretch l', Listens before stretch t (told ++ hearings s m t) l' := by
  have published : s.published <+: t.published := journal.filterMap _
  cases move with
  | outside other same =>
      rw [hearings_of_ne other, List.append_nil]
      refine ⟨stretch, l, h.keep (same.trans h.found) published rfl .rfl ?_⟩
      exact fun m member undisturbed => h.mailboxes m member (undisturbed.earlier journal rfl)
  | opened created => exact absurd created begun
  | @lag _ lost position own found receiving reading after =>
      obtain rfl := Option.some.inj (h.found.symm.trans found)
      subst own after
      have told := hearings_lag (u := { s with listener := some { l with position } }) found
        reading rfl
      rw [told]
      obtain ⟨stretch', listens⟩ := h.lag receiving reading rfl journal
      exact ⟨stretch', _, listens⟩
  | @hear _ e position own found receiving reading after =>
      obtain rfl := Option.some.inj (h.found.symm.trans found)
      subst own after
      have told := hearings_hear (u := { s with listener := some ⟨position,
        if e.isTerminal then .closing else .receiving, (offerAll l.mailboxes e).1⟩ }) found
        reading rfl
      rw [told]
      exact h.hear receiving reading rfl rfl
  | @tend _ index a b marks other found mailbox tends after =>
      obtain rfl := Option.some.inj (h.found.symm.trans found)
      subst after
      rw [hearings_of_ne other, List.append_nil]
      refine ⟨stretch, _, h.keep rfl published rfl .rfl ?_⟩
      intro m member undisturbed
      rcases List.mem_or_eq_of_mem_set member with old | rfl
      · exact h.mailboxes m old (undisturbed.earlier journal rfl)
      · have before := undisturbed.earlier journal tends.subscriber
        exact (h.mailboxes a (List.mem_of_getElem? mailbox) before).tends before.survives tends
  | close other found closing after =>
      obtain rfl := Option.some.inj (h.found.symm.trans found)
      subst after
      rw [hearings_of_ne other, List.append_nil]
      refine ⟨stretch, _, h.keep rfl published rfl (by simp [closing]) ?_⟩
      intro m member undisturbed
      exact (h.mailboxes m member (undisturbed.earlier journal rfl)).mono ListenerState.noConfusion

/-- Nothing is told after a terminal event. -/
theorem last (h : Listens before stretch s told l) {earlier later : List Hearing} {e : Event}
    (split : told = earlier ++ .passed e :: later) (terminal : e.isTerminal = true) :
    later = [] := by
  rcases later.eq_nil_or_concat' with none | ⟨middle, last, rfl⟩
  · exact none
  · have passed : e ∈ forwarded (earlier ++ .passed e :: middle) :=
      List.mem_filterMap.mpr ⟨.passed e, by simp, rfl⟩
    have same : told = (earlier ++ .passed e :: middle) ++ [last] := by simp [split]
    -- only the last event that is passed on can be terminal
    by_cases receiving : l.state = .receiving
    · have early := h.lasting receiving e ?_
      · rw [terminal] at early
        cases early
      · rw [same, forwarded, List.filterMap_append]
        exact List.mem_append_left _ passed
    · obtain ⟨earlier', e', told', -, early⟩ := h.ended receiving
      obtain ⟨same, -⟩ := List.append_inj' (same.symm.trans told') rfl
      rw [same] at passed
      rw [early e passed] at terminal
      cases terminal

/-- Without a warning the first events after the start were passed on, and all of them through the
first terminal one unless the listener still receives events. -/
theorem forwarded_eq (h : Listens before stretch s told l)
    (lossless : ∀ lost, .warned lost ∉ told) :
    forwarded told <+: throughTerminal (s.published.drop before.length) ∧
      (l.state ≠ .receiving →
        forwarded told = throughTerminal (s.published.drop before.length)) := by
  obtain ⟨rest, split⟩ := h.feed
  have since : s.published.drop before.length = forwarded told ++ rest := by
    rw [← split, ← h.reads.eq_forwarded lossless, List.append_assoc, List.drop_left]
  rw [since]
  by_cases receiving : l.state = .receiving
  · refine ⟨?_, fun closed => absurd receiving closed⟩
    rw [throughTerminal_append (h.lasting receiving)]
    exact List.prefix_append _ _
  · obtain ⟨earlier, e, rfl, terminal, early⟩ := h.ended receiving
    have ended : throughTerminal (forwarded (earlier ++ [.passed e]) ++ rest) =
        forwarded (earlier ++ [.passed e]) := by
      rw [forwarded_passed, List.append_assoc, throughTerminal_append early]
      simp [throughTerminal, terminal]
    rw [ended]
    exact ⟨List.prefix_refl _, fun _ => rfl⟩

end Listens

/-! ## When nothing moves any more -/

/-- A listener that waits for events has read all that are published. -/
theorem length_le_position (still : s.isQuiescent = true) {l : Listener}
    (found : s.listener = some l) (receiving : l.state = .receiving) :
    s.published.length ≤ l.position := by
  have stuck : s.listen = none := isQuiescent_iff.mp still .listen
  rcases reading : s.nextReading l with ⟨_ | e | lost, position⟩
  · exact readFeed_empty reading
  all_goals simp [listen, found, receiving, reading] at stuck

/-- After the last event every worker ends, unless its subscriber waits. -/
theorem isOver_of_quiescent (still : s.isQuiescent = true) {l : Listener}
    (found : s.listener = some l) (closed : l.state ≠ .receiving) {m : Mailbox}
    (member : m ∈ l.mailboxes) (free : m.isWaiting = false) : m.isOver = true := by
  obtain ⟨index, mailbox⟩ := List.getElem?_of_mem member
  have possible := isQuiescent_iff.mp still
  cases worker : m.worker with
  | waiting => simp [Mailbox.isWaiting, worker] at free
  | dead | ended => simp [Mailbox.isOver, worker]
  | idle => cases queue : m.queue with
    | nil =>
        have stuck := possible (.retire index)
        simp [progress, retire, found, closed, mailbox, Mailbox.retire, worker, queue] at stuck
    | cons e rest =>
        have stuck := possible (.serve index)
        simp [progress, serve, found, mailbox, Mailbox.take, worker, queue] at stuck

/-! ## From the start on -/

/-- What has become of the events that were published since the start from `s`, when the listener
has told so much on the way to `u`. -/
structure Delivery (s u : Supervisor) (told : List Hearing) : Prop where
  /-- The listener has read a stretch of these events. It has passed each on in its place or has
  counted it in a warning. -/
  reads : ∃ stretch rest, u.published = s.published ++ stretch ++ rest ∧ Reads stretch told ∧
    stretch.length = (forwarded told).length + (told.map Hearing.lost).sum
  /-- So what was passed on is in order and holds nothing twice. -/
  ordered : (forwarded told).Sublist (u.published.drop s.published.length)
  /-- Nothing is read after a terminal event that was passed on. -/
  last : ∀ earlier e later, told = earlier ++ .passed e :: later → e.isTerminal = true → later = []
  /-- Whoever subscribed has a mailbox; only if nobody did, nobody listens. -/
  staffed : (s.setup.subscribers = [] ∧ u.listener = none ∧ told = []) ∨
    ∃ l, u.listener = some l ∧ l.mailboxes.map (·.subscriber) = s.setup.subscribers
  /-- Without a lag a subscriber that is not disturbed has handled the first of these events. -/
  inOrder : (∀ lost, .warned lost ∉ told) → ∀ l, u.listener = some l → ∀ m ∈ l.mailboxes,
    u.IsUndisturbed m → m.handled <+: throughTerminal (u.published.drop s.published.length)
  /-- Once nothing moves after a terminal event, it has handled all of them, unless it waits. -/
  complete : (∀ lost, .warned lost ∉ told) → ∀ l, u.listener = some l → ∀ m ∈ l.mailboxes,
    u.IsUndisturbed m → u.isQuiescent = true →
    (∃ e ∈ u.published.drop s.published.length, e.isTerminal = true) → m.isWaiting = false →
    m.handled = throughTerminal (u.published.drop s.published.length)

/-- Nobody listens when there are no subscribers. -/
theorem Delivery.of_none (subscribers : s.setup.subscribers = []) (deaf : u.listener = none)
    (published : s.published <+: u.published) : Delivery s u [] where
  reads := by
    obtain ⟨rest, split⟩ := published
    exact ⟨[], rest, by simp [split], .nil, rfl⟩
  ordered := List.nil_sublist _
  last earlier e later split := by simp at split
  staffed := .inl ⟨subscribers, deaf, rfl⟩
  inOrder _ l found := by
    rw [deaf] at found
    cases found
  complete _ l found := by
    rw [deaf] at found
    cases found

/-- Without a lag a listener that still waits for events when nothing moves any more has passed on
every event since the start. -/
theorem Listens.forwarded_of_quiescent {before stretch : List Event} {told : List Hearing}
    {l : Listener} (h : Listens before stretch s told l) (lossless : ∀ lost, .warned lost ∉ told)
    (still : s.isQuiescent = true) (receiving : l.state = .receiving) :
    forwarded told = s.published.drop before.length := by
  have all := length_le_position still h.found receiving
  rw [h.position] at all
  have read : before ++ stretch = s.published :=
    h.feed.eq_of_length (Nat.le_antisymm h.feed.length_le all)
  rw [← h.reads.eq_forwarded lossless, ← read, List.drop_left]

theorem Listens.delivers {stretch : List Event} {told : List Hearing} {l : Listener}
    (h : Listens s.published stretch u told l)
    (staffed : l.mailboxes.map (·.subscriber) = s.setup.subscribers) : Delivery s u told where
  reads := by
    obtain ⟨rest, split⟩ := h.feed
    exact ⟨stretch, rest, split.symm, h.reads, h.reads.length⟩
  ordered := by
    obtain ⟨rest, split⟩ := h.feed
    rw [← split, List.append_assoc, List.drop_left]
    exact h.reads.sublist.trans (List.sublist_append_left _ _)
  last _ _ _ := h.last
  staffed := .inr ⟨l, h.found, staffed⟩
  inOrder lossless l' found m member undisturbed := by
    obtain rfl := Option.some.inj (h.found.symm.trans found)
    have kept := h.mailboxes m member undisturbed
    exact (kept.accepted ▸ List.prefix_append _ _).trans (h.forwarded_eq lossless).1
  complete lossless l' found m member undisturbed still terminated free := by
    obtain rfl := Option.some.inj (h.found.symm.trans found)
    have closed : l.state ≠ .receiving := by
      intro receiving
      obtain ⟨e, published, terminal⟩ := terminated
      rw [← h.forwarded_of_quiescent lossless still receiving] at published
      rw [h.lasting receiving e published] at terminal
      cases terminal
    have kept := h.mailboxes m member undisturbed
    have ended : m.worker = .ended := by
      simpa [Mailbox.isOver, kept.alive] using isOver_of_quiescent still h.found closed member free
    have accepted := kept.accepted
    rw [(kept.ended ended).1, List.append_nil] at accepted
    rw [accepted, (h.forwarded_eq lossless).2 closed]

/-- The listener opens at the end of the feed, with empty mailboxes. -/
theorem Listens.opened {l : Listener} (opened : s.openListener = some l)
    (found : t.listener = some l) (published : s.published <+: t.published) :
    Listens s.published [] t [] l := by
  unfold openListener at opened
  split at opened <;> cases opened
  refine ⟨found, by rwa [List.append_nil], by simp, .nil, by simp [forwarded], ?_, ?_⟩
  · exact fun closed => absurd rfl closed
  · intro m member _
    obtain ⟨subscriber, -, rfl⟩ := List.mem_map.mp member
    exact ⟨rfl, Worker.noConfusion, Worker.noConfusion⟩

/-- From the start on the listener passes the events on in order, up to the first terminal one, and
warns of exactly those that it loses; what nothing disturbs arrives. -/
theorem delivery {moves : List Move} (h : Reachable setup s) (created : s.stage = .created)
    (started : s.apply .start = some t) (ran : t.applyAll moves = some u) :
    Delivery s u (trace hearings t moves) := by
  obtain ⟨listener, begun⟩ : t.listener = s.openListener ∧ t.stage ≠ .created := by
    simp only [apply, start, created, Option.some.injEq] at started
    subst started
    refine ⟨(launches_keep s.pending _).listener, ?_⟩
    rw [(SameConduct.foldl_launch s.pending _).stage]
    exact Stage.noConfusion
  have reached : Reachable setup t := h.step started
  have published : s.published <+: t.published := (apply_chain started).published
  cases opened : s.openListener with
  | none =>
      -- nobody subscribed
      obtain ⟨deaf, silent⟩ := trace_invariant hearings
        (P := fun v told => v.listener = none ∧ told = []) ran ⟨listener.trans opened, rfl⟩
        fun leads inv applied => by
          obtain ⟨deaf, rfl⟩ := inv
          have begun := (chain_of_leads leads).begun begun
          exact ⟨(apply_feedMove applied).listener_of_none begun deaf, hearings_of_none deaf⟩
      rw [silent]
      refine .of_none ?_ deaf (published.trans (chain_of_leads (leads_of_applyAll ran)).published)
      unfold openListener at opened
      split at opened
      · assumption
      · cases opened
  | some l =>
      obtain ⟨stretch, l', listens⟩ := trace_invariant hearings
        (P := fun v told => ∃ stretch l, Listens s.published stretch v told l) ran
        ⟨[], l, Listens.opened opened (listener.trans opened) published⟩
        fun leads inv applied => by
          obtain ⟨stretch, l, listens⟩ := inv
          exact listens.step (apply_feedMove applied) ((chain_of_leads leads).begun begun)
            (apply_chain applied).journal
      have attained := (reached.leads (leads_of_applyAll ran)).attained
      refine listens.delivers ?_
      rw [attained.feedInvariant.staffed l' listens.found, attained.setup_eq, h.attained.setup_eq]

/-- One subscriber writes to the log, and one has a queue of one place and waits at its first
event. -/
def slowCrowd : Setup where
  subscribers := [.logWriter, .reacting "slow" 1 EventKind.all .waits]

/-- The listener takes turns with a teardown. -/
def slowTeardown : List Move :=
  .stop :: [.proceed 0, .listen, .proceed 0, .proceed 0, .exitLoop, .proceed 0, .listen, .serve 0,
    .serve 0, .serve 1, .retire 0].map .progress

/-- The terminal event is refused by one mailbox, but the other subscriber gets it, and the report
about the refusal is not read any more. -/
theorem delivery_of_slowCrowd :
    ∃ t u, (create slowCrowd).apply .start = some t ∧ t.applyAll slowTeardown = some u ∧
      u.isQuiescent = true ∧ u.published.length = 3 ∧
      trace hearings t slowTeardown =
        [.passed ((Event.ofKind .shutdownRequested).withReason "stop"),
          .passed (.ofKind .allStopped)] ∧
      Delivery (create slowCrowd) u (trace hearings t slowTeardown) := by
  obtain ⟨t, u, started, ran, still, length, told⟩ :
      ∃ t u, (create slowCrowd).apply .start = some t ∧ t.applyAll slowTeardown = some u ∧
        u.isQuiescent = true ∧ u.published.length = 3 ∧
        trace hearings t slowTeardown =
          [.passed ((Event.ofKind .shutdownRequested).withReason "stop"),
            .passed (.ofKind .allStopped)] := ⟨_, _, rfl, rfl, rfl, rfl, rfl⟩
  exact ⟨t, u, started, ran, still, length, told, delivery .init rfl started ran⟩

end Supervisor

end Supervision
