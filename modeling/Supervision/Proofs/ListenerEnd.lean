import Supervision.Proofs.Hearing
import Supervision.Proofs.SingleTeardown

/-!
# When the listener ends

Nothing but a terminal event makes the listener leave its loop, and there is only one. The ring of
the feed keeps the last events only, and runs that were left behind, the coordinating loop and the
subscribers can still publish after the terminal event. If they publish so much that it is gone
before the listener has come to it, the listener waits for ever.

Results:
1. `IsMissed.of_leads`: a terminal event that the listener has missed stays missed.
2. `Reachable.overtaken`: it was missed because the ring had dropped it.
3. `Reachable.handed`: what has become of a terminal event that was handed on.
4. `listenerEnd`: when the listener ends with the supervisor, and what that means.
-/

namespace Supervision

/-- The only entry that satisfies a property has a place of its own. -/
theorem eq_of_filter_length_le_one {α : Type} {p : α → Bool} {l : List α}
    (sole : (l.filter p).length ≤ 1) {i j : Nat} {a b : α} (first : l[i]? = some a)
    (second : l[j]? = some b) (pa : p a = true) (pb : p b = true) : i = j := by
  have ordered : ∀ {i j : Nat} {a b : α}, l[i]? = some a → l[j]? = some b → p a = true →
      p b = true → ¬ i < j := by
    intro i j a b first second pa pb before
    have early : 0 < ((l.take j).filter p).length := by
      refine List.length_pos_of_mem (List.mem_filter.mpr ⟨?_, pa⟩)
      exact List.mem_of_getElem? ((List.getElem?_take_of_lt before).trans first)
    have late : 0 < ((l.drop j).filter p).length := by
      refine List.length_pos_of_mem (List.mem_filter.mpr ⟨?_, pb⟩)
      exact List.mem_of_getElem? (i := 0) (by rw [List.getElem?_drop, Nat.add_zero, second])
    rw [← List.take_append_drop j l, List.filter_append, List.length_append] at sole
    omega
  exact Nat.le_antisymm (Nat.not_lt.mp (ordered second first pb pa))
    (Nat.not_lt.mp (ordered first second pa pb))

namespace Mailbox

variable {m m' : Mailbox} {e : Event}

/-- The event has reached the subscriber, or it is still in its queue, or the worker is lost. -/
def Holds (m : Mailbox) (e : Event) : Prop :=
  e ∈ m.handled ∨ (e ∈ m.queue ∧ m.isOver = false) ∨ m.worker = .dead

/-- A mailbox that is offered a terminal event holds it or reports it. -/
theorem holds_offer (m : Mailbox) (terminal : e.isTerminal = true) :
    (m.offer e).1.Holds e ∨
      ∃ reason, .overflow m.subscriber.name reason ∈ (m.offer e).2.events := by
  have other : e.kind ≠ .subscriberOverflow := by
    intro report
    simp [Event.isTerminal, report] at terminal
  unfold offer
  cases refused : m.refusal with
  | some refusal => exact .inr ⟨refusal.reason, by simp [Refusal.effects, other]⟩
  | none =>
      have busy : m.isOver = false := by
        cases lost : m.isOver with
        | false => rfl
        | true => simp [refusal, lost] at refused
      exact .inl (.inr (.inl ⟨by simp, busy⟩))

theorem Holds.tends {receiving : Prop} {marks : List Mark} (h : m.Holds e)
    (tends : m.Tends receiving marks m') : m'.Holds e := by
  cases tends with
  | take taken =>
      obtain ⟨first, rest, idle, queue, handled, ⟨-, dead⟩ | ⟨left, worker⟩⟩ := take_cases taken
      · exact .inr (.inr dead)
      · have busy : m'.isOver = false := by
          rcases worker with idle | waits
          · simp [isOver, idle]
          · exact isOver_of_isWaiting waits
        rcases h with old | ⟨queued, -⟩ | dead
        · exact .inl (handled ▸ List.mem_append_left _ old)
        · rcases List.mem_cons.mp (queue ▸ queued) with rfl | later
          · exact .inl (by simp [handled])
          · exact .inr (.inl ⟨left ▸ later, busy⟩)
        · rw [idle] at dead
          cases dead
  | release released =>
      obtain ⟨rfl, e, waiting⟩ := release_eq released
      rcases h with handled | ⟨queued, -⟩ | dead
      · exact .inl handled
      · exact .inr (.inl ⟨queued, rfl⟩)
      · simp [dead] at waiting
  | retire closed retired =>
      obtain ⟨idle, empty, rfl⟩ := retire_eq retired
      rcases h with handled | ⟨queued, -⟩ | dead
      · exact .inl handled
      · simp [empty] at queued
      · rw [idle] at dead
        cases dead

end Mailbox

namespace Supervisor

variable {setup : Setup} {s t u : Supervisor} {m : Move} {l : Listener} {k : Nat} {e : Event}

/-- How many events the ring keeps. -/
def ring (s : Supervisor) : Nat := ringPlaces s.setup.settings.busPlaces

theorem Reachable.ring_eq (h : Reachable setup s) :
    s.ring = ringPlaces setup.settings.busPlaces := by
  rw [ring, h.attained.setup_eq]

theorem HasStory.place_eq (h : HasStory s) {i j : Nat} {e e' : Event}
    (first : s.published[i]? = some e) (second : s.published[j]? = some e')
    (terminal : e.isTerminal = true) (terminal' : e'.isTerminal = true) : i = j := by
  refine eq_of_filter_length_le_one (p := Event.isTerminal) ?_ first second terminal terminal'
  rw [h.split.2.1, List.length_drop]
  have few := h.split.2.2
  omega

/-- What is published keeps its place. -/
theorem Chain.getElem?_published (h : Chain s t) (inside : k < s.published.length) :
    t.published[k]? = s.published[k]? := by
  obtain ⟨rest, same⟩ := h.published
  rw [← same, List.getElem?_append_left inside]

/-! ## Too late -/

/-- The listener receives events, and the ring has dropped the event at this place before the
listener has come to it. -/
structure IsOvertaken (s : Supervisor) (k : Nat) (l : Listener) : Prop where
  found : s.listener = some l
  receiving : l.state = .receiving
  unread : l.position ≤ k
  dropped : k + s.ring < s.published.length

/-- The listener receives events, but will not come to the one at this place any more. -/
def IsMissed (s : Supervisor) (k : Nat) : Prop :=
  ∃ l, s.listener = some l ∧ l.state = .receiving ∧
    (k < l.position ∨ k + s.ring < s.published.length)

theorem IsMissed.apply (h : s.IsMissed k) (reached : Reachable setup s)
    (applied : s.apply m = some t) (known : s.published[k]? = some e)
    (terminal : e.isTerminal = true) : t.IsMissed k := by
  obtain ⟨l, found, receiving, missed⟩ := h
  have published : s.published.length ≤ t.published.length :=
    (apply_chain applied).published.length_le
  have ring : t.ring = s.ring := (reached.step applied).ring_eq.trans reached.ring_eq.symm
  cases apply_feedMove applied with
  | outside other same =>
      refine ⟨l, same.trans found, receiving, missed.imp_right fun dropped => ?_⟩
      rw [ring]
      exact dropped.trans_le published
  | opened created =>
      rw [reached.attained.feedInvariant.unopened created] at found
      cases found
  | @lag _ lost position _ found' _ reading after =>
      obtain rfl := Option.some.inj (found.symm.trans found')
      obtain ⟨onward, -, -, ringed⟩ := readFeed_lagged reading
      change position + s.ring = s.published.length at ringed
      subst after
      exact ⟨_, rfl, receiving, .inl (show k < position by omega)⟩
  | @hear _ e' position _ found' _ reading after =>
      obtain rfl := Option.some.inj (found.symm.trans found')
      obtain ⟨here, onward, near⟩ := readFeed_event reading
      change s.published.length ≤ l.position + s.ring at near
      -- what can be read lies behind the missed event, and there is no other terminal one
      have past : k < l.position := by omega
      have lasts : e'.isTerminal = false := by
        by_contra ends
        have same := reached.attained.hasStory.place_eq known here terminal (by simpa using ends)
        omega
      subst after
      exact ⟨_, rfl, by simp [lasts], .inl (show k < position by omega)⟩
  | tend _ found' _ _ after =>
      obtain rfl := Option.some.inj (found.symm.trans found')
      subst after
      refine ⟨_, rfl, receiving, missed.imp_right fun dropped => ?_⟩
      rw [ring]
      exact dropped.trans_le published
  | close _ found' closing =>
      obtain rfl := Option.some.inj (found.symm.trans found')
      rw [receiving] at closing
      cases closing

/-- What was missed stays missed. -/
theorem IsMissed.of_leads (h : s.IsMissed k) (reached : Reachable setup s)
    (known : s.published[k]? = some e) (terminal : e.isTerminal = true) (leads : Leads s t) :
    t.IsMissed k := by
  have inside := (List.getElem?_eq_some_iff.mp known).1
  induction leads with
  | refl => exact h
  | step earlier applied ih =>
      have same := (chain_of_leads earlier).getElem?_published inside
      exact ih.apply (reached.leads earlier) applied (same.trans known) terminal

/-- A listener that was overtaken there receives events ever after. -/
theorem IsOvertaken.receiving_of_leads (h : u.IsOvertaken k l) (reached : Reachable setup u)
    (leads : Leads u s) (known : s.published[k]? = some e) (terminal : e.isTerminal = true)
    {l' : Listener} (found : s.listener = some l') : l'.state = .receiving := by
  have missed : u.IsMissed k := ⟨l, h.found, h.receiving, .inr h.dropped⟩
  have inside : k < u.published.length := Nat.lt_of_le_of_lt (Nat.le_add_right _ _) h.dropped
  have known' := ((chain_of_leads leads).getElem?_published inside).symm.trans known
  obtain ⟨l'', found', receiving, -⟩ := missed.of_leads reached known' terminal leads
  obtain rfl := Option.some.inj (found.symm.trans found')
  exact receiving

/-! ## How it comes -/

theorem position_of_opened (opened : s.openListener = some l) :
    l.position = s.published.length := by
  unfold openListener at opened
  split at opened <;> cases opened
  rfl

/-- The listener has read nothing that is not published. -/
theorem Reachable.position_le (h : Reachable setup s) (found : s.listener = some l) :
    l.position ≤ s.published.length := by
  induction h generalizing l with
  | init => cases found
  | @step s t m reached applied ih =>
      have published : s.published.length ≤ t.published.length :=
        (apply_chain applied).published.length_le
      cases apply_feedMove applied with
      | outside _ same => exact (ih (same.symm.trans found)).trans published
      | opened created opened =>
          rw [position_of_opened (opened.symm.trans found)]
          exact published
      | lag _ _ _ reading after =>
          obtain ⟨-, -, -, ringed⟩ := readFeed_lagged reading
          subst after
          cases found
          exact (Nat.le_add_right _ _).trans (ringed.le.trans published)
      | hear _ _ _ reading after =>
          obtain ⟨here, onward, -⟩ := readFeed_event reading
          subst after
          cases found
          have inside := (List.getElem?_eq_some_iff.mp here).1
          exact (Nat.le_trans (Nat.le_of_eq onward) inside).trans published
      | tend _ known _ _ after =>
          subst after
          cases found
          exact (ih known).trans published
      | close _ known _ after =>
          subst after
          cases found
          exact (ih known).trans published

/-- A listener that receives events after the terminal one was overtaken there. -/
theorem Reachable.overtaken (h : Reachable setup s) (found : s.listener = some l)
    (receiving : l.state = .receiving) (known : s.published[k]? = some e)
    (terminal : e.isTerminal = true) (past : k < l.position) :
    ∃ u l, Reachable setup u ∧ Leads u s ∧ u.IsOvertaken k l := by
  induction h generalizing l with
  | init => cases found
  | @step s t m reached applied ih =>
      -- what was passed before this move was passed in the earlier state
      have before : ∀ l, s.listener = some l → l.state = .receiving → k < l.position →
          ∃ u l, Reachable setup u ∧ Leads u t ∧ u.IsOvertaken k l := by
        intro l found receiving past
        have inside := Nat.lt_of_lt_of_le past (reached.position_le found)
        rw [(apply_chain applied).getElem?_published inside] at known
        obtain ⟨u, l, reached, leads, overtaken⟩ := ih found receiving known past
        exact ⟨u, l, reached, leads.step applied, overtaken⟩
      cases apply_feedMove applied with
      | outside _ same => exact before l (same.symm.trans found) receiving past
      | opened created opened =>
          rw [position_of_opened (opened.symm.trans found)] at past
          rw [(apply_chain applied).getElem?_published past] at known
          have stopped := reached.attained.hasStory.stopped_of_told (List.mem_of_getElem? known)
            (by simp [Event.isTeardown, terminal])
          rw [created] at stopped
          cases stopped
      | @lag l₀ _ _ _ found₀ receiving₀ reading after =>
          obtain ⟨-, -, -, ringed⟩ := readFeed_lagged reading
          subst after
          cases found
          -- either the event was passed before, or it is one of those that this lag skips
          by_cases passed : k < l₀.position
          · exact before l₀ found₀ receiving₀ passed
          · refine ⟨s, l₀, reached, (Leads.refl s).step applied, found₀, receiving₀, ?_, ?_⟩
            · exact Nat.not_lt.mp passed
            · have dropped := Nat.add_lt_add_right past s.ring
              exact dropped.trans_eq ringed
      | @hear l₀ e' _ _ found₀ receiving₀ reading after =>
          obtain ⟨here, rfl, -⟩ := readFeed_event reading
          subst after
          cases found
          rcases Nat.lt_or_eq_of_le (Nat.le_of_lt_succ past) with passed | rfl
          · exact before l₀ found₀ receiving₀ passed
          · -- a listener that reads the terminal event receives no more
            have inside := (List.getElem?_eq_some_iff.mp here).1
            rw [(apply_chain applied).getElem?_published inside, here] at known
            obtain rfl := Option.some.inj known
            simp [terminal] at receiving
      | tend _ found₀ _ _ after =>
          subst after
          cases found
          exact before _ found₀ receiving past
      | close _ _ _ after =>
          subst after
          cases found
          cases receiving

/-! ## After the terminal event -/

/-- A terminal event was handed on: every mailbox holds it, or has reported it. -/
def Handed (s : Supervisor) (l : Listener) : Prop :=
  ∃ e ∈ s.published, e.isTerminal = true ∧ ∀ m ∈ l.mailboxes,
    m.Holds e ∨ ∃ reason, .overflow m.subscriber.name reason ∈ s.published

theorem Handed.mono {l' : Listener} (h : s.Handed l) (published : s.published <+: t.published)
    (mailboxes : ∀ e, ∀ m' ∈ l'.mailboxes, ∃ m ∈ l.mailboxes, m'.subscriber = m.subscriber ∧
      (m.Holds e → m'.Holds e)) : t.Handed l' := by
  obtain ⟨e, told, terminal, held⟩ := h
  refine ⟨e, published.subset told, terminal, fun m' member => ?_⟩
  obtain ⟨m, known, same, holds⟩ := mailboxes e m' member
  rw [same]
  exact (held m known).imp holds fun ⟨reason, reported⟩ => ⟨reason, published.subset reported⟩

/-- Once the listener has left its loop it has handed a terminal event on. -/
theorem Reachable.handed (h : Reachable setup s) (found : s.listener = some l)
    (closed : l.state ≠ .receiving) : s.Handed l := by
  induction h generalizing l with
  | init => cases found
  | @step s t m reached applied ih =>
      have published : s.published <+: t.published := (apply_chain applied).published
      cases apply_feedMove applied with
      | outside _ same =>
          exact (ih (same.symm.trans found) closed).mono published
            fun _ m member => ⟨m, member, rfl, id⟩
      | opened _ opened =>
          rw [opened] at found
          unfold openListener at found
          split at found <;> cases found
          exact absurd rfl closed
      | lag _ _ receiving _ after =>
          subst after
          cases found
          exact absurd receiving closed
      | @hear l₀ e _ _ _ _ reading after =>
          obtain ⟨here, -, -⟩ := readFeed_event reading
          subst after
          cases found
          have terminal : e.isTerminal = true := by
            by_contra lasts
            simp [lasts] at closed
          refine ⟨e, published.subset (List.mem_of_getElem? here), terminal, fun m member => ?_⟩
          rw [offerAll_fst] at member
          obtain ⟨m, known, rfl⟩ := List.mem_map.mp member
          refine (m.holds_offer terminal).imp_right fun ⟨reason, reported⟩ => ⟨reason, ?_⟩
          rw [m.subscriber_offer, published_writeAll, Effects.filterMap_marks]
          exact List.mem_append_right _ ((offer_subset_offerAll known e).2 reported)
      | @tend l₀ index a b _ _ found₀ mailbox tends after =>
          subst after
          cases found
          refine (ih found₀ closed).mono published fun _ m member => ?_
          rcases List.mem_or_eq_of_mem_set member with old | rfl
          · exact ⟨m, old, rfl, id⟩
          · have known := List.mem_of_getElem? mailbox
            exact ⟨a, known, tends.subscriber, fun holds => holds.tends tends⟩
      | close _ found₀ closing after =>
          subst after
          cases found
          exact (ih found₀ (by simp [closing])).mono published
            fun _ m member => ⟨m, member, rfl, id⟩

/-- A worker that has finished has handed the terminal event to its subscriber, unless it is lost or
has reported that its mailbox refused the event. -/
theorem Reachable.handed_of_isOver (h : Reachable setup s) (found : s.listener = some l)
    (closed : l.state ≠ .receiving) (known : s.published[k]? = some e)
    (terminal : e.isTerminal = true) {m : Mailbox} (member : m ∈ l.mailboxes)
    (finished : m.isOver = true) :
    e ∈ m.handled ∨ m.worker = .dead ∨
      ∃ reason, .overflow m.subscriber.name reason ∈ s.published := by
  -- what was handed on is this event, since no other one is terminal
  obtain ⟨e', told, terminal', held⟩ := h.handed found closed
  obtain ⟨j, known'⟩ := List.getElem?_of_mem told
  obtain rfl := h.attained.hasStory.place_eq known known' terminal terminal'
  obtain rfl := Option.some.inj (known.symm.trans known')
  rcases held m member with (handled | ⟨-, busy⟩ | dead) | reported
  · exact .inl handled
  · rw [finished] at busy
    cases busy
  · exact .inr (.inl dead)
  · exact .inr (.inr reported)

/-! ## When nothing moves any more -/

/-- After the last event the listener ends, unless some subscriber waits. -/
theorem ended_of_quiescent (still : s.isQuiescent = true) (found : s.listener = some l)
    (closed : l.state ≠ .receiving) (free : ∀ m ∈ l.mailboxes, m.isWaiting = false) :
    l.state = .ended := by
  cases state : l.state with
  | receiving => exact absurd state closed
  | ended => rfl
  | closing =>
      have finished : l.mailboxes.all (·.isOver) = true := List.all_eq_true.mpr fun m member =>
        isOver_of_quiescent still found closed member (free m member)
      have stuck := isQuiescent_iff.mp still .closeListener
      simp [progress, closeListener, found, state, finished] at stuck

/-- What has become of the listener, when nothing moves any more and the event `e` at the place `k`
of the feed has ended the teardown. -/
structure ListenerEnd (setup : Setup) (s : Supervisor) (l : Listener) (k : Nat) (e : Event) :
    Prop where
  /-- The listener has left its loop unless the ring had dropped the event before it was read. -/
  left_iff : l.state ≠ .receiving ↔
    ¬ ∃ u l, Reachable setup u ∧ Leads u s ∧ u.IsOvertaken k l
  /-- That cannot be if the ring has had room for what came after the event. -/
  inTime : s.published.length ≤ k + s.ring → l.state ≠ .receiving
  /-- Then every worker has finished unless its subscriber waits. The subscriber was handed the
  event, or its refusal was reported, or the subscriber has died. -/
  finished : l.state ≠ .receiving → ∀ m ∈ l.mailboxes, m.isWaiting = false →
    m.isOver = true ∧ (e ∈ m.handled ∨ m.worker = .dead ∨
      ∃ reason, .overflow m.subscriber.name reason ∈ s.published)
  /-- If no subscriber waits, the listener has ended, too. -/
  ended : l.state ≠ .receiving → (∀ m ∈ l.mailboxes, m.isWaiting = false) → l.state = .ended
  /-- A listener that has missed the event goes on for ever, whatever happens. -/
  endless : l.state = .receiving → ∀ t, Leads s t →
    ∃ l', t.listener = some l' ∧ l'.state = .receiving

/-- The listener ends with the supervisor if and only if the ring keeps the terminal event until it
is read. -/
theorem listenerEnd (h : Reachable setup s) (still : s.isQuiescent = true)
    (known : s.published[k]? = some e) (terminal : e.isTerminal = true)
    (found : s.listener = some l) : ListenerEnd setup s l k e := by
  have passed : l.state = .receiving → k < l.position := fun receiving =>
    Nat.lt_of_lt_of_le (List.getElem?_eq_some_iff.mp known).1
      (length_le_position still found receiving)
  have late : l.state = .receiving → ∃ u l, Reachable setup u ∧ Leads u s ∧ u.IsOvertaken k l :=
    fun receiving => h.overtaken found receiving known terminal (passed receiving)
  refine ⟨⟨?_, fun none receiving => none (late receiving)⟩, ?_, ?_, ?_, ?_⟩
  · rintro closed ⟨u, l', reached, leads, overtaken⟩
    exact closed (overtaken.receiving_of_leads reached leads known terminal found)
  · intro room receiving
    obtain ⟨u, l', reached, leads, overtaken⟩ := late receiving
    have dropped := overtaken.dropped
    have length := (chain_of_leads leads).published.length_le
    have ring : u.ring = s.ring := reached.ring_eq.trans h.ring_eq.symm
    omega
  · intro closed m member free
    have finished := isOver_of_quiescent still found closed member free
    exact ⟨finished, h.handed_of_isOver found closed known terminal member finished⟩
  · exact ended_of_quiescent still found
  · intro receiving t leads
    have missed : s.IsMissed k := ⟨l, found, receiving, .inl (passed receiving)⟩
    obtain ⟨l', found', receiving', -⟩ := missed.of_leads h known terminal leads
    exact ⟨l', found', receiving'⟩

/-- The slow subscriber goes on at last. It has not got the terminal event, but that was reported,
and the listener ends. -/
theorem listenerEnd_of_slowCrowd :
    ∃ s l, (create slowCrowd).applyAll (.start :: slowTeardown ++
        [.letGo 1, .progress (.retire 1), .progress .closeListener]) = some s ∧
      s.isQuiescent = true ∧ s.published[1]? = some (.ofKind .allStopped) ∧
      (Event.ofKind .allStopped).isTerminal = true ∧ s.listener = some l ∧ l.state = .ended ∧
      .overflow "slow" "full" ∈ s.published ∧
      ListenerEnd slowCrowd s l 1 (.ofKind .allStopped) := by
  obtain ⟨s, l, ran, still, known, terminal, found, state, reported⟩ :
      ∃ s l, (create slowCrowd).applyAll (.start :: slowTeardown ++
          [.letGo 1, .progress (.retire 1), .progress .closeListener]) = some s ∧
        s.isQuiescent = true ∧ s.published[1]? = some (.ofKind .allStopped) ∧
        (Event.ofKind .allStopped).isTerminal = true ∧ s.listener = some l ∧ l.state = .ended ∧
        .overflow "slow" "full" ∈ s.published :=
    ⟨_, _, rfl, rfl, rfl, rfl, rfl, rfl, List.mem_of_getElem? (i := 2) rfl⟩
  have ends := listenerEnd (reachable_of_applyAll ran) still known terminal found
  exact ⟨s, l, ran, still, known, terminal, found, state, reported, ends⟩

/-- The ring of the feed has one place, and a teardown leaves the runs behind after a while. -/
def narrowFeed : Setup where
  settings := { busCapacity := 1, grace := .ofMillis 1 }
  subscribers := [.logWriter]

/-- A run that has asked for the teardown itself is left behind, goes on and
ends before the listener reads again. So the terminal event is lost: the listener still waits for
events when nothing moves any more, although the teardown is over, the wait for it too, and no
subscriber waits. -/
theorem listener_misses_the_end :
    ∃ s l, (create narrowFeed).applyAll
        [.start, .submit { id := "s", work := some {} }, .progress (.begin 1), .progress .listen,
          .progress (.serve 0), .stopFrom 1, .progress (.proceed 0), .progress .listen,
          .progress (.serve 0), .progress (.proceed 0), .wait, .tick 1, .progress (.proceed 0),
          .progress (.resolveWait 0), .finish 1 (.returns none), .progress (.release 1),
          .progress (.report 1), .progress .listen, .progress .listen, .progress (.serve 0),
          .progress (.call 1), .progress (.call 1), .progress (.send 1), .progress .observe,
          .progress .exitLoop, .progress .listen, .progress (.serve 0)] = some s ∧
      s.isQuiescent = true ∧ s.done = true ∧ s.waits = [true] ∧
      s.published[2]? = some ((Event.ofKind .graceExceeded).withReason "s") ∧
      s.listener = some l ∧ l.state = .receiving ∧ l.mailboxes.map (·.worker) = [.idle] ∧
      l.mailboxes.map (fun m => m.handled.map (·.kind)) =
        [[.taskStarting, .shutdownRequested, .taskStopped, .outcomeObserved]] :=
  ⟨_, _, rfl, rfl, rfl, rfl, rfl, rfl, rfl, rfl, rfl⟩

end Supervisor

end Supervision
