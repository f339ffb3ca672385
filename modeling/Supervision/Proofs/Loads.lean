import Mathlib.Algebra.Order.BigOperators.Group.List
import Mathlib.Algebra.Order.Group.Nat
import Supervision.Proofs.Burdens
import Supervision.Proofs.Chains

/-!
# What the feed and the mailboxes can lead to

The load of a supervisor is what the unread events and the mailboxes can still lead to. The weight
adds the reports about trouble with the subscribers that are published already. Whatever the
listener or a worker does takes more from the load than it publishes, but for a relapse.

Results:
1. `Listener.load_lag`, `Listener.load_hear`, `Listener.load_set`: what becomes of the load of the
   listener.
2. `Feeding.descends`: every step of the listener or of a worker takes from the weight, but for a
   relapse.
3. `Feeding.relapses_le`, `Feeding.staffed`: no step brings more than one relapse, and the
   subscribers stay the same.
-/

namespace Supervision

/-! ## The feed and the listener -/

/-- What the listener has before it after the last event: to close the mailboxes and to end. -/
def ListenerState.remaining : ListenerState → Nat
  | .receiving => 2
  | .closing => 1
  | .ended => 0

/-- What the events of the feed from a position on can lead to. -/
def unread (audience : Nat) (published : List Event) (position : Nat) : Nat :=
  ((published.drop position).map (Event.toll audience)).sum

/-- What all that the listener and the workers have before them can lead to. -/
def Listener.load (audience : Nat) (published : List Event) (l : Listener) : Nat :=
  unread audience published l.position + (l.mailboxes.map (Mailbox.burden audience)).sum +
    l.state.remaining

section Feed

variable (audience : Nat) {places position position' : Nat} {published : List Event} {e : Event}

theorem unread_of_getElem? (found : published[position]? = some e) :
    unread audience published position =
      e.toll audience + unread audience published (position + 1) := by
  obtain ⟨inside, rfl⟩ := List.getElem?_eq_some_iff.mp found
  rw [unread, List.drop_eq_getElem_cons inside, List.map_cons, List.sum_cons]
  rfl

theorem unread_le_of_le (later : position ≤ position') :
    unread audience published position' ≤ unread audience published position :=
  ((List.drop_sublist_drop_left published later).map _).sum_le_sum fun _ _ => Nat.zero_le _

theorem unread_append_le (published events : List Event) (position : Nat) :
    unread audience (published ++ events) position ≤
      unread audience published position + (events.map (Event.toll audience)).sum := by
  rw [unread, List.drop_append, List.map_append, List.sum_append]
  exact Nat.add_le_add_left (unread_le_of_le audience (Nat.zero_le _)) _

/-- Whoever reads an event is not behind the ring, and goes on with the next event. -/
theorem readFeed_event (reading : readFeed places published position = (.event e, position')) :
    published[position]? = some e ∧ position' = position + 1 ∧
      published.length ≤ position + places := by
  unfold readFeed at reading
  split at reading
  · cases reading
  · next near =>
      split at reading
      · next known =>
          cases reading
          exact ⟨known, rfl, Nat.not_lt.mp near⟩
      · cases reading

/-- Whoever falls behind loses an event, and goes on with the oldest one in the ring. -/
theorem readFeed_lagged {lost : Nat}
    (reading : readFeed places published position = (.lagged lost, position')) :
    position < position' ∧ (∃ e, published[position]? = some e) ∧
      position' = position + lost ∧ position' + places = published.length := by
  unfold readFeed at reading
  split at reading
  · cases reading
    have inside : position < published.length := by omega
    exact ⟨by omega, ⟨_, List.getElem?_eq_getElem inside⟩, by omega, by omega⟩
  · split at reading <;> cases reading

/-- Whoever gets nothing has read everything. -/
theorem readFeed_empty (reading : readFeed places published position = (.empty, position')) :
    published.length ≤ position := by
  unfold readFeed at reading
  split at reading
  · cases reading
  · split at reading
    · cases reading
    · next missing => exact List.getElem?_eq_none_iff.mp missing

theorem ringPlaces_pos (capacity : Nat) : 0 < ringPlaces capacity := by
  have positive : ∀ bits n, 0 < powerAbove bits n := by
    intro bits
    induction bits with
    | zero => exact fun _ => Nat.one_pos
    | succ bits ih =>
        intro n
        unfold powerAbove
        split
        · exact Nat.one_pos
        · exact Nat.mul_pos Nat.two_pos (ih _)
  exact positive _ _

/-- Nothing is lost to a reader who has only the last event left. -/
theorem readFeed_last (capacity : Nat) (before : List Event) (e : Event) :
    readFeed (ringPlaces capacity) (before ++ [e]) before.length =
      (.event e, before.length + 1) := by
  simp [readFeed, (ringPlaces_pos capacity).ne']

end Feed

/-- What one entry of a list adds to a sum. -/
theorem sum_map_set {α : Type} (f : α → Nat) {l : List α} {index : Nat} {a : α}
    (found : l[index]? = some a) (b : α) :
    ((l.set index b).map f).sum + f a = (l.map f).sum + f b := by
  induction l generalizing index with
  | nil => cases found
  | cons first rest ih => cases index with
    | zero =>
        cases found
        simp only [List.set_cons_zero, List.map_cons, List.sum_cons]
        omega
    | succ index =>
        have later := ih (show rest[index]? = some a from found)
        simp only [List.set_cons_succ, List.map_cons, List.sum_cons]
        omega

/-- What effects publish. -/
theorem Effects.filterMap_marks (effects : Effects) :
    effects.marks.filterMap Mark.event? = effects.events := by
  simp [Effects.marks, List.filterMap_append, List.filterMap_map, Function.comp_def, Mark.event?]

namespace Listener

variable (audience : Nat) {position : Nat} {published : List Event} {l : Listener} {e : Event}

theorem load_lag (missed : published[l.position]? = some e) (later : l.position < position) :
    ({ l with position } : Listener).load audience published + 1 ≤ l.load audience published := by
  have first := unread_of_getElem? audience missed
  have rest : unread audience published position ≤ unread audience published (l.position + 1) :=
    unread_le_of_le audience later
  have toll := e.toll_pos audience
  simp only [load]
  omega

theorem load_hear (known : published[l.position]? = some e)
    (staffed : l.mailboxes.length = audience) {state : ListenerState}
    (less : state.remaining ≤ l.state.remaining) :
    (⟨l.position + 1, state, (offerAll l.mailboxes e).1⟩ : Listener).load audience published +
        (offerAll l.mailboxes e).2.cost audience + 1 ≤ l.load audience published := by
  have first := unread_of_getElem? audience known
  have offered := burden_offerAll audience l.mailboxes e
  rw [staffed] at offered
  simp only [load]
  unfold Event.toll at first
  omega

theorem load_set (published : List Event) {index : Nat} {m : Mailbox}
    (mailbox : l.mailboxes[index]? = some m) (m' : Mailbox) :
    ({ l with mailboxes := l.mailboxes.set index m' } : Listener).load audience published +
        m.burden audience = l.load audience published + m'.burden audience := by
  have changed := sum_map_set (Mailbox.burden audience) mailbox m'
  simp only [load]
  omega

end Listener

namespace Supervisor

variable {s t u : Supervisor} {marks : List Mark}

/-! ## The load -/

/-- The number of subscribers. -/
def audience (s : Supervisor) : Nat := s.setup.subscribers.length

/-- How many reports about trouble with the subscribers are published. -/
def reports (s : Supervisor) : Nat := s.published.countP (·.isReport)

/-- How many other events are published. -/
def outside (s : Supervisor) : Nat := s.published.countP (!·.isReport)

/-- What the listener and the workers have before them. Before the start that is what the listener
begins with. -/
def load (s : Supervisor) : Nat :=
  match s.listener with
  | none => s.audience + 2
  | some l => l.load s.audience s.published

/-- How often the subscribers have panicked at reports about refusals. -/
def relapses (s : Supervisor) : Nat :=
  match s.listener with
  | none => 0
  | some l => (l.mailboxes.map Mailbox.relapses).sum

/-- The reports that are published, and what may come of the load. -/
def weight (s : Supervisor) : Nat := s.reports + s.load

/-- Every subscriber has its mailbox. -/
def IsStaffed (s : Supervisor) : Prop :=
  ∀ l, s.listener = some l → l.mailboxes.map (·.subscriber) = s.setup.subscribers

theorem Change.audience_eq (h : Change s marks t) : t.audience = s.audience :=
  congrArg (·.subscribers.length) h.setup_eq

theorem Change.published_eq (h : Change s marks t) : t.published = s.published :=
  congrArg Journal.events h.journal_eq

theorem Change.reports_eq (h : Change s marks t) : t.reports = s.reports :=
  congrArg (List.countP Event.isReport) h.published_eq

theorem Change.outside_eq (h : Change s marks t) : t.outside = s.outside :=
  congrArg (List.countP fun e : Event => !e.isReport) h.published_eq

theorem load_of_some {l : Listener} (found : s.listener = some l) :
    s.load = l.load s.audience s.published := by rw [load, found]

theorem relapses_of_some {l : Listener} (found : s.listener = some l) :
    s.relapses = (l.mailboxes.map Mailbox.relapses).sum := by rw [relapses, found]

@[simp] theorem relapses_writeAll (s : Supervisor) (marks : List Mark) :
    (s.writeAll marks).relapses = s.relapses := rfl

/-- What one mailbox adds to the relapses. -/
theorem relapses_setMailbox {l : Listener} (found : s.listener = some l) {index : Nat}
    {m : Mailbox} (mailbox : l.mailboxes[index]? = some m) (m' : Mailbox) :
    (s.setMailbox l index m').relapses + m.relapses = s.relapses + m'.relapses := by
  rw [relapses_of_some found]
  exact sum_map_set Mailbox.relapses mailbox m'

theorem IsStaffed.length (h : s.IsStaffed) {l : Listener} (found : s.listener = some l) :
    l.mailboxes.length = s.audience := by
  rw [audience, ← h l found, List.length_map]

theorem load_writeAll_le (s : Supervisor) (marks : List Mark) :
    (s.writeAll marks).load ≤
      s.load + ((marks.filterMap Mark.event?).map (Event.toll s.audience)).sum := by
  cases found : s.listener with
  | none =>
      have same : (s.writeAll marks).load = s.load := by
        have found' : (s.writeAll marks).listener = none := found
        simp only [load, found, found']
        rfl
      rw [same]
      exact Nat.le_add_right _ _
  | some l =>
      have more :=
        unread_append_le s.audience s.published (marks.filterMap Mark.event?) l.position
      have written : (s.writeAll marks).load = l.load s.audience (s.writeAll marks).published :=
        load_of_some (s := s.writeAll marks) found
      rw [written, load_of_some found, published_writeAll]
      simp only [Listener.load]
      omega

theorem reports_writeAll (s : Supervisor) (marks : List Mark) :
    (s.writeAll marks).reports =
      s.reports + (marks.filterMap Mark.event?).countP (·.isReport) := by
  rw [reports, published_writeAll, List.countP_append]
  rfl

theorem outside_writeAll (s : Supervisor) (marks : List Mark) :
    (s.writeAll marks).outside =
      s.outside + (marks.filterMap Mark.event?).countP (!·.isReport) := by
  rw [outside, published_writeAll, List.countP_append]
  rfl

/-- What subscribers publish costs no more than it should. -/
theorem weight_writeAll_le (s : Supervisor) {effects : Effects} (own : effects.AreReports) :
    (s.writeAll effects.marks).weight ≤ s.weight + effects.cost s.audience := by
  have events := effects.filterMap_marks
  have all : effects.events.countP (·.isReport) = effects.events.length := by
    refine List.countP_eq_length.mpr fun e member => ?_
    rcases own e member with kind | kind <;> simp [Event.isReport, kind]
  have loaded := load_writeAll_le s effects.marks
  rw [events] at loaded
  simp only [weight, reports_writeAll, events, all, Effects.cost]
  omega

/-! ## One step -/

/-- The listener has changed and something is published that it has paid for. -/
theorem descends_of_paid (effects : Effects) (own : effects.AreReports) {l l' : Listener}
    (found : s.listener = some l)
    (paid : l'.load s.audience s.published + effects.cost s.audience + 1 +
        relapseCharge s.audience * (l.mailboxes.map Mailbox.relapses).sum ≤
      l.load s.audience s.published +
        relapseCharge s.audience * (l'.mailboxes.map Mailbox.relapses).sum) :
    (({ s with listener := some l' } : Supervisor).writeAll effects.marks).weight + 1 +
        relapseCharge s.audience * s.relapses ≤
      s.weight +
        relapseCharge s.audience * ({ s with listener := some l' } : Supervisor).relapses := by
  have written := weight_writeAll_le { s with listener := some l' } own
  have before : s.weight = s.reports + l.load s.audience s.published := by
    rw [weight, load_of_some found]
  have after : ({ s with listener := some l' } : Supervisor).weight =
      s.reports + l'.load s.audience s.published := rfl
  have same : ({ s with listener := some l' } : Supervisor).audience = s.audience := rfl
  rw [after, same] at written
  rw [before, relapses_of_some found, relapses_of_some (s := { s with listener := some l' }) rfl]
  omega

/-- Every step of the listener or of a worker takes from the load, but for a relapse. -/
theorem Feeding.descends (staffed : s.IsStaffed) (h : Feeding s marks u) :
    (u.writeAll marks).weight + 1 + relapseCharge s.audience * s.relapses ≤
      s.weight + relapseCharge s.audience * u.relapses := by
  cases h with
  | lag found receiving reading =>
      obtain ⟨later, ⟨e, missed⟩, -⟩ := readFeed_lagged reading
      refine descends_of_paid ⟨[_], []⟩ (.of_nil rfl) found ?_
      have less := Listener.load_lag s.audience missed later
      rw [Effects.cost_of_nil _ rfl]
      exact Nat.add_le_add_right less _
  | hear found receiving reading =>
      obtain ⟨known, rfl, -⟩ := readFeed_event reading
      refine descends_of_paid _ (.offerAll _ _) found ?_
      dsimp only
      rw [map_offerAll (Mailbox.relapses_offer · _)]
      refine Nat.add_le_add_right (Listener.load_hear s.audience known (staffed.length found) ?_) _
      rw [receiving]
      split <;> decide
  | @serve l index m m' effects found mailbox taken =>
      refine descends_of_paid effects (.take taken) found ?_
      have set := Listener.load_set s.audience s.published mailbox m'
      have lighter := Mailbox.burden_take s.audience taken
      have relapsed := sum_map_set Mailbox.relapses mailbox m'
      have charged := congrArg (relapseCharge s.audience * ·) relapsed
      simp only [Nat.mul_add] at charged
      dsimp only at set ⊢
      omega
  | @retire l index m m' found closed mailbox retired =>
      obtain ⟨lighter, same, -⟩ := Mailbox.burden_retire s.audience retired
      refine descends_of_paid {} (.of_nil rfl) found ?_
      have set := Listener.load_set s.audience s.published mailbox m'
      have relapsed := sum_map_set Mailbox.relapses mailbox m'
      rw [same] at relapsed
      dsimp only
      rw [Nat.add_right_cancel relapsed, Effects.cost_of_nil _ rfl]
      omega
  | @closeListener l found closing ended =>
      refine descends_of_paid {} (.of_nil rfl) found ?_
      rw [Effects.cost_of_nil _ rfl]
      simp only [Listener.load, closing, ListenerState.remaining]
      omega

theorem Feeding.stage_eq (h : Feeding s marks u) : u.stage = s.stage := by
  cases h <;> rfl

theorem Feeding.exists_listener (h : Feeding s marks u) : ∃ l, s.listener = some l := by
  cases h <;> exact ⟨_, ‹_›⟩

/-- No step brings more than one relapse. -/
theorem Feeding.relapses_le (h : Feeding s marks u) : u.relapses ≤ s.relapses + 1 := by
  cases h with
  | lag found receiving reading =>
      rw [relapses_of_some found]
      exact Nat.le_succ _
  | hear found receiving reading =>
      rw [relapses_of_some found, relapses_of_some rfl, map_offerAll (Mailbox.relapses_offer · _)]
      exact Nat.le_succ _
  | @serve l index m m' effects found mailbox taken =>
      have changed := relapses_setMailbox found mailbox m'
      have once := (Mailbox.relapses_take taken).1
      omega
  | @retire l index m m' found closed mailbox retired =>
      have changed := relapses_setMailbox found mailbox m'
      have same := (Mailbox.burden_retire 0 retired).2.1
      omega
  | closeListener found closing ended =>
      rw [relapses_of_some found]
      exact Nat.le_succ _

/-- A mailbox is put in the place of another one of the same subscriber. -/
theorem IsStaffed.setMailbox (h : s.IsStaffed) {l : Listener} (found : s.listener = some l)
    {index : Nat} {m m' : Mailbox} (mailbox : l.mailboxes[index]? = some m)
    (same : m'.subscriber = m.subscriber) : (s.setMailbox l index m').IsStaffed := by
  rintro _ ⟨⟩
  obtain ⟨inside, rfl⟩ := List.getElem?_eq_some_iff.mp mailbox
  change (l.mailboxes.set index m').map (·.subscriber) = s.setup.subscribers
  have there : index < (l.mailboxes.map (·.subscriber)).length := by simpa using inside
  have known : (l.mailboxes.map (·.subscriber))[index] = m'.subscriber := by
    rw [List.getElem_map, same]
  rw [← h l found, List.map_set, ← known, List.set_getElem_self]

theorem Feeding.staffed (staffed : s.IsStaffed) (h : Feeding s marks u) :
    (u.writeAll marks).IsStaffed := by
  change u.IsStaffed
  cases h with
  | @lag l lost position found receiving reading =>
      rintro _ ⟨⟩
      exact staffed l found
  | hear found receiving reading =>
      rintro _ ⟨⟩
      exact (map_offerAll (Mailbox.subscriber_offer · _) _).trans (staffed _ found)
  | serve found mailbox taken =>
      exact staffed.setMailbox found mailbox (Mailbox.relapses_take taken).2
  | retire found closed mailbox retired =>
      exact staffed.setMailbox found mailbox (Mailbox.burden_retire 0 retired).2.2
  | @closeListener l found closing ended =>
      rintro _ ⟨⟩
      exact staffed l found

end Supervisor

end Supervision
