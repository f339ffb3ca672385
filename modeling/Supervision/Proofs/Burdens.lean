import Mathlib.Algebra.GroupWithZero.Nat
import Supervision.Proofs.Marks

/-!
# What an event can lead to

A mailbox that refuses an event publishes a report about it, and so does a worker whose subscriber
panics at one. Neither does so for a report of its own kind. So a report about a panic can lead to
reports about refusals, but a report about a refusal leads to another report in one way only: a
subscriber panics at it. That is called a relapse here.

Every event has a burden. It pays for the steps and the reports that the event can lead to in a
mailbox, with the burdens of those reports included, as long as there is no relapse; a relapse costs
a fixed charge on top. `audience` is the number of mailboxes.

Results:
1. `Mailbox.burden_offer`, `burden_offerAll`: the burden of an event that is offered pays for the
   reports of those who refuse it.
2. `Mailbox.burden_take`, `Mailbox.burden_release`: what a worker takes pays for what it publishes,
   at once or when a wait ends in a panic, but for a relapse.
3. `Mailbox.relapses_of_isSteady`: a subscriber that does not panic at reports about refusals never
   relapses.
-/

namespace Supervision

namespace Event

/-- What an event in a mailbox can lead to. -/
def burden (audience : Nat) (e : Event) : Nat :=
  match e.kind with
  | .subscriberOverflow => 1
  | .subscriberPanicked => audience + 2
  | _ => audience * (audience + 2) + 3

/-- What an event in the feed can lead to: it is read, and every mailbox may take it. -/
def toll (audience : Nat) (e : Event) : Nat := 1 + audience * e.burden audience

theorem burden_pos (audience : Nat) (e : Event) : 0 < e.burden audience := by
  unfold burden
  split <;> omega

theorem toll_pos (audience : Nat) (e : Event) : 0 < e.toll audience := by
  unfold toll
  omega

theorem burden_le (audience : Nat) (e : Event) :
    e.burden audience ≤ audience * (audience + 2) + 3 := by
  have square : audience ≤ audience * (audience + 2) := Nat.le_mul_of_pos_right audience (by omega)
  unfold burden
  split <;> omega

end Event

/-- What a report about a panic costs that was raised by a report about a refusal. -/
def relapseCharge (audience : Nat) : Nat := audience * (audience + 2) + 2

/-- What publishing the events of some effects costs, one for each event besides its toll. -/
def Effects.cost (audience : Nat) (effects : Effects) : Nat :=
  effects.events.length + (effects.events.map (Event.toll audience)).sum

@[simp] theorem Effects.cost_append (audience : Nat) (a b : Effects) :
    (a ++ b).cost audience = a.cost audience + b.cost audience := by
  change (a.events ++ b.events).length + ((a.events ++ b.events).map (Event.toll audience)).sum = _
  rw [List.length_append, List.map_append, List.sum_append]
  unfold cost
  omega

theorem Effects.cost_of_nil (audience : Nat) {effects : Effects} (h : effects.events = []) :
    effects.cost audience = 0 := by
  simp [cost, h]

/-- What the report about a panic at an event costs, if there is one. -/
def panicCost (audience : Nat) (e : Event) : Nat :=
  if e.kind = .subscriberPanicked then 0 else relapseCharge audience

theorem Mailbox.cost_panicEffects (audience : Nat) (m : Mailbox) (payload : Payload) (e : Event) :
    (m.panicEffects payload e).cost audience = panicCost audience e := by
  by_cases panicked : e.kind = .subscriberPanicked
  · rw [panicCost, if_pos panicked, Effects.cost_of_nil audience (by simp [panicEffects, panicked])]
  · rw [panicCost, if_neg panicked]
    simp [panicEffects, Effects.cost, panicked, Event.toll, Event.burden, Event.panicked,
      relapseCharge]
    omega

/-- An event pays for a panic at it, unless it is a report about a refusal. -/
theorem panicCost_lt (audience : Nat) (e : Event) :
    panicCost audience e <
      e.burden audience + relapseCharge audience * (e.kind == .subscriberOverflow).toNat := by
  have positive := e.burden_pos audience
  unfold panicCost
  split
  · omega
  · next other =>
      by_cases overflow : e.kind = .subscriberOverflow
      · simp [overflow]
        omega
      · have large : e.burden audience = audience * (audience + 2) + 3 := by
          unfold Event.burden
          split <;> first | contradiction | rfl
        rw [large, relapseCharge]
        omega

/-! ## Relapses -/

/-- Does the subscriber panic, at once or after a wait? -/
def Reaction.isPanic : Reaction → Bool
  | .panics _ | .waits (some _) => true
  | _ => false

namespace Subscriber

/-- Does the subscriber panic at the event, a report about a refusal? -/
def isRelapse (sub : Subscriber) (earlier : List Event) (e : Event) : Bool :=
  e.kind == .subscriberOverflow && (sub.react earlier e).isPanic

/-- How often the subscriber relapses at some events that come after the earlier ones. -/
def relapses (sub : Subscriber) (earlier : List Event) : List Event → Nat
  | [] => 0
  | e :: rest => (sub.isRelapse earlier e).toNat + sub.relapses (earlier ++ [e]) rest

theorem relapses_concat (sub : Subscriber) (earlier later : List Event) (e : Event) :
    sub.relapses earlier (later ++ [e]) =
      sub.relapses earlier later + (sub.isRelapse (earlier ++ later) e).toNat := by
  induction later generalizing earlier with
  | nil => simp [relapses]
  | cons first rest ih => simp [relapses, ih, Nat.add_assoc]

/-- The subscriber never panics at a report about a refusal. -/
def IsSteady (sub : Subscriber) : Prop :=
  ∀ earlier e, e.kind = .subscriberOverflow → (sub.react earlier e).isPanic = false

theorem IsSteady.relapses {sub : Subscriber} (h : sub.IsSteady) (earlier events : List Event) :
    sub.relapses earlier events = 0 := by
  induction events generalizing earlier with
  | nil => rfl
  | cons e rest ih =>
      have calm : sub.isRelapse earlier e = false := by
        by_cases overflow : e.kind = .subscriberOverflow
        · simp [isRelapse, h earlier e overflow]
        · simp [isRelapse, overflow]
      simp [Subscriber.relapses, calm, ih]

/-- A subscriber that reacts in one way never relapses, unless it panics at reports about
refusals. -/
theorem isSteady_reacting {kinds : List EventKind} {reaction : Reaction}
    (h : .subscriberOverflow ∉ kinds ∨ reaction.isPanic = false) (name : String) (capacity : Nat) :
    (reacting name capacity kinds reaction).IsSteady := by
  intro earlier e overflow
  dsimp only [reacting]
  split
  · next reacts =>
      rw [overflow, List.contains_iff_mem] at reacts
      exact h.resolve_left (not_not_intro reacts)
  · rfl

theorem isSteady_logWriter : logWriter.IsSteady := fun _ _ _ => rfl

end Subscriber

/-! ## Mailboxes -/

/-- A refusal costs no more than the event that is refused. -/
theorem Refusal.cost_effects_le (audience : Nat) (refusal : Refusal) (name : String) (e : Event) :
    (refusal.effects name e).cost audience ≤ e.burden audience := by
  have square : audience ≤ audience * (audience + 2) := Nat.le_mul_of_pos_right audience (by omega)
  by_cases overflow : e.kind = .subscriberOverflow
  · simp [Refusal.effects, Effects.cost, overflow]
  · have report : (refusal.effects name e).cost audience = audience + 2 := by
      simp [Refusal.effects, Effects.cost, overflow, Event.toll, Event.burden, Event.overflow]
      omega
    rw [report]
    unfold Event.burden
    split <;> first | contradiction | omega

namespace Mailbox

/-- How often the subscriber has relapsed. -/
def relapses (m : Mailbox) : Nat := m.subscriber.relapses [] m.handled

/-- What the events in the queue can lead to, the end of the worker and the panic that ends its
wait. -/
def burden (audience : Nat) (m : Mailbox) : Nat :=
  (m.queue.map (Event.burden audience)).sum + (if m.isOver then 0 else 1) +
    match m.worker with
    | .waiting e (some _) => panicCost audience e
    | _ => 0

theorem relapses_of_isSteady {m : Mailbox} (h : m.subscriber.IsSteady) : m.relapses = 0 :=
  h.relapses [] m.handled

/-! ### Offering -/

theorem burden_offer (audience : Nat) (m : Mailbox) (e : Event) :
    (m.offer e).1.burden audience + (m.offer e).2.cost audience ≤
      m.burden audience + e.burden audience := by
  unfold offer
  split
  · next refusal _ =>
      exact Nat.add_le_add_left (refusal.cost_effects_le audience m.subscriber.name e) _
  · have same : ({ m with queue := m.queue ++ [e] } : Mailbox).isOver = m.isOver := rfl
    simp [burden, same, Effects.cost]
    omega

theorem relapses_offer (m : Mailbox) (e : Event) : (m.offer e).1.relapses = m.relapses := by
  unfold offer
  split <;> rfl

theorem subscriber_offer (m : Mailbox) (e : Event) : (m.offer e).1.subscriber = m.subscriber := by
  unfold offer
  split <;> rfl

/-! ### Taking -/

/-- The subscriber has handled one event more, and its worker goes on, waits or is dead. -/
theorem handled_handle (m : Mailbox) (e : Event) : (m.handle e).1.handled = m.handled ++ [e] ∧
    (m.handle e).1.subscriber = m.subscriber := by
  unfold handle
  dsimp only
  split <;> exact ⟨rfl, rfl⟩

theorem relapses_handle (m : Mailbox) (e : Event) :
    (m.handle e).1.relapses = m.relapses + (m.subscriber.isRelapse m.handled e).toNat := by
  rw [relapses, (m.handled_handle e).1, (m.handled_handle e).2, m.subscriber.relapses_concat]
  rfl

/-- The event that a subscriber is handed pays for what comes of it, but for a relapse. -/
theorem burden_handle_lt (audience : Nat) {m : Mailbox} (idle : m.worker = .idle) (e : Event) :
    (m.handle e).1.burden audience + (m.handle e).2.cost audience <
      m.burden audience + e.burden audience +
        relapseCharge audience * (m.subscriber.isRelapse m.handled e).toNat := by
  have positive := e.burden_pos audience
  have panic := panicCost_lt audience e
  have own : m.burden audience = (m.queue.map (Event.burden audience)).sum + 1 := by
    simp [burden, isOver, idle]
  rw [own]
  cases reaction : m.subscriber.react m.handled e with
  | panics payload =>
      have relapse : m.subscriber.isRelapse m.handled e = (e.kind == .subscriberOverflow) := by
        simp [Subscriber.isRelapse, reaction, Reaction.isPanic]
      have handled : m.handle e =
          ({ m with handled := m.handled ++ [e] }, m.panicEffects payload e) := by
        simp [handle, reaction]
      have kept : ({ m with handled := m.handled ++ [e] } : Mailbox).burden audience =
          m.burden audience := rfl
      rw [relapse, handled, kept, own, cost_panicEffects]
      omega
  | waits panic =>
      have cheap : (m.handle e).2.cost audience = 0 :=
        Effects.cost_of_nil audience (by simp [handle, reaction])
      rw [cheap]
      cases panic with
      | none =>
          simp [handle, reaction, burden, isOver]
          omega
      | some payload =>
          have relapse : m.subscriber.isRelapse m.handled e = (e.kind == .subscriberOverflow) := by
            simp [Subscriber.isRelapse, reaction, Reaction.isPanic]
          rw [relapse]
          simp only [handle, reaction, burden, isOver]
          simp
          omega
  | returns | records | dies =>
      rw [Effects.cost_of_nil audience (by simp [handle, reaction])]
      simp [handle, reaction, burden, isOver, idle] <;> omega

/-- An idle worker takes the first event in the queue. -/
theorem take_eq {m m' : Mailbox} {effects : Effects} (h : m.take = some (m', effects)) :
    ∃ e rest, m.worker = .idle ∧ m.queue = e :: rest ∧
      ({ m with queue := rest } : Mailbox).handle e = (m', effects) := by
  unfold take at h
  split at h
  · next e rest idle queue => exact ⟨e, rest, idle, queue, Option.some.inj h⟩
  · cases h

theorem isOver_of_isWaiting {m : Mailbox} (waits : m.isWaiting = true) : m.isOver = false := by
  cases worker : m.worker with
  | waiting => simp [isOver, worker]
  | idle | dead | ended => simp [isWaiting, worker] at waits

/-- A worker takes the first event out of its queue. Unless the subscriber dies of it, the rest of
the queue stays, and the worker is idle or waits. -/
theorem take_cases {m m' : Mailbox} {effects : Effects} (h : m.take = some (m', effects)) :
    ∃ e rest, m.worker = .idle ∧ m.queue = e :: rest ∧ m'.handled = m.handled ++ [e] ∧
      (m.subscriber.react m.handled e = .dies ∧ m'.worker = .dead ∨
        m'.queue = rest ∧ (m'.worker = .idle ∨ m'.isWaiting = true)) := by
  obtain ⟨e, rest, idle, queue, same⟩ := take_eq h
  have handled := (handled_handle { m with queue := rest } e).1
  rw [same] at handled
  refine ⟨e, rest, idle, queue, handled, ?_⟩
  unfold handle at same
  dsimp only at same
  split at same <;> cases same
  case h_4 => exact .inr ⟨rfl, .inr rfl⟩
  case h_5 dies => exact .inl ⟨dies, rfl⟩
  all_goals exact .inr ⟨rfl, .inl idle⟩

/-- Whatever a worker takes out of its queue pays for the step and for what it publishes, but for a
relapse. -/
theorem burden_take (audience : Nat) {m m' : Mailbox} {effects : Effects}
    (h : m.take = some (m', effects)) :
    m'.burden audience + effects.cost audience + 1 + relapseCharge audience * m.relapses ≤
      m.burden audience + relapseCharge audience * m'.relapses := by
  obtain ⟨e, rest, idle, queue, handled⟩ := take_eq h
  have cheap := burden_handle_lt audience (m := { m with queue := rest }) idle e
  have relapses := relapses_handle { m with queue := rest } e
  rw [handled] at cheap relapses
  dsimp only at cheap relapses
  have before : m.burden audience =
      e.burden audience + ({ m with queue := rest } : Mailbox).burden audience := by
    simp [burden, queue, isOver, Nat.add_assoc]
  have same : ({ m with queue := rest } : Mailbox).relapses = m.relapses := rfl
  rw [relapses, same, before, Nat.mul_add]
  omega

theorem relapses_take {m m' : Mailbox} {effects : Effects} (h : m.take = some (m', effects)) :
    m'.relapses ≤ m.relapses + 1 ∧ m'.subscriber = m.subscriber := by
  obtain ⟨e, rest, -, -, handled⟩ := take_eq h
  have relapses := relapses_handle { m with queue := rest } e
  have subscriber := (handled_handle { m with queue := rest } e).2
  rw [handled] at relapses subscriber
  have once := Bool.toNat_le (m.subscriber.isRelapse m.handled e)
  exact ⟨Nat.le_trans (Nat.le_of_eq relapses) (Nat.add_le_add_left once _), subscriber⟩

/-! ### Going on and ending -/

/-- Only a waiting subscriber can go on, and then its worker is idle. If the wait ends in a panic,
that is reported. -/
theorem release_eq {m m' : Mailbox} {effects : Effects} (h : m.release = some (m', effects)) :
    m' = { m with worker := .idle } ∧ ∃ e, (m.worker = .waiting e none ∧ effects = {}) ∨
      ∃ payload, m.worker = .waiting e (some payload) ∧ effects = m.panicEffects payload e := by
  unfold release at h
  split at h
  · next e panic waiting =>
      cases h
      cases panic with
      | none => exact ⟨rfl, e, .inl ⟨waiting, rfl⟩⟩
      | some payload => exact ⟨rfl, e, .inr ⟨payload, waiting, rfl⟩⟩
  · cases h

/-- Only an idle worker with nothing in its queue can end. -/
theorem retire_eq {m m' : Mailbox} (h : m.retire = some m') :
    m.worker = .idle ∧ m.queue = [] ∧ m' = { m with worker := .ended } := by
  obtain ⟨⟨idle, empty⟩, h⟩ := Option.ite_none_right_eq_some.mp h
  exact ⟨idle, empty, (Option.some.inj h).symm⟩

theorem burden_release (audience : Nat) {m m' : Mailbox} {effects : Effects}
    (h : m.release = some (m', effects)) :
    m'.burden audience + effects.cost audience = m.burden audience ∧ m'.relapses = m.relapses ∧
      m'.subscriber = m.subscriber := by
  obtain ⟨rfl, e, ⟨waiting, rfl⟩ | ⟨payload, waiting, rfl⟩⟩ := release_eq h
  · refine ⟨?_, rfl, rfl⟩
    rw [Effects.cost_of_nil audience rfl]
    simp [burden, isOver, waiting]
  · refine ⟨?_, rfl, rfl⟩
    rw [cost_panicEffects]
    simp [burden, isOver, waiting]

theorem burden_retire (audience : Nat) {m m' : Mailbox} (h : m.retire = some m') :
    m'.burden audience + 1 = m.burden audience ∧ m'.relapses = m.relapses ∧
      m'.subscriber = m.subscriber := by
  obtain ⟨idle, empty, rfl⟩ := retire_eq h
  exact ⟨by simp [burden, isOver, idle, empty], rfl, rfl⟩

end Mailbox

/-! ## All mailboxes -/

theorem burden_offerAll (audience : Nat) (mailboxes : List Mailbox) (e : Event) :
    ((offerAll mailboxes e).1.map (Mailbox.burden audience)).sum +
        (offerAll mailboxes e).2.cost audience ≤
      (mailboxes.map (Mailbox.burden audience)).sum + mailboxes.length * e.burden audience := by
  induction mailboxes with
  | nil => simp [offerAll, Effects.cost]
  | cons m rest ih =>
      have own := m.burden_offer audience e
      simp only [offerAll, List.map_cons, List.sum_cons, List.length_cons, Effects.cost_append,
        Nat.add_mul, Nat.one_mul]
      omega

theorem map_offerAll {α : Type} {f : Mailbox → α} {e : Event}
    (same : ∀ m : Mailbox, f (m.offer e).1 = f m) (mailboxes : List Mailbox) :
    (offerAll mailboxes e).1.map f = mailboxes.map f := by
  induction mailboxes with
  | nil => rfl
  | cons m rest ih => simp [offerAll, same, ih]

end Supervision
