import Mathlib.Data.List.DropRight
import Supervision.Proofs.Endurance

/-!
# Subscribers among others

The subscribers of an audience get the same events and share the gate, and nothing else. What an
operation gives one of them, its share, is the same wherever the subscriber stands and whatever the
others do: they may be too slow, panic or die.

Results:
1. `SamePlace.perform`, `SamePlace.share_eq`: two audiences that agree on one subscriber go on doing
   so, and give it the same share.
2. `isShared`: all that is seen of an operation is what its shares say.
3. `unaffected`: both together, from the beginning on.
-/

namespace Supervision

namespace Audience

variable {a b : Audience} {i j : Nat}

/-! ## Shares -/

/-- What an operation gives one subscriber. -/
structure Share where
  /-- The events that it is handed, in order. -/
  seen : List Event
  /-- The events that its mailbox refuses, in order, and why. -/
  refused : List (Event × Refusal)
  /-- The reports of the panics that it raises, of which some come after a wait. -/
  panics : List Event
deriving DecidableEq, Repr

/-- The reports that come of refused events, unless they are themselves such reports. -/
def overflowsOf (name : String) (refused : List (Event × Refusal)) : List Event :=
  refused.filterMap fun (e, refusal) =>
    if e.kind = .subscriberOverflow then none else some (.overflow name refusal.reason)

/-- The name of the subscriber at a position. -/
def nameAt (a : Audience) (index : Nat) : String :=
  (a.mailboxes[index]?.map (·.subscriber.name)).getD ""

/-- The events that the subscriber at a position was handed so far. -/
def handedTo (a : Audience) (index : Nat) : List Event :=
  (a.mailboxes[index]?.map (·.handled)).getD []

/-- What the mailbox at a position refuses while an event is emitted some times. -/
def refusals (index : Nat) (e : Event) : Nat → Audience → List (Event × Refusal)
  | 0, _ => []
  | times + 1, a =>
      ((a.mailboxes[index]?.bind (·.refusal)).map (e, ·)).toList ++
        refusals index e times (emit e 1 a).1

/-- The reports of the panics that the subscriber at a position raises while it handles some more
events, after the one that it owes. -/
def panicsAt (a : Audience) (index : Nat) (events : List Event) : List Event :=
  (a.mailboxes[index]?.map fun m =>
    m.owed ++ m.subscriber.panicReports m.handled events).getD []

/-- The report that the subscriber at a position owes as long as it waits. -/
def owedAt (a : Audience) (index : Nat) : List Event :=
  (a.mailboxes[index]?.map (·.owed)).getD []

/-- What an operation gives the subscriber at a position. A report that it owes in the end is left
out. -/
def share (a : Audience) (index : Nat) (op : Operation) : Share :=
  let seen := ((a.perform op).1.handedTo index).drop (a.handedTo index).length
  { seen
    refused := match op with
      | .emit e times => if a.closing then [] else refusals index e times a
      | _ => []
    panics := (a.panicsAt index seen).rdrop ((a.perform op).1.owedAt index).length }

/-- What some operations in turn give the subscriber at a position. -/
def shares (index : Nat) (a : Audience) : List Operation → List Share
  | [] => []
  | op :: rest => a.share index op :: shares index (a.perform op).1 rest

/-! ## Two audiences with one subscriber in common -/

/-- Two audiences agree on the mailbox that has the position `i` in one and `j` in the other, on the
gate, and on whether further events come. -/
structure SamePlace (a b : Audience) (i j : Nat) : Prop where
  mailbox : a.mailboxes[i]? = b.mailboxes[j]?
  gateOpen : a.gateOpen = b.gateOpen
  closing : a.closing = b.closing

theorem emit_fst (e : Event) (times : Nat) (a : Audience) :
    (emit e (times + 1) a).1 = (emit e times (emit e 1 a).1).1 := rfl

theorem emit_one (e : Event) (a : Audience) :
    (emit e 1 a).1 = { a with mailboxes := a.mailboxes.map fun m => (m.offer e).1 } := by
  rw [← offerAll_fst]
  rfl

theorem emit_one_snd (e : Event) (a : Audience) :
    (emit e 1 a).2 = (offerAll a.mailboxes e).2 := Effects.append_empty _

namespace SamePlace

theorem emit_one (h : SamePlace a b i j) (e : Event) :
    SamePlace (emit e 1 a).1 (emit e 1 b).1 i j := by
  rw [Audience.emit_one, Audience.emit_one]
  refine ⟨?_, h.gateOpen, h.closing⟩
  rw [List.getElem?_map, List.getElem?_map, h.mailbox]

theorem emit (h : SamePlace a b i j) (e : Event) (times : Nat) :
    SamePlace (Audience.emit e times a).1 (Audience.emit e times b).1 i j := by
  induction times generalizing a b with
  | zero => exact h
  | succ times ih => exact ih (h.emit_one e)

theorem settle (h : SamePlace a b i j) : SamePlace a.settle.1 b.settle.1 i j := by
  refine ⟨?_, h.gateOpen, h.closing⟩
  change (settleAll a.gateOpen a.closing a.mailboxes).1[i]? =
    (settleAll b.gateOpen b.closing b.mailboxes).1[j]?
  rw [settleAll_fst, settleAll_fst, List.getElem?_map, List.getElem?_map, h.mailbox, h.gateOpen,
    h.closing]

/-- Whatever is done to both of them, they go on agreeing. -/
theorem perform (h : SamePlace a b i j) (op : Operation) :
    SamePlace (a.perform op).1 (b.perform op).1 i j := by
  cases op with
  | emit e times =>
      unfold Audience.perform
      dsimp only
      rw [h.closing]
      split
      · exact h
      · exact h.emit e times
  | settle => exact h.settle
  | openGate => exact settle ⟨h.mailbox, rfl, h.closing⟩
  | shutdown => exact settle ⟨h.mailbox, h.gateOpen, rfl⟩

theorem handedTo_eq (h : SamePlace a b i j) : a.handedTo i = b.handedTo j := by
  rw [handedTo, h.mailbox, handedTo]

theorem refusals_eq (h : SamePlace a b i j) (e : Event) (times : Nat) :
    refusals i e times a = refusals j e times b := by
  induction times generalizing a b with
  | zero => rfl
  | succ times ih => rw [refusals, h.mailbox, ih (h.emit_one e), refusals]

/-- Both give their subscriber the same. -/
theorem share_eq (h : SamePlace a b i j) (op : Operation) : a.share i op = b.share j op := by
  have seen : ((a.perform op).1.handedTo i).drop (a.handedTo i).length =
      ((b.perform op).1.handedTo j).drop (b.handedTo j).length := by
    rw [h.handedTo_eq, (h.perform op).handedTo_eq]
  have panics : ∀ events, a.panicsAt i events = b.panicsAt j events := fun events => by
    rw [panicsAt, h.mailbox, panicsAt]
  have owed : (a.perform op).1.owedAt i = (b.perform op).1.owedAt j := by
    rw [owedAt, (h.perform op).mailbox, owedAt]
  unfold share
  dsimp only
  rw [seen, panics, owed, h.closing]
  cases op with
  | emit e times => simp only [h.refusals_eq]
  | settle | openGate | shutdown => rfl

theorem shares_eq (h : SamePlace a b i j) (ops : List Operation) :
    shares i a ops = shares j b ops := by
  induction ops generalizing a b with
  | nil => rfl
  | cons op rest ih => rw [shares, h.share_eq op, ih (h.perform op), shares]

end SamePlace

/-! ## What is seen of an operation -/

/-- What is seen of an operation is what it gives the subscribers, one by one: the events that they
are handed, the reports of their refusals, and the reports of their panics. -/
structure IsShared (a : Audience) (op : Operation) : Prop where
  seen : (a.observe op).2.seen =
    (List.range a.mailboxes.length).map fun index => (a.share index op).seen
  overflows : (a.observe op).2.overflows.Perm ((List.range a.mailboxes.length).flatMap fun index =>
    overflowsOf (a.nameAt index) (a.share index op).refused)
  panics : (a.observe op).2.panics.Perm
    ((List.range a.mailboxes.length).flatMap fun index => (a.share index op).panics)

theorem map_range_eq {α β : Type} {list : List α} {atPlace : Nat → β} {f : α → β}
    (each : ∀ (index : Nat) (x : α), list[index]? = some x → atPlace index = f x) :
    (List.range list.length).map atPlace = list.map f := by
  refine List.ext_getElem (by simp) fun index inside inside' => ?_
  rw [List.getElem_map, List.getElem_range, List.getElem_map]
  exact each index _ (List.getElem?_eq_getElem _)

theorem flatMap_range_eq {α β : Type} {list : List α} {atPlace : Nat → List β} {f : α → List β}
    (each : ∀ (index : Nat) (x : α), list[index]? = some x → atPlace index = f x) :
    (List.range list.length).flatMap atPlace = list.flatMap f := by
  rw [List.flatMap_def, map_range_eq each, List.flatMap_def]

theorem kind_of_mem_overflowsOf {name : String} {refused : List (Event × Refusal)} {report : Event}
    (h : report ∈ overflowsOf name refused) : report.kind = .subscriberOverflow := by
  obtain ⟨⟨e, refusal⟩, -, made⟩ := List.mem_filterMap.mp h
  obtain ⟨-, made⟩ := Option.ite_none_left_eq_some.mp made
  cases made
  rfl

theorem kind_of_mem_panicsAt {index : Nat} {events : List Event} {report : Event}
    (h : report ∈ a.panicsAt index events) : report.kind = .subscriberPanicked := by
  unfold panicsAt at h
  cases found : a.mailboxes[index]? with
  | none => simp [found] at h
  | some m =>
      rw [found] at h
      rcases List.mem_append.mp h with owed | raised
      · exact Mailbox.kind_of_mem_owed owed
      · exact Subscriber.kind_of_mem_panicReports raised

/-! ### Emitting -/

theorem handled_offer (m : Mailbox) (e : Event) : (m.offer e).1.handled = m.handled := by
  unfold Mailbox.offer
  split <;> rfl

theorem length_emit_one (e : Event) (a : Audience) :
    (emit e 1 a).1.mailboxes.length = a.mailboxes.length := by
  rw [emit_one, List.length_map]

/-- What does not change when an event is offered, does not change while it is emitted some
times. -/
theorem map_emit {β : Type} {f : Mailbox → β} {e : Event}
    (same : ∀ m : Mailbox, f (m.offer e).1 = f m) (times index : Nat) (a : Audience) :
    (emit e times a).1.mailboxes[index]?.map f = a.mailboxes[index]?.map f := by
  induction times generalizing a with
  | zero => rfl
  | succ times ih =>
      rw [emit_fst, ih, emit_one, List.getElem?_map, Option.map_map]
      simp only [Function.comp_def, same]

theorem handedTo_emit (e : Event) (times index : Nat) (a : Audience) :
    (emit e times a).1.handedTo index = a.handedTo index := by
  rw [handedTo, map_emit (handled_offer · e), handedTo]

theorem owedAt_emit (e : Event) (times index : Nat) (a : Audience) :
    (emit e times a).1.owedAt index = a.owedAt index := by
  rw [owedAt, map_emit (Mailbox.owed_offer · e), owedAt]

theorem nameAt_emit_one (e : Event) (index : Nat) (a : Audience) :
    (emit e 1 a).1.nameAt index = a.nameAt index := by
  rw [nameAt, map_emit fun m => congrArg Subscriber.name (m.subscriber_offer e), nameAt]

/-- What is published about the refusals of one event, mailbox by mailbox. -/
theorem events_emit_one (e : Event) (a : Audience) :
    (emit e 1 a).2.events = (List.range a.mailboxes.length).flatMap fun index =>
      overflowsOf (a.nameAt index)
        ((a.mailboxes[index]?.bind (·.refusal)).map (e, ·)).toList := by
  have each : ∀ (index : Nat) (m : Mailbox), a.mailboxes[index]? = some m →
      overflowsOf (a.nameAt index) ((a.mailboxes[index]?.bind (·.refusal)).map (e, ·)).toList =
        if e.kind = .subscriberOverflow then []
        else (m.refusal.map fun refusal => .overflow m.subscriber.name refusal.reason).toList := by
    intro index m found
    cases refused : m.refusal with
    | none => simp [overflowsOf, found, refused]
    | some refusal => by_cases report : e.kind = .subscriberOverflow <;>
        simp [overflowsOf, nameAt, found, refused, report]
  rw [emit_one_snd, events_offerAll, flatMap_range_eq each]
  split
  · rw [List.flatMap_eq_nil_iff.mpr fun _ _ => rfl]
  · rw [List.filterMap_eq_flatMap_toList]

/-- What is published about the refusals while an event is emitted some times. -/
theorem events_emit (e : Event) (times : Nat) (a : Audience) :
    (emit e times a).2.events.Perm ((List.range a.mailboxes.length).flatMap fun index =>
      overflowsOf (a.nameAt index) (refusals index e times a)) := by
  induction times generalizing a with
  | zero =>
      have silent : ((List.range a.mailboxes.length).flatMap fun index =>
          overflowsOf (a.nameAt index) (refusals index e 0 a)) = [] :=
        List.flatMap_eq_nil_iff.mpr fun _ _ => rfl
      rw [silent]
      exact .refl _
  | succ times ih =>
      have later := ih (emit e 1 a).1
      rw [length_emit_one] at later
      simp only [nameAt_emit_one] at later
      have both : (emit e (times + 1) a).2.events =
          (emit e 1 a).2.events ++ (emit e times (emit e 1 a).1).2.events := by
        rw [emit_one_snd]
        rfl
      rw [both, events_emit_one]
      simp only [refusals, overflowsOf, List.filterMap_append] at later ⊢
      exact (later.append_left _).trans (List.flatMap_append_perm ..)

/-! ### All operations -/

theorem length_emit (e : Event) (times : Nat) (a : Audience) :
    (emit e times a).1.mailboxes.length = a.mailboxes.length := by
  induction times generalizing a with
  | zero => rfl
  | succ times ih => rw [emit_fst, ih, length_emit_one]

theorem length_settle (a : Audience) : a.settle.1.mailboxes.length = a.mailboxes.length := by
  change (settleAll a.gateOpen a.closing a.mailboxes).1.length = a.mailboxes.length
  rw [settleAll_fst, List.length_map]

theorem length_perform (a : Audience) (op : Operation) :
    (a.perform op).1.mailboxes.length = a.mailboxes.length := by
  cases op with
  | emit e times =>
      unfold perform
      dsimp only
      split
      · rfl
      · exact length_emit e times a
  | settle | openGate | shutdown => exact length_settle _

theorem seen_eq (a : Audience) (op : Operation) : (a.observe op).2.seen =
    (List.range a.mailboxes.length).map fun index => (a.share index op).seen := by
  have length := length_perform a op
  refine List.ext_getElem (by simp [observe, length]) fun index inside inside' => ?_
  have within : index < a.mailboxes.length := by simpa using inside'
  have within' : index < (a.perform op).1.mailboxes.length := length ▸ within
  simp [observe, share, handedTo, within, within']

/-- The reports of panics are seen in another order than that in which they were published. -/
theorem observed_panics (a : Audience) (op : Operation) :
    (a.observe op).2.panics.Perm (panicsAmong (a.perform op).2.events) := sortBy_perm _ _

/-- The share in an operation that lets the workers run. -/
theorem share_of_settle {c : Audience} {op : Operation} (performed : a.perform op = c.settle)
    (same : c.mailboxes = a.mailboxes) {index : Nat} {m : Mailbox}
    (found : a.mailboxes[index]? = some m) :
    (a.share index op).panics = (settled c.gateOpen c.closing m).2.events := by
  have works := Mailbox.works_settled c.gateOpen c.closing m
  have after : (a.perform op).1.mailboxes[index]? = some (settled c.gateOpen c.closing m).1 := by
    rw [performed]
    change (settleAll c.gateOpen c.closing c.mailboxes).1[index]? = _
    rw [settleAll_fst, List.getElem?_map, same, found, Option.map_some]
  obtain ⟨seen, handled, reports⟩ := works.reports
  simp [share, handedTo, panicsAt, owedAt, found, after, handled, reports]

theorem isShared_of_settle {c : Audience} {op : Operation} (performed : a.perform op = c.settle)
    (same : c.mailboxes = a.mailboxes) (calm : ∀ e times, op ≠ .emit e times) : IsShared a op := by
  have events : (a.perform op).2.events =
      (List.range a.mailboxes.length).flatMap fun index => (a.share index op).panics := by
    rw [flatMap_range_eq fun _ _ => share_of_settle performed same, ← same, performed]
    exact events_settleAll ..
  have kind : ∀ e ∈ (a.perform op).2.events, e.kind = .subscriberPanicked := by
    rw [events]
    intro e member
    obtain ⟨index, -, member⟩ := List.mem_flatMap.mp member
    exact kind_of_mem_panicsAt (List.mem_of_mem_take member)
  have refused : ∀ index, (a.share index op).refused = [] := by
    intro index
    cases op with
    | emit e times => exact absurd rfl (calm e times)
    | settle | openGate | shutdown => rfl
  refine ⟨seen_eq a op, ?_, ?_⟩
  · have none : (a.observe op).2.overflows = [] :=
      List.filter_eq_nil_iff.mpr fun e member => by simp [kind e member]
    rw [none]
    simp [refused, overflowsOf]
  · refine (observed_panics a op).trans ?_
    rw [panicsAmong_eq_self kind, events]

/-- The share in an operation that lets no worker run. -/
theorem share_of_still {op : Operation} {index : Nat}
    (still : (a.perform op).1.handedTo index = a.handedTo index)
    (owed : (a.perform op).1.owedAt index = a.owedAt index) : (a.share index op).panics = [] := by
  have nothing : a.panicsAt index [] = a.owedAt index := by
    unfold panicsAt owedAt
    cases a.mailboxes[index]? with
    | none => rfl
    | some m => exact List.append_nil m.owed
  simp [share, still, owed, nothing, List.rdrop]

theorem isShared_of_emit (a : Audience) (e : Event) (times : Nat) : IsShared a (.emit e times) := by
  have still : ∀ index, (a.perform (.emit e times)).1.handedTo index = a.handedTo index ∧
      (a.perform (.emit e times)).1.owedAt index = a.owedAt index := by
    intro index
    unfold perform
    dsimp only
    split
    · exact ⟨rfl, rfl⟩
    · exact ⟨handedTo_emit e times index a, owedAt_emit e times index a⟩
  have events : (a.perform (.emit e times)).2.events.Perm
      ((List.range a.mailboxes.length).flatMap fun index =>
        overflowsOf (a.nameAt index) (a.share index (.emit e times)).refused) := by
    unfold perform share
    dsimp only
    split
    · simp [overflowsOf]
    · exact events_emit e times a
  have kind : ∀ e' ∈ (a.perform (.emit e times)).2.events, e'.kind = .subscriberOverflow := by
    intro e' member
    obtain ⟨index, -, member⟩ := List.mem_flatMap.mp (events.mem_iff.mp member)
    exact kind_of_mem_overflowsOf member
  refine ⟨seen_eq a _, ?_, ?_⟩
  · have all : (a.observe (.emit e times)).2.overflows = (a.perform (.emit e times)).2.events :=
      List.filter_eq_self.mpr fun e' member => by simp [kind e' member]
    rw [all]
    exact events
  · have none : panicsAmong (a.perform (.emit e times)).2.events = [] :=
      List.filter_eq_nil_iff.mpr fun e' member => by simp [kind e' member]
    refine (observed_panics a _).trans ?_
    rw [none]
    simp [share_of_still (still _).1 (still _).2]

theorem isShared (a : Audience) (op : Operation) : IsShared a op := by
  cases op with
  | emit e times => exact isShared_of_emit a e times
  | settle => exact isShared_of_settle rfl rfl fun _ _ => Operation.noConfusion
  | openGate =>
      have performed : a.perform .openGate = ({ a with gateOpen := true } : Audience).settle := rfl
      exact isShared_of_settle performed rfl fun _ _ => Operation.noConfusion
  | shutdown =>
      have performed : a.perform .shutdown = ({ a with closing := true } : Audience).settle := rfl
      exact isShared_of_settle performed rfl fun _ _ => Operation.noConfusion

/-! ## The same subscriber in two audiences -/

/-- A subscriber that has the position `i` in one audience and `j` in another one is not affected by
the others there. -/
structure Unaffected (xs ys : List Subscriber) (i j : Nat) (ops : List Operation) : Prop where
  /-- In both audiences every operation gives it the same: what it is handed, what is refused and
  why, and the reports of its panics. -/
  same : shares i (ofSubscribers xs) ops = shares j (ofSubscribers ys) ops
  /-- The shares tell all that is seen of any operation. -/
  told : ∀ a op, IsShared a op

theorem unaffected {xs ys : List Subscriber} {s : Subscriber} (here : xs[i]? = some s)
    (there : ys[j]? = some s) (ops : List Operation) : Unaffected xs ys i j ops where
  same := by
    have agree : SamePlace (ofSubscribers xs) (ofSubscribers ys) i j :=
      ⟨by simp [ofSubscribers, here, there], rfl, rfl⟩
    exact agree.shares_eq ops
  told := isShared

/-- A subscriber with two places that waits in the middle of its first event and panics at all
others. -/
def patient : Subscriber :=
  { name := "patient", capacity := 2
    react := fun handled _ => if handled = [] then .waits else .panics (.text "no") }

/-- It comes after a subscriber that dies. -/
def frailCrowd : List Subscriber := [.reacting "frail" 1 [.taskStarting] .dies, patient]

/-- It comes before a subscriber of the same name that waits all the time, and one that panics. -/
def noisyCrowd : List Subscriber :=
  [patient, { name := "patient", capacity := 0, react := fun _ _ => .waits },
    { name := "loud", react := fun _ _ => .panics .value }]

theorem unaffected_of_crowds :
    frailCrowd[1]? = some patient ∧ noisyCrowd[0]? = some patient ∧
      shares 1 (ofSubscribers frailCrowd) [.emit (.ofKind .taskStarting) 3, .settle,
        .emit (.ofKind .taskStopped) 1, .openGate, .shutdown] =
          [⟨[], [(.ofKind .taskStarting, .full)], []⟩, ⟨[.ofKind .taskStarting], [], []⟩,
            ⟨[], [], []⟩, ⟨[.ofKind .taskStarting, .ofKind .taskStopped], [],
              [.panicked "patient" "no", .panicked "patient" "no"]⟩, ⟨[], [], []⟩] ∧
      Unaffected frailCrowd noisyCrowd 1 0 [.emit (.ofKind .taskStarting) 3, .settle,
        .emit (.ofKind .taskStopped) 1, .openGate, .shutdown] :=
  ⟨rfl, rfl, by decide, unaffected rfl rfl _⟩

end Audience

end Supervision
