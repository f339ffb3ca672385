import Supervision.Audience
import Supervision.Proofs.Hearing

/-!
# What becomes of the events that a set of subscribers is given

`Audience.Step` is the smallest step of an audience: an event is emitted, one worker takes an event,
a waiting subscriber goes on, the gate opens. The operations of an audience let all workers run one
after the other; in terms of steps any interleaving is possible. Whatever the order, each mailbox
accounts for every event that it has accepted: it was handled, or it is in progress, or it waits in
the queue, in the order in which the events were emitted.

Results:
1. `exists_steps`: every operation of an audience is some steps in turn.
2. `Accounts.take`, `Accounts.offer` and the like: what one step does to a mailbox.
3. `accounts_of_steps`: what any steps keep.
4. `eventAccounts`: where all events are, which are refused, and what is published about them.
-/

namespace Supervision

/-! ## Effects -/

namespace Effects

@[simp] theorem append_empty (e : Effects) : e ++ ({} : Effects) = e := by
  change Effects.mk (e.records ++ []) (e.events ++ []) = e
  simp

theorem append_assoc (a b c : Effects) : a ++ b ++ c = a ++ (b ++ c) := by
  change Effects.mk (a.records ++ b.records ++ c.records) (a.events ++ b.events ++ c.events) =
    Effects.mk (a.records ++ (b.records ++ c.records)) (a.events ++ (b.events ++ c.events))
  simp

end Effects

/-! ## One mailbox -/

namespace Mailbox

variable {m m' : Mailbox} {closing : Bool} {accepted : List Event}

/-- The event that the subscriber waits in the middle of. -/
def inProgress (m : Mailbox) : Option Event :=
  if m.isWaiting then m.handled.getLast? else none

/-- The events that the subscriber is done with. -/
def done (m : Mailbox) : List Event :=
  if m.isWaiting then m.handled.dropLast else m.handled

/-- The mailbox accounts for the events that it has accepted. -/
structure Accounts (m : Mailbox) (closing : Bool) (accepted : List Event) : Prop where
  bounded : m.queue.length ≤ m.subscriber.places
  waiting : ∀ e panic, m.worker = .waiting e panic → m.handled.getLast? = some e
  kept : m.worker ≠ .dead → m.handled ++ m.queue = accepted
  lost : m.worker = .dead → m.queue = [] ∧ m.handled <+: accepted
  ended : m.worker = .ended → closing = true

theorem alive_of_release {effects : Effects} (released : m.release = some (m', effects)) :
    m.worker ≠ .dead := by
  obtain ⟨-, e, ⟨waiting, -⟩ | ⟨payload, waiting, -⟩⟩ := release_eq released <;> simp [waiting]

namespace Accounts

theorem create (subscriber : Subscriber) (closing : Bool) :
    Accounts { subscriber } closing [] where
  bounded := Nat.zero_le _
  waiting _ _ waits := by cases waits
  kept _ := rfl
  lost dead := by cases dead
  ended ended := by cases ended

theorem close (h : m.Accounts closing accepted) : m.Accounts true accepted :=
  ⟨h.bounded, h.waiting, h.kept, h.lost, fun _ => rfl⟩

/-- An open mailbox refuses an event because its worker is dead, or else because its queue is
full. -/
theorem refusal_eq (h : m.Accounts false accepted) :
    m.refusal = if m.worker = .dead then some .closed
      else if m.queue.length = m.subscriber.places then some .full else none := by
  have bounded := h.bounded
  have full : m.subscriber.places ≤ m.queue.length ↔
      m.queue.length = m.subscriber.places := by omega
  unfold refusal
  cases worker : m.worker with
  | ended => cases h.ended worker
  | idle | waiting | dead => simp [isOver, worker, full]

theorem offer (h : m.Accounts false accepted) (e : Event) :
    (m.offer e).1.Accounts false (accepted ++ if m.refusal.isNone then [e] else []) := by
  unfold Mailbox.offer
  cases refused : m.refusal with
  | some refusal => simpa using h
  | none =>
      rw [h.refusal_eq] at refused
      split at refused
      · cases refused
      · next alive =>
          split at refused
          · cases refused
          · next room =>
              have bounded := h.bounded
              refine ⟨?_, h.waiting, fun _ => ?_, fun dead => absurd dead alive, h.ended⟩
              · simp only [List.length_append, List.length_singleton]
                omega
              · simp [← h.kept alive]

/-- A subscriber that dies loses its queue. -/
theorem queue_of_dead {effects : Effects} (taken : m.take = some (m', effects))
    (dead : m'.worker = .dead) : m'.queue = [] := by
  obtain ⟨e, rest, idle, -, handled⟩ := take_eq taken
  unfold handle at handled
  dsimp only at handled
  split at handled <;> cases handled
  case h_5 => rfl
  all_goals simp [idle] at dead

/-- A subscriber that comes to wait does so in the middle of the last event that it was handed. -/
theorem getLast?_of_take {effects : Effects} (taken : m.take = some (m', effects)) {e : Event}
    {panic : Option Payload} (waits : m'.worker = .waiting e panic) :
    m'.handled.getLast? = some e := by
  obtain ⟨e', rest, idle, -, handled⟩ := take_eq taken
  unfold handle at handled
  dsimp only at handled
  split at handled <;> cases handled
  case h_4 =>
    cases waits
    exact List.getLast?_concat
  all_goals simp [idle] at waits

theorem take (h : m.Accounts closing accepted) {effects : Effects}
    (taken : m.take = some (m', effects)) : m'.Accounts closing accepted := by
  have subscriber : m'.subscriber = m.subscriber := (relapses_take taken).2
  obtain ⟨e, rest, idle, queue, handled, how⟩ := take_cases taken
  have kept := h.kept (by simp [idle])
  rw [queue, List.append_cons, ← handled] at kept
  rcases how with ⟨-, dead⟩ | ⟨left, worker⟩
  · have gone := queue_of_dead taken dead
    refine ⟨by simp [gone], by simp [dead], fun alive => absurd dead alive, fun _ => ?_,
      by simp [dead]⟩
    exact ⟨gone, kept ▸ List.prefix_append _ _⟩
  · have bounded := h.bounded
    rw [queue, List.length_cons] at bounded
    refine ⟨?_, fun e panic => getLast?_of_take taken, fun _ => ?_, fun dead => ?_,
      fun ended => ?_⟩
    · rw [left, subscriber]
      omega
    · rw [left, kept]
    · simp [isWaiting, dead] at worker
    · simp [isWaiting, ended] at worker

theorem release (h : m.Accounts closing accepted) {effects : Effects}
    (released : m.release = some (m', effects)) : m'.Accounts closing accepted := by
  obtain ⟨rfl, -⟩ := release_eq released
  exact ⟨h.bounded, fun _ _ => Worker.noConfusion, fun _ => h.kept (alive_of_release released),
    Worker.noConfusion, Worker.noConfusion⟩

theorem retire (h : m.Accounts true accepted) (retired : m.retire = some m') :
    m'.Accounts true accepted := by
  obtain ⟨idle, -, rfl⟩ := retire_eq retired
  exact ⟨h.bounded, fun _ _ => Worker.noConfusion, fun _ => h.kept (by simp [idle]),
    Worker.noConfusion, fun _ => rfl⟩

theorem tends (h : m.Accounts closing accepted) {marks : List Mark}
    (tends : m.Tends (closing = false) marks m') : m'.Accounts closing accepted := by
  cases tends with
  | take taken => exact h.take taken
  | release released => exact h.release released
  | retire closed retired =>
      have closed : closing = true := by simpa using closed
      subst closed
      exact h.retire retired

/-- The event in progress is the one that the worker waits in the middle of. -/
theorem inProgress_eq_some (h : m.Accounts closing accepted) {e : Event} :
    m.inProgress = some e ↔ ∃ panic, m.worker = .waiting e panic := by
  unfold inProgress isWaiting
  cases worker : m.worker with
  | waiting event panic => simp [h.waiting event panic worker]
  | idle | dead | ended => simp

/-- What is done, in progress and in the queue is all that was accepted. -/
theorem total (h : m.Accounts closing accepted) (alive : m.worker ≠ .dead) :
    m.done ++ m.inProgress.toList ++ m.queue = accepted := by
  rw [← h.kept alive, done]
  cases busy : m.inProgress with
  | none =>
      have handled : m.isWaiting = true → m.handled = [] := by simpa [inProgress] using busy
      split
      · next waits => simp [handled waits]
      · rw [Option.toList_none, List.append_nil]
  | some e =>
      obtain ⟨panic, worker⟩ := h.inProgress_eq_some.mp busy
      obtain ⟨earlier, handled⟩ := List.getLast?_eq_some_iff.mp (h.waiting e panic worker)
      simp [isWaiting, worker, handled]

end Accounts

end Mailbox

namespace Audience

variable {a b c : Audience} {index : Nat} {m m' : Mailbox}

/-! ## Steps -/

/-- The smallest steps of an audience. Mailboxes go by their positions. -/
inductive Step
  | emit (event : Event)
  /-- A worker hands the next event to its subscriber. -/
  | serve (index : Nat)
  /-- A waiting subscriber goes on, as the gate is open. -/
  | letGo (index : Nat)
  | openGate
  | shutdown
  /-- A worker of a closed audience ends. -/
  | retire (index : Nat)
deriving DecidableEq, Repr

def setMailbox (a : Audience) (index : Nat) (m : Mailbox) : Audience :=
  { a with mailboxes := a.mailboxes.set index m }

/-- Takes one step, if it is possible. -/
def step (a : Audience) : Step → Option (Audience × Effects)
  | .emit e =>
      if a.closing then none
      else some ({ a with mailboxes := (offerAll a.mailboxes e).1 }, (offerAll a.mailboxes e).2)
  | .serve index => do
      let m ← a.mailboxes[index]?
      let (m, effects) ← m.take
      return (a.setMailbox index m, effects)
  | .letGo index =>
      if a.gateOpen then do
        let m ← a.mailboxes[index]?
        let (m, effects) ← m.release
        return (a.setMailbox index m, effects)
      else none
  | .openGate => some ({ a with gateOpen := true }, {})
  | .shutdown => some ({ a with closing := true }, {})
  | .retire index =>
      if a.closing then do
        let m ← a.mailboxes[index]?
        let m ← m.retire
        return (a.setMailbox index m, {})
      else none

/-- Takes some steps in turn. -/
def steps (a : Audience) : List Step → Option (Audience × Effects)
  | [] => some (a, {})
  | first :: rest => do
      let (b, own) ← a.step first
      let (c, later) ← b.steps rest
      return (c, own ++ later)

/-- The event that a mailbox accepts in a step, if there is one. -/
def accepts (a : Audience) (index : Nat) : Step → List Event
  | .emit e => if a.mailboxes[index]?.any (·.refusal.isNone) then [e] else []
  | _ => []

/-- The events that a mailbox accepts in some steps. -/
def accepted (index : Nat) (a : Audience) : List Step → List Event
  | [] => []
  | first :: rest => match a.step first with
    | some (b, _) => a.accepts index first ++ accepted index b rest
    | none => []

theorem steps_cons {first : Step} {rest : List Step} {effects : Effects}
    (h : a.steps (first :: rest) = some (c, effects)) :
    ∃ b own later, a.step first = some (b, own) ∧ b.steps rest = some (c, later) ∧
      effects = own ++ later := by
  obtain ⟨⟨b, own⟩, stepped, h⟩ := Option.bind_eq_some_iff.mp h
  obtain ⟨⟨c', later⟩, ran, h⟩ := Option.bind_eq_some_iff.mp h
  cases h
  exact ⟨b, own, later, stepped, ran, rfl⟩

theorem steps_append {first rest : List Step} {own later : Effects}
    (h : a.steps first = some (b, own)) (k : b.steps rest = some (c, later)) :
    a.steps (first ++ rest) = some (c, own ++ later) := by
  induction first generalizing a own with
  | nil =>
      cases h
      exact k
  | cons step others ih =>
      obtain ⟨d, before, after, stepped, ran, rfl⟩ := steps_cons h
      simp [steps, stepped, ih ran, Effects.append_assoc]

theorem steps_single {step : Step} {effects : Effects} (h : a.step step = some (b, effects)) :
    a.steps [step] = some (b, effects) := by
  simp [steps, h]

/-! ## Operations are steps -/

@[simp] theorem getElem?_setMailbox (found : a.mailboxes[index]? = some m) (m' : Mailbox) :
    (a.setMailbox index m').mailboxes[index]? = some m' := by
  obtain ⟨inside, -⟩ := List.getElem?_eq_some_iff.mp found
  simp [setMailbox, inside]

theorem setMailbox_setMailbox (a : Audience) (index : Nat) (m m' : Mailbox) :
    (a.setMailbox index m).setMailbox index m' = a.setMailbox index m' := by
  simp [setMailbox]

theorem setMailbox_self (found : a.mailboxes[index]? = some m) : a.setMailbox index m = a := by
  obtain ⟨inside, rfl⟩ := List.getElem?_eq_some_iff.mp found
  simp [setMailbox]

/-- What leaves a mailbox alone or is one step, is some steps. -/
theorem exists_steps_of_step (found : a.mailboxes[index]? = some m) (step : Step)
    {effects : Effects} (stepped : m' = m ∧ effects = {} ∨
      a.step step = some (a.setMailbox index m', effects)) :
    ∃ list, a.steps list = some (a.setMailbox index m', effects) := by
  rcases stepped with ⟨rfl, rfl⟩ | stepped
  · exact ⟨[], by simp [steps, setMailbox_self found]⟩
  · exact ⟨[step], steps_single stepped⟩

/-- A waiting subscriber goes on if the gate is open. -/
theorem exists_steps_release (found : a.mailboxes[index]? = some m) :
    ∃ list, a.steps list =
      some (a.setMailbox index (if a.gateOpen then m.release.getD (m, {}) else (m, {})).1,
        (if a.gateOpen then m.release.getD (m, {}) else (m, {})).2) := by
  refine exists_steps_of_step found (.letGo index) ?_
  cases gate : a.gateOpen with
  | false => exact .inl ⟨rfl, rfl⟩
  | true => cases released : m.release with
    | none => exact .inl ⟨rfl, rfl⟩
    | some after => exact .inr (by simp [Audience.step, gate, found, released])

/-- A worker that is done ends if the audience is closed. -/
theorem exists_steps_retire (found : a.mailboxes[index]? = some m) :
    ∃ list, a.steps list =
      some (a.setMailbox index (if a.closing then m.retire.getD m else m), {}) := by
  refine exists_steps_of_step found (.retire index) ?_
  cases closing : a.closing with
  | false => exact .inl ⟨rfl, rfl⟩
  | true => cases retired : m.retire with
    | none => exact .inl ⟨rfl, rfl⟩
    | some m' => exact .inr (by simp [Audience.step, closing, found, retired])

/-- The run of one worker is some steps in turn. -/
theorem exists_steps_run (rounds : Nat) (found : a.mailboxes[index]? = some m) :
    ∃ list, a.steps list = some (a.setMailbox index (run a.gateOpen rounds m).1,
      (run a.gateOpen rounds m).2) := by
  induction rounds generalizing a m with
  | zero => exact ⟨[], by simp [steps, run, setMailbox_self found]⟩
  | succ rounds ih =>
      obtain ⟨first, released⟩ := exists_steps_release found
      unfold run
      generalize (if a.gateOpen then m.release.getD (m, {}) else (m, {})) = result at *
      obtain ⟨ready, before⟩ := result
      dsimp only at *
      have there := getElem?_setMailbox found ready
      cases taken : ready.take with
      | none => exact ⟨first, released⟩
      | some result =>
          obtain ⟨m', own⟩ := result
          have served : (a.setMailbox index ready).step (.serve index) =
              some (a.setMailbox index m', own) := by
            simp [step, there, taken, setMailbox_setMailbox]
          obtain ⟨rest, later⟩ := ih (getElem?_setMailbox found m')
          rw [setMailbox_setMailbox] at later
          have all := steps_append (steps_append released (steps_single served)) later
          exact ⟨_, all⟩

/-- What one worker comes to that runs as long as it can. -/
def settled (gateOpen closing : Bool) (m : Mailbox) : Mailbox × Effects :=
  let (m', effects) := run gateOpen (m.queue.length + 1) m
  (if closing then m'.retire.getD m' else m', effects)

theorem exists_steps_settled (found : a.mailboxes[index]? = some m) :
    ∃ list, a.steps list = some (a.setMailbox index (settled a.gateOpen a.closing m).1,
      (settled a.gateOpen a.closing m).2) := by
  obtain ⟨first, ran⟩ := exists_steps_run (m.queue.length + 1) found
  obtain ⟨second, retired⟩ := exists_steps_retire (getElem?_setMailbox found _)
  have both := steps_append ran retired
  rw [setMailbox_setMailbox, Effects.append_empty] at both
  exact ⟨_, both⟩

/-- All workers, one after the other, take some steps in turn. -/
theorem exists_steps_settleAll (before rest : List Mailbox) (gateOpen closing : Bool) :
    ∃ list, (⟨before ++ rest, gateOpen, closing⟩ : Audience).steps list =
      some (⟨before ++ (settleAll gateOpen closing rest).1, gateOpen, closing⟩,
        (settleAll gateOpen closing rest).2) := by
  induction rest generalizing before with
  | nil => exact ⟨[], by simp [steps, settleAll]⟩
  | cons m others ih =>
      have found :
          (⟨before ++ m :: others, gateOpen, closing⟩ : Audience).mailboxes[before.length]? =
            some m := by simp
      obtain ⟨first, own⟩ := exists_steps_settled found
      obtain ⟨second, later⟩ := ih (before ++ [(settled gateOpen closing m).1])
      have next : (⟨before ++ m :: others, gateOpen, closing⟩ : Audience).setMailbox before.length
          (settled gateOpen closing m).1 =
            ⟨before ++ [(settled gateOpen closing m).1] ++ others, gateOpen, closing⟩ := by
        simp [setMailbox]
      rw [next] at own
      have all := steps_append own later
      rw [List.append_assoc before [_] (settleAll gateOpen closing others).1] at all
      exact ⟨_, all⟩

theorem exists_steps_settle (a : Audience) : ∃ list, a.steps list = some a.settle :=
  exists_steps_settleAll [] a.mailboxes a.gateOpen a.closing

theorem exists_steps_emit (e : Event) (times : Nat) (open_ : a.closing = false) :
    ∃ list, a.steps list = some (emit e times a) := by
  induction times generalizing a with
  | zero => exact ⟨[], rfl⟩
  | succ times ih =>
      have first : a.step (.emit e) = some ({ a with mailboxes := (offerAll a.mailboxes e).1 },
          (offerAll a.mailboxes e).2) := by simp [step, open_]
      obtain ⟨rest, later⟩ := ih (a := { a with mailboxes := (offerAll a.mailboxes e).1 }) open_
      exact ⟨_, steps_append (steps_single first) later⟩

/-- Every operation is some steps in turn. -/
theorem exists_steps (a : Audience) (op : Operation) :
    ∃ list, a.steps list = some (a.perform op) := by
  cases op with
  | emit e times =>
      unfold perform
      dsimp only
      split
      · exact ⟨[], rfl⟩
      · next open_ => exact exists_steps_emit e times (by simpa using open_)
  | settle => exact exists_steps_settle a
  | openGate =>
      obtain ⟨rest, settled⟩ := exists_steps_settle { a with gateOpen := true }
      have opened : a.step .openGate = some ({ a with gateOpen := true }, {}) := rfl
      exact ⟨_, steps_append (steps_single opened) settled⟩
  | shutdown =>
      obtain ⟨rest, settled⟩ := exists_steps_settle { a with closing := true }
      have closed : a.step .shutdown = some ({ a with closing := true }, {}) := rfl
      exact ⟨_, steps_append (steps_single closed) settled⟩

/-! ## Any steps -/

/-- What a step comes to: an event is offered to all mailboxes, or one worker does something, or the
gate opens, or the audience is closed. -/
inductive Stepped (a : Audience) : Step → Audience → Effects → Prop
  | emit (e : Event) (open_ : a.closing = false) :
      Stepped a (.emit e) { a with mailboxes := a.mailboxes.map fun m => (m.offer e).1 }
        (offerAll a.mailboxes e).2
  | tend {step : Step} {index : Nat} {m m' : Mailbox} {effects : Effects}
      (found : a.mailboxes[index]? = some m)
      (tends : m.Tends (a.closing = false) effects.marks m') (silent : ∀ k, a.accepts k step = []) :
      Stepped a step (a.setMailbox index m') effects
  | openGate : Stepped a .openGate { a with gateOpen := true } {}
  | shutdown : Stepped a .shutdown { a with closing := true } {}

theorem step_cases {step : Step} {effects : Effects} (h : a.step step = some (b, effects)) :
    Stepped a step b effects := by
  cases step with
  | emit e =>
      obtain ⟨open_, h⟩ := Option.ite_none_left_eq_some.mp h
      cases h
      rw [offerAll_fst]
      exact .emit e (by simpa using open_)
  | serve index =>
      obtain ⟨m, found, h⟩ := Option.bind_eq_some_iff.mp h
      obtain ⟨⟨m', effects⟩, taken, h⟩ := Option.bind_eq_some_iff.mp h
      cases h
      exact .tend found (.take taken) fun _ => rfl
  | letGo index =>
      obtain ⟨-, h⟩ := Option.ite_none_right_eq_some.mp h
      obtain ⟨m, found, h⟩ := Option.bind_eq_some_iff.mp h
      obtain ⟨⟨m', effects⟩, released, h⟩ := Option.bind_eq_some_iff.mp h
      cases h
      exact .tend found (.release released) fun _ => rfl
  | openGate =>
      cases h
      exact .openGate
  | shutdown =>
      cases h
      exact .shutdown
  | retire index =>
      obtain ⟨closing, h⟩ := Option.ite_none_right_eq_some.mp h
      obtain ⟨m, found, h⟩ := Option.bind_eq_some_iff.mp h
      obtain ⟨m', retired, h⟩ := Option.bind_eq_some_iff.mp h
      cases h
      exact .tend found (.retire (by simp [closing]) retired) fun _ => rfl

/-- Every mailbox accounts for the events that it is told to have accepted. -/
def Accounts (a : Audience) (told : Nat → List Event) : Prop :=
  ∀ (index : Nat) (m : Mailbox), a.mailboxes[index]? = some m →
    m.Accounts a.closing (told index)

theorem Accounts.step {told : Nat → List Event} (h : a.Accounts told) {step : Step}
    {effects : Effects} (stepped : a.step step = some (b, effects)) :
    b.Accounts fun index => told index ++ a.accepts index step := by
  intro k m' found'
  change m'.Accounts b.closing (told k ++ a.accepts k step)
  cases step_cases stepped with
  | emit e open_ =>
      obtain ⟨m, found, rfl⟩ := by simpa using found'
      have before := h k m found
      rw [open_] at before
      simpa [accepts, found, open_] using before.offer e
  | @tend _ index m changed _ found tends silent =>
      rw [silent k, List.append_nil]
      rw [setMailbox, List.getElem?_set] at found'
      split at found'
      · next here =>
          subst here
          obtain ⟨-, rfl⟩ := by simpa using found'
          exact (h index m found).tends tends
      · exact h k m' found'
  | openGate =>
      have silent : a.accepts k .openGate = [] := rfl
      rw [silent, List.append_nil]
      exact h k m' found'
  | shutdown =>
      have silent : a.accepts k .shutdown = [] := rfl
      rw [silent, List.append_nil]
      exact (h k m' found').close

theorem Accounts.steps {told : Nat → List Event} (h : a.Accounts told) {list : List Step}
    {effects : Effects} (ran : a.steps list = some (b, effects)) :
    b.Accounts fun index => told index ++ accepted index a list := by
  induction list generalizing a told effects with
  | nil =>
      cases ran
      simpa [accepted] using h
  | cons first rest ih =>
      obtain ⟨c, own, later, stepped, ran, -⟩ := steps_cons ran
      simpa [accepted, stepped] using ih (h.step stepped) ran

/-- At any time every mailbox accounts for what it has accepted so far. -/
theorem accounts_of_steps {subscribers : List Subscriber} {list : List Step} {effects : Effects}
    (ran : (ofSubscribers subscribers).steps list = some (a, effects)) :
    a.Accounts fun index => accepted index (ofSubscribers subscribers) list := by
  have first : (ofSubscribers subscribers).Accounts fun _ => [] := by
    intro k m found
    obtain ⟨subscriber, -, rfl⟩ := by simpa [ofSubscribers] using found
    exact .create subscriber false
  simpa using first.steps ran

theorem subscribers_of_steps {list : List Step} {effects : Effects}
    (ran : a.steps list = some (b, effects)) :
    b.mailboxes.map (·.subscriber) = a.mailboxes.map (·.subscriber) := by
  induction list generalizing a effects with
  | nil =>
      cases ran
      rfl
  | cons first rest ih =>
      obtain ⟨c, own, later, stepped, ran, -⟩ := steps_cons ran
      rw [ih ran]
      cases step_cases stepped with
      | emit e => simp [Mailbox.subscriber_offer, Function.comp_def]
      | @tend _ index m m' _ found tends =>
          obtain ⟨inside, rfl⟩ := List.getElem?_eq_some_iff.mp found
          rw [← List.length_map (·.subscriber)] at inside
          have same : m'.subscriber = (a.mailboxes.map (·.subscriber))[index] := by
            rw [tends.subscriber, List.getElem_map]
          rw [setMailbox, List.map_set, same, List.set_getElem_self]
      | openGate | shutdown => rfl

/-! ## Where the events are -/

/-- What is published about an event that is offered: one report for each mailbox that refuses it,
in order, or none at all if the event is such a report. -/
theorem events_offerAll (mailboxes : List Mailbox) (e : Event) :
    (offerAll mailboxes e).2.events =
      if e.kind = .subscriberOverflow then []
      else mailboxes.filterMap fun m =>
        m.refusal.map fun refusal => .overflow m.subscriber.name refusal.reason := by
  induction mailboxes with
  | nil => simp [offerAll]
  | cons m rest ih =>
      have both : (offerAll (m :: rest) e).2.events =
          (m.offer e).2.events ++ (offerAll rest e).2.events := rfl
      rw [both, ih, Mailbox.offer]
      cases refused : m.refusal with
      | none => simp [refused]
      | some refusal => by_cases report : e.kind = .subscriberOverflow <;>
          simp [refused, Refusal.effects, report]

/-- What one mailbox has made of the events that it has accepted. -/
structure EventAccount (m : Mailbox) (accepted : List Event) : Prop where
  /-- The queue keeps to the capacity, of which zero counts as one. -/
  bounded : m.queue.length ≤ max m.subscriber.capacity 1
  /-- A subscriber that waits does so in the middle of one event, and no other subscriber has an
  event in progress. -/
  busy : ∀ e, m.inProgress = some e ↔ ∃ panic, m.worker = .waiting e panic
  /-- While the worker lives, what it has done, what it is at and what is in the queue are just the
  accepted events, in order. -/
  accounted : m.worker ≠ .dead → m.done ++ m.inProgress.toList ++ m.queue = accepted
  /-- What a worker that is lost was handed came first. -/
  lost : m.worker = .dead → m.queue = [] ∧ m.handled <+: accepted

/-- What becomes of one more event. -/
structure Emission (a : Audience) (e : Event) (b : Audience) (effects : Effects) : Prop where
  /-- It is refused as too much where the queue is full, and as too late where the worker is
  lost. -/
  full : ∀ m ∈ a.mailboxes, m.refusal = some .full ↔
    m.worker ≠ .dead ∧ m.queue.length = max m.subscriber.capacity 1
  closed : ∀ m ∈ a.mailboxes, m.refusal = some .closed ↔ m.worker = .dead
  /-- Elsewhere it joins the queue, and nothing else changes. -/
  mailboxes : b = { a with mailboxes := a.mailboxes.map fun m =>
    if m.refusal = none then { m with queue := m.queue ++ [e] } else m }
  /-- One report for each refusal is published, in the order of the subscribers, unless the event is
  itself such a report. -/
  reports : effects.events = if e.kind = .subscriberOverflow then []
    else a.mailboxes.filterMap fun m =>
      m.refusal.map fun refusal => .overflow m.subscriber.name refusal.reason

/-- Where all events are after the subscribers have been given some. -/
structure EventAccounts (subscribers : List Subscriber) (list : List Step) (a : Audience) :
    Prop where
  staffed : a.mailboxes.map (·.subscriber) = subscribers
  account : ∀ (index : Nat) (m : Mailbox), a.mailboxes[index]? = some m →
    EventAccount m (accepted index (ofSubscribers subscribers) list)
  emission : ∀ e, a.closing = false →
    ∃ b effects, a.step (.emit e) = some (b, effects) ∧ Emission a e b effects

theorem exists_emission {told : Nat → List Event} (h : a.Accounts told)
    (open_ : a.closing = false) (e : Event) :
    ∃ b effects, a.step (.emit e) = some (b, effects) ∧ Emission a e b effects := by
  have refusal : ∀ m ∈ a.mailboxes, m.refusal = if m.worker = .dead then some .closed
      else if m.queue.length = m.subscriber.places then some .full else none := by
    intro m member
    obtain ⟨index, found⟩ := List.mem_iff_getElem?.mp member
    have account := h index m found
    rw [open_] at account
    exact account.refusal_eq
  refine ⟨_, _, if_neg (by simp [open_]), ?_, ?_, ?_, events_offerAll a.mailboxes e⟩
  · intro m member
    rw [refusal m member]
    grind [Subscriber.places]
  · intro m member
    rw [refusal m member]
    grind
  · rw [offerAll_fst]
    congr 1
    refine List.map_congr_left fun m _ => ?_
    unfold Mailbox.offer
    cases m.refusal <;> simp

/-- Every event that was emitted is accounted for, whatever the order of the steps. -/
theorem eventAccounts {subscribers : List Subscriber} {list : List Step} {effects : Effects}
    (ran : (ofSubscribers subscribers).steps list = some (a, effects)) :
    EventAccounts subscribers list a := by
  have accounts := accounts_of_steps ran
  refine ⟨?_, fun index m found => ?_, fun e open_ => exists_emission accounts open_ e⟩
  · rw [subscribers_of_steps ran]
    simp [ofSubscribers, Function.comp_def]
  · have account := accounts index m found
    exact ⟨account.bounded, fun _ => account.inProgress_eq_some, account.total, account.lost⟩

/-- One subscriber waits in the middle of the first event and has one place, which is what a
capacity of zero comes to; the other one panics at every event, and dies of the second one. -/
def slowAudience : List Subscriber :=
  [{ name := "slow", capacity := 0, react := fun _ _ => .waits },
    { name := "frail", capacity := 2
      react := fun handled _ => if handled = [] then .panics (.text "no") else .dies }]

def burst : List Step :=
  [.emit (.ofKind .taskQueued), .serve 0, .serve 1, .emit (.ofKind .taskStarting), .serve 1,
    .emit (.ofKind .taskStopped)]

theorem eventAccounts_of_burst :
    ∃ a effects, (ofSubscribers slowAudience).steps burst = some (a, effects) ∧
      effects.events =
        [.panicked "frail" "no", .overflow "slow" "full", .overflow "frail" "closed"] ∧
      EventAccounts slowAudience burst a := by
  obtain ⟨a, effects, ran, reports⟩ : ∃ a effects,
      (ofSubscribers slowAudience).steps burst = some (a, effects) ∧ effects.events =
        [.panicked "frail" "no", .overflow "slow" "full", .overflow "frail" "closed"] :=
    ⟨_, _, rfl, by decide⟩
  exact ⟨a, effects, ran, reports, eventAccounts ran⟩

end Audience

end Supervision
