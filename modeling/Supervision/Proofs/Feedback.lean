import Supervision.Proofs.Loads

/-!
# The feedback of the feed

Reports about trouble with the subscribers go into the same feed as all other events, and so to the
same subscribers. Two guards keep them from feeding themselves: a report about a refusal that is
refused is not reported, and neither is a panic at a report about a panic. These are not enough. If
one subscriber panics at reports about refusals, and another one refuses the report about that
panic, then the next report about a refusal is there, and so on without an end.

This is the only way to go on without an end: it takes a relapse, a panic at a report about a
refusal, again and again.

Results:
1. `Feedback.descends`: any number of steps of the listener and the workers take from the weight,
   but for the relapses.
2. `Attained.feedInvariant`: how many reports there can be after what was published from outside.
3. `feedbackEnds`: the feedback ends if and only if there are not more and more relapses.
4. `feedback_never_ends`: two subscribers with which it does not end.
-/

namespace Supervision

namespace Supervisor

variable {setup : Setup} {s t u : Supervisor} {marks : List Mark}

/-! ## Any number of steps -/

/-- The listener and the workers take some steps in turn, and nobody else moves. -/
structure Feedback (s : Supervisor) (steps : List Progress) (t : Supervisor) : Prop where
  own : ∀ p ∈ steps, p.isFeedback = true
  run : s.applyAll (steps.map .progress) = some t

namespace Feedback

variable {p : Progress} {steps later : List Progress}

theorem nil (s : Supervisor) : Feedback s [] s := ⟨by simp, rfl⟩

theorem cons (own : p.isFeedback = true) (step : s.progress p = some t)
    (rest : Feedback t steps u) : Feedback s (p :: steps) u :=
  ⟨List.forall_mem_cons.mpr ⟨own, rest.own⟩, Option.bind_eq_some_iff.mpr ⟨t, step, rest.run⟩⟩

theorem uncons (h : Feedback s (p :: steps) u) :
    ∃ t, p.isFeedback = true ∧ s.progress p = some t ∧ Feedback t steps u := by
  obtain ⟨own, others⟩ := List.forall_mem_cons.mp h.own
  obtain ⟨t, step, rest⟩ := Option.bind_eq_some_iff.mp h.run
  exact ⟨t, own, step, others, rest⟩

theorem append (h : Feedback s steps t) (k : Feedback t later u) :
    Feedback s (steps ++ later) u := by
  induction steps generalizing s with
  | nil =>
      cases h.run
      exact k
  | cons p rest ih =>
      obtain ⟨v, own, step, others⟩ := h.uncons
      exact .cons own step (ih others)

theorem feeding (h : Feedback s (p :: steps) t) :
    ∃ marks u, Feeding s marks u ∧ Feedback (u.writeAll marks) steps t := by
  obtain ⟨v, own, step, rest⟩ := h.uncons
  obtain ⟨marks, u, feeding, rfl⟩ := progress_feeds own step
  exact ⟨marks, u, feeding, rest⟩

/-- What every step keeps, any number of steps keep. -/
theorem invariant {P : Supervisor → Prop} (h : Feedback s steps t) (first : P s)
    (kept : ∀ {s u marks}, P s → Feeding s marks u → P (u.writeAll marks)) : P t := by
  induction steps generalizing s with
  | nil =>
      cases h.run
      exact first
  | cons p rest ih =>
      obtain ⟨marks, u, feeding, others⟩ := h.feeding
      exact ih others (kept first feeding)

theorem setup_eq (h : Feedback s steps t) : t.setup = s.setup :=
  h.invariant (P := fun u => u.setup = s.setup) rfl fun same feeding =>
    feeding.change.setup_eq.trans same

theorem staffed (staffed : s.IsStaffed) (h : Feedback s steps t) : t.IsStaffed :=
  h.invariant staffed fun staffed feeding => feeding.staffed staffed

/-- Any number of steps take from the load, but for the relapses. -/
theorem descends (staffed : s.IsStaffed) (h : Feedback s steps t) :
    t.weight + steps.length + relapseCharge s.audience * s.relapses ≤
      s.weight + relapseCharge s.audience * t.relapses := by
  induction steps generalizing s with
  | nil =>
      cases h.run
      exact Nat.le_refl _
  | cons p rest ih =>
      obtain ⟨marks, u, feeding, others⟩ := h.feeding
      have first := feeding.descends staffed
      have later := ih (feeding.staffed staffed) others
      have same : (u.writeAll marks).audience = s.audience := feeding.change.audience_eq
      rw [same, relapses_writeAll] at later
      rw [List.length_cons]
      omega

theorem relapses_le (h : Feedback s steps t) : t.relapses ≤ s.relapses + steps.length := by
  induction steps generalizing s with
  | nil =>
      cases h.run
      exact Nat.le_refl _
  | cons p rest ih =>
      obtain ⟨marks, u, feeding, others⟩ := h.feeding
      have first := feeding.relapses_le
      have later := ih others
      rw [relapses_writeAll] at later
      rw [List.length_cons]
      omega

end Feedback

/-! ## Coming to rest -/

/-- Nothing is left to do for the listener and the workers. -/
def IsAtRest (s : Supervisor) : Prop := ∀ p : Progress, p.isFeedback = true → s.progress p = none

/-- The feedback ends: there is a bound on its steps and on what it publishes, and whatever has been
done of it, it can be brought to its end. -/
structure Settles (s : Supervisor) : Prop where
  bounded : ∃ bound, ∀ steps t, Feedback s steps t → steps.length ≤ bound ∧ t.reports ≤ bound
  ends : ∀ steps t, Feedback s steps t → ∃ later u, Feedback t later u ∧ u.IsAtRest

/-- Steps whose number has a bound lead to the end, if none is left out. -/
theorem exists_isAtRest (bound : Nat)
    (bounded : ∀ steps t, Feedback s steps t → steps.length ≤ bound) :
    ∃ steps t, Feedback s steps t ∧ t.IsAtRest := by
  induction bound generalizing s with
  | zero =>
      refine ⟨[], s, .nil s, fun p own => ?_⟩
      cases step : s.progress p with
      | none => rfl
      | some t => exact absurd (bounded [p] t (.cons own step (.nil t))) (Nat.not_succ_le_zero 0)
  | succ bound ih =>
      by_cases settled : s.IsAtRest
      · exact ⟨[], s, .nil s, settled⟩
      · obtain ⟨p, own, t, step⟩ : ∃ p, p.isFeedback = true ∧ ∃ t, s.progress p = some t := by
          simpa [IsAtRest, Option.ne_none_iff_exists'] using settled
        obtain ⟨steps, u, run, settled⟩ := ih (s := t) fun steps u run =>
          Nat.le_of_succ_le_succ (bounded (p :: steps) u (.cons own step run))
        exact ⟨p :: steps, u, .cons own step run, settled⟩

/-- The feedback goes on without an end only by relapsing again and again. -/
theorem settles_iff (staffed : s.IsStaffed) :
    s.Settles ↔ ∃ bound, ∀ steps t, Feedback s steps t → t.relapses ≤ bound := by
  constructor
  · rintro ⟨⟨bound, bounded⟩, -⟩
    refine ⟨s.relapses + bound, fun steps t run => ?_⟩
    exact run.relapses_le.trans (Nat.add_le_add_left (bounded steps t run).1 _)
  · rintro ⟨bound, rare⟩
    obtain ⟨limit, limited⟩ :
        ∃ limit, ∀ steps t, Feedback s steps t → t.weight + steps.length ≤ limit := by
      refine ⟨s.weight + relapseCharge s.audience * bound, fun steps t run => ?_⟩
      have spent := run.descends staffed
      have charged := Nat.mul_le_mul_left (relapseCharge s.audience) (rare steps t run)
      omega
    refine ⟨⟨limit, fun steps t run => ?_⟩, fun steps t run => ?_⟩
    · have both := limited steps t run
      unfold weight at both
      omega
    · refine exists_isAtRest limit fun later u further => ?_
      have whole := limited _ u (run.append further)
      rw [List.length_append] at whole
      omega

/-! ## Everything that is reached -/

/-- What an event that is published from outside can lead to at most. -/
def outsideToll (audience : Nat) : Nat := 1 + audience * (audience * (audience + 2) + 3)

theorem sum_tolls_le (audience : Nat) (events : List Event) :
    (events.map (Event.toll audience)).sum ≤ outsideToll audience * events.length := by
  induction events with
  | nil => exact Nat.zero_le _
  | cons e rest ih =>
      have toll := Nat.mul_le_mul_left audience (e.burden_le audience)
      rw [List.map_cons, List.sum_cons, List.length_cons, Nat.mul_succ]
      simp only [Event.toll, outsideToll] at ih ⊢
      omega

/-- None of the marks publishes a report about trouble with a subscriber. -/
def IsOutside (marks : List Mark) : Prop :=
  ∀ e ∈ marks.filterMap Mark.event?, e.isReport = false

/-- What a change means to the feed. -/
inductive FeedStep (s : Supervisor) (marks : List Mark) (t : Supervisor) : Prop
  | feeding (h : Feeding s marks t)
  | opened (created : s.stage = .created) (started : t.stage = .started)
      (listener : t.listener = s.openListener) (silent : marks = [])
  | letGo {l : Listener} {index : Nat} {m m' : Mailbox} {effects : Effects}
      (found : s.listener = some l) (mailbox : l.mailboxes[index]? = some m)
      (released : m.release = some (m', effects)) (same : t = s.setMailbox l index m')
      (own : marks = effects.marks)
  | outside (stage : t.stage = .created → s.stage = .created) (same : t.listener = s.listener)
      (others : IsOutside marks)

theorem IsOutside.countP_eq_zero (h : IsOutside marks) :
    (marks.filterMap Mark.event?).countP (·.isReport) = 0 :=
  List.countP_eq_zero.mpr fun e member => by simp [h e member]

theorem IsOutside.countP_eq_length (h : IsOutside marks) :
    (marks.filterMap Mark.event?).countP (!·.isReport) = (marks.filterMap Mark.event?).length :=
  List.countP_eq_length.mpr fun e member => by simp [h e member]

theorem IsOutside.nil : IsOutside [] := by simp [IsOutside]

theorem IsOutside.panicMarks (id : String) (scope : Scope) (panic : Option Payload) :
    IsOutside (panicMarks id scope panic) := by
  cases panic <;> simp [IsOutside, Supervisor.panicMarks, Mark.event?]

theorem IsOutside.remark {m : Mark} (h : m.isRemark = true) : IsOutside [m] := by
  cases m <;> first | exact .nil | cases h

theorem IsOutside.notice (n : Notice) : IsOutside n.marks := by
  unfold Notice.marks Notice.event
  split <;> simp [IsOutside, Mark.event?]

theorem IsOutside.launchMarks (s : Supervisor) (task : Task) : IsOutside (s.launchMarks task) := by
  unfold Supervisor.launchMarks
  dsimp only
  split <;> simp [IsOutside, Mark.event?]

theorem CallbacksOver.isOutside {number : Nat} {r : Run} {fault : Option Fault}
    (h : s.CallbacksOver number r marks fault) : IsOutside marks := by
  cases h with
  | pass => exact .nil
  | leave panic => exact .panicMarks r.task.id .global panic

theorem CourseStep.isOutside {number : Nat} {r : Run} {phase : Phase}
    (h : s.CourseStep number r marks phase) : IsOutside marks := by
  cases h
  case leave panic _ _ => exact .panicMarks r.task.id .own panic
  case report fault _ =>
    cases fault <;> simp [IsOutside, Mark.event?, endEvent]
  all_goals simp [IsOutside, Mark.event?]

theorem Change.feedStep (h : Change s marks t) : FeedStep s marks t := by
  cases h
  case lag found receiving reading => exact .feeding (.lag found receiving reading)
  case hear found receiving reading => exact .feeding (.hear found receiving reading)
  case serve found mailbox taken => exact .feeding (.serve found mailbox taken)
  case retire found closed mailbox retired =>
    exact .feeding (.retire found closed mailbox retired)
  case closeListener found closing ended => exact .feeding (.closeListener found closing ended)
  case opened created => exact .opened created rfl rfl rfl
  case letGo found mailbox released => exact .letGo found mailbox released rfl rfl
  case course step => exact .outside id rfl step.isOutside
  case lineUp ended => exact .outside id rfl ended.isOutside
  case remark m remark => exact .outside id rfl (.remark remark)
  case post n _ _ => exact .outside id rfl (.notice n)
  case launch task origin _ _ => exact .outside id rfl (.launchMarks s task)
  case observe r _ _ _ =>
    cases r.phase.fault?.join <;>
      exact .outside id rfl (by simp [IsOutside, Mark.event?, outcomeEvent])
  case announce =>
    exact .outside (fun created => by cases created) rfl (by simp [IsOutside, Mark.event?])
  all_goals exact .outside id rfl (by simp [IsOutside, Mark.event?])

/-- What holds of the feed all along: the listener is opened by the start, every subscriber has its
mailbox, and the reports are paid for by what was published from outside and by the relapses. -/
structure FeedInvariant (s : Supervisor) : Prop where
  unopened : s.stage = .created → s.listener = none
  staffed : s.IsStaffed
  weight_le : s.weight ≤ outsideToll s.audience * s.outside +
    relapseCharge s.audience * s.relapses + (s.audience + 2)

/-- A listener that opens has every mailbox, with nothing in them, and nothing to read. -/
theorem openListener_spec (s : Supervisor) {l : Listener} (opened : s.openListener = some l) :
    l.mailboxes.map (·.subscriber) = s.setup.subscribers ∧
      (l.mailboxes.map Mailbox.relapses).sum = 0 ∧
      l.load s.audience s.published = s.audience + 2 := by
  have silent : Mailbox.relapses ∘ (fun subscriber => { subscriber }) = fun _ => 0 := rfl
  have idle : Mailbox.burden s.setup.subscribers.length ∘ (fun subscriber => { subscriber }) =
      fun _ => 1 := rfl
  unfold openListener at opened
  split at opened
  · cases opened
  · cases opened
    refine ⟨by simp [Function.comp_def], by simp [silent], ?_⟩
    simp [Listener.load, unread, idle, ListenerState.remaining, audience]

namespace FeedInvariant

/-- The listener and the workers pay for what they publish. -/
theorem feeding (inv : s.FeedInvariant) (h : Feeding s marks u) :
    (u.writeAll marks).FeedInvariant := by
  refine ⟨fun created => ?_, h.staffed inv.staffed, ?_⟩
  · have none : s.listener = none := inv.unopened (h.stage_eq ▸ created)
    obtain ⟨l, found⟩ := h.exists_listener
    rw [none] at found
    cases found
  · have audience : (u.writeAll marks).audience = s.audience := h.change.audience_eq
    have spent := h.descends inv.staffed
    have more : s.outside ≤ (u.writeAll marks).outside := by
      rw [outside_writeAll, h.change.outside_eq]
      exact Nat.le_add_right _ _
    have paid := Nat.mul_le_mul_left (outsideToll s.audience) more
    have before := inv.weight_le
    rw [audience, relapses_writeAll]
    omega

/-- The listener opens with the load that was accounted for before. -/
theorem opened (inv : s.FeedInvariant) (created : s.stage = .created) (started : t.stage = .started)
    (listener : t.listener = s.openListener) (audience : t.audience = s.audience)
    (published : t.published = s.published) (setup : t.setup = s.setup) : t.FeedInvariant := by
  have load : t.load = s.audience + 2 ∧ t.relapses = 0 := by
    cases opened : s.openListener with
    | none => simp [Supervisor.load, relapses, listener, opened, audience]
    | some l =>
        have fresh := (s.openListener_spec opened).2
        simp [Supervisor.load, relapses, listener, opened, audience, published, fresh]
  have unopened := inv.unopened created
  have before := inv.weight_le
  refine ⟨fun created => ?_, fun l found => ?_, ?_⟩
  · rw [started] at created
    cases created
  · rw [setup]
    exact (s.openListener_spec (listener.symm.trans found)).1
  · simp only [weight, Supervisor.load, reports, outside, relapses, unopened] at before
    rw [weight, load.1, load.2, reports, outside, published, audience]
    exact before

/-- What is published from outside pays for itself. -/
theorem outside (inv : s.FeedInvariant) (change : Change s marks t)
    (stage : t.stage = .created → s.stage = .created) (same : t.listener = s.listener)
    (others : IsOutside marks) : (t.writeAll marks).FeedInvariant := by
  have listened : t.relapses = s.relapses ∧ t.load = s.load := by
    simp only [relapses, load, same, change.audience_eq, change.published_eq, and_self]
  have loaded := load_writeAll_le t marks
  have tolls := sum_tolls_le t.audience (marks.filterMap Mark.event?)
  rw [listened.2, change.audience_eq] at loaded
  rw [change.audience_eq] at tolls
  have before := inv.weight_le
  refine ⟨fun created => ?_, fun l found => ?_, ?_⟩
  · exact same.trans (inv.unopened (stage created))
  · exact (inv.staffed l (same.symm.trans found)).trans (congrArg _ change.setup_eq.symm)
  · have audience : (t.writeAll marks).audience = s.audience := change.audience_eq
    rw [weight, reports_writeAll, others.countP_eq_zero, change.reports_eq, outside_writeAll,
      others.countP_eq_length, change.outside_eq, relapses_writeAll, listened.1, audience,
      Nat.mul_add]
    unfold weight at before
    omega

/-- A panic that ends a wait has been paid for. -/
theorem letGo (inv : s.FeedInvariant) {l : Listener} {index : Nat} {m m' : Mailbox}
    {effects : Effects} (found : s.listener = some l) (mailbox : l.mailboxes[index]? = some m)
    (released : m.release = some (m', effects)) :
    ((s.setMailbox l index m').writeAll effects.marks).FeedInvariant := by
  obtain ⟨burden, relapses, subscriber⟩ := Mailbox.burden_release s.audience released
  have relapsed := relapses_setMailbox found mailbox m'
  have staffed := inv.staffed.setMailbox found mailbox subscriber
  refine ⟨fun created => ?_, staffed, ?_⟩
  · rw [inv.unopened created] at found
    cases found
  · have written := weight_writeAll_le (s.setMailbox l index m') (.release released)
    have load : (s.setMailbox l index m').load + effects.cost s.audience = s.load := by
      have loaded := Listener.load_set s.audience s.published mailbox m'
      have set : (s.setMailbox l index m').load =
        { l with mailboxes := l.mailboxes.set index m' }.load s.audience s.published := rfl
      rw [load_of_some found, set]
      omega
    have reports : (s.setMailbox l index m').reports = s.reports := rfl
    have audience : (s.setMailbox l index m').audience = s.audience := rfl
    have more : s.outside ≤ ((s.setMailbox l index m').writeAll effects.marks).outside := by
      rw [outside_writeAll]
      exact Nat.le_add_right _ _
    have paid := Nat.mul_le_mul_left (outsideToll s.audience) more
    have before := inv.weight_le
    rw [relapses] at relapsed
    have audience' : ((s.setMailbox l index m').writeAll effects.marks).audience = s.audience := rfl
    rw [relapses_writeAll, Nat.add_right_cancel relapsed, audience']
    rw [audience] at written
    simp only [weight, reports] at written before ⊢
    omega

end FeedInvariant

/-- Whatever is reached, the listener is opened by the start, every subscriber has its mailbox and
the reports are paid for. -/
theorem Attained.feedInvariant (h : Attained setup s) : s.FeedInvariant := by
  refine h.invariant (P := FeedInvariant) ?_ fun {s t marks} _ inv change => ?_
  · have begun : (create setup).weight = (create setup).audience + 2 := Nat.zero_add _
    exact ⟨fun _ => rfl, fun l found => (by cases found), begun ▸ Nat.le_add_left _ _⟩
  · cases change.feedStep with
    | feeding h => exact inv.feeding h
    | opened created started listener silent =>
        rw [silent, writeAll_nil]
        exact inv.opened created started listener change.audience_eq change.published_eq
          change.setup_eq
    | letGo found mailbox released same own =>
        rw [own, same]
        exact inv.letGo found mailbox released
    | outside stage same others => exact inv.outside change stage same others

/-! ## Whether the feedback ends -/

theorem relapses_of_isSteady (staffed : s.IsStaffed)
    (steady : ∀ sub ∈ s.setup.subscribers, sub.IsSteady) : s.relapses = 0 := by
  cases found : s.listener with
  | none => rw [relapses, found]
  | some l =>
      rw [relapses_of_some found, List.sum_eq_zero_iff]
      intro count member
      obtain ⟨m, there, rfl⟩ := List.mem_map.mp member
      refine Mailbox.relapses_of_isSteady (steady _ ?_)
      rw [← staffed l found]
      exact List.mem_map_of_mem there

/-- What is true of the feedback of a supervisor with this setup. -/
structure FeedbackEnds (setup : Setup) (s : Supervisor) : Prop where
  /-- So many reports there are at most after what was published from outside, and after so many
  relapses. -/
  reports_le : s.reports ≤ outsideToll setup.subscribers.length * s.outside +
    relapseCharge setup.subscribers.length * s.relapses + (setup.subscribers.length + 2)
  /-- So many steps the listener and the workers take at most, and so many reports they publish, for
  what they have before them, and for so many relapses. -/
  length_le : ∀ steps t, Feedback s steps t →
    t.reports + steps.length + relapseCharge setup.subscribers.length * s.relapses ≤
      s.reports + s.load + relapseCharge setup.subscribers.length * t.relapses
  /-- Unless there are more and more relapses, the feedback ends. -/
  settles_iff : s.Settles ↔ ∃ bound, ∀ steps t, Feedback s steps t → t.relapses ≤ bound
  /-- So it does if no subscriber ever panics at a report about a refusal. -/
  steady : (∀ sub ∈ setup.subscribers, sub.IsSteady) → s.relapses = 0 ∧ s.Settles

/-- The reports about trouble with the subscribers come to an end if and only if there is a bound on
the panics at reports about refusals that can still follow, and nothing else keeps them going. -/
theorem feedbackEnds (h : Reachable setup s) : FeedbackEnds setup s := by
  have inv := h.attained.feedInvariant
  have setup_eq := h.attained.setup_eq
  have audience : s.audience = setup.subscribers.length := congrArg (·.subscribers.length) setup_eq
  refine ⟨?_, fun steps t run => ?_, Supervisor.settles_iff inv.staffed, fun steady => ?_⟩
  · rw [← audience]
    exact (Nat.le_add_right _ s.load).trans inv.weight_le
  · have spent := run.descends inv.staffed
    rw [audience] at spent
    unfold weight at spent
    omega
  · rw [← setup_eq] at steady
    refine ⟨relapses_of_isSteady inv.staffed steady, (Supervisor.settles_iff inv.staffed).mpr ?_⟩
    refine ⟨0, fun steps t run => Nat.le_of_eq ?_⟩
    exact relapses_of_isSteady (run.staffed inv.staffed) (run.setup_eq.symm ▸ steady)

/-- One subscriber writes to the log, one panics at the start of a run, and one has a queue of one
place and waits at its first event. -/
def steadyCrowd : List Subscriber :=
  [.logWriter, .reacting "jumpy" 1 [.taskStarting] (.panics (.text "no")),
    .reacting "slow" 1 EventKind.all .waits]

theorem isSteady_steadyCrowd : ∀ sub ∈ steadyCrowd, sub.IsSteady := by
  simp only [steadyCrowd, List.forall_mem_cons]
  exact ⟨Subscriber.isSteady_logWriter, Subscriber.isSteady_reacting (.inl (by decide)) _ _,
    Subscriber.isSteady_reacting (.inr rfl) _ _, by simp⟩

/-- There is a panic here and two refused events, but no relapse. -/
theorem feedbackEnds_of_steadyCrowd :
    ∃ s, (create { subscribers := steadyCrowd }).applyAll
        [.start, .submit { id := "a" }, .progress (.begin 1), .progress .listen,
          .progress (.serve 1), .progress (.serve 2), .progress .listen,
          .progress (.release 1), .progress (.report 1), .progress .listen] = some s ∧
      s.reports = 3 ∧ FeedbackEnds { subscribers := steadyCrowd } s ∧ s.Settles := by
  obtain ⟨s, ran, reports⟩ : ∃ s, (create { subscribers := steadyCrowd }).applyAll
        [.start, .submit { id := "a" }, .progress (.begin 1), .progress .listen,
          .progress (.serve 1), .progress (.serve 2), .progress .listen,
          .progress (.release 1), .progress (.report 1), .progress .listen] = some s ∧
      s.reports = 3 := ⟨_, rfl, rfl⟩
  have ends := feedbackEnds (reachable_of_applyAll ran)
  exact ⟨s, ran, reports, ends, (ends.steady isSteady_steadyCrowd).2⟩

/-! ## A feedback without an end -/

section Endless

variable {alarm : Subscriber} {stuck : Mailbox} {refusal : Refusal} {before : List Event}
  {e : Event} {payload : Payload}

/-- One event is left to read, the queue of the first subscriber is empty and its worker idle. The
second mailbox is in a given state. -/
structure IsNext (alarm : Subscriber) (stuck : Mailbox) (before : List Event) (e : Event)
    (s : Supervisor) : Prop where
  published : s.published = before ++ [e]
  listening : ∃ handled,
    s.listener = some ⟨before.length, .receiving, [{ subscriber := alarm, handled }, stuck]⟩

theorem serve_eq_some {l : Listener} {index : Nat} {m m' : Mailbox} {effects : Effects}
    (found : s.listener = some l) (mailbox : l.mailboxes[index]? = some m)
    (taken : m.take = some (m', effects)) :
    s.serve index = some ((s.setMailbox l index m').writeAll effects.marks) := by
  simp [serve, found, mailbox, taken, emit_eq]

/-- The second mailbox refuses the event and the first subscriber handles it; if one of the two
leads to a reply, then the reply is the next event. -/
theorem IsNext.answer (h : IsNext alarm stuck before e s) (refuses : stuck.refusal = some refusal)
    (early : e.isTerminal = false) (effects : Effects) (reply : Event)
    (handles : ∀ earlier, ({ subscriber := alarm, handled := earlier } : Mailbox).handle e =
      ({ subscriber := alarm, handled := earlier ++ [e] }, effects))
    (replies : (refusal.effects stuck.subscriber.name e).events ++ effects.events = [reply]) :
    ∃ t, Feedback s [.listen, .serve 0] t ∧ IsNext alarm stuck (before ++ [e]) reply t := by
  obtain ⟨published, handled, found⟩ := h
  have reading : s.nextReading ⟨before.length, .receiving,
      [{ subscriber := alarm, handled }, stuck]⟩ = (.event e, before.length + 1) := by
    rw [nextReading, published]
    exact readFeed_last _ before e
  have place : ({ subscriber := alarm, handled } : Mailbox).refusal = none := by
    simp [Mailbox.refusal, Mailbox.isOver, Subscriber.places]
  let refused : Effects := {} ++ (refusal.effects stuck.subscriber.name e ++ {})
  have offered : offerAll [{ subscriber := alarm, handled }, stuck] e =
      ([{ subscriber := alarm, queue := [e], handled }, stuck], refused) := by
    simp [offerAll, Mailbox.offer, place, refuses, refused]
  let l : Listener :=
    ⟨before.length + 1, .receiving, [{ subscriber := alarm, queue := [e], handled }, stuck]⟩
  let u : Supervisor := ({ s with listener := some l } : Supervisor).writeAll refused.marks
  have heard : s.listen = some u := by
    simp only [listen, found, reading, offered, early, emit_eq]
    rfl
  have served : u.serve 0 = some ((u.setMailbox l 0
      { subscriber := alarm, handled := handled ++ [e] }).writeAll effects.marks) := by
    have taken : ({ subscriber := alarm, queue := [e], handled } : Mailbox).take =
        some ({ subscriber := alarm, handled := handled ++ [e] }, effects) :=
      congrArg some (handles handled)
    exact serve_eq_some rfl rfl taken
  refine ⟨_, .cons rfl heard (.cons rfl served (.nil _)), ?_, handled ++ [e], ?_⟩
  · have before' : u.published = before ++ [e] ++
        (refusal.effects stuck.subscriber.name e).events := by
      rw [published_writeAll, refused.filterMap_marks, ← published]
      exact congrArg (s.published ++ ·) (List.append_nil _)
    rw [published_writeAll, effects.filterMap_marks, ← replies, ← List.append_assoc]
    exact congrArg (· ++ effects.events) before'
  · simp [setMailbox, l, writeAll]

/-- The subscriber panics at every report about a refusal and only looks at reports about panics. -/
structure IsAlarm (alarm : Subscriber) (payload : Payload) : Prop where
  panics : ∀ earlier e, e.kind = .subscriberOverflow → alarm.react earlier e = .panics payload
  looks : ∀ earlier e, e.kind = .subscriberPanicked → alarm.react earlier e = .returns

/-- The report about the panic is refused, and the report about the refusal raises the same panic
again. -/
theorem IsAlarm.round (kind : IsAlarm alarm payload)
    (refuses : stuck.refusal = some refusal)
    (report : e = .panicked alarm.name (payload.textOr "unknown panic"))
    (h : IsNext alarm stuck before e s) :
    ∃ t before', Feedback s [.listen, .serve 0, .listen, .serve 0] t ∧
      IsNext alarm stuck before' e t ∧ t.reports = s.reports + 2 := by
  have panicked : e.kind = .subscriberPanicked := by rw [report]; rfl
  obtain ⟨u, first, refused⟩ := h.answer refuses (by simp [Event.isTerminal, panicked]) {}
    (.overflow stuck.subscriber.name refusal.reason)
    (fun earlier => by simp [Mailbox.handle, kind.looks earlier e panicked])
    (by simp [Refusal.effects, panicked])
  have overflow : (Event.overflow stuck.subscriber.name refusal.reason).kind =
      .subscriberOverflow := rfl
  obtain ⟨t, second, again⟩ := refused.answer refuses rfl
    (({ subscriber := alarm } : Mailbox).panicEffects payload
      (.overflow stuck.subscriber.name refusal.reason)) e
    (fun earlier => by simp [Mailbox.handle, kind.panics earlier _ overflow, Mailbox.panicEffects])
    (by simp [Refusal.effects, overflow, Mailbox.panicEffects, report])
  refine ⟨t, _, first.append second, again, ?_⟩
  rw [reports, again.published, reports, h.published]
  simp [Event.isReport, Event.overflow, panicked]

/-- So the reports go on for as many rounds as one likes. -/
theorem IsAlarm.endless (kind : IsAlarm alarm payload)
    (refuses : stuck.refusal = some refusal)
    (report : e = .panicked alarm.name (payload.textOr "unknown panic"))
    (h : IsNext alarm stuck before e s) (rounds : Nat) :
    ∃ steps t, Feedback s steps t ∧ t.reports = s.reports + 2 * rounds := by
  induction rounds generalizing s before with
  | zero => exact ⟨[], s, .nil s, rfl⟩
  | succ rounds ih =>
      obtain ⟨u, before', first, next, more⟩ := kind.round refuses report h
      obtain ⟨steps, t, rest, total⟩ := ih next
      exact ⟨_, t, first.append rest, by omega⟩

theorem IsAlarm.not_settles (kind : IsAlarm alarm payload) (before : List Event)
    (refuses : stuck.refusal = some refusal)
    (report : e = .panicked alarm.name (payload.textOr "unknown panic"))
    (h : IsNext alarm stuck before e s) : ¬ s.Settles := by
  rintro ⟨⟨bound, bounded⟩, -⟩
  obtain ⟨steps, t, run, total⟩ := kind.endless refuses report h (bound + 1)
  have few := (bounded steps t run).2
  omega

/-- One subscriber panics at reports about refusals, another one has a queue of one place and waits
at its first event. One event that is refused is enough, and the reports go on without an end. -/
theorem feedback_never_ends :
    ∃ s, (create { subscribers := [
          .reacting "alarm" 1024 [.subscriberOverflow] (.panics (.text "no room")),
          .reacting "slow" 1 EventKind.all .waits] }).applyAll
        [.start, .submit { id := "a" }, .progress (.begin 1), .progress .listen,
          .progress (.serve 0), .progress (.serve 1), .progress (.release 1),
          .progress (.report 1), .progress .listen, .progress (.serve 0), .progress (.call 1),
          .progress (.call 1), .progress (.send 1), .progress .observe, .progress .listen,
          .progress (.serve 0), .progress .listen, .progress (.serve 0)] = some s ∧
      s.reports = 2 ∧ s.outside = 3 ∧ ¬ s.Settles := by
  refine ⟨_, rfl, rfl, rfl, ?_⟩
  have kind : IsAlarm (.reacting "alarm" 1024 [.subscriberOverflow] (.panics (.text "no room")))
      (.text "no room") :=
    ⟨fun earlier e overflow => by simp [Subscriber.reacting, overflow],
      fun earlier e panicked => by simp [Subscriber.reacting, panicked]⟩
  let before : List Event :=
    [(Event.ofKind .taskStarting).withTask "a", (Event.ofKind .taskStopped).withTask "a",
      (Event.ofKind .outcomeObserved).withTask "a", .overflow "slow" "full"]
  exact kind.not_settles before rfl rfl ⟨rfl, _, rfl⟩

end Endless

end Supervisor

end Supervision
