import Mathlib.Data.List.Induction
import Supervision.Supervisor.Move

/-!
# What moves tell in turn

A supervisor does not remember everything that has happened to it. `trace` collects what the moves
of a history tell, if every move tells something on the way from one state to the next.

Results:
1. `history_invariant`: what every move keeps that makes a history longer, a whole history keeps.
2. `trace_invariant`: the same of what every move keeps with what it tells.
-/

namespace Supervision

namespace Supervisor

variable {α : Type} {s t u : Supervisor} {moves : List Move}

/-- What some moves tell in turn, as far as they can be made. -/
def trace (tell : Supervisor → Move → Supervisor → List α) (s : Supervisor) : List Move → List α
  | [] => []
  | m :: rest => match s.apply m with
    | some t => tell s m t ++ trace tell t rest
    | none => []

theorem applyAll_cons {m : Move} (h : s.applyAll (m :: moves) = some u) :
    ∃ t, s.apply m = some t ∧ t.applyAll moves = some u := Option.bind_eq_some_iff.mp h

theorem applyAll_concat {m : Move} (h : s.applyAll moves = some t) (applied : t.apply m = some u) :
    s.applyAll (moves ++ [m]) = some u := by
  induction moves generalizing s with
  | nil =>
      cases h
      simp [applyAll, applied]
  | cons first rest ih =>
      obtain ⟨v, before, ran⟩ := applyAll_cons h
      simp [applyAll, before, ih ran]

theorem applyAll_of_concat {m : Move} (h : s.applyAll (moves ++ [m]) = some u) :
    ∃ t, s.applyAll moves = some t ∧ t.apply m = some u := by
  induction moves generalizing s with
  | nil =>
      obtain ⟨t, applied, ran⟩ := applyAll_cons h
      cases ran
      exact ⟨s, rfl, applied⟩
  | cons first rest ih =>
      obtain ⟨v, before, ran⟩ := applyAll_cons h
      obtain ⟨t, ran, applied⟩ := ih ran
      exact ⟨t, Option.bind_eq_some_iff.mpr ⟨v, before, ran⟩, applied⟩

/-- What holds before a history and is kept by every move that makes it longer holds after it. -/
theorem history_invariant {P : Supervisor → List Move → Prop} (h : s.applyAll moves = some t)
    (first : P s [])
    (kept : ∀ {u v m done}, s.applyAll done = some u → P u done → u.apply m = some v →
      P v (done ++ [m])) : P t moves := by
  induction moves using List.reverseRecOn generalizing t with
  | nil =>
      cases h
      exact first
  | append_singleton rest m ih =>
      obtain ⟨u, ran, applied⟩ := applyAll_of_concat h
      exact kept ran (ih ran) applied

/-- What is led to is led to by a history. -/
theorem exists_applyAll (h : Leads s t) : ∃ moves, s.applyAll moves = some t := by
  induction h with
  | refl => exact ⟨[], rfl⟩
  | step _ applied ih =>
      obtain ⟨moves, ran⟩ := ih
      exact ⟨_, applyAll_concat ran applied⟩

theorem trace_cons {tell : Supervisor → Move → Supervisor → List α} {m : Move}
    (h : s.apply m = some t) : trace tell s (m :: moves) = tell s m t ++ trace tell t moves := by
  rw [trace, h]

theorem trace_concat {tell : Supervisor → Move → Supervisor → List α} {m : Move}
    (h : s.applyAll moves = some t) (applied : t.apply m = some u) :
    trace tell s (moves ++ [m]) = trace tell s moves ++ tell t m u := by
  induction moves generalizing s with
  | nil =>
      cases h
      rw [List.nil_append, trace_cons applied, trace, trace, List.append_nil, List.nil_append]
  | cons first rest ih =>
      obtain ⟨v, before, ran⟩ := applyAll_cons h
      rw [List.cons_append, trace_cons before, trace_cons before, ih ran, List.append_assoc]

/-- What holds before a history and is kept by every move, with what has been told until then, holds
after it. -/
theorem trace_invariant (tell : Supervisor → Move → Supervisor → List α)
    {P : Supervisor → List α → Prop} (h : s.applyAll moves = some t) (first : P s [])
    (kept : ∀ {u v m told}, Leads s u → P u told → u.apply m = some v →
      P v (told ++ tell u m v)) : P t (trace tell s moves) := by
  -- from any state on the way, with whatever has been told until then
  suffices extended : ∀ {u told}, Leads s u → P u told → u.applyAll moves = some t →
      P t (told ++ trace tell u moves) from extended (.refl s) first h
  clear first h
  induction moves with
  | nil =>
      intro u told _ inv ran
      cases ran
      rwa [trace, List.append_nil]
  | cons m rest ih =>
      intro u told leads inv ran
      obtain ⟨v, applied, ran⟩ := applyAll_cons ran
      rw [trace_cons applied, ← List.append_assoc]
      exact ih (leads.step applied) (kept leads inv applied) ran

end Supervisor

end Supervision
