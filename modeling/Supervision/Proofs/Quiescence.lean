import Supervision.Proofs.Evolution

/-!
# Quiescence

`candidates` names all progress that could be possible, so a quiescent supervisor can make none at
all.

Results:
1. `mem_candidates`: whatever progress is possible is among the candidates.
2. `isQuiescent_iff`: a supervisor is quiescent if and only if it can make no progress.
3. `phase_of_quiescent`, `delay_of_quiescent`: where runs and delays stand then.
-/

namespace Supervision

namespace Supervisor

variable {s t : Supervisor}

/-- A run that exists is among the runs whose progress the candidates name. -/
theorem mem_candidates_of_run {n : Nat} {r : Run} {p : Progress} (found : s.run? n = some r)
    (own : p ∈ [.begin n, .release n, .report n, .call n, .leave n, .send n]) :
    p ∈ s.candidates := by
  obtain ⟨positive, bound⟩ := run?_bounds found
  have named : p ∈ (List.range s.runs.length).flatMap fun k =>
      [.begin (k + 1), .release (k + 1), .report (k + 1), .call (k + 1), .leave (k + 1),
        .send (k + 1)] := by
    refine List.mem_flatMap.mpr ⟨n - 1, List.mem_range.mpr (by omega), ?_⟩
    rwa [Nat.sub_add_cancel positive]
  simp [candidates, named]

theorem mem_candidates_of_mailbox {l : Listener} {index : Nat} {m : Mailbox} {p : Progress}
    (found : s.listener = some l) (mailbox : l.mailboxes[index]? = some m)
    (own : p ∈ [.serve index, .retire index]) : p ∈ s.candidates := by
  obtain ⟨bound, -⟩ := List.getElem?_eq_some_iff.mp mailbox
  have named : p ∈ (List.range l.mailboxes.length).flatMap fun k => [.serve k, .retire k] :=
    List.mem_flatMap.mpr ⟨index, List.mem_range.mpr bound, own⟩
  simp [candidates, found, named]

theorem run?_of_phase {α : Type} {n : Nat} {f : Run → Option α} {a : α}
    (h : (match s.run? n with
      | some r => f r
      | none => none) = some a) : ∃ r, s.run? n = some r := by
  split at h
  · next r found => exact ⟨r, found⟩
  · cases h

/-- Whatever progress is possible is among the candidates. -/
theorem mem_candidates {p : Progress} (h : s.progress p = some t) : p ∈ s.candidates := by
  cases p with
  | begin n | release n | report n | call n | leave n | send n =>
      obtain ⟨r, found⟩ := run?_of_phase h
      exact mem_candidates_of_run found (by simp)
  | fire index | abandon index | arm index =>
      have bound : index < s.delays.length := by
        refine Nat.lt_of_not_le fun beyond => ?_
        have missing : s.delays[index]? = none := List.getElem?_eq_none beyond
        simp [progress, fire, abandon, arm, missing] at h
      simp [candidates, bound]
  | post index =>
      have bound : index < s.notices.length := by
        refine Nat.lt_of_not_le fun beyond => ?_
        have missing : s.notices[index]? = none := List.getElem?_eq_none beyond
        simp [progress, post, missing] at h
      simp [candidates, bound]
  | observe | heedInterrupt | heedParent | exitLoop | listen | closeListener =>
      simp [candidates]
  | proceed index =>
      have bound : index < s.calls.length := by
        refine Nat.lt_of_not_le fun beyond => ?_
        have missing : s.calls[index]? = none := List.getElem?_eq_none beyond
        simp [progress, proceed, missing] at h
      simp [candidates, bound]
  | resolveWait number =>
      have bound : number < s.waits.length := by
        refine Nat.lt_of_not_le fun beyond => ?_
        have missing : s.waits[number]? = none := List.getElem?_eq_none beyond
        simp [progress, resolveWait, missing] at h
      simp [candidates, bound]
  | serve index =>
      obtain ⟨l, found, h⟩ := Option.bind_eq_some_iff.mp h
      obtain ⟨m, mailbox, -⟩ := Option.bind_eq_some_iff.mp h
      exact mem_candidates_of_mailbox found mailbox (by simp)
  | retire index =>
      obtain ⟨l, found, h⟩ := Option.bind_eq_some_iff.mp h
      split at h
      · cases h
      · obtain ⟨m, mailbox, -⟩ := Option.bind_eq_some_iff.mp h
        exact mem_candidates_of_mailbox found mailbox (by simp)

/-- A supervisor is quiescent if and only if it can make no progress. -/
theorem isQuiescent_iff : s.isQuiescent = true ↔ ∀ p, s.progress p = none := by
  unfold isQuiescent
  rw [List.all_eq_true]
  constructor
  · intro h p
    cases possible : s.progress p with
    | none => rfl
    | some t => simpa [possible] using h p (mem_candidates possible)
  · intro h p _
    rw [h p]
    rfl

/-- In a quiescent supervisor every timer is set that a callback has decided on. -/
theorem delay_of_quiescent (h : s.isQuiescent = true) {d : Delay} (member : d ∈ s.delays) :
    d.state ≠ .decided := by
  intro decided
  obtain ⟨index, found⟩ := List.mem_iff_getElem?.mp member
  simpa [progress, arm, found, decided] using isQuiescent_iff.mp h (.arm index)

theorem ready_of_quiescent (h : s.isQuiescent = true) (n : Nat) : s.isDeferring n = false := by
  rw [isDeferring, List.any_eq_false]
  intro d member
  simp [delay_of_quiescent h member]

/-- In a quiescent supervisor a run has not begun to return, or it is through with all but the
wait for a place in the queue. -/
theorem phase_of_quiescent (h : s.isQuiescent = true) {n : Nat} {r : Run}
    (found : s.run? n = some r) :
    r.phase = .working ∨ ∃ fault, r.phase = .inLine fault ∨ r.phase = .finished fault := by
  have still := isQuiescent_iff.mp h
  cases phase : r.phase with
  | working => exact .inl rfl
  | inLine fault => exact .inr ⟨fault, .inl rfl⟩
  | finished fault => exact .inr ⟨fault, .inr rfl⟩
  | launched => simpa [progress, begin, found, phase] using still (.begin n)
  | returned => simpa [progress, release, found, phase] using still (.release n)
  | released => simpa [progress, report, found, phase] using still (.report n)
  | due => simpa [progress, call, found, phase] using still (.call n)
  | calling =>
      simpa [progress, leave, found, phase, ready_of_quiescent h n] using still (.leave n)

end Supervisor

end Supervision
