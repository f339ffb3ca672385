import Supervision.Proofs.LatestRuns

/-!
# Separate ids

A registry keeps the runs of all ids under one counter, and all of them see `cancelAll`. Still what
is seen of an id is what the operations on it and those on all ids make of it. A release is matched
with the installation that its number came from, since the numbers themselves tell what was done to
other ids in between.

Results:
1. `slot_perform`: what the next operation does to what is seen of an id.
2. `slot_eq`: the operations that concern the id make its slot, one by one.
3. `isAlone_session`: these operations, carried out alone, are themselves the ones that concern it.
4. `keepsLatestRuns`: the registry is a map of latest runs, in which the ids are independent.
-/

namespace Supervision

namespace Registry

variable {log : List Exchange} {e : Exchange} {s : Session} {id x : String} {run n : Nat}

/-! ## The part of one id -/

/-- The place of a run among others, counted from one; zero for a run that is not there. -/
def ordinal (numbers : List Nat) (run : Nat) : Nat :=
  if run ∈ numbers then numbers.idxOf run + 1 else 0

/-- What an operation is for an id, if it concerns the id: a run goes by its place among those of the
id so far. -/
def Operation.part? (id : String) (numbers : List Nat) : Operation → Option Operation
  | .install x => if x = id then some (.install id) else none
  | .release x run => if x = id then some (.release id (ordinal numbers run)) else none
  | .cancelAll => some .cancelAll

/-- An operation that concerns an id is on the id or on all of them. -/
theorem Operation.eq_of_part? {op own : Operation} {numbers : List Nat}
    (part : op.part? id numbers = some own) :
    (op = .install id ∧ own = .install id) ∨
    (∃ run, op = .release id run ∧ own = .release id (ordinal numbers run)) ∨
    (op = .cancelAll ∧ own = .cancelAll) := by
  cases op with
  | install x =>
      obtain ⟨rfl, same⟩ := Option.ite_none_right_eq_some.mp part
      exact .inl ⟨rfl, (Option.some.inj same).symm⟩
  | release x run =>
      obtain ⟨rfl, same⟩ := Option.ite_none_right_eq_some.mp part
      exact .inr (.inl ⟨run, rfl, (Option.some.inj same).symm⟩)
  | cancelAll => exact .inr (.inr ⟨rfl, (Option.some.inj part).symm⟩)

/-- The parts of some operations, after some runs of the id. -/
def excerptFrom (id : String) (numbers : List Nat) : List Exchange → List Operation
  | [] => []
  | e :: rest =>
      (e.operation.part? id numbers).toList ++ excerptFrom id (numbers ++ (e.runOf? id).toList) rest

/-- The operations that concern an id, as if there were no other ids. -/
def excerpt (id : String) (log : List Exchange) : List Operation := excerptFrom id [] log

theorem excerpt_concat (id : String) (log : List Exchange) (e : Exchange) :
    excerpt id (log ++ [e]) =
      excerpt id log ++ (e.operation.part? id (numbersOf id log)).toList := by
  suffices from_ : ∀ numbers, excerptFrom id numbers (log ++ [e]) = excerptFrom id numbers log ++
      (e.operation.part? id (numbers ++ numbersOf id log)).toList from from_ []
  induction log with
  | nil => simp [excerptFrom, numbersOf]
  | cons f rest ih =>
      intro numbers
      have split : numbersOf id (f :: rest) = (f.runOf? id).toList ++ numbersOf id rest := by
        rw [numbersOf, List.filterMap_cons, ← numbersOf]
        cases h : f.runOf? id <;> simp
      rw [List.cons_append, excerptFrom, ih, excerptFrom, split]
      simp only [List.append_assoc]

theorem ordinal_le (numbers : List Nat) (run : Nat) : ordinal numbers run ≤ numbers.length := by
  unfold ordinal
  split
  · next member => exact List.idxOf_lt_length_iff.mpr member
  · exact Nat.zero_le _

/-- The last of different runs is the one with the greatest ordinal. -/
theorem ordinal_eq_length_iff {front : List Nat} (new : n ∉ front) :
    ordinal (front ++ [n]) run = (front ++ [n]).length ↔ run = n := by
  unfold ordinal
  by_cases early : run ∈ front
  · have place := List.idxOf_lt_length_iff.mpr early
    have other : run ≠ n := fun same => new (same ▸ early)
    rw [if_pos (List.mem_append_left _ early), List.idxOf_append_of_mem early, List.length_append,
      List.length_singleton]
    simp only [other, iff_false]
    omega
  · by_cases last : run = n
    · subst last
      simp [List.idxOf_append_of_notMem early]
    · simp [early, last]

/-- The numbers of a new registry are ordinals. -/
theorem ordinal_range' {count : Nat} (le : run ≤ count) :
    ordinal (List.range' 1 count) run = run := by
  unfold ordinal
  split
  · next member =>
      obtain ⟨positive, -⟩ := List.mem_range'_1.mp member
      have place : run - 1 < (List.range' 1 count).length := by
        rw [List.length_range']
        omega
      have found : (List.range' 1 count)[run - 1] = run := by
        rw [List.getElem_range']
        omega
      have index := (List.nodup_range' (s := 1) (n := count)).idxOf_getElem (run - 1) place
      rw [found] at index
      omega
  · next absent =>
      rw [List.mem_range'_1] at absent
      omega

/-! ## Slots -/

/-- What is seen of an id: the answers, whether it is active, and which of its runs have lost their
tokens. -/
structure Slot where
  replies : List Bool := []
  active : Bool := false
  tokens : List Bool := []
deriving DecidableEq, Repr

/-- The tokens after the last one is cancelled, if its run is active. -/
def Slot.cancelled (s : Slot) : List Bool :=
  if s.active then s.tokens.dropLast ++ [true] else s.tokens

/-- What an operation does to the slot of its id. A run is released if it is the last one and
active. -/
def Slot.perform (s : Slot) : Operation → Slot
  | .install _ =>
      { replies := s.replies ++ [s.active], active := true, tokens := s.cancelled ++ [false] }
  | .release _ run =>
      let success := s.active && run == s.tokens.length
      { s with replies := s.replies ++ [success], active := s.active && !success }
  | .cancelAll => { s with tokens := s.cancelled }

/-- The slot of an id in a registry. -/
def Session.slot (s : Session) (id : String) : Slot :=
  { replies := s.log.filterMap (·.reply? id)
    active := decide (id ∈ s.registry.ids)
    tokens := (numbersOf id s.log).map (isCancelled s.log) }

theorem isCancelled_concat (log : List Exchange) (e : Exchange) (run : Nat) :
    isCancelled (log ++ [e]) run = (isCancelled log run || decide (run ∈ e.cancels)) := by
  simp [isCancelled]

namespace Session.Fits

theorem active_eq (h : s.Fits) (id : String) :
    (s.slot id).active = (s.registry.lookup id).isSome := by
  rw [Bool.eq_iff_iff, slot, decide_eq_true_iff, h.mem_ids_iff, Option.isSome_iff_exists]
  simp only [h.lookup_iff]

/-- The active run of an id is the last of its runs. -/
theorem numbersOf_eq (h : s.Fits) (found : s.registry.lookup id = some run) :
    ∃ front, numbersOf id s.log = front ++ [run] ∧ run ∉ front := by
  obtain ⟨front, same⟩ := ((h.lookup_iff id run).mp found).numbersOf_eq
  refine ⟨front, same, fun early => ?_⟩
  have distinct := h.nodup.sublist (numbersOf_sublist id s.log)
  rw [same] at distinct
  exact (List.nodup_append.mp distinct).2.2 run early run (List.mem_singleton_self run) rfl

theorem tokens_of_cancels (h : s.Fits) (id : String)
    (own : ∀ n ∈ numbersOf id s.log, n ∈ e.cancels ↔ s.registry.lookup id = some n) :
    (numbersOf id s.log).map (isCancelled (s.log ++ [e])) = (s.slot id).cancelled := by
  rw [Slot.cancelled, h.active_eq]
  cases found : s.registry.lookup id with
  | none =>
      refine List.map_congr_left fun n member => ?_
      rw [isCancelled_concat, decide_eq_false (by rw [own n member, found]; nofun), Bool.or_false]
  | some run =>
      obtain ⟨front, same, new⟩ := h.numbersOf_eq found
      rw [same] at own
      have kept : front.map (isCancelled (s.log ++ [e])) = front.map (isCancelled s.log) := by
        refine List.map_congr_left fun n member => ?_
        have other : n ∉ e.cancels := by
          rw [own n (List.mem_append_left _ member), found]
          rintro ⟨⟩
          exact new member
        rw [isCancelled_concat, decide_eq_false other, Bool.or_false]
      have lost : isCancelled (s.log ++ [e]) run = true := by
        rw [isCancelled_concat, decide_eq_true ((own run (by simp)).mpr found), Bool.or_true]
      simp [slot, same, kept, lost]

/-- What is installed next has its token. -/
theorem isCancelled_next (h : s.Fits) (faithful : IsFaithful s.log) :
    isCancelled s.log (s.registry.numbered + 1) = false := by
  by_contra lost
  have := h.le_numbered (faithful.mem_numbers (Bool.not_eq_false _ ▸ lost))
  omega

/-- A run that another id holds is none of the id's. -/
theorem eq_of_holds (h : s.Fits) (member : n ∈ numbersOf id s.log) (held : Holds s.log x n) :
    x = id := eq_of_mem_numbersOf h.nodup held.mem_numbersOf member

end Session.Fits

theorem tokens_of_spared (spared : ∀ n ∈ numbersOf id log, n ∉ e.cancels) :
    (numbersOf id log).map (isCancelled (log ++ [e])) = (numbersOf id log).map (isCancelled log) :=
  List.map_congr_left fun n member => by
    rw [isCancelled_concat, decide_eq_false (spared n member), Bool.or_false]

/-- The slot after one more operation, from its answer. -/
theorem slot_perform_eq (fits : s.Fits) (id : String) {op : Operation}
    (same : e = ⟨op, (s.registry.perform op).2⟩) :
    (s.perform op).slot id =
      { replies := (s.slot id).replies ++ (e.reply? id).toList
        active := ((s.registry.perform op).1.lookup id).isSome
        tokens := (numbersOf id s.log).map (isCancelled (s.log ++ [e])) ++
          (e.runOf? id).toList.map (isCancelled (s.log ++ [e])) } := by
  have log : (s.perform op).log = s.log ++ [e] := same ▸ rfl
  have replies : ((s.perform op).slot id).replies = (s.slot id).replies ++ (e.reply? id).toList := by
    rw [Session.slot, log, List.filterMap_append, Session.slot]
    cases h : e.reply? id <;> simp [h]
  have active : ((s.perform op).slot id).active = ((s.registry.perform op).1.lookup id).isSome :=
    (fits.perform op).active_eq id
  have tokens : ((s.perform op).slot id).tokens =
      (numbersOf id s.log).map (isCancelled (s.log ++ [e])) ++
        (e.runOf? id).toList.map (isCancelled (s.log ++ [e])) := by
    rw [Session.slot, log, numbersOf_concat, List.map_append]
  rw [← replies, ← active, ← tokens]

theorem slot_install (fits : s.Fits) (faithful : IsFaithful s.log) (id : String) :
    (s.perform (.install id)).slot id = (s.slot id).perform (.install id) := by
  let e : Exchange := ⟨.install id, .installed (s.registry.numbered + 1) (s.registry.lookup id)⟩
  have evicts := fits.tokens_of_cancels (e := e) id fun n _ => Option.mem_toList
  have kept : isCancelled (s.log ++ [e]) (s.registry.numbered + 1) = false := by
    have other : s.registry.lookup id ≠ some (s.registry.numbered + 1) := fun found => by
      have member := ((fits.lookup_iff id _).mp found).mem_numbersOf
      have := fits.le_numbered ((numbersOf_sublist id s.log).subset member)
      omega
    rw [isCancelled_concat, fits.isCancelled_next faithful, Bool.false_or, decide_eq_false_iff_not]
    exact mt Option.mem_toList.mp other
  have lookup : (s.registry.perform (.install id)).1.lookup id = some (s.registry.numbered + 1) :=
    (lookup_install s.registry id id).trans (if_pos rfl)
  rw [slot_perform_eq fits id (e := e) rfl, evicts, lookup]
  simp [e, Exchange.reply?, Exchange.runOf?, Slot.perform, fits.active_eq, kept]

theorem slot_release (fits : s.Fits) (id : String) (run : Nat) :
    (s.perform (.release id run)).slot id =
      (s.slot id).perform (.release id (ordinal (numbersOf id s.log) run)) := by
  let e : Exchange := ⟨.release id run, .released (decide (s.registry.lookup id = some run))⟩
  have answer : e = ⟨.release id run, (s.registry.perform (.release id run)).2⟩ :=
    congrArg (Exchange.mk _ ∘ Answer.released) (release_snd ..).symm
  have lookup : (s.registry.perform (.release id run)).1.lookup id =
      if s.registry.lookup id = some run then none else s.registry.lookup id := by
    refine (lookup_release s.registry id id run).trans ?_
    simp only [true_and]
  have success : ((s.registry.lookup id).isSome &&
      ordinal (numbersOf id s.log) run == (s.slot id).tokens.length) =
      decide (s.registry.lookup id = some run) := by
    rw [Session.slot, List.length_map]
    cases found : s.registry.lookup id with
    | none => rfl
    | some n =>
        obtain ⟨front, same, new⟩ := fits.numbersOf_eq found
        rw [same, Option.isSome_some, Bool.true_and, Bool.eq_iff_iff, beq_iff_eq,
          ordinal_eq_length_iff new, decide_eq_true_iff, Option.some.injEq, eq_comm]
  rw [slot_perform_eq fits id answer, lookup, tokens_of_spared (fun _ _ => List.not_mem_nil),
    Slot.perform, fits.active_eq, success]
  by_cases found : s.registry.lookup id = some run <;>
    simp [e, found, Exchange.reply?, Exchange.runOf?, Session.slot]

theorem slot_cancelAll (fits : s.Fits) (id : String) :
    (s.perform .cancelAll).slot id = (s.slot id).perform .cancelAll := by
  let e : Exchange := ⟨.cancelAll, .cancelled s.registry.runs⟩
  have cancels := fits.tokens_of_cancels (e := e) id fun n member => by
    refine fits.mem_runs_iff.trans ⟨?_, fun found => ⟨id, (fits.lookup_iff id n).mp found⟩⟩
    rintro ⟨x, held⟩
    exact (fits.lookup_iff id n).mpr (fits.eq_of_holds member held ▸ held)
  rw [slot_perform_eq fits id (e := e) rfl, cancels]
  simp [e, Exchange.reply?, Exchange.runOf?, Slot.perform, fits.active_eq, Registry.perform]

/-- An operation that says nothing about an id leaves its slot alone. -/
theorem slot_of_silent (fits : s.Fits) {op : Operation}
    (same : e = ⟨op, (s.registry.perform op).2⟩) (reply : e.reply? id = none)
    (run : e.runOf? id = none) (spared : ∀ n ∈ numbersOf id s.log, n ∉ e.cancels)
    (lookup : (s.registry.perform op).1.lookup id = s.registry.lookup id) :
    (s.perform op).slot id = s.slot id := by
  rw [slot_perform_eq fits id same, reply, run, tokens_of_spared spared, lookup,
    ← fits.active_eq id]
  simp [Session.slot]

/-- An operation on one id leaves the slots of the others alone. -/
theorem slot_of_other (fits : s.Fits) (id : String) {op : Operation}
    (other : op.part? id (numbersOf id s.log) = none) : (s.perform op).slot id = s.slot id := by
  cases op with
  | install x =>
      have apart : x ≠ id := by
        rintro rfl
        simp [Operation.part?] at other
      refine slot_of_silent fits rfl (if_neg apart) (if_neg apart) (fun n member evicted => ?_) ?_
      · have held := (fits.lookup_iff x n).mp (Option.mem_toList.mp evicted)
        exact apart (fits.eq_of_holds member held)
      · exact (lookup_install s.registry x id).trans (if_neg apart.symm)
  | release x run =>
      have apart : x ≠ id := by
        rintro rfl
        simp [Operation.part?] at other
      refine slot_of_silent fits rfl (if_neg apart) rfl (fun _ _ => List.not_mem_nil) ?_
      exact (lookup_release s.registry x id run).trans (if_neg fun own => apart own.1.symm)
  | cancelAll => cases other

/-- The next operation does to the slot what its part for the id does. -/
theorem slot_perform (fits : s.Fits) (faithful : IsFaithful s.log) (id : String) (op : Operation) :
    (s.perform op).slot id =
      (op.part? id (numbersOf id s.log)).toList.foldl Slot.perform (s.slot id) := by
  cases part : op.part? id (numbersOf id s.log) with
  | none => exact slot_of_other fits id part
  | some own =>
      rcases Operation.eq_of_part? part with ⟨rfl, rfl⟩ | ⟨run, rfl, rfl⟩ | ⟨rfl, rfl⟩
      · exact slot_install fits faithful id
      · exact slot_release fits id run
      · exact slot_cancelAll fits id

/-- The slot of an id depends on the operations that concern the id alone. -/
theorem slot_eq (ops : List Operation) (id : String) :
    (session ops).slot id = (excerpt id (session ops).log).foldl Slot.perform {} := by
  induction ops using List.reverseRecOn with
  | nil => rfl
  | append_singleton ops op ih =>
      rw [session_concat, slot_perform (fits_session ops) (isFaithful_session ops), ih,
        ← List.foldl_append, Session.perform, excerpt_concat]

/-- Runs go by their ordinals among those of the id. The run of another id has none. -/
example : excerpt "a" (session [.install "a", .install "b", .release "a" 2, .install "a",
    .release "a" 3]).log =
      [.install "a", .release "a" 0, .install "a", .release "a" 2] := by decide

/-! ## An id alone -/

/-- Only an installation adds to the runs of an id. -/
theorem numbersOf_perform (s : Session) (id : String) (op : Operation) :
    numbersOf id (s.perform op).log =
      numbersOf id s.log ++ if op = .install id then [s.registry.numbered + 1] else [] := by
  rw [Session.perform, numbersOf_concat]
  cases op with
  | install x =>
      by_cases own : x = id <;> simp [own, Registry.perform, install, Exchange.runOf?]
  | release x run => rfl
  | cancelAll => rfl

/-- The second session is what the first one is for the id, as if there were no other ids: the runs
are numbered by their places. -/
structure IsAlone (s own : Session) (id : String) : Prop where
  numbered : own.registry.numbered = (numbersOf id s.log).length
  numbersOf : numbersOf id own.log = List.range' 1 (numbersOf id s.log).length
  excerpt : excerpt id own.log = excerpt id s.log

theorem excerpt_perform (s : Session) (id : String) (op : Operation) :
    excerpt id (s.perform op).log =
      excerpt id s.log ++ (op.part? id (numbersOf id s.log)).toList := excerpt_concat ..

namespace IsAlone

variable {own : Session}

theorem install (h : IsAlone s own id) :
    IsAlone (s.perform (.install id)) (own.perform (.install id)) id where
  numbered := by
    rw [numbersOf_perform, if_pos rfl, List.length_append, ← h.numbered]
    rfl
  numbersOf := by
    rw [numbersOf_perform, if_pos rfl, numbersOf_perform, if_pos rfl, h.numbersOf, h.numbered,
      List.length_append, List.length_singleton, List.range'_concat, Nat.one_mul, Nat.add_comm 1]
  excerpt := by
    rw [excerpt_perform, excerpt_perform, h.excerpt]
    rfl

theorem release (h : IsAlone s own id) (run : Nat) :
    IsAlone (s.perform (.release id run))
      (own.perform (.release id (ordinal (Registry.numbersOf id s.log) run))) id where
  numbered := by
    rw [numbersOf_perform, if_neg nofun, List.append_nil, ← h.numbered]
    exact numbered_release ..
  numbersOf := by
    rw [numbersOf_perform, if_neg nofun, numbersOf_perform, if_neg nofun, List.append_nil,
      List.append_nil, h.numbersOf]
  excerpt := by
    rw [excerpt_perform, excerpt_perform, h.excerpt, h.numbersOf]
    simp only [Operation.part?, if_pos, ordinal_range' (ordinal_le ..)]

theorem cancelAll (h : IsAlone s own id) :
    IsAlone (s.perform .cancelAll) (own.perform .cancelAll) id where
  numbered := by
    rw [numbersOf_perform, if_neg nofun, List.append_nil, ← h.numbered]
    rfl
  numbersOf := by
    rw [numbersOf_perform, if_neg nofun, numbersOf_perform, if_neg nofun, List.append_nil,
      List.append_nil, h.numbersOf]
  excerpt := by
    rw [excerpt_perform, excerpt_perform, h.excerpt]
    rfl

/-- What is done to other ids does not matter. -/
theorem other (h : IsAlone s own id) {op : Operation}
    (none : op.part? id (Registry.numbersOf id s.log) = none) : IsAlone (s.perform op) own id := by
  have foreign : op ≠ .install id := by
    rintro rfl
    simp [Operation.part?] at none
  have numbers : Registry.numbersOf id (s.perform op).log = Registry.numbersOf id s.log := by
    rw [numbersOf_perform, if_neg foreign, List.append_nil]
  have part : Registry.excerpt id (s.perform op).log = Registry.excerpt id s.log := by
    rw [excerpt_perform, none, Option.toList_none, List.append_nil]
  exact ⟨numbers ▸ h.numbered, numbers ▸ h.numbersOf, part ▸ h.excerpt⟩

theorem perform (h : IsAlone s own id) (op : Operation) :
    IsAlone (s.perform op)
      ((op.part? id (Registry.numbersOf id s.log)).toList.foldl Session.perform own) id := by
  cases part : op.part? id (Registry.numbersOf id s.log) with
  | none => exact h.other part
  | some its =>
      rcases Operation.eq_of_part? part with ⟨rfl, rfl⟩ | ⟨run, rfl, rfl⟩ | ⟨rfl, rfl⟩
      · exact h.install
      · exact h.release run
      · exact h.cancelAll

end IsAlone

/-- The operations that concern an id, carried out alone, are themselves the ones that do. -/
theorem isAlone_session (ops : List Operation) (id : String) :
    IsAlone (session ops) (session (excerpt id (session ops).log)) id := by
  induction ops using List.reverseRecOn with
  | nil => exact ⟨rfl, rfl, rfl⟩
  | append_singleton ops op ih =>
      rw [session_concat, excerpt_perform, session_append]
      exact ih.perform op

/-! ## Latest runs of separate ids -/

/-- What comes of some operations on a new registry. -/
structure KeepsLatestRuns (ops : List Operation) : Prop where
  operations : (session ops).log.map (·.operation) = ops
  /-- Every answer is right: the run that an installation replaces, whether a release succeeds, and
  which runs are cancelled hang on what is held. -/
  faithful : IsFaithful (session ops).log
  increasing : (numbers (session ops).log).Pairwise (· < ·)
  /-- A run is released at most once. -/
  once : ∀ run, (session ops).log.countP (·.frees run) ≤ 1
  active_iff : ∀ id, id ∈ (session ops).registry.ids ↔ ∃ run, Holds (session ops).log id run
  /-- An id has the slot that the operations on it and those on all ids make, one by one. -/
  slot : ∀ id, (session ops).slot id = (excerpt id (session ops).log).foldl Slot.perform {}
  /-- It has the same slot if these operations alone are carried out. -/
  alone : ∀ id, (session (excerpt id (session ops).log)).slot id = (session ops).slot id
  /-- It has the same slot after any operations that are the same for it. -/
  apart : ∀ other id, excerpt id (session other).log = excerpt id (session ops).log →
    (session other).slot id = (session ops).slot id

theorem operations_session (ops : List Operation) :
    (session ops).log.map (·.operation) = ops := by
  induction ops using List.reverseRecOn with
  | nil => rfl
  | append_singleton ops op ih =>
      rw [session_concat, Session.perform, List.map_append, ih]
      rfl

theorem keepsLatestRuns (ops : List Operation) : KeepsLatestRuns ops where
  operations := operations_session ops
  faithful := isFaithful_session ops
  increasing := by
    rw [(fits_session ops).numbers_eq]
    exact List.pairwise_lt_range'
  once := (isFaithful_session ops).countP_frees_le (fits_session ops).nodup
  active_iff _ := (fits_session ops).mem_ids_iff
  slot := slot_eq ops
  alone id := by rw [slot_eq, (isAlone_session ops id).excerpt, ← slot_eq]
  apart other id same := by rw [slot_eq, same, ← slot_eq]

end Registry

end Supervision
