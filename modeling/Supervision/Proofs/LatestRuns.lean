import Mathlib.Data.List.Induction
import Mathlib.Data.List.Nodup
import Supervision.Proofs.ActiveRuns

/-!
# The latest run of each id

A registry on its own, whatever operations it is given: any id, any run number, also one that was
never given out or that belongs to another id. The log of what it was asked and answered tells which
run of an id is held: the one that was installed last, until a release of it succeeds. The number of
a run stands for one installation, as long as there are fewer than `2 ^ 64` of them.

Results:
1. `Session.Fits.perform`: the registry looks up exactly the runs that the log holds.
2. `isFaithful_session`: every answer is the one that the log before it calls for.
3. `IsFaithful.countP_frees_le`: a run is released at most once.
-/

namespace Supervision

namespace Registry

/-! ## Operations and answers -/

/-- An operation on a registry. -/
inductive Operation
  | install (id : String)
  | release (id : String) (run : Nat)
  | cancelAll
deriving DecidableEq, Repr

/-- What comes of an operation: the number of the new run and the one that it evicts, whether the
release succeeded, or the runs that are cancelled. -/
inductive Answer
  | installed (run : Nat) (evicted : Option Nat)
  | released (success : Bool)
  | cancelled (runs : List Nat)
deriving DecidableEq, Repr

/-- Carries out an operation. The token of every run that is evicted or cancelled is cancelled. -/
def perform (r : Registry) : Operation → Registry × Answer
  | .install id =>
      let installed := r.install id
      (installed.registry, .installed installed.run installed.evicted)
  | .release id run =>
      let (r, success) := r.release id run
      (r, .released success)
  | .cancelAll => (r, .cancelled r.runs)

/-- An operation with its answer. -/
structure Exchange where
  operation : Operation
  answer : Answer
deriving DecidableEq, Repr

/-- A registry with all that it was asked and answered. -/
structure Session where
  registry : Registry := {}
  log : List Exchange := []

def Session.perform (s : Session) (op : Operation) : Session :=
  { registry := (s.registry.perform op).1, log := s.log ++ [⟨op, (s.registry.perform op).2⟩] }

/-- Some operations in turn on a new registry. -/
def session (ops : List Operation) : Session := ops.foldl Session.perform {}

theorem session_concat (ops : List Operation) (op : Operation) :
    session (ops ++ [op]) = (session ops).perform op := List.foldl_concat ..

theorem session_append (ops more : List Operation) :
    session (ops ++ more) = more.foldl Session.perform (session ops) := List.foldl_append ..

theorem release_snd (r : Registry) (id : String) (run : Nat) :
    (r.release id run).2 = decide (r.lookup id = some run) := by
  unfold release
  split <;> simp_all

/-! ## What the log tells -/

namespace Exchange

/-- The number of a new run. -/
def run? : Exchange → Option Nat
  | ⟨.install _, .installed run _⟩ => some run
  | _ => none

/-- The number of a new run of an id. -/
def runOf? (id : String) : Exchange → Option Nat
  | ⟨.install x, .installed run _⟩ => if x = id then some run else none
  | _ => none

/-- The runs whose tokens are cancelled. -/
def cancels (e : Exchange) : List Nat :=
  match e.answer with
  | .installed _ evicted => evicted.toList
  | .released _ => []
  | .cancelled runs => runs

/-- Was the run released? -/
def frees (run : Nat) : Exchange → Bool
  | ⟨.release _ n, .released success⟩ => n == run && success
  | _ => false

/-- The answer to an operation on an id: has an active run been replaced, or has it been released? -/
def reply? (id : String) : Exchange → Option Bool
  | ⟨.install x, .installed _ evicted⟩ => if x = id then some evicted.isSome else none
  | ⟨.release x _, .released success⟩ => if x = id then some success else none
  | _ => none

end Exchange

/-- The numbers of all runs, in the order of their installation. -/
def numbers (log : List Exchange) : List Nat := log.filterMap (·.run?)

/-- The numbers of the runs of an id. -/
def numbersOf (id : String) (log : List Exchange) : List Nat := log.filterMap (·.runOf? id)

/-- Has the token that came with a run been cancelled? -/
def isCancelled (log : List Exchange) (run : Nat) : Bool := log.any (run ∈ ·.cancels)

/-- The run is the last one that was installed for the id, and it has not been released since. -/
def Holds (log : List Exchange) (id : String) (run : Nat) : Prop :=
  ∃ before evicted after, log = before ++ ⟨.install id, .installed run evicted⟩ :: after ∧
    ∀ e ∈ after, e.operation ≠ .install id ∧ e ≠ ⟨.release id run, .released true⟩

/-- The answer is the one that the exchanges before it call for. -/
def IsRight (before : List Exchange) : Exchange → Prop
  | ⟨.install id, .installed run evicted⟩ =>
      run = (numbers before).length + 1 ∧ ∀ n, evicted = some n ↔ Holds before id n
  | ⟨.release id run, .released success⟩ => success = true ↔ Holds before id run
  | ⟨.cancelAll, .cancelled runs⟩ => ∀ n, n ∈ runs ↔ ∃ id, Holds before id n
  | _ => False

variable {log : List Exchange} {e : Exchange} {id x y : String} {run n : Nat}

theorem numbers_concat (log : List Exchange) (e : Exchange) :
    numbers (log ++ [e]) = numbers log ++ e.run?.toList := by
  rw [numbers, List.filterMap_append, ← numbers]
  cases h : e.run? <;> simp [h]

theorem numbersOf_concat (id : String) (log : List Exchange) (e : Exchange) :
    numbersOf id (log ++ [e]) = numbersOf id log ++ (e.runOf? id).toList := by
  rw [numbersOf, List.filterMap_append, ← numbersOf]
  cases h : e.runOf? id <;> simp [h]

theorem run?_of_runOf? (h : e.runOf? id = some run) : e.run? = some run := by
  obtain ⟨op, answer⟩ := e
  cases op <;> cases answer <;> simp_all [Exchange.runOf?, Exchange.run?]

theorem numbersOf_sublist (id : String) (log : List Exchange) :
    (numbersOf id log).Sublist (numbers log) := by
  induction log using List.reverseRecOn with
  | nil => exact .slnil
  | append_singleton log e ih =>
      rw [numbersOf_concat, numbers_concat]
      refine ih.append ?_
      cases own : e.runOf? id with
      | none => exact List.nil_sublist _
      | some run => rw [run?_of_runOf? own]

/-- Where no number is given twice, a run belongs to one id. -/
theorem eq_of_mem_numbersOf (distinct : (numbers log).Nodup) (left : run ∈ numbersOf x log)
    (right : run ∈ numbersOf y log) : x = y := by
  induction log using List.reverseRecOn with
  | nil => simp [numbersOf] at left
  | append_singleton log e ih =>
      rw [numbers_concat] at distinct
      rw [numbersOf_concat, List.mem_append, Option.mem_toList] at left right
      have apart : ∀ {z}, e.runOf? z = some run → run ∉ numbers log := fun own member =>
        (List.nodup_append.mp distinct).2.2 run member run (by simp [run?_of_runOf? own]) rfl
      rcases left with left | left <;> rcases right with right | right
      · exact ih distinct.of_append_left left right
      · exact absurd ((numbersOf_sublist x log).subset left) (apart right)
      · exact absurd ((numbersOf_sublist y log).subset right) (apart left)
      · obtain ⟨op, answer⟩ := e
        cases op <;> cases answer <;> simp_all [Exchange.runOf?]

/-- A log with one more exchange is split there or before. -/
theorem split_concat_cases {before after : List Exchange} {f : Exchange}
    (split : log ++ [e] = before ++ f :: after) :
    log = before ∧ e = f ∨ ∃ rest, after = rest ++ [e] ∧ log = before ++ f :: rest := by
  rcases List.eq_nil_or_concat after with rfl | ⟨rest, last, rfl⟩
  · obtain ⟨same, last⟩ := List.append_inj' split rfl
    exact .inl ⟨same, List.singleton_inj.mp last⟩
  · rw [List.concat_eq_append, ← List.cons_append, ← List.append_assoc] at split
    obtain ⟨same, last⟩ := List.append_inj' split rfl
    exact .inr ⟨rest, by rw [List.concat_eq_append, last], same⟩

/-- One more exchange installs the run, or it leaves the run where it was. -/
theorem holds_concat_iff : Holds (log ++ [e]) id run ↔
    (∃ evicted, e = ⟨.install id, .installed run evicted⟩) ∨
      Holds log id run ∧ e.operation ≠ .install id ∧ e ≠ ⟨.release id run, .released true⟩ := by
  constructor
  · rintro ⟨before, evicted, after, split, clean⟩
    rcases split_concat_cases split with ⟨-, same⟩ | ⟨rest, rfl, rfl⟩
    · exact .inl ⟨evicted, same⟩
    · exact .inr ⟨⟨before, evicted, rest, rfl, fun f member => clean f (List.mem_append_left _ member)⟩,
        clean e (List.mem_append_right _ (List.mem_singleton_self e))⟩
  · rintro (⟨evicted, rfl⟩ | ⟨⟨before, evicted, after, rfl, clean⟩, last⟩)
    · exact ⟨log, evicted, [], rfl, nofun⟩
    · refine ⟨before, evicted, after ++ [e], by simp, fun f member => ?_⟩
      rcases List.mem_append.mp member with old | new
      · exact clean f old
      · exact List.mem_singleton.mp new ▸ last

/-- A run that is held is the last one of its id. -/
theorem Holds.numbersOf_eq (h : Holds log id run) : ∃ front, numbersOf id log = front ++ [run] := by
  obtain ⟨before, evicted, after, rfl, clean⟩ := h
  have none : after.filterMap (·.runOf? id) = [] := by
    refine List.filterMap_eq_nil_iff.mpr fun f member => ?_
    have other := (clean f member).1
    obtain ⟨op, answer⟩ := f
    cases op <;> cases answer <;> simp_all [Exchange.runOf?]
  refine ⟨numbersOf id before, ?_⟩
  rw [numbersOf, List.filterMap_append, List.filterMap_cons_some (b := run) (by simp [Exchange.runOf?]),
    none, ← numbersOf]

theorem Holds.mem_numbersOf (h : Holds log id run) : run ∈ numbersOf id log := by
  obtain ⟨front, same⟩ := h.numbersOf_eq
  simp [same]

/-! ## The registry fits its log -/

namespace Session

variable {s : Session}

/-- How a registry fits what it was asked and answered. -/
structure Fits (s : Session) : Prop where
  numbers_eq : numbers s.log = List.range' 1 s.registry.numbered
  distinct : (s.registry.entries.map (·.id)).Nodup
  lookup_iff : ∀ id run, s.registry.lookup id = some run ↔ Holds s.log id run

namespace Fits

theorem nodup (h : s.Fits) : (numbers s.log).Nodup := h.numbers_eq ▸ List.nodup_range'

theorem le_numbered (h : s.Fits) (member : run ∈ numbers s.log) : run ≤ s.registry.numbered := by
  rw [h.numbers_eq, List.mem_range'_1] at member
  omega

/-- An entry is of a run that the registry holds. -/
theorem mem_runs_iff (h : s.Fits) : run ∈ s.registry.runs ↔ ∃ id, Holds s.log id run := by
  rw [runs, List.mem_map]
  constructor
  · rintro ⟨⟨id, n⟩, member, rfl⟩
    exact ⟨id, (h.lookup_iff id n).mp ((lookup_eq_some_iff h.distinct id n).mpr member)⟩
  · rintro ⟨id, held⟩
    exact ⟨_, (lookup_eq_some_iff h.distinct id run).mp ((h.lookup_iff id run).mpr held), rfl⟩

theorem mem_ids_iff (h : s.Fits) : id ∈ s.registry.ids ↔ ∃ run, Holds s.log id run := by
  rw [ids, (sortBy_perm textLe _).mem_iff, List.mem_map]
  constructor
  · rintro ⟨⟨x, n⟩, member, rfl⟩
    exact ⟨n, (h.lookup_iff x n).mp ((lookup_eq_some_iff h.distinct x n).mpr member)⟩
  · rintro ⟨run, held⟩
    exact ⟨_, (lookup_eq_some_iff h.distinct id run).mp ((h.lookup_iff id run).mpr held), rfl⟩

/-- The answer to an operation is right. -/
theorem isRight (h : s.Fits) (op : Operation) : IsRight s.log ⟨op, (s.registry.perform op).2⟩ := by
  cases op with
  | install id =>
      refine ⟨?_, h.lookup_iff id⟩
      rw [h.numbers_eq, List.length_range']
      rfl
  | release id run =>
      change (s.registry.release id run).2 = true ↔ _
      rw [release_snd, decide_eq_true_iff]
      exact h.lookup_iff id run
  | cancelAll => exact fun n => h.mem_runs_iff

theorem perform (h : s.Fits) (op : Operation) : (s.perform op).Fits := by
  have right := h.isRight op
  cases op with
  | install x =>
      refine ⟨?_, distinct_install h.distinct x, fun id run => ?_⟩
      · change numbers (s.log ++ [_]) = List.range' 1 (s.registry.numbered + 1)
        rw [numbers_concat, h.numbers_eq, List.range'_concat]
        simp [Exchange.run?, Registry.perform, install, Nat.add_comm]
      · change (s.registry.install x).registry.lookup id = _ ↔ Holds (s.log ++ [_]) id run
        rw [lookup_install, holds_concat_iff, ← h.lookup_iff]
        by_cases own : id = x
        · simp [own, Registry.perform, install, eq_comm]
        · have other : x ≠ id := Ne.symm own
          simp [own, other, Registry.perform]
  | release x n =>
      refine ⟨?_, distinct_release h.distinct x n, fun id run => ?_⟩
      · change numbers (s.log ++ [_]) = List.range' 1 (s.registry.release x n).1.numbered
        rw [numbers_concat, h.numbers_eq, numbered_release]
        simp [Exchange.run?]
      · change (s.registry.release x n).1.lookup id = _ ↔ Holds (s.log ++ [_]) id run
        have answer : (s.registry.perform (.release x n)).2 =
            .released (decide (s.registry.lookup x = some n)) :=
          congrArg Answer.released (release_snd ..)
        rw [lookup_release, holds_concat_iff, ← h.lookup_iff, answer]
        by_cases freed : id = x ∧ s.registry.lookup x = some n
        · obtain ⟨rfl, found⟩ := freed
          rw [if_pos ⟨rfl, found⟩, found]
          simp
        · rw [if_neg freed]
          have other : s.registry.lookup id = some run → x = id → n = run →
              s.registry.lookup x ≠ some n := by
            rintro found rfl rfl
            exact fun _ => freed ⟨rfl, found⟩
          simpa using other
  | cancelAll =>
      refine ⟨?_, h.distinct, fun id run => ?_⟩
      · change numbers (s.log ++ [_]) = List.range' 1 s.registry.numbered
        rw [numbers_concat, h.numbers_eq]
        simp [Exchange.run?]
      · change s.registry.lookup id = _ ↔ Holds (s.log ++ [_]) id run
        rw [holds_concat_iff, ← h.lookup_iff]
        simp

end Fits

end Session

/-- What holds of a new registry and is kept by every operation holds after any of them. -/
theorem session_invariant {P : Session → Prop} (first : P {})
    (kept : ∀ s op, P s → P (s.perform op)) (ops : List Operation) : P (session ops) := by
  induction ops using List.reverseRecOn with
  | nil => exact first
  | append_singleton ops op ih => exact session_concat ops op ▸ kept _ op ih

theorem fits_session (ops : List Operation) : (session ops).Fits :=
  session_invariant ⟨rfl, List.nodup_nil, fun id run => by simp [lookup, Holds]⟩
    (fun _ op fits => fits.perform op) ops

/-- Every answer is the one that the exchanges before it call for. -/
def IsFaithful (log : List Exchange) : Prop :=
  ∀ before e after, log = before ++ e :: after → IsRight before e

theorem IsFaithful.concat (h : IsFaithful log) (right : IsRight log e) :
    IsFaithful (log ++ [e]) := by
  intro before f after split
  rcases split_concat_cases split with ⟨rfl, rfl⟩ | ⟨rest, -, rfl⟩
  · exact right
  · exact h before f rest rfl

theorem isFaithful_session (ops : List Operation) : IsFaithful (session ops).log := by
  induction ops using List.reverseRecOn with
  | nil => intro before e after split; cases before <;> cases split
  | append_singleton ops op ih =>
      rw [session_concat]
      exact ih.concat ((fits_session ops).isRight op)

theorem IsRight.exists_holds (h : IsRight log e) (member : run ∈ e.cancels) :
    ∃ id, Holds log id run := by
  obtain ⟨op, answer⟩ := e
  cases op with
  | install id => cases answer with
    | installed n evicted => exact ⟨id, (h.2 run).mp (Option.mem_toList.mp member)⟩
    | released success => exact h.elim
    | cancelled all => exact h.elim
  | release id n => cases answer with
    | released success => simp [Exchange.cancels] at member
    | installed m evicted => exact h.elim
    | cancelled all => exact h.elim
  | cancelAll => cases answer with
    | cancelled all => exact (h run).mp member
    | installed n evicted => exact h.elim
    | released success => exact h.elim

theorem IsRight.of_frees (h : IsRight log e) (freed : e.frees run = true) :
    ∃ id, e = ⟨.release id run, .released true⟩ ∧ Holds log id run := by
  obtain ⟨op, answer⟩ := e
  cases op <;> cases answer <;> try cases freed
  case release.released id n success =>
    obtain ⟨same, rfl⟩ := Bool.and_eq_true_iff.mp freed
    obtain rfl := beq_iff_eq.mp same
    exact ⟨id, rfl, h.mp rfl⟩

namespace IsFaithful

theorem left {before after : List Exchange} (h : IsFaithful (before ++ after)) :
    IsFaithful before := by
  rintro front e back rfl
  exact h front e (back ++ after) (by simp)

/-- Only runs that have been installed are cancelled. -/
theorem mem_numbers (h : IsFaithful log) (cancelled : isCancelled log run = true) :
    run ∈ numbers log := by
  obtain ⟨e, member, own⟩ := List.any_eq_true.mp cancelled
  obtain ⟨before, after, rfl⟩ := List.append_of_mem member
  obtain ⟨id, held⟩ := (h before e after rfl).exists_holds (of_decide_eq_true own)
  rw [numbers, List.filterMap_append]
  exact List.mem_append_left _ ((numbersOf_sublist id before).subset held.mem_numbersOf)

/-- A run that has been released had been installed for the id before. -/
theorem mem_numbersOf_of_frees (h : IsFaithful log) (member : e ∈ log)
    (freed : e.frees run = true) :
    ∃ id, e = ⟨.release id run, .released true⟩ ∧ run ∈ numbersOf id log := by
  obtain ⟨before, after, rfl⟩ := List.append_of_mem member
  obtain ⟨id, same, held⟩ := (h before e after rfl).of_frees freed
  refine ⟨id, same, ?_⟩
  rw [numbersOf, List.filterMap_append]
  exact List.mem_append_left _ held.mem_numbersOf

/-- A run that is held has not been released. -/
theorem not_frees (h : IsFaithful log) (distinct : (numbers log).Nodup) (held : Holds log id run)
    (member : e ∈ log) : e.frees run = false := by
  by_contra freed
  rw [Bool.not_eq_false] at freed
  obtain ⟨x, same, own⟩ := h.mem_numbersOf_of_frees member freed
  obtain rfl : x = id := eq_of_mem_numbersOf distinct own held.mem_numbersOf
  obtain ⟨before, evicted, after, rfl, clean⟩ := held
  rcases List.mem_append.mp member with early | late
  · -- the number would have been given twice
    obtain ⟨y, -, known⟩ := h.left.mem_numbersOf_of_frees early freed
    rw [numbers, List.filterMap_append] at distinct
    exact (List.nodup_append.mp distinct).2.2 run ((numbersOf_sublist y before).subset known) run
      (by simp [Exchange.run?]) rfl
  · rcases List.mem_cons.mp late with rfl | late
    · cases freed
    · exact (clean e late).2 same

/-- A run is released at most once. -/
theorem countP_frees_le (h : IsFaithful log) (distinct : (numbers log).Nodup) (run : Nat) :
    log.countP (·.frees run) ≤ 1 := by
  induction log using List.reverseRecOn with
  | nil => exact Nat.zero_le _
  | append_singleton log e ih =>
      have before : (numbers log).Nodup := by
        rw [numbers_concat] at distinct
        exact distinct.of_append_left
      rw [List.countP_append, List.countP_singleton]
      cases freed : e.frees run with
      | false => exact ih h.left before
      | true =>
          obtain ⟨id, -, held⟩ := (h log e [] rfl).of_frees freed
          have none : log.countP (·.frees run) = 0 := List.countP_eq_zero.mpr fun f member =>
            Bool.not_eq_true _ ▸ h.left.not_frees before held member
          rw [none]
          exact Nat.le_refl 1

end IsFaithful

end Registry

end Supervision
