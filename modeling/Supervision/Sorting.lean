/-!
# Sorting

A stable insertion sort. Elements that compare equal keep their order.

Results: `sortBy_perm` and `pairwise_sortBy` say that sorting keeps the elements and that the result
is in ascending order.
-/

namespace Supervision

/-- Puts `a` before the first element that is not below it. -/
def insertSorted {α : Type} (le : α → α → Bool) (a : α) : List α → List α
  | [] => [a]
  | b :: rest => if le a b then a :: b :: rest else b :: insertSorted le a rest

/-- The elements in ascending order, equal ones in the order in which they stood. -/
def sortBy {α : Type} (le : α → α → Bool) : List α → List α
  | [] => []
  | a :: rest => insertSorted le a (sortBy le rest)

theorem insertSorted_perm {α : Type} (le : α → α → Bool) (a : α) (l : List α) :
    (insertSorted le a l).Perm (a :: l) := by
  induction l with
  | nil => exact .refl _
  | cons b rest ih =>
      unfold insertSorted
      split
      · exact .refl _
      · exact (ih.cons b).trans (.swap a b rest)

/-- Sorting keeps the elements. -/
theorem sortBy_perm {α : Type} (le : α → α → Bool) (l : List α) : (sortBy le l).Perm l := by
  induction l with
  | nil => exact .refl _
  | cons a rest ih => exact (insertSorted_perm le a _).trans (ih.cons a)

theorem pairwise_insertSorted {α : Type} {le : α → α → Bool}
    (total : ∀ a b, le a b || le b a) (trans : ∀ a b c, le a b → le b c → le a c) (a : α)
    {l : List α} (h : l.Pairwise (le · ·)) : (insertSorted le a l).Pairwise (le · ·) := by
  induction l with
  | nil => simp [insertSorted]
  | cons b rest ih =>
      unfold insertSorted
      have hb := List.pairwise_cons.1 h
      split
      · next hab =>
          refine List.pairwise_cons.2 ⟨fun x hx => ?_, h⟩
          rcases List.mem_cons.1 hx with rfl | hx
          · exact hab
          · exact trans a b x hab (hb.1 x hx)
      · next hab =>
          refine List.pairwise_cons.2 ⟨fun x hx => ?_, ih hb.2⟩
          rcases List.mem_cons.1 ((insertSorted_perm le a rest).mem_iff.1 hx) with rfl | hx
          · simpa [hab] using total x b
          · exact hb.1 x hx

/-- Sorting by a total order gives ascending elements. -/
theorem pairwise_sortBy {α : Type} {le : α → α → Bool}
    (total : ∀ a b, le a b || le b a) (trans : ∀ a b c, le a b → le b c → le a c) (l : List α) :
    (sortBy le l).Pairwise (le · ·) := by
  induction l with
  | nil => exact .nil
  | cons a rest ih => exact pairwise_insertSorted total trans a ih

/-- Texts ordered by code points. -/
def textLe (a b : String) : Bool := decide (a ≤ b)

/-- Lists of texts ordered by their first difference. -/
def textsLe : List String → List String → Bool
  | [], _ => true
  | _ :: _, [] => false
  | a :: as, b :: bs => if a = b then textsLe as bs else textLe a b

end Supervision
