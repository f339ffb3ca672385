import Supervision.Scenario

/-!
# Scheduling keeps to the moves

A scheduler changes its supervisor only by moves that are possible. So whatever holds of every
reachable supervisor holds of every supervisor that a scenario shows.

Results:
1. `supervisor_settle`, `supervisor_advance`: a scheduler leads its supervisor on by moves.
2. `reachable_operateAll`: the supervisor after any operations of a scenario is reachable.
-/

namespace Supervision

open Supervisor

namespace Scheduler

theorem supervisor_make (m : Scheduler) (move : Move) :
    Leads m.supervisor (m.make move).supervisor := by
  unfold make
  split
  · next s h => exact (Leads.refl _).step h
  · exact .refl _

theorem supervisor_openGate (m : Scheduler) (gate : String) :
    Leads m.supervisor (m.openGate gate).supervisor := .refl _

theorem supervisor_submitTask (m : Scheduler) (task : Task) :
    Leads m.supervisor (m.submitTask task).supervisor :=
  (supervisor_make _ _).trans (supervisor_make _ _)

theorem supervisor_handTo (m : Scheduler) (number index : Nat) :
    Leads m.supervisor (m.handTo number index).supervisor :=
  (supervisor_make _ _).trans (supervisor_make _ _)

theorem supervisor_submit (m : Scheduler) (name : String) :
    Leads m.supervisor (m.submit name).supervisor := by
  unfold submit
  split
  · exact supervisor_submitTask _ _
  · exact .refl _

theorem supervisor_endWork (m : Scheduler) (number : Nat) (ending : Ending) :
    Leads m.supervisor (m.endWork number ending).supervisor :=
  (supervisor_make _ _).trans (supervisor_make _ _)

theorem supervisor_advanceCall (index steps : Nat) (m : Scheduler) :
    Leads m.supervisor (advanceCall index steps m).supervisor := by
  induction steps generalizing m with
  | zero => exact .refl _
  | succ steps ih =>
      unfold advanceCall
      split
      · exact (supervisor_make _ _).trans (ih _)
      · exact .refl _

theorem supervisor_perform (number : Nat) (steps : List Step) (m : Scheduler) :
    Leads m.supervisor (perform number steps m).supervisor := by
  induction steps generalizing m with
  | nil => exact supervisor_endWork _ _ _
  | cons step rest ih =>
      cases step <;> simp only [perform]
      case sleep | awaitCancel | awaitGate | giveWay =>
        split
        · exact ih _
        · exact .refl _
      case sleepOrCancel =>
        split
        · exact supervisor_endWork _ _ _
        · split
          · exact ih _
          · exact .refl _
      case submit => exact (supervisor_submit _ _).trans (ih _)
      case openGate => exact (supervisor_openGate _ _).trans (ih _)
      case cancelSelf | askCancelled | probe => exact (supervisor_make _ _).trans (ih _)
      case stop =>
        have called := (supervisor_make m (.stopFrom number)).trans
          (supervisor_advanceCall m.supervisor.calls.length callSteps _)
        split
        · exact called.trans (ih _)
        · exact called
      case finish => exact supervisor_endWork _ _ _

theorem supervisor_resume (m : Scheduler) (number : Nat) :
    Leads m.supervisor (m.resume number).supervisor := by
  unfold resume
  dsimp only
  split
  · split
    · exact supervisor_endWork _ _ _
    · split
      · exact supervisor_perform _ _ _
      · exact .refl _
  · split
    · exact supervisor_perform _ _ _
    · exact .refl _
  · split
    · exact (supervisor_advanceCall _ _ _).trans (supervisor_perform _ _ _)
    · exact supervisor_advanceCall _ _ _
  · split
    · exact supervisor_perform _ _ _
    · exact .refl _

theorem supervisor_enter (m : Scheduler) (number : Nat) :
    Leads m.supervisor (m.enter number).supervisor := by
  unfold enter
  dsimp only
  have begun := supervisor_make m (.progress (.begin number))
  split
  · exact begun
  · next routine _ =>
      have counted := supervisor_make
        { m.make (.progress (.begin number)) with
          invocations := (m.make (.progress (.begin number))).invocations.add routine.name }
      exact begun.trans (counted _)

theorem supervisor_act (o : Occasion) (action : Action) (m : Scheduler) :
    Leads m.supervisor (act o action m).1.supervisor := by
  induction action generalizing m <;> simp only [act]
  case restarter => exact supervisor_handTo _ _ _
  case submit => exact supervisor_submit _ _
  case openGate => exact supervisor_openGate _ _
  case panic => exact .refl _
  case first ih | onSuccess ih | onError ih | ifId ih =>
    split
    · exact ih _
    · exact .refl _
  all_goals exact supervisor_make _ _

theorem supervisor_actAll (o : Occasion) (actions : List Action) (m : Scheduler) :
    Leads m.supervisor (actAll o actions m).supervisor := by
  induction actions generalizing m with
  | nil => exact supervisor_make _ _
  | cons action rest ih =>
      unfold actAll
      have acted := supervisor_act o action m
      split
      · next h => rw [h] at acted; exact acted.trans (supervisor_make _ _)
      · next h =>
          rw [h] at acted
          split
          · exact acted.trans (ih _)
          · exact acted

theorem supervisor_callBack (m : Scheduler) (number : Nat) (scope : Scope)
    (fault : Option Fault) : Leads m.supervisor (m.callBack number scope fault).supervisor := by
  unfold callBack
  split
  · exact .refl _
  · split
    · exact .refl _
    · next callback _ =>
        have counted := fun o actions => supervisor_actAll o actions
          { m with callbackCalls := m.callbackCalls.add (scope, callback.key) }
        exact counted _ _

theorem supervisor_course (number steps : Nat) (m : Scheduler) :
    Leads m.supervisor (course number steps m).supervisor := by
  induction steps generalizing m with
  | zero => exact .refl _
  | succ steps ih =>
      unfold course
      split
      · exact (supervisor_enter _ _).trans (ih _)
      · dsimp only
        split
        · exact supervisor_resume _ _
        · exact (supervisor_resume _ _).trans (ih _)
      · exact (supervisor_make _ _).trans (ih _)
      · exact (supervisor_make _ _).trans (ih _)
      · exact (supervisor_make _ _).trans (ih _)
      · exact (supervisor_callBack _ _ _ _).trans (ih _)
      · exact supervisor_make _ _
      · exact .refl _
      · exact .refl _

theorem supervisor_turn (p : Process) (moves : Nat) (m : Scheduler) :
    Leads m.supervisor (turn p moves m).supervisor := by
  induction moves generalizing m with
  | zero => exact .refl _
  | succ moves ih =>
      unfold turn
      split
      · exact .refl _
      · exact (supervisor_make _ _).trans (ih _)

theorem supervisor_serve (m : Scheduler) (p : Process) :
    Leads m.supervisor (m.serve p).supervisor := by
  have run := fun number => supervisor_course number phases { m with current := some p }
  have other := supervisor_turn p movesPerTurn { m with current := some p }
  unfold serve
  cases p <;> dsimp only <;> split
  case run.isTrue | run.isFalse => exact run _
  all_goals exact other

theorem supervisor_settle (turns : Nat) (m : Scheduler) :
    Leads m.supervisor (settle turns m).supervisor := by
  induction turns generalizing m with
  | zero => exact .refl _
  | succ turns ih =>
      unfold settle
      split
      · split
        · exact .refl _
        · exact ih { m with ready := m.yielding, yielding := [] }
      · next p rest _ =>
          have served := supervisor_serve { m with ready := rest } p
          exact served.trans (ih _)

theorem supervisor_advance (target instants : Nat) (m : Scheduler) :
    Leads m.supervisor (advance target instants m).supervisor := by
  induction instants generalizing m with
  | zero => exact .refl _
  | succ instants ih =>
      unfold advance
      split
      · exact ((supervisor_make _ _).trans (supervisor_settle _ _)).trans (ih _)
      · split
        · exact supervisor_make _ _
        · exact .refl _

end Scheduler

namespace Scenario

open Scheduler

theorem supervisor_perform (m : Scheduler) (deed : Deed) :
    Leads m.supervisor (perform m deed).1.supervisor := by
  cases deed <;> simp only [perform]
  case submit => exact supervisor_submit _ _
  case submitBare => exact supervisor_submitTask _ _
  case openGate => exact supervisor_openGate _ _
  case advance => exact (supervisor_settle _ _).trans (supervisor_advance _ _ _)
  all_goals exact supervisor_make _ _

theorem supervisor_performAll (m : Scheduler) (deeds : List Deed) :
    Leads m.supervisor (performAll m deeds).1.supervisor := by
  induction deeds generalizing m with
  | nil => exact .refl _
  | cons deed rest ih => exact (supervisor_perform _ _).trans (ih _)

theorem supervisor_operate (st : State) (deeds : List Deed) :
    Leads st.scheduler.supervisor (operate st deeds).1.scheduler.supervisor :=
  (supervisor_performAll _ _).trans (supervisor_settle _ _)

theorem supervisor_operateAll (st : State) (operations : List (List Deed)) :
    Leads st.scheduler.supervisor (operateAll st operations).1.scheduler.supervisor := by
  induction operations generalizing st with
  | nil => exact .refl _
  | cons deeds rest ih => exact (supervisor_operate _ _).trans (ih _)

/-- Whatever a scenario does, its supervisor stays within the reachable states. -/
theorem reachable_operateAll (scenario : Scenario) (operations : List (List Deed)) :
    Reachable scenario.setup
      (operateAll (.init scenario) operations).1.scheduler.supervisor :=
  Reachable.init.leads (supervisor_operateAll (.init scenario) operations)

end Scenario

end Supervision
