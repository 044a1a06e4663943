import Airflow.Lib.RowProgram
import Airflow.TaskInstance.Retries

/-!
# `_run_raw_task` against a row that others write

The exit paths of `TaskInstance._run_raw_task`, from the end of the task's execution, as programs
over the row of the task instance: `refresh_from_db` reads the row, `session.merge(self)` with
`session.commit()` writes what is in memory. The instance is not a test run and `raise_on_defer` is
off, as the worker calls it. `locks` says whether the database honours `FOR UPDATE`.
-/

namespace Airflow.Attempts

/-- How the execution of the task ends, as the `except` clauses tell it apart. -/
inductive Ending where
  | returns
  /-- `AirflowSkipException` -/
  | skips
  /-- `TaskDeferred` -/
  | defers (method : String)
  /-- `AirflowRescheduleException` -/
  | reschedules
  /-- `AirflowFailException` or `AirflowSensorTimeout` -/
  | fails
  /-- Any other `AirflowException`. -/
  | raisesAirflowException
  /-- Any other `Exception`, or `KeyboardInterrupt`. -/
  | raises

namespace TaskInstance

variable (self : TaskInstance)

/-- `handle_failure`: the row is read again, without a lock. -/
def handleFailureProgram (task : Task) (forceFail : Bool) : RowProgram TaskInstance :=
  .refresh false fun self => .commit (self.handleFailure (some task) forceFail) .done

/-- The exit paths of `_run_raw_task`. `self` is what is in memory since the start. -/
def runRawTaskProgram (locks : Bool) (task : Task) : Ending → RowProgram TaskInstance
  | .returns => .refresh locks fun self =>
    .commit { self with state := some .success }.clearNextMethodArgs .done
  | .skips => .refresh locks fun self =>
    .commit { self with state := some .skipped }.clearNextMethodArgs .done
  | .defers method => .commit (self.deferTask method) .done
  | .reschedules => .refresh false fun self => .commit self.handleReschedule .done
  | .fails => handleFailureProgram task true
  | .raisesAirflowException => .refresh locks fun self =>
    if State.isFinished self.state then .commit self.clearNextMethodArgs .done
    else handleFailureProgram task false
  | .raises => handleFailureProgram task false

/-- A user sets the state of the instance in the database. -/
def setStateExternally (x : TaskInstanceState) : TaskInstance := { self with state := some x }

end TaskInstance

end Airflow.Attempts

/-!
## What is left of a state set from outside

Undisturbed, the exit paths give the instance that `runRawTask` gives (`finish_runRawTaskProgram`).
`externalState_kept_iff` says, for every ending and every moment, whether a state that a user sets
is there after the worker is done: apart from coincidences, only where the row is locked by then,
or where the ending is an `AirflowException` and the finished state is read under the lock.
-/

namespace Airflow.Attempts.TaskInstance

open RowProgram

/-- The ending of an outcome of `runRawTask`. -/
def Outcome.ending : Outcome → Ending
  | .returns => .returns
  | .skips => .skips
  | .defers method => .defers method
  | .reschedules => .reschedules
  | .raises true => .raisesAirflowException
  | .raises false => .raises

/-- **Without writes from outside, the exit paths are those of `runRawTask`.** -/
theorem finish_runRawTaskProgram (ti : TaskInstance) (locks : Bool) (task : Task)
    (outcome : Outcome) :
    (ti.runRawTaskProgram locks task outcome.ending).finish { row := ti } =
      ti.runRawTask task outcome := by
  cases outcome with
  | returns => rfl
  | skips => rfl
  | defers method => rfl
  | reschedules => rfl
  | raises airflowException =>
    cases airflowException with
    | false => rfl
    | true =>
      simp only [Outcome.ending, runRawTaskProgram, runRawTask, Bool.true_and]
      show (if State.isFinished ti.state then _ else _ : RowProgram _).finish _ = _
      by_cases h : State.isFinished ti.state <;>
        simp [h, handleFailureProgram, finish, Shared.release, Shared.lock]

/-- The instance as `handle_failure` reads it, after or before the write from outside. -/
def seenByHandleFailure (ti : TaskInstance) (x : TaskInstanceState) (written : Prop)
    [Decidable written] : TaskInstance :=
  if written then ti.setStateExternally x else ti

/-- Whether a state set after `moment` interactions survives: the row is locked by then, the state
is the one the worker sets itself, or it is a finished one read under the lock. -/
def KeepsState (ti : TaskInstance) (locks : Bool) (task : Task) (x : TaskInstanceState)
    (moment : Nat) : Ending → Prop
  | .returns => locks ∧ 0 < moment ∨ x = .success
  | .skips => locks ∧ 0 < moment ∨ x = .skipped
  | .defers _ | .reschedules => False
  | .fails => x = .failed
  | .raisesAirflowException => moment = 0 ∨ locks ∨
    x = .failed ∧ ¬ (ti.seenByHandleFailure x (moment = 1)).isEligibleToRetry (some task)
  | .raises => x = .failed ∧
    ¬ (ti.seenByHandleFailure x (moment = 0)).isEligibleToRetry (some task)

section
variable {ti : TaskInstance} {task : Task} {x : TaskInstanceState} {forceFail : Bool}

theorem state_handleFailure :
    (ti.handleFailure (some task) forceFail).state =
      if forceFail || !ti.isEligibleToRetry (some task) then some .failed
      else some .upForRetry := by
  have h : ti.clearNextMethodArgs.isEligibleToRetry (some task) =
      ti.isEligibleToRetry (some task) := rfl
  rw [handleFailure, h]
  split <;> rfl

/-- What `handle_failure` leaves of a state that is set while it runs. -/
theorem handleFailure_kept_iff {moment : Nat} {s : Shared TaskInstance}
    (hx : x = .success ∨ x = .failed ∨ x = .skipped)
    (hlocked : s.locked = false) (hwaiting : s.waiting = none)
    (h : (handleFailureProgram task forceFail).Lasts moment s) :
    ((handleFailureProgram task forceFail).disturbed (·.setStateExternally x) moment s).state =
        some x ↔
      x = .failed ∧ (forceFail ∨
        ¬ (s.row.seenByHandleFailure x (moment = 0)).isEligibleToRetry (some task)) := by
  have hfinal : ∃ seen, seen = s.row.seenByHandleFailure x (moment = 0) ∧
      (handleFailureProgram task forceFail).disturbed (·.setStateExternally x) moment s =
        seen.handleFailure (some task) forceFail := by
    match moment with
    | 0 =>
      refine ⟨_, rfl, ?_⟩
      rw [handleFailureProgram, disturbed, update_of_unlocked hlocked]
      show (commit _ done).finish _ = _
      rw [finish_commit_done, waiting_lock]
      simp only [hwaiting, Option.map_none, Option.getD_none]
      rfl
    | 1 =>
      have hunlocked : (s.lock false).locked = false := by simpa using hlocked
      refine ⟨_, rfl, ?_⟩
      rw [handleFailureProgram, disturbed, disturbed_commit_done hunlocked hwaiting]
      rfl
    | moment + 2 => exact absurd h not_lasts_refresh_commit
  obtain ⟨seen, hseen, hfinal⟩ := hfinal
  rw [hfinal, ← hseen, state_handleFailure]
  rcases hx with rfl | rfl | rfl <;> cases forceFail <;>
    cases seen.isEligibleToRetry (some task) <;> simp

/-- Under a lock, `handle_failure` is not disturbed. -/
theorem handleFailure_kept_of_locked {moment : Nat} {s : Shared TaskInstance}
    (hlocked : s.locked = true)
    (h : (handleFailureProgram task forceFail).Lasts moment s) :
    ((handleFailureProgram task forceFail).disturbed (·.setStateExternally x) moment s).state =
        some x := by
  match moment with
  | 0 =>
    rw [handleFailureProgram, disturbed, update_of_locked hlocked]
    rfl
  | 1 =>
    have hlocked' : (s.lock false).locked = true := by simpa using hlocked
    rw [handleFailureProgram, disturbed, disturbed_commit_done_of_locked hlocked']
    rfl
  | moment + 2 => exact absurd h not_lasts_refresh_commit

/-- A state that the worker commits after a locked read, for a state set while it does. -/
theorem refresh_commit_kept_iff {locks : Bool} {y : TaskInstanceState} {moment : Nat}
    {f : TaskInstance → TaskInstance} (hf : ∀ ti, (f ti).state = some y)
    (h : (RowProgram.refresh locks fun self => .commit (f self) .done).Lasts moment { row := ti }) :
    ((RowProgram.refresh locks fun self => .commit (f self) .done).disturbed
        (·.setStateExternally x) moment { row := ti }).state = some x ↔
      locks ∧ 0 < moment ∨ x = y := by
  match moment with
  | 0 =>
    rw [disturbed, update_of_unlocked rfl]
    show (f _).state = some x ↔ _
    rw [hf]
    simp [eq_comm]
  | 1 =>
    rw [disturbed]
    cases locks with
    | false =>
      rw [disturbed_commit_done rfl rfl, hf]
      simp [eq_comm]
    | true =>
      rw [disturbed_commit_done_of_locked rfl]
      simp [setStateExternally]
  | moment + 2 => exact absurd h not_lasts_refresh_commit

end

/-- **What a state set from outside needs to be there in the end**, for every ending and every
moment at which the worker is not done. -/
theorem externalState_kept_iff (ti : TaskInstance) (locks : Bool) (task : Task) (ending : Ending)
    (x : TaskInstanceState) (moment : Nat) (hrunning : ti.state = some .running)
    (hx : x = .success ∨ x = .failed ∨ x = .skipped)
    (hmoment : (ti.runRawTaskProgram locks task ending).Lasts moment { row := ti }) :
    ((ti.runRawTaskProgram locks task ending).disturbed (·.setStateExternally x) moment
        { row := ti }).state = some x ↔
      ti.KeepsState locks task x moment ending := by
  cases ending with
  | returns => exact refresh_commit_kept_iff (fun _ => rfl) hmoment
  | skips => exact refresh_commit_kept_iff (fun _ => rfl) hmoment
  | defers method =>
    cases moment with
    | zero =>
      rw [runRawTaskProgram, disturbed_commit_done rfl rfl]
      rcases hx with rfl | rfl | rfl <;> simp [KeepsState, deferTask]
    | succ moment => exact absurd hmoment not_lasts_commit_done
  | reschedules =>
    have h := refresh_commit_kept_iff (x := x) (f := handleReschedule) (fun _ => rfl) hmoment
    refine h.trans ?_
    rcases hx with rfl | rfl | rfl <;> simp [KeepsState]
  | fails =>
    refine (handleFailure_kept_iff hx rfl rfl hmoment).trans ?_
    simp [KeepsState]
  | raises =>
    refine (handleFailure_kept_iff hx rfl rfl hmoment).trans ?_
    simp [KeepsState]
  | raisesAirflowException =>
    cases moment with
    | zero =>
      have hfinished : State.isFinished (some x) = true := by
        rcases hx with rfl | rfl | rfl <;> rfl
      rw [runRawTaskProgram, disturbed, update_of_unlocked rfl, finish]
      simp [KeepsState, clearNextMethodArgs, setStateExternally, hfinished]
    | succ moment =>
      have hprogram : (if State.isFinished ti.state then
          .commit ti.clearNextMethodArgs .done else handleFailureProgram task false) =
          handleFailureProgram task false := by
        rw [hrunning]
        rfl
      simp only [runRawTaskProgram, disturbed, Lasts, hprogram] at hmoment ⊢
      cases locks with
      | true =>
        have hkept := handleFailure_kept_of_locked (x := x) rfl hmoment
        simp [hkept, KeepsState]
      | false =>
        refine (handleFailure_kept_iff hx rfl rfl hmoment).trans ?_
        simp [KeepsState]

/-- An instance in its first try. -/
def firstTry : TaskInstance := { state := some .running, _tryNumber := 1, maxTries := 0 }

/-- A task that returns is a success although a user marked it failed while it ran. -/
theorem markedFailed_overwritten :
    firstTry.state = some .running ∧
      (firstTry.runRawTaskProgram true ⟨0⟩ .returns).Lasts 0 { row := firstTry } ∧
      ((firstTry.runRawTaskProgram true ⟨0⟩ .returns).disturbed
        (·.setStateExternally .failed) 0 { row := firstTry }).state ≠ some .failed :=
  ⟨rfl, trivial, by simp [runRawTaskProgram, disturbed, finish, Shared.update, Shared.release,
    Shared.lock, clearNextMethodArgs]⟩

/-- A task that raises an `AirflowException` leaves the success that a user marked. -/
theorem markedSuccess_kept :
    ((firstTry.runRawTaskProgram true ⟨0⟩ .raisesAirflowException).disturbed
      (·.setStateExternally .success) 0 { row := firstTry }).state = some .success :=
  (externalState_kept_iff firstTry true ⟨0⟩ .raisesAirflowException .success 0 rfl (.inl rfl)
    trivial).mpr (.inl rfl)

end Airflow.Attempts.TaskInstance
