/-!
# Task-instance and run states

`TaskInstanceState` and `DagRunState` of `airflow/utils/state.py` with the state sets of `State`
and of `airflow/ti_deps/dependencies_states.py`. A task instance's state is an
`Option TaskInstanceState`: `none` is the state of an instance that was created but has not run.

`shutdown` is in neither `State.finished` nor `State.unfinished` (`isFinished_or_isUnfinished`
says it is the only such state), which the run-level verdict depends on.
-/

namespace Airflow

/-- `TaskInstanceState`. -/
inductive TaskInstanceState where
  | removed
  | scheduled
  | queued
  | running
  | success
  | restarting
  | failed
  | upForRetry
  | upForReschedule
  | upstreamFailed
  | skipped
  | deferred
  | shutdown
  deriving DecidableEq, Repr

/-- `DagRunState`. -/
inductive DagRunState where
  | queued
  | running
  | success
  | failed
  deriving DecidableEq, Repr

/-- `DagRunType` of `airflow/utils/types.py`. -/
inductive DagRunType where
  | backfillJob
  | scheduled
  | manual
  | datasetTriggered
  deriving DecidableEq, Repr

/-- The state of a task instance (`None` before it first runs). -/
abbrev TIState := Option TaskInstanceState

namespace State

/-! ## The sets of `State` -/

/-- `State.finished`. -/
def isFinished : TIState → Bool
  | some .success | some .failed | some .skipped | some .upstreamFailed | some .removed => true
  | _ => false

/-- `State.unfinished`. -/
def isUnfinished : TIState → Bool
  | none | some .scheduled | some .queued | some .running | some .restarting | some .upForRetry
  | some .upForReschedule | some .deferred => true
  | _ => false

/-- `State.failed_states`. -/
def isFailed : TIState → Bool
  | some .failed | some .upstreamFailed => true
  | _ => false

/-- `State.success_states`. -/
def isSuccess : TIState → Bool
  | some .success | some .skipped => true
  | _ => false

/-- `State.finished_dr_states`. -/
def isFinishedDr : DagRunState → Bool
  | .success | .failed => true
  | _ => false

/-! ## The sets of `dependencies_states` -/

/-- `EXECUTION_STATES`. -/
def isExecution : TIState → Bool
  | some .running | some .queued => true
  | _ => false

/-- `SCHEDULEABLE_STATES`. -/
def isScheduleable : TIState → Bool
  | none | some .upForRetry | some .upForReschedule => true
  | _ => false

/-- `RUNNABLE_STATES`. -/
def isRunnable : TIState → Bool
  | none | some .upForRetry | some .upForReschedule | some .queued => true
  | _ => false

theorem isUnfinished_of_isScheduleable {s : TIState} (h : isScheduleable s = true) :
    isUnfinished s = true := by
  cases s with
  | none => rfl
  | some s => cases s <;> simp_all [isScheduleable, isUnfinished]

theorem not_isFinished_of_isUnfinished {s : TIState} (h : isUnfinished s = true) :
    isFinished s = false := by
  cases s with
  | none => rfl
  | some s => cases s <;> simp_all [isUnfinished, isFinished]

theorem not_isFinished_of_isRunnable {s : TIState} (h : isRunnable s = true) :
    isFinished s = false := by
  cases s with
  | none => rfl
  | some s => cases s <;> simp_all [isRunnable, isFinished]

theorem isFinished_or_isUnfinished (s : TIState) :
    isFinished s = true ∨ isUnfinished s = true ∨ s = some .shutdown := by
  cases s with
  | none => exact .inr (.inl rfl)
  | some s => cases s <;> simp [isFinished, isUnfinished]

/-- A finished state is a success state, a failed one or `removed`. -/
theorem isFinished_cases {s : TIState} (h : isFinished s = true) :
    isSuccess s = true ∨ isFailed s = true ∨ s = some .removed := by
  cases s with
  | none => simp [isFinished] at h
  | some s => cases s <;> simp_all [isFinished, isSuccess, isFailed]

end State

end Airflow
