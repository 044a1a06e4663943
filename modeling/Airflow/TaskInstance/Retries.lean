import Airflow.State

/-!
# The attempts of a task instance

What happens to one task instance between its creation and its end: scheduling and queueing by the
scheduler, `check_and_change_state_before_execution`, `_run_raw_task` with `_defer_task`,
`_handle_reschedule` and `handle_failure` of `airflow/models/taskinstance.py`, the trigger's
`submit_event` and `submit_failure`, and `clear_task_instances`.

Of the columns these are the state, the try number, the maximum of tries and the method to resume
with; dates, logs, callbacks and the rows of `task_reschedule` decide nothing here. Exceptions that
force a failure and the flags that ignore dependencies are left out.
-/

namespace Airflow.Attempts

/-- The task, of which the retries are read. -/
structure Task where
  retries : Nat

/-- A task instance. `_tryNumber` is the column, which `try_number` reads depending on the state. -/
structure TaskInstance where
  state : TIState := none
  _tryNumber : Int := 0
  maxTries : Int
  nextMethod : Option String := none

/-- `TaskInstance.insert_mapping`. -/
def insertMapping (task : Task) : TaskInstance := { maxTries := task.retries }

namespace TaskInstance

variable (ti : TaskInstance)

/-- `try_number`. -/
def tryNumber : Int := if ti.state = some .running then ti._tryNumber else ti._tryNumber + 1

def clearNextMethodArgs : TaskInstance := { ti with nextMethod := none }

/-! ## Running -/

/-- `check_and_change_state_before_execution`: whether the instance runs now. Besides the state
there are dependencies without which nothing happens and others without which the instance is
scheduled again. -/
def checkAndChangeStateBeforeExecution (nonRequeueable requeueable : Bool) : TaskInstance × Bool :=
  if !(State.isRunnable ti.state && nonRequeueable) then (ti, false)
  else if !requeueable then ({ ti with state := none }, false)
  else ({ ti with _tryNumber := ti._tryNumber + 1, state := some .running }, true)

/-- `is_eligible_to_retry`; there is no task when the DAG cannot be loaded. -/
def isEligibleToRetry (task : Option Task) : Bool :=
  if ti.state = some .restarting then true
  else
    match task with
    | none => ti.tryNumber ≤ ti.maxTries
    | some task => task.retries ≠ 0 && ti.tryNumber ≤ ti.maxTries

/-- `handle_failure`. -/
def handleFailure (task : Option Task) (forceFail : Bool) : TaskInstance :=
  let ti := ti.clearNextMethodArgs
  if forceFail || !ti.isEligibleToRetry task then { ti with state := some .failed }
  else
    { ti with
      _tryNumber := if ti.state = some .queued then ti._tryNumber + 1 else ti._tryNumber
      state := some .upForRetry }

/-- `_defer_task`. -/
def deferTask (method : String) : TaskInstance :=
  { ti with state := some .deferred, nextMethod := method, _tryNumber := ti._tryNumber - 1 }

/-- `_handle_reschedule`. -/
def handleReschedule : TaskInstance :=
  { ti with state := some .upForReschedule, _tryNumber := ti._tryNumber - 1 }.clearNextMethodArgs

/-- How the execution of the task ends. -/
inductive Outcome where
  | returns
  | skips
  | defers (method : String)
  | reschedules
  | raises (airflowException : Bool)

/-- `_run_raw_task`. -/
def runRawTask (task : Task) : Outcome → TaskInstance
  | .returns => { ti with state := some .success }.clearNextMethodArgs
  | .skips => { ti with state := some .skipped }.clearNextMethodArgs
  | .defers method => ti.deferTask method
  | .reschedules => ti.handleReschedule
  | .raises airflowException =>
    -- the instance was marked as finished while it ran
    if airflowException && State.isFinished ti.state then ti.clearNextMethodArgs
    else ti.handleFailure task false

/-! ## The trigger -/

/-- `Trigger.submit_event`. -/
def submitEvent : TaskInstance := { ti with state := some .scheduled }

/-- `Trigger.submit_failure`. -/
def submitFailure : TaskInstance :=
  { ti with state := some .scheduled, nextMethod := "__fail__" }

/-! ## Clearing -/

/-- `clear_task_instances`, of one instance; there is no task when it is not in the DAG. -/
def clearTaskInstance (task : Option Task) (hasJob : Bool) : TaskInstance :=
  if ti.state = some .running then
    if hasJob then { ti with state := some .restarting } else ti
  else
    { ti with
      maxTries :=
        match task with
        | some task => ti.tryNumber + task.retries - 1
        | none => max ti.maxTries ti._tryNumber
      state := none }.clearNextMethodArgs

end TaskInstance

/-! ## Runs -/

/-- What happens to an instance. `kill` is what the scheduler does about an instance that was
killed while queued or running. -/
inductive Event where
  | schedule
  | queue
  | dequeue (state : TIState)
  | start (nonRequeueable requeueable : Bool)
  | finish (outcome : TaskInstance.Outcome)
  | kill (taskLoaded : Bool)
  | submitEvent
  | submitFailure
  | clear

namespace Event

/-- The states in which the event can happen; a dequeued instance is scheduled or has no state. -/
def happens : Event → TIState → Bool
  | schedule, s => State.isScheduleable s
  | queue, s => s = some .scheduled
  | dequeue back, s => s = some .queued && (back = none || back = some .scheduled)
  | start _ _, _ => true
  | finish _, s => s = some .running
  | kill _, s => s = some .queued || s = some .running
  | submitEvent, s | submitFailure, s => s = some .deferred
  | clear, s => State.isFinished s

/-- The instance after the event. -/
def apply (task : Task) (ti : TaskInstance) : Event → TaskInstance
  | schedule => { ti with state := some .scheduled }
  | queue => { ti with state := some .queued }
  | dequeue back => { ti with state := back }
  | start nonRequeueable requeueable =>
    (ti.checkAndChangeStateBeforeExecution nonRequeueable requeueable).1
  | finish outcome => ti.runRawTask task outcome
  | kill taskLoaded => ti.handleFailure (if taskLoaded then some task else none) false
  | submitEvent => ti.submitEvent
  | submitFailure => ti.submitFailure
  | clear => ti.clearTaskInstance task false

/-- An attempt fails. -/
def fails : Event → Bool
  | finish (.raises _) | kill _ => true
  | _ => false

end Event

/-- An instance with the attempts that failed since it was created or cleared. -/
structure Run where
  ti : TaskInstance
  failures : Nat := 0

/-- The instance is created. -/
def Run.init (task : Task) : Run := { ti := insertMapping task }

/-- An event that happens in the instance's state, and nothing otherwise. -/
def step (task : Task) (run : Run) (event : Event) : Run :=
  if event.happens run.ti.state then
    { ti := event.apply task run.ti
      failures :=
        match event with
        | .clear => 0
        | event => if event.fails then run.failures + 1 else run.failures }
  else run

end Airflow.Attempts
