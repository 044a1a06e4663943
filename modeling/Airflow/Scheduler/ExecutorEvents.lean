import Airflow.Lib.Dict
import Airflow.TaskInstance.Key
import Airflow.TaskInstance.Retries

/-!
# Executor events

`SchedulerJobRunner._process_executor_events` with the event buffer of `BaseExecutor`. The events
are keyed by the try; a row of the database is looked up by its primary key.

What the scheduler does about a row is recorded in `log` with the key of the event it acts on.
Callbacks, log messages and metrics are not modelled beyond that, and every row has its DAG model.
-/

namespace Airflow.ExecutorEvents

/-- `EventBufferValueType`. -/
structure Event where
  state : TaskInstanceState
  info : Option String
  deriving DecidableEq

/-! ## `BaseExecutor` -/

structure Executor where
  queuedTasks : List TaskInstanceKey := []
  running : List TaskInstanceKey := []
  eventBuffer : Dict TaskInstanceKey Event := {}

namespace Executor

variable (self : Executor)

def hasTask (key : TaskInstanceKey) : Bool := key ∈ self.queuedTasks || key ∈ self.running

def changeState (key : TaskInstanceKey) (state : TaskInstanceState) (info : Option String) :
    Executor :=
  { self with
    running := self.running.filter (· ≠ key)
    eventBuffer := self.eventBuffer.set key ⟨state, info⟩ }

/-- `get_event_buffer()`: the buffer, and the executor with an empty one. -/
def getEventBuffer : Dict TaskInstanceKey Event × Executor :=
  (self.eventBuffer, { self with eventBuffer := {} })

end Executor

/-! ## The scheduler -/

/-- A row of the database: the columns of an attempt and those that the scheduler compares. -/
structure TaskInstance extends Attempts.TaskInstance where
  queuedByJobId : Option Int := none
  externalExecutorId : Option String := none

/-- A task of a serialized DAG with whether it has callbacks. -/
structure Task extends Attempts.Task where
  onRetryCallback : Bool := false
  onFailureCallback : Bool := false

abbrev Database := Dict PrimaryKey TaskInstance

/-- What the scheduler reads besides events and rows: its job, its executor, the DAGs
(`get_dag` and `get_task`, `none` when one of them raises) and the rows another one has locked. -/
structure Scheduler where
  jobId : Int
  executor : Executor
  getTask : String → String → Option Task
  locked : PrimaryKey → Bool := fun _ => false

/-- What is done about a row. -/
inductive Action where
  | setExternalExecutorId
  /-- `ti.set_state(state)`, when the task cannot be loaded. -/
  | setState (state : TaskInstanceState)
  /-- A `TaskCallbackRequest`, with which the DAG processor handles the failure. -/
  | sendCallback
  | handleFailure
  deriving DecidableEq

/-- What the loop over the rows has left of the buffer, written and done. -/
structure Processing where
  eventBuffer : Dict TaskInstanceKey Event
  db : Database
  log : List (TaskInstanceKey × Action) := []

namespace Scheduler

variable (self : Scheduler)

/-- `ti_primary_key_to_try_number_map`. -/
def primaryKeyToTryNumberMap (eventBuffer : Dict TaskInstanceKey Event) : Dict PrimaryKey Int :=
  eventBuffer.entries.foldl (fun map e => map.set e.1.primary e.1.tryNumber) {}

/-- `tis_with_right_state`. -/
def tisWithRightState (eventBuffer : Dict TaskInstanceKey Event) : List TaskInstanceKey :=
  (eventBuffer.entries.filter fun e =>
    e.2.state = .failed || e.2.state = .success || e.2.state = .queued).map Prod.fst

/-- `ti_requeued`. -/
def tiRequeued (key : PrimaryKey) (ti : TaskInstance) : Bool :=
  ti.queuedByJobId ≠ some self.jobId || self.executor.hasTask (key.tryKey ti.tryNumber)

/-- The body of the loop, for the event under `bufferKey`. -/
def respond (key : PrimaryKey) (ti : TaskInstance) (bufferKey : TaskInstanceKey) (event : Event) :
    TaskInstance × Option Action :=
  if event.state = .queued then
    ({ ti with externalExecutorId := event.info }, some .setExternalExecutorId)
  else if (ti.tryNumber = bufferKey.tryNumber ∧ ti.state = some .queued) ∧
      ¬ self.tiRequeued key ti then
    match self.getTask key.dagId key.taskId with
    | none => ({ ti with state := some event.state }, some (.setState event.state))
    | some task =>
      if task.onRetryCallback || task.onFailureCallback then (ti, some .sendCallback)
      else
        ({ ti with
            toTaskInstance := ti.toTaskInstance.handleFailure (some task.toTask) false },
          some .handleFailure)
  else (ti, none)

/-- One row of the query; the error is the `KeyError` of a key that is not there. -/
def processTi (tryNumbers : Dict PrimaryKey Int) (acc : Processing)
    (row : PrimaryKey × TaskInstance) : Except TaskInstanceKey Processing :=
  match tryNumbers.get? row.1 with
  | none => .error (row.1.tryKey row.2.tryNumber)
  | some tryNumber =>
    let bufferKey := (row.1.tryKey row.2.tryNumber).withTryNumber tryNumber
    match acc.eventBuffer.pop bufferKey with
    | none => .error bufferKey
    | some (event, eventBuffer) =>
      let (ti, action) := self.respond row.1 row.2 bufferKey event
      .ok {
        eventBuffer
        db := acc.db.set row.1 ti
        log := acc.log ++ (action.map fun a => (bufferKey, a)).toList }

/-- The rows that the query finds: `filter_for_tis`, without the locked ones. -/
def queriedTis (eventBuffer : Dict TaskInstanceKey Event) (db : Database) :
    List (PrimaryKey × TaskInstance) :=
  db.entries.filter fun row =>
    row.1 ∈ (tisWithRightState eventBuffer).map (·.primary) && !self.locked row.1

/-- `_process_executor_events`; it returns the length of what is left of the buffer. -/
def processExecutorEvents (db : Database) : Except TaskInstanceKey Processing :=
  let eventBuffer := self.executor.getEventBuffer.1
  if tisWithRightState eventBuffer = [] then .ok { eventBuffer, db }
  else
    (self.queriedTis eventBuffer db).foldlM
      (self.processTi (primaryKeyToTryNumberMap eventBuffer)) { eventBuffer, db }

end Scheduler

end Airflow.ExecutorEvents
