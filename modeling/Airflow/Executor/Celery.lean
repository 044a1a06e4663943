import Airflow.Executor.Base
import Airflow.Lib.Dict
import Airflow.TaskInstance.Key

/-!
# `CeleryExecutor`

`_process_tasks`, `sync`, `change_state`, `update_task_state`, `try_adopt_task_instances` and
`cleanup_stuck_queued_tasks` of `providers/celery/executors/celery_executor.py`, over the
`trigger_tasks` of `BaseExecutor`. What Celery answers comes with each call: how the sending of a
message ends, the states that its backend has, whether a revocation goes through. The backend
answers when it is asked for the state of a message just sent.

`messages` is the record of the messages that were sent or adopted, `observed` of those seen in a
terminal state, and `revoked` of those revoked. No operation reads them.
-/

namespace Airflow.Celery

/-- The states of a Celery task that are told apart. -/
inductive CeleryState where
  | success
  | failure
  | revoked
  | started
  | pending
  | other
  deriving DecidableEq, Repr

/-- `celery_states.READY_STATES`. -/
def CeleryState.isReady : CeleryState → Bool
  | .success | .failure | .revoked => true
  | _ => false

/-- How the sending of a message ends: with the message's id (and the state it has when it is read
after all were sent), with an `AirflowTaskTimeout`, or with another exception. -/
inductive Publication where
  | sent (taskId : String) (state : CeleryState)
  | timeout
  | error

/-- A message: the key it was sent for and its id. -/
abbrev Message := TaskInstanceKey × String

structure CeleryExecutor (Payload : Type) extends Executor TaskInstanceKey Payload where
  tasks : Dict TaskInstanceKey String := {}
  taskPublishRetries : Dict TaskInstanceKey Nat := {}
  taskPublishMaxRetries : Nat := 3
  messages : List Message := []
  observed : List Message := []
  revoked : List Message := []

/-- Task instances with their `external_executor_id`, which are rows of one table. -/
structure TaskInstances where
  tis : List (TaskInstanceKey × Option String)
  key_nodup : (tis.map Prod.fst).Nodup

namespace CeleryExecutor

variable {Payload : Type}

/-! ## States -/

/-- `change_state`. -/
def changeState (self : CeleryExecutor Payload) (key : TaskInstanceKey) (state : TIState) :
    CeleryExecutor Payload :=
  { self with
    toExecutor := self.toExecutor.changeState key state
    tasks := self.tasks.erase key }

/-- `fail`, which calls the `change_state` above. -/
def fail (self : CeleryExecutor Payload) (key : TaskInstanceKey) : CeleryExecutor Payload :=
  self.changeState key (some .failed)

/-- `success`. -/
def success (self : CeleryExecutor Payload) (key : TaskInstanceKey) : CeleryExecutor Payload :=
  self.changeState key (some .success)

/-- `update_task_state`, with the state that message `taskId` has. -/
def updateTaskState (self : CeleryExecutor Payload) (key : TaskInstanceKey) (taskId : String) :
    CeleryState → CeleryExecutor Payload
  | .success => { self.success key with observed := self.observed ++ [(key, taskId)] }
  | .failure | .revoked => { self.fail key with observed := self.observed ++ [(key, taskId)] }
  | _ => self

/-! ## Sending -/

/-- `tasks` and `running` of a message that is tracked from now on. -/
def track (self : CeleryExecutor Payload) (key : TaskInstanceKey) (taskId : String) :
    CeleryExecutor Payload :=
  { self with
    running := if key ∈ self.running then self.running else self.running ++ [key]
    tasks := self.tasks.set key taskId }

/-- The end of an attempt to send: the key leaves `queued_tasks` and `task_publish_retries`. -/
def popQueued (self : CeleryExecutor Payload) (key : TaskInstanceKey) : CeleryExecutor Payload :=
  { self with
    queuedTasks := self.queuedTasks.filter (·.key ≠ key)
    taskPublishRetries := self.taskPublishRetries.erase key }

/-- `event_buffer[key] = state`. -/
def putEvent (self : CeleryExecutor Payload) (key : TaskInstanceKey) (state : TIState) :
    CeleryExecutor Payload :=
  { self with eventBuffer := Executor.setEvent self.eventBuffer key state }

/-- One turn of the loop of `_process_tasks` over the results. -/
def processResult (self : CeleryExecutor Payload) (key : TaskInstanceKey) :
    Publication → CeleryExecutor Payload
  | .timeout =>
    let retries := (self.taskPublishRetries.get? key).getD 0
    if retries < self.taskPublishMaxRetries then
      { self with taskPublishRetries := self.taskPublishRetries.set key (retries + 1) }
    else (self.popQueued key).putEvent key (some .failed)
  | .error => (self.popQueued key).putEvent key (some .failed)
  | .sent taskId state =>
    (((self.popQueued key).track key taskId).putEvent key (some .queued)).updateTaskState key taskId
      state

/-- The messages that `_send_tasks_to_celery` sends. -/
def sentMessages (publish : TaskInstanceKey → Publication) (keys : List TaskInstanceKey) :
    List Message :=
  keys.filterMap fun key =>
    match publish key with
    | .sent taskId _ => some (key, taskId)
    | _ => none

/-- `_process_tasks`: all are sent before the first result is looked at. -/
def processTasks (self : CeleryExecutor Payload) (publish : TaskInstanceKey → Publication)
    (keys : List TaskInstanceKey) : CeleryExecutor Payload :=
  keys.foldl (fun executor key => executor.processResult key (publish key))
    { self with messages := self.messages ++ sentMessages publish keys }

/-- `trigger_tasks`. -/
def triggerTasks (self : CeleryExecutor Payload) (elapsed : TaskInstanceKey → Bool)
    (publish : TaskInstanceKey → Publication) : CeleryExecutor Payload :=
  let (base, taskTuples) := self.toExecutor.collectTasks self.openSlots elapsed
  { self with toExecutor := base }.processTasks publish (taskTuples.map QueuedTask.key)

/-! ## Reading states -/

/-- The loop of `update_all_task_states` over a copy of `tasks`. Where the states lack one, the
unpacking of `None` raises. -/
def updateTaskStates (states : String → Option CeleryState) :
    List Message → CeleryExecutor Payload → CeleryExecutor Payload
  | [], self => self
  | (key, taskId) :: rest, self =>
    match states taskId with
    | none => self
    | some state => updateTaskStates states rest (self.updateTaskState key taskId state)

/-- `sync`, and `update_all_task_states`. -/
def sync (self : CeleryExecutor Payload) (states : String → Option CeleryState) :
    CeleryExecutor Payload :=
  updateTaskStates states self.tasks.entries self

/-- `heartbeat`. -/
def heartbeat (self : CeleryExecutor Payload) (elapsed : TaskInstanceKey → Bool)
    (publish : TaskInstanceKey → Publication) (states : String → Option CeleryState) :
    CeleryExecutor Payload :=
  (self.triggerTasks elapsed publish).sync states

/-! ## Adoption and cleanup -/

/-- `celery_tasks`: the task instances with a message, by its id. -/
def celeryTasks (tis : List (TaskInstanceKey × Option String)) : Dict String TaskInstanceKey :=
  tis.foldl (fun tasks ti =>
    match ti.2 with
    | some taskId => tasks.set taskId ti.1
    | none => tasks) {}

/-- One turn of the loop of `try_adopt_task_instances`, for a message with a state. -/
def adopt (self : CeleryExecutor Payload) (key : TaskInstanceKey) (taskId : String)
    (state : CeleryState) : CeleryExecutor Payload :=
  ({ self with messages := self.messages ++ [(key, taskId)] }.track key taskId).updateTaskState key
    taskId state

/-- `try_adopt_task_instances`. The states are looked at in the order of `celery_tasks`; the keys
of the task instances differ, so the order tells nothing. -/
def tryAdoptTaskInstances (self : CeleryExecutor Payload) (tis : TaskInstances)
    (states : String → Option CeleryState) : CeleryExecutor Payload :=
  (celeryTasks tis.tis).entries.foldl (fun executor entry =>
    match states entry.1 with
    | some state => executor.adopt entry.2 entry.1 state
    | none => executor) self

/-- The body of the loop of `cleanup_stuck_queued_tasks`; `revokes` tells whether
`app.control.revoke` goes through. -/
def cleanupStuckQueuedTask (revokes : Bool) (self : CeleryExecutor Payload)
    (key : TaskInstanceKey) : CeleryExecutor Payload :=
  let executor := self.fail key
  match executor.tasks.get? key with
  | none => executor
  | some taskId =>
    { executor with
      tasks := executor.tasks.erase key
      revoked := if revokes then executor.revoked ++ [(key, taskId)] else executor.revoked }

/-- `cleanup_stuck_queued_tasks`. -/
def cleanupStuckQueuedTasks (self : CeleryExecutor Payload) (keys : List TaskInstanceKey)
    (revokes : TaskInstanceKey → Bool) : CeleryExecutor Payload :=
  keys.foldl (fun executor key => cleanupStuckQueuedTask (revokes key) executor key) self

/-! ## Runs -/

/-- A call on the executor. -/
inductive Call (Payload : Type) where
  | queueCommand (key : TaskInstanceKey) (priority : Int) (payload : Payload)
  | heartbeat (elapsed : TaskInstanceKey → Bool) (publish : TaskInstanceKey → Publication)
      (states : String → Option CeleryState)
  | sync (states : String → Option CeleryState)
  | tryAdoptTaskInstances (tis : TaskInstances) (states : String → Option CeleryState)
  | cleanupStuckQueuedTasks (keys : List TaskInstanceKey) (revokes : TaskInstanceKey → Bool)

def step (self : CeleryExecutor Payload) : Call Payload → CeleryExecutor Payload
  | .queueCommand key priority payload =>
    { self with toExecutor := self.toExecutor.queueCommand key priority payload }
  | .heartbeat elapsed publish states => self.heartbeat elapsed publish states
  | .sync states => self.sync states
  | .tryAdoptTaskInstances tis states => self.tryAdoptTaskInstances tis states
  | .cleanupStuckQueuedTasks keys revokes => self.cleanupStuckQueuedTasks keys revokes

end CeleryExecutor

end Airflow.Celery
