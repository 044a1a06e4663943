import Airflow.Lib.Dict
import Airflow.TaskInstance.Key
import Airflow.TaskInstance.Retries
import Mathlib.Logic.Function.Basic

/-!
# Clearing task instances

`clear_task_instances` (`airflow/models/taskinstance.py`) on the rows of a session: the task
instances with all columns that it writes, the rows of `task_reschedule`, the jobs and the runs.
A session has one object for each primary key, so that a list of instances is a list of keys, and
an instance that is listed twice is cleared twice.
-/

namespace Airflow.Clear

/-! ## The rows -/

/-- What `refresh_from_task` copies of a task. -/
structure Attributes where
  queue : String
  pool : String
  poolSlots : Int
  priorityWeight : Int
  runAsUser : Option String
  executorConfig : Option String
  operator : String
  customOperatorName : Option String
  deriving DecidableEq

/-- A task. -/
structure Task where
  retries : Nat
  attributes : Attributes

/-- A row of `task_instance`. -/
structure TaskInstance where
  state : TIState
  _tryNumber : Int
  maxTries : Int
  jobId : Option Nat
  externalExecutorId : Option String
  nextMethod : Option String
  nextKwargs : Option String
  attributes : Attributes
  deriving DecidableEq

/-- A row of `task_reschedule`. -/
structure TaskReschedule where
  id : Nat
  ti : PrimaryKey
  tryNumber : Int
  deriving DecidableEq

/-- `JobState`. -/
inductive JobState where
  | running
  | success
  | restarting
  | failed
  deriving DecidableEq

/-- A row of `job`. -/
structure Job where
  id : Nat
  state : JobState

/-- A row of `dag_run`. -/
structure DagRun where
  dagId : String
  runId : String
  state : DagRunState
  startDate : Option Int
  lastSchedulingDecision : Option Int
  clearNumber : Nat
  deriving DecidableEq

/-- What a session sees. -/
structure Session where
  taskInstances : PrimaryKey → TaskInstance
  taskReschedules : List TaskReschedule
  jobs : List Job
  dagRuns : List DagRun

/-- A DAG: its id and its tasks (`has_task` and `get_task`). -/
structure ClearedDag where
  dagId : String
  getTask : String → Option Task

/-! ## One task instance -/

namespace TaskInstance

variable (ti : TaskInstance)

/-- `try_number`. -/
def tryNumber : Int := if ti.state = some .running then ti._tryNumber else ti._tryNumber + 1

/-- `if ti.job_id`. -/
def hasJob : Bool := ti.jobId.any (· ≠ 0)

/-- `refresh_from_task`. -/
def refreshFromTask (task : Task) : TaskInstance := { ti with attributes := task.attributes }

def clearNextMethodArgs : TaskInstance := { ti with nextMethod := none, nextKwargs := none }

/-- What the loop does to an instance. -/
def clear (task : Option Task) : TaskInstance :=
  if ti.state = some .running then
    if ti.hasJob then { ti with state := some .restarting } else ti
  else
    let ti :=
      match task with
      | some task =>
        { ti.refreshFromTask task with maxTries := ti.tryNumber + task.retries - 1 }
      | none => { ti with maxTries := max ti.maxTries ti._tryNumber }
    { ti with state := none, externalExecutorId := none }.clearNextMethodArgs

end TaskInstance

/-! ## The loop -/

/-- `task_id_by_key`: DAG, run, map index, try number, tasks. -/
abbrev TaskIdByKey := Dict String (Dict String (Dict Int (Dict Int (List String))))

/-- `set.add`. -/
def addTo (taskIds : List String) (taskId : String) : List String :=
  if taskId ∈ taskIds then taskIds else taskIds ++ [taskId]

/-- `task_id_by_key[ti.dag_id][ti.run_id][ti.map_index][ti.try_number].add(ti.task_id)`. -/
def TaskIdByKey.add (groups : TaskIdByKey) (ti : PrimaryKey) (tryNumber : Int) : TaskIdByKey :=
  groups.update ti.dagId .empty fun runIds =>
    runIds.update ti.runId .empty fun mapIndexes =>
      mapIndexes.update ti.mapIndex .empty fun taskTries =>
        taskTries.update tryNumber [] fun taskIds => addTo taskIds ti.taskId

/-- `conditions`, of a row of `task_reschedule`. -/
def conditions (taskIdByKey : TaskIdByKey) (row : TaskReschedule) : Bool :=
  taskIdByKey.entries.any fun (dagId, runIds) => row.ti.dagId = dagId &&
    runIds.entries.any fun (runId, mapIndexes) => row.ti.runId = runId &&
      mapIndexes.entries.any fun (mapIndex, taskTries) => row.ti.mapIndex = mapIndex &&
        taskTries.entries.any fun (tryNumber, taskIds) =>
          row.tryNumber = tryNumber && decide (row.ti.taskId ∈ taskIds)

/-- The locals of the loop, with the objects of the session. -/
structure Loop where
  taskInstances : PrimaryKey → TaskInstance
  jobIds : List Nat := []
  taskIdByKey : TaskIdByKey := .empty

variable (dag : Option ClearedDag) (dagBag : String → Option ClearedDag)

/-- The task of an instance, in the DAG that is given when it is the instance's. -/
def taskOf (ti : PrimaryKey) : Option Task :=
  let tiDag :=
    match dag with
    | some dag => if dag.dagId = ti.dagId then some dag else dagBag ti.dagId
    | none => dagBag ti.dagId
  tiDag.bind fun dag => dag.getTask ti.taskId

/-- `for ti in tis`. -/
def loopStep (loop : Loop) (ti : PrimaryKey) : Loop :=
  let old := loop.taskInstances ti
  let new := old.clear (taskOf dag dagBag ti)
  { taskInstances := Function.update loop.taskInstances ti new
    jobIds := if old.state = some .running ∧ old.hasJob then loop.jobIds ++ old.jobId.toList
      else loop.jobIds
    taskIdByKey := loop.taskIdByKey.add ti new.tryNumber }

/-! ## The runs -/

/-- `run_ids_by_dag_id`. -/
def runIdsByDagId (tis : List PrimaryKey) : Dict String (List String) :=
  tis.foldl (fun runIds ti => runIds.update ti.dagId [] (addTo · ti.runId)) .empty

/-- The runs that the query finds. -/
def isListedRun (tis : List PrimaryKey) (run : DagRun) : Bool :=
  (runIdsByDagId tis).entries.any fun (dagId, runIds) =>
    run.dagId = dagId && decide (run.runId ∈ runIds)

/-- A finished run is given the new state. -/
def DagRun.reset (now : Int) (dagRunState : DagRunState) (run : DagRun) : DagRun :=
  if State.isFinishedDr run.state then
    let run := { run with state := dagRunState, startDate := some now }
    if dagRunState = .queued then
      { run with
        lastSchedulingDecision := none
        startDate := none
        clearNumber := run.clearNumber + 1 }
    else run
  else run

/-! ## The whole -/

/-- `clear_task_instances`; `dag_run_state` is `none` for `False`. -/
def clearTaskInstances (now : Int) (activateDagRuns : Option Bool)
    (dagRunState : Option DagRunState) (tis : List PrimaryKey) (session : Session) : Session :=
  let loop := tis.foldl (loopStep dag dagBag) { taskInstances := session.taskInstances }
  let dagRunState :=
    match activateDagRuns with
    | some false => none
    | _ => dagRunState
  { taskInstances := loop.taskInstances
    taskReschedules :=
      if loop.taskIdByKey.size = 0 then session.taskReschedules
      else session.taskReschedules.filter fun row => !conditions loop.taskIdByKey row
    jobs := session.jobs.map fun job =>
      if job.id ∈ loop.jobIds then { job with state := .restarting } else job
    dagRuns :=
      match dagRunState with
      | none => session.dagRuns
      | some dagRunState =>
        if tis.isEmpty then session.dagRuns
        else session.dagRuns.map fun run =>
          if isListedRun tis run then run.reset now dagRunState else run }

end Airflow.Clear
