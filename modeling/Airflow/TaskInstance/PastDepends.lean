import Airflow.Dag.Graph

/-!
# What a task waits for in the previous run

`PrevDagrunDep` of `ti_deps/deps/prev_dagrun_dep.py` with the queries for the previous run in
`models/dagrun.py`, and `TaskInstance.are_dependents_done` of `models/taskinstance.py`, over the
rows of `dag_run` and `task_instance` of all runs.
-/

namespace Airflow.PastDepends

/-! ## The database -/

/-- A row of `dag_run`. -/
structure DagRun where
  id : Nat
  dagId : String
  runId : String
  executionDate : Int
  runType : DagRunType
  deriving DecidableEq, Repr

/-- A row of `task_instance`. -/
structure TaskInstance where
  dagId : String
  taskId : TaskId
  runId : String
  mapIndex : Int := -1
  state : TIState
  deriving DecidableEq, Repr

/-- The rows, with their primary and unique keys and the foreign key of an instance to its run. -/
structure Database where
  dagRuns : List DagRun
  taskInstances : List TaskInstance
  id_nodup : (dagRuns.map DagRun.id).Nodup := by decide
  runId_nodup : (dagRuns.map fun run => (run.dagId, run.runId)).Nodup := by decide
  executionDate_nodup : (dagRuns.map fun run => (run.dagId, run.executionDate)).Nodup := by decide
  key_nodup : (taskInstances.map fun ti => (ti.dagId, ti.taskId, ti.runId, ti.mapIndex)).Nodup := by
    decide
  dagRun_mem : ∀ ti ∈ taskInstances, (ti.dagId, ti.runId) ∈
    dagRuns.map fun run => (run.dagId, run.runId) := by decide

/-- The operator of a task instance. `catchup` is that of its DAG, if it has one. -/
structure Operator where
  taskId : TaskId
  downstreamTaskIds : List TaskId := []
  dependsOnPast : Bool := false
  waitForDownstream : Bool := false
  ignoreFirstDependsOnPast : Bool := false
  startDate : Option Int := none
  catchup : Option Bool := none
  downstreamTaskIds_nodup : downstreamTaskIds.Nodup := by decide

/-- `_SUCCESSFUL_STATES`. -/
def successfulStates : List TaskInstanceState := [.skipped, .success]

/-- `TI.state.in_(_SUCCESSFUL_STATES)`, which no `NULL` is. -/
def TaskInstance.isSuccessful (ti : TaskInstance) : Bool :=
  ti.state.any fun state => successfulStates.contains state

/-- `or_(TI.state.is_(None), TI.state.not_in(_SUCCESSFUL_STATES))`. -/
def TaskInstance.isUnsuccessful (ti : TaskInstance) : Bool :=
  ti.state.isNone || ti.state.any fun state => !successfulStates.contains state

namespace Database

variable (db : Database)

/-- The rows of a task in a run. -/
def rowsOf (dagId runId : String) (taskId : TaskId) : List TaskInstance :=
  db.taskInstances.filter fun ti => ti.dagId = dagId ∧ ti.runId = runId ∧ ti.taskId = taskId

/-- `ti.execution_date`, through `ti.dag_run`. -/
def dagRunOf (ti : TaskInstance) : Option DagRun :=
  db.dagRuns.find? fun run => run.dagId = ti.dagId ∧ run.runId = ti.runId

/-! ## `models/taskinstance.py` -/

/-- `are_dependents_done`. -/
def areDependentsDone (ti : TaskInstance) (task : Operator) : Bool :=
  if task.downstreamTaskIds = [] then true
  else
    let count := db.taskInstances.countP fun row =>
      row.dagId = ti.dagId ∧ task.downstreamTaskIds.contains row.taskId ∧ row.runId = ti.runId ∧
        row.isSuccessful
    count = task.downstreamTaskIds.length

/-! ## `models/dagrun.py` -/

/-- `order_by(DagRun.execution_date.desc()).limit(1)`. -/
def latest : List DagRun → Option DagRun
  | [] => none
  | run :: runs =>
    match latest runs with
    | none => some run
    | some other => if run.executionDate < other.executionDate then some other else some run

/-- `get_previous_dagrun` without a state. -/
def getPreviousDagrun (dagRun : DagRun) : Option DagRun :=
  latest (db.dagRuns.filter fun run =>
    run.dagId = dagRun.dagId ∧ run.executionDate < dagRun.executionDate)

/-- `get_previous_scheduled_dagrun`. -/
def getPreviousScheduledDagrun (dagRunId : Nat) : Option DagRun :=
  match db.dagRuns.find? (·.id = dagRunId) with
  | none => none
  | some dagRun =>
    latest (db.dagRuns.filter fun run =>
      run.dagId = dagRun.dagId ∧ run.executionDate < dagRun.executionDate ∧
        run.runType ≠ .manual)

/-! ## `PrevDagrunDep` -/

/-- `_has_tis`. -/
def hasTis (dagrun : DagRun) (taskId : TaskId) : Bool :=
  db.taskInstances.any fun ti =>
    ti.dagId = dagrun.dagId ∧ ti.taskId = taskId ∧ ti.runId = dagrun.runId

/-- `_has_any_prior_tis`. -/
def hasAnyPriorTis (ti : TaskInstance) : Bool :=
  db.taskInstances.any fun row =>
    row.dagId = ti.dagId ∧ row.taskId = ti.taskId ∧
      ∃ run ∈ db.dagRunOf row, ∃ run' ∈ db.dagRunOf ti, run.executionDate < run'.executionDate

/-- `_count_unsuccessful_tis`. -/
def countUnsuccessfulTis (dagrun : DagRun) (taskId : TaskId) : Nat :=
  db.taskInstances.countP fun ti =>
    ti.dagId = dagrun.dagId ∧ ti.taskId = taskId ∧ ti.runId = dagrun.runId ∧ ti.isUnsuccessful

/-- `_has_unsuccessful_dependants`. -/
def hasUnsuccessfulDependants (dagrun : DagRun) (task : Operator) : Bool :=
  if task.downstreamTaskIds = [] then false
  else db.taskInstances.any fun ti =>
    ti.dagId = dagrun.dagId ∧ task.downstreamTaskIds.contains ti.taskId ∧
      ti.runId = dagrun.runId ∧ ti.isUnsuccessful

end Database

/-- The fields of `DepContext` that the dependency reads. -/
structure DepContext where
  ignoreAllDeps : Bool := false
  ignoreTaskDeps : Bool := false
  ignoreDependsOnPast : Bool := false
  waitForPastDependsBeforeSkipping : Bool := false

/-- `TIDepStatus`; the name is that of the dependency. -/
structure TIDepStatus where
  passed : Bool
  reason : String
  deriving DecidableEq, Repr

/-- The statuses that are yielded, and whether `PAST_DEPENDS_MET` was pushed. -/
structure DepStatuses where
  statuses : List TIDepStatus
  pastDependsMet : Bool := false
  deriving DecidableEq, Repr

/-- `TypeError`, of a date compared with `None`. -/
inductive DepError where
  | typeError
  deriving DecidableEq, Repr

def passingStatus (reason : String) : TIDepStatus := ⟨true, reason⟩

def failingStatus (reason : String) : TIDepStatus := ⟨false, reason⟩

/-- `catchup`: the task has a DAG that catches up. -/
def Operator.catchesUp (task : Operator) : Bool := task.catchup.any id

section
variable (db : Database) (ti : TaskInstance) (task : Operator) (depContext : DepContext)

/-- `last_dagrun`. -/
def lastDagrun (dr : DagRun) : Option DagRun :=
  if task.catchesUp then db.getPreviousScheduledDagrun dr.id else db.getPreviousDagrun dr

/-- `_push_past_deps_met_xcom_if_needed`, before the statuses. -/
def passing (statuses : List TIDepStatus) : DepStatuses :=
  ⟨statuses, depContext.waitForPastDependsBeforeSkipping⟩

/-- `last_dagrun.execution_date < ti.task.start_date`, where the DAG catches up. -/
def startsAfter (last : DagRun) : Except DepError Bool :=
  if task.catchesUp then
    match task.startDate with
    | none => .error .typeError
    | some startDate => .ok (last.executionDate < startDate)
  else .ok false

/-- The statuses once the task was there in the previous run. -/
def statusesOf (last : DagRun) : DepStatuses :=
  if ¬db.hasTis last ti.taskId then
    if task.ignoreFirstDependsOnPast ∧ ¬db.hasAnyPriorTis ti then
      passing depContext [passingStatus ("ignore_first_depends_on_past is true for this task " ++
        "and it is the first task instance for its task.")]
    else
      ⟨[failingStatus ("depends_on_past is true for this task's DAG, but the previous " ++
        "task instance has not run yet.")], false⟩
  else
    let unsuccessfulTisCount := db.countUnsuccessfulTis last ti.taskId
    if unsuccessfulTisCount > 0 then
      ⟨[failingStatus (s!"depends_on_past is true for this task, but {unsuccessfulTisCount} " ++
        "previous task instance(s) are not in a successful state.")], false⟩
    else if task.waitForDownstream ∧ db.hasUnsuccessfulDependants last task then
      ⟨[failingStatus ("The tasks downstream of the previous task instance(s) " ++
        "haven't completed, and wait_for_downstream is True.")], false⟩
    else passing depContext []

/-- `PrevDagrunDep._get_dep_statuses`. -/
def prevDagrunStatuses : Except DepError DepStatuses :=
  if depContext.ignoreDependsOnPast then
    .ok (passing depContext
      [passingStatus "The context specified that the state of past DAGs could be ignored."])
  else if ¬task.dependsOnPast then
    .ok (passing depContext [passingStatus "The task did not have depends_on_past set."])
  else
    match db.dagRunOf ti with
    | none =>
      .ok (passing depContext [passingStatus "This task instance does not belong to a DAG."])
    | some dr =>
      match lastDagrun db task dr with
      | none => .ok (passing depContext
          [passingStatus "This task instance was the first task instance for its task."])
      | some last =>
        match startsAfter task last with
        | .error e => .error e
        | .ok true => .ok (passing depContext
            [passingStatus "This task instance was the first task instance for its task."])
        | .ok false => .ok (statusesOf db ti task depContext last)

/-- `get_dep_statuses`; the dependency is `IGNORABLE` and a task dependency. -/
def getDepStatuses : Except DepError DepStatuses :=
  if depContext.ignoreAllDeps then
    .ok ⟨[passingStatus "Context specified all dependencies should be ignored."], false⟩
  else if depContext.ignoreTaskDeps then
    .ok ⟨[passingStatus "Context specified all task dependencies should be ignored."], false⟩
  else prevDagrunStatuses db ti task depContext

/-- `is_met`: all statuses are passing. -/
def isMet : Except DepError Bool :=
  match getDepStatuses db ti task depContext with
  | .error e => .error e
  | .ok result => .ok (result.statuses.all (·.passed))

end

end Airflow.PastDepends
