import Airflow.DagRun.Integrity

/-!
# `set_dag_run_state_to_failed`

From `airflow/api/common/mark_tasks.py`, once the run is found: `set_dag_run_state_to_failed` and
the part of `set_state` about the run's own task instances. `get_run_ids` without `future` and
`past` returns that run; the instances of subdags belong to other DAGs and runs.
-/

namespace Airflow.MarkTasks

open Integrity

/-! ## Queries and updates -/

/-- `ti.set_state` of a row that a query selects. -/
def setRowState (query : TaskInstanceRow → Bool) (state : TIState) (row : TaskInstanceRow) :
    TaskInstanceRow :=
  if query row then { row with state := state } else row

@[simp] theorem setRowState_taskId (query : TaskInstanceRow → Bool) (state : TIState)
    (row : TaskInstanceRow) : (setRowState query state row).taskId = row.taskId := by
  unfold setRowState
  split <;> rfl

@[simp] theorem setRowState_mapIndex (query : TaskInstanceRow → Bool) (state : TIState)
    (row : TaskInstanceRow) : (setRowState query state row).mapIndex = row.mapIndex := by
  unfold setRowState
  split <;> rfl

theorem setRowState_keys (query : TaskInstanceRow → Bool) (state : TIState)
    (rows : List TaskInstanceRow) :
    ((rows.map (setRowState query state)).map fun row => (row.taskId, row.mapIndex)) =
      rows.map fun row => (row.taskId, row.mapIndex) := by
  rw [List.map_map]
  exact List.map_congr_left fun row _ =>
    Prod.ext (setRowState_taskId query state row) (setRowState_mapIndex query state row)

theorem setRowState_nodup (query : TaskInstanceRow → Bool) (state : TIState)
    (table : TaskInstanceTable) :
    ((table.rows.map (setRowState query state)).map
      fun row => (row.taskId, row.mapIndex)).Nodup := by
  rw [setRowState_keys]
  exact table.key_nodup

theorem setRowState_mapIndex_ge (query : TaskInstanceRow → Bool) (state : TIState)
    (table : TaskInstanceTable) :
    ∀ row ∈ table.rows.map (setRowState query state), -1 ≤ row.mapIndex := by
  intro row hrow
  obtain ⟨old, hold, rfl⟩ := List.mem_map.mp hrow
  rw [setRowState_mapIndex]
  exact table.mapIndex_ge old hold

/-- The rows that a query selects are set to a state. -/
def setStates (query : TaskInstanceRow → Bool) (state : TIState) (table : TaskInstanceTable) :
    TaskInstanceTable where
  rows := table.rows.map (setRowState query state)
  key_nodup := setRowState_nodup query state table
  mapIndex_ge := setRowState_mapIndex_ge query state table

/-- The task instances that a query returns, by task id and map index. -/
def select (query : TaskInstanceRow → Bool) (table : TaskInstanceTable) : List (TaskId × Int) :=
  (table.rows.filter query).map fun row => (row.taskId, row.mapIndex)

/-! ## `set_state` -/

/-- `get_all_dag_task_query`. -/
def getAllDagTaskQuery (state : TaskInstanceState) (taskIds : List TaskId)
    (row : TaskInstanceRow) : Bool :=
  decide (row.taskId ∈ taskIds) && (row.state.isNone || decide (row.state ≠ some state))

section
variable (dag : DagVersion) (dagRun : DagRun) (run : RunData)

/-- `set_state` for all instances of some tasks, with the task instances it alters.
`_iter_existing_dag_run_infos` verifies the integrity of the run first. -/
def setState (tasks : List Operator) (state : TaskInstanceState) (commit : Bool)
    (table : TaskInstanceTable) : List (TaskId × Int) × TaskInstanceTable :=
  if tasks.isEmpty then ([], table)
  else
    let query := getAllDagTaskQuery state (tasks.map Operator.taskId)
    let verified := verifyIntegrity dag dagRun run table
    (select query verified, if commit then setStates query (some state) verified else verified)

/-! ## `set_dag_run_state_to_failed` -/

/-- `running_states`. -/
def isRunningState : TIState → Bool
  | some .running | some .deferred | some .upForReschedule => true
  | _ => false

/-- `task_ids_of_running_tis`. -/
def taskIdsOfRunningTis (table : TaskInstanceTable) : List TaskId :=
  (table.rows.filter fun row => dag.taskIds.contains row.taskId && isRunningState row.state).map
    TaskInstanceRow.taskId

/-- `tasks`: those with a running instance. -/
def runningTasks (table : TaskInstanceTable) : List Operator :=
  dag.tasks.filter fun task => (taskIdsOfRunningTis dag table).contains task.taskId

/-- The query of the instances to skip. SQL's `NULL NOT IN (…)` is not true. -/
def nonFinishedQuery (row : TaskInstanceRow) : Bool :=
  row.state.isSome && !State.isFinished row.state && !isRunningState row.state

/-- The rows once these are skipped. -/
def skipNonFinished (commit : Bool) (table : TaskInstanceTable) : TaskInstanceTable :=
  if commit then setStates nonFinishedQuery (some .skipped) table else table

/-- `_set_dag_run_state`. -/
def setDagRunState (state : DagRunState) : DagRun := { dagRun with state }

/-- `set_dag_run_state_to_failed`: the task instances it returns, the run and its rows. -/
def setDagRunStateToFailed (commit : Bool) (table : TaskInstanceTable) :
    List (TaskId × Int) × DagRun × TaskInstanceTable :=
  let failed := if commit then setDagRunState dagRun .failed else dagRun
  let (altered, table') := setState dag failed run (runningTasks dag table) .failed commit
    (skipNonFinished commit table)
  (select nonFinishedQuery table ++ altered, failed, table')

end

end Airflow.MarkTasks
