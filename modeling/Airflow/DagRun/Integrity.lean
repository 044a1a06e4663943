import Airflow.DagRun.Session

/-!
# `DagRun.verify_integrity`: the rows of a run against a new version of its DAG

`verify_integrity` of `airflow/models/dagrun.py` with `_check_for_removed_or_restored_tasks`,
`_create_tasks` and `_create_task_instances`, and the lengths of mapped tasks that are known when
the DAG is parsed (`get_parse_time_mapped_ti_count`).

The session does not autoflush, so that the queries of the call read the table as it was before
the first assignment, and an iteration of the loop over the rows changes its own row only. The
mutation hook of the task instances is the default one, which does nothing; the key conflict that
`_create_task_instances` rolls back comes from another scheduler's transaction and is left out.
-/

namespace Airflow

/-! ## Lengths known when the DAG is parsed -/

/-- `len(v)` of an argument that `_is_parse_time_mappable`. -/
def ExpandArgument.literalLength : ExpandArgument → Option Nat
  | .literal length => some length
  | .xcomArg _ => none

/-- `get_parse_time_mapped_ti_count` of an expand input. -/
def ExpandInput.getParseTimeMappedTiCount : ExpandInput → Except MapError Nat
  | .dictOfLists [] => .ok 0
  | .dictOfLists value =>
    let literalValues := value.filterMap (·.literalLength)
    if literalValues.length ≠ value.length then .error .notFullyPopulated
    else .ok (literalValues.foldl (· * ·) 1)
  | .listOfDicts (.literal length) => .ok length
  | .listOfDicts (.xcomArg _) => .error .notFullyPopulated

/-- `MappedTaskGroup.get_parse_time_mapped_ti_count` of the innermost of some nested groups. -/
def groupsParseTimeMappedTiCount (groups : List MappedTaskGroup) : Except MapError Nat :=
  if groups.isEmpty then .error .notMapped
  else mulCounts (groups.map fun g => g.expandInput.getParseTimeMappedTiCount)

/-- `get_parse_time_mapped_ti_count`. -/
def Operator.getParseTimeMappedTiCount (task : Operator) : Except MapError Nat :=
  match task.expandInput with
  | none => groupsParseTimeMappedTiCount task.mappedTaskGroups
  | some expandInput =>
    match expandInput.getParseTimeMappedTiCount with
    | .error e => .error e
    | .ok currentCount =>
      match groupsParseTimeMappedTiCount task.mappedTaskGroups with
      | .ok parentCount => .ok (parentCount * currentCount)
      | .error .notMapped => .ok currentCount
      | .error .notFullyPopulated => .error .notFullyPopulated

namespace Integrity

/-- The columns of `DagRun` that `verify_integrity` reads. -/
structure DagRun where
  state : DagRunState
  runType : DagRunType
  executionDate : Int

/-- `is_backfill`. -/
def DagRun.isBackfill (self : DagRun) : Bool := self.runType = .backfillJob

/-- The DAG that the run has now, with the `end_date` of its tasks. -/
structure DagVersion extends Dag where
  endDate : TaskId → Option Int := fun _ => none

section
variable (dag : DagVersion) (dagRun : DagRun) (run : RunData)

/-! ## The loop over the rows -/

/-- The rows that `get_task_instances` returns: for a partial DAG those of its tasks. -/
def getTaskInstances (ti : TaskInstanceRow) : Bool :=
  !dag.partialDag || dag.taskIds.contains ti.taskId

/-- `_check_for_removed_or_restored_tasks`: the state that a row is left in. -/
def checkedState (s : Session) (ti : TaskInstanceRow) : TIState :=
  match dag.getTask ti.taskId with
  | none =>
    if ti.state = some .removed then ti.state
    else if dagRun.state ≠ .running ∧ ¬dag.partialDag then some .removed
    else ti.state
  | some task =>
    let restored := if ti.state = some .removed then none else ti.state
    match task.getParseTimeMappedTiCount with
    | .error .notMapped => restored
    | .error .notFullyPopulated =>
      match task.getMappedTiCount run s with
      | .ok totalLength => if ti.mapIndex ≥ totalLength then some .removed else restored
      -- `NotFullyPopulated`: a mapped task does not raise the other one
      | .error _ => if ti.mapIndex ≥ 0 then some .removed else restored
    | .ok numMappedTis =>
      if ti.mapIndex ≥ numMappedTis then some .removed
      else if ti.mapIndex < 0 then some .removed
      else restored

/-- One iteration of the loop. -/
def checkTi (s : Session) (ti : TaskInstanceRow) : TaskInstanceRow :=
  if getTaskInstances dag ti then { ti with state := checkedState dag dagRun run s ti } else ti

/-- The task ids that `_check_for_removed_or_restored_tasks` returns. -/
def taskIdsInRun (rows : List TaskInstanceRow) : List TaskId :=
  (rows.filter (getTaskInstances dag)).map TaskInstanceRow.taskId

/-! ## The missing tasks -/

/-- The dates of `task_filter`. -/
def inDateRange (task : Operator) : Bool :=
  dagRun.isBackfill ||
    (decide (task.startDate ≤ dagRun.executionDate) &&
      (dag.endDate task.taskId).all (dagRun.executionDate ≤ ·))

/-- `task_filter`. -/
def taskFilter (taskIds : List TaskId) (task : Operator) : Bool :=
  !taskIds.contains task.taskId && inDateRange dag dagRun task

/-- `map_indexes` of `_create_tasks`. -/
def mapIndexes (s : Session) (task : Operator) : List Int :=
  match task.getMappedTiCount run s with
  | .error _ => [-1]
  | .ok 0 => [-1]
  | .ok (count + 1) => (List.range (count + 1)).map Int.ofNat

/-- `TI.insert_mapping`. -/
def insertMapping (task : Operator) (mapIndex : Int) : TaskInstanceRow where
  taskId := task.taskId
  mapIndex := mapIndex
  state := none

/-- `_create_tasks`. -/
def createTasks (s : Session) (tasks : List Operator) : List TaskInstanceRow :=
  tasks.flatMap fun task => (mapIndexes run s task).map (insertMapping task)

/-- The tasks that rows are created for. -/
def tasksToCreate (table : TaskInstanceTable) : List Operator :=
  dag.tasks.filter (taskFilter dag dagRun (taskIdsInRun dag table.rows))

/-- The rows after the call. -/
def verifiedRows (table : TaskInstanceTable) : List TaskInstanceRow :=
  table.rows.map (checkTi dag dagRun run (Session.load table)) ++
    createTasks run (Session.load table) (tasksToCreate dag dagRun table)

end

/-! ## The rows are a table -/

variable {dag : DagVersion} {dagRun : DagRun} {run : RunData} {s : Session}
  {table : TaskInstanceTable}

@[simp] theorem checkTi_taskId (ti : TaskInstanceRow) :
    (checkTi dag dagRun run s ti).taskId = ti.taskId := by
  unfold checkTi
  split <;> rfl

@[simp] theorem checkTi_mapIndex (ti : TaskInstanceRow) :
    (checkTi dag dagRun run s ti).mapIndex = ti.mapIndex := by
  unfold checkTi
  split <;> rfl

theorem mem_createTasks {tasks : List Operator} {row : TaskInstanceRow} :
    row ∈ createTasks run s tasks ↔
      ∃ task ∈ tasks, ∃ i ∈ mapIndexes run s task, insertMapping task i = row := by
  simp [createTasks]

theorem mapIndexes_nodup (task : Operator) : (mapIndexes run s task).Nodup := by
  unfold mapIndexes
  split
  · simp
  · simp
  · exact List.nodup_range.map fun a b h => Int.ofNat.inj h

theorem neg_one_le_of_mem_mapIndexes {task : Operator} {i : Int} (h : i ∈ mapIndexes run s task) :
    -1 ≤ i := by
  unfold mapIndexes at h
  split at h
  · simp_all
  · simp_all
  · obtain ⟨n, -, rfl⟩ := List.mem_map.mp h
    show -1 ≤ (n : Int)
    omega

theorem createTasks_keys_nodup {tasks : List Operator}
    (htasks : (tasks.map Operator.taskId).Nodup) :
    ((createTasks run s tasks).map fun row => (row.taskId, row.mapIndex)).Nodup := by
  induction tasks with
  | nil => simp [createTasks]
  | cons task tasks ih =>
    rw [List.map_cons, List.nodup_cons] at htasks
    rw [createTasks, List.flatMap_cons, List.map_append]
    refine List.Nodup.append ?_ (ih htasks.2) ?_
    · rw [List.map_map]
      exact (mapIndexes_nodup task).map fun a b h => (Prod.mk.inj h).2
    · intro key hnew hrest
      rw [List.map_map] at hnew
      obtain ⟨i, -, rfl⟩ := List.mem_map.mp hnew
      obtain ⟨row, hrow, hkey⟩ := List.mem_map.mp hrest
      obtain ⟨task', htask', j, -, rfl⟩ := mem_createTasks.mp hrow
      have hid : task'.taskId = task.taskId := (Prod.mk.inj hkey).1
      exact htasks.1 (hid ▸ List.mem_map_of_mem htask')

theorem mem_tasksToCreate {task : Operator} :
    task ∈ tasksToCreate dag dagRun table ↔
      task ∈ dag.tasks ∧ inDateRange dag dagRun task = true ∧
        ∀ row ∈ table.rows, row.taskId ≠ task.taskId := by
  simp only [tasksToCreate, taskFilter, taskIdsInRun, List.mem_filter, Bool.and_eq_true,
    Bool.not_eq_true', List.contains_eq_mem, decide_eq_false_iff_not, List.mem_map, not_exists,
    not_and]
  refine and_congr_right fun hmem => ?_
  rw [and_comm]
  refine and_congr_right fun _ => ?_
  constructor
  · intro h row hrow hid
    refine h row ⟨hrow, ?_⟩ hid
    have : row.taskId ∈ dag.taskIds := hid ▸ List.mem_map_of_mem hmem
    simp [getTaskInstances, this]
  · intro h row hrow hid
    exact h row hrow.1 hid

theorem verifiedRows_keys_nodup (dag : DagVersion) (dagRun : DagRun) (run : RunData)
    (table : TaskInstanceTable) :
    ((verifiedRows dag dagRun run table).map fun row => (row.taskId, row.mapIndex)).Nodup := by
  rw [verifiedRows, List.map_append]
  refine List.Nodup.append ?_ ?_ ?_
  · have hkeys : (table.rows.map (checkTi dag dagRun run (Session.load table))).map
        (fun row => (row.taskId, row.mapIndex)) =
          table.rows.map fun row => (row.taskId, row.mapIndex) := by
      rw [List.map_map]
      exact List.map_congr_left fun row _ => by simp
    rw [hkeys]
    exact table.key_nodup
  · exact createTasks_keys_nodup (dag.taskIds_nodup.sublist (List.filter_sublist.map _))
  · intro key hold hnew
    obtain ⟨row', hrow', rfl⟩ := List.mem_map.mp hold
    obtain ⟨row, hrow, rfl⟩ := List.mem_map.mp hrow'
    obtain ⟨created, hcreated, hkey⟩ := List.mem_map.mp hnew
    obtain ⟨task, htask, i, -, rfl⟩ := mem_createTasks.mp hcreated
    have hid : task.taskId = row.taskId := (Prod.mk.inj hkey).1.trans (checkTi_taskId row)
    exact (mem_tasksToCreate.mp htask).2.2 row hrow hid.symm

theorem verifiedRows_mapIndex_ge (dag : DagVersion) (dagRun : DagRun) (run : RunData)
    (table : TaskInstanceTable) :
    ∀ row ∈ verifiedRows dag dagRun run table, -1 ≤ row.mapIndex := by
  intro row hrow
  rcases List.mem_append.mp hrow with hold | hnew
  · obtain ⟨old, hmem, rfl⟩ := List.mem_map.mp hold
    simpa using table.mapIndex_ge old hmem
  · obtain ⟨task, -, i, hi, rfl⟩ := mem_createTasks.mp hnew
    exact neg_one_le_of_mem_mapIndexes hi

/-- `verify_integrity`. -/
def verifyIntegrity (dag : DagVersion) (dagRun : DagRun) (run : RunData)
    (table : TaskInstanceTable) : TaskInstanceTable where
  rows := verifiedRows dag dagRun run table
  key_nodup := verifiedRows_keys_nodup dag dagRun run table
  mapIndex_ge := verifiedRows_mapIndex_ge dag dagRun run table

end Integrity

end Airflow
