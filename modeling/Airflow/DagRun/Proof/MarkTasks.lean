import Airflow.DagRun.MarkTasks
import Airflow.DagRun.Proof.Integrity

/-!
# When failing a run finishes it (`MarkTasks.finishesRun_iff`)

`set_dag_run_state_to_failed` skips the instances that are neither finished nor running, which
leaves out those without a state, and fails all instances of the tasks that have a running one,
the finished ones among them. In between `set_state` verifies the integrity of the run, which
creates, restores and removes instances. `Finishable` says which runs end with every instance
finished and no finished one changed.
-/

namespace Airflow.MarkTasks

open Integrity State

variable {dag : DagVersion} {dagRun : DagRun} {run : RunData} {table : TaskInstanceTable}
  {row : TaskInstanceRow} {task : Operator}

/-- Every instance of the run is finished, and those that were finished have kept their state. -/
structure FinishesRun (before later : TaskInstanceTable) : Prop where
  finished : ∀ row ∈ later.rows, isFinished row.state = true
  kept : ∀ row ∈ before.rows, isFinished row.state = true → ∀ row' ∈ later.rows,
    row'.taskId = row.taskId → row'.mapIndex = row.mapIndex → row'.state = row.state

/-! ## The condition -/

/-- An instance of a task without running instances that ends finished and, if it was finished, as
it was. A missing task's is set to `REMOVED` unless the DAG is partial; an index that the mapping
does not have is removed, and a removed one that it has is restored. -/
def RowFinishable (dag : DagVersion) (run : RunData) (s : Session) (row : TaskInstanceRow) : Prop :=
  match dag.getTask row.taskId with
  | none =>
    if dag.partialDag then row.state ≠ none ∧ isRunningState row.state = false
    else isFinished row.state = true → row.state = some .removed
  | some task =>
    if keepsIndex run s task row.mapIndex then row.state ≠ none ∧ row.state ≠ some .removed
    else isFinished row.state = true → row.state = some .removed

/-- The runs that can be failed. Without a running instance, none may be without a state. With one,
the finished instances of its task are failed ones, the other tasks' instances are `RowFinishable`,
and no task of the run is without instances. -/
def Finishable (dag : DagVersion) (dagRun : DagRun) (run : RunData) (table : TaskInstanceTable) :
    Prop :=
  if taskIdsOfRunningTis dag table = [] then
    ∀ row ∈ table.rows, row.state ≠ none ∧ isRunningState row.state = false
  else
    (∀ task ∈ dag.tasks, inDateRange dag dagRun task = true →
      ∃ row ∈ table.rows, row.taskId = task.taskId) ∧
    ∀ row ∈ table.rows,
      if row.taskId ∈ taskIdsOfRunningTis dag table then
        isFinished row.state = true → row.state = some .failed
      else RowFinishable dag run (.load (skipNonFinished true table)) row

/-! ## What becomes of a row -/

/-- A row after the first update. -/
def skippedRow (row : TaskInstanceRow) : TaskInstanceRow :=
  setRowState nonFinishedQuery (some .skipped) row

/-- A row after the call, where `taskIds` are those of running instances. -/
def failedRow (taskIds : List TaskId) (row : TaskInstanceRow) : TaskInstanceRow :=
  setRowState (getAllDagTaskQuery .failed taskIds) (some .failed) row

theorem skippedRow_cases (row : TaskInstanceRow) :
    (nonFinishedQuery row = true ∧ (skippedRow row).state = some .skipped) ∨
      (skippedRow row = row ∧
        (isFinished row.state = true ∨ isRunningState row.state = true ∨ row.state = none)) := by
  unfold skippedRow setRowState
  by_cases hquery : nonFinishedQuery row = true
  · rw [if_pos hquery]
    exact .inl ⟨hquery, rfl⟩
  · rw [if_neg hquery]
    refine .inr ⟨rfl, ?_⟩
    simp only [nonFinishedQuery, Bool.and_eq_true, Bool.not_eq_true', not_and,
      Bool.not_eq_false] at hquery
    cases hstate : row.state with
    | none => exact .inr (.inr rfl)
    | some state =>
      rw [hstate] at hquery
      cases hfinished : isFinished (some state) with
      | true => exact .inl rfl
      | false => exact .inr (.inl (hquery ⟨rfl, hfinished⟩))

theorem skippedRow_of_finished (h : isFinished row.state = true) : skippedRow row = row := by
  rcases skippedRow_cases row with ⟨hquery, -⟩ | ⟨heq, -⟩
  · simp [nonFinishedQuery, h] at hquery
  · exact heq

/-- The first update finishes a row unless it is running or has no state. -/
theorem isFinished_skippedRow :
    isFinished (skippedRow row).state = true ↔
      row.state ≠ none ∧ isRunningState row.state = false := by
  rcases skippedRow_cases row with ⟨hquery, hstate⟩ | ⟨heq, hcases⟩
  · simp only [nonFinishedQuery, Bool.and_eq_true, Bool.not_eq_true'] at hquery
    rw [hstate]
    exact iff_of_true rfl ⟨Option.isSome_iff_ne_none.mp hquery.1.1, hquery.2⟩
  · rw [heq]
    rcases hcases with hfinished | hrunning | hnone
    · refine iff_of_true hfinished ⟨fun h => ?_, ?_⟩
      · rw [h] at hfinished
        cases hfinished
      · revert hfinished
        cases row.state with
        | none => exact fun h => by cases h
        | some state => cases state <;> decide
    · refine iff_of_false (fun h => ?_) fun h => ?_
      · revert hrunning h
        cases row.state with
        | none => exact fun h => by cases h
        | some state => cases state <;> decide
      · rw [hrunning] at h
        cases h.2
    · rw [hnone]
      exact iff_of_false (by decide) fun h => h.1 rfl

theorem skippedRow_state_eq_none : (skippedRow row).state = none ↔ row.state = none := by
  rcases skippedRow_cases row with ⟨hquery, hstate⟩ | ⟨heq, -⟩
  · simp only [nonFinishedQuery, Bool.and_eq_true] at hquery
    rw [hstate]
    exact iff_of_false (by decide) (Option.isSome_iff_ne_none.mp hquery.1.1)
  · rw [heq]

theorem skippedRow_state_eq_removed :
    (skippedRow row).state = some .removed ↔ row.state = some .removed := by
  rcases skippedRow_cases row with ⟨hquery, hstate⟩ | ⟨heq, -⟩
  · rw [hstate]
    refine iff_of_false (by decide) fun h => ?_
    simp [nonFinishedQuery, h, isFinished] at hquery
  · rw [heq]

theorem failedRow_of_mem {taskIds : List TaskId} (h : row.taskId ∈ taskIds) :
    (failedRow taskIds row).state = some .failed := by
  unfold failedRow setRowState getAllDagTaskQuery
  split
  · rfl
  · next hquery =>
    simp only [h, decide_true, Bool.true_and, Bool.or_eq_true, decide_eq_true_iff, not_or,
      ne_eq, not_not] at hquery
    exact hquery.2

theorem failedRow_of_not_mem {taskIds : List TaskId} (h : row.taskId ∉ taskIds) :
    failedRow taskIds row = row := by
  unfold failedRow setRowState getAllDagTaskQuery
  rw [if_neg]
  simp [h]

/-! ## The rows after the call -/

/-- The rows that the integrity check of a failed run is made on. -/
def checkedRow (dag : DagVersion) (dagRun : DagRun) (run : RunData) (table : TaskInstanceTable)
    (row : TaskInstanceRow) : TaskInstanceRow :=
  checkTi dag (setDagRunState dagRun .failed) run (.load (skipNonFinished true table))
    (skippedRow row)

theorem mem_runningTasks_taskId {t : TaskId} :
    t ∈ (runningTasks dag table).map Operator.taskId ↔ t ∈ taskIdsOfRunningTis dag table := by
  simp only [runningTasks, List.mem_map, List.mem_filter, List.contains_eq_mem,
    decide_eq_true_iff]
  constructor
  · rintro ⟨task, ⟨-, hmem⟩, rfl⟩
    exact hmem
  · intro hmem
    obtain ⟨row, hrow, rfl⟩ := List.mem_map.mp hmem
    have hdag := (List.mem_filter.mp hrow).2
    simp only [Bool.and_eq_true, List.contains_eq_mem, decide_eq_true_iff] at hdag
    obtain ⟨task, htask, hid⟩ := List.mem_map.mp hdag.1
    exact ⟨task, ⟨htask, hid ▸ hmem⟩, hid⟩

theorem runningTasks_eq_nil : runningTasks dag table = [] ↔ taskIdsOfRunningTis dag table = [] := by
  rw [← List.map_eq_nil_iff (f := Operator.taskId), List.eq_nil_iff_forall_not_mem,
    List.eq_nil_iff_forall_not_mem]
  exact forall_congr' fun t => not_congr mem_runningTasks_taskId

/-- The last update is about the tasks with running instances. -/
theorem failedRow_runningTasks :
    failedRow ((runningTasks dag table).map Operator.taskId) =
      failedRow (taskIdsOfRunningTis dag table) := by
  funext row
  by_cases hmem : row.taskId ∈ taskIdsOfRunningTis dag table
  · unfold failedRow setRowState getAllDagTaskQuery
    simp only [hmem, mem_runningTasks_taskId]
  · rw [failedRow_of_not_mem hmem,
      failedRow_of_not_mem fun h => hmem (mem_runningTasks_taskId.mp h)]

/-- The rows after the call, without running instances. -/
theorem setDagRunStateToFailed_rows_of_nil (h : taskIdsOfRunningTis dag table = []) :
    (setDagRunStateToFailed dag dagRun run true table).2.2.rows = table.rows.map skippedRow := by
  have hnil := runningTasks_eq_nil.mpr h
  simp only [setDagRunStateToFailed, setState, hnil, List.isEmpty_nil, if_true]
  rfl

/-- The rows after the call, with running instances. -/
theorem setDagRunStateToFailed_rows (h : taskIdsOfRunningTis dag table ≠ []) :
    (setDagRunStateToFailed dag dagRun run true table).2.2.rows =
      table.rows.map (fun row =>
        failedRow (taskIdsOfRunningTis dag table) (checkedRow dag dagRun run table row)) ++
      (createTasks run (.load (skipNonFinished true table)) (tasksToCreate dag
        (setDagRunState dagRun .failed) (skipNonFinished true table))).map
          (failedRow (taskIdsOfRunningTis dag table)) := by
  have hne : (runningTasks dag table).isEmpty = false :=
    List.isEmpty_eq_false_iff.mpr fun hnil => h (runningTasks_eq_nil.mp hnil)
  have hrows : (setDagRunStateToFailed dag dagRun run true table).2.2.rows =
      (verifiedRows dag (setDagRunState dagRun .failed) run (skipNonFinished true table)).map
        (failedRow ((runningTasks dag table).map Operator.taskId)) := by
    simp only [setDagRunStateToFailed, setState, hne, Bool.false_eq_true, if_false, if_true]
    rfl
  rw [hrows, failedRow_runningTasks, verifiedRows, List.map_append, List.map_map]
  congr 1
  exact List.map_map.symm ▸ rfl

@[simp] theorem checkedRow_taskId : (checkedRow dag dagRun run table row).taskId = row.taskId :=
  (checkTi_taskId _).trans (setRowState_taskId _ _ _)

@[simp] theorem checkedRow_mapIndex :
    (checkedRow dag dagRun run table row).mapIndex = row.mapIndex :=
  (checkTi_mapIndex _).trans (setRowState_mapIndex _ _ _)

/-- A run is finished if each of its rows is, and each row created. -/
theorem finishesRun_iff_rows {later : TaskInstanceTable} {f : TaskInstanceRow → TaskInstanceRow}
    {created : List TaskInstanceRow} (hrows : later.rows = table.rows.map f ++ created)
    (htask : ∀ row, (f row).taskId = row.taskId) (hindex : ∀ row, (f row).mapIndex = row.mapIndex) :
    FinishesRun table later ↔
      (∀ row ∈ created, isFinished row.state = true) ∧ ∀ row ∈ table.rows,
        isFinished (f row).state = true ∧
          (isFinished row.state = true → (f row).state = row.state) := by
  constructor
  · intro h
    refine ⟨fun row hrow => h.finished row ?_, fun row hrow => ?_⟩
    · rw [hrows]
      exact List.mem_append_right _ hrow
    · have hmem : f row ∈ later.rows := by
        rw [hrows]
        exact List.mem_append_left _ (List.mem_map_of_mem hrow)
      exact ⟨h.finished _ hmem,
        fun hfinished => h.kept row hrow hfinished _ hmem (htask row) (hindex row)⟩
  · rintro ⟨hcreated, hold⟩
    refine ⟨fun row hrow => ?_, fun row hrow hfinished row' hrow' htask' hindex' => ?_⟩
    · rw [hrows] at hrow
      rcases List.mem_append.mp hrow with hrow | hrow
      · obtain ⟨old, hmem, rfl⟩ := List.mem_map.mp hrow
        exact (hold old hmem).1
      · exact hcreated row hrow
    · have hmem : f row ∈ later.rows := by
        rw [hrows]
        exact List.mem_append_left _ (List.mem_map_of_mem hrow)
      have hkey : (row'.taskId, row'.mapIndex) = ((f row).taskId, (f row).mapIndex) := by
        rw [htask, hindex, htask', hindex']
      rw [List.inj_on_of_nodup_map later.key_nodup hrow' hmem hkey]
      exact (hold row hrow).2 hfinished

/-! ## The two parts of the condition -/

theorem mapIndexes_ne_nil (run : RunData) (s : Session) (task : Operator) :
    mapIndexes run s task ≠ [] := by
  unfold mapIndexes
  split
  · exact List.cons_ne_nil _ _
  · exact List.cons_ne_nil _ _
  · simp

theorem taskIdsOfRunningTis_mem_rows {t : TaskId} (h : t ∈ taskIdsOfRunningTis dag table) :
    ∃ row ∈ table.rows, row.taskId = t ∧ isRunningState row.state = true := by
  obtain ⟨row, hrow, rfl⟩ := List.mem_map.mp h
  obtain ⟨hmem, hrunning⟩ := List.mem_filter.mp hrow
  simp only [Bool.and_eq_true] at hrunning
  exact ⟨row, hmem, rfl, hrunning.2⟩

theorem not_running_of_not_mem (hmem : row ∈ table.rows) (hdag : dag.getTask row.taskId = some task)
    (h : row.taskId ∉ taskIdsOfRunningTis dag table) : isRunningState row.state = false := by
  refine Bool.eq_false_iff.mpr fun hrunning => h ?_
  refine List.mem_map.mpr ⟨row, List.mem_filter.mpr ⟨hmem, ?_⟩, rfl⟩
  have hid : row.taskId ∈ dag.taskIds := Dag.getTask_mem hdag
  simp only [List.contains_eq_mem, hid, decide_true, hrunning, Bool.and_self]

theorem mem_skipNonFinished_rows {commit : Bool} {t : TaskId} :
    (∃ row ∈ (skipNonFinished commit table).rows, row.taskId = t) ↔
      ∃ row ∈ table.rows, row.taskId = t := by
  cases commit with
  | false => exact Iff.rfl
  | true =>
    constructor
    · rintro ⟨row, hrow, rfl⟩
      obtain ⟨old, hold, rfl⟩ := List.mem_map.mp hrow
      exact ⟨old, hold, (setRowState_taskId _ _ old).symm⟩
    · rintro ⟨row, hrow, rfl⟩
      exact ⟨_, List.mem_map_of_mem hrow, setRowState_taskId _ _ row⟩

/-- The rows created have no state. -/
theorem created_finished_iff :
    (∀ row ∈ (createTasks run (.load (skipNonFinished true table)) (tasksToCreate dag
        (setDagRunState dagRun .failed) (skipNonFinished true table))).map
          (failedRow (taskIdsOfRunningTis dag table)), isFinished row.state = true) ↔
      ∀ task ∈ dag.tasks, inDateRange dag dagRun task = true →
        ∃ row ∈ table.rows, row.taskId = task.taskId := by
  constructor
  · intro h task htask hdate
    by_contra hnone
    have hcreate : task ∈ tasksToCreate dag (setDagRunState dagRun .failed)
        (skipNonFinished true table) := by
      refine mem_tasksToCreate.mpr ⟨htask, hdate, fun row hrow heq => hnone ?_⟩
      exact mem_skipNonFinished_rows.mp ⟨row, hrow, heq⟩
    obtain ⟨i, hi⟩ := List.exists_mem_of_ne_nil _
      (mapIndexes_ne_nil run (.load (skipNonFinished true table)) task)
    have hfinished := h _ (List.mem_map_of_mem
      (mem_createTasks.mpr ⟨task, hcreate, i, hi, rfl⟩))
    have hnot : (insertMapping task i).taskId ∉ taskIdsOfRunningTis dag table := fun hmem => by
      obtain ⟨row, hrow, hid, -⟩ := taskIdsOfRunningTis_mem_rows hmem
      exact hnone ⟨row, hrow, hid⟩
    rw [failedRow_of_not_mem hnot] at hfinished
    cases hfinished
  · intro h row hrow
    obtain ⟨created, hcreated, -⟩ := List.mem_map.mp hrow
    obtain ⟨task, htask, -⟩ := mem_createTasks.mp hcreated
    obtain ⟨hmem, hdate, hnone⟩ := mem_tasksToCreate.mp htask
    obtain ⟨old, hold, hid⟩ := mem_skipNonFinished_rows.mpr (h task hmem hdate)
    exact absurd hid (hnone old hold)

theorem isFinished_restored {state : TIState} :
    isFinished (restored state) = true ↔ isFinished state = true ∧ state ≠ some .removed := by
  unfold restored
  by_cases h : state = some .removed
  · rw [if_pos h]
    exact iff_of_false (by decide) fun hand => hand.2 h
  · rw [if_neg h]
    exact ⟨fun hfinished => ⟨hfinished, h⟩, fun hand => hand.1⟩

/-- A row without running siblings ends finished, and as it was if it was finished, exactly if it
is finishable. -/
theorem checkedRow_ok_iff (hmem : row ∈ table.rows)
    (hnot : row.taskId ∉ taskIdsOfRunningTis dag table) :
    (isFinished (checkedRow dag dagRun run table row).state = true ∧
      (isFinished row.state = true →
        (checkedRow dag dagRun run table row).state = row.state)) ↔
      RowFinishable dag run (.load (skipNonFinished true table)) row := by
  have hid : (skippedRow row).taskId = row.taskId := setRowState_taskId _ _ row
  have hindex : (skippedRow row).mapIndex = row.mapIndex := setRowState_mapIndex _ _ row
  have hremoved : isFinished (some .removed) = true := rfl
  unfold RowFinishable checkedRow
  cases hdag : dag.getTask row.taskId with
  | none =>
    rw [checkTi_state_of_removed (hid ▸ hdag)]
    have hfailed : ¬(setDagRunState dagRun .failed).state = .running := fun h => by cases h
    dsimp only
    by_cases hpart : dag.partialDag = true
    · rw [if_pos (.inr hpart), if_pos hpart, isFinished_skippedRow]
      exact ⟨fun h => h.1, fun h => ⟨h, fun hfin => by rw [skippedRow_of_finished hfin]⟩⟩
    · rw [if_neg (not_or.mpr ⟨hfailed, hpart⟩), if_neg hpart, hremoved]
      simp only [true_and]
      exact forall_congr' fun _ => eq_comm
  | some task =>
    rw [checkTi_state_of_task (hid ▸ hdag), hindex]
    dsimp only
    split
    · rw [isFinished_restored, isFinished_skippedRow, Ne.eq_def (skippedRow row).state,
        skippedRow_state_eq_removed]
      have hrunning := not_running_of_not_mem hmem hdag hnot
      refine ⟨fun h => ⟨h.1.1.1, h.1.2⟩, fun h => ⟨⟨⟨h.1, hrunning⟩, h.2⟩, fun hfin => ?_⟩⟩
      rw [skippedRow_of_finished hfin]
      exact if_neg h.2
    · rw [hremoved]
      simp only [true_and]
      exact forall_congr' fun _ => eq_comm

/-- **Failing a run finishes it, and changes nothing that was finished, exactly if the run is
finishable.** -/
theorem finishesRun_iff (dag : DagVersion) (dagRun : DagRun) (run : RunData)
    (table : TaskInstanceTable) :
    FinishesRun table (setDagRunStateToFailed dag dagRun run true table).2.2 ↔
      Finishable dag dagRun run table := by
  unfold Finishable
  by_cases hnil : taskIdsOfRunningTis dag table = []
  · have hrows : (setDagRunStateToFailed dag dagRun run true table).2.2.rows =
        table.rows.map skippedRow ++ [] :=
      (setDagRunStateToFailed_rows_of_nil hnil).trans (List.append_nil _).symm
    rw [if_pos hnil, finishesRun_iff_rows hrows (fun row => setRowState_taskId _ _ row)
      fun row => setRowState_mapIndex _ _ row]
    simp only [isFinished_skippedRow]
    constructor
    · exact fun h row hrow => (h.2 row hrow).1
    · refine fun h => ⟨fun row hrow => absurd hrow List.not_mem_nil, fun row hrow => ⟨h row hrow,
        fun hfinished => ?_⟩⟩
      rw [skippedRow_of_finished hfinished]
  · rw [if_neg hnil, finishesRun_iff_rows (setDagRunStateToFailed_rows hnil)
      (fun row => (setRowState_taskId _ _ _).trans checkedRow_taskId)
      fun row => (setRowState_mapIndex _ _ _).trans checkedRow_mapIndex, created_finished_iff]
    refine and_congr_right fun _ => forall₂_congr fun row hrow => ?_
    split
    · next hmem =>
      have hmem' : (checkedRow dag dagRun run table row).taskId ∈
          taskIdsOfRunningTis dag table := checkedRow_taskId.symm ▸ hmem
      rw [failedRow_of_mem hmem']
      exact ⟨fun h hfinished => (h.2 hfinished).symm, fun h => ⟨rfl, fun hfin => (h hfin).symm⟩⟩
    · next hmem =>
      have hmem' : (checkedRow dag dagRun run table row).taskId ∉
          taskIdsOfRunningTis dag table := checkedRow_taskId.symm ▸ hmem
      rw [failedRow_of_not_mem hmem']
      exact checkedRow_ok_iff hrow hmem

/-- Of a task mapped over two values, an instance without a state keeps none, and one that succeeded
is failed with its sibling. -/
theorem literalDag_not_finished :
    ¬FinishesRun { rows := [{ taskId := 1, mapIndex := 0, state := none }] }
      (setDagRunStateToFailed literalDag ⟨.running, .scheduled, 0⟩ {} true
        { rows := [{ taskId := 1, mapIndex := 0, state := none }] }).2.2 ∧
    ¬FinishesRun
      { rows := [{ taskId := 1, mapIndex := 0, state := some .success },
          { taskId := 1, mapIndex := 1, state := some .running }] }
      (setDagRunStateToFailed literalDag ⟨.running, .scheduled, 0⟩ {} true
        { rows := [{ taskId := 1, mapIndex := 0, state := some .success },
            { taskId := 1, mapIndex := 1, state := some .running }] }).2.2 := by
  constructor
  · intro h
    exact absurd (h.finished { taskId := 1, mapIndex := 0, state := none } (by decide)) (by decide)
  · intro h
    have hkept := h.kept { taskId := 1, mapIndex := 0, state := some .success } (by decide) rfl
      { taskId := 1, mapIndex := 0, state := some .failed } (by decide) rfl rfl
    cases hkept

end Airflow.MarkTasks
