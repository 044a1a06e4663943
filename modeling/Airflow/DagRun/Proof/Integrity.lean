import Airflow.DagRun.Proof.MapLengths
import Airflow.DagRun.Proof.Dispatched
import Airflow.Dag.Proof.Relatives

/-!
# What `verify_integrity` guarantees (`Integrity.verifyIntegrity_iff`)

A row of a task of the DAG stays if the mapping that the task has now admits its index
(`keepsIndex`), and rows are created for the tasks that have none. `Verified` puts together what
the call is for: no task is lost, no row is left outside the mapping of its task, and a second call
changes nothing. It holds on the rows that satisfy `Reconcilable` and on no others.
-/

namespace Airflow

namespace Integrity

variable {dag : DagVersion} {dagRun : DagRun} {run : RunData} {s : Session}
  {table : TaskInstanceTable} {task : Operator} {ti : TaskInstanceRow}

/-! ## What the loop leaves of a row -/

/-- The map indexes that the loop over the rows leaves to a task of the DAG. -/
def keepsIndex (run : RunData) (s : Session) (task : Operator) (i : Int) : Bool :=
  match task.getParseTimeMappedTiCount with
  | .error .notMapped => true
  | .error .notFullyPopulated =>
    match task.getMappedTiCount run s with
    | .ok totalLength => i < totalLength
    | .error _ => i < 0
  | .ok numMappedTis => 0 ≤ i ∧ i < numMappedTis

/-- The state of a row once its task is in the DAG again. -/
def restored (state : TIState) : TIState := if state = some .removed then none else state

theorem restored_ne_removed (state : TIState) : restored state ≠ some .removed := by
  unfold restored
  split
  · simp
  · assumption

@[simp] theorem restored_restored (state : TIState) : restored (restored state) = restored state :=
  if_neg (restored_ne_removed state)

theorem isUnfinished_restored (state : TIState) :
    State.isUnfinished (restored state) = (state = some .removed || State.isUnfinished state) := by
  unfold restored
  split <;> simp_all [State.isUnfinished]

/-- **The loop restores or keeps a row that the mapping admits and removes any other.** -/
theorem checkedState_of_task (h : dag.getTask ti.taskId = some task) :
    checkedState dag dagRun run s ti =
      if keepsIndex run s task ti.mapIndex then restored ti.state else some .removed := by
  have hfold : (if ti.state = some .removed then none else ti.state) = restored ti.state := rfl
  unfold checkedState keepsIndex
  simp only [h, hfold]
  cases task.getParseTimeMappedTiCount with
  | error e =>
    cases e with
    | notMapped => rfl
    | notFullyPopulated =>
      cases task.getMappedTiCount run s with
      | error e =>
        dsimp only
        by_cases hi : ti.mapIndex < 0
        · rw [if_neg (by omega), if_pos (decide_eq_true hi)]
        · rw [if_pos (by omega), if_neg (by rwa [decide_eq_true_eq])]
      | ok n =>
        dsimp only
        by_cases hi : ti.mapIndex < n
        · rw [if_neg (by omega), if_pos (decide_eq_true hi)]
        · rw [if_pos (by omega), if_neg (by rwa [decide_eq_true_eq])]
  | ok n =>
    dsimp only
    by_cases hi : ti.mapIndex < n
    · by_cases hneg : ti.mapIndex < 0
      · rw [if_neg (by omega), if_pos hneg, if_neg (by rw [decide_eq_true_eq]; omega)]
      · rw [if_neg (by omega), if_neg hneg, if_pos (by rw [decide_eq_true_eq]; omega)]
    · rw [if_pos (by omega), if_neg (by rw [decide_eq_true_eq]; omega)]

theorem getTaskInstances_of_task (h : dag.getTask ti.taskId = some task) :
    getTaskInstances dag ti = true := by
  have hmem : ti.taskId ∈ dag.taskIds := Dag.getTask_mem h
  simp [getTaskInstances, hmem]

theorem checkTi_state_of_task (h : dag.getTask ti.taskId = some task) :
    (checkTi dag dagRun run s ti).state =
      if keepsIndex run s task ti.mapIndex then restored ti.state else some .removed := by
  rw [checkTi, if_pos (getTaskInstances_of_task h)]
  exact checkedState_of_task h

/-- A row whose task is not in the DAG. -/
theorem checkTi_state_of_removed (h : dag.getTask ti.taskId = none) :
    (checkTi dag dagRun run s ti).state =
      if dagRun.state = .running ∨ dag.partialDag = true then ti.state else some .removed := by
  unfold checkTi checkedState
  rw [h]
  dsimp only
  by_cases hpart : dag.partialDag = true
  · split <;> simp [hpart]
  · simp only [Bool.not_eq_true] at hpart
    rw [if_pos (by simp [getTaskInstances, hpart])]
    by_cases hrem : ti.state = some .removed
    · simp [hrem]
    · by_cases hrun : dagRun.state = .running <;> simp [hrem, hrun, hpart]

/-- An iteration of the loop assigns the state alone. -/
theorem checkTi_of_state (h : (checkTi dag dagRun run s ti).state = ti.state) :
    checkTi dag dagRun run s ti = ti := by
  unfold checkTi at h ⊢
  split
  · rename_i hfetched
    rw [if_pos hfetched] at h
    exact congrArg (fun state => { ti with state := state }) h
  · rfl

/-! ## What the call is for -/

/-- The indexes of the mapping that is known of a task: those below its length, and that of the
unmapped instance where no length is known. `placeholder` tells whether a task mapped over upstream
output may have its unmapped instance also when the length is known, for the expansion to come. -/
def inKnownMapping (placeholder : Bool) (run : RunData) (s : Session) (task : Operator)
    (i : Int) : Prop :=
  match task.getMappedTiCount run s with
  | .ok totalLength => (0 ≤ i ∧ i < totalLength) ∨
      (placeholder = true ∧ i = -1 ∧ task.getParseTimeMappedTiCount = .error .notFullyPopulated)
  | .error _ => i = -1

/-- After the call no task is lost, no row is left outside the mapping of its task, and a second
call changes nothing. -/
structure Verified (placeholder : Bool) (dag : DagVersion) (dagRun : DagRun) (run : RunData)
    (table : TaskInstanceTable) : Prop where
  noTaskLost : ∀ task ∈ dag.tasks, inDateRange dag dagRun task = true →
    task.getMappedTiCount run (.load (verifyIntegrity dag dagRun run table)) ≠ .ok 0 →
    ∃ row ∈ (verifyIntegrity dag dagRun run table).rows,
      row.taskId = task.taskId ∧ row.state ≠ some .removed
  noStaleRow : ∀ row ∈ (verifyIntegrity dag dagRun run table).rows, ∀ task,
    dag.getTask row.taskId = some task →
    ¬inKnownMapping placeholder run (.load (verifyIntegrity dag dagRun run table)) task
      row.mapIndex → row.state = some .removed
  settled : verifyIntegrity dag dagRun run (verifyIntegrity dag dagRun run table) =
    verifyIntegrity dag dagRun run table

/-! ## The rows it is met on -/

/-- A session in which the tasks given are the ones with an unfinished instance. -/
def waitingFor (unfinished : TaskId → Bool) : Session where
  tis t := if unfinished t then [⟨-1, none, none, false, false, false, false⟩] else []

/-- Whether task `t` has an unfinished instance when its rows have been restored or removed, or
created where it had none. -/
def unfinishedNext (dag : DagVersion) (dagRun : DagRun) (run : RunData) (table : TaskInstanceTable)
    (t : TaskId) : Bool :=
  match dag.getTask t with
  | none => (dagRun.state = .running || dag.partialDag) &&
      table.rows.any fun row => row.taskId = t && State.isUnfinished row.state
  | some task =>
    (inDateRange dag dagRun task && table.rows.all fun row => row.taskId ≠ t) ||
      table.rows.any fun row => row.taskId = t && keepsIndex run (.load table) task row.mapIndex &&
        (row.state = some .removed || State.isUnfinished row.state)

/-- What the lengths of the mapped tasks will be read from, foreseen from the rows before. -/
def foreseen (dag : DagVersion) (dagRun : DagRun) (run : RunData) (table : TaskInstanceTable) :
    Session :=
  waitingFor (unfinishedNext dag dagRun run table)

/-- The rows and the DAG that `verify_integrity` does its work on. -/
structure Reconcilable (placeholder : Bool) (dag : DagVersion) (dagRun : DagRun) (run : RunData)
    (table : TaskInstanceTable) : Prop where
  /-- A task that has rows has one with an index that is kept. -/
  hasPlace : ∀ task ∈ dag.tasks, inDateRange dag dagRun task = true →
    task.getMappedTiCount run (foreseen dag dagRun run table) ≠ .ok 0 →
    (∀ row ∈ table.rows, row.taskId ≠ task.taskId) ∨
      ∃ row ∈ table.rows, row.taskId = task.taskId ∧
        keepsIndex run (.load table) task row.mapIndex = true
  /-- A task that is not mapped has no row of a mapped instance. -/
  notMapped : ∀ row ∈ table.rows, ∀ task, dag.getTask row.taskId = some task →
    task.getParseTimeMappedTiCount = .error .notMapped → row.mapIndex = -1
  /-- A task mapped over upstream output has no row of the unmapped instance when its length is
  known, unless that row is a placeholder. -/
  expanded : ∀ row ∈ table.rows, ∀ task, dag.getTask row.taskId = some task →
    task.getParseTimeMappedTiCount = .error .notFullyPopulated → placeholder = false →
    ∀ n, task.getMappedTiCount run (foreseen dag dagRun run table) = .ok n → row.mapIndex ≠ -1
  /-- The same indexes are kept after the upstream rows were restored, removed and created. -/
  steady : ∀ row ∈ table.rows, ∀ task, dag.getTask row.taskId = some task →
    keepsIndex run (foreseen dag dagRun run table) task row.mapIndex =
      keepsIndex run (.load table) task row.mapIndex
  /-- No task without rows is mapped over an empty literal. -/
  newLiteral : ∀ task ∈ tasksToCreate dag dagRun table, task.getParseTimeMappedTiCount ≠ .ok 0
  /-- For a task without rows that is mapped over upstream output, a length above zero stays
  known, -/
  newKnown : ∀ task ∈ tasksToCreate dag dagRun table,
    task.getParseTimeMappedTiCount = .error .notFullyPopulated →
    ∀ n, 0 < n → task.getMappedTiCount run (.load table) = .ok n →
      task.getMappedTiCount run (foreseen dag dagRun run table) = .ok n
  /-- and, if its row is no placeholder, no other length becomes known. -/
  newUnknown : ∀ task ∈ tasksToCreate dag dagRun table,
    task.getParseTimeMappedTiCount = .error .notFullyPopulated → placeholder = false →
    ∀ n, task.getMappedTiCount run (foreseen dag dagRun run table) = .ok n →
      task.getMappedTiCount run (.load table) = .ok n ∧ 0 < n

/-! ## The session after the call -/

theorem mem_verifyIntegrity {row : TaskInstanceRow} :
    row ∈ (verifyIntegrity dag dagRun run table).rows ↔
      (∃ old ∈ table.rows, checkTi dag dagRun run (.load table) old = row) ∨
        ∃ task ∈ tasksToCreate dag dagRun table, ∃ i ∈ mapIndexes run (.load table) task,
          insertMapping task i = row := by
  rw [← mem_createTasks, ← List.mem_map, ← List.mem_append]
  rfl

theorem exists_mem_mapIndexes (task : Operator) : ∃ i, i ∈ mapIndexes run s task := by
  unfold mapIndexes
  split
  · exact ⟨-1, List.mem_singleton_self _⟩
  · exact ⟨-1, List.mem_singleton_self _⟩
  · exact ⟨0, List.mem_map.mpr ⟨0, by simp, rfl⟩⟩

theorem unfinishedTiExists_load (table : TaskInstanceTable) (t : TaskId) :
    (Session.load table).unfinishedTiExists t = true ↔
      ∃ row ∈ table.rows, row.taskId = t ∧ State.isUnfinished row.state = true := by
  simp [Session.unfinishedTiExists, Session.rowsOf, Session.load, TaskInstanceRow.load]

theorem unfinishedTiExists_waitingFor (unfinished : TaskId → Bool) (t : TaskId) :
    (waitingFor unfinished).unfinishedTiExists t = unfinished t := by
  cases h : unfinished t <;>
    simp [Session.unfinishedTiExists, Session.rowsOf, waitingFor, h, State.isUnfinished]

/-- `unfinishedNext` for a task of the DAG. -/
theorem unfinishedNext_of_task {t : TaskId} (h : dag.getTask t = some task) :
    unfinishedNext dag dagRun run table t = true ↔
      (inDateRange dag dagRun task = true ∧ ∀ row ∈ table.rows, row.taskId ≠ t) ∨
        ∃ row ∈ table.rows, row.taskId = t ∧ keepsIndex run (.load table) task row.mapIndex = true ∧
          (row.state = some .removed ∨ State.isUnfinished row.state = true) := by
  simp [unfinishedNext, h, and_assoc]

theorem unfinishedNext_of_removed {t : TaskId} (h : dag.getTask t = none) :
    unfinishedNext dag dagRun run table t = true ↔
      (dagRun.state = .running ∨ dag.partialDag = true) ∧
        ∃ row ∈ table.rows, row.taskId = t ∧ State.isUnfinished row.state = true := by
  simp [unfinishedNext, h]

theorem isUnfinished_checkTi_of_task (h : dag.getTask ti.taskId = some task) :
    State.isUnfinished (checkTi dag dagRun run s ti).state = true ↔
      keepsIndex run s task ti.mapIndex = true ∧
        (ti.state = some .removed ∨ State.isUnfinished ti.state = true) := by
  rw [checkTi_state_of_task h]
  by_cases hkeep : keepsIndex run s task ti.mapIndex = true
  · simp [hkeep, isUnfinished_restored]
  · simp [hkeep, State.isUnfinished]

theorem isUnfinished_checkTi_of_removed (h : dag.getTask ti.taskId = none) :
    State.isUnfinished (checkTi dag dagRun run s ti).state = true ↔
      (dagRun.state = .running ∨ dag.partialDag = true) ∧ State.isUnfinished ti.state = true := by
  rw [checkTi_state_of_removed h]
  by_cases hkeep : dagRun.state = .running ∨ dag.partialDag = true
  · simp [hkeep]
  · rw [if_neg hkeep]
    simp [hkeep, State.isUnfinished]

/-- **The tasks that have an unfinished instance after the call.** -/
theorem unfinishedTiExists_verifyIntegrity (t : TaskId) :
    (Session.load (verifyIntegrity dag dagRun run table)).unfinishedTiExists t =
      unfinishedNext dag dagRun run table t := by
  rw [Bool.eq_iff_iff, unfinishedTiExists_load]
  cases htask : dag.getTask t with
  | none =>
    rw [unfinishedNext_of_removed htask]
    constructor
    · rintro ⟨row, hrow, rfl, hunf⟩
      rcases mem_verifyIntegrity.mp hrow with ⟨old, hold, rfl⟩ | ⟨task, hmem, i, -, rfl⟩
      · rw [checkTi_taskId] at htask ⊢
        obtain ⟨hrun, hold'⟩ := (isUnfinished_checkTi_of_removed htask).mp hunf
        exact ⟨hrun, old, hold, rfl, hold'⟩
      · have hself := Dag.getTask_self (mem_tasksToCreate.mp hmem).1
        exact absurd (htask.symm.trans hself) (by simp)
    · rintro ⟨hrun, old, hold, rfl, hunf⟩
      exact ⟨_, mem_verifyIntegrity.mpr (.inl ⟨old, hold, rfl⟩), checkTi_taskId old,
        (isUnfinished_checkTi_of_removed htask).mpr ⟨hrun, hunf⟩⟩
  | some task =>
    have hid := Dag.getTask_taskId htask
    rw [unfinishedNext_of_task htask]
    constructor
    · rintro ⟨row, hrow, rfl, hunf⟩
      rcases mem_verifyIntegrity.mp hrow with ⟨old, hold, rfl⟩ | ⟨task', hmem, i, -, rfl⟩
      · rw [checkTi_taskId] at htask ⊢
        obtain ⟨hkeep, hstate⟩ := (isUnfinished_checkTi_of_task htask).mp hunf
        exact .inr ⟨old, hold, rfl, hkeep, hstate⟩
      · obtain ⟨htask', hdate, hnone⟩ := mem_tasksToCreate.mp hmem
        have hself := Dag.getTask_self htask'
        have heq : task' = task := Option.some.inj (hself.symm.trans htask)
        exact .inl ⟨heq ▸ hdate, hnone⟩
    · rintro (⟨hdate, hnone⟩ | ⟨old, hold, rfl, hkeep, hstate⟩)
      · obtain ⟨i, hi⟩ : ∃ i, i ∈ mapIndexes run (.load table) task :=
          exists_mem_mapIndexes task
        have hmem : task ∈ tasksToCreate dag dagRun table :=
          mem_tasksToCreate.mpr ⟨List.mem_of_find?_eq_some htask, hdate, hid ▸ hnone⟩
        exact ⟨_, mem_verifyIntegrity.mpr (.inr ⟨task, hmem, i, hi, rfl⟩), hid, rfl⟩
      · exact ⟨_, mem_verifyIntegrity.mpr (.inl ⟨old, hold, rfl⟩), checkTi_taskId old,
          (isUnfinished_checkTi_of_task htask).mpr ⟨hkeep, hstate⟩⟩

theorem getMappedTiCount_verifyIntegrity (task : Operator) :
    task.getMappedTiCount run (.load (verifyIntegrity dag dagRun run table)) =
      task.getMappedTiCount run (foreseen dag dagRun run table) :=
  Operator.getMappedTiCount_congr fun t _ => by
    rw [unfinishedTiExists_verifyIntegrity, foreseen, unfinishedTiExists_waitingFor]

theorem keepsIndex_verifyIntegrity (task : Operator) (i : Int) :
    keepsIndex run (.load (verifyIntegrity dag dagRun run table)) task i =
      keepsIndex run (foreseen dag dagRun run table) task i := by
  unfold keepsIndex
  rw [getMappedTiCount_verifyIntegrity]

theorem inKnownMapping_verifyIntegrity (placeholder : Bool) (task : Operator) (i : Int) :
    inKnownMapping placeholder run (.load (verifyIntegrity dag dagRun run table)) task i ↔
      inKnownMapping placeholder run (foreseen dag dagRun run table) task i := by
  unfold inKnownMapping
  rw [getMappedTiCount_verifyIntegrity]

/-! ## Indexes -/

theorem keepsIndex_of_notMapped {i : Int}
    (h : task.getParseTimeMappedTiCount = .error .notMapped) : keepsIndex run s task i = true := by
  rw [keepsIndex, h]

/-- The unmapped instance of a task that waits for the length of upstream output. -/
theorem keepsIndex_neg_one (h : task.getParseTimeMappedTiCount = .error .notFullyPopulated) :
    keepsIndex run s task (-1) = true := by
  rw [keepsIndex, h]
  cases task.getMappedTiCount run s with
  | error e => rfl
  | ok n =>
    show decide (-1 < (n : Int)) = true
    rw [decide_eq_true_eq]
    omega

theorem keepsIndex_of_inKnownMapping {placeholder : Bool} {i : Int}
    (h : inKnownMapping placeholder run s task i) : keepsIndex run s task i = true := by
  unfold inKnownMapping at h
  cases hparse : task.getParseTimeMappedTiCount with
  | ok n =>
    rw [Operator.getMappedTiCount_of_parseTime hparse] at h
    rcases h with hin | ⟨-, -, hparse'⟩
    · simpa [keepsIndex, hparse] using hin
    · exact absurd (hparse.symm.trans hparse') (by simp)
  | error e =>
    cases e with
    | notMapped => exact keepsIndex_of_notMapped hparse
    | notFullyPopulated =>
      cases htotal : task.getMappedTiCount run s with
      | error e =>
        rw [htotal] at h
        exact h ▸ keepsIndex_neg_one hparse
      | ok n =>
        rw [htotal] at h
        rcases h with hin | ⟨-, rfl, -⟩
        · simpa [keepsIndex, hparse, htotal] using hin.2
        · exact keepsIndex_neg_one hparse

/-- An index that is kept is outside the known mapping only for a task that is not mapped or, as
the unmapped instance, for one whose length is known from upstream. -/
theorem inKnownMapping_of_keepsIndex {placeholder : Bool} {i : Int} (hi : -1 ≤ i)
    (h : keepsIndex run s task i = true) :
    inKnownMapping placeholder run s task i ↔
      (task.getParseTimeMappedTiCount = .error .notMapped → i = -1) ∧
      (task.getParseTimeMappedTiCount = .error .notFullyPopulated → placeholder = false →
        ∀ n, task.getMappedTiCount run s = .ok n → i ≠ -1) := by
  unfold keepsIndex at h
  unfold inKnownMapping
  cases hparse : task.getParseTimeMappedTiCount with
  | ok n =>
    rw [hparse] at h
    rw [Operator.getMappedTiCount_of_parseTime hparse]
    simpa using h
  | error e =>
    rw [hparse] at h
    cases e with
    | notMapped =>
      rw [Operator.getMappedTiCount_eq_notMapped.mpr hparse]
      simp
    | notFullyPopulated =>
      cases htotal : task.getMappedTiCount run s with
      | error e =>
        simp only [htotal, decide_eq_true_eq] at h
        simp only [reduceCtorEq, false_implies, implies_true, and_true]
        omega
      | ok n =>
        simp only [htotal, decide_eq_true_eq] at h
        cases placeholder
        · simp only [reduceCtorEq, Except.error.injEq, Except.ok.injEq, false_implies, true_and,
            forall_const, forall_eq', false_and, or_false]
          omega
        · refine ⟨fun _ => ⟨by simp, by simp⟩, fun _ => ?_⟩
          by_cases hneg : i = -1
          · exact .inr ⟨rfl, hneg, rfl⟩
          · exact .inl ⟨by omega, h⟩

theorem mem_range_map {n : Nat} {i : Int} :
    i ∈ (List.range n).map Int.ofNat ↔ 0 ≤ i ∧ i < n := by
  rw [List.mem_map]
  constructor
  · rintro ⟨k, hk, rfl⟩
    have := List.mem_range.mp hk
    simp only [Int.ofNat_eq_natCast]
    omega
  · intro hi
    exact ⟨i.toNat, List.mem_range.mpr (by omega), Int.toNat_of_nonneg hi.1⟩

theorem mapIndexes_of_length {n : Nat} (h : task.getMappedTiCount run s = .ok (n + 1)) :
    mapIndexes run s task = (List.range (n + 1)).map Int.ofNat := by
  rw [mapIndexes, h]

theorem mapIndexes_of_no_length (h : ∀ n, task.getMappedTiCount run s ≠ .ok (n + 1)) :
    mapIndexes run s task = [-1] := by
  unfold mapIndexes
  split
  · rfl
  · rfl
  · exact absurd ‹_› (h _)

theorem inKnownMapping_of_length {placeholder : Bool} {n : Nat} {i : Int} (hi : i ≠ -1)
    (h : task.getMappedTiCount run s = .ok n) :
    inKnownMapping placeholder run s task i ↔ 0 ≤ i ∧ i < n := by
  rw [inKnownMapping, h]
  simp [hi]

theorem inKnownMapping_neg_one_iff {placeholder : Bool} :
    inKnownMapping placeholder run s task (-1) ↔
      (∃ n, task.getMappedTiCount run s = .ok n) → placeholder = true ∧
        task.getParseTimeMappedTiCount = .error .notFullyPopulated := by
  unfold inKnownMapping
  cases task.getMappedTiCount run s with
  | error e => simp
  | ok n => simp

/-- The rows of a task with literals are in its mapping exactly if that is not empty. -/
theorem mapIndexes_literal {placeholder : Bool} {s' : Session} {n : Nat}
    (hparse : task.getParseTimeMappedTiCount = .ok n) :
    (∀ i ∈ mapIndexes run s task, inKnownMapping placeholder run s' task i) ↔ n ≠ 0 := by
  have htotal : task.getMappedTiCount run s = .ok n := Operator.getMappedTiCount_of_parseTime hparse
  have htotal' : task.getMappedTiCount run s' = .ok n :=
    Operator.getMappedTiCount_of_parseTime hparse
  cases n with
  | zero =>
    rw [mapIndexes_of_no_length (by simp [htotal])]
    simp [inKnownMapping_neg_one_iff, htotal', hparse]
  | succ n =>
    rw [mapIndexes_of_length htotal]
    refine iff_of_true (fun i hi => ?_) n.succ_ne_zero
    have hin := mem_range_map.mp hi
    exact (inKnownMapping_of_length (by omega) htotal').mpr hin

/-- Those of a task mapped over upstream output are in the mapping known afterwards (`s'`) exactly
if a length above zero is still known, and no other one has become known. -/
theorem mapIndexes_upstream {placeholder : Bool} {s' : Session}
    (hparse : task.getParseTimeMappedTiCount = .error .notFullyPopulated) :
    (∀ i ∈ mapIndexes run s task, inKnownMapping placeholder run s' task i) ↔
      (∀ n, 0 < n → task.getMappedTiCount run s = .ok n →
        task.getMappedTiCount run s' = .ok n) ∧
      (placeholder = false → ∀ n, task.getMappedTiCount run s' = .ok n →
        task.getMappedTiCount run s = .ok n ∧ 0 < n) := by
  by_cases hlength : ∃ n, task.getMappedTiCount run s = .ok (n + 1)
  · obtain ⟨n, htotal⟩ := hlength
    rw [mapIndexes_of_length htotal]
    constructor
    · intro h
      have hzero := h 0 (mem_range_map.mpr (by omega))
      have hknown : task.getMappedTiCount run s' = .ok (n + 1) := by
        cases htotal' : task.getMappedTiCount run s' with
        | error e => simp [inKnownMapping, htotal'] at hzero
        | ok m => rw [Operator.getMappedTiCount_unique htotal htotal']
      refine ⟨fun m _ hm => ?_, fun _ m hm => ?_⟩
      · rw [hknown, Operator.getMappedTiCount_unique htotal hm]
      · rw [← Operator.getMappedTiCount_unique htotal hm]
        exact ⟨htotal, n.succ_pos⟩
    · rintro ⟨hknown, -⟩ i hi
      have hin := mem_range_map.mp hi
      exact (inKnownMapping_of_length (by omega) (hknown _ n.succ_pos htotal)).mpr hin
  · have hno : ∀ n, task.getMappedTiCount run s ≠ .ok (n + 1) := fun n h => hlength ⟨n, h⟩
    have hzero : ∀ n, task.getMappedTiCount run s = .ok n → n = 0 := by
      intro n hn
      cases n with
      | zero => rfl
      | succ n => exact absurd hn (hno n)
    rw [mapIndexes_of_no_length hno, List.forall_mem_singleton, inKnownMapping_neg_one_iff]
    constructor
    · intro h
      refine ⟨fun n hn htotal => absurd (hzero n htotal) (by omega), fun hp n htotal' => ?_⟩
      exact absurd (h ⟨n, htotal'⟩).1 (by simp [hp])
    · rintro ⟨-, hunknown⟩ ⟨n, htotal'⟩
      refine ⟨?_, hparse⟩
      by_contra hp
      obtain ⟨htotal, hpos⟩ := hunknown (by simpa using hp) n htotal'
      have := hzero n htotal
      omega

/-- Where a task that gets its rows has them in the mapping known afterwards. -/
theorem mapIndexes_inKnownMapping_iff {placeholder : Bool} {s' : Session} :
    (∀ i ∈ mapIndexes run s task, inKnownMapping placeholder run s' task i) ↔
      task.getParseTimeMappedTiCount ≠ .ok 0 ∧
      (task.getParseTimeMappedTiCount = .error .notFullyPopulated →
        ∀ n, 0 < n → task.getMappedTiCount run s = .ok n → task.getMappedTiCount run s' = .ok n) ∧
      (task.getParseTimeMappedTiCount = .error .notFullyPopulated → placeholder = false →
        ∀ n, task.getMappedTiCount run s' = .ok n →
          task.getMappedTiCount run s = .ok n ∧ 0 < n) := by
  cases hparse : task.getParseTimeMappedTiCount with
  | ok n =>
    rw [mapIndexes_literal hparse]
    simp
  | error e =>
    cases e with
    | notFullyPopulated =>
      rw [mapIndexes_upstream hparse]
      simp
    | notMapped =>
      have htotal : ∀ s, task.getMappedTiCount run s = .error .notMapped :=
        fun s => Operator.getMappedTiCount_eq_notMapped.mpr hparse
      rw [mapIndexes_of_no_length (by simp [htotal])]
      simp [inKnownMapping, htotal]

/-! ## Each part of `Verified` -/

theorem taskOf_insertMapping {i : Int} {task' : Operator} (hmem : task' ∈ dag.tasks)
    (h : dag.getTask (insertMapping task' i).taskId = some task) : task' = task :=
  Option.some.inj ((Dag.getTask_self hmem).symm.trans h)

/-- A task keeps or gets a row exactly if it had none or one with an index that is kept. -/
theorem exists_row_iff (htask : task ∈ dag.tasks) (hdate : inDateRange dag dagRun task = true) :
    (∃ row ∈ (verifyIntegrity dag dagRun run table).rows,
      row.taskId = task.taskId ∧ row.state ≠ some .removed) ↔
    (∀ row ∈ table.rows, row.taskId ≠ task.taskId) ∨
      ∃ row ∈ table.rows, row.taskId = task.taskId ∧
        keepsIndex run (.load table) task row.mapIndex = true := by
  constructor
  · rintro ⟨row, hrow, hid, hstate⟩
    rcases mem_verifyIntegrity.mp hrow with ⟨old, hold, rfl⟩ | ⟨task', hmem, i, -, rfl⟩
    · rw [checkTi_taskId] at hid
      have hget : dag.getTask old.taskId = some task := hid ▸ Dag.getTask_self htask
      rw [checkTi_state_of_task hget] at hstate
      refine .inr ⟨old, hold, hid, ?_⟩
      by_contra hkeep
      exact hstate (if_neg hkeep)
    · obtain ⟨-, -, hnone⟩ := mem_tasksToCreate.mp hmem
      exact .inl fun row hrow h => hnone row hrow (h.trans hid.symm)
  · rintro (hnone | ⟨old, hold, hid, hkeep⟩)
    · obtain ⟨i, hi⟩ : ∃ i, i ∈ mapIndexes run (.load table) task := exists_mem_mapIndexes task
      have hmem := mem_tasksToCreate.mpr ⟨htask, hdate, hnone⟩
      exact ⟨insertMapping task i, mem_verifyIntegrity.mpr (.inr ⟨task, hmem, i, hi, rfl⟩), rfl,
        by simp [insertMapping]⟩
    · have hget : dag.getTask old.taskId = some task := hid ▸ Dag.getTask_self htask
      refine ⟨_, mem_verifyIntegrity.mpr (.inl ⟨old, hold, rfl⟩), by simpa using hid, ?_⟩
      rw [checkTi_state_of_task hget, if_pos hkeep]
      exact restored_ne_removed old.state

/-- A row is stale after the call if it was kept there or created there. -/
theorem noStaleRow_iff (out : Operator → Int → Prop) :
    (∀ row ∈ (verifyIntegrity dag dagRun run table).rows, ∀ task,
      dag.getTask row.taskId = some task → out task row.mapIndex →
        row.state = some .removed) ↔
    (∀ row ∈ table.rows, ∀ task, dag.getTask row.taskId = some task →
      out task row.mapIndex → keepsIndex run (.load table) task row.mapIndex = false) ∧
    ∀ task ∈ tasksToCreate dag dagRun table, ∀ i ∈ mapIndexes run (.load table) task,
      ¬out task i := by
  constructor
  · intro h
    constructor
    · intro row hrow task htask hout
      have hstate := h _ (mem_verifyIntegrity.mpr (.inl ⟨row, hrow, rfl⟩)) task
        (by rwa [checkTi_taskId]) (by rwa [checkTi_mapIndex])
      rw [checkTi_state_of_task htask] at hstate
      by_contra hkeep
      rw [Bool.not_eq_false] at hkeep
      exact restored_ne_removed row.state ((if_pos hkeep).symm.trans hstate)
    · intro task hmem i hi hout
      have htask := Dag.getTask_self (mem_tasksToCreate.mp hmem).1
      have hstate := h _ (mem_verifyIntegrity.mpr (.inr ⟨task, hmem, i, hi, rfl⟩)) task htask hout
      simp [insertMapping] at hstate
  · rintro ⟨hrows, hnew⟩ row hrow task htask hout
    rcases mem_verifyIntegrity.mp hrow with ⟨old, hold, rfl⟩ | ⟨task', hmem, i, hi, rfl⟩
    · rw [checkTi_taskId] at htask
      rw [checkTi_mapIndex] at hout
      rw [checkTi_state_of_task htask, hrows old hold task htask hout]
      rfl
    · obtain rfl := taskOf_insertMapping (mem_tasksToCreate.mp hmem).1 htask
      exact absurd hout (hnew task' hmem i hi)

/-! ## The second call -/

theorem tasksToCreate_verifyIntegrity :
    tasksToCreate dag dagRun (verifyIntegrity dag dagRun run table) = [] := by
  refine List.eq_nil_iff_forall_not_mem.mpr fun task hmem => ?_
  obtain ⟨htask, hdate, hnone⟩ := mem_tasksToCreate.mp hmem
  by_cases hrows : ∀ row ∈ table.rows, row.taskId ≠ task.taskId
  · obtain ⟨i, hi⟩ : ∃ i, i ∈ mapIndexes run (.load table) task := exists_mem_mapIndexes task
    have hmem' := mem_tasksToCreate.mpr ⟨htask, hdate, hrows⟩
    exact hnone _ (mem_verifyIntegrity.mpr (.inr ⟨task, hmem', i, hi, rfl⟩)) rfl
  · push Not at hrows
    obtain ⟨row, hrow, hid⟩ := hrows
    exact hnone _ (mem_verifyIntegrity.mpr (.inl ⟨row, hrow, rfl⟩)) (by simpa using hid)

theorem table_ext {table table' : TaskInstanceTable} (h : table.rows = table'.rows) :
    table = table' := by
  cases table
  cases table'
  cases h
  rfl

/-- A second call creates nothing, so that it changes nothing exactly if it leaves every row. -/
theorem settled_iff_rows :
    verifyIntegrity dag dagRun run (verifyIntegrity dag dagRun run table) =
      verifyIntegrity dag dagRun run table ↔
    ∀ row ∈ (verifyIntegrity dag dagRun run table).rows,
      (checkTi dag dagRun run (.load (verifyIntegrity dag dagRun run table)) row).state =
        row.state := by
  generalize hafter : verifyIntegrity dag dagRun run table = after
  have hcreate : tasksToCreate dag dagRun after = [] := hafter ▸ tasksToCreate_verifyIntegrity
  have hrows : (verifyIntegrity dag dagRun run after).rows =
      after.rows.map (checkTi dag dagRun run (.load after)) := by
    show verifiedRows dag dagRun run after = _
    rw [verifiedRows, hcreate, createTasks, List.flatMap_nil, List.append_nil]
  constructor
  · intro h row hrow
    have hmap : after.rows.map (checkTi dag dagRun run (.load after)) = after.rows.map id := by
      rw [← hrows, h, List.map_id]
    exact congrArg TaskInstanceRow.state (List.map_inj_left.mp hmap row hrow)
  · intro h
    have hrow : ∀ row ∈ after.rows, checkTi dag dagRun run (.load after) row = id row :=
      fun row hrow => checkTi_of_state (h row hrow)
    refine table_ext ?_
    rw [hrows, List.map_congr_left hrow, List.map_id]

/-- A row is left by the second call exactly if its index is kept as it was in the first. -/
theorem checkTi_checkTi_state (h : dag.getTask ti.taskId = some task) (s' : Session) :
    (checkTi dag dagRun run s' (checkTi dag dagRun run s ti)).state =
        (checkTi dag dagRun run s ti).state ↔
      keepsIndex run s' task ti.mapIndex = keepsIndex run s task ti.mapIndex := by
  have h' : dag.getTask (checkTi dag dagRun run s ti).taskId = some task := by
    rwa [checkTi_taskId]
  rw [checkTi_state_of_task h', checkTi_state_of_task h, checkTi_mapIndex]
  have hne := restored_ne_removed ti.state
  cases keepsIndex run s' task ti.mapIndex <;> cases keepsIndex run s task ti.mapIndex
  · simp
  · simpa using hne.symm
  · simp [restored]
  · simp

theorem checkTi_checkTi_of_removed (h : dag.getTask ti.taskId = none) (s' : Session) :
    (checkTi dag dagRun run s' (checkTi dag dagRun run s ti)).state =
      (checkTi dag dagRun run s ti).state := by
  have h' : dag.getTask (checkTi dag dagRun run s ti).taskId = none := by
    rwa [checkTi_taskId]
  rw [checkTi_state_of_removed h', checkTi_state_of_removed h]
  split <;> rfl

theorem checkTi_insertMapping_state {i : Int} (htask : task ∈ dag.tasks) :
    (checkTi dag dagRun run s (insertMapping task i)).state = (insertMapping task i).state ↔
      keepsIndex run s task i = true := by
  rw [checkTi_state_of_task (Dag.getTask_self htask)]
  cases hkeep : keepsIndex run s task i <;> simp [insertMapping, restored, hkeep]

theorem settled_iff :
    verifyIntegrity dag dagRun run (verifyIntegrity dag dagRun run table) =
      verifyIntegrity dag dagRun run table ↔
    (∀ row ∈ table.rows, ∀ task, dag.getTask row.taskId = some task →
      keepsIndex run (foreseen dag dagRun run table) task row.mapIndex =
        keepsIndex run (.load table) task row.mapIndex) ∧
    ∀ task ∈ tasksToCreate dag dagRun table, ∀ i ∈ mapIndexes run (.load table) task,
      keepsIndex run (foreseen dag dagRun run table) task i = true := by
  rw [settled_iff_rows]
  constructor
  · intro h
    constructor
    · intro row hrow task htask
      rw [← keepsIndex_verifyIntegrity]
      exact (checkTi_checkTi_state htask _).mp
        (h _ (mem_verifyIntegrity.mpr (.inl ⟨row, hrow, rfl⟩)))
    · intro task hmem i hi
      rw [← keepsIndex_verifyIntegrity]
      exact (checkTi_insertMapping_state (mem_tasksToCreate.mp hmem).1).mp
        (h _ (mem_verifyIntegrity.mpr (.inr ⟨task, hmem, i, hi, rfl⟩)))
  · rintro ⟨hrows, hnew⟩ row hrow
    rcases mem_verifyIntegrity.mp hrow with ⟨old, hold, rfl⟩ | ⟨task, hmem, i, hi, rfl⟩
    · cases htask : dag.getTask old.taskId with
      | none => exact checkTi_checkTi_of_removed htask _
      | some task =>
        rw [checkTi_checkTi_state htask, keepsIndex_verifyIntegrity]
        exact hrows old hold task htask
    · rw [checkTi_insertMapping_state (mem_tasksToCreate.mp hmem).1, keepsIndex_verifyIntegrity]
      exact hnew task hmem i hi

/-! ## The whole call -/

section
variable {placeholder : Bool}

theorem Verified.reconcilable (h : Verified placeholder dag dagRun run table) :
    Reconcilable placeholder dag dagRun run table := by
  obtain ⟨hlost, hstale, hsettled⟩ := h
  obtain ⟨hsteady, -⟩ := settled_iff.mp hsettled
  obtain ⟨hrows, hnew⟩ := (noStaleRow_iff fun task i => ¬inKnownMapping placeholder run
    (.load (verifyIntegrity dag dagRun run table)) task i).mp hstale
  -- a row that is kept, before as after the call, is in the mapping known afterwards
  have hin : ∀ row ∈ table.rows, ∀ task, dag.getTask row.taskId = some task →
      keepsIndex run (foreseen dag dagRun run table) task row.mapIndex = true →
      inKnownMapping placeholder run (foreseen dag dagRun run table) task row.mapIndex := by
    intro row hrow task htask hkeep
    rw [← inKnownMapping_verifyIntegrity]
    by_contra hout
    have := hrows row hrow task htask hout
    rw [← hsteady row hrow task htask, hkeep] at this
    cases this
  have hcreated : ∀ task ∈ tasksToCreate dag dagRun table,
      ∀ i ∈ mapIndexes run (.load table) task,
        inKnownMapping placeholder run (foreseen dag dagRun run table) task i := by
    intro task hmem i hi
    rw [← inKnownMapping_verifyIntegrity]
    exact not_not.mp (hnew task hmem i hi)
  refine ⟨fun task htask hdate hne => ?_, fun row hrow task htask hparse => ?_,
    fun row hrow task htask hparse hp n hn hi => ?_, hsteady, fun task hmem => ?_,
    fun task hmem => ?_, fun task hmem => ?_⟩
  · rw [← getMappedTiCount_verifyIntegrity] at hne
    exact (exists_row_iff htask hdate).mp (hlost task htask hdate hne)
  · have hkeep : keepsIndex run (foreseen dag dagRun run table) task row.mapIndex = true :=
      keepsIndex_of_notMapped hparse
    exact ((inKnownMapping_of_keepsIndex (table.mapIndex_ge row hrow) hkeep).mp
      (hin row hrow task htask hkeep)).1 hparse
  · have hkeep : keepsIndex run (foreseen dag dagRun run table) task row.mapIndex = true :=
      hi ▸ keepsIndex_neg_one hparse
    exact ((inKnownMapping_of_keepsIndex (table.mapIndex_ge row hrow) hkeep).mp
      (hin row hrow task htask hkeep)).2 hparse hp n hn hi
  · exact (mapIndexes_inKnownMapping_iff.mp (hcreated task hmem)).1
  · exact (mapIndexes_inKnownMapping_iff.mp (hcreated task hmem)).2.1
  · exact (mapIndexes_inKnownMapping_iff.mp (hcreated task hmem)).2.2

theorem Reconcilable.verified (h : Reconcilable placeholder dag dagRun run table) :
    Verified placeholder dag dagRun run table := by
  have hcreated : ∀ task ∈ tasksToCreate dag dagRun table,
      ∀ i ∈ mapIndexes run (.load table) task,
        inKnownMapping placeholder run (foreseen dag dagRun run table) task i :=
    fun task hmem => mapIndexes_inKnownMapping_iff.mpr
      ⟨h.newLiteral task hmem, h.newKnown task hmem, h.newUnknown task hmem⟩
  refine ⟨fun task htask hdate hne => ?_, ?_, ?_⟩
  · rw [getMappedTiCount_verifyIntegrity] at hne
    exact (exists_row_iff htask hdate).mpr (h.hasPlace task htask hdate hne)
  · refine (noStaleRow_iff fun task i => ¬inKnownMapping placeholder run
      (.load (verifyIntegrity dag dagRun run table)) task i).mpr
        ⟨fun row hrow task htask hout => ?_, fun task hmem i hi hout => ?_⟩
    · rw [inKnownMapping_verifyIntegrity] at hout
      rw [← h.steady row hrow task htask]
      by_contra hkeep
      rw [Bool.not_eq_false] at hkeep
      exact hout ((inKnownMapping_of_keepsIndex (table.mapIndex_ge row hrow) hkeep).mpr
        ⟨h.notMapped row hrow task htask, h.expanded row hrow task htask⟩)
    · rw [inKnownMapping_verifyIntegrity] at hout
      exact hout (hcreated task hmem i hi)
  · exact settled_iff.mpr ⟨h.steady,
      fun task hmem i hi => keepsIndex_of_inKnownMapping (hcreated task hmem i hi)⟩

end

/-- **`verify_integrity` does what it is for exactly on the rows that are `Reconcilable`.** -/
theorem verified_iff (placeholder : Bool) (dag : DagVersion) (dagRun : DagRun) (run : RunData)
    (table : TaskInstanceTable) :
    Verified placeholder dag dagRun run table ↔ Reconcilable placeholder dag dagRun run table :=
  ⟨Verified.reconcilable, Reconcilable.verified⟩

/-- A task with one row, which was not mapped and is mapped over a literal now. -/
def literalDag : DagVersion where
  tasks := [{ taskId := 1, expandInput := some (.dictOfLists [.literal 2]) }]

theorem literalDag_not_verified (placeholder : Bool) : ¬Verified placeholder literalDag
    ⟨.running, .scheduled, 0⟩ {} { rows := [{ taskId := 1, state := some .success }] } := by
  intro h
  obtain ⟨row, hrow, -, hstate⟩ := h.noTaskLost _ List.mem_cons_self (by decide) (by decide)
  have hrows : (verifyIntegrity literalDag ⟨.running, .scheduled, 0⟩ {}
      { rows := [{ taskId := 1, state := some .success }] }).rows =
        [{ taskId := 1, state := some .removed }] := by decide
  rw [hrows] at hrow
  obtain rfl := List.mem_singleton.mp hrow
  exact hstate rfl

/-- The unmapped row is removed and no mapped one is created. -/
theorem literalDag_lost :
    ¬Verified true literalDag ⟨.running, .scheduled, 0⟩ {}
      { rows := [{ taskId := 1, state := some .success }] } ∧
    ¬Verified false literalDag ⟨.running, .scheduled, 0⟩ {}
      { rows := [{ taskId := 1, state := some .success }] } :=
  ⟨literalDag_not_verified true, literalDag_not_verified false⟩

end Integrity

end Airflow
