import Airflow.Branching.SkipMixin

/-!
# `SkipMixin.skip`

The method of `airflow/models/skipmixin.py` that short-circuiting operators call, on the rows of
all runs, with the helper that it shares with `skip_all_except`.
-/

namespace Airflow.Branching

/-- A row of `dag_run`. -/
structure DagRun where
  dagId : String
  runId : String
  executionDate : Int
  deriving DecidableEq, Repr

/-- The primary key of `task_instance`. -/
structure TIKey where
  dagId : String
  runId : String
  taskId : TaskId
  mapIndex : Int
  deriving DecidableEq, Repr

/-- A row of `task_instance`, with the columns that are skipped on or written. -/
structure TIRow where
  key : TIKey
  state : TIState
  startDate : Option Int := none
  endDate : Option Int := none
  deriving DecidableEq, Repr

/-- A row of `xcom` under `XCOM_SKIPMIXIN_KEY`. -/
structure SkipXCom where
  key : TIKey
  value : SkipMixinResult

structure SkipDatabase where
  dagRuns : List DagRun := []
  rows : List TIRow
  xcoms : List SkipXCom := []

/-- The state of a task instance, `none` without a row. -/
def SkipDatabase.state (db : SkipDatabase) (key : TIKey) : Option TIState :=
  (db.rows.find? (·.key = key)).map TIRow.state

/-- `tasks` of `_set_state_to_skipped`: keys or task ids. -/
inductive TaskSelection where
  | keys (tasks : List (TaskId × Int))
  | taskIds (ids : List TaskId)

/-- The condition on `task_id` and `map_index` in the `where` of the update. -/
def TaskSelection.matches : TaskSelection → TaskId → Int → Bool
  | .keys tasks, taskId, mapIndex => tasks.any (· = (taskId, mapIndex))
  | .taskIds ids, taskId, _ => taskId ∈ ids

/-- `_set_state_to_skipped`. -/
def setStateToSkipped (dagRun : DagRun) (tasks : TaskSelection) (now : Int) (db : SkipDatabase) :
    SkipDatabase :=
  { db with rows := db.rows.map fun row =>
      if row.key.dagId = dagRun.dagId ∧ row.key.runId = dagRun.runId ∧
          tasks.matches row.key.taskId row.key.mapIndex then
        { row with state := some .skipped, startDate := some now, endDate := some now }
      else row }

/-- The nodes that a task may be given as. -/
inductive DAGNode where
  | operator (operator : Operator)
  | taskGroup (groupId : String)

/-- `_ensure_tasks`. -/
def ensureTasks (nodes : List DAGNode) : List Operator :=
  nodes.filterMap fun node =>
    match node with
    | .operator operator => some operator
    | .taskGroup _ => none

/-- The exceptions of `skip`: those of `one()` and the two `ValueError`s. -/
inductive SkipError where
  | noResultFound
  | multipleResultsFound
  | executionDateDiffers
  | dagRunRequired
  deriving DecidableEq, Repr

/-- The run that `skip` works on; `dagId` is that of the tasks' DAG. -/
def resolveDagRun (dagRuns : List DagRun) (dagId : String) (dagRun : Option DagRun)
    (executionDate : Option Int) : Except SkipError DagRun :=
  match executionDate, dagRun with
  | some date, none =>
    match dagRuns.filter fun run => run.dagId = dagId ∧ run.executionDate = date with
    | [] => .error .noResultFound
    | [run] => .ok run
    | _ => .error .multipleResultsFound
  | some date, some run =>
    if date ≠ run.executionDate then .error .executionDateDiffers else .ok run
  | none, some run => .ok run
  | none, none => .error .dagRunRequired

/-- `XCom.set` under `XCOM_SKIPMIXIN_KEY`. -/
def setSkipXCom (key : TIKey) (value : SkipMixinResult) (db : SkipDatabase) : SkipDatabase :=
  { db with xcoms := ⟨key, value⟩ :: db.xcoms.filter (·.key ≠ key) }

/-- The arguments of `skip`. `taskId` is the attribute that `self` may have, `dagId` the DAG of the
tasks, and `now` the time. -/
structure SkipArgs where
  taskId : Option TaskId
  dagId : String
  dagRun : Option DagRun
  executionDate : Option Int
  tasks : List DAGNode
  mapIndex : Int := -1
  now : Int

/-- `task_ids_list`. -/
def SkipArgs.taskIdsList (args : SkipArgs) : List TaskId :=
  (ensureTasks args.tasks).map Operator.taskId

/-- `SkipMixin.skip`. -/
def skip (args : SkipArgs) (db : SkipDatabase) : Except SkipError SkipDatabase :=
  if ensureTasks args.tasks = [] then .ok db
  else
    match resolveDagRun db.dagRuns args.dagId args.dagRun args.executionDate with
    | .error e => .error e
    | .ok dagRun =>
      let db := setStateToSkipped dagRun (.taskIds args.taskIdsList) args.now db
      match args.taskId with
      | none => .ok db
      | some taskId =>
        .ok (setSkipXCom ⟨dagRun.dagId, dagRun.runId, taskId, args.mapIndex⟩
          { skipped := some args.taskIdsList } db)

/-- The database after the call; nothing is written before an exception. -/
def afterSkip (args : SkipArgs) (db : SkipDatabase) : SkipDatabase :=
  match skip args db with
  | .ok db => db
  | .error _ => db

/-!
## What `skip` changes outside its own mapped instance

`skip` is called by one instance of a mapped task group and passes task ids to the update, so that
the instances of these tasks with other map indexes are skipped as well (`skip_staysInside_iff`).
The update that `skip_all_except` asks for, by task id and map index, has no such effect
(`setStateToSkipped_keys_state`).
-/

variable {db : SkipDatabase} {key : TIKey}

/-- The update is about this task instance. -/
def Selects (dagRun : DagRun) (tasks : TaskSelection) (key : TIKey) : Prop :=
  key.dagId = dagRun.dagId ∧ key.runId = dagRun.runId ∧
    tasks.matches key.taskId key.mapIndex = true

instance (dagRun : DagRun) (tasks : TaskSelection) (key : TIKey) :
    Decidable (Selects dagRun tasks key) :=
  inferInstanceAs (Decidable (_ ∧ _ ∧ _))

/-- The update sets the states of the task instances that it is about. -/
theorem state_setStateToSkipped (dagRun : DagRun) (tasks : TaskSelection) (now : Int)
    (db : SkipDatabase) (key : TIKey) :
    (setStateToSkipped dagRun tasks now db).state key =
      (db.state key).map fun state => if Selects dagRun tasks key then some .skipped else state := by
  obtain ⟨dagRuns, rows, xcoms⟩ := db
  simp only [setStateToSkipped, SkipDatabase.state]
  induction rows with
  | nil => rfl
  | cons row rows ih =>
    rw [List.map_cons, List.find?_cons, List.find?_cons]
    by_cases hkey : row.key = key
    · subst hkey
      by_cases hselects : Selects dagRun tasks row.key
      · have hrow := hselects
        unfold Selects at hrow
        simp only [if_pos hrow, if_pos hselects, decide_true, Option.map_some]
      · have hrow := hselects
        unfold Selects at hrow
        simp only [if_neg hrow, if_neg hselects, decide_true, Option.map_some]
    · have hset : ∀ row' : TIRow, row'.key = row.key → decide (row'.key = key) = false :=
        fun row' h => decide_eq_false (h ▸ hkey)
      rw [hset row rfl, hset _ (by split <;> rfl)]
      exact ih

/-- An update by keys leaves the instances with other map indexes as they are. -/
theorem setStateToSkipped_keys_state (dagRun : DagRun) (taskIds : List TaskId) (mapIndex now : Int)
    (db : SkipDatabase) (hne : key.mapIndex ≠ mapIndex) :
    (setStateToSkipped dagRun (.keys (taskIds.map fun id => (id, mapIndex))) now db).state key =
      db.state key := by
  have hselects : ¬Selects dagRun (.keys (taskIds.map fun id => (id, mapIndex))) key := by
    rintro ⟨-, -, hmatches⟩
    obtain ⟨pair, hpair, heq⟩ := List.any_eq_true.mp hmatches
    obtain ⟨id, -, rfl⟩ := List.mem_map.mp hpair
    exact hne (congrArg Prod.snd (of_decide_eq_true heq)).symm
  rw [state_setStateToSkipped]
  simp only [if_neg hselects, Option.map_id']

/-- No instance of the tasks with a map index other than the caller's changes its state. -/
def StaysInside (taskIds : List TaskId) (mapIndex : Int) (db after : SkipDatabase) : Prop :=
  ∀ key : TIKey, key.taskId ∈ taskIds → key.mapIndex ≠ mapIndex → after.state key = db.state key

/-- In the run that is skipped in, the instances of the tasks with other map indexes are skipped
already. -/
def OthersSkipped (args : SkipArgs) (db : SkipDatabase) : Prop :=
  ∀ dagRun, resolveDagRun db.dagRuns args.dagId args.dagRun args.executionDate = .ok dagRun →
    ∀ key : TIKey, key.dagId = dagRun.dagId → key.runId = dagRun.runId →
      key.taskId ∈ args.taskIdsList → key.mapIndex ≠ args.mapIndex →
        ∀ state, db.state key = some state → state = some .skipped

/-- The states after `skip` are those after its update. -/
theorem afterSkip_state (args : SkipArgs) (db : SkipDatabase) (key : TIKey)
    (hkey : key.taskId ∈ args.taskIdsList) :
    (afterSkip args db).state key =
      match resolveDagRun db.dagRuns args.dagId args.dagRun args.executionDate with
      | .error _ => db.state key
      | .ok dagRun => (setStateToSkipped dagRun (.taskIds args.taskIdsList) args.now db).state key := by
  have htasks : ensureTasks args.tasks ≠ [] := by
    intro h
    rw [SkipArgs.taskIdsList, h] at hkey
    cases hkey
  rw [afterSkip, skip, if_neg htasks]
  cases resolveDagRun db.dagRuns args.dagId args.dagRun args.executionDate with
  | error e => rfl
  | ok dagRun =>
    cases args.taskId with
    | none => rfl
    | some taskId => rfl

/-- **`skip` changes no instance with another map index exactly if the others are skipped
already.** -/
theorem skip_staysInside_iff (args : SkipArgs) (db : SkipDatabase) :
    StaysInside args.taskIdsList args.mapIndex db (afterSkip args db) ↔ OthersSkipped args db := by
  constructor
  · intro hinside dagRun hrun key hdag hrunId htask hindex state hstate
    have hsame := hinside key htask hindex
    rw [afterSkip_state args db key htask, hrun] at hsame
    dsimp only at hsame
    rw [state_setStateToSkipped, hstate] at hsame
    have hselects : Selects dagRun (.taskIds args.taskIdsList) key :=
      ⟨hdag, hrunId, decide_eq_true htask⟩
    rw [Option.map_some, if_pos hselects] at hsame
    exact (Option.some.inj hsame).symm
  · intro hothers key htask hindex
    rw [afterSkip_state args db key htask]
    cases hrun : resolveDagRun db.dagRuns args.dagId args.dagRun args.executionDate with
    | error e => rfl
    | ok dagRun =>
      dsimp only
      rw [state_setStateToSkipped]
      cases hstate : db.state key with
      | none => rfl
      | some state =>
        rw [Option.map_some]
        split
        · next hselects =>
          rw [hothers dagRun hrun key hselects.1 hselects.2.1 htask hindex state hstate]
        · rfl

/-- A mapped task group whose first instance is short-circuited while the second is running. -/
def runningSibling : SkipDatabase where
  dagRuns := [⟨"d", "r", 0⟩]
  rows := [{ key := ⟨"d", "r", 2, 0⟩, state := none },
    { key := ⟨"d", "r", 2, 1⟩, state := some .running }]

theorem baseOperatorDeps_unmapped :
    TIDep.mappedTaskIsExpanded ∈ baseOperatorDeps → (none : Option ExpandInput).isSome = true := by
  decide

/-- Task 1 of the group, at map index 0, skips task 2 of the group, which is downstream of it. -/
def skipDownstream : SkipArgs where
  taskId := some 1
  dagId := "d"
  dagRun := some ⟨"d", "r", 0⟩
  executionDate := some 0
  tasks := [.operator {
    taskId := 2
    upstreamTaskIds := [1]
    mappedTaskGroups := [⟨0, .dictOfLists [.literal 2]⟩]
    deps_mapped := baseOperatorDeps_unmapped }]
  mapIndex := 0
  now := 0

theorem runningSibling_skipped :
    ¬StaysInside skipDownstream.taskIdsList skipDownstream.mapIndex runningSibling
      (afterSkip skipDownstream runningSibling) := by
  intro h
  exact absurd (h ⟨"d", "r", 2, 1⟩ (by decide) (by decide)) (by decide)

end Airflow.Branching
