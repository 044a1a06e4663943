import Airflow.DagRun.Dependencies
import Airflow.Dag.Proof.Relatives

/-!
# Branch operators and the memory of what they skipped

From `airflow/models/skipmixin.py` the method `skipAllExcept` of a branch operator, and from
`airflow/ti_deps/deps/not_previously_skipped_dep.py` the dependency that reads its decision back,
with `xcomPull` of `airflow/models/taskinstance.py` between them.

The XComs are those of one run and one key, the newest first, which is the order of
`XCom.get_many`. A task id is a number and `branch_task_ids` holds ids only, so the check that they
are strings is not part of the model.
-/

namespace Airflow.Branching

/-! ## XComs -/

/-- A row of `xcom` with the key that its table is for. -/
structure XComRow (α : Type) where
  taskId : TaskId
  mapIndex : Int
  value : α
  deriving DecidableEq, Repr

/-- What `xcom_pull` returns for one task id and no map index: the default, the value of an unmapped
task, or the sequence of the values of a mapped one. -/
inductive XComPull (α : Type) where
  | default
  | value (value : α)
  | lazyXComAccess (values : List α)

variable {α : Type}

/-- The rows without the XCom of one task instance (`clear_xcom_data`). -/
def xcomClear (taskId : TaskId) (mapIndex : Int) (rows : List (XComRow α)) : List (XComRow α) :=
  rows.filter fun row => ¬(row.taskId = taskId ∧ row.mapIndex = mapIndex)

/-- `XCom.set`: it replaces the row with the same key. -/
def xcomSet (row : XComRow α) (rows : List (XComRow α)) : List (XComRow α) :=
  row :: xcomClear row.taskId row.mapIndex rows

/-- `TaskInstance.xcom_pull` with one task id and without `map_indexes`. -/
def xcomPull (rows : List (XComRow α)) (taskId : TaskId) : XComPull α :=
  match rows.filter (·.taskId = taskId) with
  | [] => .default
  | first :: rest =>
    if first.mapIndex < 0 then .value first.value
    else .lazyXComAccess
      (((first :: rest).mergeSort fun a b => a.mapIndex ≤ b.mapIndex).map XComRow.value)

/-! ## The database of a run -/

/-- The rows of a run in `task_instance`, and its XComs under `XCOM_SKIPMIXIN_KEY` and
`PAST_DEPENDS_MET`. -/
structure Database where
  rows : List TaskInstanceRow
  skipMixinXComs : List (XComRow SkipMixinResult) := []
  pastDependsMetXComs : List (XComRow Bool) := []

namespace Database

variable (db : Database)

/-- `DagRun.get_task_instance`. -/
def getTaskInstance (taskId : TaskId) (mapIndex : Int) : Option TaskInstanceRow :=
  db.rows.find? fun row => row.taskId = taskId ∧ row.mapIndex = mapIndex

/-- The state of a task instance, `none` without a row. -/
def state (taskId : TaskId) (mapIndex : Int) : Option TIState :=
  (db.getTaskInstance taskId mapIndex).map (·.state)

/-- Set the state of the task instances with these keys. -/
def setStates (tasks : List (TaskId × Int)) (state : TIState) : Database :=
  { db with rows := db.rows.map fun row =>
      if tasks.any (· = (row.taskId, row.mapIndex)) then { row with state := state } else row }

/-- `finished_task_ids` of `NotPreviouslySkippedDep`. -/
def finishedTaskIds : List TaskId :=
  (db.rows.filter fun row => State.isFinished row.state).map TaskInstanceRow.taskId

end Database

/-! ## `skip_all_except` -/

/-- `branch_task_ids`: nothing, a task id or a collection of them. -/
inductive BranchTaskIds where
  | none
  | taskId (id : TaskId)
  | taskIds (ids : List TaskId)

/-- `branch_task_id_set`. -/
def BranchTaskIds.toSet : BranchTaskIds → List TaskId
  | .none => []
  | .taskId id => [id]
  | .taskIds ids => ids

/-- The `AirflowException` of `skip_all_except`: `'branch_task_ids' must contain only valid
task_ids.` with the ones that are not. -/
inductive AirflowException where
  | invalidTaskIds (invalidTaskIds : List TaskId)
  deriving DecidableEq, Repr

/-- `branch_task_id_set` after the loop that adds the downstream tasks of each branch. -/
def withFlatRelatives (dag : Dag) (branchTaskIds : List TaskId) : List TaskId :=
  branchTaskIds ++ branchTaskIds.flatMap fun id =>
    ((dag.getTask id).map fun task => dag.flatRelativeIds task false).getD []

/-- `skip_tasks`: the direct downstream instances with the map index of `ti` that are not on a
branch. -/
def skipTasks (dag : Dag) (task : Operator) (mapIndex : Int) (branchTaskIds : List TaskId)
    (db : Database) : List (TaskId × Int) :=
  ((dag.downstreamList task).filter fun t =>
    (db.getTaskInstance t.taskId mapIndex).isSome ∧
      t.taskId ∉ withFlatRelatives dag branchTaskIds).map fun t => (t.taskId, mapIndex)

/-- `follow_task_ids`. -/
def followTaskIds (dag : Dag) (task : Operator) (branchTaskIds : List TaskId) : List TaskId :=
  ((dag.downstreamList task).filter fun t =>
    t.taskId ∈ withFlatRelatives dag branchTaskIds).map Operator.taskId

/-- `SkipMixin.skip_all_except` of the operator `task` for its instance with `mapIndex`. -/
def skipAllExcept (dag : Dag) (task : Operator) (mapIndex : Int) (branchTaskIds : BranchTaskIds)
    (db : Database) : Except AirflowException Database :=
  let branchTaskIdSet := branchTaskIds.toSet
  let invalidTaskIds := branchTaskIdSet.filter (· ∉ dag.taskIds)
  if invalidTaskIds ≠ [] then .error (.invalidTaskIds invalidTaskIds)
  else if dag.downstreamList task = [] then .ok db
  else
    let db' := db.setStates (skipTasks dag task mapIndex branchTaskIdSet db) (some .skipped)
    let result := { followed := some (followTaskIds dag task branchTaskIdSet) }
    .ok { db' with skipMixinXComs := xcomSet ⟨task.taskId, mapIndex, result⟩ db'.skipMixinXComs }

/-! ## `NotPreviouslySkippedDep` -/

/-- Where the operators of a DAG were loaded from: a deserialized one is a `SerializedBaseOperator`,
which is no `SkipMixin`. -/
inductive LoadedFrom where
  | dagFile
  | serializedDag
  deriving DecidableEq, Repr

/-- `isinstance(parent, SkipMixin)`. -/
def isinstanceSkipMixin (loadedFrom : LoadedFrom) (parent : Operator) : Bool :=
  parent.isSkipMixin && decide (loadedFrom = .dagFile)

/-- Whether the result that was pulled decides to skip the instances of `taskId`. A `LazyXComAccess`
holds dicts, of which none is one of the two keys. -/
def XComPull.shouldSkip (taskId : TaskId) : XComPull SkipMixinResult → Bool
  | .default => false
  | .value prevResult => prevResult.shouldSkip taskId
  | .lazyXComAccess _ => false

/-- `past_depends_met`, as a condition. -/
def XComPull.pastDependsMet : XComPull Bool → Bool
  | .default => false
  | .value met => met
  | .lazyXComAccess values => !values.isEmpty

/-- The reasons `NotPreviouslySkippedDep` fails with. -/
inductive FailingStatus where
  | pastDependsNotMet
  | previousXComResult (parent : TaskId)
  deriving DecidableEq, Repr

variable (loadedFrom : LoadedFrom) (waitForPastDependsBeforeSkipping : Bool)

/-- A parent has finished, and its XCom decides that the instances of `taskId` are skipped. -/
def parentSkips (db : Database) (taskId : TaskId) (parent : Operator) : Bool :=
  isinstanceSkipMixin loadedFrom parent && decide (parent.taskId ∈ db.finishedTaskIds) &&
    (xcomPull db.skipMixinXComs parent.taskId).shouldSkip taskId

/-- The loop over the direct upstream tasks. -/
def getDepStatuses (taskId : TaskId) (mapIndex : Int) (db : Database) :
    List Operator → Database × Option FailingStatus
  | [] => (db, none)
  | parent :: upstream =>
    if parentSkips loadedFrom db taskId parent then
      if waitForPastDependsBeforeSkipping ∧
          ¬(xcomPull db.pastDependsMetXComs taskId).pastDependsMet then
        (db, some .pastDependsNotMet)
      else
        (db.setStates [(taskId, mapIndex)] (some .skipped),
          some (.previousXComResult parent.taskId))
    else getDepStatuses taskId mapIndex db upstream

/-- `NotPreviouslySkippedDep._get_dep_statuses` for the instance of `task` with `mapIndex`. -/
def notPreviouslySkippedDep (dag : Dag) (task : Operator) (mapIndex : Int) (db : Database) :
    Database × Option FailingStatus :=
  getDepStatuses loadedFrom waitForPastDependsBeforeSkipping task.taskId mapIndex db
    (dag.upstreamList task)

/-! ## From the decision to its evaluation -/

/-- What an operator of the run does to the XComs under `XCOM_SKIPMIXIN_KEY`: an instance pushes its
result, or clears what it pushed when it runs again. -/
inductive XComEvent where
  | push (row : XComRow SkipMixinResult)
  | clear (taskId : TaskId) (mapIndex : Int)

namespace XComEvent

def taskId : XComEvent → TaskId
  | .push row => row.taskId
  | .clear id _ => id

def mapIndex : XComEvent → Int
  | .push row => row.mapIndex
  | .clear _ index => index

def apply (rows : List (XComRow SkipMixinResult)) : XComEvent → List (XComRow SkipMixinResult)
  | .push row => xcomSet row rows
  | .clear id index => xcomClear id index rows

end XComEvent

/-- `later` is a database of the run some time after `db`, in which the instance of `branch` with
`mapIndex` has not run again. Any rows and any other XComs may have changed; other instances of the
branch operator are there only when it is in a mapped task group. -/
def Later (branch : Operator) (mapIndex : Int) (db later : Database) : Prop :=
  ∃ events : List XComEvent,
    (∀ e ∈ events, e.taskId = branch.taskId →
      0 ≤ mapIndex ∧ 0 ≤ e.mapIndex ∧ e.mapIndex ≠ mapIndex) ∧
    later.skipMixinXComs = events.foldl XComEvent.apply db.skipMixinXComs

/-- Clear a task instance. -/
def Database.clear (db : Database) (taskId : TaskId) (mapIndex : Int) : Database :=
  db.setStates [(taskId, mapIndex)] none

/-- The dependency, evaluated on an instance of `task`, sets it to be skipped. -/
def SkippedAgain (dag : Dag) (task : Operator) (mapIndex : Int) (db : Database) : Prop :=
  (notPreviouslySkippedDep loadedFrom waitForPastDependsBeforeSkipping dag task mapIndex db).1.state
    task.taskId mapIndex = some (some .skipped)

/-- The task is on a branch that is followed: it is one of its first tasks or reachable from one. -/
def OnBranch (dag : Dag) (branchTaskIds : List TaskId) (task : Operator) : Prop :=
  ∃ id ∈ branchTaskIds, dag.Path false id task.taskId

/-- The edges of a DAG, which operators record on both of their ends. -/
def EdgesAgree (dag : Dag) : Prop :=
  ∀ a ∈ dag.tasks, ∀ b ∈ dag.tasks, b.taskId ∈ a.downstreamTaskIds ↔ a.taskId ∈ b.upstreamTaskIds

/-- What `skip_all_except` decided about the direct downstream `task` is what the dependency finds
in `db`, and a task on a branch was not skipped. -/
structure Agrees (dag : Dag) (branch : Operator) (mapIndex : Int) (branchTaskIds : List TaskId)
    (decided : Database) (task : Operator) (db : Database) : Prop where
  remembered : (task.taskId, mapIndex) ∈ skipTasks dag branch mapIndex branchTaskIds decided ↔
    SkippedAgain loadedFrom waitForPastDependsBeforeSkipping dag task mapIndex db
  followed : OnBranch dag branchTaskIds task →
    (task.taskId, mapIndex) ∉ skipTasks dag branch mapIndex branchTaskIds decided

end Airflow.Branching
