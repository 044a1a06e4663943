import Airflow.Lib.Dict
import Airflow.TaskInstance.Key
import Airflow.TaskInstance.Retries
import Mathlib.Algebra.Ring.Nat

/-!
# The backfill job

The loop of `_process_backfill_task_instances` in `airflow/jobs/backfill_job_runner.py` with
`_manage_executor_state` and `_update_counters`, the slots of `airflow/models/pool.py` and
`expand_mapped_task` of `airflow/models/abstractoperator.py`.

`to_run` and `running` hold a task instance object for each key. The objects are refreshed or loaded
again before anything is read from them, with two exceptions that the environment answers: the
columns of an object whose row is gone (`inMemory`), and the state that `disable_retry` reads
(`stateInMemory`). Every access to the database may find it changed by workers, triggers, the
scheduler and users. Dates, jobs, commands and the progress that is logged are left out, and so are
failing commits.
-/

namespace Airflow.Backfill

/-! ## Tasks, task instances and pools -/

/-- An operator of the DAG or of a sub-DAG. -/
structure Task extends Attempts.Task where
  dagId : String
  taskId : String
  pool : String := "default_pool"
  poolSlots : Nat := 1
  maxActiveTisPerDag : Option Nat := none
  maxActiveTisPerDagrun : Option Nat := none

/-- A row of `task_instance` without its primary key. -/
structure TaskInstance extends Attempts.TaskInstance where
  pool : String := "default_pool"
  poolSlots : Nat := 1

/-- `TaskInstance(task, run_id, map_index, state)`. -/
def Task.createInstance (task : Task) (state : TIState) : TaskInstance where
  state
  maxTries := task.retries
  pool := task.pool
  poolSlots := task.poolSlots

namespace TaskInstance

variable (ti : TaskInstance)

/-- `ti.key`. -/
def key (primary : PrimaryKey) : TaskInstanceKey := primary.tryKey ti.tryNumber

def withState (state : TIState) : TaskInstance := { ti with state }

/-- `handle_failure`. -/
def handleFailure (task : Option Attempts.Task) : TaskInstance :=
  { ti with toTaskInstance := ti.toTaskInstance.handleFailure task false }

end TaskInstance

/-- `STATES_COUNT_AS_RUNNING`, which are the `EXECUTION_STATES` too. -/
def countsAsRunning : TIState → Bool
  | some .running | some .queued => true
  | _ => false

/-- `BACKFILL_QUEUEABLE_STATES`. -/
def isBackfillQueueable : TIState → Bool
  | none | some .upForReschedule | some .upForRetry | some .scheduled => true
  | _ => false

/-- A pool; -1 slots are infinitely many. -/
structure Pool where
  slots : Int
  includeDeferred : Bool := false

/-- `get_occupied_states`. -/
def Pool.occupiedStates (self : Pool) (state : TIState) : Bool :=
  countsAsRunning state || (self.includeDeferred && decide (state = some .deferred))

structure Database where
  tis : Dict PrimaryKey TaskInstance := {}
  pools : Dict String Pool := {}

namespace Database

variable (db : Database)

def setTi (primary : PrimaryKey) (ti : TaskInstance) : Database :=
  { db with tis := db.tis.set primary ti }

/-- The sum of `pool_slots` over the instances of a pool in some states. -/
def poolSlots (pool : String) (states : TIState → Bool) : Nat :=
  ((db.tis.values.filter fun ti => decide (ti.pool = pool) && states ti.state).map
    TaskInstance.poolSlots).sum

/-- `Pool.open_slots`, `none` for infinitely many. -/
def openSlots (name : String) (pool : Pool) : Option Int :=
  if pool.slots = -1 then none else some (pool.slots - db.poolSlots name pool.occupiedStates)

/-- `DAG.get_num_task_instances` with the states that count as running. -/
def numRunning (dagId : String) (runId taskId : Option String := none) : Nat :=
  db.tis.entries.countP fun e =>
    decide (e.1.dagId = dagId) && runId.all (e.1.runId = ·) && taskId.all (e.1.taskId = ·) &&
      countsAsRunning e.2.state

/-- `refresh_from_db`; without a row only the state changes. -/
def refresh (primary : PrimaryKey) (inMemory : TaskInstance) : TaskInstance :=
  match db.tis.get? primary with
  | some ti => { ti with poolSlots := if ti.poolSlots = 0 then 1 else ti.poolSlots }
  | none => inMemory.withState none

end Database

/-! ## `expand_mapped_task` -/

section Expand

variable (node : Task) (runId : String) (totalLength : Option Nat)

/-- The primary key of an instance of the node. -/
def Task.instanceKey (mapIndex : Int) : PrimaryKey := ⟨node.dagId, node.taskId, runId, mapIndex⟩

def Task.isInstance (primary : PrimaryKey) : Bool :=
  primary = node.instanceKey runId primary.mapIndex

/-- What is done about the unmapped instance, the instance that it became, and the state of the
instances to create. -/
def expandUnmapped (partialDag : Bool) (db : Database) : Database × List PrimaryKey × TIState :=
  let unmapped := node.instanceKey runId (-1)
  let zero := node.instanceKey runId 0
  match db.tis.get? unmapped with
  | none => (db, [], none)
  | some ti =>
    if !State.isUnfinished ti.state then (db, [], none)
    else
      match totalLength with
      | none =>
        (if partialDag then db else db.setTi unmapped (ti.withState (some .upstreamFailed)), [],
          none)
      | some 0 => (db.setTi unmapped (ti.withState (some .skipped)), [], none)
      | some (_ + 1) =>
        let rest := { db with tis := db.tis.erase unmapped }
        if (db.tis.get? zero).isSome then (rest, [], ti.state)
        else (rest.setTi zero ti, [zero], ti.state)

/-- `current_max_mapping`; without any row it is `None`, which is not a number to add to. -/
def currentMaxMapping (db : Database) : Option Int :=
  ((db.tis.keys.filter (node.isInstance runId)).map PrimaryKey.mapIndex).max?

/-- The instances with inapplicable indexes are set to `REMOVED`. -/
def removeInapplicable (db : Database) : Database :=
  (db.tis.keys.filter fun primary =>
    node.isInstance runId primary && decide ((totalLength.getD 0 : Int) ≤ primary.mapIndex)).foldl
    (fun db primary =>
      match db.tis.get? primary with
      | some ti => db.setTi primary (ti.withState (some .removed))
      | none => db) db

/-- `expand_mapped_task`: the database, the keys of the new instances and the maximum map index;
`none` for a `TypeError`. -/
def expandMappedTask (partialDag : Bool) (db : Database) :
    Option (Database × List PrimaryKey × Int) :=
  let (db, expanded, state) := expandUnmapped node runId totalLength partialDag db
  let maxMapIndex : Int := totalLength.getD 0 - 1
  match totalLength with
  | none | some 0 => some (removeInapplicable node runId totalLength db, expanded, maxMapIndex)
  | some n =>
    (currentMaxMapping node runId db).map fun (currentMax : Int) =>
      let indexesToMap := (List.range n).filter fun (index : Nat) => currentMax < (index : Int)
      let new := indexesToMap.map fun (index : Nat) => node.instanceKey runId (index : Int)
      let db := new.foldl (fun db primary => db.setTi primary (node.createInstance state)) db
      (removeInapplicable node runId totalLength db, expanded ++ new, maxMapIndex)

end Expand

/-! ## The status of the job -/

/-- A task instance was sent to the executor: its key, what was in the database before, and after
it was set to `QUEUED`. -/
structure Queueing where
  key : TaskInstanceKey
  ti : TaskInstance
  before : Database
  after : Database

/-- `_DagRunTaskStatus`. -/
structure Status where
  toRun : List TaskInstanceKey := []
  running : List TaskInstanceKey := []
  skipped : List TaskInstanceKey := []
  succeeded : List TaskInstanceKey := []
  failed : List TaskInstanceKey := []
  notReady : List TaskInstanceKey := []
  deadlocked : List TaskInstanceKey := []

/-- Add a key to a dict or a set. -/
def addKey (keys : List TaskInstanceKey) (key : TaskInstanceKey) : List TaskInstanceKey :=
  if key ∈ keys then keys else keys ++ [key]

/-- The job: its status, the database, and what it queued so far. -/
structure State where
  status : Status
  db : Database
  queueings : List Queueing := []

namespace State

variable (σ : State)

/-- The key leaves `to_run` and, if it is there, `running`. -/
def popKey (key : TaskInstanceKey) : State :=
  { σ with status := { σ.status with
      toRun := σ.status.toRun.erase key, running := σ.status.running.erase key } }

def popRunning (key : TaskInstanceKey) : State :=
  { σ with status := { σ.status with running := σ.status.running.erase key } }

def addToRun (key : TaskInstanceKey) : State :=
  { σ with status := { σ.status with toRun := addKey σ.status.toRun key } }

def addSucceeded (key : TaskInstanceKey) : State :=
  { σ with status := { σ.status with succeeded := addKey σ.status.succeeded key } }

def addSkipped (key : TaskInstanceKey) : State :=
  { σ with status := { σ.status with skipped := addKey σ.status.skipped key } }

def addFailed (key : TaskInstanceKey) : State :=
  { σ with status := { σ.status with failed := addKey σ.status.failed key } }

def addNotReady (key : TaskInstanceKey) : State :=
  { σ with status := { σ.status with notReady := addKey σ.status.notReady key } }

/-- The `not_ready` list is cleared. -/
def clearNotReady : State := { σ with status := { σ.status with notReady := [] } }

def setTi (primary : PrimaryKey) (ti : TaskInstance) : State :=
  { σ with db := σ.db.setTi primary ti }

/-- The condition of the `while` loop. -/
def continues : Bool :=
  (!σ.status.toRun.isEmpty || !σ.status.running.isEmpty) && σ.status.deadlocked.isEmpty

end State

/-! ## The environment -/

/-- The states that the dependencies of a task assign. -/
inductive AssignedState where
  | upstreamFailed
  | skipped
  | removed

def AssignedState.toState : AssignedState → TaskInstanceState
  | .upstreamFailed => .upstreamFailed
  | .skipped => .skipped
  | .removed => .removed

/-- What `are_dependencies_met` finds besides the state, and the state it assigns, if any. -/
structure DependencyCheck where
  met : Bool
  newState : Option AssignedState := none

/-- What others do, and what is read from elsewhere, during one iteration of the loop. Each key of
`to_run` is looked at once. -/
structure Environment where
  beforeLimits : TaskInstanceKey → Database → Database := fun _ db => db
  beforeProcess : TaskInstanceKey → Database → Database := fun _ db => db
  inMemory : TaskInstanceKey → TaskInstance := fun _ => { maxTries := 0 }
  dependencies : TaskInstanceKey → DependencyCheck
  hasTask : TaskInstanceKey → Bool := fun _ => false
  afterHeartbeat : Database → Database := fun db => db
  eventBuffer : List (TaskInstanceKey × TaskInstanceState) := []
  beforeEvent : TaskInstanceKey → Database → Database := fun _ db => db
  taskInMemory : TaskInstanceKey → Option Attempts.Task := fun _ => none
  mappedTiCount : TaskInstanceKey → Task → Option Nat := fun _ _ => none
  stateInMemory : TaskInstanceKey → TIState := fun _ => some .queued
  beforeUpdate : Database → Database := fun db => db

/-- `BackfillJobRunner`. The tasks are in the order of `topological_sort`; a mapped task group among
the mapped dependants of a task stands for its tasks. -/
structure BackfillJobRunner where
  dagId : String
  tasks : List Task
  maxActiveTasks : Nat := 16
  partialDag : Bool := false
  mappedDependants : String → List Task := fun _ => []
  rerunFailedTasks : Bool := false
  disableRetry : Bool := false

namespace BackfillJobRunner

variable (self : BackfillJobRunner) (env : Environment)

/-! ## The candidates of an iteration -/

/-- The exceptions that end the loop over the candidates. -/
inductive LoopException where
  | poolNotFound
  | noAvailablePoolSlot
  | dagConcurrencyLimitReached
  | taskConcurrencyLimitReached
  deriving DecidableEq, Repr

/-- The checks of the pool, the DAG and the task that come before a candidate is processed. -/
def checkLimits (task : Task) (key : TaskInstanceKey) (db : Database) : Option LoopException :=
  match db.pools.get? task.pool with
  | none => some .poolNotFound
  | some pool =>
    if (db.openSlots task.pool pool).any (· ≤ 0) then some .noAvailablePoolSlot
    else if self.maxActiveTasks ≤ db.numRunning self.dagId then some .dagConcurrencyLimitReached
    else if task.maxActiveTisPerDag.any (· ≤ db.numRunning self.dagId none task.taskId) then
      some .taskConcurrencyLimitReached
    else if task.maxActiveTisPerDagrun.any
        (· ≤ db.numRunning self.dagId key.runId task.taskId) then
      some .taskConcurrencyLimitReached
    else none

/-- The instance after `are_dependencies_met`. -/
def checkedTi (key : TaskInstanceKey) (ti : TaskInstance) : TaskInstance :=
  match (env.dependencies key).newState with
  | some state => ti.withState (some state.toState)
  | none => ti

/-- The job after `are_dependencies_met`, which writes the state that it assigns. -/
def checked (key : TaskInstanceKey) (ti : TaskInstance) (σ : State) : State :=
  match (env.dependencies key).newState with
  | some _ => σ.setTi key.primary (checkedTi env key ti)
  | none => σ

/-- The instance is set to `QUEUED` and sent to the executor. -/
def queueTaskInstance (key : TaskInstanceKey) (ti : TaskInstance) (σ : State) : State :=
  let db := σ.db.setTi key.primary (ti.withState (some .queued))
  { status := { σ.status with
      running := addKey σ.status.running key, toRun := σ.status.toRun.erase key }
    db
    queueings := σ.queueings ++ [⟨key, ti, σ.db, db⟩] }

/-- What is done about an instance whose dependencies are not met. -/
def notMet (key : TaskInstanceKey) (ti : TaskInstance) (σ : State) : State :=
  if ti.state = some .upstreamFailed then (σ.addFailed key).popKey key
  else if ti.state = some .upForRetry ∨ ti.state = some .upForReschedule then
    (σ.popRunning key).addToRun key
  else σ.addNotReady key

/-- `_per_task_process` from the dependency check on. -/
def processDependencies (key : TaskInstanceKey) (ti : TaskInstance) (σ : State) : State :=
  if isBackfillQueueable ti.state && (env.dependencies key).met then
    if env.hasTask key then checked env key ti σ
    else queueTaskInstance key (checkedTi env key ti) (checked env key ti σ)
  else notMet key (checkedTi env key ti) (checked env key ti σ)

/-- `_per_task_process`. -/
def perTaskProcess (key : TaskInstanceKey) (σ : State) : State :=
  let ti := σ.db.refresh key.primary (env.inMemory key)
  if ti.state = some .success then (σ.addSucceeded key).popKey key
  else if ti.state = some .skipped then (σ.addSkipped key).popKey key
  else if ti.state = some .failed ∨ ti.state = some .upstreamFailed then
    if self.rerunFailedTasks then
      let ti := ti.withState (some .scheduled)
      processDependencies env key ti ((σ.popRunning key).setTi key.primary ti)
    else (σ.addFailed key).popKey key
  else processDependencies env key ti σ

/-- The loop over the keys in `to_run` of one task. -/
def lookAtKeys (task : Task) : List TaskInstanceKey → State → State × Option LoopException
  | [], σ => (σ, none)
  | key :: keys, σ =>
    let σ := { σ with db := env.beforeLimits key σ.db }
    match self.checkLimits task key σ.db with
    | some e => (σ, some e)
    | none =>
      lookAtKeys task keys
        (self.perTaskProcess env key { σ with db := env.beforeProcess key σ.db })

/-- The loop over the tasks. -/
def lookAtTasks : List Task → State → State × Option LoopException
  | [], σ => (σ, none)
  | task :: tasks, σ =>
    match self.lookAtKeys env task (σ.status.toRun.filter (·.taskId = task.taskId)) σ with
    | (σ, some e) => (σ, some e)
    | (σ, none) => lookAtTasks tasks σ

/-! ## After the candidates -/

/-- The backfill is deadlocked when no task is ready and none is running. -/
def findDeadlock (σ : State) : State :=
  let status := σ.status
  if status.notReady ≠ [] ∧ (∀ key ∈ status.notReady, key ∈ status.toRun) ∧
      (∀ key ∈ status.toRun, key ∈ status.notReady) ∧ status.running = [] then
    { σ with status := { status with
        deadlocked := status.toRun.foldl addKey status.deadlocked, toRun := [] } }
  else σ

/-- What the loop does about the expansion of `node`. -/
def replaceMapped (node : Task) (runId : String) (new : List PrimaryKey) (maxMapIndex : Int)
    (σ : State) : State :=
  let toKeep (key : TaskInstanceKey) : Bool :=
    if key.dagId ≠ node.dagId ∨ key.taskId ≠ node.taskId ∨ key.runId ≠ runId then true
    else 0 ≤ key.mapIndex && key.mapIndex ≤ maxMapIndex
  let newTis := new.filterMap fun primary => (σ.db.tis.get? primary).map (primary, ·)
  let toRun := (newTis.map fun e => e.2.key e.1).foldl addKey (σ.status.toRun.filter toKeep)
  let db := newTis.foldl (fun db e => db.setTi e.1 (e.2.withState (some .scheduled))) σ.db
  { σ with status := { σ.status with toRun }, db }

/-- The expansion of the mapped dependants of a finished instance; `none` for a `TypeError`. -/
def expandDependants (key : TaskInstanceKey) : List Task → State → Option State
  | [], σ => some σ
  | node :: nodes, σ =>
    (expandMappedTask node key.runId (env.mappedTiCount key node) self.partialDag σ.db).bind
      fun (db, new, maxMapIndex) =>
        expandDependants key nodes (replaceMapped node key.runId new maxMapIndex { σ with db })

/-- `_manage_executor_state`, with what its caller does in between. `runningDict` holds the instances
as they were loaded. -/
def manageExecutorState :
    List (TaskInstanceKey × TaskInstanceState) → Dict PrimaryKey TaskInstance → State → Option State
  | [], _, σ => some σ
  | (key, state) :: events, runningDict, σ =>
    match runningDict.get? key.primary with
    | none => manageExecutorState events runningDict σ
    | some ti =>
      let σ := { σ with db := env.beforeEvent key σ.db }
      if (state = .failed ∨ state = .success) ∧ countsAsRunning ti.state then
        let ti := (σ.db.refresh key.primary ti).handleFailure (env.taskInMemory key)
        manageExecutorState events (runningDict.set key.primary ti) (σ.setTi key.primary ti)
      else if !countsAsRunning ti.state then
        (self.expandDependants env key (self.mappedDependants key.taskId) σ).bind
          (manageExecutorState events runningDict)
      else manageExecutorState events runningDict σ

/-- The instances of `running` that the executor has events for, as they are loaded. -/
def runningDict (σ : State) : Dict PrimaryKey TaskInstance :=
  let runningTisIds :=
    ((env.eventBuffer.map Prod.fst).filter (· ∈ σ.status.running)).map TaskInstanceKey.primary
  σ.db.tis.keep (· ∈ runningTisIds)

/-- With `disable_retry` the instances that are set up for retry are failed. -/
def disableRetries : List TaskInstanceKey → State → State
  | [], σ => σ
  | key :: keys, σ =>
    let ti := (σ.db.tis.get? key.primary).getD (env.inMemory key)
    disableRetries keys
      (if self.disableRetry ∧ env.stateInMemory key = some .upForRetry then
        σ.setTi key.primary (ti.withState (some .failed))
      else σ)

/-! ## `_update_counters` -/

/-- `ti_primary_key_to_ti_key`; a later key replaces an earlier one. -/
def tiKeyOf (running : List TaskInstanceKey) (primary : PrimaryKey) : Option TaskInstanceKey :=
  (running.filter (·.primary = primary)).getLast?

/-- The loop body of `_update_counters`. -/
def updateCounter (running : List TaskInstanceKey) (σ : State)
    (refreshed : PrimaryKey × TaskInstance) : State :=
  let (primary, ti) := refreshed
  match tiKeyOf running primary with
  | none => σ
  | some tiKey =>
    match ti.state with
    | some .success => (σ.addSucceeded tiKey).popRunning tiKey
    | some .skipped => (σ.addSkipped tiKey).popRunning tiKey
    | some .failed => (σ.addFailed tiKey).popRunning tiKey
    | some .upForRetry | some .upForReschedule | none | some .scheduled =>
      (σ.popRunning tiKey).addToRun (ti.key primary)
    | _ => σ

/-- The refreshed instances of `running`. -/
def refreshedTis (σ : State) : List (PrimaryKey × TaskInstance) :=
  σ.db.tis.entries.filter fun e => e.1 ∈ σ.status.running.map TaskInstanceKey.primary

/-- `_update_counters`. -/
def updateCounters (σ : State) : State :=
  let refreshed := refreshedTis σ
  let tisToBeScheduled := refreshed.filter (·.2.state = none)
  let σ' := refreshed.foldl (updateCounter σ.status.running) σ
  tisToBeScheduled.foldl (fun σ e => σ.setTi e.1 (e.2.withState (some .scheduled))) σ'

/-! ## The loop -/

/-- An iteration up to `_update_counters`; `none` when an exception ends the job. -/
def beforeUpdateCounters (σ : State) : Option State :=
  let (σ, raised) := self.lookAtTasks env self.tasks σ.clearNotReady
  if raised = some .poolNotFound then none
  else
    let σ := findDeadlock { σ with db := env.afterHeartbeat σ.db }
    (self.manageExecutorState env env.eventBuffer (runningDict env σ) σ).map fun σ =>
      let σ := self.disableRetries env σ.status.running σ
      { σ with db := env.beforeUpdate σ.db }

/-- The states of an iteration: when `_update_counters` reads the database, and its end. -/
structure Iteration where
  env : Environment
  refreshed : State

def Iteration.ended (it : Iteration) : State := updateCounters it.refreshed

/-- A run of the loop from `σ`: each iteration is entered under the condition of the loop. -/
def IsRun (σ : State) : List Iteration → Prop
  | [] => True
  | it :: its =>
    σ.continues ∧ self.beforeUpdateCounters it.env σ = some it.refreshed ∧ IsRun it.ended its

end BackfillJobRunner

end Airflow.Backfill
