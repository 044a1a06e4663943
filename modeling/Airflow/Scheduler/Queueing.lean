import Mathlib.Algebra.Ring.Int.Defs
import Mathlib.Algebra.Ring.Nat
import Mathlib.Data.List.Dedup
import Airflow.State

/-!
# `_executable_task_instances_to_queued`

The critical section of the scheduler (`airflow/jobs/scheduler_job_runner.py`) over the tables it
reads: the pools with their open slots (`slotsStats`), the counts of queued and running instances
(`ConcurrencyMap`), and the query that is repeated with growing sets of starved pools, DAGs and
tasks until it selects something or finds no new filter.

The four starved sets of the source are one set of tagged keys (`Starved`): none of them ever
shrinks, so one of the four grew exactly when this one did. Rows that another session has locked are
skipped by the query; which these are at each iteration is an argument.
-/

namespace Airflow.Queueing

/-! ## Tables -/

/-- A row of `task_instance`. -/
structure TaskInstance where
  dagId : String
  taskId : String
  runId : String
  mapIndex : Int := -1
  state : TIState
  pool : String
  poolSlots : Int
  priorityWeight : Int := 1
  deriving DecidableEq, Repr

/-- The primary key of `task_instance`. -/
def TaskInstance.key (ti : TaskInstance) : String × String × String × Int :=
  (ti.dagId, ti.taskId, ti.runId, ti.mapIndex)

/-- A row of `dag_run`. -/
structure DagRun where
  dagId : String
  runId : String
  runType : DagRunType
  state : DagRunState
  executionDate : Int

/-- A row of `dag`. -/
structure DagModel where
  dagId : String
  isPaused : Bool
  maxActiveTasks : Int
  hasTaskConcurrencyLimits : Bool

/-- A task of a serialized DAG. -/
structure SerializedTask where
  taskId : String
  maxActiveTisPerDag : Option Int
  maxActiveTisPerDagrun : Option Int

/-- A row of `serialized_dag`. -/
structure SerializedDag where
  dagId : String
  tasks : List SerializedTask

/-- A row of `slot_pool`; `-1` slots is an infinite pool. -/
structure Pool where
  pool : String
  slots : Int
  includeDeferred : Bool

/-- The tables that the critical section reads. `limits_flagged` is what `bulk_write_to_db` keeps:
a DAG with a limit on some task is flagged. -/
structure Database where
  taskInstances : List TaskInstance
  dagRuns : List DagRun
  dagModels : List DagModel
  serializedDags : List SerializedDag
  pools : List Pool
  key_unique : (taskInstances.map TaskInstance.key).Nodup
  limits_flagged : ∀ dag ∈ dagModels, ∀ serialized ∈ serializedDags,
    serialized.dagId = dag.dagId → ∀ task ∈ serialized.tasks,
      task.maxActiveTisPerDag.isSome = true ∨ task.maxActiveTisPerDagrun.isSome = true →
        dag.hasTaskConcurrencyLimits = true

/-- `dag_model` of an instance. -/
def Database.dagModel (db : Database) (dagId : String) : Option DagModel :=
  db.dagModels.find? (·.dagId = dagId)

/-- `dagbag.get_dag`. -/
def Database.getDag (db : Database) (dagId : String) : Option SerializedDag :=
  db.serializedDags.find? (·.dagId = dagId)

/-- `get_task`, if the DAG has the task. -/
def SerializedDag.getTask (dag : SerializedDag) (taskId : String) : Option SerializedTask :=
  dag.tasks.find? (·.taskId = taskId)

/-! ## `Pool.slots_stats` -/

/-- A number of slots, `float("inf")` in an infinite pool. -/
inductive Slots where
  | finite (n : Int)
  | infinite
  deriving DecidableEq, Repr

namespace Slots

/-- `slots <= n`. -/
def le : Slots → Int → Bool
  | finite m, n => m ≤ n
  | infinite, _ => false

/-- `slots < n`. -/
def lt : Slots → Int → Bool
  | finite m, n => m < n
  | infinite, _ => false

/-- `slots - n`. -/
def less : Slots → Int → Slots
  | finite m, n => finite (m - n)
  | infinite, _ => infinite

def add : Slots → Slots → Slots
  | finite m, finite n => finite (m + n)
  | _, _ => infinite

end Slots

/-- `max(0, n)`. -/
def maxZero (n : Int) : Int := if n ≤ 0 then 0 else n

/-- The statistics of a pool under its name. -/
structure PoolStats where
  pool : String
  total : Slots
  running : Int
  queued : Int
  deferred : Int
  «open» : Slots

/-- `func.sum(TaskInstance.pool_slots)` of a pool's instances in a state. -/
def sumPoolSlots (tis : List TaskInstance) (pool : String) (state : TaskInstanceState) : Int :=
  ((tis.filter fun ti => ti.pool = pool ∧ ti.state = some state).map (·.poolSlots)).sum

def slotsStats (db : Database) : List PoolStats :=
  db.pools.map fun p =>
    let total : Slots := if p.slots = -1 then .infinite else .finite p.slots
    let running := sumPoolSlots db.taskInstances p.pool .running
    let queued := sumPoolSlots db.taskInstances p.pool .queued
    let deferred := sumPoolSlots db.taskInstances p.pool .deferred
    let «open» := (total.less running).less queued
    { pool := p.pool, total, running, queued, deferred
      «open» := if p.includeDeferred then Slots.less «open» deferred else «open» }

/-- `pools.get`. -/
def getPool (pools : List PoolStats) (name : String) : Option PoolStats :=
  pools.find? (·.pool = name)

/-- `pool_stats["open"] = slots`. -/
def setOpen (pools : List PoolStats) (name : String) (slots : Slots) : List PoolStats :=
  pools.map fun p => if p.pool = name then { p with «open» := slots } else p

/-! ## `ConcurrencyMap` -/

/-- The counters, as functions of their keys. -/
structure ConcurrencyMap where
  dagActiveTasksMap : String → Nat
  taskConcurrencyMap : String × String → Nat
  taskDagrunConcurrencyMap : String × String × String → Nat

/-- `from_concurrency_map`: the counts of `(dag_id, run_id, task_id)`, added up over the runs and
over the tasks. -/
def ConcurrencyMap.fromConcurrencyMap (mapping : List ((String × String × String) × Nat)) :
    ConcurrencyMap where
  dagActiveTasksMap d := ((mapping.filter (·.1.1 = d)).map (·.2)).sum
  taskConcurrencyMap k := ((mapping.filter fun e => (e.1.1, e.1.2.2) = k).map (·.2)).sum
  taskDagrunConcurrencyMap k := ((mapping.filter (·.1 = k)).map (·.2)).sum

def TaskInstance.taskDagrun (ti : TaskInstance) : String × String × String :=
  (ti.dagId, ti.runId, ti.taskId)

def TaskInstance.task (ti : TaskInstance) : String × String := (ti.dagId, ti.taskId)

/-- The instances in `EXECUTION_STATES`. -/
def Database.active (db : Database) : List TaskInstance :=
  db.taskInstances.filter (State.isExecution ·.state)

/-- `__get_concurrency_maps` for `EXECUTION_STATES`: one count for each group of the query. -/
def Database.getConcurrencyMaps (db : Database) : ConcurrencyMap :=
  let keys := db.active.map TaskInstance.taskDagrun
  .fromConcurrencyMap (keys.dedup.map fun k => (k, keys.count k))

/-- The counters after one more instance. -/
def ConcurrencyMap.add (m : ConcurrencyMap) (ti : TaskInstance) : ConcurrencyMap where
  dagActiveTasksMap d := m.dagActiveTasksMap d + if ti.dagId = d then 1 else 0
  taskConcurrencyMap k := m.taskConcurrencyMap k + if ti.task = k then 1 else 0
  taskDagrunConcurrencyMap k := m.taskDagrunConcurrencyMap k + if ti.taskDagrun = k then 1 else 0

/-! ## The query -/

/-- An entry of the starved sets. -/
inductive Starved where
  | pool (pool : String)
  | dag (dagId : String)
  | task (task : String × String)
  | taskDagrun (taskDagrun : String × String × String)
  deriving DecidableEq

/-- The filter that the entry adds to the query drops the instance. -/
def Starved.covers (s : Starved) (ti : TaskInstance) : Bool :=
  match s with
  | .pool p => ti.pool = p
  | .dag d => ti.dagId = d
  | .task t => ti.task = t
  | .taskDagrun t => ti.taskDagrun = t

/-- An instance joined with its run and its DAG. -/
structure Candidate where
  ti : TaskInstance
  dagRun : DagRun
  dagModel : DagModel

def Database.join (db : Database) (ti : TaskInstance) : Option Candidate := do
  let dagRun ← db.dagRuns.find? fun r => r.dagId = ti.dagId ∧ r.runId = ti.runId
  let dagModel ← db.dagModel ti.dagId
  return ⟨ti, dagRun, dagModel⟩

/-- The conditions of the query that do not change between iterations. -/
def Candidate.ready (c : Candidate) : Bool :=
  c.dagRun.runType ≠ .backfillJob ∧ c.dagRun.state = .running ∧ ¬c.dagModel.isPaused ∧
    c.ti.state = some .scheduled

/-- The order of the query: `-priority_weight`, `execution_date`, `map_index`. -/
def Candidate.le (a b : Candidate) : Bool :=
  a.ti.priorityWeight > b.ti.priorityWeight ∨
    a.ti.priorityWeight = b.ti.priorityWeight ∧
      (a.dagRun.executionDate < b.dagRun.executionDate ∨
        a.dagRun.executionDate = b.dagRun.executionDate ∧ a.ti.mapIndex ≤ b.ti.mapIndex)

/-- The local variables of the critical section, with the rows as its own updates leave them. -/
structure Critical where
  pools : List PoolStats
  concurrencyMap : ConcurrencyMap
  starved : List Starved
  executableTis : List TaskInstance := []
  taskInstances : List TaskInstance

/-- The rows that the query of an iteration matches, locked ones apart. -/
def Critical.matching (c : Critical) (db : Database) : List Candidate :=
  (c.taskInstances.filterMap db.join).filter fun r => r.ready ∧ ¬c.starved.any (·.covers r.ti)

/-- `task_instances_to_examine`. -/
def Critical.query (c : Critical) (db : Database) (locked : TaskInstance → Bool) (maxTis : Nat) :
    List Candidate :=
  (((c.matching db).filter (¬locked ·.ti)).mergeSort Candidate.le).take maxTis

/-! ## The loop -/

def Critical.starve (c : Critical) (s : Starved) : Critical :=
  { c with starved := c.starved.insert s }

/-- The scheduled instances of a DAG without a serialized DAG are failed. -/
def Critical.failScheduled (c : Critical) (dagId : String) : Critical :=
  { c with taskInstances := c.taskInstances.map fun ti =>
      if ti.dagId = dagId ∧ ti.state = some .scheduled then { ti with state := some .failed }
      else ti }

/-- The instance is selected, `openSlots` being what its pool had open. -/
def Critical.select (c : Critical) (ti : TaskInstance) (openSlots : Slots) : Critical :=
  { c with
    executableTis := c.executableTis ++ [ti]
    pools := setOpen c.pools ti.pool (openSlots.less ti.poolSlots)
    concurrencyMap := c.concurrencyMap.add ti }

/-- A limit that is set and reached. -/
def limitReached (limit : Option Int) (current : Nat) : Bool :=
  match limit with
  | some n => (current : Int) ≥ n
  | none => false

/-- The limits of the instance's task in the serialized DAG. -/
def SerializedDag.limits (dag : SerializedDag) (taskId : String) : Option Int × Option Int :=
  match dag.getTask taskId with
  | some task => (task.maxActiveTisPerDag, task.maxActiveTisPerDagrun)
  | none => (none, none)

/-- One iteration of the inner loop. -/
def Critical.examine (db : Database) (c : Critical) (candidate : Candidate) : Critical :=
  let ti := candidate.ti
  match getPool c.pools ti.pool with
  | none => c.starve (.pool ti.pool)
  | some poolStats =>
    if poolStats.open.le 0 then c.starve (.pool ti.pool)
    else if poolStats.total.lt ti.poolSlots then c.starve (.task ti.task)
    else if poolStats.open.lt ti.poolSlots then c.starve (.task ti.task)
    else if (c.concurrencyMap.dagActiveTasksMap ti.dagId : Int) ≥
        candidate.dagModel.maxActiveTasks then
      c.starve (.dag ti.dagId)
    else if candidate.dagModel.hasTaskConcurrencyLimits then
      match db.getDag ti.dagId with
      | none => c.failScheduled ti.dagId
      | some serializedDag =>
        let limits := serializedDag.limits ti.taskId
        if limitReached limits.1 (c.concurrencyMap.taskConcurrencyMap ti.task) then
          c.starve (.task ti.task)
        else if limitReached limits.2
            (c.concurrencyMap.taskDagrunConcurrencyMap ti.taskDagrun) then
          c.starve (.taskDagrun ti.taskDagrun)
        else c.select ti poolStats.open
    else c.select ti poolStats.open

/-- The outer loop from iteration `loopCount` on, `none` when the fuel runs out. -/
def Critical.loop (db : Database) (locked : Nat → TaskInstance → Bool) (maxTis : Nat) :
    (fuel loopCount : Nat) → Critical → Option Critical
  | 0, _, _ => none
  | fuel + 1, loopCount, c =>
    let toExamine := c.query db (locked loopCount) maxTis
    if toExamine = [] then some c
    else
      let c' := toExamine.foldl (examine db) c
      let isDone := c'.executableTis ≠ [] ∨ toExamine.length < maxTis
      let foundNewFilters := c'.starved.length > c.starved.length
      if isDone ∨ ¬foundNewFilters then some c'
      else loop db locked maxTis fuel (loopCount + 1) c'

/-- The returned instances and the rows after the call. -/
structure Queued where
  executableTis : List TaskInstance
  taskInstances : List TaskInstance

/-- `sum(max(0, pool["open"]))`. -/
def poolSlotsFree (pools : List PoolStats) : Slots :=
  pools.foldl (fun free p => free.add (match p.open with
    | .finite n => .finite (maxZero n)
    | .infinite => .infinite)) (.finite 0)

/-- `min(max_tis, pool_slots_free)`. -/
def capMaxTis (maxTis : Nat) : Slots → Nat
  | .infinite => maxTis
  | .finite n => if n.toNat < maxTis then n.toNat else maxTis

/-- The local variables before the loop. -/
def Database.critical (db : Database) : Critical where
  pools := slotsStats db
  concurrencyMap := db.getConcurrencyMaps
  starved := ((slotsStats db).filter (·.open.le 0)).map fun p => .pool p.pool
  taskInstances := db.taskInstances

/-- `update(TI)` to `QUEUED` of the selected instances. -/
def setQueued (executableTis rows : List TaskInstance) : List TaskInstance :=
  rows.map fun ti =>
    if ti.key ∈ executableTis.map TaskInstance.key then { ti with state := some .queued } else ti

/-- `_executable_task_instances_to_queued`. -/
def executableTaskInstancesToQueued (db : Database) (locked : Nat → TaskInstance → Bool)
    (maxTis : Nat) : Option Queued :=
  let free := poolSlotsFree (slotsStats db)
  if free = .finite 0 then some ⟨[], db.taskInstances⟩
  else do
    let c ← db.critical.loop db locked (capMaxTis maxTis free) (db.taskInstances.length + 1) 1
    return ⟨c.executableTis, setQueued c.executableTis c.taskInstances⟩

end Airflow.Queueing
