import Mathlib.Logic.Function.Basic
import Airflow.State

/-!
# Dataset events and the runs they trigger

One DAG that is scheduled on datasets, from when it starts listening: the transactions of
`DatasetManager.register_dataset_change` (`airflow/datasets/manager.py`) and those of
`_create_dag_runs_dataset_triggered` in the scheduler, statement by statement, in any order. A
statement sees what is committed when it runs. Timestamps are arbitrary, except that the two
statements of one registration read a clock that does not run backwards.

* A registration inserts its event (`log`), inserts the queue row of the DAG and the dataset if
  there is none (`queueDagruns`), and commits. An insert waits for another session that has
  inserted, or is deleting, the same row.
* A scheduler reads the queue rows (`readInfo`); later it takes the lock of the DAG's row, selects
  the events and creates the run (`select`), deletes the queue rows (`delete`) and commits.

Every event has the run of its source task, which the selection joins with.
-/

namespace Airflow.DatasetRuns

/-- A row of `dataset_event`; its index in the table is its id. -/
structure DatasetEvent where
  datasetId : Nat
  timestamp : Int
  deriving DecidableEq, Repr

/-- The row of `dataset_dag_run_queue` of the DAG and a dataset. -/
inductive QueueRow where
  | absent
  /-- Inserted by a registration that has not committed. -/
  | uncommitted (registration : Nat) (createdAt : Int)
  | committed (createdAt : Int)
  deriving DecidableEq, Repr

/-- `created_at`, as other sessions see it. -/
def QueueRow.createdAt : QueueRow → Option Int
  | .committed createdAt => some createdAt
  | _ => none

/-- The row after a registration commits. -/
def QueueRow.commit (row : QueueRow) (registration : Nat) : QueueRow :=
  match row with
  | .uncommitted i createdAt =>
    if i = registration then .committed createdAt else .uncommitted i createdAt
  | row => row

/-- A `DATASET_TRIGGERED` run. -/
structure DagRun where
  executionDate : Int
  consumedDatasetEvents : List Nat

/-- Where a `register_dataset_change` transaction is. -/
inductive Registration where
  | idle
  | logged (event : DatasetEvent)
  | queued (event : DatasetEvent)

/-- The scheduler transaction that holds the lock of the DAG's row: the run it creates, how many
events there were when it selected them, and the datasets whose queue rows it has deleted. -/
structure Creation where
  execDate : Int
  datasetEvents : List Nat
  seen : Nat
  deleted : Option (List Nat) := none

/-- The committed tables with the open transactions. `infos` is the `last_queued_time` that a
scheduler has read. -/
structure Database where
  events : List DatasetEvent := []
  queue : Nat → QueueRow := fun _ => .absent
  runs : List DagRun := []
  registrations : Nat → Registration := fun _ => .idle
  infos : Nat → Option Int := fun _ => none
  creating : Option Creation := none

section
variable (datasets : List Nat)

/-- `dags_needing_dagruns` for the DAG: if all its datasets have a row, the latest `created_at`. -/
def lastQueuedTime (queue : Nat → QueueRow) : Option Int :=
  if datasets.all fun d => (queue d).createdAt.isSome then
    (datasets.filterMap fun d => (queue d).createdAt).max?
  else none

/-- The execution date of `previous_dag_run`. -/
def previousDate (runs : List DagRun) (execDate : Int) : Option Int :=
  ((runs.map (·.executionDate)).filter (· < execDate)).max?

/-- `dataset_events`. -/
def selectEvents (events : List DatasetEvent) (runs : List DagRun) (execDate : Int) : List Nat :=
  (events.zipIdx.filter fun e => e.1.datasetId ∈ datasets ∧ e.1.timestamp ≤ execDate ∧
    (previousDate runs execDate).all (· < e.1.timestamp)).map (·.2)

/-- A statement of an open transaction. -/
inductive Statement where
  | log (registration : Nat) (event : DatasetEvent)
  /-- `slowPath` merges the row instead of inserting it with `ON CONFLICT DO NOTHING`, and finds a
  row that is being deleted. -/
  | queueDagruns (registration : Nat) (createdAt : Int) (slowPath : Bool)
  | commitRegistration (registration : Nat)
  | readInfo (scheduler : Nat)
  | select (scheduler : Nat)
  | delete
  | commitCreation

/-- The row of the dataset is being deleted by a transaction that has not committed. -/
def Database.isDeleting (db : Database) (datasetId : Nat) : Bool :=
  match db.creating with
  | some { deleted := some rows, .. } => datasetId ∈ rows
  | _ => false

/-- `_queue_dagruns` of a registration that has logged `event`. -/
def queueDagruns (db : Database) (i : Nat) (event : DatasetEvent) (createdAt : Int)
    (slowPath : Bool) : Database :=
  let queued := { db with registrations := Function.update db.registrations i (.queued event) }
  if event.datasetId ∉ datasets then queued
  else
    match db.queue event.datasetId with
    | .committed _ => if ¬slowPath ∧ db.isDeleting event.datasetId then db else queued
    | .uncommitted _ _ => db
    | .absent =>
      if createdAt < event.timestamp then db
      else
        { queued with
          queue := Function.update db.queue event.datasetId (.uncommitted i createdAt) }

/-- The database after a statement; one that its transaction is not ready for, or that has to wait,
does nothing. -/
def step (db : Database) : Statement → Database
  | .log i event =>
    match db.registrations i with
    | .idle => { db with registrations := Function.update db.registrations i (.logged event) }
    | _ => db
  | .queueDagruns i createdAt slowPath =>
    match db.registrations i with
    | .logged event => queueDagruns datasets db i event createdAt slowPath
    | _ => db
  | .commitRegistration i =>
    match db.registrations i with
    | .queued event =>
      { db with
        events := db.events ++ [event]
        queue := fun d => (db.queue d).commit i
        registrations := Function.update db.registrations i .idle }
    | _ => db
  | .readInfo j =>
    match lastQueuedTime datasets db.queue with
    | some time => { db with infos := Function.update db.infos j (some time) }
    | none => db
  | .select j =>
    match db.infos j with
    | some execDate =>
      let done := { db with infos := Function.update db.infos j none }
      if db.creating.isSome then done
      else if execDate ∈ db.runs.map (·.executionDate) then done
      else
        { done with creating := some {
            execDate
            datasetEvents := selectEvents datasets db.events db.runs execDate
            seen := db.events.length } }
    | none => db
  | .delete =>
    match db.creating with
    | some creation =>
      if creation.deleted.isSome then db
      else
        let rows := datasets.filter fun d => (db.queue d).createdAt.isSome
        { db with creating := some { creation with deleted := some rows } }
    | none => db
  | .commitCreation =>
    match db.creating with
    | some { execDate, datasetEvents, deleted := some rows, .. } =>
      { db with
        runs := db.runs ++ [⟨execDate, datasetEvents⟩]
        queue := fun d => if d ∈ rows then .absent else db.queue d
        creating := none }
    | _ => db

end

end Airflow.DatasetRuns
