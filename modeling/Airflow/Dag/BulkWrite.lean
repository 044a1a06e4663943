import Airflow.Lib.Dict
import Airflow.Lib.Overlay
import Airflow.Lib.Reconcile
import Airflow.Lib.Traced

/-!
# Dataset references

The part of `DAG.bulk_write_to_db` of `airflow/models/dag.py` that keeps the tables of datasets and
of dataset references. A reference is deleted where it is taken out of a relationship. What the
function writes to the other columns and tables is left out, the rows of new DAGs are not. The DAGs
have no sub-DAGs.
-/

namespace Airflow.BulkWrite

/-! ## DAGs -/

/-- `Dataset`; the extra is a JSON text. -/
structure Dataset where
  uri : String
  extra : String

inductive Outlet where
  | dataset (d : Dataset)
  | other

structure Task where
  taskId : String
  outlets : Option (List Outlet)

structure Dag where
  dagId : String
  datasetTriggers : List Dataset
  tasks : List Task

/-- `[x for x in task.outlets or [] if isinstance(x, Dataset)]`. -/
def Task.datasetOutlets (task : Task) : List Dataset :=
  (task.outlets.getD []).filterMap fun
    | .dataset d => some d
    | .other => none

/-! ## Tables -/

structure DatasetModel where
  id : Nat
  uri : String
  extra : String
  isOrphaned : Bool

/-- The table of datasets, with the next primary key. -/
structure Datasets where
  rows : List DatasetModel
  nextId : Nat
  uri_nodup : (rows.map DatasetModel.uri).Nodup
  id_nodup : (rows.map DatasetModel.id).Nodup
  id_lt : ∀ m ∈ rows, m.id < nextId

structure DagScheduleDatasetReference where
  datasetId : Nat
  dagId : String
deriving DecidableEq

structure TaskOutletDatasetReference where
  datasetId : Nat
  dagId : String
  taskId : String
deriving DecidableEq

/-- `dags` are the DAG ids with a row in the table of DAGs. -/
structure Tables where
  dags : Finset String
  datasets : Datasets
  schedule : Finset DagScheduleDatasetReference
  outlets : Finset TaskOutletDatasetReference

/-- The foreign keys to the table of DAGs. -/
structure Tables.Valid (tables : Tables) : Prop where
  schedule_dag : ∀ r ∈ tables.schedule, r.dagId ∈ tables.dags
  outlets_dag : ∀ r ∈ tables.outlets, r.dagId ∈ tables.dags

inductive DbError where
  | keyError (uri : String)
  | integrityError

namespace Datasets

/-- The primary key of a dataset. -/
def idOf (datasets : Datasets) (uri : String) : Option Nat :=
  (datasets.rows.find? (·.uri = uri)).map DatasetModel.id

/-- `stored_datasets[uri].id`. -/
def storedId (datasets : Datasets) (uri : String) : Except DbError Nat :=
  match datasets.idOf uri with
  | some id => .ok id
  | none => .error (.keyError uri)

/-- `stored_dataset.is_orphaned = false()`. -/
def adopt (uri : String) (m : DatasetModel) : DatasetModel :=
  if m.uri = uri then { m with isOrphaned := false } else m

theorem map_uri_adopt (uri : String) (rows : List DatasetModel) :
    (rows.map (adopt uri)).map DatasetModel.uri = rows.map DatasetModel.uri := by
  rw [List.map_map]
  refine List.map_congr_left fun m _ => ?_
  simp only [Function.comp_apply, adopt]
  split <;> rfl

theorem map_id_adopt (uri : String) (rows : List DatasetModel) :
    (rows.map (adopt uri)).map DatasetModel.id = rows.map DatasetModel.id := by
  rw [List.map_map]
  refine List.map_congr_left fun m _ => ?_
  simp only [Function.comp_apply, adopt]
  split <;> rfl

theorem id_not_mem (datasets : Datasets) : datasets.nextId ∉ datasets.rows.map DatasetModel.id := by
  intro hmem
  obtain ⟨m, hm, hid⟩ := List.mem_map.mp hmem
  exact absurd (datasets.id_lt m hm) (by omega)

/-- A dataset that is stored is no orphan, one that is not gets a row. -/
def store (datasets : Datasets) (dataset : Dataset) : Datasets :=
  if h : dataset.uri ∈ datasets.rows.map DatasetModel.uri then
    { rows := datasets.rows.map (adopt dataset.uri)
      nextId := datasets.nextId
      uri_nodup := (map_uri_adopt _ _).symm ▸ datasets.uri_nodup
      id_nodup := (map_id_adopt _ _).symm ▸ datasets.id_nodup
      id_lt := by
        intro m hm
        obtain ⟨m', hm', rfl⟩ := List.mem_map.mp hm
        have hid : (adopt dataset.uri m').id = m'.id := by
          unfold adopt
          split <;> rfl
        exact hid ▸ datasets.id_lt m' hm' }
  else
    { rows := datasets.rows ++ [⟨datasets.nextId, dataset.uri, dataset.extra, false⟩]
      nextId := datasets.nextId + 1
      uri_nodup := by
        rw [List.map_append, List.nodup_append]
        refine ⟨datasets.uri_nodup, by simp, fun a ha b hb hab => h ?_⟩
        obtain rfl : b = dataset.uri := by simpa using hb
        exact hab ▸ ha
      id_nodup := by
        rw [List.map_append, List.nodup_append]
        refine ⟨datasets.id_nodup, by simp, fun a ha b hb hab => datasets.id_not_mem ?_⟩
        obtain rfl : b = datasets.nextId := by simpa using hb
        exact hab ▸ ha
      id_lt := by
        intro m hm
        obtain hm | hm := List.mem_append.mp hm
        · exact Nat.lt_succ_of_lt (datasets.id_lt m hm)
        · obtain rfl := List.mem_singleton.mp hm
          exact Nat.lt_succ_self _ }

end Datasets

/-! ## What the DAGs declare -/

/-- The pairs of a DAG and a dataset that it is scheduled on. -/
def scheduled (dags : List Dag) : List (String × Dataset) :=
  dags.flatMap fun dag => dag.datasetTriggers.map fun dataset => (dag.dagId, dataset)

/-- The tasks and the datasets in their outlets. -/
def produced (dags : List Dag) : List ((String × String) × Dataset) :=
  dags.flatMap fun dag => dag.tasks.flatMap fun task =>
    task.datasetOutlets.map fun dataset => ((dag.dagId, task.taskId), dataset)

/-- The URIs for each key: `dag_references` and `outlet_references`. -/
def references {κ : Type} [DecidableEq κ] (declared : List (κ × Dataset)) : Dict κ (List String) :=
  declared.foldl (fun refs p => refs.update p.1 [] (addKey · p.2.uri)) .empty

/-- `outlet_datasets` and `input_datasets`: of the datasets with one URI the first. -/
def datasetsOf {κ : Type} (declared : List (κ × Dataset)) : Dict String Dataset :=
  declared.foldl (fun d p => d.setDefault p.2.uri p.2) .empty

/-- `all_datasets`. -/
def allDatasets (dags : List Dag) : Dict String Dataset :=
  (datasetsOf (scheduled dags)).entries.foldl (fun d e => d.setDefault e.1 e.2)
    (datasetsOf (produced dags))

/-! ## Writing -/

/-- A DAG that is scheduled on no dataset has no references. -/
def pruneSchedule (existing : Finset String) (rows : Finset DagScheduleDatasetReference)
    (dag : Dag) : Finset DagScheduleDatasetReference :=
  if dag.datasetTriggers.isEmpty && dag.dagId ∈ existing then rows.filter (·.dagId ≠ dag.dagId)
  else rows

/-- A task that produces no dataset has no references. -/
def pruneTask (existing : Finset String) (dagId : String)
    (rows : Finset TaskOutletDatasetReference) (task : Task) : Finset TaskOutletDatasetReference :=
  if task.datasetOutlets.isEmpty && dagId ∈ existing then
    rows.filter fun r => ¬(r.dagId = dagId ∧ r.taskId = task.taskId)
  else rows

def pruneOutlets (existing : Finset String) (rows : Finset TaskOutletDatasetReference) (dag : Dag) :
    Finset TaskOutletDatasetReference :=
  dag.tasks.foldl (pruneTask existing dag.dagId) rows

section
variable {κ ρ : Type} [DecidableEq κ] [DecidableEq ρ]

/-- The references that one key needs. -/
def referencesNeeded (datasets : Datasets) (ref : κ → Nat → ρ) (e : κ × List String) :
    Except DbError (κ × Finset ρ) := do
  let ids ← e.2.mapM datasets.storedId
  return (e.1, (ids.map (ref e.1)).toFinset)

/-- The loops that reconcile the references; `stored` are those known for a key. -/
def reconcileReferences (datasets : Datasets) (ref : κ → Nat → ρ) (stored : κ → Finset ρ)
    (refs : Dict κ (List String)) (rows : Finset ρ) : Except DbError (Finset ρ) := do
  let entries ← refs.entries.mapM (referencesNeeded datasets ref)
  (Reconcile.reconcileAll stored entries rows).elim (.error .integrityError) .ok

end

/-- `DAG.bulk_write_to_db`. -/
def bulkWriteToDb (dags : List Dag) (tables : Tables) : Except DbError Tables := do
  let existing := tables.dags
  let schedule := dags.foldl (pruneSchedule existing) tables.schedule
  let outlets := dags.foldl (pruneOutlets existing) tables.outlets
  let datasets := (allDatasets dags).entries.foldl (fun d e => d.store e.2) tables.datasets
  let schedule ← reconcileReferences datasets (fun dagId id => ⟨id, dagId⟩)
    (fun dagId => schedule.filter fun r => r.dagId = dagId ∧ dagId ∈ existing)
    (references (scheduled dags)) schedule
  let outlets ← reconcileReferences datasets (fun key id => ⟨id, key.1, key.2⟩)
    (fun key => outlets.filter fun r => (r.dagId, r.taskId) = key ∧ key.1 ∈ existing)
    (references (produced dags)) outlets
  return { dags := existing ∪ (dags.map Dag.dagId).toFinset, datasets, schedule, outlets }

/-! ## What is to hold -/

/-- The references of these DAGs are those that they declare, the other ones are as before. -/
structure Mirrors (dags : List Dag) (before after : Tables) : Prop where
  schedule : ∀ r, r ∈ after.schedule ↔
    if r.dagId ∈ dags.map Dag.dagId then
      ∃ dag ∈ dags, dag.dagId = r.dagId ∧
        ∃ dataset ∈ dag.datasetTriggers, after.datasets.idOf dataset.uri = some r.datasetId
    else r ∈ before.schedule
  outlets : ∀ r, r ∈ after.outlets ↔
    if r.dagId ∈ dags.map Dag.dagId then
      ∃ dag ∈ dags, dag.dagId = r.dagId ∧ ∃ task ∈ dag.tasks, task.taskId = r.taskId ∧
        ∃ dataset ∈ task.datasetOutlets, after.datasets.idOf dataset.uri = some r.datasetId
    else r ∈ before.outlets
  /-- Every dataset that is declared has a row. -/
  declared : ∀ dag ∈ dags, ∀ dataset, dataset ∈ dag.datasetTriggers ∨
    (∃ task ∈ dag.tasks, dataset ∈ task.datasetOutlets) →
      ∃ id, after.datasets.idOf dataset.uri = some id
  /-- The datasets that had a row still have it. -/
  kept : ∀ uri id, before.datasets.idOf uri = some id → after.datasets.idOf uri = some id

/-- The reference belongs to a task that its DAG has. -/
def IsCurrent (dags : List Dag) (r : TaskOutletDatasetReference) : Prop :=
  ∃ dag ∈ dags, dag.dagId = r.dagId ∧ ∃ task ∈ dag.tasks, task.taskId = r.taskId

instance (dags : List Dag) (r : TaskOutletDatasetReference) : Decidable (IsCurrent dags r) :=
  inferInstanceAs (Decidable (∃ dag ∈ dags, dag.dagId = r.dagId ∧
    ∃ task ∈ dag.tasks, task.taskId = r.taskId))

end Airflow.BulkWrite
