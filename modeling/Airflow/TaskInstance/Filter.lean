import Airflow.Lib.Dict
import Airflow.TaskInstance.Key
import Mathlib.Data.List.Dedup

/-!
# The filter that selects given task instances

`TaskInstance.filter_for_tis` (`airflow/models/taskinstance.py`) and the part of SQL that it
builds: conjunctions of comparisons of the four key columns with a value or a list of values, and a
disjunction of them. An empty `or_()` restricts nothing.
-/

namespace Airflow

/-- A comparison of a column of `task_instance`. -/
inductive Comparison where
  | dagId (value : String)
  | runId (value : String)
  | mapIndex (value : Int)
  | taskId (value : String)
  | runIdIn (values : List String)
  | mapIndexIn (values : List Int)
  | taskIdIn (values : List String)

/-- The comparison is true of a row. -/
def Comparison.holds (row : PrimaryKey) : Comparison → Bool
  | .dagId value => row.dagId = value
  | .runId value => row.runId = value
  | .mapIndex value => row.mapIndex = value
  | .taskId value => row.taskId = value
  | .runIdIn values => row.runId ∈ values
  | .mapIndexIn values => row.mapIndex ∈ values
  | .taskIdIn values => row.taskId ∈ values

/-- `and_(...)` of comparisons, or `or_(...)` of conjunctions. -/
inductive BooleanClauseList where
  | and (clauses : List Comparison)
  | or (conjunctions : List (List Comparison))

/-- The condition is true of a row. -/
def BooleanClauseList.holds (row : PrimaryKey) : BooleanClauseList → Bool
  | .and clauses => clauses.all (·.holds row)
  | .or conjunctions => conjunctions.isEmpty || conjunctions.any fun clauses =>
      clauses.all (·.holds row)

namespace FilterForTis

/-- `task_id_groups`, by DAG and run and then by task. -/
def taskIdGroups (tis : List PrimaryKey) : Dict (String × String) (Dict String (List Int)) :=
  tis.foldl (fun groups t => groups.update (t.dagId, t.runId) .empty fun group =>
    group.update t.taskId [] (· ++ [t.mapIndex])) .empty

/-- `map_index_groups`, by DAG and run and then by map index. -/
def mapIndexGroups (tis : List PrimaryKey) : Dict (String × String) (Dict Int (List String)) :=
  tis.foldl (fun groups t => groups.update (t.dagId, t.runId) .empty fun group =>
    group.update t.mapIndex [] (· ++ [t.taskId])) .empty

/-- The conditions for one DAG and run: by the grouping with fewer groups. -/
def runConditions (tis : List PrimaryKey) (curDagId curRunId : String) : List (List Comparison) :=
  let dagTaskIdGroups := (taskIdGroups tis).getD (curDagId, curRunId) .empty
  let dagMapIndexGroups := (mapIndexGroups tis).getD (curDagId, curRunId) .empty
  if dagTaskIdGroups.size ≤ dagMapIndexGroups.size then
    dagTaskIdGroups.entries.map fun (curTaskId, curMapIndices) =>
      [.dagId curDagId, .runId curRunId, .taskId curTaskId, .mapIndexIn curMapIndices]
  else
    dagMapIndexGroups.entries.map fun (curMapIndex, curTaskIds) =>
      [.dagId curDagId, .runId curRunId, .taskIdIn curTaskIds, .mapIndex curMapIndex]

end FilterForTis

open FilterForTis in
/-- `TaskInstance.filter_for_tis`; the task instances by the attributes that it reads. -/
def filterForTis (tis : List PrimaryKey) : Option BooleanClauseList :=
  match tis with
  | [] => none
  | first :: _ =>
    let dagIds := (tis.map (·.dagId)).dedup
    let runIds := (tis.map (·.runId)).dedup
    let mapIndices := (tis.map (·.mapIndex)).dedup
    let taskIds := (tis.map (·.taskId)).dedup
    if dagIds = [first.dagId] ∧ runIds = [first.runId] ∧ mapIndices = [first.mapIndex] then
      some (.and [.dagId first.dagId, .runId first.runId, .mapIndex first.mapIndex,
        .taskIdIn taskIds])
    else if dagIds = [first.dagId] ∧ taskIds = [first.taskId] ∧ mapIndices = [first.mapIndex] then
      some (.and [.dagId first.dagId, .runIdIn runIds, .mapIndex first.mapIndex,
        .taskId first.taskId])
    else if dagIds = [first.dagId] ∧ runIds = [first.runId] ∧ taskIds = [first.taskId] then
      some (.and [.dagId first.dagId, .runId first.runId, .mapIndexIn mapIndices,
        .taskId first.taskId])
    else
      some (.or (dagIds.flatMap fun curDagId =>
        runIds.flatMap fun curRunId => runConditions tis curDagId curRunId))

/-!
## The filter selects exactly the given task instances

Both groupings hold the given keys and nothing else (`holds_taskIdGroups`, `holds_mapIndexGroups`),
whichever of them a DAG and run is selected by. In the common paths the columns that are compared
with one value have that value in all keys (`mem_iff_of_common`).
-/

namespace FilterForTis

variable {tis : List PrimaryKey} {row t : PrimaryKey} {dagId runId : String}

/-! ## The groups -/

/-- What a group of lists holds. -/
def InGroup {κ ν : Type} [DecidableEq κ] (group : Dict κ (List ν)) (p : κ × ν) : Prop :=
  group.Holds (fun values value => value ∈ values) p

theorem inGroup_update {κ ν : Type} [DecidableEq κ] {group : Dict κ (List ν)} {k : κ} {v : ν}
    {p : κ × ν} :
    InGroup (group.update k [] (· ++ [v])) p ↔ InGroup group p ∨ p = (k, v) :=
  Dict.holds_update (fun _ => List.not_mem_nil) fun values value => by
    rw [List.mem_append, List.mem_singleton]

theorem not_inGroup_empty {κ ν : Type} [DecidableEq κ] {p : κ × ν} :
    ¬InGroup (.empty : Dict κ (List ν)) p := Dict.not_holds_empty

theorem eq_of_columns (hdag : row.dagId = t.dagId) (htask : row.taskId = t.taskId)
    (hrun : row.runId = t.runId) (hmap : row.mapIndex = t.mapIndex) : row = t := by
  obtain ⟨dagId, taskId, runId, mapIndex⟩ := row
  obtain ⟨dagId', taskId', runId', mapIndex'⟩ := t
  subst hdag htask hrun hmap
  rfl

/-- Keys in groups by DAG and run and then by one column, of which the groups hold another. -/
theorem holds_groups {κ ν : Type} [DecidableEq κ] (column : PrimaryKey → κ)
    (value : PrimaryKey → ν)
    (hinj : ∀ t : PrimaryKey, row.dagId = t.dagId → row.runId = t.runId →
      column row = column t → value row = value t → row = t) :
    (tis.foldl (fun (groups : Dict (String × String) (Dict κ (List ν))) t =>
        groups.update (t.dagId, t.runId) .empty fun group =>
          group.update (column t) [] (· ++ [value t])) .empty).Holds InGroup
      ((row.dagId, row.runId), column row, value row) ↔ row ∈ tis := by
  rw [Dict.holds_group (fun t : PrimaryKey => (t.dagId, t.runId))
    (fun t => (column t, value t)) (fun t group => group.update (column t) [] (· ++ [value t]))
    (fun _ => not_inGroup_empty) (fun _ _ _ => inGroup_update) tis,
    or_iff_right Dict.not_holds_empty]
  constructor
  · rintro ⟨t, ht, heq⟩
    obtain ⟨hkey, hpair⟩ := Prod.mk.inj heq
    obtain ⟨hdag, hrun⟩ := Prod.mk.inj hkey
    obtain ⟨hcolumn, hvalue⟩ := Prod.mk.inj hpair
    rw [hinj t hdag hrun hcolumn hvalue]
    exact ht
  · exact fun h => ⟨row, h, rfl⟩

theorem holds_taskIdGroups : (taskIdGroups tis).Holds InGroup
      ((row.dagId, row.runId), row.taskId, row.mapIndex) ↔ row ∈ tis :=
  holds_groups PrimaryKey.taskId PrimaryKey.mapIndex fun _ hdag hrun htask hmap =>
    eq_of_columns hdag htask hrun hmap

theorem holds_mapIndexGroups : (mapIndexGroups tis).Holds InGroup
      ((row.dagId, row.runId), row.mapIndex, row.taskId) ↔ row ∈ tis :=
  holds_groups PrimaryKey.mapIndex PrimaryKey.taskId fun _ hdag hrun hmap htask =>
    eq_of_columns hdag htask hrun hmap

/-! ## The conditions of one DAG and run -/

/-- All clauses of some conjunction are true of the row. -/
def AnyHolds (row : PrimaryKey) (conjunctions : List (List Comparison)) : Prop :=
  ∃ clauses ∈ conjunctions, clauses.all (·.holds row) = true

/-- The conditions of a DAG and run are true of the given rows of this run. -/
theorem anyHolds_runConditions : AnyHolds row (runConditions tis dagId runId) ↔
    row ∈ tis ∧ row.dagId = dagId ∧ row.runId = runId := by
  have hrun : row ∈ tis ∧ row.dagId = dagId ∧ row.runId = runId ↔
      row.dagId = dagId ∧ row.runId = runId ∧ row ∈ tis := by
    constructor
    · rintro ⟨hmem, hdag, hrun⟩
      exact ⟨hdag, hrun, hmem⟩
    · rintro ⟨hdag, hrun, hmem⟩
      exact ⟨hmem, hdag, hrun⟩
  rw [hrun, AnyHolds, runConditions]
  by_cases hkey : row.dagId = dagId ∧ row.runId = runId
  · obtain ⟨rfl, rfl⟩ := hkey
    simp only [true_and]
    split
    · rw [← holds_taskIdGroups, Dict.holds_iff_getD fun _ => not_inGroup_empty, InGroup,
        Dict.holds_iff_entries]
      simp [Comparison.holds]
    · rw [← holds_mapIndexGroups, Dict.holds_iff_getD fun _ => not_inGroup_empty, InGroup,
        Dict.holds_iff_entries]
      simp [Comparison.holds, and_comm]
  · have hnot : ¬(row.dagId = dagId ∧ row.runId = runId ∧ row ∈ tis) := by
      rintro ⟨hdag, hrun, -⟩
      exact hkey ⟨hdag, hrun⟩
    refine iff_of_false ?_ hnot
    rintro ⟨clauses, hmem, hall⟩
    apply hkey
    split at hmem <;> obtain ⟨e, -, rfl⟩ := List.mem_map.mp hmem <;>
      simp_all [Comparison.holds]

/-! ## The filter -/

theorem eq_of_dedup_eq_singleton {ι : Type} [DecidableEq ι] {f : PrimaryKey → ι} {a : ι}
    (h : (tis.map f).dedup = [a]) (ht : t ∈ tis) : f t = a := by
  have hmem : f t ∈ (tis.map f).dedup := List.mem_dedup.mpr (List.mem_map_of_mem ht)
  rw [h] at hmem
  exact List.mem_singleton.mp hmem

theorem mem_dedup_map {ι : Type} [DecidableEq ι] {f : PrimaryKey → ι} {a : ι} :
    a ∈ (tis.map f).dedup ↔ ∃ t ∈ tis, f t = a := by
  rw [List.mem_dedup, List.mem_map]

theorem triple_inj {ι κ ν : Type} {a a' : ι} {b b' : κ} {c c' : ν}
    (h : (a, b, c) = (a', b', c')) : a = a' ∧ b = b' ∧ c = c' := by
  simpa only [Prod.mk.injEq] using h

/-- Some columns have one value in all keys, and the values of the other are listed. -/
theorem mem_iff_of_common {ι κ : Type} [DecidableEq κ] {f : PrimaryKey → ι} {g : PrimaryKey → κ}
    {a : ι} (hcommon : ∀ t ∈ tis, f t = a)
    (hinj : ∀ t : PrimaryKey, f row = f t → g row = g t → row = t) :
    f row = a ∧ g row ∈ (tis.map g).dedup ↔ row ∈ tis := by
  constructor
  · rintro ⟨hf, hg⟩
    obtain ⟨t, ht, hsame⟩ := mem_dedup_map.mp hg
    rw [hinj t (hf.trans (hcommon t ht).symm) hsame.symm]
    exact ht
  · exact fun h => ⟨hcommon row h, mem_dedup_map.mpr ⟨row, h, rfl⟩⟩

/-- The disjunction over all DAGs and runs is true of the given rows. -/
theorem anyHolds_all : AnyHolds row ((tis.map (·.dagId)).dedup.flatMap fun curDagId =>
      (tis.map (·.runId)).dedup.flatMap fun curRunId => runConditions tis curDagId curRunId) ↔
    row ∈ tis := by
  constructor
  · rintro ⟨clauses, hmem, hall⟩
    obtain ⟨curDagId, -, hmem⟩ := List.mem_flatMap.mp hmem
    obtain ⟨curRunId, -, hmem⟩ := List.mem_flatMap.mp hmem
    exact (anyHolds_runConditions.mp ⟨clauses, hmem, hall⟩).1
  · intro h
    obtain ⟨clauses, hmem, hall⟩ := anyHolds_runConditions.mpr ⟨h, rfl, rfl⟩
    refine ⟨clauses, List.mem_flatMap.mpr ⟨row.dagId, ?_, ?_⟩, hall⟩
    · exact mem_dedup_map.mpr ⟨row, h, rfl⟩
    · exact List.mem_flatMap.mpr ⟨row.runId, mem_dedup_map.mpr ⟨row, h, rfl⟩, hmem⟩

theorem holds_or {conjunctions : List (List Comparison)} (h : conjunctions ≠ []) :
    (BooleanClauseList.or conjunctions).holds row = true ↔ AnyHolds row conjunctions := by
  have hempty : conjunctions.isEmpty = false := by
    rw [List.isEmpty_eq_false_iff]
    exact h
  rw [BooleanClauseList.holds, hempty, Bool.false_or, List.any_eq_true]
  rfl

end FilterForTis

open FilterForTis

/-- **The filter is true of a row exactly when it is one of the given.** -/
theorem filterForTis_holds (first : PrimaryKey) (rest : List PrimaryKey) :
    ∃ condition, filterForTis (first :: rest) = some condition ∧
      ∀ row, condition.holds row = true ↔ row ∈ first :: rest := by
  simp only [filterForTis]
  split
  · rename_i h
    obtain ⟨hdag, hrun, hmap⟩ := h
    refine ⟨_, rfl, fun row => ?_⟩
    rw [← @mem_iff_of_common _ row _ _ _ (fun t => (t.dagId, t.runId, t.mapIndex))
      PrimaryKey.taskId (first.dagId, first.runId, first.mapIndex)]
    · simp [BooleanClauseList.holds, Comparison.holds, and_assoc]
    · intro t ht
      rw [eq_of_dedup_eq_singleton hdag ht, eq_of_dedup_eq_singleton hrun ht,
        eq_of_dedup_eq_singleton hmap ht]
    · intro t hsame htask
      obtain ⟨hdag, hrun, hmap⟩ := triple_inj hsame
      exact eq_of_columns hdag htask hrun hmap
  split
  · rename_i h
    obtain ⟨hdag, htask, hmap⟩ := h
    refine ⟨_, rfl, fun row => ?_⟩
    rw [← @mem_iff_of_common _ row _ _ _ (fun t => (t.dagId, t.taskId, t.mapIndex))
      PrimaryKey.runId (first.dagId, first.taskId, first.mapIndex)]
    · simp [BooleanClauseList.holds, Comparison.holds, and_assoc, and_comm, and_left_comm]
    · intro t ht
      rw [eq_of_dedup_eq_singleton hdag ht, eq_of_dedup_eq_singleton htask ht,
        eq_of_dedup_eq_singleton hmap ht]
    · intro t hsame hrun
      obtain ⟨hdag, htask, hmap⟩ := triple_inj hsame
      exact eq_of_columns hdag htask hrun hmap
  split
  · rename_i h
    obtain ⟨hdag, hrun, htask⟩ := h
    refine ⟨_, rfl, fun row => ?_⟩
    rw [← @mem_iff_of_common _ row _ _ _ (fun t => (t.dagId, t.runId, t.taskId))
      PrimaryKey.mapIndex (first.dagId, first.runId, first.taskId)]
    · simp [BooleanClauseList.holds, Comparison.holds, and_assoc, and_comm, and_left_comm]
    · intro t ht
      rw [eq_of_dedup_eq_singleton hdag ht, eq_of_dedup_eq_singleton hrun ht,
        eq_of_dedup_eq_singleton htask ht]
    · intro t hsame hmap
      obtain ⟨hdag, hrun, htask⟩ := triple_inj hsame
      exact eq_of_columns hdag htask hrun hmap
  · refine ⟨_, rfl, fun row => ?_⟩
    rw [holds_or, anyHolds_all]
    -- the first of the given rows is selected by some condition
    obtain ⟨clauses, hmem, -⟩ := anyHolds_all.mpr (List.mem_cons_self (a := first) (l := rest))
    exact List.ne_nil_of_mem hmem

end Airflow
