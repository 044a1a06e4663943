import Airflow.Lib.Sql
import Mathlib.Data.List.Sort

/-!
# `XCom.get_many`

The query of `BaseXCom.get_many` (`airflow/models/xcom.py`). `BaseXCom.execution_date` is an
association proxy: a comparison with it is an `EXISTS` over the run of the row. The subquery of the
runs with the given `run_id` is not correlated with anything outside, so it stands in the `FROM` of
that `EXISTS`.
-/

namespace Airflow.XComQuery

open Sql

/-- A row of `dag_run`. -/
structure DagRun where
  id : Nat
  dagId : String
  runId : String
  executionDate : Int
  deriving DecidableEq

/-- A row of `xcom`, without its value. -/
structure XCom where
  dagRunId : Nat
  taskId : String
  mapIndex : Int
  key : String
  dagId : String
  runId : String
  timestamp : Int
  deriving DecidableEq

/-- The primary key of a row of `xcom`. -/
def XCom.primaryKey (xcom : XCom) : Nat × String × Int × String :=
  (xcom.dagRunId, xcom.taskId, xcom.mapIndex, xcom.key)

/-- The tables with their keys; a row of `xcom` repeats the DAG and the run id of its run. -/
structure Tables where
  dagRuns : List DagRun
  xcoms : List XCom
  dagRuns_ids : (dagRuns.map DagRun.id).Nodup
  dagRuns_runIds : (dagRuns.map fun run => (run.dagId, run.runId)).Nodup
  xcoms_keys : (xcoms.map XCom.primaryKey).Nodup
  xcoms_run : ∀ xcom ∈ xcoms, ∀ run ∈ dagRuns, xcom.dagRunId = run.id →
    xcom.dagId = run.dagId ∧ xcom.runId = run.runId

/-- `task_ids`, `dag_ids`: a container of ids or one. -/
inductive IdSelector where
  | container (ids : List String)
  | one (id : String)

/-- `map_indexes`: a range of step 1, another container or an index. -/
inductive MapIndexSelector where
  | range (start stop : Int)
  | container (indexes : List Int)
  | one (index : Int)

def IdSelector.selects (id : String) : IdSelector → Bool
  | .container ids => ids.contains id
  | .one other => id == other

def MapIndexSelector.selects (index : Int) : MapIndexSelector → Bool
  | .range start stop => decide (start ≤ index) && decide (index < stop)
  | .container indexes => indexes.contains index
  | .one other => index == other

/-- The filters on the columns of `xcom`. -/
structure Filters where
  key : Option String := none
  taskIds : Option IdSelector := none
  dagIds : Option IdSelector := none
  mapIndexes : Option MapIndexSelector := none

def Filters.selects (self : Filters) (xcom : XCom) : Bool :=
  self.key.all (fun key => key == "" || xcom.key == key) &&
  self.taskIds.all (·.selects xcom.taskId) && self.dagIds.all (·.selects xcom.dagId) &&
  self.mapIndexes.all (·.selects xcom.mapIndex)

section
variable (tables : Tables)

/-- `session.query(DagRun.execution_date).filter(DagRun.run_id == run_id).subquery()`. -/
def runDates (runId : String) : List Int :=
  (tables.dagRuns.filter (·.runId == runId)).map DagRun.executionDate

/-- `BaseXCom.execution_date <= dr.c.execution_date`. -/
def priorTo (runId : String) (xcom : XCom) : Bool :=
  tables.dagRuns.any fun run => xcom.dagRunId == run.id &&
    (runDates tables runId).any fun date => decide (run.executionDate ≤ date)

/-- The run that is asked for: by its id or, which is deprecated, by its date. -/
inductive RunSelector where
  | runId (id : String)
  | executionDate (date : Int)

/-- The condition on the run of a row. -/
def runCondition (selector : RunSelector) (includePriorDates : Bool) (xcom : XCom)
    (run : DagRun) : Bool :=
  match selector, includePriorDates with
  | .executionDate date, true => decide (run.executionDate ≤ date)
  | .runId id, true => priorTo tables id xcom
  | .executionDate date, false => run.executionDate == date
  | .runId id, false => xcom.runId == id

/-- `ORDER BY execution_date DESC, timestamp DESC`. -/
def Before (a b : XCom × DagRun) : Prop :=
  b.2.executionDate < a.2.executionDate ∨
    a.2.executionDate = b.2.executionDate ∧ b.1.timestamp ≤ a.1.timestamp

instance : DecidableRel Before := fun _ _ => inferInstanceAs (Decidable (_ ∨ _ ∧ _))

/-- `session.query(BaseXCom).join(BaseXCom.dag_run)`. -/
def joined : List (XCom × DagRun) :=
  tables.xcoms.flatMap fun xcom =>
    (tables.dagRuns.filter fun run => xcom.dagRunId == run.id).map fun run => (xcom, run)

/-- `XCom.get_many`. -/
def getMany (selector : RunSelector) (filters : Filters) (includePriorDates : Bool)
    (limit : Option Nat) : List XCom :=
  let rows := (joined tables).filter fun (xcom, run) =>
    filters.selects xcom && runCondition tables selector includePriorDates xcom run
  let sorted := (rows.insertionSort Before).map Prod.fst
  match limit with
  | none | some 0 => sorted
  | some limit => sorted.take limit

/-! ## Prior dates -/

/-- The row is of a run of the DAG that is dated at or before the DAG's run with the id. -/
def AtOrBefore (dagId runId : String) (xcom : XCom) : Prop :=
  xcom.dagId = dagId ∧ ∃ run ∈ tables.dagRuns, xcom.dagRunId = run.id ∧
    ∃ bound ∈ tables.dagRuns, bound.dagId = dagId ∧ bound.runId = runId ∧
      run.executionDate ≤ bound.executionDate

/-- The row is of a run of the DAG that is dated at or before a run of another DAG with the id, and
not at or before the DAG's own one, if there is one. -/
def BeforeForeignRun (dagId runId : String) (xcom : XCom) : Prop :=
  xcom.dagId = dagId ∧ ∃ run ∈ tables.dagRuns, xcom.dagRunId = run.id ∧
    (∃ bound ∈ tables.dagRuns, bound.dagId ≠ dagId ∧ bound.runId = runId ∧
      run.executionDate ≤ bound.executionDate) ∧
    ∀ own ∈ tables.dagRuns, own.dagId = dagId → own.runId = runId →
      own.executionDate < run.executionDate

end

/-!
## Prior dates of another DAG

The runs in the subquery have the given id but are of any DAG, so the bound is the latest of them
(`priorTo_iff`), where the DAG's own run was meant (`getMany_prior_iff`).
-/

variable {tables : Tables}

theorem priorTo_iff {runId : String} {xcom : XCom} :
    priorTo tables runId xcom = true ↔
      ∃ run ∈ tables.dagRuns, xcom.dagRunId = run.id ∧
        ∃ bound ∈ tables.dagRuns, bound.runId = runId ∧
          run.executionDate ≤ bound.executionDate := by
  simp only [priorTo, runDates, List.any_eq_true, Bool.and_eq_true, beq_iff_eq, List.mem_map,
    List.mem_filter, decide_eq_true_eq]
  refine exists_congr fun run => and_congr_right fun _ => and_congr_right fun _ => ?_
  constructor
  · rintro ⟨_, ⟨bound, ⟨hbound, hid⟩, rfl⟩, hle⟩
    exact ⟨bound, hbound, hid, hle⟩
  · rintro ⟨bound, hbound, hid, hle⟩
    exact ⟨_, ⟨bound, ⟨hbound, hid⟩, rfl⟩, hle⟩

/-! ## The join -/

theorem mem_joined {xcom : XCom} {run : DagRun} :
    (xcom, run) ∈ joined tables ↔
      xcom ∈ tables.xcoms ∧ run ∈ tables.dagRuns ∧ xcom.dagRunId = run.id := by
  simp only [joined, List.mem_flatMap, List.mem_map, List.mem_filter, beq_iff_eq, Prod.mk.injEq]
  constructor
  · rintro ⟨xcom', hxcom, run', hrun, rfl, rfl⟩
    exact ⟨hxcom, hrun⟩
  · rintro ⟨hxcom, hrun⟩
    exact ⟨xcom, hxcom, run, hrun, rfl, rfl⟩

theorem run_unique {run run' : DagRun} (hrun : run ∈ tables.dagRuns) (hrun' : run' ∈ tables.dagRuns)
    (h : run.id = run'.id) : run = run' :=
  List.inj_on_of_nodup_map tables.dagRuns_ids hrun hrun' h

/-- A row is joined with one run at most. -/
theorem joined_fst_nodup : ((joined tables).map Prod.fst).Nodup := by
  have hxcoms : tables.xcoms.Nodup := tables.xcoms_keys.of_map _
  have hruns : tables.dagRuns.Nodup := tables.dagRuns_ids.of_map _
  have hjoined : (joined tables).Nodup := by
    unfold joined
    refine List.nodup_flatMap.mpr ⟨fun xcom _ => ?_, ?_⟩
    · exact (hruns.filter _).map fun run run' h => (Prod.mk.inj h).2
    · refine hxcoms.imp fun hne => ?_
      intro pair hpair hpair'
      obtain ⟨run, -, rfl⟩ := List.mem_map.mp hpair
      obtain ⟨run', -, heq⟩ := List.mem_map.mp hpair'
      exact hne (Prod.mk.inj heq).1.symm
  refine hjoined.map_on ?_
  rintro ⟨xcom, run⟩ hpair ⟨xcom', run'⟩ hpair' heq
  obtain rfl : xcom = xcom' := heq
  obtain ⟨-, hrun, hid⟩ := mem_joined.mp hpair
  obtain ⟨-, hrun', hid'⟩ := mem_joined.mp hpair'
  rw [run_unique hrun hrun' (hid.symm.trans hid')]

theorem getMany_nodup (selector : RunSelector) (filters : Filters) (includePriorDates : Bool) :
    (getMany tables selector filters includePriorDates none).Nodup := by
  have hperm := (List.perm_insertionSort Before ((joined tables).filter fun row =>
    filters.selects row.1 && runCondition tables selector includePriorDates row.1 row.2)).map
      Prod.fst
  exact hperm.nodup_iff.mpr (joined_fst_nodup.sublist (List.filter_sublist.map _))

theorem mem_getMany {selector : RunSelector} {filters : Filters} {includePriorDates : Bool}
    {xcom : XCom} :
    xcom ∈ getMany tables selector filters includePriorDates none ↔
      xcom ∈ tables.xcoms ∧ filters.selects xcom = true ∧
        ∃ run ∈ tables.dagRuns, xcom.dagRunId = run.id ∧
          runCondition tables selector includePriorDates xcom run = true := by
  have hperm := (List.perm_insertionSort Before ((joined tables).filter fun row =>
    filters.selects row.1 && runCondition tables selector includePriorDates row.1 row.2)).map
      Prod.fst
  refine hperm.mem_iff.trans ?_
  simp only [List.mem_map, List.mem_filter, Bool.and_eq_true]
  constructor
  · rintro ⟨⟨xcom', run⟩, ⟨hjoined, hfilters, hcondition⟩, rfl⟩
    obtain ⟨hxcom, hrun, hid⟩ := mem_joined.mp hjoined
    exact ⟨hxcom, hfilters, run, hrun, hid, hcondition⟩
  · rintro ⟨hxcom, hfilters, run, hrun, hid, hcondition⟩
    exact ⟨(xcom, run), ⟨mem_joined.mpr ⟨hxcom, hrun, hid⟩, hfilters, hcondition⟩, rfl⟩

theorem mem_getMany_prior {filters : Filters} {runId : String} {xcom : XCom} :
    xcom ∈ getMany tables (.runId runId) filters true none ↔
      xcom ∈ tables.xcoms ∧ filters.selects xcom = true ∧ priorTo tables runId xcom = true := by
  rw [mem_getMany]
  refine and_congr_right fun _ => and_congr_right fun _ => ?_
  constructor
  · rintro ⟨run, -, -, hprior⟩
    exact hprior
  · intro hprior
    obtain ⟨run, hrun, hid, -⟩ := priorTo_iff.mp hprior
    exact ⟨run, hrun, hid, hprior⟩

theorem dagId_of_selects {filters : Filters} {dagId : String} {xcom : XCom}
    (hdag : filters.dagIds = some (.one dagId)) (h : filters.selects xcom = true) :
    xcom.dagId = dagId := by
  unfold Filters.selects at h
  rw [hdag] at h
  simp only [Bool.and_eq_true] at h
  exact beq_iff_eq.mp h.1.2

theorem priorTo_of_atOrBefore {dagId runId : String} {xcom : XCom}
    (h : AtOrBefore tables dagId runId xcom) : priorTo tables runId xcom = true := by
  obtain ⟨-, run, hrun, hid, bound, hbound, -, hrunId, hle⟩ := h
  exact priorTo_iff.mpr ⟨run, hrun, hid, bound, hbound, hrunId, hle⟩

/-- A row before a run with the id is before the DAG's own one, or before a foreign one only. -/
theorem atOrBefore_or_beforeForeignRun {dagId runId : String} {xcom : XCom}
    (hdag : xcom.dagId = dagId) (h : priorTo tables runId xcom = true) :
    AtOrBefore tables dagId runId xcom ∨ BeforeForeignRun tables dagId runId xcom := by
  obtain ⟨run, hrun, hid, bound, hbound, hrunId, hle⟩ := priorTo_iff.mp h
  by_cases hown : ∃ own ∈ tables.dagRuns, own.dagId = dagId ∧ own.runId = runId ∧
      run.executionDate ≤ own.executionDate
  · exact .inl ⟨hdag, run, hrun, hid, hown⟩
  · refine .inr ⟨hdag, run, hrun, hid, ⟨bound, hbound, fun heq => ?_, hrunId, hle⟩, ?_⟩
    · exact hown ⟨bound, hbound, heq, hrunId, hle⟩
    · intro own hmem hdagId hrunId'
      by_contra hge
      exact hown ⟨own, hmem, hdagId, hrunId', not_lt.mp hge⟩

theorem not_both_before {dagId runId : String} {xcom : XCom}
    (h : AtOrBefore tables dagId runId xcom) : ¬BeforeForeignRun tables dagId runId xcom := by
  rintro ⟨-, run', hrun', hid', -, hafter⟩
  obtain ⟨-, run, hrun, hid, own, hown, hdagId, hrunId, hle⟩ := h
  have hlt := hafter own hown hdagId hrunId
  rw [run_unique hrun' hrun (hid'.symm.trans hid)] at hlt
  omega

/-- **Prior dates respect the run's date exactly if no matching row lies before the run of another
DAG only.** -/
theorem getMany_prior_iff (tables : Tables) (filters : Filters) (dagId runId : String)
    (hdag : filters.dagIds = some (.one dagId)) :
    ((getMany tables (.runId runId) filters true none).Nodup ∧
      ∀ xcom, xcom ∈ getMany tables (.runId runId) filters true none ↔
        xcom ∈ tables.xcoms ∧ filters.selects xcom = true ∧
          AtOrBefore tables dagId runId xcom) ↔
    ∀ xcom ∈ tables.xcoms, filters.selects xcom = true →
      ¬BeforeForeignRun tables dagId runId xcom := by
  constructor
  · rintro ⟨-, hmem⟩ xcom hxcom hselects hforeign
    have hprior : priorTo tables runId xcom = true := by
      obtain ⟨-, run, hrun, hid, ⟨bound, hbound, -, hrunId, hle⟩, -⟩ := hforeign
      exact priorTo_iff.mpr ⟨run, hrun, hid, bound, hbound, hrunId, hle⟩
    have hbefore := (hmem xcom).mp (mem_getMany_prior.mpr ⟨hxcom, hselects, hprior⟩)
    exact not_both_before hbefore.2.2 hforeign
  · intro h
    refine ⟨getMany_nodup _ _ _, fun xcom => mem_getMany_prior.trans ?_⟩
    refine and_congr_right fun hxcom => and_congr_right fun hselects => ?_
    refine ⟨fun hprior => ?_, priorTo_of_atOrBefore⟩
    have hdagId := dagId_of_selects hdag hselects
    exact (atOrBefore_or_beforeForeignRun hdagId hprior).resolve_right (h xcom hxcom hselects)

/-- Two DAGs with a run of one id, the second one's later, and a run of the first in between. -/
def twoDags : Tables where
  dagRuns := [⟨1, "first", "manual", 1⟩, ⟨2, "second", "manual", 5⟩, ⟨3, "first", "later", 3⟩]
  xcoms := [⟨3, "task", -1, "return_value", "first", "later", 0⟩]
  dagRuns_ids := by decide
  dagRuns_runIds := by decide
  xcoms_keys := by decide
  xcoms_run := by decide

theorem ownRunOnly_prior :
    (getMany twoDags (.runId "manual") { dagIds := some (.one "second") } true none).Nodup ∧
      ∀ xcom, xcom ∈ getMany twoDags (.runId "manual") { dagIds := some (.one "second") } true
        none ↔ xcom ∈ twoDags.xcoms ∧
          Filters.selects { dagIds := some (.one "second") } xcom = true ∧
            AtOrBefore twoDags "second" "manual" xcom := by
  refine (getMany_prior_iff twoDags { dagIds := some (.one "second") } "second" "manual" rfl).mpr ?_
  intro xcom hxcom hselects
  obtain rfl := List.mem_singleton.mp hxcom
  exact absurd hselects (by decide)

theorem foreignRun_not_prior :
    ¬((getMany twoDags (.runId "manual") { dagIds := some (.one "first") } true none).Nodup ∧
      ∀ xcom, xcom ∈ getMany twoDags (.runId "manual") { dagIds := some (.one "first") } true
        none ↔ xcom ∈ twoDags.xcoms ∧
          Filters.selects { dagIds := some (.one "first") } xcom = true ∧
            AtOrBefore twoDags "first" "manual" xcom) := by
  rintro ⟨-, hmem⟩
  have hreturned : (⟨3, "task", -1, "return_value", "first", "later", 0⟩ : XCom) ∈
      getMany twoDags (.runId "manual") { dagIds := some (.one "first") } true none := by
    decide
  obtain ⟨-, -, -, run, hrun, hid, bound, hbound, hdagId, hrunId, hle⟩ := (hmem _).mp hreturned
  revert run bound
  decide

end Airflow.XComQuery
