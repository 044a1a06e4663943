import Airflow.Scheduler.NextDagrun
import Mathlib.Data.List.Nodup

/-!
# `run_cleanup` of `dag_run` and the last automated run

`_subquery_keep_last`, `_build_query` and `_cleanup_table` of `airflow/utils/db_cleanup.py` for any
table, the configuration of `dag_run`, and the part of `DAG.bulk_write_to_db` that computes the
next run of a DAG from its runs. A comparison with `NULL` is not true.
-/

namespace Airflow.DbCleanup

open NextDagrun (DataInterval DagRunInfo DagModel)

/-! ## The cleanup of a table -/

section
variable {ρ γ : Type} [DecidableEq γ]

/-- `_TableConfig`: the recency column, and which records the last one of a group is among. -/
structure TableConfig (ρ γ : Type) where
  recency : ρ → Option Int
  keepLast : Bool
  keepLastFilters : ρ → Bool
  keepLastGroupBy : ρ → γ

variable (config : TableConfig ρ γ) (cleanBeforeTimestamp : Int) (rows : List ρ)

/-- `max_date_per_group` of a group, in `_subquery_keep_last`. -/
def subqueryKeepLast (group : γ) : Option Int :=
  ((rows.filter fun row =>
    config.keepLastFilters row && decide (config.keepLastGroupBy row = group)).filterMap
      config.recency).max?

/-- `_build_query`: the rows to delete. Where the outer join finds a partner, its
`max_date_per_group` is the row's own date. -/
def buildQuery (row : ρ) : Bool :=
  match config.recency row with
  | none => false
  | some date =>
    decide (date < cleanBeforeTimestamp) &&
      !(config.keepLast &&
        decide (subqueryKeepLast config rows (config.keepLastGroupBy row) = some date))

/-- `_cleanup_table`. -/
def cleanupTable (dryRun : Bool) : List ρ :=
  if dryRun then rows else rows.filter (!buildQuery config cleanBeforeTimestamp rows ·)

end

/-! ## `dag_run` -/

/-- A row of `dag_run`. -/
structure DagRun where
  dagId : String
  runType : DagRunType
  executionDate : Int
  startDate : Option Int
  externalTrigger : Option Bool
  dataInterval : Option DataInterval
  state : DagRunState
  deriving DecidableEq, Repr

/-- The rows, of which no two have the same DAG and logical date. -/
structure DagRunTable where
  rows : List DagRun
  key_nodup : (rows.map fun run => (run.dagId, run.executionDate)).Nodup

/-- The entry of `config_list`. -/
def dagRunConfig : TableConfig DagRun String where
  recency := DagRun.startDate
  keepLast := true
  keepLastFilters run := run.externalTrigger = some false
  keepLastGroupBy := DagRun.dagId

theorem cleanupTable_sublist {ρ γ : Type} [DecidableEq γ] (config : TableConfig ρ γ)
    (cleanBeforeTimestamp : Int) (rows : List ρ) (dryRun : Bool) :
    (cleanupTable config cleanBeforeTimestamp rows dryRun).Sublist rows := by
  unfold cleanupTable
  split
  · exact List.Sublist.refl rows
  · exact List.filter_sublist

theorem cleanup_key_nodup (cleanBeforeTimestamp : Int) (dryRun : Bool) (table : DagRunTable) :
    ((cleanupTable dagRunConfig cleanBeforeTimestamp table.rows dryRun).map
      fun run => (run.dagId, run.executionDate)).Nodup :=
  table.key_nodup.sublist ((cleanupTable_sublist _ _ _ _).map _)

/-- `run_cleanup` of `dag_run`. -/
def runCleanup (cleanBeforeTimestamp : Int) (dryRun : Bool) (table : DagRunTable) :
    DagRunTable where
  rows := cleanupTable dagRunConfig cleanBeforeTimestamp table.rows dryRun
  key_nodup := cleanup_key_nodup cleanBeforeTimestamp dryRun table

/-! ## `bulk_write_to_db` -/

/-- `SCHEDULED` and `BACKFILL_JOB`. -/
def DagRun.isAutomated (run : DagRun) : Bool :=
  run.runType = .backfillJob ∨ run.runType = .scheduled

/-- `dag_id_to_last_automated_run[dag_id]`. -/
def lastAutomatedRun (table : DagRunTable) (dagId : String) : Option DagRun :=
  table.rows.find? fun run =>
    decide (run.dagId = dagId) && run.isAutomated &&
      table.rows.all fun other =>
        !(decide (other.dagId = dagId) && other.isAutomated) ||
          decide (other.executionDate ≤ run.executionDate)

/-- `num_active_runs[dag_id]`. -/
def numActiveRuns (table : DagRunTable) (dagId : String) : Nat :=
  table.rows.countP fun run =>
    run.dagId = dagId ∧ (run.state = .queued ∨ run.state = .running)

/-- A DAG that is synced: its id and `max_active_runs`, the data interval of its runs
(`get_run_data_interval`), and its `next_dagrun_info`. -/
structure Dag where
  dagId : String
  maxActiveRuns : Nat
  getRunDataInterval : DagRun → DataInterval
  nextDagrunInfo : Option DataInterval → Option DagRunInfo

/-- `calculate_dagrun_date_fields`. -/
def calculateDagrunDateFields (dag : Dag) (last : Option DataInterval) (dagModel : DagModel) :
    DagModel :=
  match dag.nextDagrunInfo last with
  | none =>
    { dagModel with
      nextDagrun := none, nextDagrunDataInterval := none, nextDagrunCreateAfter := none }
  | some info =>
    { dagModel with
      nextDagrun := some info.logicalDate
      nextDagrunDataInterval := some info.dataInterval
      nextDagrunCreateAfter := some info.runAfter }

/-- `bulk_write_to_db` for a DAG that has a row; `canBeScheduled` tells whether a DAG of the bulk
can be scheduled at all. -/
def bulkWriteToDb (dag : Dag) (canBeScheduled : Bool) (table : DagRunTable) (dagModel : DagModel) :
    DagModel :=
  let last := if canBeScheduled then lastAutomatedRun table dag.dagId else none
  let active := if canBeScheduled then numActiveRuns table dag.dagId else 0
  if active ≥ dag.maxActiveRuns then { dagModel with nextDagrunCreateAfter := none }
  else calculateDagrunDateFields dag (last.map dag.getRunDataInterval) dagModel

/-!
## What the cleanup keeps of a schedule (`DbCleanup.continues_iff`)

`run_cleanup` keeps for each DAG the run that started last among those that were not triggered
externally; `bulk_write_to_db` goes on from the automated run with the last logical date. The
schedule continues where the second is not deleted: it is not older than the cutoff, or it is among
the first (`StartedLast`).
-/

open NextDagrun (DataInterval DagModel)

variable {table : DagRunTable} {run : DagRun} {cleanBeforeTimestamp : Int}

/-- The automated run of its DAG with the greatest logical date. -/
structure IsLastAutomated (table : DagRunTable) (run : DagRun) : Prop where
  mem : run ∈ table.rows
  automated : run.isAutomated = true
  last : ∀ other ∈ table.rows, other.dagId = run.dagId → other.isAutomated = true →
    other.executionDate ≤ run.executionDate

/-- The schedules continue: the last automated runs are kept, what `bulk_write_to_db` computes for
a DAG below its `max_active_runs` stays the same, and a run that is gone is older than the cutoff. -/
structure Continues (cleanBeforeTimestamp : Int) (before later : DagRunTable) : Prop where
  kept : ∀ run, IsLastAutomated before run → run ∈ later.rows
  same : ∀ dag canBeScheduled dagModel,
    (canBeScheduled = true → numActiveRuns before dag.dagId < dag.maxActiveRuns) →
      bulkWriteToDb dag canBeScheduled later dagModel =
        bulkWriteToDb dag canBeScheduled before dagModel
  older : ∀ run ∈ before.rows, run ∉ later.rows →
    ∃ date, run.startDate = some date ∧ date < cleanBeforeTimestamp

/-- No run of the same DAG that was not triggered externally started after this one, and one
started then. -/
def StartedLast (table : DagRunTable) (run : DagRun) (date : Int) : Prop :=
  (∃ other ∈ table.rows, other.dagId = run.dagId ∧ other.externalTrigger = some false ∧
    other.startDate = some date) ∧
    ∀ other ∈ table.rows, other.dagId = run.dagId → other.externalTrigger = some false →
      ∀ date', other.startDate = some date' → date' ≤ date

/-! ## The query -/

theorem subqueryKeepLast_eq_some {date : Int} :
    subqueryKeepLast dagRunConfig table.rows run.dagId = some date ↔
      StartedLast table run date := by
  have hgroup : ∀ other : DagRun, decide (dagRunConfig.keepLastGroupBy other = run.dagId) = true ↔
      other.dagId = run.dagId := fun other => decide_eq_true_iff
  have hfilter : ∀ other : DagRun, dagRunConfig.keepLastFilters other = true ↔
      other.externalTrigger = some false := fun other => decide_eq_true_iff
  have hrecency : ∀ other : DagRun, dagRunConfig.recency other = other.startDate := fun _ => rfl
  rw [subqueryKeepLast, List.max?_eq_some_iff]
  simp only [List.mem_filterMap, List.mem_filter, Bool.and_eq_true, hgroup, hfilter, hrecency]
  constructor
  · rintro ⟨⟨other, ⟨hmem, hext, hdag⟩, hdate⟩, hmax⟩
    exact ⟨⟨other, hmem, hdag, hext, hdate⟩, fun other' hmem' hdag' hext' date' hdate' =>
      hmax date' ⟨other', ⟨hmem', hext', hdag'⟩, hdate'⟩⟩
  · rintro ⟨⟨other, hmem, hdag, hext, hdate⟩, hmax⟩
    refine ⟨⟨other, ⟨hmem, hext, hdag⟩, hdate⟩, ?_⟩
    rintro date' ⟨other', ⟨hmem', hext', hdag'⟩, hdate'⟩
    exact hmax other' hmem' hdag' hext' date' hdate'

/-- A run is kept if it has no start date, if it started at the cutoff or later, or if it started
last. -/
theorem mem_runCleanup (hmem : run ∈ table.rows) :
    run ∈ (runCleanup cleanBeforeTimestamp false table).rows ↔
      ∀ date, run.startDate = some date → date < cleanBeforeTimestamp →
        StartedLast table run date := by
  have hquery : run ∈ (runCleanup cleanBeforeTimestamp false table).rows ↔
      buildQuery dagRunConfig cleanBeforeTimestamp table.rows run = false := by
    simp only [runCleanup, cleanupTable, Bool.false_eq_true, if_false, List.mem_filter,
      Bool.not_eq_true', hmem, true_and]
  rw [hquery, buildQuery]
  cases hdate : run.startDate with
  | none =>
    have hrecency : dagRunConfig.recency run = none := hdate
    rw [hrecency]
    exact iff_of_true rfl fun date h => by cases h
  | some date =>
    have hrecency : dagRunConfig.recency run = some date := hdate
    have hgroup : dagRunConfig.keepLastGroupBy run = run.dagId := rfl
    have hkeep : dagRunConfig.keepLast = true := rfl
    rw [hrecency, hgroup, hkeep]
    simp only [Bool.true_and, Bool.and_eq_false_iff, decide_eq_false_iff_not,
      Bool.not_eq_false', decide_eq_true_iff, subqueryKeepLast_eq_some]
    constructor
    · rintro h date' heq hlt
      cases heq
      exact h.resolve_left (not_not.mpr hlt)
    · intro h
      by_cases hlt : date < cleanBeforeTimestamp
      · exact .inr (h date rfl hlt)
      · exact .inl hlt

/-! ## The last automated run -/

theorem mem_of_mem_runCleanup {dryRun : Bool}
    (h : run ∈ (runCleanup cleanBeforeTimestamp dryRun table).rows) : run ∈ table.rows :=
  (cleanupTable_sublist dagRunConfig cleanBeforeTimestamp table.rows dryRun).subset h

theorem IsLastAutomated.unique {other : DagRun} (h : IsLastAutomated table run)
    (h' : IsLastAutomated table other) (hdag : other.dagId = run.dagId) : other = run := by
  refine List.inj_on_of_nodup_map table.key_nodup h'.mem h.mem (Prod.ext hdag ?_)
  exact Int.le_antisymm (h.last other h'.mem hdag h'.automated)
    (h'.last run h.mem hdag.symm h.automated)

theorem lastAutomatedRun_eq_some {dagId : String} :
    lastAutomatedRun table dagId = some run ↔ IsLastAutomated table run ∧ run.dagId = dagId := by
  have hcheck : ∀ r ∈ table.rows, (decide (r.dagId = dagId) && r.isAutomated &&
      table.rows.all fun other =>
        !(decide (other.dagId = dagId) && other.isAutomated) ||
          decide (other.executionDate ≤ r.executionDate)) = true ↔
        IsLastAutomated table r ∧ r.dagId = dagId := by
    intro r hr
    simp only [Bool.and_eq_true, decide_eq_true_iff, List.all_eq_true, Bool.or_eq_true,
      Bool.not_eq_true', Bool.and_eq_false_iff, decide_eq_false_iff_not]
    constructor
    · rintro ⟨⟨hdag, hauto⟩, hall⟩
      refine ⟨⟨hr, hauto, fun other hother hdag' hauto' => ?_⟩, hdag⟩
      rcases hall other hother with (hne | hfalse) | hle
      · exact absurd (hdag'.trans hdag) hne
      · rw [hauto'] at hfalse
        cases hfalse
      · exact hle
    · rintro ⟨h, hdag⟩
      refine ⟨⟨hdag, h.automated⟩, fun other hother => ?_⟩
      by_cases hdag' : other.dagId = dagId
      · cases hauto : other.isAutomated with
        | false => exact .inl (.inr rfl)
        | true => exact .inr (h.last other hother (hdag'.trans hdag.symm) hauto)
      · exact .inl (.inl hdag')
  constructor
  · intro hfind
    have hmem := List.mem_of_find?_eq_some hfind
    have hsome := List.find?_some hfind
    exact (hcheck run hmem).mp hsome
  · rintro ⟨h, hdag⟩
    cases hfind : lastAutomatedRun table dagId with
    | none =>
      have hnot := List.find?_eq_none.mp hfind run h.mem
      exact absurd ((hcheck run h.mem).mpr ⟨h, hdag⟩) hnot
    | some other =>
      have hmem := List.mem_of_find?_eq_some hfind
      have hsome := List.find?_some hfind
      obtain ⟨h', hdag'⟩ := (hcheck other hmem).mp hsome
      rw [h.unique h' (hdag'.trans hdag.symm)]

theorem exists_isLastAutomated {dagId : String}
    (h : ∃ run ∈ table.rows, run.dagId = dagId ∧ run.isAutomated = true) :
    ∃ run, IsLastAutomated table run ∧ run.dagId = dagId := by
  obtain ⟨run, hmem, hdag, hauto⟩ := h
  have hfilter : run ∈ table.rows.filter fun r => decide (r.dagId = dagId) && r.isAutomated :=
    List.mem_filter.mpr ⟨hmem, by simp [hdag, hauto]⟩
  obtain ⟨date, hdate⟩ := Option.isSome_iff_exists.mp
    (List.isSome_max?_of_mem (List.mem_map_of_mem (f := DagRun.executionDate) hfilter))
  obtain ⟨hin, hmax⟩ := List.max?_eq_some_iff.mp hdate
  obtain ⟨last, hlast, rfl⟩ := List.mem_map.mp hin
  obtain ⟨hmem', hprops⟩ := List.mem_filter.mp hlast
  simp only [Bool.and_eq_true, decide_eq_true_iff] at hprops
  refine ⟨last, ⟨hmem', hprops.2, fun other hother hdag' hauto' => ?_⟩, hprops.1⟩
  refine hmax _ (List.mem_map_of_mem (List.mem_filter.mpr ⟨hother, ?_⟩))
  simp [hdag', hprops.1, hauto']

/-- The same run is the last automated one after the cleanup if the last ones are kept. -/
theorem lastAutomatedRun_runCleanup {dryRun : Bool}
    (hkept : ∀ run, IsLastAutomated table run →
      run ∈ (runCleanup cleanBeforeTimestamp dryRun table).rows) (dagId : String) :
    lastAutomatedRun (runCleanup cleanBeforeTimestamp dryRun table) dagId =
      lastAutomatedRun table dagId := by
  ext run
  rw [lastAutomatedRun_eq_some, lastAutomatedRun_eq_some]
  refine and_congr_left fun hdag => ⟨fun h => ?_, fun h => ?_⟩
  · have hmem := mem_of_mem_runCleanup h.mem
    obtain ⟨last, hlast, hdag'⟩ := exists_isLastAutomated ⟨run, hmem, hdag, h.automated⟩
    have hlast' : IsLastAutomated (runCleanup cleanBeforeTimestamp dryRun table) last :=
      ⟨hkept last hlast, hlast.automated, fun other hother =>
        hlast.last other (mem_of_mem_runCleanup hother)⟩
    rw [h.unique hlast' (hdag'.trans hdag.symm)] at hlast
    exact hlast
  · exact ⟨hkept run h, h.automated, fun other hother =>
      h.last other (mem_of_mem_runCleanup hother)⟩

theorem numActiveRuns_runCleanup_le (cleanBeforeTimestamp : Int) (dryRun : Bool)
    (table : DagRunTable) (dagId : String) :
    numActiveRuns (runCleanup cleanBeforeTimestamp dryRun table) dagId ≤
      numActiveRuns table dagId :=
  (cleanupTable_sublist dagRunConfig cleanBeforeTimestamp table.rows dryRun).countP_le

/-- `bulk_write_to_db` computes the same if the last automated runs are kept. -/
theorem bulkWriteToDb_runCleanup {dryRun canBeScheduled : Bool} {dag : Dag} {dagModel : DagModel}
    (hkept : ∀ run, IsLastAutomated table run →
      run ∈ (runCleanup cleanBeforeTimestamp dryRun table).rows)
    (hactive : canBeScheduled = true → numActiveRuns table dag.dagId < dag.maxActiveRuns) :
    bulkWriteToDb dag canBeScheduled (runCleanup cleanBeforeTimestamp dryRun table) dagModel =
      bulkWriteToDb dag canBeScheduled table dagModel := by
  cases canBeScheduled with
  | false => rfl
  | true =>
    have hlt := hactive rfl
    have hle := numActiveRuns_runCleanup_le cleanBeforeTimestamp dryRun table dag.dagId
    simp only [bulkWriteToDb, if_true, lastAutomatedRun_runCleanup hkept]
    rw [if_neg (by omega), if_neg (by omega)]

/-! ## Continuity -/

/-- **The schedules continue exactly if each last automated run is recent, not started, or the last
one to start.** -/
theorem continues_iff (cleanBeforeTimestamp : Int) (table : DagRunTable) :
    Continues cleanBeforeTimestamp table (runCleanup cleanBeforeTimestamp false table) ↔
      ∀ run, IsLastAutomated table run → ∀ date, run.startDate = some date →
        date < cleanBeforeTimestamp → StartedLast table run date := by
  constructor
  · intro h run hlast
    exact (mem_runCleanup hlast.mem).mp (h.kept run hlast)
  · intro h
    have hkept : ∀ run, IsLastAutomated table run →
        run ∈ (runCleanup cleanBeforeTimestamp false table).rows :=
      fun run hlast => (mem_runCleanup hlast.mem).mpr (h run hlast)
    refine ⟨hkept, fun dag canBeScheduled dagModel hactive =>
      bulkWriteToDb_runCleanup hkept hactive, fun run hmem hgone => ?_⟩
    rw [mem_runCleanup hmem] at hgone
    simp only [not_forall] at hgone
    obtain ⟨date, hdate, hlt, -⟩ := hgone
    exact ⟨date, hdate, hlt⟩

/-- Two scheduled runs of a DAG, of which the first was cleared and started again after the
second. -/
def restartedRun : DagRunTable where
  rows := [⟨"d", .scheduled, 1, some 5, some false, none, .running⟩,
    ⟨"d", .scheduled, 2, some 3, some false, none, .success⟩]
  key_nodup := by simp

theorem restartedRun_not_continues :
    ¬Continues 10 restartedRun (runCleanup 10 false restartedRun) := by
  intro h
  have hlast : IsLastAutomated restartedRun
      ⟨"d", .scheduled, 2, some 3, some false, none, .success⟩ :=
    lastAutomatedRun_eq_some.mp (by decide : lastAutomatedRun restartedRun "d" = _) |>.1
  exact absurd (h.kept _ hlast) (by decide)

end Airflow.DbCleanup
