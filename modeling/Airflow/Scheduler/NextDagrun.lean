import Airflow.State

/-!
# `next_dagrun` of a DAG with a data-interval timetable

The three places that compute `DagModel.next_dagrun` and `next_dagrun_create_after` of a DAG with
catchup: `_create_dag_runs`, `_schedule_dag_run` when a run finishes, and `bulk_write_to_db`. The
runs are the scheduled ones of the DAG, in the order of their creation.
-/

namespace Airflow.NextDagrun

structure DataInterval where
  start : Int
  «end» : Int
  deriving DecidableEq, Repr

structure DagRunInfo where
  runAfter : Int
  dataInterval : DataInterval
  deriving DecidableEq, Repr

/-- `logical_date`. -/
def DagRunInfo.logicalDate (info : DagRunInfo) : Int := info.dataInterval.start

/-- The infos that `next_dagrun_info` enumerates, starting from no interval. -/
def nthInfo (nextDagrunInfo : Option DataInterval → Option DagRunInfo) : Nat → Option DagRunInfo
  | 0 => nextDagrunInfo none
  | i + 1 => (nthInfo nextDagrunInfo i).bind fun info => nextDagrunInfo (some info.dataInterval)

/-- A timetable whose `next_dagrun_info` enumerates increasing logical dates; it returns `none` past
the end date. -/
structure Timetable where
  nextDagrunInfo : Option DataInterval → Option DagRunInfo
  increasing : ∀ i a b, nthInfo nextDagrunInfo i = some a → nthInfo nextDagrunInfo (i + 1) = some b →
    a.logicalDate < b.logicalDate

/-- The `i`th info of the timetable's sequence. -/
def Timetable.nth (timetable : Timetable) (i : Nat) : Option DagRunInfo :=
  nthInfo timetable.nextDagrunInfo i

structure DagRun where
  executionDate : Int
  dataInterval : Option DataInterval
  state : DagRunState
  deriving DecidableEq, Repr

structure DagModel where
  nextDagrun : Option Int := none
  nextDagrunDataInterval : Option DataInterval := none
  nextDagrunCreateAfter : Option Int := none
  deriving DecidableEq, Repr

structure Database where
  dagModel : DagModel := {}
  runs : List DagRun := []
  deriving DecidableEq, Repr

/-- `active_runs_of_dags`, `get_num_active_runs(only_running=False)`. -/
def numActiveRuns (runs : List DagRun) : Nat :=
  runs.countP fun r => r.state = .queued ∨ r.state = .running

section
variable (timetable : Timetable) (maxActiveRuns : Nat)

/-- `calculate_dagrun_date_fields`. -/
def DagModel.calculateDagrunDateFields (dagModel : DagModel) (last : Option DataInterval) :
    DagModel :=
  match timetable.nextDagrunInfo last with
  | none =>
    { dagModel with
      nextDagrun := none, nextDagrunDataInterval := none, nextDagrunCreateAfter := none }
  | some info =>
    { dagModel with
      nextDagrun := some info.logicalDate
      nextDagrunDataInterval := some info.dataInterval
      nextDagrunCreateAfter := some info.runAfter }

/-- `_should_update_dag_next_dagruns` with the DAG model it leaves. -/
def shouldUpdateDagNextDagruns (dagModel : DagModel) (lastDagRun : Option DagRun)
    (totalActiveRuns : Nat) : Bool × DagModel :=
  if lastDagRun.any (¬State.isFinishedDr ·.state) then (false, dagModel)
  else if totalActiveRuns ≠ 0 ∧ totalActiveRuns ≥ maxActiveRuns then
    (false, { dagModel with nextDagrunCreateAfter := none })
  else (true, dagModel)

/-- The update of the DAG model that follows the creation and the end of a run. -/
def updateDagModel (dagModel : DagModel) (lastDagRun : Option DagRun) (runs : List DagRun)
    (last : Option DataInterval) : DagModel :=
  let (update, dagModel) :=
    shouldUpdateDagNextDagruns maxActiveRuns dagModel lastDagRun (numActiveRuns runs)
  if update then dagModel.calculateDagrunDateFields timetable last else dagModel

/-- `_create_dag_runs` for the DAG, if `dags_needing_dagruns` selects it at `now`. -/
def createDagRuns (db : Database) (now : Int) : Database :=
  let dagModel := db.dagModel
  match dagModel.nextDagrun with
  | some nextDagrun =>
    if dagModel.nextDagrunCreateAfter.any (· ≤ now) then
      let runs :=
        if nextDagrun ∉ db.runs.map (·.executionDate) then
          db.runs ++ [⟨nextDagrun, dagModel.nextDagrunDataInterval, .queued⟩]
        else db.runs
      { runs
        dagModel := updateDagModel timetable maxActiveRuns dagModel none runs
          dagModel.nextDagrunDataInterval }
    else db
  | none => db

/-- `_schedule_dag_run` for a running run, `state` being what `update_state` or the timeout makes of
it. -/
def scheduleDagRun (db : Database) (run : Nat) (state : DagRunState) : Database :=
  match db.runs[run]? with
  | none => db
  | some dagRun =>
    if dagRun.state = .running then
      let dagRun := { dagRun with state }
      let runs := db.runs.set run dagRun
      { runs
        dagModel := updateDagModel timetable maxActiveRuns db.dagModel (some dagRun) runs
          dagRun.dataInterval }
    else db

/-- The run with the maximal execution date. -/
def lastAutomatedRun (runs : List DagRun) : Option DagRun :=
  runs.find? fun r => runs.all (·.executionDate ≤ r.executionDate)

/-- `bulk_write_to_db`. -/
def bulkWriteToDb (db : Database) : Database :=
  let last := (lastAutomatedRun db.runs).bind (·.dataInterval)
  let dagModel :=
    if numActiveRuns db.runs ≥ maxActiveRuns then { db.dagModel with nextDagrunCreateAfter := none }
    else db.dagModel.calculateDagrunDateFields timetable last
  { db with dagModel }

/-- What happens to the DAG and its scheduled runs. -/
inductive Event where
  | createDagRuns (now : Int)
  | scheduleDagRun (run : Nat) (state : DagRunState)
  | bulkWriteToDb
  /-- A run's state is set: it is started, or a user cleared or marked it. -/
  | setState (run : Nat) (state : DagRunState)

def step (db : Database) : Event → Database
  | .createDagRuns now => createDagRuns timetable maxActiveRuns db now
  | .scheduleDagRun run state => scheduleDagRun timetable maxActiveRuns db run state
  | .bulkWriteToDb => bulkWriteToDb timetable maxActiveRuns db
  | .setState run state =>
    match db.runs[run]? with
    | some dagRun => { db with runs := db.runs.set run { dagRun with state } }
    | none => db

/-- The database after the DAG is first written to it. -/
def Database.init : Database := bulkWriteToDb timetable maxActiveRuns {}

end

end Airflow.NextDagrun
