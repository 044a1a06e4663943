import Airflow.Dag.Graph
import Mathlib.Logic.Function.Basic

/-!
# The task instances of a run in a session, map lengths and expansion

`Session` holds a run's task instances as the SQLAlchemy session does: the objects that were
loaded keep their identity (`TIRef`) while their state and map index change. On it are defined the
lengths of mapped tasks (`getMappedTiCount`), their expansion (`expandMappedTask` of
`airflow/models/abstractoperator.py`) and its revision (`reviseMapIndexesIfMapped` of
`airflow/models/dagrun.py`).

The session does not autoflush: an assignment reaches the database at the next `flush`, and a query
on states reads `dbState`. Rows are inserted and deleted by operations that flush before they
return, so the existence of a row and its map index are the same on both sides.
-/

namespace Airflow

/-! ## Task instances -/

/-- A row of `task_instance` for the run. `locked` tells that another transaction holds the row,
`readyForRetry` and `rescheduleInFuture` what its retry and reschedule times say now. -/
structure TaskInstanceRow where
  taskId : TaskId
  mapIndex : Int := -1
  state : TIState
  locked : Bool := false
  readyForRetry : Bool := false
  rescheduleInFuture : Bool := false
  deriving DecidableEq, Repr

/-- The rows of a run in the order a query returns them, with their primary key. -/
structure TaskInstanceTable where
  rows : List TaskInstanceRow
  key_nodup : (rows.map fun row => (row.taskId, row.mapIndex)).Nodup := by decide
  mapIndex_ge : ∀ row ∈ rows, -1 ≤ row.mapIndex := by decide

/-- A task instance in the session. -/
structure TaskInstance where
  mapIndex : Int
  state : TIState
  dbState : TIState
  deleted : Bool := false
  locked : Bool := false
  readyForRetry : Bool := false
  rescheduleInFuture : Bool := false
  deriving DecidableEq, Repr

/-- The object loaded for a row. -/
def TaskInstanceRow.load (row : TaskInstanceRow) : TaskInstance where
  mapIndex := row.mapIndex
  state := row.state
  dbState := row.state
  locked := row.locked
  readyForRetry := row.readyForRetry
  rescheduleInFuture := row.rescheduleInFuture

/-- A task instance object: the `pos`-th that the session got for the task. -/
structure TIRef where
  taskId : TaskId
  pos : Nat
  deriving DecidableEq, Repr

/-- The session: the task instances of each task. -/
structure Session where
  tis : TaskId → List TaskInstance

namespace Session

/-- The rows of a table, loaded. -/
def load (table : TaskInstanceTable) : Session where
  tis t := (table.rows.filter (·.taskId = t)).map TaskInstanceRow.load

variable (s : Session)

def get (r : TIRef) : Option TaskInstance := (s.tis r.taskId)[r.pos]?

/-- `ti.state`. -/
def state (r : TIRef) : TIState := (s.get r).bind (·.state)

/-- `ti.map_index`. -/
def mapIndex (r : TIRef) : Int := ((s.get r).map (·.mapIndex)).getD 0

/-- The row is in the table. -/
def live (r : TIRef) : Bool := (s.get r).any fun ti => !ti.deleted

/-- The rows of a task, as `select(TI).where(TI.task_id == t)` sees them. -/
def rowsOf (t : TaskId) : List TaskInstance := (s.tis t).filter fun ti => !ti.deleted

/-- Assign to attributes of one object. -/
def assign (r : TIRef) (f : TaskInstance → TaskInstance) : Session where
  tis := Function.update s.tis r.taskId ((s.tis r.taskId).modify r.pos f)

/-- Assign to the objects of task `t`. -/
def assignAll (t : TaskId) (f : TaskInstance → TaskInstance) : Session where
  tis := Function.update s.tis t ((s.tis t).map f)

/-- Add a new object for task `t`. -/
def add (t : TaskId) (ti : TaskInstance) : Session where
  tis := Function.update s.tis t (s.tis t ++ [ti])

/-- `session.flush`. -/
def flush : Session where
  tis t := (s.tis t).map fun ti => { ti with dbState := ti.state }

/-- `ti.state = state`. -/
def setState (r : TIRef) (state : TIState) : Session := s.assign r ({ · with state })

end Session

/-- The positions of the rows among those of their task, when `seen` of each came before. -/
def refsFrom (seen : TaskId → Nat) : List TaskInstanceRow → List TIRef
  | [] => []
  | row :: rows =>
    ⟨row.taskId, seen row.taskId⟩ ::
      refsFrom (Function.update seen row.taskId (seen row.taskId + 1)) rows

/-- The objects loaded for the rows of a table, in the order of the query. -/
def TaskInstanceTable.refs (table : TaskInstanceTable) : List TIRef :=
  refsFrom (fun _ => 0) table.rows

/-! ## What else the database says of the run -/

/-- An earlier run of the DAG, as `PrevDagrunDep` reads it. -/
structure LastDagrun where
  executionDate : Int
  tis : TaskId → List TIState

/-- The XCom a `SkipMixin` operator pushes: the tasks it followed, the tasks it skipped. -/
structure SkipMixinResult where
  followed : Option (List TaskId) := none
  skipped : Option (List TaskId) := none

/-- The rest of the database and of the configuration that a decision round reads. `TaskMap` rows
without a map index are read for unmapped tasks only and return-value XComs with one are counted
for mapped tasks, so a round reads none of what `clear_db_references` deletes for the unexpanded
instance of a mapped task. -/
structure RunData where
  taskMapLength : TaskId → Option Nat := fun _ => none
  xcomCount : TaskId → Nat := fun _ => 0
  skipMixinXCom : TaskId → Option SkipMixinResult := fun _ => none
  previousDagrun : Option LastDagrun := none
  previousScheduledDagrun : Option LastDagrun := none
  hasAnyPriorTis : TaskId → Bool := fun _ => false
  changeSensorModeToReschedule : Bool := false

/-! ## Map lengths -/

/-- `NotMapped` and `NotFullyPopulated`. -/
inductive MapError where
  | notMapped
  | notFullyPopulated
  deriving DecidableEq, Repr

section
variable (run : RunData) (s : Session)

/-- `unfinished_ti_exists`: the database has an unfinished instance of the task. -/
def Session.unfinishedTiExists (t : TaskId) : Bool := (s.rowsOf t).any (State.isUnfinished ·.dbState)

mutual

/-- `get_task_map_length`. -/
def XComArg.getTaskMapLength : XComArg → Option Nat
  | .plain operator isMapped =>
    if isMapped then if s.unfinishedTiExists operator then none else some (run.xcomCount operator)
    else run.taskMapLength operator
  | .map arg => arg.getTaskMapLength
  | .zip args fillvalue =>
    (XComArg.getTaskMapLengths args).bind fun readyLengths =>
      if fillvalue then readyLengths.max? else readyLengths.min?

/-- The lengths of the arguments of `zip()`, if all are ready. -/
def XComArg.getTaskMapLengths : List XComArg → Option (List Nat)
  | [] => some []
  | arg :: args =>
    match arg.getTaskMapLength, XComArg.getTaskMapLengths args with
    | some length, some lengths => some (length :: lengths)
    | _, _ => none

end

/-- `_get_length`. -/
def ExpandArgument.getLength : ExpandArgument → Option Nat
  | .literal length => some length
  | .xcomArg arg => arg.getTaskMapLength run s

/-- The product of counts, unless one of them is an error. -/
def mulCounts : List (Except MapError Nat) → Except MapError Nat
  | [] => .ok 1
  | .error e :: _ => .error e
  | .ok n :: counts => (mulCounts counts).map (n * ·)

/-- A length that may not be known yet. -/
def ofLength : Option Nat → Except MapError Nat
  | some length => .ok length
  | none => .error .notFullyPopulated

/-- `get_total_map_length`. -/
def ExpandInput.getTotalMapLength : ExpandInput → Except MapError Nat
  | .dictOfLists [] => .ok 0
  | .dictOfLists value => mulCounts (value.map fun v => ofLength (v.getLength run s))
  | .listOfDicts value => ofLength (value.getLength run s)

/-- `MappedTaskGroup.get_mapped_ti_count` of the innermost of some nested groups. -/
def groupsMappedTiCount (groups : List MappedTaskGroup) : Except MapError Nat :=
  if groups.isEmpty then .error .notMapped
  else mulCounts (groups.map fun g => g.expandInput.getTotalMapLength run s)

/-- `get_mapped_ti_count`. -/
def Operator.getMappedTiCount (task : Operator) : Except MapError Nat :=
  match task.expandInput with
  | none => groupsMappedTiCount run s task.mappedTaskGroups
  | some expandInput =>
    match expandInput.getTotalMapLength run s with
    | .error e => .error e
    | .ok currentCount =>
      match groupsMappedTiCount run s task.mappedTaskGroups with
      | .ok parentCount => .ok (parentCount * currentCount)
      | .error .notMapped => .ok currentCount
      | .error .notFullyPopulated => .error .notFullyPopulated

/-! ## Expansion -/

/-- The first object of task `t` that satisfies `p`. -/
def Session.findTi (t : TaskId) (p : TaskInstance → Bool) : Option TIRef :=
  ((s.tis t).findIdx? p).map (⟨t, ·⟩)

/-- `current_max_mapping`. -/
def Session.currentMaxMapping (t : TaskId) : Int :=
  (s.rowsOf t).foldl (fun m ti => if ti.mapIndex > m then ti.mapIndex else m) (-1)

/-- Add instances of task `t` with map indexes `start`, `start + 1`, … and the state given. -/
def Session.addTis (t : TaskId) (state : TIState) (start : Int) : Nat → Session × List TIRef
  | 0 => (s, [])
  | n + 1 =>
    let (s', tis) := Session.addTis t state start n
    (s'.add t ⟨start + n, state, state, false, false, false, false⟩,
      tis ++ [⟨t, (s'.tis t).length⟩])

/-- The instances of `t` with inapplicable indexes are set to `REMOVED`, but for locked rows. -/
def Session.removeFrom (t : TaskId) (totalExpandedTiCount : Nat) : Session :=
  s.assignAll t fun ti =>
    if !ti.deleted ∧ ti.mapIndex ≥ totalExpandedTiCount ∧ !ti.locked then
      { ti with state := some .removed }
    else ti

/-- The first half of `expand_mapped_task`: what becomes of the unmapped instance. Returns it if
it was turned into index 0, and the state that the other indexes get. -/
def Session.expandUnmapped (dagIsPartial : Bool) (t : TaskId) (totalLength : Option Nat) :
    Session × List TIRef × TIState :=
  match s.findTi t fun ti => !ti.deleted ∧ ti.mapIndex = -1 ∧ State.isUnfinished ti.dbState with
  | none => (s, [], none)
  | some unmappedTi =>
    match totalLength with
    | none => (if dagIsPartial then s else s.setState unmappedTi (some .upstreamFailed), [], none)
    | some 0 => (s.setState unmappedTi (some .skipped), [], none)
    | some (_ + 1) =>
      if (s.rowsOf t).any (·.mapIndex = 0) then
        (s.assign unmappedTi ({ · with deleted := true }), [], s.state unmappedTi)
      else ((s.assign unmappedTi ({ · with mapIndex := 0 })).flush, [unmappedTi], s.state unmappedTi)

/-- `expand_mapped_task`, from the length on. -/
def Session.expandTo (dagIsPartial : Bool) (t : TaskId) (totalLength : Option Nat) :
    Session × List TIRef :=
  let (s₁, unmapped, state) := s.expandUnmapped dagIsPartial t totalLength
  let total := totalLength.getD 0
  let start := s₁.currentMaxMapping t + 1
  let (s₂, created) := s₁.addTis t state start (if total < 1 then 0 else (total - start).toNat)
  ((s₂.removeFrom t total).flush, unmapped ++ created)

/-- `expand_mapped_task`; `none` for `NotMapped`. -/
def Session.expandMappedTask (dagIsPartial : Bool) (task : Operator) :
    Option (Session × List TIRef) :=
  match task.getMappedTiCount run s with
  | .error .notMapped => none
  | .error .notFullyPopulated => some (s.expandTo dagIsPartial task.taskId none)
  | .ok totalLength => some (s.expandTo dagIsPartial task.taskId (some totalLength))

/-- The loop of `_revise_map_indexes_if_mapped` over `range(total_length)`. -/
def Session.addMissing (t : TaskId) (existingIndexes : List Int) :
    Nat → Session × List TIRef
  | 0 => (s, [])
  | n + 1 =>
    let (s', tis) := Session.addMissing t existingIndexes n
    if (n : Int) ∈ existingIndexes then (s', tis)
    else ((s'.add t ⟨n, none, none, false, false, false, false⟩).flush,
      tis ++ [⟨t, (s'.tis t).length⟩])

/-- Whether index `i` is in `range(totalLength)`. -/
def inRange (i : Int) (totalLength : Nat) : Bool := 0 ≤ i ∧ i < totalLength

/-- The `UPDATE` of `_revise_map_indexes_if_mapped`, which the objects follow. -/
def Session.removeOutside (t : TaskId) (totalLength : Nat) : Session :=
  s.assignAll t fun ti =>
    if !ti.deleted ∧ ¬inRange ti.mapIndex totalLength then { ti with state := some .removed } else ti

/-- `_revise_map_indexes_if_mapped`. -/
def Session.reviseMapIndexesIfMapped (task : Operator) : Session × List TIRef :=
  match task.getMappedTiCount run s with
  | .error _ => (s, [])
  | .ok totalLength =>
    let existingIndexes := (s.rowsOf task.taskId).map (·.mapIndex)
    let s₁ :=
      if existingIndexes.all (inRange · totalLength) then s
      else (s.removeOutside task.taskId totalLength).flush
    s₁.addMissing task.taskId existingIndexes totalLength

end

end Airflow
