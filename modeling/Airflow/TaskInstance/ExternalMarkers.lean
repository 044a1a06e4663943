import Airflow.Dag.Graph
import Airflow.Lib.DepthFirst
import Airflow.State
import Airflow.TaskInstance.Filter

/-!
# The task instances of a DAG and of the DAGs that depend on it

`DAG._get_task_instances` (`airflow/models/dag.py`) with `include_dependent_dags`: from the rows of
`ExternalTaskMarker`s among the selected task instances it goes on to the tasks that they point at
and what is downstream of them, in as many DAGs as it takes.

The DAGs have no `SubDagOperator`: `subdags` is empty and `parent_dag` is `None`. A column `task_id`
is a text, tasks of a graph are numbered, and `taskIdText` leads from one to the other. Of the
`TaskInstanceKey`s that are collected the try number is left out: it is 1 in the returned set, and
`filter_for_tis` does not read it.
-/

namespace Airflow.Dependents

/-! ## DAGs and rows -/

/-- `ExternalTaskMarker`, by the argument that is not rendered. -/
structure ExternalTaskMarker where
  recursionDepth : Nat
  recursionDepth_pos : 0 < recursionDepth := by decide

/-- The template fields of a marker, rendered for a task instance, with the date parsed. -/
structure ExternalTask where
  dagId : String
  taskId : String
  executionDate : Int

/-- A row of `task_instance`. -/
structure TaskInstance where
  key : PrimaryKey
  state : TIState
  operator : String

/-- A DAG; `marker` has the tasks that are `ExternalTaskMarker`s. -/
structure DAG where
  dagId : String
  graph : Dag
  taskIdText : TaskId → String
  taskIdText_injective : Function.Injective taskIdText
  marker : TaskId → Option ExternalTaskMarker
  allowFutureExecDates : Bool := false

/-- An item of `task_ids` or `exclude_task_ids`: a task id, or a pair with a map index. -/
inductive TaskSelector where
  | taskId (id : String)
  | mapped (id : String) (mapIndex : Int)
  deriving DecidableEq

/-- What a clearing reads: the tables, the DAG bag, the clock, and rendering with its parameters. -/
structure Environment where
  taskInstances : List TaskInstance
  executionDate : String → String → Int
  dagBag : List DAG
  utcnow : Int
  renderTemplates : PrimaryKey → Option ExternalTask

/-- The arguments that all calls share. -/
structure SharedArguments where
  state : List TIState := []
  includeSubdags : Bool := true
  excludeTaskIds : Option (List TaskSelector) := none

/-- The arguments of one call, with its `self`. -/
structure Call where
  dag : DAG
  taskIds : Option (List TaskSelector) := none
  startDate : Option Int := none
  endDate : Option Int := none
  runId : Option String := none

/-- The errors of a clearing. -/
inductive ClearError where
  | taskNotFound (taskId : String)
  | attributeError (taskId : String)
  | renderTemplates (ti : PrimaryKey)
  | couldNotFindDag (dagId : String)
  | maximumRecursionDepth (maxRecursionDepth : Nat) (taskId : String)
  deriving DecidableEq

/-- The exception that says that the maximum recursion depth was reached. -/
def ClearError.IsRecursionDepth : ClearError → Prop
  | .maximumRecursionDepth _ _ => True
  | _ => False

namespace DAG

variable (self : DAG)

/-- `task_ids`. -/
def taskIds : List String := self.graph.taskIds.map self.taskIdText

/-- `get_task`. -/
def getTask (taskId : String) : Except ClearError Operator :=
  match self.graph.tasks.find? fun t => self.taskIdText t.taskId == taskId with
  | none => .error (.taskNotFound taskId)
  | some task => .ok task

/-- `task.recursion_depth`. -/
def recursionDepth (task : Operator) : Except ClearError Nat :=
  match self.marker task.taskId with
  | none => .error (.attributeError (self.taskIdText task.taskId))
  | some marker => .ok marker.recursionDepth

/-- `partial_subset` of a task and what is downstream of it. -/
def downstreamOf (taskId : String) : DAG :=
  let matched := self.graph.taskIds.filter fun id => self.taskIdText id == taskId
  { self with graph := self.graph.partialSubset matched true false false }

end DAG

/-! ## Queries -/

/-- `ti_selector_condition`. -/
def tiSelectorCondition (vals : List TaskSelector) (ti : PrimaryKey) : Bool :=
  vals.contains (.taskId ti.taskId) || vals.contains (.mapped ti.taskId ti.mapIndex)

/-- The condition on the state. -/
def stateCondition (state : List TIState) (value : TIState) : Bool :=
  match state with
  | [] => true
  | [s] => value == s
  | state =>
    if state.contains none then
      if state.all (·.isNone) then value.isNone
      else (state.filter (·.isSome)).contains value || value.isNone
    else state.contains value

/-- An item of `exclude_task_ids` is the task id or the pair with the map index. -/
def excluded (exclude : Option (List TaskSelector)) (ti : PrimaryKey) : Bool :=
  exclude.any fun exclude =>
    exclude.contains (.taskId ti.taskId) || exclude.contains (.mapped ti.taskId ti.mapIndex)

section
variable (env : Environment) (shared : SharedArguments)

/-- The conditions of the query `tis`. -/
def Call.selects (call : Call) (row : TaskInstance) : Bool :=
  row.key.dagId == call.dag.dagId &&
  (!(shared.includeSubdags || call.dag.graph.partialDag) ||
    call.dag.taskIds.contains row.key.taskId) &&
  call.runId.all (fun runId => runId == "" || row.key.runId == runId) &&
  call.startDate.all (fun date => decide (date ≤ env.executionDate row.key.dagId row.key.runId)) &&
  call.taskIds.all (tiSelectorCondition · row.key) &&
  (!(call.endDate.isSome || !call.dag.allowFutureExecDates) ||
    decide (env.executionDate row.key.dagId row.key.runId ≤ call.endDate.getD env.utcnow)) &&
  stateCondition shared.state row.state

/-- The keys of `tis`. -/
def Call.tis (call : Call) : List PrimaryKey :=
  (env.taskInstances.filter (call.selects env shared)).map TaskInstance.key

/-- `TaskInstanceKey(*cols)`: the fourth column, the map index, is taken for the try number. -/
def ofColumns (ti : PrimaryKey) : PrimaryKey := { ti with mapIndex := -1 }

/-- The rows of `query`. -/
def Call.query (call : Call) (asPkTuple : Bool) : List TaskInstance :=
  let tis := env.taskInstances.filter (call.selects env shared)
  if asPkTuple then
    match filterForTis ((call.tis env shared).map ofColumns) with
    | some condition => env.taskInstances.filter (condition.holds ·.key)
    | none => tis
  else tis

/-- The keys of `external_tasks`, in an order of the database's own. -/
def Call.externalTasks (call : Call) (asPkTuple : Bool) : List PrimaryKey :=
  ((call.query env shared asPkTuple).filter (·.operator == "ExternalTaskMarker")).map
    TaskInstance.key

/-- The keys of `external_tis`. -/
def Environment.externalTis (task : ExternalTask) : List PrimaryKey :=
  (env.taskInstances.filter fun row =>
    row.key.dagId == task.dagId && row.key.taskId == task.taskId &&
    env.executionDate row.key.dagId row.key.runId == task.executionDate).map TaskInstance.key

/-- `dag_bag.get_dag`. -/
def Environment.getDag (dagId : String) : Except ClearError DAG :=
  match env.dagBag.find? (·.dagId == dagId) with
  | none => .error (.couldNotFindDag dagId)
  | some dag => .ok dag

/-- The rendered fields of the marker that a task instance is of. -/
def Environment.externalTask (self : DAG) (task : Operator) (ti : PrimaryKey) :
    Except ClearError ExternalTask :=
  match env.renderTemplates ti, self.marker task.taskId with
  | none, _ => .error (.renderTemplates ti)
  | some _, none => .error (.attributeError ti.taskId)
  | some external, some _ => .ok external

/-- The call for a task instance that a marker points at. -/
def dependentCall (externalDag : DAG) (tii : PrimaryKey) : Call where
  dag := externalDag.downstreamOf tii.taskId
  runId := some tii.runId

/-! ## The traversal -/

/-- The order in which the database returns the rows of a query, for every query of a run: a query
is told by what was visited before it. -/
structure RowOrder where
  rows : List PrimaryKey → List PrimaryKey → List PrimaryKey
  perm : ∀ visited result, (rows visited result).Perm result

/-- What a call returns and what was visited when it does. -/
abbrev Outcome := Except ClearError (List PrimaryKey × List PrimaryKey)

variable (order : RowOrder)

/-- A call with `as_pk_tuple` and a given maximum; `visit` is the body of the loop over the markers. -/
def collect (visit : PrimaryKey → List PrimaryKey → Outcome) (call : Call)
    (visited : List PrimaryKey) : Outcome := do
  let externalTasks := order.rows visited (call.externalTasks env shared true)
  let (result, visited) ← DepthFirst.loop visit externalTasks visited
  return ((result ++ call.tis env shared).filter (!excluded shared.excludeTaskIds ·), visited)

/-- The body of the loop over the markers, with `max_recursion_depth - recursion_depth` levels. -/
def visitMarker (maxRecursionDepth : Nat) : Nat → DAG → PrimaryKey → List PrimaryKey → Outcome
  | 0, self, ti, visited =>
    if visited.contains ti then .ok ([], visited)
    else do
      let _ ← self.getTask ti.taskId
      .error (.maximumRecursionDepth maxRecursionDepth ti.taskId)
  | levels + 1, self, ti, visited =>
    if visited.contains ti then .ok ([], visited)
    else do
      let task ← self.getTask ti.taskId
      let external ← env.externalTask self task ti
      let externalTis := order.rows (visited ++ [ti]) (env.externalTis external)
      DepthFirst.loop (fun tii visited => do
        let externalDag ← env.getDag tii.dagId
        let call := dependentCall externalDag tii
        collect env shared order (visitMarker maxRecursionDepth levels call.dag) call visited)
        externalTis (visited ++ [ti])

/-- The recursion depth of the marker of a row among the call's own. -/
def Call.recursionDepth (call : Call) (ti : PrimaryKey) : Except ClearError Nat := do
  let task ← call.dag.getTask ti.taskId
  call.dag.recursionDepth task

/-- The loop over the markers of the first call, where the maximum is that of the first marker. -/
def visitMarkers (self : DAG) : List PrimaryKey → Outcome
  | [] => .ok ([], [])
  | ti :: externalTasks => do
    let task ← self.getTask ti.taskId
    let maxRecursionDepth ← self.recursionDepth task
    DepthFirst.loop (visitMarker env shared order maxRecursionDepth maxRecursionDepth self)
      (ti :: externalTasks) []

/-- The condition that `exclude_task_ids` adds to the query where the set is empty: by the kind of
its first item. -/
def notExcludedCondition (exclude : Option (List TaskSelector)) (ti : PrimaryKey) : Bool :=
  match exclude with
  | none => true
  | some (.taskId id :: items) => !(TaskSelector.taskId id :: items).contains (.taskId ti.taskId)
  | some items => !items.contains (.mapped ti.taskId ti.mapIndex)

/-- `result` at the end of a call, from what was collected of other calls. -/
def Call.result (call : Call) (asPkTuple : Bool) (dependents : List PrimaryKey) :
    List PrimaryKey :=
  if dependents.isEmpty && !asPkTuple then []
  else (dependents ++ call.tis env shared).filter (!excluded shared.excludeTaskIds ·)

/-- The returned set, or the keys of the rows of the returned query. -/
def Call.returned (call : Call) (asPkTuple : Bool) (dependents : List PrimaryKey) :
    List PrimaryKey :=
  let result := call.result env shared asPkTuple dependents
  if asPkTuple then result
  else
    match filterForTis result with
    | some condition => (env.taskInstances.filter (condition.holds ·.key)).map TaskInstance.key
    | none => (call.tis env shared).filter (notExcludedCondition shared.excludeTaskIds)

/-- `DAG._get_task_instances` with `include_dependent_dags`. -/
def getTaskInstances (call : Call) (asPkTuple : Bool) : Except ClearError (List PrimaryKey) := do
  let externalTasks := order.rows [] (call.externalTasks env shared asPkTuple)
  let (dependents, _) ← visitMarkers env shared order call.dag externalTasks
  return call.returned env shared asPkTuple dependents

/-! ## What the markers lead to -/

/-- The calls for a task instance that a marker points at: one, unless the DAG is not in the bag. -/
def dependentCalls (tii : PrimaryKey) : List Call :=
  ((env.dagBag.find? (·.dagId == tii.dagId)).map (dependentCall · tii)).toList

/-- The calls that a marker's row leads to. -/
def callsOf (ti : PrimaryKey) : List Call :=
  match env.renderTemplates ti with
  | none => []
  | some external => (env.externalTis external).flatMap (dependentCalls env)

/-- The marker rows that a marker's row leads to. -/
def dependentMarkers (ti : PrimaryKey) : List PrimaryKey :=
  (callsOf env ti).flatMap (·.externalTasks env shared true)

/-- What a call adds to the set. -/
def Call.adds (call : Call) : List PrimaryKey :=
  (call.tis env shared).filter (!excluded shared.excludeTaskIds ·)

/-- What a marker's row adds to the set. -/
def dependentTis (ti : PrimaryKey) : List PrimaryKey := (callsOf env ti).flatMap (·.adds env shared)

end

end Airflow.Dependents
