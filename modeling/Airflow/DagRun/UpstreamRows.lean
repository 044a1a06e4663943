import Airflow.DagRun.Dependencies

/-!
# The rows that an instance waits for

`TriggerRuleDep._evaluate_trigger_rule` chooses the upstream rows of an instance twice: among the
finished instances that are loaded with `_is_relevant_upstream`, and in the database with the
conditions of `_iter_upstream_conditions`, whose rows are counted. The latter is not done when no
upstream task needs expansion.

`Airflow/DagRun/Dependencies.lean` has one function for both. Here each is as it is written.
-/

namespace Airflow

section
variable (dag : Dag) (run : RunData) (s : Session) (ti : TIRef) (task : Operator)

/-- `_is_relevant_upstream`. -/
def isRelevantUpstream (relevantIds : List TaskId) (upstream : TaskInstanceRow) : Bool :=
  if !relevantIds.contains upstream.taskId then false
  else if task.mappedTaskGroups.isEmpty then true
  else if upstream.mapIndex < 0 then true
  else
    match relevantUpstreamMapIndexes dag run s ti task upstream.taskId with
    | none => true
    | some (.index relevant) => relevant = upstream.mapIndex
    | some (.range start stop) => start ≤ upstream.mapIndex ∧ upstream.mapIndex < stop

/-- What `_iter_upstream_conditions` yields. -/
inductive UpstreamCondition where
  | taskIdIn (taskIds : List TaskId)
  | taskIdEq (taskId : TaskId)
  | unexpanded (taskId : TaskId)
  | mapIndexIn (taskId : TaskId) (start stop : Int)
  | mapIndexEq (taskId : TaskId) (mapIndex : Int)
  deriving DecidableEq, Repr

/-- The condition selects the row. -/
def UpstreamCondition.selects (row : TaskInstanceRow) : UpstreamCondition → Bool
  | .taskIdIn taskIds => taskIds.contains row.taskId
  | .taskIdEq taskId => row.taskId = taskId
  | .unexpanded taskId => row.taskId = taskId ∧ row.mapIndex < 0
  | .mapIndexIn taskId start stop =>
    row.taskId = taskId ∧ row.mapIndex ≥ start ∧ row.mapIndex < stop
  | .mapIndexEq taskId mapIndex => row.taskId = taskId ∧ row.mapIndex = mapIndex

/-- The body of the loop of `_iter_upstream_conditions`. The step of a range is 1. -/
def conditionsOf (upstreamId : TaskId) : List UpstreamCondition :=
  match relevantUpstreamMapIndexes dag run s ti task upstreamId with
  | none => [.taskIdEq upstreamId]
  | some (.range start stop) => [.unexpanded upstreamId, .mapIndexIn upstreamId start stop]
  | some (.index mapIndex) => [.unexpanded upstreamId, .mapIndexEq upstreamId mapIndex]

/-- `_iter_upstream_conditions`. -/
def iterUpstreamConditions (relevantTasks : List Operator) : List UpstreamCondition :=
  if task.mappedTaskGroups.isEmpty then [.taskIdIn (relevantTasks.map Operator.taskId)]
  else relevantTasks.flatMap fun upstream => conditionsOf dag run s ti task upstream.taskId

/-- One of the conditions selects the row. -/
def isSelected (relevantTasks : List Operator) (row : TaskInstanceRow) : Bool :=
  (iterUpstreamConditions dag run s ti task relevantTasks).any (·.selects row)

/-- `task_id_counts`. -/
def taskIdCounts (rows : List TaskInstanceRow) (relevantTasks : List Operator) :
    List (TaskId × Nat) :=
  let taskIds := (rows.filter (isSelected dag run s ti task relevantTasks)).map (·.taskId)
  taskIds.dedup.map fun t => (t, taskIds.count t)

/-- `upstream`. -/
def expectedUpstreams (rows : List TaskInstanceRow) (relevantTasks : List Operator) : Nat :=
  if !relevantTasks.any (·.needsExpansion) then relevantTasks.length
  else ((taskIdCounts dag run s ti task rows relevantTasks).map Prod.snd).sum

/-- `upstream_states`. -/
def upstreamStates (rows : List TaskInstanceRow) (relevantIds : List TaskId) : UpstreamTIStates :=
  .calculate (((rows.filter (State.isFinished ·.state)).filter
      (isRelevantUpstream dag run s ti task relevantIds)).map
    fun row => ⟨row.state, (dag.getTask row.taskId).any (·.isSetup)⟩)

end

end Airflow
