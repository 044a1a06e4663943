import Mathlib.Algebra.Ring.Nat
import Airflow.DagRun.Session

/-!
# The dependencies of a task instance

`areDependenciesMet` of `airflow/models/taskinstance.py` with the dependency classes that operators
are built with (`airflow/ti_deps/deps`). Evaluating a dependency may assign a state to the task
instance: `TriggerRuleDep` and `NotPreviouslySkippedDep` do so, and the statuses of all
dependencies are consumed, in the order in which the operator's set of them is iterated.

The decision round and the deadlock check both set `flag_upstream_failed` and leave
`ignore_depends_on_past`, `ignore_task_deps`, `ignore_all_deps` and
`wait_for_past_depends_before_skipping` unset, so these have no field in `DepContext`.
-/

namespace Airflow

/-- `DepContext`. -/
structure DepContext where
  finishedTis : List TIRef
  ignoreInRetryPeriod : Bool := false
  ignoreInReschedulePeriod : Bool := false
  ignoreUnmappedTasks : Bool := false

/-- The flags of both callers that `TriggerRuleDep` reads. -/
def flagUpstreamFailed : TriggerFlags := ⟨true, false⟩

/-- An evaluation under way: the session, `have_changed_ti_states`, and whether all statuses so far
were passing. -/
structure DepState where
  session : Session
  haveChangedTiStates : Bool := false
  met : Bool := true

/-- `ti.set_state`: whether the state was changed. -/
def Session.setTiState (s : Session) (ti : TIRef) (state : TIState) : Session × Bool :=
  if s.state ti = state then (s, false) else (s.setState ti state, true)

section
variable (dag : Dag) (run : RunData) (s : Session) (ti : TIRef) (task : Operator)

/-! ## Relevant upstream instances -/

/-- `int | range | None`. -/
inductive MapIndexes where
  | index (i : Int)
  | range (start stop : Int)
  deriving DecidableEq, Repr

/-- `upstream.map_index` is one of the relevant indexes. -/
def MapIndexes.contains : MapIndexes → Int → Bool
  | .index i, j => i = j
  | .range start stop, j => start ≤ j ∧ j < stop

/-- `_find_common_ancestor_mapped_group`, with the groups around it. -/
def findCommonAncestorMappedGroup (node1 node2 : Operator) : List MappedTaskGroup :=
  node2.mappedTaskGroups.dropWhile fun g =>
    !node1.mappedTaskGroups.any (·.groupId = g.groupId)

/-- `_is_further_mapped_inside`, for the groups from the container outwards. -/
def isFurtherMappedInside (operator : Operator) (container : List MappedTaskGroup) : Bool :=
  operator.isMapped || decide (container.length < operator.mappedTaskGroups.length)

/-- `get_relevant_upstream_map_indexes`. -/
def getRelevantUpstreamMapIndexes (upstream : Operator) (tiCount : Nat) : Option MapIndexes :=
  if tiCount = 0 then none
  else
    match findCommonAncestorMappedGroup task upstream with
    | [] => none
    | common =>
      match groupsMappedTiCount run s common with
      | .error _ => none
      | .ok ancestorTiCount =>
        let ancestorMapIndex := s.mapIndex ti * ancestorTiCount / tiCount
        if !isFurtherMappedInside upstream common then some (.index ancestorMapIndex)
        else
          let furtherCount := (tiCount / ancestorTiCount : Nat)
          let mapIndexStart := ancestorMapIndex * furtherCount
          some (.range mapIndexStart (mapIndexStart + furtherCount))

/-- `_get_relevant_upstream_map_indexes`. -/
def relevantUpstreamMapIndexes (upstreamId : TaskId) : Option MapIndexes :=
  match task.getMappedTiCount run s, dag.getTask upstreamId with
  | .ok expandedTiCount, some upstream =>
    getRelevantUpstreamMapIndexes run s ti task upstream expandedTiCount
  | _, _ => none

/-- The part of `_is_relevant_upstream` and `_iter_upstream_conditions` about map indexes. -/
def isRelevantMapIndex (upstreamId : TaskId) (mapIndex : Int) : Bool :=
  task.mappedTaskGroups.isEmpty || decide (mapIndex < 0) ||
    (relevantUpstreamMapIndexes dag run s ti task upstreamId).all (·.contains mapIndex)

/-- The finished instances of `relevantIds` that `ti` depends on. -/
def finishedUpstreams (ctx : DepContext) (relevantIds : List TaskId) : List UpstreamTI :=
  (ctx.finishedTis.filter fun up =>
      up.taskId ∈ relevantIds ∧ isRelevantMapIndex dag run s ti task up.taskId (s.mapIndex up)).map
    fun up => ⟨s.state up, (dag.getTask up.taskId).any (·.isSetup)⟩

/-- The number of rows of task `t` that `ti` depends on (`_iter_upstream_conditions`). -/
def taskIdCount (t : TaskId) : Nat :=
  (s.rowsOf t).countP fun up => isRelevantMapIndex dag run s ti task t up.mapIndex

/-- `upstream`: the number of instances to wait for. -/
def upstreamCount (relevantTasks : List Operator) : Nat :=
  if !relevantTasks.any (·.needsExpansion) then relevantTasks.length
  else (relevantTasks.map fun t => taskIdCount dag run s ti task t.taskId).sum

/-- `upstream_setup`. -/
def upstreamSetupCount (relevantTasks : List Operator) : Nat :=
  if !relevantTasks.any (·.needsExpansion) then relevantTasks.countP (·.isSetup)
  else ((relevantTasks.filter (·.isSetup)).map fun t => taskIdCount dag run s ti task t.taskId).sum

/-! ## `TriggerRuleDep` -/

/-- The tasks of `_evaluate_setup_constraint`. -/
def indirectSetups : List Operator :=
  let relevantSetups := dag.getUpstreamsOnlySetups task
  dag.tasks.filter fun t => t.taskId ∈ relevantSetups ∧ t.taskId ∉ task.upstreamTaskIds

/-- `_evaluate_setup_constraint`. -/
def setupConstraint (ctx : DepContext) : Evaluation :=
  let setups := indirectSetups dag task
  evaluateSetupConstraint flagUpstreamFailed false (s.mapIndex ti)
    (upstreamCount dag run s ti task setups)
    (finishedUpstreams dag run s ti task ctx (setups.map Operator.taskId))

/-- `_evaluate_direct_relatives`. -/
def directRelatives (ctx : DepContext) : Evaluation :=
  let upstreamTasks := dag.upstreamList task
  evaluateDirectRelatives flagUpstreamFailed false task.triggerRule (s.mapIndex ti)
    (upstreamCount dag run s ti task upstreamTasks)
    (upstreamSetupCount dag run s ti task upstreamTasks)
    (finishedUpstreams dag run s ti task ctx task.upstreamTaskIds)

/-- What an evaluation does to `ti`, and whether it changed the state. -/
def applyEvaluation (d : DepState) (e : Evaluation) : DepState × Bool :=
  match e.newState with
  | none => ({ d with met := d.met && e.passed }, false)
  | some state =>
    let set := d.session.setTiState ti (some state)
    (⟨set.1, d.haveChangedTiStates || set.2, d.met && e.passed⟩, set.2)

/-- `TriggerRuleDep._evaluate_trigger_rule`. -/
def evaluateTriggerRule (ctx : DepContext) (d : DepState) : DepState :=
  if task.isTeardown ∨ dag.getUpstreamsOnlySetups task = [] then
    (applyEvaluation ti d (directRelatives dag run d.session ti task ctx)).1
  else
    let setup := setupConstraint dag run d.session ti task ctx
    let applied := applyEvaluation ti d setup
    -- no need to evaluate the trigger rule; the instance is already marked as skipped or failed
    if !setup.passed ∧ applied.2 then applied.1
    else (applyEvaluation ti applied.1 (directRelatives dag run applied.1.session ti task ctx)).1

/-- `TriggerRuleDep._get_dep_statuses`. -/
def triggerRuleDep (ctx : DepContext) (d : DepState) : DepState :=
  if task.upstreamTaskIds.isEmpty ∨ task.triggerRule = .always then d
  else evaluateTriggerRule dag run ti task ctx d

/-! ## The other dependencies -/

/-- `NotInRetryPeriodDep`. -/
def notInRetryPeriod (ctx : DepContext) : Bool :=
  ctx.ignoreInRetryPeriod || decide (s.state ti ≠ some .upForRetry) ||
    (s.get ti).any (·.readyForRetry)

/-- `PrevDagrunDep`. -/
def prevDagrun : Bool :=
  if ¬task.dependsOnPast then true
  else
    match if dag.catchup then run.previousScheduledDagrun else run.previousDagrun with
    | none => true
    | some lastDagrun =>
      if dag.catchup ∧ lastDagrun.executionDate < task.startDate then true
      else if lastDagrun.tis task.taskId = [] then
        task.ignoreFirstDependsOnPast && !run.hasAnyPriorTis task.taskId
      else if (lastDagrun.tis task.taskId).any fun state => !State.isSuccess state then false
      else
        !(task.waitForDownstream && task.downstreamTaskIds.any fun id =>
          (lastDagrun.tis id).any fun state => !State.isSuccess state)

/-- Whether `parent` decided that the instances of `t` should be skipped. -/
def SkipMixinResult.shouldSkip (result : SkipMixinResult) (t : TaskId) : Bool :=
  (result.followed.any fun followed => t ∉ followed) ||
    (result.skipped.any fun skipped => t ∈ skipped)

/-- A finished direct upstream task told to skip `ti` (`NotPreviouslySkippedDep`). -/
def previouslySkipped (ctx : DepContext) : Bool :=
  (dag.upstreamList task).any fun parent =>
    parent.isSkipMixin && decide (parent.taskId ∈ ctx.finishedTis.map TIRef.taskId) &&
      (run.skipMixinXCom parent.taskId).any (·.shouldSkip task.taskId)

/-- `NotPreviouslySkippedDep`; it does not report the change in `have_changed_ti_states`. -/
def notPreviouslySkippedDep (ctx : DepContext) (d : DepState) : DepState :=
  if previouslySkipped dag run task ctx then
    { d with session := (d.session.setTiState ti (some .skipped)).1, met := false }
  else d

/-- `MappedTaskIsExpanded`. -/
def mappedTaskIsExpanded (ctx : DepContext) : Bool :=
  ctx.ignoreUnmappedTasks || decide (s.mapIndex ti ≠ -1)

/-- `ReadyToRescheduleDep`. -/
def readyToReschedule (ctx : DepContext) : Bool :=
  (!task.isMapped && !task.reschedule && !run.changeSensorModeToReschedule) ||
    ctx.ignoreInReschedulePeriod ||
    decide (s.state ti ≠ some .upForReschedule ∧ s.state ti ≠ none) ||
    !(s.get ti).any (·.rescheduleInFuture)

/-- `get_dep_statuses` of one dependency, consumed. -/
def getDepStatuses (ctx : DepContext) (d : DepState) : TIDep → DepState
  | .notInRetryPeriod => { d with met := d.met && notInRetryPeriod d.session ti ctx }
  | .prevDagrun => { d with met := d.met && prevDagrun dag run task }
  | .triggerRule => triggerRuleDep dag run ti task ctx d
  | .notPreviouslySkipped => notPreviouslySkippedDep dag run ti task ctx d
  | .mappedTaskIsExpanded => { d with met := d.met && mappedTaskIsExpanded d.session ti ctx }
  | .readyToReschedule => { d with met := d.met && readyToReschedule run d.session ti task ctx }

/-- `are_dependencies_met`. -/
def areDependenciesMet (ctx : DepContext) : DepState :=
  task.deps.foldl (getDepStatuses dag run ti task ctx) { session := s }

end

end Airflow
