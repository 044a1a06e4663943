import Airflow.Deps.TriggerRule
import Mathlib.Data.List.Dedup

/-!
# Operators, the DAG and its partial subsets

The static side of a DAG as the scheduler reads it: an `Operator` (`BaseOperator` or
`MappedOperator`) with its expand input and mapped task groups, the `Dag`, and from
`airflow/models/abstractoperator.py` and `airflow/models/dag.py` the graph walks
`flatRelativeIds`, `getUpstreamsOnlySetups` and `partialSubset`.

Sets of task ids are lists; the order of iteration over a set is not observable in what is modelled
here. `Dag.tasks` is in the order of `task_dict`, and a subset keeps that order.
-/

namespace Airflow

/-- A task id. -/
abbrev TaskId := Nat

/-! ## Mapped arguments -/

/-- `XComArg`: a reference to an operator's result, possibly through `map()` and `zip()`. -/
inductive XComArg where
  | plain (operator : TaskId) (isMapped : Bool)
  | map (arg : XComArg)
  | zip (args : List XComArg) (fillvalue : Bool)

/-- An argument of `expand()`: a literal of a known length, or an XCom reference. -/
inductive ExpandArgument where
  | literal (length : Nat)
  | xcomArg (arg : XComArg)

/-- `ExpandInput`. -/
inductive ExpandInput where
  | dictOfLists (value : List ExpandArgument)
  | listOfDicts (value : ExpandArgument)

/-- `MappedTaskGroup`. -/
structure MappedTaskGroup where
  groupId : Nat
  expandInput : ExpandInput

/-! ## Operators -/

/-- The dependency classes of `airflow/ti_deps/deps` that operators are built with. -/
inductive TIDep where
  | notInRetryPeriod
  | prevDagrun
  | triggerRule
  | notPreviouslySkipped
  | mappedTaskIsExpanded
  | readyToReschedule
  deriving DecidableEq, Repr

/-- `BaseOperator.deps`. -/
def baseOperatorDeps : List TIDep := [.notInRetryPeriod, .prevDagrun, .triggerRule,
  .notPreviouslySkipped]

theorem baseOperatorDeps_unmapped :
    TIDep.mappedTaskIsExpanded ∈ baseOperatorDeps → (none : Option ExpandInput).isSome := by decide

/-- `Operator`. `expandInput` is set for a `MappedOperator`, `mappedTaskGroups` are the mapped task
groups around the task from the innermost outwards, `deps` the dependencies in the order the set
is iterated. Only a `MappedOperator` has the dependency that it is expanded (`deps_for`). -/
structure Operator where
  taskId : TaskId
  upstreamTaskIds : List TaskId := []
  downstreamTaskIds : List TaskId := []
  triggerRule : TriggerRule := .allSuccess
  isSetup : Bool := false
  isTeardown : Bool := false
  onFailureFailDagrun : Bool := false
  dependsOnPast : Bool := false
  waitForDownstream : Bool := false
  ignoreFirstDependsOnPast : Bool := false
  startDate : Int := 0
  maxActiveTisPerDag : Option Nat := none
  maxActiveTisPerDagrun : Option Nat := none
  isSkipMixin : Bool := false
  reschedule : Bool := false
  inheritsFromEmptyOperator : Bool := false
  onExecuteCallback : Bool := false
  onSuccessCallback : Bool := false
  outlets : Bool := false
  expandInput : Option ExpandInput := none
  mappedTaskGroups : List MappedTaskGroup := []
  deps : List TIDep := baseOperatorDeps
  deps_mapped : TIDep.mappedTaskIsExpanded ∈ deps → expandInput.isSome := by decide

namespace Operator

/-- `isinstance(task, MappedOperator)`. -/
def isMapped (task : Operator) : Bool := task.expandInput.isSome

/-- `needs_expansion`. -/
def needsExpansion (task : Operator) : Bool := task.isMapped || !task.mappedTaskGroups.isEmpty

/-- `get_direct_relative_ids`. -/
def directRelativeIds (task : Operator) (upstream : Bool) : List TaskId :=
  if upstream then task.upstreamTaskIds else task.downstreamTaskIds

/-- The references to tasks that did not make the cut are removed (end of `partial_subset`). -/
def restrict (task : Operator) (kept : TaskId → Bool) : Operator :=
  { task with
    upstreamTaskIds := task.upstreamTaskIds.filter kept
    downstreamTaskIds := task.downstreamTaskIds.filter kept }

end Operator

/-! ## The DAG -/

/-- `DAG`: its tasks, with edges that stay inside it. -/
structure Dag where
  tasks : List Operator
  partialDag : Bool := false
  catchup : Bool := false
  taskIds_nodup : (tasks.map Operator.taskId).Nodup := by decide
  upstream_mem : ∀ t ∈ tasks, ∀ u ∈ t.upstreamTaskIds, u ∈ tasks.map Operator.taskId := by decide
  downstream_mem : ∀ t ∈ tasks, ∀ d ∈ t.downstreamTaskIds, d ∈ tasks.map Operator.taskId := by
    decide

namespace Dag

variable (dag : Dag)

/-- `DAG.task_ids`. -/
def taskIds : List TaskId := dag.tasks.map Operator.taskId

/-- `DAG.get_task` (`none` for `TaskNotFound`). -/
def getTask (id : TaskId) : Option Operator := dag.tasks.find? (·.taskId = id)

/-- `upstream_list`. -/
def upstreamList (task : Operator) : List Operator :=
  dag.tasks.filter (·.taskId ∈ task.upstreamTaskIds)

/-- `downstream_list`. -/
def downstreamList (task : Operator) : List Operator :=
  dag.tasks.filter (·.taskId ∈ task.downstreamTaskIds)

/-- The loop of `get_flat_relative_ids`, one level of relatives a step. -/
def traceRelatives (upstream : Bool) : Nat → List TaskId → List TaskId → List TaskId
  | 0, relatives, _ => relatives
  | fuel + 1, relatives, taskIdsToTrace =>
    let new := (taskIdsToTrace.filter (· ∉ relatives)).dedup
    if new = [] then relatives
    else traceRelatives upstream fuel (relatives ++ new)
      (new.flatMap fun id => ((dag.getTask id).map (·.directRelativeIds upstream)).getD [])

/-- `get_flat_relative_ids`. Every level adds a task of the DAG, so its size bounds the levels. -/
def flatRelativeIds (task : Operator) (upstream : Bool) : List TaskId :=
  dag.traceRelatives upstream (dag.tasks.length + 1) [] (task.directRelativeIds upstream)

/-- `get_flat_relatives`. -/
def flatRelatives (task : Operator) (upstream : Bool) : List Operator :=
  dag.tasks.filter (·.taskId ∈ dag.flatRelativeIds task upstream)

/-! ### Setups and teardowns -/

/-- The teardowns that `t`'s setups are yielded with (`t.downstream_list` but `task` itself). -/
def teardownsOf (task t : Operator) : List Operator :=
  (dag.downstreamList t).filter fun x => x.isTeardown ∧ x.taskId ≠ task.taskId

/-- `get_upstreams_follow_setups`. -/
def getUpstreamsFollowSetups (task : Operator) : List Operator :=
  (dag.flatRelatives task true).flatMap fun t =>
    t :: if t.isSetup then dag.teardownsOf task t else []

/-- `get_upstreams_only_setups_and_teardowns`: the upstream setups without teardowns or with one
downstream of the task, and their teardowns. -/
def getUpstreamsOnlySetupsAndTeardowns (task : Operator) : List Operator :=
  let downstreamTeardownIds :=
    ((dag.flatRelatives task false).filter (·.isTeardown)).map Operator.taskId
  (dag.flatRelatives task true).flatMap fun t =>
    if t.isSetup ∧ (¬(dag.downstreamList t).any (·.isTeardown) ∨
        t.downstreamTaskIds.any (· ∈ downstreamTeardownIds)) then
      t :: dag.teardownsOf task t
    else []

/-- `get_upstreams_only_setups`, as the keys of the dict that `TriggerRuleDep` builds of it. -/
def getUpstreamsOnlySetups (task : Operator) : List TaskId :=
  (((dag.getUpstreamsOnlySetupsAndTeardowns task).filter (·.isSetup)).map Operator.taskId).dedup

/-! ### The leaves that decide the run's state -/

/-- `is_effective_leaf`: no downstream task counts, and the task itself does. -/
def isEffectiveLeaf (task : Operator) : Bool :=
  (task.downstreamTaskIds.all fun id =>
    (dag.getTask id).all fun down => down.isTeardown ∧ ¬down.onFailureFailDagrun) &&
  (!task.isTeardown || task.onFailureFailDagrun)

/-- `leaf_task_ids` of `_tis_for_dagrun_state`. -/
def leafTaskIds : List TaskId :=
  let leaves := (dag.tasks.filter dag.isEffectiveLeaf).map Operator.taskId
  if leaves.isEmpty then
    (dag.tasks.filter fun x => (dag.downstreamList x).isEmpty).map Operator.taskId
  else leaves

/-! ### Partial subsets -/

/-- `also_include_ids` of `partial_subset` for one matched task. -/
def alsoIncludeIds (matched : List TaskId) (includeDownstream includeUpstream : Bool)
    (t : Operator) : List TaskId :=
  (if includeDownstream then
    (dag.flatRelatives t false).flatMap fun rel =>
      rel.taskId ::
        if rel.taskId ∉ matched ∧ ¬rel.isSetup ∧ ¬rel.isTeardown then
          (dag.getUpstreamsOnlySetupsAndTeardowns rel).map Operator.taskId
        else []
  else []) ++
  (if includeUpstream then (dag.getUpstreamsFollowSetups t).map Operator.taskId
  else if ¬t.isSetup ∧ ¬t.isTeardown then
    (dag.getUpstreamsOnlySetupsAndTeardowns t).map Operator.taskId
  else []) ++
  (if t.isSetup ∧ ¬includeDownstream then
    ((dag.downstreamList t).filter (·.isTeardown)).map Operator.taskId
  else [])

/-- The ids of the tasks that make the cut in `partial_subset`. -/
def subsetIds (taskIds : List TaskId)
    (includeDownstream includeUpstream includeDirectUpstream : Bool) : List TaskId :=
  let matched := dag.tasks.filter (·.taskId ∈ taskIds)
  let matchedIds := matched.map Operator.taskId
  let alsoInclude :=
    matched.flatMap (dag.alsoIncludeIds matchedIds includeDownstream includeUpstream)
  let cut := matchedIds ++ alsoInclude
  let directUpstreams :=
    if includeDirectUpstream then
      (dag.tasks.filter (·.taskId ∈ cut)).flatMap (·.upstreamTaskIds)
    else []
  cut ++ directUpstreams

theorem map_taskId_restrict (tasks : List Operator) (kept : TaskId → Bool) :
    (tasks.map (·.restrict kept)).map Operator.taskId = tasks.map Operator.taskId := by
  simp [Function.comp_def, Operator.restrict]

theorem mem_map_restrict_filter {tasks : List Operator} {kept : TaskId → Bool} {id : TaskId}
    (hmem : id ∈ tasks.map Operator.taskId) (hk : kept id = true) :
    id ∈ ((tasks.filter (kept ·.taskId)).map (·.restrict kept)).map Operator.taskId := by
  rw [map_taskId_restrict]
  obtain ⟨t, ht, rfl⟩ := List.mem_map.mp hmem
  exact List.mem_map_of_mem (List.mem_filter.mpr ⟨ht, hk⟩)

/-- The copied tasks of `partial_subset`, which refer to kept tasks only. -/
def keep (kept : TaskId → Bool) : Dag where
  tasks := (dag.tasks.filter (kept ·.taskId)).map (·.restrict kept)
  partialDag := dag.partialDag || decide ((dag.tasks.filter (kept ·.taskId)).length < dag.tasks.length)
  catchup := dag.catchup
  taskIds_nodup := by
    rw [map_taskId_restrict]
    exact dag.taskIds_nodup.sublist (List.filter_sublist.map _)
  upstream_mem := by
    intro t ht u hu
    obtain ⟨t', ht', rfl⟩ := List.mem_map.mp ht
    obtain ⟨hu, hk⟩ := List.mem_filter.mp hu
    exact mem_map_restrict_filter (dag.upstream_mem t' (List.mem_filter.mp ht').1 u hu) hk
  downstream_mem := by
    intro t ht d hd
    obtain ⟨t', ht', rfl⟩ := List.mem_map.mp ht
    obtain ⟨hd, hk⟩ := List.mem_filter.mp hd
    exact mem_map_restrict_filter (dag.downstream_mem t' (List.mem_filter.mp ht').1 d hd) hk

/-- `DAG.partial_subset` for a collection of task ids. -/
def partialSubset (taskIds : List TaskId)
    (includeDownstream includeUpstream includeDirectUpstream : Bool) : Dag :=
  dag.keep (· ∈ dag.subsetIds taskIds includeDownstream includeUpstream includeDirectUpstream)

end Dag

end Airflow
