import Airflow.Dag.TaskGroup

/-!
# The edges of the rendered graph

`dag_edges` (`airflow/utils/dag_edges.py`), with `get_roots`, `get_leaves` and
`get_task_group_dict` of a task group. A relation of a group is drawn through its two join nodes,
and edges between its tasks that this replaces are skipped. The records are not sorted by the texts
of their ids.
-/

namespace Airflow.Grouping

/-- A node of the rendered graph. -/
inductive GraphNode where
  | task (taskId : TaskId)
  | upstreamJoin (groupId : NodeId)
  | downstreamJoin (groupId : NodeId)
  deriving DecidableEq, Repr

/-- `(source_id, target_id)`. -/
abbrev GraphEdge := GraphNode × GraphNode

/-- `{"source_id": …, "target_id": …}`, with the metadata that there is. -/
structure EdgeRecord where
  sourceId : GraphNode
  targetId : GraphNode
  isSetupTeardown : Bool
  label : Option String
  deriving DecidableEq, Repr

namespace GroupedDag

variable (dag : GroupedDag)

/-! ## The roots and leaves of a group -/

/-- `list(group)`. -/
def tasksOf (children : List DAGNode) : List Operator :=
  (DAGNode.taskIdsOf children).filterMap dag.getTask

/-- `TaskGroup.get_roots`. -/
def getRoots (children : List DAGNode) : List TaskId :=
  let ids := DAGNode.taskIdsOf children
  ((dag.tasksOf children).filter fun task => task.upstreamTaskIds.all (· ∉ ids)).map Operator.taskId

/-- `has_non_teardown_downstream`. -/
def hasNonTeardownDownstream (ids : List TaskId) (task : Operator) (exclude : TaskId) : Bool :=
  (dag.downstreamList task).any fun downTask =>
    downTask.taskId ≠ exclude ∧ downTask.taskId ∈ ids ∧ ¬downTask.isTeardown

/-- `recurse_for_first_non_teardown`; `none` when the fuel runs out. -/
def recurseForFirstNonTeardown (ids : List TaskId) : Nat → Operator → Option (List TaskId)
  | 0, _ => none
  | fuel + 1, task =>
    ((dag.upstreamList task).mapM fun upstreamTask =>
      if upstreamTask.taskId ∉ ids then some []
      else if upstreamTask.isTeardown then recurseForFirstNonTeardown ids fuel upstreamTask
      else if task.isTeardown ∧ upstreamTask.isSetup then some []
      else if ¬dag.hasNonTeardownDownstream ids upstreamTask task.taskId then
        some [upstreamTask.taskId]
      else some []).map List.flatten

/-- What `get_leaves` yields for one task. No recursion of a DAG without cycles is deeper than it
has tasks. -/
def leavesOfTask (ids : List TaskId) (task : Operator) : Option (List TaskId) :=
  if task.downstreamTaskIds.all (· ∉ ids) then
    if ¬task.isTeardown then some [task.taskId]
    else dag.recurseForFirstNonTeardown ids (dag.tasks.length + 1) task
  else some []

/-- `TaskGroup.get_leaves`. -/
def getLeaves (children : List DAGNode) : Option (List TaskId) :=
  ((dag.tasksOf children).mapM (dag.leavesOfTask (DAGNode.taskIdsOf children))).map List.flatten

/-! ## The edges of the groups -/

/-- `task_group_map[target_id]`: the last group of the id, `none` for `KeyError`. -/
def taskGroupMap (id : NodeId) : Option (List DAGNode) :=
  (dag.groups.reverse.find? (·.1.groupId == id)).map (·.2)

/-- `edges_to_add` and `edges_to_skip`. -/
structure CollectedEdges where
  edgesToAdd : List GraphEdge := []
  edgesToSkip : List GraphEdge := []

/-- Both collected. -/
def CollectedEdges.union (c c' : CollectedEdges) : CollectedEdges where
  edgesToAdd := c.edgesToAdd ++ c'.edgesToAdd
  edgesToSkip := c.edgesToSkip ++ c'.edgesToSkip

/-- What a group immediately downstream gives, by the leaves of the group and the target's roots. -/
def collectDownstreamGroup (groupId targetId : NodeId) (leaves targetRoots : List TaskId) :
    CollectedEdges where
  edgesToAdd :=
    (.downstreamJoin groupId, .upstreamJoin targetId) ::
      leaves.map (fun child => (.task child, .downstreamJoin groupId)) ++
      targetRoots.map (fun child => (.upstreamJoin targetId, .task child))
  edgesToSkip :=
    leaves.flatMap (fun child => targetRoots.map fun target => (.task child, .task target)) ++
      leaves.map (fun child => (.task child, .upstreamJoin targetId)) ++
      targetRoots.map (fun child => (.downstreamJoin groupId, .task child))

/-- What an individual task immediately downstream gives. -/
def collectDownstreamTask (groupId : NodeId) (targetId : TaskId) (leaves : List TaskId) :
    CollectedEdges where
  edgesToAdd :=
    (.downstreamJoin groupId, .task targetId) ::
      leaves.map fun child => (.task child, .downstreamJoin groupId)
  edgesToSkip := leaves.map fun child => (.task child, .task targetId)

/-- What an individual task immediately upstream gives. -/
def collectUpstreamTask (groupId : NodeId) (sourceId : TaskId) (roots : List TaskId) :
    CollectedEdges where
  edgesToAdd :=
    (.task sourceId, .upstreamJoin groupId) ::
      roots.map fun child => (.upstreamJoin groupId, .task child)
  edgesToSkip := roots.map fun child => (.task sourceId, .task child)

/-- `for target_id in task_group.downstream_group_ids`. -/
def collectTarget (groupId : NodeId) (leaves : List TaskId) (targetId : NodeId) :
    Option CollectedEdges :=
  (dag.taskGroupMap targetId).map fun targetGroup =>
    collectDownstreamGroup groupId targetId leaves (dag.getRoots targetGroup)

/-- `collect_edges` of one group. -/
def collectGroup (g : TaskGroup × List DAGNode) : Option CollectedEdges :=
  (dag.getLeaves g.2).bind fun leaves =>
    (g.1.downstreamGroupIds.mapM (dag.collectTarget g.1.groupId leaves)).map fun ofGroups =>
      let ofDownstream := g.1.downstreamTaskIds.map fun targetId =>
        collectDownstreamTask g.1.groupId targetId leaves
      let ofUpstream := g.1.upstreamTaskIds.map fun sourceId =>
        collectUpstreamTask g.1.groupId sourceId (dag.getRoots g.2)
      (ofGroups ++ ofDownstream ++ ofUpstream).foldl CollectedEdges.union {}

/-- `collect_edges(dag.task_group)`, which goes through the groups as `build_map` does. -/
def collectEdges : Option CollectedEdges :=
  (dag.groups.mapM dag.collectGroup).map fun collected => collected.foldl CollectedEdges.union {}

/-! ## The edges between individual tasks -/

/-- `edges`, `setup_teardown_edges` and the tasks to trace. -/
structure Trace where
  edges : List (TaskId × TaskId) := []
  setupTeardownEdges : List (TaskId × TaskId) := []
  tasksToTrace : List Operator := []

/-- `for child in task.downstream_list`. -/
def Trace.child (s : Trace) (task child : Operator) : Trace :=
  let edge := (task.taskId, child.taskId)
  { edges := if s.edges.contains edge then s.edges else s.edges ++ [edge]
    setupTeardownEdges :=
      if task.isSetup ∧ child.isTeardown then s.setupTeardownEdges ++ [edge]
      else s.setupTeardownEdges
    tasksToTrace :=
      if s.edges.contains edge then s.tasksToTrace else s.tasksToTrace ++ [child] }

/-- `while tasks_to_trace`; `none` when the fuel runs out. -/
def traceEdges : Nat → Trace → Option Trace
  | 0, s => if s.tasksToTrace.isEmpty then some s else none
  | fuel + 1, s =>
    if s.tasksToTrace.isEmpty then some s
    else
      traceEdges fuel (s.tasksToTrace.foldl
        (fun s task => (dag.downstreamList task).foldl (fun s child => s.child task child) s)
        { s with tasksToTrace := [] })

/-- `dag.roots`. -/
def rootTasks : List Operator := dag.tasks.filter fun task => (dag.upstreamList task).isEmpty

/-- All edges between tasks, which bound the levels of the trace. -/
def taskEdges : List (TaskId × TaskId) :=
  dag.tasks.flatMap fun task => (dag.downstreamList task).map fun child =>
    (task.taskId, child.taskId)

/-! ## All edges -/

/-- `dag_edges`; `labels` is what `get_edge_info` has under `"label"`, `none` for an exception. -/
def dagEdges (labels : GraphNode → GraphNode → Option String) : Option (List EdgeRecord) :=
  dag.collectEdges.bind fun collected =>
    (dag.traceEdges (dag.taskEdges.length + 1) { tasksToTrace := dag.rootTasks }).map fun trace =>
      let edges := trace.edges.map fun edge => (GraphNode.task edge.1, GraphNode.task edge.2)
      let setupTeardownEdges :=
        trace.setupTeardownEdges.map fun edge => (GraphNode.task edge.1, GraphNode.task edge.2)
      ((edges ++ collected.edgesToAdd).dedup.filter (!collected.edgesToSkip.contains ·)).map
        fun edge =>
          { sourceId := edge.1
            targetId := edge.2
            isSetupTeardown := setupTeardownEdges.contains edge
            label := labels edge.1 edge.2 }

end GroupedDag

end Airflow.Grouping
