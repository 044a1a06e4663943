import Airflow.Dag.TaskGroup
import Airflow.Lib.PassSort

/-!
# The topological sort of a DAG

`TaskGroup.topological_sort` (`airflow/utils/task_group.py`) sorts the children of one group;
`DAG.topological_sort` (`airflow/models/dag.py`) joins what it yields for all groups. The tasks of
sub-DAGs are not included.
-/

namespace Airflow.Grouping

/-- What a sort raises: `TaskNotFound` from `upstream_list`, or `AirflowDagCycleException`. -/
inductive SortError where
  | taskNotFound
  | airflowDagCycleException
  deriving DecidableEq, Repr

namespace DAGNode

mutual

/-- The ids of the groups around a task in a node, from the innermost outwards: `tg.node_id` for
`tg = edge.task_group`, `tg.task_group` and so on. -/
def enclosingIds (taskId : TaskId) : DAGNode → Option (List NodeId)
  | .task id => if id = taskId then some [] else none
  | .taskGroup group children =>
    (enclosingIdsOf taskId children).map (· ++ [group.groupId])

def enclosingIdsOf (taskId : TaskId) : List DAGNode → Option (List NodeId)
  | [] => none
  | child :: children =>
    match child.enclosingIds taskId with
    | some ids => some ids
    | none => enclosingIdsOf taskId children

end

end DAGNode

/-- `for a in as: yield from f(a)`. -/
def yieldFrom {α β ε : Type} (f : α → Option (Except ε (List β))) :
    List α → Option (Except ε (List β))
  | [] => some (.ok [])
  | a :: as =>
    match f a with
    | some (.ok bs) =>
      match yieldFrom f as with
      | some (.ok cs) => some (.ok (bs ++ cs))
      | result => result
    | result => result

namespace GroupedDag

open DAGNode

variable (dag : GroupedDag)

/-- `upstream_task_ids`. -/
def upstreamTaskIds : DAGNode → List TaskId
  | .task taskId => ((dag.getTask taskId).map (·.upstreamTaskIds)).getD []
  | .taskGroup group _ => group.upstreamTaskIds

/-- The loop over `node.upstream_list` stops at a task that is the unsorted `other` or in it. -/
def blocks (other node : DAGNode) : Bool :=
  (dag.upstreamTaskIds node).any fun edge =>
    other.nodeId == some edge || ((dag.root.enclosingIds edge).getD []).contains other.nodeId

/-- `TaskGroup.topological_sort`, for the children of the group. `upstream_list` looks all
upstream tasks of a child up. -/
def sortChildren (children : List DAGNode) : Option (Except SortError (List DAGNode)) :=
  if children.all fun node => (dag.upstreamTaskIds node).all (· ∈ dag.taskIds) then
    (PassSort.sort dag.blocks children.length children).map fun graphSorted =>
      match graphSorted with
      | some graphSorted => .ok graphSorted
      | none => .error .airflowDagCycleException
  else some (.error .taskNotFound)

/-- `nested_topo`, of groups nested less than `fuel` deep. -/
def nestedTopo : Nat → List DAGNode → Option (Except SortError (List TaskId))
  | 0, _ => none
  | fuel + 1, children =>
    match dag.sortChildren children with
    | some (.ok nodes) =>
      yieldFrom (fun node =>
        match node with
        | .task taskId => some (.ok [taskId])
        | .taskGroup _ children => nestedTopo fuel children) nodes
    | some (.error e) => some (.error e)
    | none => none

/-- `DAG.topological_sort`. -/
def topologicalSort : Option (Except SortError (List TaskId)) :=
  dag.nestedTopo dag.groups.length dag.children

end GroupedDag

end Airflow.Grouping
