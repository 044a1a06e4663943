import Airflow.Dag.Graph

/-!
# The task groups of a DAG

`TaskGroup` and its children (`airflow/utils/task_group.py`). The children of a group are in the
order of its dict, in which they were added. Ids of tasks and of groups are of one kind, as the keys
of `children` are; `None` is the id of the root group.
-/

namespace Airflow.Grouping

/-- `group_id` of a group or `task_id` of a task; `none` for the root group. -/
abbrev NodeId := Option TaskId

/-- A `TaskGroup` without its children: its id, and the groups and tasks that depend on the entire
group or that it depends on. -/
structure TaskGroup where
  groupId : NodeId
  upstreamGroupIds : List NodeId := []
  downstreamGroupIds : List NodeId := []
  upstreamTaskIds : List TaskId := []
  downstreamTaskIds : List TaskId := []
  deriving DecidableEq, Repr

/-- The group of `create_root`. -/
def rootGroup : TaskGroup where
  groupId := none

theorem rootGroup_groupId : rootGroup.groupId = none := rfl

/-- A child of a task group. -/
inductive DAGNode where
  | task (taskId : TaskId)
  | taskGroup (group : TaskGroup) (children : List DAGNode)

namespace DAGNode

/-- `node_id`. -/
def nodeId : DAGNode → NodeId
  | .task taskId => some taskId
  | .taskGroup group _ => group.groupId

mutual

/-- The tasks that `TaskGroup.__iter__` yields for a child. -/
def taskIds : DAGNode → List TaskId
  | .task taskId => [taskId]
  | .taskGroup _ children => taskIdsOf children

/-- `list(group)`, for the children of the group. -/
def taskIdsOf : List DAGNode → List TaskId
  | [] => []
  | child :: children => child.taskIds ++ taskIdsOf children

end

mutual

/-- The groups that `build_map` of `get_task_group_dict` sees at a node, in its order, each with
its children. -/
def groups : DAGNode → List (TaskGroup × List DAGNode)
  | .task _ => []
  | .taskGroup group children => (group, children) :: groupsOf children

def groupsOf : List DAGNode → List (TaskGroup × List DAGNode)
  | [] => []
  | child :: children => child.groups ++ groupsOf children

end

/-- Induction over a node and, for a group, all its children. -/
@[elab_as_elim] theorem ind {motive : DAGNode → Prop} (task : ∀ taskId, motive (.task taskId))
    (taskGroup : ∀ group children, (∀ child ∈ children, motive child) →
      motive (.taskGroup group children)) (node : DAGNode) : motive node :=
  @DAGNode.rec motive (fun children => ∀ child ∈ children, motive child) task taskGroup
    (fun _ h => nomatch h)
    (fun _ _ hhead htail => List.forall_mem_cons.mpr ⟨hhead, htail⟩) node

theorem taskIdsOf_eq (children : List DAGNode) : taskIdsOf children = children.flatMap taskIds := by
  induction children with
  | nil => rfl
  | cons child children ih => rw [taskIdsOf, ih, List.flatMap_cons]

theorem groupsOf_eq (children : List DAGNode) : groupsOf children = children.flatMap groups := by
  induction children with
  | nil => rfl
  | cons child children ih => rw [groupsOf, ih, List.flatMap_cons]

@[simp] theorem taskIds_task (taskId : TaskId) : (task taskId).taskIds = [taskId] := rfl

@[simp] theorem taskIds_taskGroup (group : TaskGroup) (children : List DAGNode) :
    (taskGroup group children).taskIds = children.flatMap taskIds := by
  rw [taskIds, taskIdsOf_eq]

@[simp] theorem groups_task (taskId : TaskId) : (task taskId).groups = [] := rfl

@[simp] theorem groups_taskGroup (group : TaskGroup) (children : List DAGNode) :
    (taskGroup group children).groups = (group, children) :: children.flatMap groups := by
  rw [groups, groupsOf_eq]

end DAGNode

/-- A DAG with its root task group (`DAG._task_group`), in which every task of it is once. Only the
root has no id, and the children of a group are a dict. All groups share `usedGroupIds`. An edge is
set on both its tasks. -/
structure GroupedDag extends Dag where
  taskGroup : TaskGroup := rootGroup
  children : List DAGNode
  usedGroupIds : List NodeId := []
  tree_taskIds : (DAGNode.taskIdsOf children).Perm (tasks.map Operator.taskId) := by decide
  mirror : ∀ a ∈ tasks, ∀ b ∈ tasks, b.taskId ∈ a.downstreamTaskIds ↔
    a.taskId ∈ b.upstreamTaskIds := by decide
  groupId_root : taskGroup.groupId = none := by exact rootGroup_groupId
  groupId_isSome : ∀ g ∈ DAGNode.groupsOf children, g.1.groupId.isSome := by decide
  children_nodup : ∀ g ∈ (taskGroup, children) :: DAGNode.groupsOf children,
    (g.2.map DAGNode.nodeId).Nodup := by decide

namespace GroupedDag

/-- The root group as a node. -/
def root (dag : GroupedDag) : DAGNode := .taskGroup dag.taskGroup dag.children

/-- The groups of the DAG, the root among them. -/
def groups (dag : GroupedDag) : List (TaskGroup × List DAGNode) := dag.root.groups

end GroupedDag

end Airflow.Grouping
