import Airflow.Dag.TaskGroup

/-!
# Partial subsets of a DAG with task groups

`DAG.partial_subset` (`airflow/models/dag.py`): the tasks that make the cut, the recursive copy of
the task groups, and the removal of references to what did not make it.

The copied groups are updated through `get_task_group_dict`, a dict by id: of the groups with one id
it has the last.
-/

namespace Airflow.Grouping

/-! ## The tasks -/

/-- `task_ids_or_regex`: a collection of task ids, or a regular expression by what `re2.findall`
finds in each id. -/
inductive TaskSelection where
  | taskIds (ids : List TaskId)
  | regex (findall : TaskId → List String)

/-- `matched_tasks`. -/
def matchedTasks (dag : Dag) : TaskSelection → List Operator
  | .taskIds ids => dag.tasks.filter (·.taskId ∈ ids)
  | .regex findall => dag.tasks.filter fun t => !(findall t.taskId).isEmpty

/-- The keys of `dag.task_dict`. -/
def subsetTaskIds (dag : Dag) (selection : TaskSelection)
    (includeDownstream includeUpstream includeDirectUpstream : Bool) : List TaskId :=
  dag.subsetIds ((matchedTasks dag selection).map Operator.taskId) includeDownstream includeUpstream
    includeDirectUpstream

/-! ## The groups -/

namespace DAGNode

variable (kept : TaskId → Bool)

mutual

/-- A child in `filter_task_group`: a task that was kept, or a group that is not empty. -/
def filterChild : DAGNode → List DAGNode
  | .task taskId => if kept taskId then [.task taskId] else []
  | .taskGroup group children =>
    let filtered := filterChildren children
    if filtered.isEmpty then [] else [.taskGroup group filtered]

/-- The children of the copy of a group in `filter_task_group`. -/
def filterChildren : List DAGNode → List DAGNode
  | [] => []
  | child :: children => filterChild child ++ filterChildren children

end

/-- The ids of groups, in the order of `build_map`. -/
def groupIdsOf (children : List DAGNode) : List NodeId := (groupsOf children).map (·.1.groupId)

variable (update : TaskGroup → TaskGroup)

/-- A group is a value of the dict unless the id is among those of `later` groups. -/
def updateGroup (group : TaskGroup) (later : List NodeId) : TaskGroup :=
  if group.groupId ∈ later then group else update group

mutual

/-- `for group in subdag_task_groups.values()`, for the groups at a node. -/
def updateGroups : DAGNode → List NodeId → DAGNode
  | .task taskId, _ => .task taskId
  | .taskGroup group children, later =>
    .taskGroup (updateGroup update group (groupIdsOf children ++ later))
      (updateGroupsOf children later)

def updateGroupsOf : List DAGNode → List NodeId → List DAGNode
  | [], _ => []
  | child :: children, later =>
    updateGroups child (groupIdsOf children ++ later) :: updateGroupsOf children later

end

end DAGNode

/-- The four `intersection_update`s of a group. -/
def TaskGroup.intersectionUpdate (group : TaskGroup) (groupIds : List NodeId)
    (kept : TaskId → Bool) : TaskGroup :=
  { group with
    upstreamGroupIds := group.upstreamGroupIds.filter (· ∈ groupIds)
    downstreamGroupIds := group.downstreamGroupIds.filter (· ∈ groupIds)
    upstreamTaskIds := group.upstreamTaskIds.filter kept
    downstreamTaskIds := group.downstreamTaskIds.filter kept }

@[simp] theorem TaskGroup.intersectionUpdate_groupId (group : TaskGroup) (groupIds : List NodeId)
    (kept : TaskId → Bool) : (group.intersectionUpdate groupIds kept).groupId = group.groupId := rfl

/-! ### What the copy has -/

namespace DAGNode

variable {kept : TaskId → Bool}

theorem filterChildren_eq (children : List DAGNode) :
    filterChildren kept children = children.flatMap (filterChild kept) := by
  induction children with
  | nil => rfl
  | cons child children ih => rw [filterChildren, ih, List.flatMap_cons]

theorem filterChild_taskGroup (group : TaskGroup) (children : List DAGNode) :
    filterChild kept (.taskGroup group children) =
      if (filterChildren kept children).isEmpty then []
      else [.taskGroup group (filterChildren kept children)] := by
  rw [filterChild]

theorem taskIdsOf_append (children children' : List DAGNode) :
    taskIdsOf (children ++ children') = taskIdsOf children ++ taskIdsOf children' := by
  simp [taskIdsOf_eq]

mutual

theorem taskIdsOf_filterChild : ∀ node : DAGNode,
    taskIdsOf (filterChild kept node) = node.taskIds.filter kept
  | .task taskId => by by_cases h : kept taskId <;> simp [filterChild, h, taskIdsOf]
  | .taskGroup group children => by
    rw [filterChild_taskGroup, taskIds, ← taskIdsOf_filterChildren children]
    split
    · rename_i hempty
      rw [List.isEmpty_iff.mp hempty]
    · simp [taskIdsOf, taskIds]

/-- **The copy has the kept tasks, in their order.** -/
theorem taskIdsOf_filterChildren : ∀ children : List DAGNode,
    taskIdsOf (filterChildren kept children) = (taskIdsOf children).filter kept
  | [] => rfl
  | child :: children => by
    rw [filterChildren, taskIdsOf_append, taskIdsOf_filterChild child,
      taskIdsOf_filterChildren children, taskIdsOf, List.filter_append]

end

/-- Some task of the children is kept. -/
def hasKept (kept : TaskId → Bool) (children : List DAGNode) : Bool := (taskIdsOf children).any kept

mutual

theorem filterChild_eq_nil : ∀ node : DAGNode,
    filterChild kept node = [] ↔ node.taskIds.any kept = false
  | .task taskId => by by_cases h : kept taskId <;> simp [filterChild, h]
  | .taskGroup group children => by
    rw [filterChild_taskGroup, taskIds, ← hasKept, ← filterChildren_eq_nil children]
    simp only [List.isEmpty_iff, ite_eq_left_iff, List.cons_ne_nil, imp_false, not_not]

/-- A copied group is empty if no task in it is kept. -/
theorem filterChildren_eq_nil : ∀ children : List DAGNode,
    filterChildren kept children = [] ↔ hasKept kept children = false
  | [] => by simp [filterChildren, hasKept, taskIdsOf]
  | child :: children => by
    rw [filterChildren, List.append_eq_nil_iff, filterChild_eq_nil child,
      filterChildren_eq_nil children, hasKept, hasKept, taskIdsOf, List.any_append,
      Bool.or_eq_false_iff]

end

theorem groupsOf_append (children children' : List DAGNode) :
    groupsOf (children ++ children') = groupsOf children ++ groupsOf children' := by
  simp [groupsOf_eq]

mutual

theorem groupsOf_filterChild : ∀ node : DAGNode,
    groupsOf (filterChild kept node) = (node.groups.filter fun g => hasKept kept g.2).map
      fun g => (g.1, filterChildren kept g.2)
  | .task taskId => by by_cases h : kept taskId <;> simp [filterChild, h, groupsOf]
  | .taskGroup group children => by
    have hgroups := groupsOf_filterChildren children
    have hnil := @filterChildren_eq_nil kept children
    rw [filterChild_taskGroup, groups, List.filter_cons]
    cases hkept : hasKept kept children with
    | true =>
      have hne : (filterChildren kept children).isEmpty = false := by simp [hnil, hkept]
      simp [hne, groupsOf, groups, hgroups]
    | false =>
      rw [hnil.mpr hkept] at hgroups ⊢
      simpa using hgroups

/-- **The copy has the groups with a kept task, in their order.** -/
theorem groupsOf_filterChildren : ∀ children : List DAGNode,
    groupsOf (filterChildren kept children) =
      ((groupsOf children).filter fun g => hasKept kept g.2).map
        fun g => (g.1, filterChildren kept g.2)
  | [] => rfl
  | child :: children => by
    rw [filterChildren, groupsOf_append, groupsOf_filterChild child,
      groupsOf_filterChildren children, groupsOf, List.filter_append, List.map_append]

end

end DAGNode

namespace DAGNode

variable {kept : TaskId → Bool}

theorem nodeIds_filterChild (node : DAGNode) :
    ((filterChild kept node).map nodeId).Sublist [node.nodeId] := by
  cases node with
  | task taskId =>
    rw [filterChild]
    split
    · exact .refl _
    · exact List.nil_sublist _
  | taskGroup group children =>
    rw [filterChild_taskGroup]
    split
    · exact List.nil_sublist _
    · exact .refl _

theorem nodeIds_filterChildren (children : List DAGNode) :
    ((filterChildren kept children).map nodeId).Sublist (children.map nodeId) := by
  induction children with
  | nil => exact .refl _
  | cons child children ih =>
    rw [filterChildren, List.map_append]
    exact (nodeIds_filterChild child).append ih

end DAGNode

/-! ### What the updates leave -/

namespace DAGNode

variable {update : TaskGroup → TaskGroup}

mutual

theorem taskIds_updateGroups : ∀ (node : DAGNode) (later : List NodeId),
    (updateGroups update node later).taskIds = node.taskIds
  | .task _, _ => rfl
  | .taskGroup _ children, later => by
    rw [updateGroups, taskIds, taskIds, taskIdsOf_updateGroupsOf children]

theorem taskIdsOf_updateGroupsOf : ∀ (children : List DAGNode) (later : List NodeId),
    taskIdsOf (updateGroupsOf update children later) = taskIdsOf children
  | [], _ => rfl
  | child :: children, later => by
    rw [updateGroupsOf, taskIdsOf, taskIdsOf, taskIds_updateGroups child,
      taskIdsOf_updateGroupsOf children]

end

/-- The updates of the groups of a list, of which those with one id only have the last updated. -/
def updateLast (update : TaskGroup → TaskGroup) : List TaskGroup → List NodeId → List TaskGroup
  | [], _ => []
  | group :: groups, later =>
    updateGroup update group (groups.map (·.groupId) ++ later) :: updateLast update groups later

theorem updateLast_append (groups groups' : List TaskGroup) (later : List NodeId) :
    updateLast update (groups ++ groups') later =
      updateLast update groups (groups'.map (·.groupId) ++ later) ++
        updateLast update groups' later := by
  induction groups with
  | nil => rfl
  | cons group groups ih =>
    rw [List.cons_append, updateLast, ih, updateLast, List.map_append, List.append_assoc]
    rfl

theorem groupIdsOf_eq (children : List DAGNode) :
    groupIdsOf children = ((groupsOf children).map (·.1)).map (·.groupId) := by
  rw [groupIdsOf, List.map_map]
  rfl

mutual

theorem groups_updateGroups : ∀ (node : DAGNode) (later : List NodeId),
    ((updateGroups update node later).groups).map (·.1) =
      updateLast update (node.groups.map (·.1)) later
  | .task _, _ => rfl
  | .taskGroup group children, later => by
    rw [updateGroups, groups, groups, List.map_cons, List.map_cons, updateLast,
      groupsOf_updateGroupsOf children, groupIdsOf_eq]

theorem groupsOf_updateGroupsOf : ∀ (children : List DAGNode) (later : List NodeId),
    (groupsOf (updateGroupsOf update children later)).map (·.1) =
      updateLast update ((groupsOf children).map (·.1)) later
  | [], _ => rfl
  | child :: children, later => by
    rw [updateGroupsOf, groupsOf, groupsOf, List.map_append, List.map_append, updateLast_append,
      groups_updateGroups child, groupsOf_updateGroupsOf children, groupIdsOf_eq]

end

theorem updateGroup_groupId (h : ∀ group, (update group).groupId = group.groupId)
    (group : TaskGroup) (later : List NodeId) :
    (updateGroup update group later).groupId = group.groupId := by
  rw [updateGroup]
  split
  · rfl
  · exact h group

theorem updateLast_groupId (h : ∀ group, (update group).groupId = group.groupId)
    (groups : List TaskGroup) (later : List NodeId) :
    (updateLast update groups later).map (·.groupId) = groups.map (·.groupId) := by
  induction groups with
  | nil => rfl
  | cons group groups ih =>
    rw [updateLast, List.map_cons, List.map_cons, ih, updateGroup_groupId h]

theorem nodeIds_updateGroupsOf (h : ∀ group, (update group).groupId = group.groupId)
    (children : List DAGNode) (later : List NodeId) :
    (updateGroupsOf update children later).map nodeId = children.map nodeId := by
  induction children with
  | nil => rfl
  | cons child children ih =>
    rw [updateGroupsOf, List.map_cons, List.map_cons, ih]
    cases child with
    | task taskId => rfl
    | taskGroup group children => rw [updateGroups, nodeId, nodeId, updateGroup_groupId h]

section

variable {β : Type} {f : List DAGNode → β}

mutual

theorem map_children_updateGroups (h : ∀ children later, f (updateGroupsOf update children later) =
    f children) : ∀ (node : DAGNode) (later : List NodeId),
    (updateGroups update node later).groups.map (fun g => f g.2) = node.groups.map fun g => f g.2
  | .task _, _ => rfl
  | .taskGroup group children, later => by
    rw [updateGroups, groups, groups, List.map_cons, List.map_cons,
      map_children_updateGroupsOf h children, h]

/-- What updates leave of the children of one group they leave of those of all groups. -/
theorem map_children_updateGroupsOf (h : ∀ children later,
    f (updateGroupsOf update children later) = f children) :
    ∀ (children : List DAGNode) (later : List NodeId),
    (groupsOf (updateGroupsOf update children later)).map (fun g => f g.2) =
      (groupsOf children).map fun g => f g.2
  | [], _ => rfl
  | child :: children, later => by
    rw [updateGroupsOf, groupsOf, groupsOf, List.map_append, List.map_append,
      map_children_updateGroups h child, map_children_updateGroupsOf h children]

end

end

end DAGNode

namespace GroupedDag

open DAGNode

/-- The groups that `get_task_group_dict` of the copy has the ids of. -/
def keptGroupIds (dag : GroupedDag) (kept : TaskId → Bool) : List NodeId :=
  dag.taskGroup.groupId :: groupIdsOf (filterChildren kept dag.children)

/-- `partial_subset` once the tasks that make the cut are known. -/
def keep (dag : GroupedDag) (kept : TaskId → Bool) : GroupedDag where
  toDag := dag.toDag.keep kept
  taskGroup := updateGroup (·.intersectionUpdate (dag.keptGroupIds kept) kept) dag.taskGroup
    (groupIdsOf (filterChildren kept dag.children))
  children := updateGroupsOf (·.intersectionUpdate (dag.keptGroupIds kept) kept)
    (filterChildren kept dag.children) []
  usedGroupIds := dag.usedGroupIds.filter fun id =>
    !(((taskIdsOf dag.children).filter (!kept ·)).map some).contains id
  tree_taskIds := by
    rw [taskIdsOf_updateGroupsOf, taskIdsOf_filterChildren]
    have htasks : (dag.toDag.keep kept).tasks.map Operator.taskId =
        (dag.tasks.map Operator.taskId).filter kept := by
      rw [Dag.keep, Dag.map_taskId_restrict, List.filter_map]
      rfl
    rw [htasks]
    exact dag.tree_taskIds.filter kept
  mirror := by
    intro a ha b hb
    obtain ⟨a', ha', rfl⟩ := List.mem_map.mp ha
    obtain ⟨b', hb', rfl⟩ := List.mem_map.mp hb
    obtain ⟨ha', hka⟩ := List.mem_filter.mp ha'
    obtain ⟨hb', hkb⟩ := List.mem_filter.mp hb'
    have hmirror := dag.mirror a' ha' b' hb'
    simp only [Operator.restrict, List.mem_filter, hka, hkb, and_true]
    exact hmirror
  groupId_root := by
    rw [updateGroup_groupId fun _ => TaskGroup.intersectionUpdate_groupId ..]
    exact dag.groupId_root
  groupId_isSome := by
    intro g hg
    have hmem := List.mem_map_of_mem (f := fun g : TaskGroup × List DAGNode => g.1) hg
    rw [groupsOf_updateGroupsOf] at hmem
    have hid := List.mem_map_of_mem (f := TaskGroup.groupId) hmem
    rw [updateLast_groupId fun _ => TaskGroup.intersectionUpdate_groupId ..,
      groupsOf_filterChildren] at hid
    simp only [List.map_map, List.mem_map, List.mem_filter] at hid
    obtain ⟨g', ⟨hg', -⟩, hid⟩ := hid
    rw [← hid]
    exact dag.groupId_isSome g' hg'
  children_nodup := by
    intro g hg
    have hnodeIds := @nodeIds_updateGroupsOf (·.intersectionUpdate (dag.keptGroupIds kept) kept)
      fun _ => TaskGroup.intersectionUpdate_groupId ..
    have hmem := List.mem_map_of_mem
      (f := fun g : TaskGroup × List DAGNode => g.2.map nodeId) hg
    rw [List.map_cons, hnodeIds, map_children_updateGroupsOf hnodeIds, groupsOf_filterChildren,
      List.map_map] at hmem
    rcases List.mem_cons.mp hmem with heq | hmem
    · rw [heq]
      exact (dag.children_nodup _ List.mem_cons_self).sublist (nodeIds_filterChildren _)
    · obtain ⟨g', hg', heq⟩ := List.mem_map.mp hmem
      rw [← heq]
      exact (dag.children_nodup g' (List.mem_cons_of_mem _ (List.mem_filter.mp hg').1)).sublist
        (nodeIds_filterChildren _)

/-- `DAG.partial_subset`. -/
def partialSubset (dag : GroupedDag) (selection : TaskSelection)
    (includeDownstream includeUpstream includeDirectUpstream : Bool) : GroupedDag :=
  dag.keep (subsetTaskIds dag.toDag selection includeDownstream includeUpstream
    includeDirectUpstream).contains

end GroupedDag

end Airflow.Grouping
