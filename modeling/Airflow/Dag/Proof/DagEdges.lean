import Airflow.Dag.DagEdges
import Airflow.Dag.Proof.Relatives
import Airflow.Lib.Quota

/-!
# The rendered graph has the reachability of the DAG, where the groups allow it

Every skipped edge is replaced by a path through joins, so that no edge of the DAG is lost. The
joins say more than the DAG does if a group changed after a relation of it was set: `JoinsSound`
says when they do not.
-/

namespace Airflow.Grouping

open GroupedDag

/-! ## Lists of results -/

section

variable {α β : Type} {f : α → Option β} {l : List α}

theorem mapM_isSome : (l.mapM f).isSome = true ↔ ∀ a ∈ l, (f a).isSome = true := by
  induction l with
  | nil => simp
  | cons a l ih =>
    rw [List.forall_mem_cons, ← ih, List.mapM_cons]
    cases f a <;> cases l.mapM f <;> simp

theorem mapM_eq_map {g : α → β} (h : ∀ a ∈ l, f a = some (g a)) : l.mapM f = some (l.map g) := by
  induction l with
  | nil => rfl
  | cons a l ih =>
    obtain ⟨ha, hl⟩ := List.forall_mem_cons.mp h
    rw [List.mapM_cons, ha, ih hl]
    rfl

end

/-! ## Leaves are found -/

section

variable {dag : GroupedDag}

theorem edge_iff {upstream : Bool} {a b : Operator} (ha : a ∈ dag.tasks) :
    dag.Edge upstream a.taskId b.taskId ↔ b.taskId ∈ a.directRelativeIds upstream := by
  rw [Dag.Edge, Closure.Step, Dag.relativesOf_taskId ha]

theorem edge_mirror {a b : TaskId} : dag.Edge true a b ↔ dag.Edge false b a := by
  have hiff : a ∈ dag.taskIds → b ∈ dag.taskIds → (dag.Edge true a b ↔ dag.Edge false b a) := by
    intro ha hb
    obtain ⟨ta, hta, rfl⟩ := List.mem_map.mp ha
    obtain ⟨tb, htb, rfl⟩ := List.mem_map.mp hb
    rw [edge_iff hta, edge_iff htb]
    exact (dag.mirror tb htb ta hta).symm
  refine ⟨fun h => ?_, fun h => ?_⟩
  · exact (hiff (Dag.mem_taskIds_of_edge h).1 (Dag.mem_taskIds_of_edge h).2).mp h
  · exact (hiff (Dag.mem_taskIds_of_edge h).2 (Dag.mem_taskIds_of_edge h).1).mpr h

theorem transGen_mirror {a b : TaskId} :
    Relation.TransGen (dag.Edge true) a b ↔ Relation.TransGen (dag.Edge false) b a := by
  have hswap : dag.Edge true = Function.swap (dag.Edge false) := by
    funext a b
    exact propext edge_mirror
  rw [hswap]
  exact Relation.transGen_swap

/-- How many tasks are upstream of a task. -/
def upstreamCount (dag : GroupedDag) (task : Operator) : Nat :=
  dag.taskIds.countP fun id => id ∈ dag.flatRelativeIds task true

theorem upstreamCount_le (task : Operator) : upstreamCount dag task ≤ dag.tasks.length := by
  have hlength : dag.taskIds.length = dag.tasks.length := List.length_map _
  rw [← hlength]
  exact List.countP_le_length

theorem upstreamCount_lt (hacyclic : dag.Acyclic) {task up : Operator} (htask : task ∈ dag.tasks)
    (hup : up ∈ dag.upstreamList task) : upstreamCount dag up < upstreamCount dag task := by
  obtain ⟨hmem, hid⟩ := List.mem_filter.mp hup
  have hedge : dag.Edge true task.taskId up.taskId := by
    rw [edge_iff htask]
    exact of_decide_eq_true hid
  refine Quota.countP_lt (fun id _ hflat => ?_) (List.mem_map_of_mem hmem) ?_ ?_
  · rw [decide_eq_true_iff, Dag.mem_flatRelativeIds hmem] at hflat
    rw [decide_eq_true_iff, Dag.mem_flatRelativeIds htask]
    exact .head hedge hflat
  · rw [decide_eq_false_iff_not, Dag.mem_flatRelativeIds hmem]
    exact fun hself => hacyclic _ (transGen_mirror.mp hself)
  · rw [decide_eq_true_iff, Dag.mem_flatRelativeIds htask]
    exact .single hedge

theorem recurseForFirstNonTeardown_isSome (hacyclic : dag.Acyclic) (ids : List TaskId) {fuel : Nat}
    {task : Operator} (htask : task ∈ dag.tasks) (hfuel : upstreamCount dag task < fuel) :
    (dag.recurseForFirstNonTeardown ids fuel task).isSome = true := by
  induction fuel generalizing task with
  | zero => exact absurd hfuel (Nat.not_lt_zero _)
  | succ fuel ih =>
    rw [recurseForFirstNonTeardown, Option.isSome_map, mapM_isSome]
    intro up hup
    have hlt := upstreamCount_lt hacyclic htask hup
    have hrec := ih (List.mem_filter.mp hup).1 (by omega)
    split
    · rfl
    · split
      · exact hrec
      · split
        · rfl
        · split <;> rfl

/-- **The leaves of a group are found in a DAG without cycles.** -/
theorem getLeaves_isSome (hacyclic : dag.Acyclic) (children : List DAGNode) :
    (dag.getLeaves children).isSome = true := by
  rw [getLeaves, Option.isSome_map, mapM_isSome]
  intro task htask
  obtain ⟨id, -, hget⟩ := List.mem_filterMap.mp htask
  have hmem : task ∈ dag.tasks := List.mem_of_find?_eq_some hget
  have hle := @upstreamCount_le dag task
  rw [leavesOfTask]
  split
  · split
    · rfl
    · exact recurseForFirstNonTeardown_isSome hacyclic _ hmem (by omega)
  · rfl

end

/-! ## What is collected -/

section

variable (dag : GroupedDag)

/-- The leaves of a group of the DAG. -/
def leavesOf (children : List DAGNode) : List TaskId := (dag.getLeaves children).getD []

/-- The roots of the group that `task_group_map` has under an id. -/
def targetRoots (id : NodeId) : List TaskId := ((dag.taskGroupMap id).map dag.getRoots).getD []

/-- `edges_to_add`, by the groups they come from. -/
inductive Added : GraphNode → GraphNode → Prop where
  | joins {g j} : g ∈ dag.groups → j ∈ g.1.downstreamGroupIds →
      Added (.downstreamJoin g.1.groupId) (.upstreamJoin j)
  | leaf {g u} : g ∈ dag.groups → g.1.downstreamGroupIds ≠ [] ∨ g.1.downstreamTaskIds ≠ [] →
      u ∈ leavesOf dag g.2 → Added (.task u) (.downstreamJoin g.1.groupId)
  | targetRoot {g j v} : g ∈ dag.groups → j ∈ g.1.downstreamGroupIds → v ∈ targetRoots dag j →
      Added (.upstreamJoin j) (.task v)
  | downstreamTask {g t} : g ∈ dag.groups → t ∈ g.1.downstreamTaskIds →
      Added (.downstreamJoin g.1.groupId) (.task t)
  | upstreamTask {g s} : g ∈ dag.groups → s ∈ g.1.upstreamTaskIds →
      Added (.task s) (.upstreamJoin g.1.groupId)
  | root {g v} : g ∈ dag.groups → g.1.upstreamTaskIds ≠ [] → v ∈ dag.getRoots g.2 →
      Added (.upstreamJoin g.1.groupId) (.task v)

/-- `edges_to_skip`, by the groups they come from. -/
inductive Skipped : GraphNode → GraphNode → Prop where
  | leafRoot {g j u v} : g ∈ dag.groups → j ∈ g.1.downstreamGroupIds → u ∈ leavesOf dag g.2 →
      v ∈ targetRoots dag j → Skipped (.task u) (.task v)
  | leafJoin {g j u} : g ∈ dag.groups → j ∈ g.1.downstreamGroupIds → u ∈ leavesOf dag g.2 →
      Skipped (.task u) (.upstreamJoin j)
  | joinRoot {g j v} : g ∈ dag.groups → j ∈ g.1.downstreamGroupIds → v ∈ targetRoots dag j →
      Skipped (.downstreamJoin g.1.groupId) (.task v)
  | leafTask {g t u} : g ∈ dag.groups → t ∈ g.1.downstreamTaskIds → u ∈ leavesOf dag g.2 →
      Skipped (.task u) (.task t)
  | taskRoot {g s v} : g ∈ dag.groups → s ∈ g.1.upstreamTaskIds → v ∈ dag.getRoots g.2 →
      Skipped (.task s) (.task v)

/-- All ids of groups downstream of a group are of groups. -/
def TargetsFound : Prop :=
  ∀ g ∈ dag.groups, ∀ j ∈ g.1.downstreamGroupIds, (dag.taskGroupMap j).isSome = true

/-- What `collect_edges` collects at a group whose targets are found. -/
def groupEdges (g : TaskGroup × List DAGNode) : List CollectedEdges :=
  g.1.downstreamGroupIds.map (fun j =>
      collectDownstreamGroup g.1.groupId j (leavesOf dag g.2) (targetRoots dag j)) ++
    g.1.downstreamTaskIds.map (fun t =>
      collectDownstreamTask g.1.groupId t (leavesOf dag g.2)) ++
    g.1.upstreamTaskIds.map fun s => collectUpstreamTask g.1.groupId s (dag.getRoots g.2)

end

section

variable {dag : GroupedDag}

theorem foldl_union (cs : List CollectedEdges) (c : CollectedEdges) :
    (cs.foldl CollectedEdges.union c).edgesToAdd =
        c.edgesToAdd ++ cs.flatMap (·.edgesToAdd) ∧
      (cs.foldl CollectedEdges.union c).edgesToSkip =
        c.edgesToSkip ++ cs.flatMap (·.edgesToSkip) := by
  induction cs generalizing c with
  | nil => simp
  | cons c' cs ih =>
    rw [List.foldl_cons, (ih _).1, (ih _).2]
    simp [CollectedEdges.union]

theorem getLeaves_eq (hacyclic : dag.Acyclic) (children : List DAGNode) :
    dag.getLeaves children = some (leavesOf dag children) := by
  obtain ⟨leaves, hleaves⟩ := Option.isSome_iff_exists.mp (getLeaves_isSome hacyclic children)
  rw [leavesOf, hleaves]
  rfl

theorem collectGroup_eq (hacyclic : dag.Acyclic) (g : TaskGroup × List DAGNode)
    (hfound : ∀ j ∈ g.1.downstreamGroupIds, (dag.taskGroupMap j).isSome = true) :
    dag.collectGroup g = some ((groupEdges dag g).foldl CollectedEdges.union {}) := by
  have htargets : g.1.downstreamGroupIds.mapM
      (dag.collectTarget g.1.groupId (leavesOf dag g.2)) =
      some (g.1.downstreamGroupIds.map fun j =>
        collectDownstreamGroup g.1.groupId j (leavesOf dag g.2) (targetRoots dag j)) := by
    refine mapM_eq_map fun j hj => ?_
    obtain ⟨target, htarget⟩ := Option.isSome_iff_exists.mp (hfound j hj)
    rw [collectTarget, targetRoots, htarget]
    rfl
  rw [collectGroup, getLeaves_eq hacyclic, Option.bind_some, htargets]
  rfl

theorem targetsFound_of_collectEdges (h : dag.collectEdges.isSome = true) : TargetsFound dag := by
  rw [collectEdges, Option.isSome_map, mapM_isSome] at h
  intro g hg
  have hgroup := h g hg
  rw [collectGroup] at hgroup
  cases hleaves : dag.getLeaves g.2 with
  | none =>
    rw [hleaves] at hgroup
    cases hgroup
  | some leaves =>
    rw [hleaves, Option.bind_some, Option.isSome_map, mapM_isSome] at hgroup
    intro j hj
    have htarget := hgroup j hj
    rwa [collectTarget, Option.isSome_map] at htarget

theorem mem_edgesToAdd {a b : GraphNode} :
    (a, b) ∈ (dag.groups.flatMap (groupEdges dag)).flatMap (·.edgesToAdd) ↔ Added dag a b := by
  simp only [List.mem_flatMap, groupEdges, List.mem_append, List.mem_map]
  constructor
  · rintro ⟨c, ⟨g, hg, (⟨j, hj, rfl⟩ | ⟨t, ht, rfl⟩) | ⟨s, hs, rfl⟩⟩, hmem⟩
    · simp only [collectDownstreamGroup, List.cons_append, List.mem_cons, List.mem_append,
        List.mem_map, Prod.mk.injEq] at hmem
      obtain ⟨rfl, rfl⟩ | ⟨u, hu, rfl, rfl⟩ | ⟨v, hv, rfl, rfl⟩ := hmem
      · exact .joins hg hj
      · exact .leaf hg (.inl (List.ne_nil_of_mem hj)) hu
      · exact .targetRoot hg hj hv
    · simp only [collectDownstreamTask, List.mem_cons, List.mem_map, Prod.mk.injEq] at hmem
      obtain ⟨rfl, rfl⟩ | ⟨u, hu, rfl, rfl⟩ := hmem
      · exact .downstreamTask hg ht
      · exact .leaf hg (.inr (List.ne_nil_of_mem ht)) hu
    · simp only [collectUpstreamTask, List.mem_cons, List.mem_map, Prod.mk.injEq] at hmem
      obtain ⟨rfl, rfl⟩ | ⟨v, hv, rfl, rfl⟩ := hmem
      · exact .upstreamTask hg hs
      · exact .root hg (List.ne_nil_of_mem hs) hv
  · intro h
    cases h with
    | @joins g j hg hj =>
      exact ⟨_, ⟨g, hg, .inl (.inl ⟨j, hj, rfl⟩)⟩, by simp [collectDownstreamGroup]⟩
    | @leaf g u hg hne hu =>
      rcases hne with hne | hne
      · obtain ⟨j, hj⟩ := List.exists_mem_of_ne_nil _ hne
        exact ⟨_, ⟨g, hg, .inl (.inl ⟨j, hj, rfl⟩)⟩, by simp [collectDownstreamGroup, hu]⟩
      · obtain ⟨t, ht⟩ := List.exists_mem_of_ne_nil _ hne
        exact ⟨_, ⟨g, hg, .inl (.inr ⟨t, ht, rfl⟩)⟩, by simp [collectDownstreamTask, hu]⟩
    | @targetRoot g j v hg hj hv =>
      exact ⟨_, ⟨g, hg, .inl (.inl ⟨j, hj, rfl⟩)⟩, by simp [collectDownstreamGroup, hv]⟩
    | @downstreamTask g t hg ht =>
      exact ⟨_, ⟨g, hg, .inl (.inr ⟨t, ht, rfl⟩)⟩, by simp [collectDownstreamTask]⟩
    | @upstreamTask g s hg hs =>
      exact ⟨_, ⟨g, hg, .inr ⟨s, hs, rfl⟩⟩, by simp [collectUpstreamTask]⟩
    | @root g v hg hne hv =>
      obtain ⟨s, hs⟩ := List.exists_mem_of_ne_nil _ hne
      exact ⟨_, ⟨g, hg, .inr ⟨s, hs, rfl⟩⟩, by simp [collectUpstreamTask, hv]⟩

theorem mem_edgesToSkip {a b : GraphNode} :
    (a, b) ∈ (dag.groups.flatMap (groupEdges dag)).flatMap (·.edgesToSkip) ↔ Skipped dag a b := by
  simp only [List.mem_flatMap, groupEdges, List.mem_append, List.mem_map]
  constructor
  · rintro ⟨c, ⟨g, hg, (⟨j, hj, rfl⟩ | ⟨t, ht, rfl⟩) | ⟨s, hs, rfl⟩⟩, hmem⟩
    · simp only [collectDownstreamGroup, List.mem_append, List.mem_flatMap, List.mem_map,
        Prod.mk.injEq] at hmem
      obtain (⟨u, hu, v, hv, rfl, rfl⟩ | ⟨u, hu, rfl, rfl⟩) | ⟨v, hv, rfl, rfl⟩ := hmem
      · exact .leafRoot hg hj hu hv
      · exact .leafJoin hg hj hu
      · exact .joinRoot hg hj hv
    · simp only [collectDownstreamTask, List.mem_map, Prod.mk.injEq] at hmem
      obtain ⟨u, hu, rfl, rfl⟩ := hmem
      exact .leafTask hg ht hu
    · simp only [collectUpstreamTask, List.mem_map, Prod.mk.injEq] at hmem
      obtain ⟨v, hv, rfl, rfl⟩ := hmem
      exact .taskRoot hg hs hv
  · intro h
    cases h with
    | @leafRoot g j u v hg hj hu hv =>
      exact ⟨_, ⟨g, hg, .inl (.inl ⟨j, hj, rfl⟩)⟩, by simp [collectDownstreamGroup, hu, hv]⟩
    | @leafJoin g j u hg hj hu =>
      exact ⟨_, ⟨g, hg, .inl (.inl ⟨j, hj, rfl⟩)⟩, by simp [collectDownstreamGroup, hu]⟩
    | @joinRoot g j v hg hj hv =>
      exact ⟨_, ⟨g, hg, .inl (.inl ⟨j, hj, rfl⟩)⟩, by simp [collectDownstreamGroup, hv]⟩
    | @leafTask g t u hg ht hu =>
      exact ⟨_, ⟨g, hg, .inl (.inr ⟨t, ht, rfl⟩)⟩, by simp [collectDownstreamTask, hu]⟩
    | @taskRoot g s v hg hs hv =>
      exact ⟨_, ⟨g, hg, .inr ⟨s, hs, rfl⟩⟩, by simp [collectUpstreamTask, hv]⟩

theorem collectEdges_spec (hacyclic : dag.Acyclic) (hfound : TargetsFound dag) :
    ∃ collected, dag.collectEdges = some collected ∧
      (∀ a b, (a, b) ∈ collected.edgesToAdd ↔ Added dag a b) ∧
      ∀ a b, (a, b) ∈ collected.edgesToSkip ↔ Skipped dag a b := by
  have hgroups : dag.groups.mapM dag.collectGroup =
      some (dag.groups.map fun g => (groupEdges dag g).foldl CollectedEdges.union {}) :=
    mapM_eq_map fun g hg => collectGroup_eq hacyclic g (hfound g hg)
  rw [collectEdges, hgroups]
  refine ⟨_, rfl, fun a b => ?_, fun a b => ?_⟩
  · rw [(foldl_union _ _).1, ← mem_edgesToAdd, List.flatMap_map, List.flatMap_assoc]
    simp only [foldl_union, List.nil_append]
  · rw [(foldl_union _ _).2, ← mem_edgesToSkip, List.flatMap_map, List.flatMap_assoc]
    simp only [foldl_union, List.nil_append]

end

/-! ## All edges between tasks are traced -/

section

variable (dag : GroupedDag)

/-- The edges out of the task of this id. -/
def outEdges (id : TaskId) : List (TaskId × TaskId) :=
  ((dag.getTask id).map fun task =>
    (dag.downstreamList task).map fun child => (id, child.taskId)).getD []

/-- The edges out of the end of an edge. -/
def nextEdges (edge : TaskId × TaskId) : List (TaskId × TaskId) := outEdges dag edge.2

/-- The edges that a trace looks at next. -/
def frontier (s : Trace) : List (TaskId × TaskId) :=
  (s.tasksToTrace.map Operator.taskId).flatMap (outEdges dag)

/-- One turn of the loop. -/
def traceLevel (s : Trace) : Trace :=
  s.tasksToTrace.foldl
    (fun s task => (dag.downstreamList task).foldl (fun s child => s.child task child) s)
    { s with tasksToTrace := [] }

end

section

variable {dag : GroupedDag} {s : Trace} {e : TaskId × TaskId}

theorem outEdges_taskId {task : Operator} (h : task ∈ dag.tasks) :
    outEdges dag task.taskId =
      (dag.downstreamList task).map fun child => (task.taskId, child.taskId) := by
  rw [outEdges, Dag.getTask_self h]
  rfl

theorem mem_outEdges {id : TaskId} : e ∈ outEdges dag id ↔ e.1 = id ∧ dag.Edge false e.1 e.2 := by
  by_cases hid : id ∈ dag.taskIds
  · obtain ⟨task, htask, rfl⟩ := List.mem_map.mp hid
    rw [outEdges_taskId htask, List.mem_map]
    constructor
    · rintro ⟨child, hchild, rfl⟩
      exact ⟨rfl, (edge_iff htask).mpr (of_decide_eq_true (List.mem_filter.mp hchild).2)⟩
    · rintro ⟨hsource, hedge⟩
      rw [hsource] at hedge
      obtain ⟨child, hchild, htarget⟩ := List.mem_map.mp (Dag.mem_taskIds_of_edge hedge).2
      rw [← htarget, edge_iff htask] at hedge
      refine ⟨child, List.mem_filter.mpr ⟨hchild, decide_eq_true hedge⟩, ?_⟩
      rw [← hsource, htarget]
  · have hnone : outEdges dag id = [] := by
      rw [outEdges, Option.map_eq_none_iff.mpr]
      · rfl
      · rw [Dag.getTask, List.find?_eq_none]
        intro task htask heq
        exact hid (List.mem_map.mpr ⟨task, htask, of_decide_eq_true heq⟩)
    rw [hnone]
    constructor
    · intro h
      cases h
    · rintro ⟨hsource, hedge⟩
      exact absurd (hsource ▸ (Dag.mem_taskIds_of_edge hedge).1) hid

/-- The pairs of tasks that one turn goes through. -/
def tracedPairs (dag : GroupedDag) (tasks : List Operator) : List (Operator × Operator) :=
  tasks.flatMap fun task => (dag.downstreamList task).map (task, ·)

theorem traceLevel_eq : traceLevel dag s = (tracedPairs dag s.tasksToTrace).foldl
    (fun s pair => s.child pair.1 pair.2) { s with tasksToTrace := [] } := by
  rw [tracedPairs, List.foldl_flatMap, traceLevel]
  simp only [List.foldl_map]

/-- What turning from `s` to `s'` over these pairs adds. -/
structure Traces (pairs : List (Operator × Operator)) (s s' : Trace) : Prop where
  nodup : s.edges.Nodup → s'.edges.Nodup
  mem_edges : ∀ e, e ∈ s'.edges ↔
    e ∈ s.edges ∨ ∃ pair ∈ pairs, (pair.1.taskId, pair.2.taskId) = e
  mem_ids : ∀ id, id ∈ s'.tasksToTrace.map Operator.taskId ↔
    id ∈ s.tasksToTrace.map Operator.taskId ∨
      ∃ pair ∈ pairs, (pair.1.taskId, pair.2.taskId) ∉ s.edges ∧ pair.2.taskId = id
  mem_tasks : ∀ task ∈ s'.tasksToTrace, task ∈ s.tasksToTrace ∨ ∃ pair ∈ pairs, pair.2 = task

theorem traces_foldl (pairs : List (Operator × Operator)) (s : Trace) :
    Traces pairs s (pairs.foldl (fun s pair => s.child pair.1 pair.2) s) := by
  induction pairs generalizing s with
  | nil => exact ⟨id, by simp, by simp, by simp⟩
  | cons pair pairs ih =>
    obtain ⟨hnodup, hedges, hids, htasks⟩ := ih (s.child pair.1 pair.2)
    rw [List.foldl_cons]
    by_cases hmem : (pair.1.taskId, pair.2.taskId) ∈ s.edges
    · have hchild : (s.child pair.1 pair.2).edges = s.edges ∧
          (s.child pair.1 pair.2).tasksToTrace = s.tasksToTrace := by
        simp [Trace.child, hmem]
      rw [hchild.1] at hnodup hedges hids
      rw [hchild.2] at hids htasks
      exact ⟨hnodup, by grind, by grind, by grind⟩
    · have hchild : (s.child pair.1 pair.2).edges =
            s.edges ++ [(pair.1.taskId, pair.2.taskId)] ∧
          (s.child pair.1 pair.2).tasksToTrace = s.tasksToTrace ++ [pair.2] := by
        simp [Trace.child, hmem]
      rw [hchild.1] at hnodup hedges hids
      rw [hchild.2] at hids htasks
      refine ⟨fun h => hnodup ?_, by grind, by grind, by grind⟩
      exact List.nodup_append.mpr ⟨h, by simp, by grind⟩

theorem mem_frontier (htasks : ∀ task ∈ s.tasksToTrace, task ∈ dag.tasks) :
    e ∈ frontier dag s ↔ ∃ pair ∈ tracedPairs dag s.tasksToTrace,
      (pair.1.taskId, pair.2.taskId) = e := by
  rw [frontier, List.flatMap_map, tracedPairs]
  simp only [List.mem_flatMap, List.mem_map]
  constructor
  · rintro ⟨task, htask, he⟩
    rw [outEdges_taskId (htasks task htask), List.mem_map] at he
    obtain ⟨child, hchild, rfl⟩ := he
    exact ⟨(task, child), ⟨task, htask, child, hchild, rfl⟩, rfl⟩
  · rintro ⟨pair, ⟨task, htask, child, hchild, rfl⟩, rfl⟩
    refine ⟨task, htask, ?_⟩
    rw [outEdges_taskId (htasks task htask), List.mem_map]
    exact ⟨child, hchild, rfl⟩

/-- **A turn of the loop is a level of the walk along edges.** -/
theorem level_trace (htasks : ∀ task ∈ s.tasksToTrace, task ∈ dag.tasks) :
    Closure.Level (nextEdges dag) s.edges (frontier dag s) (traceLevel dag s).edges
      (frontier dag (traceLevel dag s)) := by
  have htraces := traces_foldl (tracedPairs dag s.tasksToTrace) { s with tasksToTrace := [] }
  rw [← traceLevel_eq] at htraces
  refine ⟨htraces.nodup, fun e => ?_, fun e => ?_⟩
  · rw [htraces.mem_edges, mem_frontier htasks]
  · rw [frontier, List.mem_flatMap]
    simp only [htraces.mem_ids, mem_frontier htasks, nextEdges, List.map_nil, List.not_mem_nil,
      false_or]
    constructor
    · rintro ⟨_, ⟨pair, hpair, hnew, rfl⟩, he⟩
      exact ⟨_, ⟨pair, hpair, rfl⟩, hnew, he⟩
    · rintro ⟨_, ⟨pair, hpair, rfl⟩, hnew, he⟩
      exact ⟨_, ⟨pair, hpair, hnew, rfl⟩, he⟩

theorem traceLevel_tasks (task : Operator) (h : task ∈ (traceLevel dag s).tasksToTrace) :
    task ∈ dag.tasks := by
  have htraces := traces_foldl (tracedPairs dag s.tasksToTrace) { s with tasksToTrace := [] }
  rw [← traceLevel_eq] at htraces
  obtain ⟨pair, hpair, rfl⟩ := (htraces.mem_tasks task h).resolve_left List.not_mem_nil
  obtain ⟨task, -, hpair⟩ := List.mem_flatMap.mp hpair
  obtain ⟨child, hchild, rfl⟩ := List.mem_map.mp hpair
  exact (List.mem_filter.mp hchild).1

/-- A turn that finds no new edge is the last. -/
theorem traceLevel_last (htasks : ∀ task ∈ s.tasksToTrace, task ∈ dag.tasks)
    (h : ∀ e ∈ frontier dag s, e ∈ s.edges) : (traceLevel dag s).tasksToTrace = [] := by
  have htraces := traces_foldl (tracedPairs dag s.tasksToTrace) { s with tasksToTrace := [] }
  rw [← traceLevel_eq] at htraces
  refine List.eq_nil_iff_forall_not_mem.mpr fun task htask => ?_
  obtain ⟨pair, hpair, hnew, -⟩ :=
    ((htraces.mem_ids _).mp (List.mem_map_of_mem htask)).resolve_left List.not_mem_nil
  exact hnew (h _ ((mem_frontier htasks).mpr ⟨pair, hpair, rfl⟩))

theorem mem_taskEdges : e ∈ dag.taskEdges ↔ dag.Edge false e.1 e.2 := by
  rw [taskEdges, List.mem_flatMap]
  constructor
  · rintro ⟨task, htask, he⟩
    rw [← outEdges_taskId htask] at he
    exact (mem_outEdges.mp he).2
  · intro hedge
    obtain ⟨task, htask, hid⟩ := List.mem_map.mp (Dag.mem_taskIds_of_edge hedge).1
    refine ⟨task, htask, ?_⟩
    rw [← outEdges_taskId htask]
    exact mem_outEdges.mpr ⟨hid.symm, hedge⟩

theorem outEdges_sub (id : TaskId) : outEdges dag id ⊆ dag.taskEdges :=
  fun _ he => mem_taskEdges.mpr (mem_outEdges.mp he).2

/-- **The loop ends with the edges that its frontier reaches**, given a turn for each edge and one
more. -/
theorem traceEdges_ends {fuel : Nat} (htasks : ∀ task ∈ s.tasksToTrace, task ∈ dag.tasks)
    (h : Closure.Inv (nextEdges dag) dag.taskEdges s.edges (frontier dag s))
    (hfuel : dag.taskEdges.length < fuel + s.edges.length) :
    ∃ r, dag.traceEdges fuel s = some r ∧ ∀ e, e ∈ r.edges ↔
      e ∈ s.edges ∨ ∃ a ∈ frontier dag s, Closure.Reaches (nextEdges dag) a e := by
  induction fuel generalizing s with
  | zero =>
    have := List.Nodup.length_le_of_subset h.nodup h.found_sub
    omega
  | succ fuel ih =>
    have hlevel := level_trace htasks
    have hinv := hlevel.inv (fun e _ => outEdges_sub e.2) h
    have hstop : ∀ {n : Nat} {s : Trace}, s.tasksToTrace = [] → dag.traceEdges n s = some s := by
      intro n s hnil
      cases n <;> rw [traceEdges, hnil] <;> rfl
    cases htrace : s.tasksToTrace with
    | nil =>
      refine ⟨s, hstop htrace, fun e => ?_⟩
      simp [frontier, htrace]
    | cons task tasks =>
      have hstep : dag.traceEdges (fuel + 1) s = dag.traceEdges fuel (traceLevel dag s) := by
        rw [traceEdges, htrace]
        simp only [traceLevel, htrace]
        rfl
      rw [hstep]
      simp only [← hlevel.reaches_iff h]
      by_cases hnew : ∀ e ∈ frontier dag s, e ∈ s.edges
      · have hnil := traceLevel_last htasks hnew
        exact ⟨_, hstop hnil, fun e => by simp [frontier, hnil]⟩
      · refine ih traceLevel_tasks hinv ?_
        push Not at hnew
        obtain ⟨e, he, hnot⟩ := hnew
        have hsub : e :: s.edges ⊆ (traceLevel dag s).edges :=
          List.cons_subset.mpr ⟨(hlevel.mem_found e).mpr (.inr he),
            fun a ha => (hlevel.mem_found a).mpr (.inl ha)⟩
        have := List.Nodup.length_le_of_subset (List.nodup_cons.mpr ⟨hnot, h.nodup⟩) hsub
        rw [List.length_cons] at this
        omega

/-- Every task is a root or downstream of one. -/
theorem exists_root (hacyclic : dag.Acyclic) {task : Operator} (htask : task ∈ dag.tasks) :
    ∃ root ∈ dag.rootTasks, Relation.ReflTransGen (dag.Edge false) root.taskId task.taskId := by
  induction hcount : upstreamCount dag task using Nat.strongRecOn generalizing task with
  | ind n ih =>
    cases hup : dag.upstreamList task with
    | nil => exact ⟨task, List.mem_filter.mpr ⟨htask, by rw [hup]; rfl⟩, .refl⟩
    | cons up ups =>
      have hmem : up ∈ dag.upstreamList task := hup ▸ List.mem_cons_self
      have hlt := upstreamCount_lt hacyclic htask hmem
      obtain ⟨hupmem, hid⟩ := List.mem_filter.mp hmem
      obtain ⟨root, hroot, hpath⟩ := ih _ (hcount ▸ hlt) hupmem rfl
      refine ⟨root, hroot, hpath.tail (edge_mirror.mp ?_)⟩
      rw [edge_iff htask]
      exact of_decide_eq_true hid

/-- **All edges of a DAG without cycles are traced.** -/
theorem traceEdges_all (hacyclic : dag.Acyclic) :
    ∃ r, dag.traceEdges (dag.taskEdges.length + 1) { tasksToTrace := dag.rootTasks } = some r ∧
      ∀ e, e ∈ r.edges ↔ dag.Edge false e.1 e.2 := by
  have hroots : ∀ task ∈ dag.rootTasks, task ∈ dag.tasks := fun task h => (List.mem_filter.mp h).1
  have hfrontier : frontier dag { tasksToTrace := dag.rootTasks } ⊆ dag.taskEdges := by
    intro e he
    obtain ⟨id, -, he⟩ := List.mem_flatMap.mp he
    exact outEdges_sub id he
  have hinv : Closure.Inv (nextEdges dag) dag.taskEdges [] (frontier dag
      { tasksToTrace := dag.rootTasks }) :=
    ⟨List.nodup_nil, List.nil_subset _, hfrontier, fun _ ha => absurd ha List.not_mem_nil⟩
  obtain ⟨r, hr, hmem⟩ := traceEdges_ends (s := { tasksToTrace := dag.rootTasks }) hroots hinv
    (Nat.lt_succ_self _)
  refine ⟨r, hr, fun e => ?_⟩
  rw [hmem]
  constructor
  · rintro (h | ⟨a, ha, hreach⟩)
    · exact absurd h List.not_mem_nil
    · cases hreach with
      | refl => exact mem_taskEdges.mp (hfrontier ha)
      | tail _ he => exact (mem_outEdges.mp he).2
  · intro hedge
    obtain ⟨task, htask, hid⟩ := List.mem_map.mp (Dag.mem_taskIds_of_edge hedge).1
    obtain ⟨root, hroot, hpath⟩ := exists_root hacyclic htask
    rw [hid] at hpath
    -- along the path from the root, all edges out of the task are reached
    have hreached : ∀ {id}, Relation.ReflTransGen (dag.Edge false) root.taskId id →
        ∀ e ∈ outEdges dag id, ∃ a ∈ frontier dag { tasksToTrace := dag.rootTasks },
          Closure.Reaches (nextEdges dag) a e := by
      intro id hpath
      induction hpath with
      | refl =>
        exact fun e he => ⟨e, List.mem_flatMap.mpr ⟨_, List.mem_map_of_mem hroot, he⟩, .refl⟩
      | @tail x y _ hxy ih =>
        intro e he
        obtain ⟨a, ha, hreach⟩ := ih (x, y) (mem_outEdges.mpr ⟨rfl, hxy⟩)
        exact ⟨a, ha, hreach.tail he⟩
    exact .inr (hreached hpath e (mem_outEdges.mpr ⟨rfl, hedge⟩))

end

/-! ## Paths through joins -/

/-- A path along `r` whose inner nodes all satisfy `inner`. -/
inductive Via {α : Type} (r : α → α → Prop) (inner : α → Prop) : α → α → Prop where
  | edge {a b} : r a b → Via r inner a b
  | step {a c b} : r a c → inner c → Via r inner c b → Via r inner a b

/-- A join node of a group. -/
def GraphNode.IsJoin : GraphNode → Prop
  | .task _ => False
  | .upstreamJoin _ => True
  | .downstreamJoin _ => True

/-- There is a record of the edge. -/
def Drawn (records : List EdgeRecord) (a b : GraphNode) : Prop :=
  ∃ record ∈ records, record.sourceId = a ∧ record.targetId = b

/-- The records have, for every edge between tasks, a path through joins only, and such paths only
between tasks that the DAG connects. -/
def SameReachability (dag : GroupedDag) (result : Option (List EdgeRecord)) : Prop :=
  ∃ records, result = some records ∧
    (∀ u v, dag.Edge false u v →
      Via (Drawn records) GraphNode.IsJoin (.task u) (.task v)) ∧
    ∀ u v, Via (Drawn records) GraphNode.IsJoin (.task u) (.task v) →
      Relation.TransGen (dag.Edge false) u v

section

variable (dag : GroupedDag)

/-- `u` is a leaf of a group with this id that has relations downstream. -/
def LeafOf (id : NodeId) (u : TaskId) : Prop :=
  ∃ g ∈ dag.groups, g.1.groupId = id ∧
    (g.1.downstreamGroupIds ≠ [] ∨ g.1.downstreamTaskIds ≠ []) ∧ u ∈ leavesOf dag g.2

/-- `v` is a root of the group with this id, which is downstream of a group or of a task. -/
def RootOf (id : NodeId) (v : TaskId) : Prop :=
  (∃ g ∈ dag.groups, id ∈ g.1.downstreamGroupIds ∧ v ∈ targetRoots dag id) ∨
    ∃ g ∈ dag.groups, g.1.groupId = id ∧ g.1.upstreamTaskIds ≠ [] ∧ v ∈ dag.getRoots g.2

/-- The joins of the groups connect only tasks that the DAG connects. -/
structure JoinsSound : Prop where
  found : TargetsFound dag
  leaf_root : ∀ g ∈ dag.groups, ∀ j ∈ g.1.downstreamGroupIds, ∀ u v, LeafOf dag g.1.groupId u →
    RootOf dag j v → Relation.TransGen (dag.Edge false) u v
  leaf_task : ∀ g ∈ dag.groups, ∀ t ∈ g.1.downstreamTaskIds, ∀ u, LeafOf dag g.1.groupId u →
    Relation.TransGen (dag.Edge false) u t
  task_root : ∀ g ∈ dag.groups, ∀ s ∈ g.1.upstreamTaskIds, ∀ v, RootOf dag g.1.groupId v →
    Relation.TransGen (dag.Edge false) s v

/-- The edges of the result. -/
def Shown (a b : GraphNode) : Prop :=
  ((∃ u v, a = .task u ∧ b = .task v ∧ dag.Edge false u v) ∨ Added dag a b) ∧ ¬Skipped dag a b

end

section

variable {dag : GroupedDag} {u v : TaskId} {i j : NodeId}

theorem drawn_dagEdges (hacyclic : dag.Acyclic) (hfound : TargetsFound dag)
    (labels : GraphNode → GraphNode → Option String) :
    ∃ records, dag.dagEdges labels = some records ∧
      ∀ a b, Drawn records a b ↔ Shown dag a b := by
  obtain ⟨collected, hcollected, hadd, hskip⟩ := collectEdges_spec hacyclic hfound
  obtain ⟨trace, htrace, hedges⟩ := traceEdges_all hacyclic
  rw [dagEdges, hcollected, Option.bind_some, htrace]
  refine ⟨_, rfl, fun a b => ?_⟩
  have htask : (a, b) ∈ trace.edges.map
      (fun edge => (GraphNode.task edge.1, GraphNode.task edge.2)) ↔
      ∃ u v, a = .task u ∧ b = .task v ∧ dag.Edge false u v := by
    rw [List.mem_map]
    constructor
    · rintro ⟨e, he, heq⟩
      cases heq
      exact ⟨e.1, e.2, rfl, rfl, (hedges e).mp he⟩
    · rintro ⟨u, v, rfl, rfl, hedge⟩
      exact ⟨(u, v), (hedges _).mpr hedge, rfl⟩
  have hrecord : ∀ (l : List GraphEdge) (f : GraphEdge → EdgeRecord),
      (∀ e, (f e).sourceId = e.1 ∧ (f e).targetId = e.2) →
      (Drawn (l.map f) a b ↔ (a, b) ∈ l) := by
    intro l f hf
    rw [Drawn]
    constructor
    · rintro ⟨_, hmem, hsource, htarget⟩
      obtain ⟨e, he, rfl⟩ := List.mem_map.mp hmem
      rw [(hf e).1] at hsource
      rw [(hf e).2] at htarget
      rw [← hsource, ← htarget]
      exact he
    · intro hmem
      exact ⟨_, List.mem_map_of_mem hmem, (hf _).1, (hf _).2⟩
  rw [hrecord _ _ fun _ => ⟨rfl, rfl⟩, List.mem_filter, List.mem_dedup, List.mem_append, htask,
    hadd, Shown, ← hskip]
  simp

/-! ### What is never skipped -/

theorem shown_leaf (h : LeafOf dag i u) : Shown dag (.task u) (.downstreamJoin i) := by
  obtain ⟨g, hg, rfl, hne, hu⟩ := h
  exact ⟨.inr (.leaf hg hne hu), nofun⟩

theorem shown_joins {g : TaskGroup × List DAGNode} (hg : g ∈ dag.groups)
    (hj : j ∈ g.1.downstreamGroupIds) :
    Shown dag (.downstreamJoin g.1.groupId) (.upstreamJoin j) := by
  refine ⟨.inr (.joins hg hj), fun h => ?_⟩
  generalize g.1.groupId = id at h
  cases h

theorem shown_root (h : RootOf dag j v) : Shown dag (.upstreamJoin j) (.task v) := by
  refine ⟨.inr ?_, nofun⟩
  rcases h with ⟨g, hg, hj, hv⟩ | ⟨g, hg, rfl, hne, hv⟩
  · exact .targetRoot hg hj hv
  · exact .root hg hne hv

/-! ### What replaces a skipped edge -/

theorem leafOf_of_group {g : TaskGroup × List DAGNode} (hg : g ∈ dag.groups)
    (hj : j ∈ g.1.downstreamGroupIds) (hu : u ∈ leavesOf dag g.2) :
    LeafOf dag g.1.groupId u :=
  ⟨g, hg, rfl, .inl (List.ne_nil_of_mem hj), hu⟩

/-- From a downstream join to a task below it, directly or through the join that it is a root of. -/
theorem via_downstreamTask {g : TaskGroup × List DAGNode} (hg : g ∈ dag.groups) {t : TaskId}
    (ht : t ∈ g.1.downstreamTaskIds) :
    Via (Shown dag) GraphNode.IsJoin (.downstreamJoin g.1.groupId) (.task t) := by
  by_cases hskip : Skipped dag (.downstreamJoin g.1.groupId) (.task t)
  · generalize hid : g.1.groupId = id at hskip
    cases hskip with
    | @joinRoot g' j _ hg' hj hv =>
      exact .step (shown_joins hg' hj) trivial (.edge (shown_root (.inl ⟨g', hg', hj, hv⟩)))
  · exact .edge ⟨.inr (.downstreamTask hg ht), hskip⟩

/-- From a task to the upstream join below it, directly or through the join that it is a leaf of. -/
theorem via_upstreamTask {g : TaskGroup × List DAGNode} (hg : g ∈ dag.groups) {s : TaskId}
    (hs : s ∈ g.1.upstreamTaskIds) (hv : RootOf dag g.1.groupId v) :
    Via (Shown dag) GraphNode.IsJoin (.task s) (.task v) := by
  have hroot : Via (Shown dag) GraphNode.IsJoin (.upstreamJoin g.1.groupId) (.task v) :=
    .edge (shown_root hv)
  by_cases hskip : Skipped dag (.task s) (.upstreamJoin g.1.groupId)
  · generalize g.1.groupId = id at hskip hroot
    cases hskip with
    | leafJoin hg' hj hu =>
      exact .step (shown_leaf (leafOf_of_group hg' hj hu)) trivial
        (.step (shown_joins hg' hj) trivial hroot)
  · exact .step ⟨.inr (.upstreamTask hg hs), hskip⟩ trivial hroot

/-- **No edge is lost.** -/
theorem via_of_edge (h : dag.Edge false u v) :
    Via (Shown dag) GraphNode.IsJoin (.task u) (.task v) := by
  by_cases hskip : Skipped dag (.task u) (.task v)
  · cases hskip with
    | @leafRoot g j _ _ hg hj hu hv =>
      exact .step (shown_leaf (leafOf_of_group hg hj hu)) trivial (.step (shown_joins hg hj) trivial
        (.edge (shown_root (.inl ⟨g, hg, hj, hv⟩))))
    | @leafTask g t _ hg ht hu =>
      have hleaf : LeafOf dag g.1.groupId u := ⟨g, hg, rfl, .inr (List.ne_nil_of_mem ht), hu⟩
      exact .step (shown_leaf hleaf) trivial (via_downstreamTask hg ht)
    | @taskRoot g s _ hg hs hv =>
      exact via_upstreamTask hg hs (.inr ⟨g, hg, rfl, List.ne_nil_of_mem hs, hv⟩)
  · exact .edge ⟨.inl ⟨u, v, rfl, rfl, h⟩, hskip⟩

/-! ### What paths through joins say -/

theorem leafOf_of_shown (h : Shown dag (.task u) (.downstreamJoin i)) : LeafOf dag i u := by
  rcases h.1 with ⟨_, _, -, h, -⟩ | h
  · cases h
  · cases h with
    | leaf hg hne hu => exact ⟨_, hg, rfl, hne, hu⟩

theorem rootOf_of_shown (h : Shown dag (.upstreamJoin j) (.task v)) : RootOf dag j v := by
  rcases h.1 with ⟨_, _, h, -, -⟩ | h
  · cases h
  · cases h with
    | targetRoot hg hj hv => exact .inl ⟨_, hg, hj, hv⟩
    | root hg hne hv => exact .inr ⟨_, hg, rfl, hne, hv⟩

/-- A path from an upstream join leads to a root of it. -/
theorem rootOf_of_via (h : Via (Shown dag) GraphNode.IsJoin (.upstreamJoin j) (.task v)) :
    RootOf dag j v := by
  cases h with
  | edge h => exact rootOf_of_shown h
  | step h hjoin _ =>
    rcases h.1 with ⟨_, _, h, -, -⟩ | h
    · cases h
    · cases h <;> cases hjoin

/-- A path from a downstream join leads to a task below it or to a root of a group below it. -/
theorem below_of_via (h : Via (Shown dag) GraphNode.IsJoin (.downstreamJoin i) (.task v)) :
    ∃ g ∈ dag.groups, g.1.groupId = i ∧ (v ∈ g.1.downstreamTaskIds ∨
      ∃ j ∈ g.1.downstreamGroupIds, RootOf dag j v) := by
  cases h with
  | edge h =>
    rcases h.1 with ⟨_, _, h, -, -⟩ | h
    · cases h
    · cases h with
      | downstreamTask hg ht => exact ⟨_, hg, rfl, .inl ht⟩
  | step h hjoin hrest =>
    rcases h.1 with ⟨_, _, h, -, -⟩ | h
    · cases h
    · cases h with
      | joins hg hj => exact ⟨_, hg, rfl, .inr ⟨_, hj, rootOf_of_via hrest⟩⟩
      | downstreamTask => cases hjoin

/-- **With sound joins no path says more than the DAG does.** -/
theorem transGen_of_via (hsound : JoinsSound dag)
    (h : Via (Shown dag) GraphNode.IsJoin (.task u) (.task v)) :
    Relation.TransGen (dag.Edge false) u v := by
  cases h with
  | edge h =>
    rcases h.1 with ⟨u, v, hu, hv, hedge⟩ | h
    · cases hu
      cases hv
      exact .single hedge
    · cases h
  | @step _ c _ h hjoin hrest =>
    cases c with
    | task id => cases hjoin
    | downstreamJoin i =>
      obtain ⟨g, hg, rfl, ht | ⟨j, hj, hv⟩⟩ := below_of_via hrest
      · exact hsound.leaf_task g hg v ht u (leafOf_of_shown h)
      · exact hsound.leaf_root g hg j hj u v (leafOf_of_shown h) hv
    | upstreamJoin j =>
      have hv := rootOf_of_via hrest
      rcases h.1 with ⟨_, _, -, h, -⟩ | h
      · cases h
      · cases h with
        | upstreamTask hg hs => exact hsound.task_root _ hg _ hs v hv

end

/-- **The rendered graph has the reachability of the DAG if and only if the joins of the groups are
sound.** -/
theorem dagEdges_iff (dag : GroupedDag) (hacyclic : dag.Acyclic)
    (labels : GraphNode → GraphNode → Option String) :
    SameReachability dag (dag.dagEdges labels) ↔ JoinsSound dag := by
  constructor
  · rintro ⟨records, hrecords, -, hback⟩
    have hfound : TargetsFound dag := by
      refine targetsFound_of_collectEdges ?_
      rw [dagEdges] at hrecords
      obtain ⟨collected, hcollected, -⟩ := Option.bind_eq_some_iff.mp hrecords
      rw [hcollected]
      rfl
    obtain ⟨records', hrecords', hdrawn⟩ := drawn_dagEdges hacyclic hfound labels
    obtain rfl : records' = records := Option.some.inj (hrecords'.symm.trans hrecords)
    have hshown : Drawn records' = Shown dag := by
      funext a b
      exact propext (hdrawn a b)
    rw [hshown] at hback
    refine ⟨hfound, fun g hg j hj u v hu hv => hback u v ?_, fun g hg t ht u hu => hback u t ?_,
      fun g hg s hs v hv => hback s v (via_upstreamTask hg hs hv)⟩
    · exact .step (shown_leaf hu) trivial
        (.step (shown_joins hg hj) trivial (.edge (shown_root hv)))
    · exact .step (shown_leaf hu) trivial (via_downstreamTask hg ht)
  · intro hsound
    obtain ⟨records, hrecords, hdrawn⟩ := drawn_dagEdges hacyclic hsound.found labels
    have hshown : Drawn records = Shown dag := by
      funext a b
      exact propext (hdrawn a b)
    refine ⟨records, hrecords, ?_⟩
    rw [hshown]
    exact ⟨fun u v => via_of_edge, fun u v => transGen_of_via hsound⟩

/-- A group with the task 4 upstream of a group with the task 5, as their tasks are. -/
def twoGroups : GroupedDag where
  tasks := [
    { taskId := 4, downstreamTaskIds := [5], deps_mapped := baseOperatorDeps_unmapped },
    { taskId := 5, upstreamTaskIds := [4], deps_mapped := baseOperatorDeps_unmapped }]
  children := [
    .taskGroup { groupId := some 10, downstreamGroupIds := [some 11] } [.task 4],
    .taskGroup { groupId := some 11, upstreamGroupIds := [some 10] } [.task 5]]

theorem twoGroups_acyclic : twoGroups.Acyclic := by
  refine Closure.Acyclic.of_rank id fun a b hab => ?_
  have hmem := (Dag.mem_taskIds_of_edge hab).1
  have hcases : a = 4 ∨ a = 5 := by simpa [Dag.taskIds, twoGroups] using hmem
  rcases hcases with rfl | rfl
  · have hb : b ∈ [5] := hab
    obtain rfl := List.mem_singleton.mp hb
    decide
  · exact absurd hab List.not_mem_nil

theorem twoGroups_sound : JoinsSound twoGroups where
  found := by
    unfold TargetsFound
    decide
  leaf_root := by
    intro g hg j hj u v hu hv
    have hfour : ∀ g ∈ twoGroups.groups, g.1.downstreamGroupIds ≠ [] ∨ g.1.downstreamTaskIds ≠ [] →
        ∀ u ∈ leavesOf twoGroups g.2, u = 4 := by decide
    have hfive : ∀ g ∈ twoGroups.groups, ∀ j ∈ g.1.downstreamGroupIds,
        ∀ v ∈ targetRoots twoGroups j, v = 5 := by decide
    have hnone : ∀ g ∈ twoGroups.groups, g.1.upstreamTaskIds = [] := by decide
    obtain ⟨g, hg, -, hne, hu⟩ := hu
    obtain rfl := hfour g hg hne u hu
    rcases hv with ⟨g', hg', hj', hv⟩ | ⟨g', hg', -, hne', -⟩
    · obtain rfl := hfive g' hg' _ hj' v hv
      have hedge : twoGroups.Edge false 4 5 := List.mem_singleton_self 5
      exact .single hedge
    · exact absurd (hnone g' hg') hne'
  leaf_task := by
    have hnone : ∀ g ∈ twoGroups.groups, g.1.downstreamTaskIds = [] := by decide
    intro g hg t ht
    rw [hnone g hg] at ht
    cases ht
  task_root := by
    have hnone : ∀ g ∈ twoGroups.groups, g.1.upstreamTaskIds = [] := by decide
    intro g hg s hs
    rw [hnone g hg] at hs
    cases hs

theorem twoGroups_sameReachability :
    twoGroups.Acyclic ∧ SameReachability twoGroups (twoGroups.dagEdges fun _ _ => none) :=
  ⟨twoGroups_acyclic, (dagEdges_iff twoGroups twoGroups_acyclic _).mpr twoGroups_sound⟩

/-- The task 3 was put in the first group when the second one was already downstream of it. -/
def taskAdded : GroupedDag where
  tasks := [
    { taskId := 1, downstreamTaskIds := [2], deps_mapped := baseOperatorDeps_unmapped },
    { taskId := 2, upstreamTaskIds := [1], deps_mapped := baseOperatorDeps_unmapped },
    { taskId := 3, deps_mapped := baseOperatorDeps_unmapped }]
  children := [
    .taskGroup { groupId := some 10, downstreamGroupIds := [some 11] } [.task 1, .task 3],
    .taskGroup { groupId := some 11, upstreamGroupIds := [some 10] } [.task 2]]

/-- What is rendered of it. -/
def taskAddedEdges : List EdgeRecord := [
  ⟨.downstreamJoin (some 10), .upstreamJoin (some 11), false, none⟩,
  ⟨.task 1, .downstreamJoin (some 10), false, none⟩,
  ⟨.task 3, .downstreamJoin (some 10), false, none⟩,
  ⟨.upstreamJoin (some 11), .task 2, false, none⟩]

/-- The graph has a path from task 3 to task 2, between which there is no edge. -/
theorem taskAdded_not_sameReachability :
    taskAdded.Acyclic ∧ ¬SameReachability taskAdded (taskAdded.dagEdges fun _ _ => none) := by
  constructor
  · refine Closure.Acyclic.of_rank id fun a b hab => ?_
    have hmem := (Dag.mem_taskIds_of_edge hab).1
    have hcases : a = 1 ∨ a = 2 ∨ a = 3 := by simpa [Dag.taskIds, taskAdded] using hmem
    rcases hcases with rfl | rfl | rfl
    · have hb : b ∈ [2] := hab
      obtain rfl := List.mem_singleton.mp hb
      decide
    · exact absurd hab List.not_mem_nil
    · exact absurd hab List.not_mem_nil
  · rintro ⟨records, hrecords, -, hback⟩
    have hgraph : taskAdded.dagEdges (fun _ _ => none) = some taskAddedEdges := by decide
    obtain rfl := Option.some.inj (hgraph.symm.trans hrecords)
    have hleaf : Drawn taskAddedEdges (.task 3) (.downstreamJoin (some 10)) := by
      simp [Drawn, taskAddedEdges]
    have hjoins : Drawn taskAddedEdges (.downstreamJoin (some 10)) (.upstreamJoin (some 11)) := by
      simp [Drawn, taskAddedEdges]
    have hroot : Drawn taskAddedEdges (.upstreamJoin (some 11)) (.task 2) := by
      simp [Drawn, taskAddedEdges]
    have hpath := hback 3 2 (.step hleaf trivial (.step hjoins trivial (.edge hroot)))
    obtain ⟨_, hedge, -⟩ := Relation.TransGen.head'_iff.mp hpath
    cases hedge

end Airflow.Grouping
