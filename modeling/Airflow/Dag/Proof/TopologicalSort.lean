import Airflow.Dag.Proof.Relatives
import Airflow.Dag.TopologicalSort
import Mathlib.Data.List.Perm.Basic

/-!
# When the topological sort is one

Each group is sorted by passes in which a child group is blocked by its own `upstream_task_ids`
only, and not by the dependencies of the tasks in it. `Ordered` says of the children of a group that
the passes end and that they put what depends on another child after it; the whole sort is
topological if and only if this holds of all groups.
-/

namespace Airflow.Grouping

open DAGNode

/-! ## What a sort should be -/

section

variable (dag : GroupedDag)

/-- The result has every task once, after all its upstream tasks. -/
def TopologicalOrder (result : Option (Except SortError (List TaskId))) : Prop :=
  ∃ out, result = some (.ok out) ∧ out.Perm dag.taskIds ∧
    ∀ task ∈ dag.tasks, ∀ up ∈ task.upstreamTaskIds, out.idxOf up < out.idxOf task.taskId

/-- A task of `other` is directly upstream of a task of `node`. -/
def DependsOn (node other : DAGNode) : Prop :=
  ∃ id ∈ node.taskIds, ∃ up ∈ other.taskIds, up ∈ dag.upstreamTaskIds (.task id)

/-- The place of a child in the dict of the children. -/
def place (children : List DAGNode) (node : DAGNode) : Nat :=
  (children.map nodeId).idxOf node.nodeId

/-- The children of a group are sorted as the tasks in them depend on each other: what blocks a
child is a task of the DAG, no child blocks itself through others, and a child that another one
depends on precedes it. -/
structure Ordered (children : List DAGNode) : Prop where
  found : ∀ node ∈ children, ∀ up ∈ dag.upstreamTaskIds node, up ∈ dag.taskIds
  acyclic : PassSort.Acyclic dag.blocks children
  precedes : ∀ other ∈ children, ∀ node ∈ children, other ≠ node → DependsOn dag node other →
    PassSort.Precedes dag.blocks (place children) children other node

end

/-! ## `yield from` -/

section

variable {α β ε : Type} {f : α → Option (Except ε (List β))} {as : List α}

theorem yieldFrom_isSome (h : ∀ a ∈ as, (f a).isSome = true) : (yieldFrom f as).isSome = true := by
  induction as with
  | nil => rfl
  | cons a as ih =>
    obtain ⟨ha, has⟩ := List.forall_mem_cons.mp h
    obtain ⟨r, hr⟩ := Option.isSome_iff_exists.mp ha
    obtain ⟨s, hs⟩ := Option.isSome_iff_exists.mp (ih has)
    simp only [yieldFrom, hr, hs]
    cases r <;> cases s <;> rfl

theorem yieldFrom_cons_ok {a : α} {out : List β} :
    yieldFrom f (a :: as) = some (.ok out) ↔
      ∃ bs cs, f a = some (.ok bs) ∧ yieldFrom f as = some (.ok cs) ∧ out = bs ++ cs := by
  constructor
  · intro h
    rw [yieldFrom] at h
    split at h
    · rename_i bs hbs
      split at h
      · rename_i cs hcs
        cases h
        exact ⟨bs, cs, hbs, hcs, rfl⟩
      · rename_i hnot
        exact absurd h (hnot out)
    · rename_i hnot
      exact absurd h (hnot out)
  · rintro ⟨bs, cs, hbs, hcs, rfl⟩
    simp only [yieldFrom, hbs, hcs]

variable {items : α → List β}

theorem yieldFrom_perm (h : ∀ a ∈ as, ∀ bs, f a = some (.ok bs) → bs.Perm (items a))
    {out : List β} (hout : yieldFrom f as = some (.ok out)) : out.Perm (as.flatMap items) := by
  induction as generalizing out with
  | nil =>
    cases hout
    exact .nil
  | cons a as ih =>
    obtain ⟨ha, has⟩ := List.forall_mem_cons.mp h
    obtain ⟨bs, cs, hbs, hcs, rfl⟩ := yieldFrom_cons_ok.mp hout
    exact (ha bs hbs).append (ih has hcs)

/-- What is yielded is related in order if it is for each element and across them. -/
theorem yieldFrom_pairwise {R : β → β → Prop}
    (h : ∀ a ∈ as, ∀ bs, f a = some (.ok bs) → bs.Perm (items a)) :
    (∃ out, yieldFrom f as = some (.ok out) ∧ out.Pairwise R) ↔
      (∀ a ∈ as, ∃ bs, f a = some (.ok bs) ∧ bs.Pairwise R) ∧
        as.Pairwise fun a b => ∀ x ∈ items a, ∀ y ∈ items b, R x y := by
  induction as with
  | nil => simp [yieldFrom]
  | cons a as ih =>
    obtain ⟨ha, has⟩ := List.forall_mem_cons.mp h
    have ih := ih has
    have hmem : ∀ bs cs, f a = some (.ok bs) → yieldFrom f as = some (.ok cs) →
        ((∀ x ∈ bs, ∀ y ∈ cs, R x y) ↔ ∀ b ∈ as, ∀ x ∈ items a, ∀ y ∈ items b, R x y) := by
      intro bs cs hbs hcs
      simp only [(ha bs hbs).mem_iff, (yieldFrom_perm has hcs).mem_iff, List.mem_flatMap]
      exact ⟨fun h b hb x hx y hy => h x hx y ⟨b, hb, hy⟩,
        fun h x hx y ⟨b, hb, hy⟩ => h b hb x hx y hy⟩
    rw [List.forall_mem_cons, List.pairwise_cons]
    constructor
    · rintro ⟨out, hout, hpairs⟩
      obtain ⟨bs, cs, hbs, hcs, rfl⟩ := yieldFrom_cons_ok.mp hout
      obtain ⟨hpbs, hpcs, hacross⟩ := List.pairwise_append.mp hpairs
      obtain ⟨hall, hrest⟩ := ih.mp ⟨cs, hcs, hpcs⟩
      exact ⟨⟨⟨bs, hbs, hpbs⟩, hall⟩, (hmem bs cs hbs hcs).mp hacross, hrest⟩
    · rintro ⟨⟨⟨bs, hbs, hpbs⟩, hall⟩, hacross, hrest⟩
      obtain ⟨cs, hcs, hpcs⟩ := ih.mpr ⟨hall, hrest⟩
      refine ⟨bs ++ cs, yieldFrom_cons_ok.mpr ⟨bs, cs, hbs, hcs, rfl⟩, ?_⟩
      exact List.pairwise_append.mpr ⟨hpbs, hpcs, (hmem bs cs hbs hcs).mpr hacross⟩

end

/-! ## One group -/

section

variable {dag : GroupedDag} {children : List DAGNode}

theorem place_pairwise (h : (children.map nodeId).Nodup) :
    children.Pairwise (place children · < place children ·) := by
  rw [List.pairwise_iff_getElem]
  intro i j hi hj hij
  have hplace : ∀ k (hk : k < children.length), place children children[k] = k := by
    intro k hk
    have hidx := h.idxOf_getElem k (by simpa using hk)
    rwa [List.getElem_map] at hidx
  rw [hplace i hi, hplace j hj]
  exact hij

theorem sortChildren_of_found
    (h : ∀ node ∈ children, ∀ up ∈ dag.upstreamTaskIds node, up ∈ dag.taskIds) :
    dag.sortChildren children = (PassSort.sort dag.blocks children.length children).map
      fun graphSorted =>
        match graphSorted with
        | some graphSorted => .ok graphSorted
        | none => .error .airflowDagCycleException := by
  unfold GroupedDag.sortChildren
  exact if_pos (by simpa using h)

theorem sortChildren_of_not_found
    (h : ¬∀ node ∈ children, ∀ up ∈ dag.upstreamTaskIds node, up ∈ dag.taskIds) :
    dag.sortChildren children = some (.error .taskNotFound) := by
  rw [GroupedDag.sortChildren, if_neg (by simpa using h)]

/-- **One group.** No child is yielded before another one that it depends on if and only if the
children are ordered. -/
theorem sortChildren_spec (h : (children.map nodeId).Nodup) :
    ∃ r, dag.sortChildren children = some r ∧ (∀ nodes, r = .ok nodes → nodes.Perm children) ∧
      ((∃ nodes, r = .ok nodes ∧ nodes.Pairwise fun m n => ¬DependsOn dag m n) ↔
        Ordered dag children) := by
  by_cases hfound : ∀ node ∈ children, ∀ up ∈ dag.upstreamTaskIds node, up ∈ dag.taskIds
  swap
  · rw [sortChildren_of_not_found hfound]
    refine ⟨_, rfl, fun _ h => (nomatch h), fun ⟨_, h, _⟩ => (nomatch h), fun ho => ?_⟩
    exact absurd ho.found hfound
  obtain ⟨r, hr, hacyclic, hsorted⟩ :=
    @PassSort.sort_spec _ dag.blocks _ _ _ (place_pairwise h) (Nat.le_refl _)
  rw [sortChildren_of_found hfound, hr]
  cases r with
  | none =>
    refine ⟨_, rfl, fun _ h => (nomatch h), fun ⟨_, h, _⟩ => (nomatch h), fun ho => ?_⟩
    have := hacyclic.mpr ho.acyclic
    cases this
  | some nodes =>
    obtain ⟨hperm, hprecedes⟩ := hsorted nodes rfl
    refine ⟨_, rfl, fun nodes' h => ?_, ?_, fun ho => ⟨nodes, rfl, ?_⟩⟩
    · cases h
      exact hperm
    · rintro ⟨nodes', heq, hdepends⟩
      cases heq
      refine ⟨hfound, hacyclic.mp rfl, fun other hother node hnode hne hdep => ?_⟩
      have hor := PassSort.or_of_pairwise (hprecedes.and hdepends) (hperm.mem_iff.mpr hother)
        (hperm.mem_iff.mpr hnode) hne
      exact (hor.resolve_right fun h => h.2 hdep).1
    · refine hprecedes.imp_of_mem fun {m n} hm hn hmn hdep => ?_
      by_cases hne : n = m
      · subst hne
        exact hmn.asymm hmn
      · exact hmn.asymm
          (ho.precedes n (hperm.mem_iff.mp hn) m (hperm.mem_iff.mp hm) hne hdep)

end

/-! ## All groups -/

section

variable {dag : GroupedDag}

/-- Of two tasks in the order of a sort, the second is not upstream of the first. -/
def NotUpstream (dag : GroupedDag) (a b : TaskId) : Prop := b ∉ dag.upstreamTaskIds (.task a)

theorem not_dependsOn_iff {m n : DAGNode} :
    ¬DependsOn dag m n ↔ ∀ x ∈ m.taskIds, ∀ y ∈ n.taskIds, NotUpstream dag x y := by
  simp only [DependsOn, NotUpstream, not_exists, not_and]

/-- What `nested_topo` yields for one node. -/
def topoOfNode (dag : GroupedDag) (fuel : Nat) : DAGNode → Option (Except SortError (List TaskId))
  | .task taskId => some (.ok [taskId])
  | .taskGroup _ children => dag.nestedTopo fuel children

theorem nestedTopo_succ (fuel : Nat) (children : List DAGNode) :
    dag.nestedTopo (fuel + 1) children =
      match dag.sortChildren children with
      | some (.ok nodes) => yieldFrom (topoOfNode dag fuel) nodes
      | some (.error e) => some (.error e)
      | none => none := by
  have hfun : topoOfNode dag fuel = fun node =>
      match node with
      | .task taskId => some (.ok [taskId])
      | .taskGroup _ children => dag.nestedTopo fuel children := by
    funext node
    cases node <;> rfl
  rw [hfun]
  rfl

/-- `result` are these tasks, in the order of a sort if and only if all groups are ordered. -/
structure Sorts (dag : GroupedDag) (ids : List TaskId) (groups : List (TaskGroup × List DAGNode))
    (result : Option (Except SortError (List TaskId))) : Prop where
  isSome : result.isSome = true
  perm : ∀ out, result = some (.ok out) → out.Perm ids
  ordered_iff : (∃ out, result = some (.ok out) ∧ out.Pairwise (NotUpstream dag)) ↔
    ∀ g ∈ groups, Ordered dag g.2

theorem Sorts.task (taskId : TaskId) :
    Sorts dag [taskId] [] (some (.ok [taskId])) where
  isSome := rfl
  perm := by
    intro out hout
    cases hout
    exact .refl _
  ordered_iff := ⟨fun _ _ hg => (nomatch hg), fun _ => ⟨_, rfl, List.pairwise_singleton _ _⟩⟩

/-- One level: the sort of the children and, by the hypothesis, of the groups among them. -/
theorem Sorts.level {fuel : Nat} {group : TaskGroup} {children : List DAGNode}
    (hkeys : (children.map nodeId).Nodup)
    (ih : ∀ node ∈ children, Sorts dag node.taskIds node.groups (topoOfNode dag fuel node)) :
    Sorts dag (taskIdsOf children) ((group, children) :: groupsOf children)
      (dag.nestedTopo (fuel + 1) children) := by
  obtain ⟨r, hr, hnodes, hiff⟩ := @sortChildren_spec dag children hkeys
  rw [nestedTopo_succ, hr]
  cases r with
  | error e =>
    refine ⟨rfl, fun _ h => (nomatch h), fun ⟨_, h, _⟩ => (nomatch h), fun h => ?_⟩
    obtain ⟨_, h, -⟩ := hiff.mpr (h (group, children) List.mem_cons_self)
    cases h
  | ok nodes =>
    have hperm := hnodes nodes rfl
    have ih : ∀ node ∈ nodes, Sorts dag node.taskIds node.groups (topoOfNode dag fuel node) :=
      fun node hnode => ih node (hperm.mem_iff.mp hnode)
    have hitems : ∀ node ∈ nodes, ∀ bs, topoOfNode dag fuel node = some (.ok bs) →
        bs.Perm node.taskIds := fun node hnode => (ih node hnode).perm
    refine ⟨yieldFrom_isSome fun node hnode => (ih node hnode).isSome, fun out hout => ?_, ?_⟩
    · rw [taskIdsOf_eq]
      exact (yieldFrom_perm hitems hout).trans (hperm.flatMap_right taskIds)
    · have hlevel : (nodes.Pairwise fun m n =>
          ∀ x ∈ m.taskIds, ∀ y ∈ n.taskIds, NotUpstream dag x y) ↔ Ordered dag children := by
        simp only [← not_dependsOn_iff, ← hiff, Except.ok.injEq, exists_eq_left']
      have hbelow : (∀ node ∈ nodes, ∃ bs, topoOfNode dag fuel node = some (.ok bs) ∧
          bs.Pairwise (NotUpstream dag)) ↔ ∀ g ∈ groupsOf children, Ordered dag g.2 := by
        rw [groupsOf_eq]
        simp only [List.mem_flatMap, ← hperm.mem_iff]
        constructor
        · rintro h g ⟨node, hnode, hg⟩
          exact (ih node hnode).ordered_iff.mp (h node hnode) g hg
        · intro h node hnode
          exact (ih node hnode).ordered_iff.mpr fun g hg => h g ⟨node, hnode, hg⟩
      rw [yieldFrom_pairwise hitems, hlevel, hbelow, List.forall_mem_cons, and_comm]

/-- **All groups.** The sort of the children of a group, with fuel for the groups in it. -/
theorem sorts_nestedTopo {fuel : Nat} {group : TaskGroup} {children : List DAGNode}
    (hkeys : ∀ g ∈ (group, children) :: groupsOf children, (g.2.map nodeId).Nodup)
    (hfuel : (groupsOf children).length < fuel) :
    Sorts dag (taskIdsOf children) ((group, children) :: groupsOf children)
      (dag.nestedTopo fuel children) := by
  induction fuel generalizing group children with
  | zero => exact absurd hfuel (Nat.not_lt_zero _)
  | succ fuel ih =>
    obtain ⟨hkeys, hbelow⟩ := List.forall_mem_cons.mp hkeys
    refine .level hkeys fun node hnode => ?_
    cases node with
    | task taskId => exact .task taskId
    | taskGroup group' children' =>
      have hsub : (DAGNode.taskGroup group' children').groups.Sublist (groupsOf children) := by
        rw [groupsOf_eq, List.flatMap_def]
        exact List.sublist_flatten_of_mem (List.mem_map_of_mem hnode)
      rw [groups] at hsub
      rw [groups, taskIds]
      refine ih (fun g hg => hbelow g (hsub.subset hg)) ?_
      have := hsub.length_le
      rw [List.length_cons] at this
      omega

/-! ## All tasks -/

theorem upstreamTaskIds_task {task : Operator} (h : task ∈ dag.tasks) :
    dag.upstreamTaskIds (.task task.taskId) = task.upstreamTaskIds := by
  rw [GroupedDag.upstreamTaskIds, Dag.getTask_self h]
  rfl

/-- Every task after its upstream tasks, or no task before one and none upstream of itself. -/
theorem idxOf_lt_iff {out : List TaskId} (hperm : out.Perm dag.taskIds) :
    (∀ task ∈ dag.tasks, ∀ up ∈ task.upstreamTaskIds, out.idxOf up < out.idxOf task.taskId) ↔
      out.Pairwise (NotUpstream dag) ∧
        ∀ task ∈ dag.tasks, task.taskId ∉ task.upstreamTaskIds := by
  have hnodup : out.Nodup := hperm.nodup_iff.mpr dag.taskIds_nodup
  rw [List.pairwise_iff_getElem]
  constructor
  · intro h
    refine ⟨fun i j hi hj hij hup => ?_, fun task htask hself => ?_⟩
    · obtain ⟨task, htask, hid⟩ := List.mem_map.mp (hperm.mem_iff.mp (List.getElem_mem hi))
      rw [← hid, upstreamTaskIds_task htask] at hup
      have hlt := h task htask _ hup
      rw [hid, hnodup.idxOf_getElem i hi, hnodup.idxOf_getElem j hj] at hlt
      omega
    · exact Nat.lt_irrefl _ (h task htask _ hself)
  · rintro ⟨hpairs, hself⟩ task htask up hup
    have hmem : task.taskId ∈ out := hperm.mem_iff.mpr (List.mem_map_of_mem htask)
    have hupmem : up ∈ out := hperm.mem_iff.mpr (dag.upstream_mem task htask up hup)
    by_contra hnot
    rcases Nat.lt_or_eq_of_le (Nat.le_of_not_lt hnot) with hlt | heq
    · have hlength := List.idxOf_lt_length_of_mem hupmem
      refine hpairs _ _ (List.idxOf_lt_length_of_mem hmem) hlength hlt ?_
      rw [List.getElem_idxOf, List.getElem_idxOf, upstreamTaskIds_task htask]
      exact hup
    · rw [List.idxOf_inj hmem] at heq
      exact hself task htask (heq ▸ hup)

/-- Every task is a child of a group. -/
theorem exists_group {id : TaskId} (node : DAGNode) (group : TaskGroup) (children : List DAGNode)
    (hnode : node ∈ children) (hid : id ∈ node.taskIds) :
    ∃ g ∈ (group, children) :: groupsOf children, .task id ∈ g.2 := by
  induction node using ind generalizing group children with
  | task taskId =>
    rw [taskIds_task, List.mem_singleton] at hid
    exact ⟨_, List.mem_cons_self, hid ▸ hnode⟩
  | taskGroup group' children' ih =>
    rw [taskIds_taskGroup, List.mem_flatMap] at hid
    obtain ⟨child, hchild, hid⟩ := hid
    obtain ⟨g, hg, hmem⟩ := ih child hchild group' children' hchild hid
    refine ⟨g, List.mem_cons_of_mem _ ?_, hmem⟩
    rw [groupsOf_eq, List.mem_flatMap]
    exact ⟨_, hnode, hg⟩

theorem not_self_of_ordered (h : ∀ g ∈ dag.groups, Ordered dag g.2) :
    ∀ task ∈ dag.tasks, task.taskId ∉ task.upstreamTaskIds := by
  intro task htask hself
  have htree : task.taskId ∈ taskIdsOf dag.children :=
    dag.tree_taskIds.mem_iff.mpr (List.mem_map_of_mem htask)
  rw [taskIdsOf_eq, List.mem_flatMap] at htree
  obtain ⟨node, hnode, hid⟩ := htree
  obtain ⟨g, hg, hmem⟩ := exists_group node dag.taskGroup dag.children hnode hid
  refine (h g hg).acyclic _ (.single ⟨hmem, hmem, ?_⟩)
  rw [GroupedDag.blocks, List.any_eq_true]
  exact ⟨task.taskId, by rwa [upstreamTaskIds_task htask], by simp [nodeId]⟩

end

/-- **The sort is topological if and only if the children of every group are ordered.** -/
theorem topologicalSort_iff (dag : GroupedDag) :
    TopologicalOrder dag dag.topologicalSort ↔ ∀ g ∈ dag.groups, Ordered dag g.2 := by
  have hgroups : dag.groups = (dag.taskGroup, dag.children) :: groupsOf dag.children := rfl
  have hsorts := @sorts_nestedTopo dag dag.groups.length dag.taskGroup dag.children
    dag.children_nodup (by rw [hgroups, List.length_cons]; omega)
  constructor
  · rintro ⟨out, hout, hperm, horder⟩
    exact hsorts.ordered_iff.mp ⟨out, hout, ((idxOf_lt_iff hperm).mp horder).1⟩
  · intro h
    obtain ⟨out, hout, hpairs⟩ := hsorts.ordered_iff.mpr h
    have hperm : out.Perm dag.taskIds := (hsorts.perm out hout).trans dag.tree_taskIds
    exact ⟨out, hout, hperm, (idxOf_lt_iff hperm).mpr ⟨hpairs, not_self_of_ordered h⟩⟩

/-- A group with the task 2 that was defined before task 1, on which task 2 depends. -/
def groupFirst : GroupedDag where
  tasks := [
    { taskId := 1, downstreamTaskIds := [2], deps_mapped := baseOperatorDeps_unmapped },
    { taskId := 2, upstreamTaskIds := [1], deps_mapped := baseOperatorDeps_unmapped }]
  children := [.taskGroup { groupId := some 10 } [.task 2], .task 1]

/-- The group is not blocked by what the task in it depends on. -/
theorem groupFirst_not_topological :
    groupFirst.toDag.Acyclic ∧ ¬TopologicalOrder groupFirst groupFirst.topologicalSort := by
  constructor
  · refine Closure.Acyclic.of_rank id fun a b hab => ?_
    have hmem := (Dag.mem_taskIds_of_edge hab).1
    have hcases : a = 1 ∨ a = 2 := by simpa [Dag.taskIds, groupFirst] using hmem
    rcases hcases with rfl | rfl
    · have hb : b ∈ [2] := hab
      obtain rfl := List.mem_singleton.mp hb
      decide
    · exact absurd hab List.not_mem_nil
  · rintro ⟨out, hout, -, horder⟩
    have hsort : groupFirst.topologicalSort = some (.ok [2, 1]) := by decide
    rw [hsort] at hout
    cases hout
    exact absurd (horder _ (.tail _ (.head _)) 1 (.head _)) (by decide)

end Airflow.Grouping
