import Airflow.Dag.PartialSubset
import Airflow.Dag.Proof.Relatives

/-!
# What a partial subset keeps

`Selected` says which tasks a partial subset is to have. `DAG.partial_subset` keeps exactly these
with the edges among them, and the groups that they are in. References of a group survive if
`get_task_group_dict` has another group under its id.
-/

namespace Airflow.Grouping

/-! ## The tasks that are selected -/

section

variable (dag : Dag)

/-- One or more edges lead from `task` to `rel`. -/
def Relative (upstream : Bool) (task rel : Operator) : Prop :=
  rel ∈ dag.tasks ∧ Relation.TransGen (dag.Edge upstream) task.taskId rel.taskId

/-- `x` is a teardown directly downstream of `s`. -/
def TeardownOf (s x : Operator) : Prop :=
  x ∈ dag.tasks ∧ x.taskId ∈ s.downstreamTaskIds ∧ x.isTeardown = true

/-- A setup upstream of `w` that has no teardowns, or one that is downstream of `w`. -/
def RelevantSetup (w s : Operator) : Prop :=
  Relative dag true w s ∧ s.isSetup = true ∧
    ((∀ x, ¬TeardownOf dag s x) ∨ ∃ x, TeardownOf dag s x ∧ Relative dag false w x)

/-- Neither a setup nor a teardown. -/
def IsWork (task : Operator) : Prop := task.isSetup = false ∧ task.isTeardown = false

/-- The task is a task of the DAG that the selection names or that its expression is found in. -/
def Matched (selection : TaskSelection) (task : Operator) : Prop :=
  task ∈ dag.tasks ∧
    match selection with
    | .taskIds ids => task.taskId ∈ ids
    | .regex findall => findall task.taskId ≠ []

/-- Matched, or downstream of a matched task if these are included. -/
def MatchedOrBelow (selection : TaskSelection) (includeDownstream : Bool) (task : Operator) :
    Prop :=
  Matched dag selection task ∨
    includeDownstream = true ∧ ∃ t, Matched dag selection t ∧ Relative dag false t task

/-- The selected tasks before their direct upstreams. -/
inductive Core (selection : TaskSelection) (includeDownstream includeUpstream : Bool) :
    Operator → Prop where
  | matched {t} : MatchedOrBelow dag selection includeDownstream t →
      Core selection includeDownstream includeUpstream t
  | upstream {t u} : includeUpstream = true → Matched dag selection t → Relative dag true t u →
      Core selection includeDownstream includeUpstream u
  | upstreamTeardown {t s x} : includeUpstream = true → Matched dag selection t →
      Relative dag true t s → s.isSetup = true → TeardownOf dag s x →
      Core selection includeDownstream includeUpstream x
  /-- The relevant setups of work, and next their teardowns. -/
  | setup {w s} : MatchedOrBelow dag selection includeDownstream w → IsWork w →
      RelevantSetup dag w s → Core selection includeDownstream includeUpstream s
  | setupTeardown {w s x} : MatchedOrBelow dag selection includeDownstream w → IsWork w →
      RelevantSetup dag w s → TeardownOf dag s x →
      Core selection includeDownstream includeUpstream x
  | teardown {s x} : Matched dag selection s → s.isSetup = true → TeardownOf dag s x →
      Core selection includeDownstream includeUpstream x

/-- The tasks that a partial subset is to have. -/
def Selected (selection : TaskSelection)
    (includeDownstream includeUpstream includeDirectUpstream : Bool) (task : Operator) : Prop :=
  Core dag selection includeDownstream includeUpstream task ∨
    includeDirectUpstream = true ∧ task ∈ dag.tasks ∧
      ∃ t, Core dag selection includeDownstream includeUpstream t ∧ task.taskId ∈ t.upstreamTaskIds

end

/-! ## The walks of `partial_subset` -/

section

variable {dag : Dag} {upstream : Bool} {task x : Operator}

theorem mem_flatRelatives (h : task ∈ dag.tasks) :
    x ∈ dag.flatRelatives task upstream ↔ Relative dag upstream task x := by
  rw [Dag.flatRelatives, List.mem_filter, decide_eq_true_iff, Dag.mem_flatRelativeIds h]
  rfl

theorem mem_teardowns {s : Operator} :
    x ∈ (dag.downstreamList s).filter (·.isTeardown) ↔ TeardownOf dag s x := by
  rw [List.mem_filter, Dag.downstreamList, List.mem_filter, decide_eq_true_iff]
  exact and_assoc

theorem mem_teardownsOf {s : Operator} :
    x ∈ dag.teardownsOf task s ↔ TeardownOf dag s x ∧ x.taskId ≠ task.taskId := by
  rw [← mem_teardowns, Dag.teardownsOf, List.mem_filter, List.mem_filter, decide_eq_true_iff]
  exact and_assoc.symm

theorem mem_getUpstreamsFollowSetups (h : task ∈ dag.tasks) :
    x ∈ dag.getUpstreamsFollowSetups task ↔ Relative dag true task x ∨
      ∃ s, Relative dag true task s ∧ s.isSetup = true ∧ TeardownOf dag s x ∧
        x.taskId ≠ task.taskId := by
  simp only [Dag.getUpstreamsFollowSetups, List.mem_flatMap, mem_flatRelatives h, List.mem_cons]
  constructor
  · rintro ⟨s, hs, rfl | hx⟩
    · exact .inl hs
    · split at hx
      · rename_i hsetup
        exact .inr ⟨s, hs, hsetup, mem_teardownsOf.mp hx⟩
      · cases hx
  · rintro (hx | ⟨s, hs, hsetup, hx⟩)
    · exact ⟨x, hx, .inl rfl⟩
    · refine ⟨s, hs, .inr ?_⟩
      rw [if_pos hsetup]
      exact mem_teardownsOf.mpr hx

/-- The test of `get_upstreams_only_setups_and_teardowns` on an upstream task. -/
theorem relevant_iff {w s : Operator} (hw : w ∈ dag.tasks) :
    (s.isSetup ∧ (¬(dag.downstreamList s).any (·.isTeardown) ∨ s.downstreamTaskIds.any
      (· ∈ ((dag.flatRelatives w false).filter (·.isTeardown)).map Operator.taskId))) ↔
    s.isSetup = true ∧
      ((∀ x, ¬TeardownOf dag s x) ∨ ∃ x, TeardownOf dag s x ∧ Relative dag false w x) := by
  refine and_congr_right fun _ => or_congr ?_ ?_
  · simp only [List.any_eq_true, not_exists, ← mem_teardowns, List.mem_filter]
  · simp only [List.any_eq_true, decide_eq_true_iff, List.mem_map, List.mem_filter,
      mem_flatRelatives hw, TeardownOf]
    constructor
    · rintro ⟨_, hid, x, ⟨hx, htd⟩, rfl⟩
      exact ⟨x, ⟨hx.1, hid, htd⟩, hx⟩
    · rintro ⟨x, ⟨-, hid, htd⟩, hx⟩
      exact ⟨x.taskId, hid, x, ⟨hx, htd⟩, rfl⟩

theorem mem_getUpstreamsOnlySetupsAndTeardowns {w : Operator} (hw : w ∈ dag.tasks) :
    x ∈ dag.getUpstreamsOnlySetupsAndTeardowns w ↔ ∃ s, RelevantSetup dag w s ∧
      (x = s ∨ TeardownOf dag s x ∧ x.taskId ≠ w.taskId) := by
  simp only [Dag.getUpstreamsOnlySetupsAndTeardowns, List.mem_flatMap, mem_flatRelatives hw,
    RelevantSetup, and_assoc (a := Relative dag true w _)]
  refine exists_congr fun s => and_congr_right fun _ => ?_
  have hrel := relevant_iff (s := s) hw
  split
  · rename_i hcond
    simp only [List.mem_cons, mem_teardownsOf, hrel.mp hcond, true_and, and_self]
  · rename_i hcond
    simp only [List.not_mem_nil, false_iff]
    exact fun h => hcond (hrel.mpr h.1)

end

/-! ## The cut -/

section

variable {dag : Dag} {selection : TaskSelection}
  {includeDownstream includeUpstream includeDirectUpstream : Bool} {task : Operator}

theorem mem_matchedTasks : task ∈ matchedTasks dag selection ↔ Matched dag selection task := by
  cases selection <;> simp [matchedTasks, Matched]

theorem taskId_mem_matched (h : task ∈ dag.tasks) :
    task.taskId ∈ (matchedTasks dag selection).map Operator.taskId ↔
      Matched dag selection task := by
  rw [← mem_matchedTasks]
  refine ⟨fun hid => ?_, fun hmem => List.mem_map_of_mem hmem⟩
  obtain ⟨t, ht, hid⟩ := List.mem_map.mp hid
  rw [List.inj_on_of_nodup_map dag.taskIds_nodup h (mem_matchedTasks.mp ht).1 hid.symm]
  exact ht

theorem TeardownOf.relative {s x : Operator} (h : TeardownOf dag s x) (hs : s ∈ dag.tasks) :
    Relative dag false s x := by
  refine ⟨h.1, .single ?_⟩
  rw [Dag.Edge, Closure.Step, Dag.relativesOf_taskId hs]
  exact h.2.1

/-- What is included for one matched task. -/
theorem mem_alsoIncludeIds {ids : List TaskId} {id : TaskId} (h : task ∈ dag.tasks) :
    id ∈ dag.alsoIncludeIds ids includeDownstream includeUpstream task ↔
      (includeDownstream = true ∧ ∃ rel, Relative dag false task rel ∧ (id = rel.taskId ∨
        rel.taskId ∉ ids ∧ IsWork rel ∧
          ∃ x ∈ dag.getUpstreamsOnlySetupsAndTeardowns rel, x.taskId = id)) ∨
      (includeUpstream = true ∧ ∃ x ∈ dag.getUpstreamsFollowSetups task, x.taskId = id) ∨
      (includeUpstream = false ∧ IsWork task ∧
        ∃ x ∈ dag.getUpstreamsOnlySetupsAndTeardowns task, x.taskId = id) ∨
      (includeDownstream = false ∧ task.isSetup = true ∧
        ∃ x, TeardownOf dag task x ∧ x.taskId = id) := by
  have hdown : id ∈ ((dag.flatRelatives task false).flatMap fun rel =>
      rel.taskId :: if rel.taskId ∉ ids ∧ ¬rel.isSetup ∧ ¬rel.isTeardown then
        (dag.getUpstreamsOnlySetupsAndTeardowns rel).map Operator.taskId else []) ↔
      ∃ rel, Relative dag false task rel ∧ (id = rel.taskId ∨ rel.taskId ∉ ids ∧ IsWork rel ∧
        ∃ x ∈ dag.getUpstreamsOnlySetupsAndTeardowns rel, x.taskId = id) := by
    simp only [List.mem_flatMap, mem_flatRelatives h, List.mem_cons]
    refine exists_congr fun rel => and_congr_right fun _ => or_congr_right ?_
    simp only [IsWork, List.mem_ite_nil_right, List.mem_map, Bool.not_eq_true, and_assoc]
  have hteardown : id ∈ ((dag.downstreamList task).filter (·.isTeardown)).map Operator.taskId ↔
      ∃ x, TeardownOf dag task x ∧ x.taskId = id := by
    simp only [List.mem_map, mem_teardowns]
  rw [Dag.alsoIncludeIds, List.mem_append, List.mem_append, or_assoc]
  refine or_congr ?_ ?_
  · rw [List.mem_ite_nil_right, hdown]
  · rw [← or_assoc]
    refine or_congr ?_ ?_
    · cases includeUpstream <;> simp [IsWork, and_assoc]
    · rw [List.mem_ite_nil_right, hteardown, Bool.not_eq_true, and_comm (a := task.isSetup = true),
        and_assoc]

theorem filter_matched : dag.tasks.filter
    (·.taskId ∈ (matchedTasks dag selection).map Operator.taskId) = matchedTasks dag selection := by
  cases selection with
  | taskIds ids =>
    refine List.filter_congr fun t ht => ?_
    rw [decide_eq_decide, taskId_mem_matched ht]
    exact and_iff_right ht
  | regex findall =>
    refine List.filter_congr fun t ht => ?_
    rw [Bool.eq_iff_iff, decide_eq_true_iff, taskId_mem_matched ht]
    simp [Matched, ht]

/-- The ids of `matched_tasks` and `also_include_ids`. -/
def coreIds (dag : Dag) (selection : TaskSelection) (includeDownstream includeUpstream : Bool) :
    List TaskId :=
  (matchedTasks dag selection).map Operator.taskId ++
    (matchedTasks dag selection).flatMap (dag.alsoIncludeIds
      ((matchedTasks dag selection).map Operator.taskId) includeDownstream includeUpstream)

theorem coreIds_of_matchedOrBelow (h : MatchedOrBelow dag selection includeDownstream task) :
    task.taskId ∈ coreIds dag selection includeDownstream includeUpstream := by
  rcases h with h | ⟨hdown, t, ht, hrel⟩
  · exact List.mem_append_left _ ((taskId_mem_matched h.1).mpr h)
  · refine List.mem_append_right _ (List.mem_flatMap.mpr ⟨t, mem_matchedTasks.mpr ht, ?_⟩)
    exact (mem_alsoIncludeIds ht.1).mpr (.inl ⟨hdown, task, hrel, .inl rfl⟩)

theorem coreIds_of_alsoInclude {id : TaskId} (h : Matched dag selection task)
    (hid : id ∈ dag.alsoIncludeIds ((matchedTasks dag selection).map Operator.taskId)
      includeDownstream includeUpstream task) :
    id ∈ coreIds dag selection includeDownstream includeUpstream :=
  List.mem_append_right _ (List.mem_flatMap.mpr ⟨task, mem_matchedTasks.mpr h, hid⟩)

/-- The relevant setups of work that is matched or below a matched task, and their teardowns. -/
theorem coreIds_of_relevant {w x : Operator}
    (hw : MatchedOrBelow dag selection includeDownstream w) (hwork : IsWork w)
    (hx : x ∈ dag.getUpstreamsOnlySetupsAndTeardowns w) :
    x.taskId ∈ coreIds dag selection includeDownstream includeUpstream := by
  by_cases hmatched : Matched dag selection w
  · refine coreIds_of_alsoInclude hmatched ((mem_alsoIncludeIds hmatched.1).mpr ?_)
    cases includeUpstream with
    | true =>
      -- all upstreams of the task are included, these among them
      refine .inr (.inl ⟨rfl, x, (mem_getUpstreamsFollowSetups hmatched.1).mpr ?_, rfl⟩)
      obtain ⟨s, hs, rfl | ⟨htd, hne⟩⟩ :=
        (mem_getUpstreamsOnlySetupsAndTeardowns hmatched.1).mp hx
      · exact .inl hs.1
      · exact .inr ⟨s, hs.1, hs.2.1, htd, hne⟩
    | false => exact .inr (.inr (.inl ⟨rfl, hwork, x, hx, rfl⟩))
  · obtain ⟨hdown, t, ht, hrel⟩ := hw.resolve_left hmatched
    have hnot : w.taskId ∉ (matchedTasks dag selection).map Operator.taskId :=
      fun hmem => hmatched ((taskId_mem_matched hrel.1).mp hmem)
    refine coreIds_of_alsoInclude ht ((mem_alsoIncludeIds ht.1).mpr (.inl ⟨hdown, w, hrel, ?_⟩))
    exact .inr ⟨hnot, hwork, x, hx, rfl⟩

theorem MatchedOrBelow.mem (h : MatchedOrBelow dag selection includeDownstream task) :
    task ∈ dag.tasks := by
  rcases h with h | ⟨_, _, _, h⟩ <;> exact h.1

theorem coreIds_of_core (h : Core dag selection includeDownstream includeUpstream task) :
    task.taskId ∈ coreIds dag selection includeDownstream includeUpstream := by
  cases h with
  | matched h => exact coreIds_of_matchedOrBelow h
  | @upstream t _ hup ht hrel =>
    refine coreIds_of_alsoInclude ht ((mem_alsoIncludeIds ht.1).mpr ?_)
    refine .inr (.inl ⟨hup, task, ?_, rfl⟩)
    exact (mem_getUpstreamsFollowSetups ht.1).mpr (.inl hrel)
  | @upstreamTeardown t s _ hup ht hrel hsetup htd =>
    by_cases hne : task.taskId = t.taskId
    · rw [hne]
      exact coreIds_of_matchedOrBelow (.inl ht)
    refine coreIds_of_alsoInclude ht ((mem_alsoIncludeIds ht.1).mpr ?_)
    refine .inr (.inl ⟨hup, task, ?_, rfl⟩)
    exact (mem_getUpstreamsFollowSetups ht.1).mpr (.inr ⟨s, hrel, hsetup, htd, hne⟩)
  | setup hw hwork hs =>
    refine coreIds_of_relevant hw hwork ?_
    exact (mem_getUpstreamsOnlySetupsAndTeardowns hw.mem).mpr ⟨task, hs, .inl rfl⟩
  | @setupTeardown w s _ hw hwork hs htd =>
    by_cases hne : task.taskId = w.taskId
    · rw [hne]
      exact coreIds_of_matchedOrBelow hw
    refine coreIds_of_relevant hw hwork ?_
    exact (mem_getUpstreamsOnlySetupsAndTeardowns hw.mem).mpr ⟨s, hs, .inr ⟨htd, hne⟩⟩
  | @teardown s _ hs hsetup htd =>
    refine coreIds_of_alsoInclude hs ((mem_alsoIncludeIds hs.1).mpr ?_)
    cases includeDownstream with
    | true => exact .inl ⟨rfl, task, htd.relative hs.1, .inl rfl⟩
    | false => exact .inr (.inr (.inr ⟨rfl, hsetup, task, htd, rfl⟩))

theorem core_of_relevant {w x : Operator} (hw : MatchedOrBelow dag selection includeDownstream w)
    (hwork : IsWork w) (hx : x ∈ dag.getUpstreamsOnlySetupsAndTeardowns w) :
    Core dag selection includeDownstream includeUpstream x := by
  obtain ⟨s, hs, rfl | ⟨htd, -⟩⟩ := (mem_getUpstreamsOnlySetupsAndTeardowns hw.mem).mp hx
  · exact .setup hw hwork hs
  · exact .setupTeardown hw hwork hs htd

theorem core_of_coreIds {id : TaskId}
    (h : id ∈ coreIds dag selection includeDownstream includeUpstream) :
    ∃ task, Core dag selection includeDownstream includeUpstream task ∧ task.taskId = id := by
  rcases List.mem_append.mp h with h | h
  · obtain ⟨t, ht, rfl⟩ := List.mem_map.mp h
    exact ⟨t, .matched (.inl (mem_matchedTasks.mp ht)), rfl⟩
  obtain ⟨t, ht, h⟩ := List.mem_flatMap.mp h
  have ht := mem_matchedTasks.mp ht
  rcases (mem_alsoIncludeIds ht.1).mp h with ⟨hdown, rel, hrel, h⟩ | ⟨hup, x, hx, rfl⟩ |
    ⟨-, hwork, x, hx, rfl⟩ | ⟨-, hsetup, x, htd, rfl⟩
  · have hbelow : MatchedOrBelow dag selection includeDownstream rel := .inr ⟨hdown, t, ht, hrel⟩
    rcases h with rfl | ⟨-, hwork, x, hx, rfl⟩
    · exact ⟨rel, .matched hbelow, rfl⟩
    · exact ⟨x, core_of_relevant hbelow hwork hx, rfl⟩
  · rcases (mem_getUpstreamsFollowSetups ht.1).mp hx with hrel | ⟨s, hrel, hsetup, htd, -⟩
    · exact ⟨x, .upstream hup ht hrel, rfl⟩
    · exact ⟨x, .upstreamTeardown hup ht hrel hsetup htd, rfl⟩
  · exact ⟨x, core_of_relevant (.inl ht) hwork hx, rfl⟩
  · exact ⟨x, .teardown ht hsetup htd, rfl⟩

theorem Core.mem (h : Core dag selection includeDownstream includeUpstream task) :
    task ∈ dag.tasks := by
  cases h with
  | matched h => exact h.mem
  | upstream _ _ h => exact h.1
  | upstreamTeardown _ _ _ _ h => exact h.1
  | setup _ _ h => exact h.1.1
  | setupTeardown _ _ _ h => exact h.1
  | teardown _ _ h => exact h.1

/-- **The tasks that make the cut are the selected ones.** -/
theorem mem_subsetTaskIds (id : TaskId) :
    id ∈ subsetTaskIds dag selection includeDownstream includeUpstream includeDirectUpstream ↔
      ∃ task, Selected dag selection includeDownstream includeUpstream includeDirectUpstream task ∧
        task.taskId = id := by
  have heq : subsetTaskIds dag selection includeDownstream includeUpstream includeDirectUpstream =
      coreIds dag selection includeDownstream includeUpstream ++
        if includeDirectUpstream then (dag.tasks.filter (·.taskId ∈ coreIds dag selection
          includeDownstream includeUpstream)).flatMap (·.upstreamTaskIds) else [] := by
    simp only [subsetTaskIds, Dag.subsetIds, filter_matched]
    rfl
  simp only [heq, List.mem_append, List.mem_ite_nil_right, List.mem_flatMap, List.mem_filter,
    decide_eq_true_iff]
  constructor
  · rintro (h | ⟨hdirect, t, ⟨ht, hcore⟩, hid⟩)
    · obtain ⟨task, hcore, hid⟩ := core_of_coreIds h
      exact ⟨task, .inl hcore, hid⟩
    · obtain ⟨t', hcore, htid⟩ := core_of_coreIds hcore
      rw [List.inj_on_of_nodup_map dag.taskIds_nodup hcore.mem ht htid] at hcore
      obtain ⟨task, htask, rfl⟩ := List.mem_map.mp (dag.upstream_mem t ht id hid)
      exact ⟨task, .inr ⟨hdirect, htask, t, hcore, hid⟩, rfl⟩
  · rintro ⟨task, h | ⟨hdirect, -, t, hcore, hid⟩, rfl⟩
    · exact .inl (coreIds_of_core h)
    · exact .inr ⟨hdirect, t, ⟨hcore.mem, coreIds_of_core hcore⟩, hid⟩

end

/-! ## A closed subset -/

open DAGNode

/-- All ids that a group refers to are among these. -/
def TaskGroup.RefersTo (group : TaskGroup) (groupIds : NodeId → Prop) (taskIds : TaskId → Prop) :
    Prop :=
  (∀ id ∈ group.upstreamGroupIds ++ group.downstreamGroupIds, groupIds id) ∧
    ∀ id ∈ group.upstreamTaskIds ++ group.downstreamTaskIds, taskIds id

/-- The ids of the groups of a DAG, the root's among them. -/
def GroupedDag.groupIds (dag : GroupedDag) : List NodeId := dag.groups.map (·.1.groupId)

/-- `subset` is the part of `dag` with the selected tasks: all edges among them, the groups that
they are in, and no reference to what was dropped. -/
structure ClosedSubset (dag : GroupedDag) (selected : TaskId → Prop) (subset : GroupedDag) :
    Prop where
  tasks : ∀ id, id ∈ subset.taskIds ↔ selected id
  edges : ∀ task ∈ subset.tasks, ∃ original ∈ dag.tasks, original.taskId = task.taskId ∧
    ∀ upstream id, id ∈ task.directRelativeIds upstream ↔
      id ∈ original.directRelativeIds upstream ∧ id ∈ subset.taskIds
  tree : subset.root.taskIds.Perm subset.taskIds
  tree_nonempty : ∀ g ∈ groupsOf subset.children, taskIdsOf g.2 ≠ []
  references : ∀ g ∈ subset.groups, g.1.RefersTo
    (fun id => id ∈ dag.groupIds → id ∈ subset.groupIds)
    (fun id => id ∈ dag.taskIds → id ∈ subset.taskIds)
  usedGroupIds : ∀ id ∈ dag.taskIds, some id ∈ subset.usedGroupIds → id ∈ subset.taskIds

section

variable (dag : GroupedDag) (selected : TaskId → Prop)

/-- A task of the group is selected. -/
def HasSelected (g : TaskGroup × List DAGNode) : Prop := ∃ id ∈ taskIdsOf g.2, selected id

/-- The id of the root, or of a group with a selected task. -/
def SelectedGroupId (id : NodeId) : Prop :=
  id = none ∨ ∃ g ∈ groupsOf dag.children, HasSelected selected g ∧ g.1.groupId = id

/-- If two groups with selected tasks have one id, the first refers to nothing that is dropped. -/
def HiddenReferToSelected : Prop :=
  (groupsOf dag.children).Pairwise fun g g' => HasSelected selected g → HasSelected selected g' →
    g.1.groupId = g'.1.groupId → g.1.RefersTo
      (fun id => id ∈ dag.groupIds → SelectedGroupId dag selected id)
      (fun id => id ∈ dag.taskIds → selected id)

end

section

variable {update : TaskGroup → TaskGroup}

/-- What holds of all updated groups holds of the updated groups of a list if it holds of those
that a later one hides. -/
theorem forall_updateLast {P : TaskGroup → Prop} (h : ∀ group, P (update group))
    (groups : List TaskGroup) (later : List NodeId) :
    (∀ group ∈ updateLast update groups later, P group) ↔
      (groups.Pairwise fun group group' => group.groupId = group'.groupId → P group) ∧
        ∀ group ∈ groups, group.groupId ∈ later → P group := by
  induction groups with
  | nil => simp [updateLast]
  | cons group groups ih =>
    rw [updateLast, List.forall_mem_cons, ih, List.pairwise_cons, List.forall_mem_cons, updateGroup]
    by_cases hmem : group.groupId ∈ groups.map (·.groupId) ++ later
    · rw [if_pos hmem]
      grind
    · rw [if_neg hmem]
      grind

end

section

variable {dag : GroupedDag} {kept : TaskId → Bool} {id : TaskId}

theorem hasKept_iff (g : TaskGroup × List DAGNode) :
    hasKept kept g.2 = true ↔ HasSelected (kept · = true) g := List.any_eq_true

theorem mem_keep_taskIds : id ∈ (dag.keep kept).taskIds ↔ id ∈ dag.taskIds ∧ kept id = true := by
  have htasks : (dag.keep kept).taskIds = (dag.tasks.filter (kept ·.taskId)).map Operator.taskId :=
    Dag.map_taskId_restrict _ _
  rw [htasks, Dag.taskIds]
  simp only [List.mem_map, List.mem_filter]
  grind

/-- The groups of the copy, with their references. -/
theorem keep_groups : (dag.keep kept).groups.map (·.1) =
    updateLast (·.intersectionUpdate (dag.keptGroupIds kept) kept)
      (dag.taskGroup :: ((groupsOf dag.children).filter fun g => hasKept kept g.2).map (·.1))
      [] := by
  have hgroups : ((groupsOf dag.children).filter fun g => hasKept kept g.2).map (·.1) =
      (groupsOf (filterChildren kept dag.children)).map (·.1) := by
    rw [groupsOf_filterChildren, List.map_map]
    rfl
  have hchildren : (groupsOf (dag.keep kept).children).map (·.1) = updateLast _ _ [] :=
    groupsOf_updateGroupsOf (filterChildren kept dag.children) []
  rw [hgroups, GroupedDag.groups, GroupedDag.root, groups, List.map_cons, updateLast, hchildren,
    ← groupIdsOf_eq, List.append_nil]
  rfl

theorem keep_groupIds : (dag.keep kept).groupIds = dag.keptGroupIds kept := by
  have hmap : (dag.keep kept).groupIds =
      ((dag.keep kept).groups.map (·.1)).map (·.groupId) := by
    rw [GroupedDag.groupIds, List.map_map]
    rfl
  rw [hmap, keep_groups, updateLast_groupId fun _ => TaskGroup.intersectionUpdate_groupId ..,
    GroupedDag.keptGroupIds, groupIdsOf_eq, groupsOf_filterChildren]
  simp [Function.comp_def]

theorem mem_keptGroupIds {id : NodeId} :
    id ∈ dag.keptGroupIds kept ↔ SelectedGroupId dag (kept · = true) id := by
  rw [GroupedDag.keptGroupIds, groupIdsOf, groupsOf_filterChildren, dag.groupId_root,
    SelectedGroupId]
  simp [hasKept_iff, and_assoc]

/-- What the references of the copied groups come to. -/
theorem keep_references_iff {P : NodeId → Prop} {Q : TaskId → Prop}
    (hP : ∀ id ∈ dag.keptGroupIds kept, P id) (hQ : ∀ id, kept id = true → Q id) :
    (∀ g ∈ (dag.keep kept).groups, g.1.RefersTo P Q) ↔
      (groupsOf dag.children).Pairwise fun g g' => HasSelected (kept · = true) g →
        HasSelected (kept · = true) g' → g.1.groupId = g'.1.groupId → g.1.RefersTo P Q := by
  have hupdate : ∀ group : TaskGroup,
      (group.intersectionUpdate (dag.keptGroupIds kept) kept).RefersTo P Q := by
    intro group
    simp only [TaskGroup.RefersTo, TaskGroup.intersectionUpdate, ← List.filter_append,
      List.mem_filter, decide_eq_true_iff]
    exact ⟨fun id hid => hP id hid.2, fun id hid => hQ id hid.2⟩
  have hmap : (∀ g ∈ (dag.keep kept).groups, g.1.RefersTo P Q) ↔
      ∀ group ∈ (dag.keep kept).groups.map (·.1), group.RefersTo P Q := by simp
  rw [hmap, keep_groups, forall_updateLast hupdate, List.pairwise_cons, List.pairwise_map,
    List.pairwise_filter]
  simp only [hasKept_iff, List.not_mem_nil, false_implies, implies_true, and_true]
  refine and_iff_right fun group hgroup hid => ?_
  -- only the root has no id
  obtain ⟨g, hg, rfl⟩ := List.mem_map.mp hgroup
  have hsome := dag.groupId_isSome g (List.mem_filter.mp hg).1
  rw [← hid, dag.groupId_root] at hsome
  cases hsome

theorem keep_tree_nonempty (g : TaskGroup × List DAGNode)
    (hg : g ∈ groupsOf (dag.keep kept).children) : taskIdsOf g.2 ≠ [] := by
  have hmem := List.mem_map_of_mem (f := fun g : TaskGroup × List DAGNode => taskIdsOf g.2) hg
  rw [GroupedDag.keep, map_children_updateGroupsOf taskIdsOf_updateGroupsOf,
    groupsOf_filterChildren] at hmem
  simp only [List.map_map, List.mem_map, List.mem_filter, Function.comp_apply,
    taskIdsOf_filterChildren] at hmem
  obtain ⟨g', ⟨-, hkept⟩, heq⟩ := hmem
  obtain ⟨id, hid, hk⟩ := List.any_eq_true.mp hkept
  rw [← heq]
  exact List.ne_nil_of_mem (List.mem_filter.mpr ⟨hid, hk⟩)

theorem keep_edges {task : Operator} (h : task ∈ (dag.keep kept).tasks) :
    ∃ original ∈ dag.tasks, original.taskId = task.taskId ∧ ∀ upstream id,
      id ∈ task.directRelativeIds upstream ↔
        id ∈ original.directRelativeIds upstream ∧ id ∈ (dag.keep kept).taskIds := by
  obtain ⟨original, horiginal, rfl⟩ := List.mem_map.mp h
  have hmem := (List.mem_filter.mp horiginal).1
  refine ⟨original, hmem, rfl, fun upstream id => ?_⟩
  have hsub := @Dag.directRelativeIds_sub dag.toDag upstream original hmem id
  have hrestrict : (original.restrict kept).directRelativeIds upstream =
      (original.directRelativeIds upstream).filter kept := by cases upstream <;> rfl
  rw [mem_keep_taskIds, hrestrict, List.mem_filter]
  exact and_congr_right fun hid => (and_iff_right (hsub hid)).symm

theorem keep_usedGroupIds (hid : id ∈ dag.taskIds)
    (hused : some id ∈ (dag.keep kept).usedGroupIds) : id ∈ (dag.keep kept).taskIds := by
  have hnot := (List.mem_filter.mp hused).2
  have htree : id ∈ taskIdsOf dag.children := dag.tree_taskIds.mem_iff.mpr hid
  refine mem_keep_taskIds.mpr ⟨hid, ?_⟩
  by_contra hkept
  have hdropped : some id ∈ ((taskIdsOf dag.children).filter (!kept ·)).map some :=
    List.mem_map_of_mem (List.mem_filter.mpr ⟨htree, by simp [hkept]⟩)
  rw [List.contains_iff_mem.mpr hdropped] at hnot
  cases hnot

/-- `partial_subset` is closed but for references that the dict of the groups hides. -/
theorem keep_closed_iff (hsub : ∀ id, kept id = true → id ∈ dag.taskIds) :
    ClosedSubset dag (kept · = true) (dag.keep kept) ↔
      HiddenReferToSelected dag (kept · = true) := by
  have hmem : ∀ id, id ∈ (dag.keep kept).taskIds ↔ kept id = true := fun id => by
    rw [mem_keep_taskIds]
    exact and_iff_right_of_imp (hsub id)
  have hreferences := @keep_references_iff dag kept
    (fun id => id ∈ dag.groupIds → SelectedGroupId dag (kept · = true) id)
    (fun id => id ∈ dag.taskIds → kept id = true)
    (fun _ hid _ => mem_keptGroupIds.mp hid) (fun _ hid _ => hid)
  rw [HiddenReferToSelected, ← hreferences]
  constructor
  · intro h g hg
    have hrefs := h.references g hg
    simp only [keep_groupIds, mem_keptGroupIds, hmem] at hrefs
    exact hrefs
  · intro h
    refine ⟨hmem, fun task => keep_edges, (dag.keep kept).tree_taskIds, keep_tree_nonempty,
      fun g hg => ?_, fun id => keep_usedGroupIds⟩
    simp only [keep_groupIds, mem_keptGroupIds, hmem]
    exact h g hg

end

/-- **Partial subsets are closed.** The subset has exactly the selected tasks, the edges among them
and the groups that they are in; it refers to nothing that was dropped if and only if no group
that does is hidden by another one of the same id. -/
theorem partialSubset_closed_iff (dag : GroupedDag) (selection : TaskSelection)
    (includeDownstream includeUpstream includeDirectUpstream : Bool) :
    ClosedSubset dag
        (fun id => ∃ task, Selected dag.toDag selection includeDownstream includeUpstream
          includeDirectUpstream task ∧ task.taskId = id)
        (dag.partialSubset selection includeDownstream includeUpstream includeDirectUpstream) ↔
      HiddenReferToSelected dag (fun id => ∃ task, Selected dag.toDag selection includeDownstream
        includeUpstream includeDirectUpstream task ∧ task.taskId = id) := by
  have hkept : (fun id => ∃ task, Selected dag.toDag selection includeDownstream includeUpstream
      includeDirectUpstream task ∧ task.taskId = id) =
      fun id => (subsetTaskIds dag.toDag selection includeDownstream includeUpstream
        includeDirectUpstream).contains id = true := by
    funext id
    rw [List.contains_iff_mem, mem_subsetTaskIds]
  rw [hkept]
  refine keep_closed_iff fun id hid => ?_
  obtain ⟨task, htask, rfl⟩ := (mem_subsetTaskIds id).mp (List.contains_iff_mem.mp hid)
  rcases htask with hcore | ⟨-, hmem, -⟩
  · exact List.mem_map_of_mem hcore.mem
  · exact List.mem_map_of_mem hmem

/-- Two groups with the id 10, the first of which task 3 depends on. -/
def sameIdTwice : GroupedDag where
  tasks := [
    { taskId := 1, downstreamTaskIds := [3], deps_mapped := baseOperatorDeps_unmapped },
    { taskId := 2, deps_mapped := baseOperatorDeps_unmapped },
    { taskId := 3, upstreamTaskIds := [1], deps_mapped := baseOperatorDeps_unmapped }]
  children := [
    .taskGroup { groupId := some 10, downstreamTaskIds := [3] } [.task 1],
    .taskGroup { groupId := some 11 } [.taskGroup { groupId := some 10 } [.task 2]],
    .task 3]

/-- Without task 3, the first group still refers to it. -/
theorem hiddenGroup_not_closed : ¬ClosedSubset sameIdTwice
    (fun id => ∃ task, Selected sameIdTwice.toDag (.taskIds [1, 2]) false false false task ∧
      task.taskId = id)
    (sameIdTwice.partialSubset (.taskIds [1, 2]) false false false) := by
  intro h
  have hrefs := h.references
    ({ groupId := some 10, downstreamTaskIds := [3] }, [.task 1]) (.tail _ (.head _))
  have hdropped : 3 ∉ (sameIdTwice.partialSubset (.taskIds [1, 2]) false false false).taskIds := by
    decide
  exact hdropped (hrefs.2 3 (by decide) (by decide))

end Airflow.Grouping
