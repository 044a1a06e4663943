import Airflow.Dag.Proof.Relatives
import Airflow.DagRun.UpstreamRows
import Airflow.Lib.Quota

/-!
# Expected and finished upstreams are counted over the same rows

`_is_relevant_upstream` and the SQL conditions choose the same rows (`isSelected_eq`), so what is
expected is what can be finished, when rows are counted. When no upstream task needs expansion, tasks are
counted in their place, and this agrees when every upstream task has one row
(`countsAgree_iff`).
-/

namespace Airflow

section
variable {dag : Dag} {run : RunData} {s : Session} {ti : TIRef} {task : Operator}
  {rows : List TaskInstanceRow} {row : TaskInstanceRow} {relevantTasks : List Operator}
  {relevantIds : List TaskId}

/-! ## Both choose the same rows -/

theorem conditionsOf_any {upstreamId : TaskId} :
    (conditionsOf dag run s ti task upstreamId).any (·.selects row) = true ↔
      row.taskId = upstreamId ∧ (row.mapIndex < 0 ∨
        (relevantUpstreamMapIndexes dag run s ti task upstreamId).all (·.contains row.mapIndex) =
          true) := by
  rw [conditionsOf]
  cases relevantUpstreamMapIndexes dag run s ti task upstreamId with
  | none => simp [UpstreamCondition.selects]
  | some relevant =>
    cases relevant with
    | index mapIndex =>
      simp only [List.any_cons, List.any_nil, UpstreamCondition.selects, MapIndexes.contains,
        Option.all_some, Bool.or_false, Bool.or_eq_true, decide_eq_true_eq, ← and_or_left,
        @eq_comm _ mapIndex]
    | range start stop =>
      simp only [List.any_cons, List.any_nil, UpstreamCondition.selects, MapIndexes.contains,
        Option.all_some, Bool.or_false, Bool.or_eq_true, decide_eq_true_eq, ← and_or_left,
        ge_iff_le]

theorem isRelevantUpstream_eq_true :
    isRelevantUpstream dag run s ti task relevantIds row = true ↔
      row.taskId ∈ relevantIds ∧
        isRelevantMapIndex dag run s ti task row.taskId row.mapIndex = true := by
  rw [isRelevantUpstream, isRelevantMapIndex]
  by_cases hmem : row.taskId ∈ relevantIds
  · rw [if_neg (by simp [hmem]), and_iff_right hmem]
    split
    · rename_i hgroups
      simp [hgroups]
    · rename_i hgroups
      split
      · rename_i hindex
        simp [hindex]
      · rename_i hindex
        rw [Bool.not_eq_true] at hgroups
        rw [hgroups, decide_eq_false hindex, Bool.false_or, Bool.false_or]
        cases relevantUpstreamMapIndexes dag run s ti task row.taskId with
        | none => simp
        | some relevant => cases relevant <;> simp [MapIndexes.contains]
  · rw [if_pos (by simp [hmem])]
    simp [hmem]

/-- **The conditions select exactly the relevant rows.** -/
theorem isSelected_eq :
    isSelected dag run s ti task relevantTasks row =
      isRelevantUpstream dag run s ti task (relevantTasks.map Operator.taskId) row := by
  rw [Bool.eq_iff_iff, isRelevantUpstream_eq_true, isSelected, iterUpstreamConditions,
    isRelevantMapIndex]
  cases hgroups : task.mappedTaskGroups.isEmpty with
  | true =>
    simp [UpstreamCondition.selects]
  | false =>
    rw [if_neg (by simp), List.any_flatMap, List.any_eq_true, Bool.false_or, Bool.or_eq_true,
      decide_eq_true_eq]
    constructor
    · rintro ⟨upstream, hmem, hany⟩
      obtain ⟨htask, hindex⟩ := conditionsOf_any.mp hany
      rw [htask]
      exact ⟨List.mem_map_of_mem hmem, hindex⟩
    · rintro ⟨hmem, hindex⟩
      obtain ⟨upstream, hupstream, htask⟩ := List.mem_map.mp hmem
      refine ⟨upstream, hupstream, conditionsOf_any.mpr ⟨htask.symm, ?_⟩⟩
      rw [htask]
      exact hindex

theorem sum_taskIdCounts :
    ((taskIdCounts dag run s ti task rows relevantTasks).map Prod.snd).sum =
      rows.countP (isRelevantUpstream dag run s ti task (relevantTasks.map Operator.taskId)) := by
  rw [taskIdCounts, List.map_map]
  have hsum := List.sum_map_count_dedup_eq_length
    ((rows.filter (isSelected dag run s ti task relevantTasks)).map (·.taskId))
  rw [List.length_map, ← List.countP_eq_length_filter] at hsum
  rw [← funext fun row => @isSelected_eq dag run s ti task row relevantTasks]
  exact hsum

/-! ## Counts -/

/-- The rows of different tasks are counted task by task. -/
theorem countP_mem_eq_sum {ids : List TaskId} (hnodup : ids.Nodup) :
    rows.countP (fun row => ids.contains row.taskId) =
      (ids.map fun id => rows.countP fun row => row.taskId = id).sum := by
  induction ids with
  | nil => simp
  | cons id ids ih =>
    obtain ⟨hnotin, hnodup⟩ := List.nodup_cons.mp hnodup
    rw [List.map_cons, List.sum_cons, ← ih hnodup]
    clear ih
    induction rows with
    | nil => rfl
    | cons row rows ihrows =>
      have hrow : (if (id :: ids).contains row.taskId = true then 1 else 0) =
          (if decide (row.taskId = id) = true then 1 else 0) +
            if ids.contains row.taskId = true then 1 else 0 := by
        by_cases hid : row.taskId = id
        · simp [hid, hnotin]
        · simp [hid]
      simp only [List.countP_cons]
      omega

theorem sum_le_length {l : List Nat} (h : ∀ n ∈ l, n ≤ 1) : l.sum ≤ l.length := by
  induction l with
  | nil => exact Nat.le_refl 0
  | cons n l ih =>
    rw [List.forall_mem_cons] at h
    rw [List.sum_cons, List.length_cons]
    have := ih h.2
    omega

theorem sum_eq_length {l : List Nat} (h : ∀ n ∈ l, n ≤ 1) :
    l.sum = l.length ↔ ∀ n ∈ l, n = 1 := by
  induction l with
  | nil => simp
  | cons n l ih =>
    rw [List.forall_mem_cons] at h
    have hle := sum_le_length h.2
    rw [List.sum_cons, List.length_cons, List.forall_mem_cons, ← ih h.2]
    omega

/-! ## What the counts are compared for -/

/-- The row is counted in `upstream`: a condition selects it or, when only tasks are counted, it is
the one row of an upstream task. -/
def IsCounted (dag : Dag) (run : RunData) (s : Session) (ti : TIRef) (task : Operator)
    (rows : List TaskInstanceRow) (relevantTasks : List Operator) (row : TaskInstanceRow) : Prop :=
  if relevantTasks.any (·.needsExpansion) then
    isSelected dag run s ti task relevantTasks row = true
  else row.taskId ∈ relevantTasks.map Operator.taskId ∧
    rows.filter (·.taskId = row.taskId) = [row]

/-- Expected and finished upstreams are counted over the same rows, and what is done is what is
expected exactly when all of these are finished. -/
structure CountsAgree (dag : Dag) (run : RunData) (s : Session) (ti : TIRef) (task : Operator)
    (rows : List TaskInstanceRow) (relevantIds : List TaskId) (relevantTasks : List Operator) :
    Prop where
  counted_iff : ∀ row ∈ rows, isRelevantUpstream dag run s ti task relevantIds row = true ↔
    IsCounted dag run s ti task rows relevantTasks row
  done_le : (upstreamStates dag run s ti task rows relevantIds).done ≤
    expectedUpstreams dag run s ti task rows relevantTasks
  done_eq : (upstreamStates dag run s ti task rows relevantIds).done =
      expectedUpstreams dag run s ti task rows relevantTasks ↔
    ∀ row ∈ rows, isRelevantUpstream dag run s ti task relevantIds row = true →
      State.isFinished row.state = true

theorem done_eq_countP :
    (upstreamStates dag run s ti task rows relevantIds).done =
      rows.countP fun row => isRelevantUpstream dag run s ti task relevantIds row &&
        State.isFinished row.state := by
  rw [upstreamStates, UpstreamTIStates.calculate, List.length_map, List.filter_filter,
    List.countP_eq_length_filter]

theorem done_le_relevant :
    (upstreamStates dag run s ti task rows relevantIds).done ≤
      rows.countP (isRelevantUpstream dag run s ti task relevantIds) := by
  rw [done_eq_countP]
  exact List.countP_mono_left fun row _ h => (Bool.and_eq_true_iff.mp h).1

theorem done_eq_relevant :
    (upstreamStates dag run s ti task rows relevantIds).done =
        rows.countP (isRelevantUpstream dag run s ti task relevantIds) ↔
      ∀ row ∈ rows, isRelevantUpstream dag run s ti task relevantIds row = true →
        State.isFinished row.state = true := by
  rw [done_eq_countP]
  constructor
  · intro heq row hrow hrelevant
    by_contra hunfinished
    refine absurd heq (Nat.ne_of_lt (Quota.countP_lt (fun row _ h => ?_) hrow ?_ hrelevant))
    · exact (Bool.and_eq_true_iff.mp h).1
    · rw [hrelevant, Bool.true_and]
      exact Bool.eq_false_iff.mpr hunfinished
  · intro hall
    refine List.countP_congr fun row hrow => ?_
    rw [Bool.and_eq_true, and_iff_left_iff_imp]
    exact hall row hrow

/-! ## Counting rows -/

theorem CountsAgree.of_expansion (h : relevantTasks.any (·.needsExpansion) = true) :
    CountsAgree dag run s ti task rows (relevantTasks.map Operator.taskId) relevantTasks := by
  have hexpected : expectedUpstreams dag run s ti task rows relevantTasks =
      rows.countP
        (isRelevantUpstream dag run s ti task (relevantTasks.map Operator.taskId)) := by
    rw [expectedUpstreams, h, if_neg (by simp), sum_taskIdCounts]
  refine ⟨fun row _ => ?_, ?_, ?_⟩
  · rw [IsCounted, if_pos h, isSelected_eq]
  · rw [hexpected]
    exact done_le_relevant
  · rw [hexpected]
    exact done_eq_relevant

/-! ## Counting tasks -/

/-- Without expansion, all rows of the upstream tasks are relevant. -/
theorem isRelevantUpstream_of_simple (hsub : ∀ t ∈ relevantTasks, t ∈ dag.tasks)
    (h : relevantTasks.any (·.needsExpansion) = false) :
    isRelevantUpstream dag run s ti task (relevantTasks.map Operator.taskId) row =
      (relevantTasks.map Operator.taskId).contains row.taskId := by
  rw [Bool.eq_iff_iff, isRelevantUpstream_eq_true, List.contains_iff_mem, and_iff_left_iff_imp]
  intro hmem
  obtain ⟨upstream, hupstream, htask⟩ := List.mem_map.mp hmem
  have hsimple : upstream.needsExpansion = false := by
    rw [List.any_eq_false] at h
    exact Bool.eq_false_iff.mpr (h upstream hupstream)
  have hgroups : upstream.mappedTaskGroups = [] := by
    simp [Operator.needsExpansion] at hsimple
    exact hsimple.2
  have hall : relevantUpstreamMapIndexes dag run s ti task row.taskId = none := by
    rw [relevantUpstreamMapIndexes, ← htask, Dag.getTask_self (hsub upstream hupstream)]
    cases task.getMappedTiCount run s with
    | error e => rfl
    | ok tiCount =>
      simp only [getRelevantUpstreamMapIndexes, findCommonAncestorMappedGroup, hgroups,
        List.dropWhile_nil, ite_self]
  rw [isRelevantMapIndex, hall]
  simp

/-- Every upstream task has at most one row, and when all of these are finished, each has one. -/
def OneRowEach (rows : List TaskInstanceRow) (ids : List TaskId) : Prop :=
  (∀ id ∈ ids, (rows.filter (·.taskId = id)).length ≤ 1) ∧
    ((∀ row ∈ rows, row.taskId ∈ ids → State.isFinished row.state = true) →
      ∀ id ∈ ids, ∃ row ∈ rows, row.taskId = id)

theorem countP_row_le {ids : List TaskId} (hone : ∀ id ∈ ids,
    (rows.filter (·.taskId = id)).length ≤ 1) :
    ∀ n ∈ ids.map fun id => rows.countP fun row => row.taskId = id, n ≤ 1 := by
  rw [List.forall_mem_map]
  intro id hid
  rw [List.countP_eq_length_filter]
  exact hone id hid

/-- When each upstream task has at most one row, no more than the tasks are relevant. -/
theorem relevant_le {ids : List TaskId} (hnodup : ids.Nodup)
    (hone : ∀ id ∈ ids, (rows.filter (·.taskId = id)).length ≤ 1) :
    rows.countP (fun row => ids.contains row.taskId) ≤ ids.length := by
  rw [countP_mem_eq_sum hnodup]
  refine (sum_le_length (countP_row_le hone)).trans ?_
  rw [List.length_map]

theorem relevant_eq {ids : List TaskId} (hnodup : ids.Nodup)
    (hone : ∀ id ∈ ids, (rows.filter (·.taskId = id)).length ≤ 1) :
    rows.countP (fun row => ids.contains row.taskId) = ids.length ↔
      ∀ id ∈ ids, ∃ row ∈ rows, row.taskId = id := by
  have hsum := sum_eq_length (countP_row_le hone)
  rw [List.length_map] at hsum
  rw [countP_mem_eq_sum hnodup, hsum, List.forall_mem_map]
  refine forall₂_congr fun id hid => ?_
  have hle := countP_row_le hone _ (List.mem_map_of_mem hid)
  have hpos : 0 < rows.countP (fun row => row.taskId = id) ↔ ∃ row ∈ rows, row.taskId = id := by
    rw [List.countP_pos_iff]
    simp only [decide_eq_true_eq]
  rw [← hpos]
  omega

/-- **When tasks are counted, the counts agree exactly when every upstream task has one row**, or
at most one and an upstream row is unfinished. -/
theorem countsAgree_iff_oneRowEach (hsub : ∀ t ∈ relevantTasks, t ∈ dag.tasks)
    (hnodup : (relevantTasks.map Operator.taskId).Nodup)
    (h : relevantTasks.any (·.needsExpansion) = false) :
    CountsAgree dag run s ti task rows (relevantTasks.map Operator.taskId) relevantTasks ↔
      OneRowEach rows (relevantTasks.map Operator.taskId) := by
  have hrelevant : isRelevantUpstream dag run s ti task (relevantTasks.map Operator.taskId) =
      fun row => (relevantTasks.map Operator.taskId).contains row.taskId :=
    funext fun row => isRelevantUpstream_of_simple hsub h
  have hexpected : expectedUpstreams dag run s ti task rows relevantTasks =
      (relevantTasks.map Operator.taskId).length := by
    rw [expectedUpstreams, h, if_pos (by simp), List.length_map]
  have hdone_le := @done_le_relevant dag run s ti task rows (relevantTasks.map Operator.taskId)
  have hdone_eq := @done_eq_relevant dag run s ti task rows (relevantTasks.map Operator.taskId)
  simp only [hrelevant, List.contains_iff_mem] at hdone_le hdone_eq
  constructor
  · rintro ⟨hcounted, -, hdone⟩
    rw [hrelevant, hexpected] at hdone
    simp only [List.contains_iff_mem] at hdone
    have hone : ∀ id ∈ relevantTasks.map Operator.taskId,
        (rows.filter (·.taskId = id)).length ≤ 1 := by
      intro id hid
      cases hfilter : rows.filter (·.taskId = id) with
      | nil => exact Nat.zero_le 1
      | cons row rest =>
        have hmem : row ∈ rows.filter (·.taskId = id) := hfilter ▸ List.mem_cons_self
        obtain ⟨hrow, htask⟩ := List.mem_filter.mp hmem
        rw [decide_eq_true_eq] at htask
        have hcount := (hcounted row hrow).mp (by rw [hrelevant]; simpa [htask] using hid)
        rw [IsCounted, if_neg (by simp [h]), htask] at hcount
        rw [← hfilter, hcount.2]
        exact Nat.le_refl 1
    refine ⟨hone, fun hall => (relevant_eq hnodup hone).mp ?_⟩
    have heq := hdone.mpr hall
    have hle := relevant_le hnodup hone
    omega
  · rintro ⟨hone, hmissing⟩
    have hle := relevant_le hnodup hone
    refine ⟨fun row hrow => ?_, ?_, ?_⟩
    · rw [hrelevant, IsCounted, if_neg (by simp [h]), List.contains_iff_mem,
        iff_self_and]
      intro hid
      have hmem : row ∈ rows.filter (·.taskId = row.taskId) :=
        List.mem_filter.mpr ⟨hrow, by simp⟩
      have hlength := hone row.taskId hid
      obtain ⟨a, ha⟩ : ∃ a, rows.filter (·.taskId = row.taskId) = [a] :=
        List.length_eq_one_iff.mp (by have := List.length_pos_of_mem hmem; omega)
      rw [ha, List.mem_singleton] at hmem
      rw [ha, hmem]
    · rw [hexpected]
      exact hdone_le.trans hle
    · rw [hexpected, hrelevant]
      simp only [List.contains_iff_mem]
      rw [← hdone_eq]
      constructor
      · intro heq
        omega
      · intro heq
        rw [heq, relevant_eq hnodup hone]
        exact hmissing (hdone_eq.mp heq)

theorem countsAgree_iff_of_subset (hsub : ∀ t ∈ relevantTasks, t ∈ dag.tasks)
    (hnodup : (relevantTasks.map Operator.taskId).Nodup) :
    CountsAgree dag run s ti task rows (relevantTasks.map Operator.taskId) relevantTasks ↔
      relevantTasks.any (·.needsExpansion) = true ∨
        OneRowEach rows (relevantTasks.map Operator.taskId) := by
  cases h : relevantTasks.any (·.needsExpansion) with
  | true => exact iff_of_true (.of_expansion h) (.inl rfl)
  | false =>
    rw [countsAgree_iff_oneRowEach hsub hnodup h, or_iff_right (by simp)]

/-! ## Direct upstream tasks and indirect setups -/

theorem isRelevantUpstream_congr {ids ids' : List TaskId} (h : ∀ id, id ∈ ids ↔ id ∈ ids') :
    isRelevantUpstream dag run s ti task ids = isRelevantUpstream dag run s ti task ids' := by
  funext row
  rw [Bool.eq_iff_iff, isRelevantUpstream_eq_true, isRelevantUpstream_eq_true, h]

theorem CountsAgree.congr {ids ids' : List TaskId} (h : ∀ id, id ∈ ids ↔ id ∈ ids')
    (hagree : CountsAgree dag run s ti task rows ids relevantTasks) :
    CountsAgree dag run s ti task rows ids' relevantTasks := by
  have hrelevant := @isRelevantUpstream_congr dag run s ti task ids ids' h
  have hstates : upstreamStates dag run s ti task rows ids =
      upstreamStates dag run s ti task rows ids' := by
    rw [upstreamStates, upstreamStates, hrelevant]
  refine ⟨?_, ?_, ?_⟩
  · rw [← hrelevant]
    exact hagree.counted_iff
  · rw [← hstates]
    exact hagree.done_le
  · rw [← hstates, ← hrelevant]
    exact hagree.done_eq

theorem OneRowEach.congr {ids ids' : List TaskId} (h : ∀ id, id ∈ ids ↔ id ∈ ids') :
    OneRowEach rows ids ↔ OneRowEach rows ids' := by
  simp only [OneRowEach, h]

theorem mem_upstreamList_iff (htask : task ∈ dag.tasks) {id : TaskId} :
    id ∈ (dag.upstreamList task).map Operator.taskId ↔ id ∈ task.upstreamTaskIds := by
  rw [Dag.upstreamList, List.mem_map]
  constructor
  · rintro ⟨t, ht, rfl⟩
    simpa using (List.mem_filter.mp ht).2
  · intro hid
    obtain ⟨t, ht, rfl⟩ := List.mem_map.mp (dag.upstream_mem task htask id hid)
    exact ⟨t, List.mem_filter.mpr ⟨ht, by simpa using hid⟩, rfl⟩

theorem nodup_filter_tasks (p : Operator → Bool) :
    ((dag.tasks.filter p).map Operator.taskId).Nodup :=
  dag.taskIds_nodup.sublist (List.filter_sublist.map _)

/-- **Expected and finished upstreams of an instance are counted over the same rows exactly when
rows are counted or every direct upstream task has one row**, or at most one and an upstream row is
unfinished. -/
theorem countsAgree_iff (htask : task ∈ dag.tasks) :
    CountsAgree dag run s ti task rows task.upstreamTaskIds (dag.upstreamList task) ↔
      (dag.upstreamList task).any (·.needsExpansion) = true ∨
        OneRowEach rows task.upstreamTaskIds := by
  have hmem : ∀ id, id ∈ task.upstreamTaskIds ↔ id ∈ (dag.upstreamList task).map Operator.taskId :=
    fun id => (mem_upstreamList_iff htask).symm
  have hiff := @countsAgree_iff_of_subset dag run s ti task rows (dag.upstreamList task)
    (fun _ ht => (List.mem_filter.mp ht).1) (nodup_filter_tasks _)
  rw [OneRowEach.congr hmem, ← hiff]
  exact ⟨.congr hmem, .congr fun id => (hmem id).symm⟩

/-- The same of the indirect setups of an instance. -/
theorem countsAgree_indirectSetups_iff :
    CountsAgree dag run s ti task rows ((indirectSetups dag task).map Operator.taskId)
        (indirectSetups dag task) ↔
      (indirectSetups dag task).any (·.needsExpansion) = true ∨
        OneRowEach rows ((indirectSetups dag task).map Operator.taskId) :=
  countsAgree_iff_of_subset (fun _ ht => (List.mem_filter.mp ht).1) (nodup_filter_tasks _)

/-! ## The counts of a decision round -/

theorem countP_rowsOf_load (table : TaskInstanceTable) (t : TaskId) (p : Int → Bool) :
    ((Session.load table).rowsOf t).countP (fun up => p up.mapIndex) =
      table.rows.countP fun row => row.taskId = t && p row.mapIndex := by
  rw [Session.rowsOf, Session.load, List.countP_filter, List.countP_map, List.countP_filter]
  refine List.countP_congr fun row _ => ?_
  simp [TaskInstanceRow.load, and_comm]

/-- What a decision round expects is what the conditions select. -/
theorem upstreamCount_load (table : TaskInstanceTable)
    (hnodup : (relevantTasks.map Operator.taskId).Nodup) :
    upstreamCount dag run (Session.load table) ti task relevantTasks =
      expectedUpstreams dag run (Session.load table) ti task table.rows relevantTasks := by
  rw [upstreamCount, expectedUpstreams]
  split
  · rfl
  · have hrelevant : table.rows.countP (isRelevantUpstream dag run (Session.load table) ti task
          (relevantTasks.map Operator.taskId)) =
        (table.rows.filter fun row =>
          isRelevantMapIndex dag run (Session.load table) ti task row.taskId row.mapIndex).countP
            fun row => (relevantTasks.map Operator.taskId).contains row.taskId := by
      rw [List.countP_filter]
      refine List.countP_congr fun row _ => ?_
      rw [isRelevantUpstream_eq_true, Bool.and_eq_true, List.contains_iff_mem]
    rw [sum_taskIdCounts, hrelevant, countP_mem_eq_sum hnodup, List.map_map]
    congr 1
    refine List.map_congr_left fun t _ => ?_
    rw [taskIdCount, countP_rowsOf_load table t.taskId
      (isRelevantMapIndex dag run (Session.load table) ti task t.taskId), Function.comp_apply,
      List.countP_filter]
    refine List.countP_congr fun row _ => ?_
    rw [Bool.and_eq_true, Bool.and_eq_true, decide_eq_true_eq]
    exact and_congr_right fun h => by rw [h]

end

/-! ## An upstream task without a row -/

/-- Task `2` after the tasks `0` and `1`, all unmapped. -/
def joinDag : Dag where
  tasks := [
    { taskId := 0, downstreamTaskIds := [2], deps_mapped := baseOperatorDeps_unmapped },
    { taskId := 1, downstreamTaskIds := [2], deps_mapped := baseOperatorDeps_unmapped },
    { taskId := 2, upstreamTaskIds := [0, 1], deps_mapped := baseOperatorDeps_unmapped }]

def joinTask : Operator :=
  { taskId := 2, upstreamTaskIds := [0, 1], deps_mapped := baseOperatorDeps_unmapped }

/-- The instance of task `2`. -/
def joinTi : TIRef := ⟨2, 0⟩

/-- No instance of task `1` was created: it starts later than the run. -/
def lateStart : TaskInstanceTable where
  rows := [⟨0, -1, some .success, false, false, false⟩, ⟨2, -1, none, false, false, false⟩]

/-- Task `0` has the rows of an earlier version of the DAG, in which it was mapped. -/
def formerlyMapped : TaskInstanceTable where
  rows := [⟨0, 0, some .success, false, false, false⟩, ⟨0, 1, some .success, false, false, false⟩,
    ⟨0, 2, some .success, false, false, false⟩, ⟨1, -1, none, false, false, false⟩,
    ⟨2, -1, none, false, false, false⟩]

/-- Without a row, a task is still waited for; with several, the others are not waited for. -/
theorem lateStart_formerlyMapped :
    (upstreamStates joinDag {} (.load lateStart) joinTi joinTask lateStart.rows [0, 1]).done = 1 ∧
      expectedUpstreams joinDag {} (.load lateStart) joinTi joinTask lateStart.rows
        (joinDag.upstreamList joinTask) = 2 ∧
      (∀ row ∈ lateStart.rows,
        isRelevantUpstream joinDag {} (.load lateStart) joinTi joinTask [0, 1] row = true →
          State.isFinished row.state = true) ∧
      (upstreamStates joinDag {} (.load formerlyMapped) joinTi joinTask formerlyMapped.rows
        [0, 1]).done = 3 ∧
      expectedUpstreams joinDag {} (.load formerlyMapped) joinTi joinTask formerlyMapped.rows
        (joinDag.upstreamList joinTask) = 2 := by
  decide

/-- One row each, and one unfinished. -/
def oneEach : TaskInstanceTable where
  rows := [⟨0, -1, some .success, false, false, false⟩, ⟨1, -1, none, false, false, false⟩,
    ⟨2, -1, none, false, false, false⟩]

theorem oneEach_countsAgree : CountsAgree joinDag {} (.load oneEach) joinTi joinTask oneEach.rows
    [0, 1] (joinDag.upstreamList joinTask) := by
  refine (countsAgree_iff ?_).mpr (.inr ⟨by decide, by decide⟩)
  exact List.mem_cons_of_mem _ (List.mem_cons_of_mem _ (List.mem_singleton_self _))

end Airflow
