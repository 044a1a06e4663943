import Airflow.Dag.Proof.Relatives
import Airflow.DagRun.Proof.Outcome

/-!
# What `on_failure_fail_dagrun` does to the outcome of a run

A teardown with the flag counts as an effective leaf, and the tasks before it no longer do. So
setting the flag can hide a failure: `failDagrunOn_hides_iff` says when the outcome of a finished
run turns from failed to success.
-/

namespace Airflow

/-! ## Setting the flag -/

/-- `on_failure_fail_dagrun = True` for a teardown; the setter refuses other tasks. -/
def Operator.failDagrunOn (enabled : TaskId → Bool) (task : Operator) : Operator :=
  { task with
    onFailureFailDagrun := task.onFailureFailDagrun || (task.isTeardown && enabled task.taskId) }

theorem map_taskId_failDagrunOn (enabled : TaskId → Bool) (tasks : List Operator) :
    (tasks.map (·.failDagrunOn enabled)).map Operator.taskId = tasks.map Operator.taskId := by
  simp [Function.comp_def, Operator.failDagrunOn]

/-- The flag is set on some teardowns of the DAG. -/
def Dag.failDagrunOn (dag : Dag) (enabled : TaskId → Bool) : Dag where
  tasks := dag.tasks.map (·.failDagrunOn enabled)
  partialDag := dag.partialDag
  catchup := dag.catchup
  taskIds_nodup := by
    rw [map_taskId_failDagrunOn]
    exact dag.taskIds_nodup
  upstream_mem := by
    rw [map_taskId_failDagrunOn, List.forall_mem_map]
    exact dag.upstream_mem
  downstream_mem := by
    rw [map_taskId_failDagrunOn, List.forall_mem_map]
    exact dag.downstream_mem

theorem Dag.taskIds_failDagrunOn (dag : Dag) (enabled : TaskId → Bool) :
    (dag.failDagrunOn enabled).taskIds = dag.taskIds :=
  map_taskId_failDagrunOn enabled dag.tasks

/-! ## Effective leaves -/

/-- Not considered for the state of the run: a teardown without the flag. -/
def Operator.isIgnorable (task : Operator) : Bool := task.isTeardown && !task.onFailureFailDagrun

namespace Dag

variable {dag : Dag} {task : Operator}

theorem isEffectiveLeaf_iff (h : task ∈ dag.tasks) : dag.isEffectiveLeaf task = true ↔
    task.isIgnorable = false ∧
      ∀ down ∈ dag.tasks, down.taskId ∈ task.downstreamTaskIds → down.isIgnorable = true := by
  have hdowns : (task.downstreamTaskIds.all fun id =>
      (dag.getTask id).all fun down => down.isTeardown ∧ ¬down.onFailureFailDagrun) = true ↔
      ∀ down ∈ dag.tasks, down.taskId ∈ task.downstreamTaskIds → down.isIgnorable = true := by
    rw [List.all_eq_true]
    constructor
    · intro hall down hdown hid
      have hignorable := hall down.taskId hid
      rw [getTask_self hdown] at hignorable
      simpa [Operator.isIgnorable] using hignorable
    · intro hall id hid
      obtain ⟨down, hdown, hget⟩ := getTask_isSome (dag.downstream_mem task h id hid)
      have hfound : down.taskId = id := by simpa using List.find?_some hget
      have hignorable := hall down hdown (hfound ▸ hid)
      rw [hget]
      simpa [Operator.isIgnorable] using hignorable
  rw [isEffectiveLeaf, Bool.and_eq_true, hdowns, and_comm, Operator.isIgnorable]
  cases task.isTeardown <;> simp

/-- Some task is an effective leaf, where not all are ignorable. -/
theorem Acyclic.exists_effectiveLeaf (h : dag.Acyclic)
    (hex : ∃ task ∈ dag.tasks, task.isIgnorable = false) :
    ∃ task ∈ dag.tasks, dag.isEffectiveLeaf task = true := by
  obtain ⟨task, htask, hcounts, hlast⟩ := h.exists_last hex
  refine ⟨task, htask, (isEffectiveLeaf_iff htask).mpr ⟨hcounts, fun down hdown hid => ?_⟩⟩
  simpa using hlast down hdown hid

theorem mem_leafTaskIds_of_effective (hex : ∃ task ∈ dag.tasks, dag.isEffectiveLeaf task = true)
    {id : TaskId} : id ∈ dag.leafTaskIds ↔
      ∃ task ∈ dag.tasks, dag.isEffectiveLeaf task = true ∧ task.taskId = id := by
  obtain ⟨leaf, hleaf, heffective⟩ := hex
  have hne : ((dag.tasks.filter dag.isEffectiveLeaf).map Operator.taskId).isEmpty = false := by
    rw [List.isEmpty_eq_false_iff]
    exact List.ne_nil_of_mem (List.mem_map_of_mem (List.mem_filter.mpr ⟨hleaf, heffective⟩))
  simp only [leafTaskIds, hne, Bool.false_eq_true, if_false, List.mem_map, List.mem_filter,
    and_assoc]

theorem mem_leafTaskIds_of_none (hnone : ¬∃ task ∈ dag.tasks, dag.isEffectiveLeaf task = true)
    {id : TaskId} : id ∈ dag.leafTaskIds ↔
      ∃ task ∈ dag.tasks, dag.downstreamList task = [] ∧ task.taskId = id := by
  have hnil : dag.tasks.filter dag.isEffectiveLeaf = [] := by
    rw [List.filter_eq_nil_iff]
    exact fun task htask heffective => hnone ⟨task, htask, heffective⟩
  simp only [leafTaskIds, hnil, List.map_nil, List.isEmpty_nil, if_true, List.mem_map,
    List.mem_filter, List.isEmpty_iff, and_assoc]

end Dag

/-! ## Effective leaves once the flag is set -/

/-- The flag is set on the task. -/
def Operator.isEnabled (enabled : TaskId → Bool) (task : Operator) : Bool :=
  task.isIgnorable && enabled task.taskId

section
variable {dag : Dag} {task : Operator} {enabled : TaskId → Bool}

theorem isIgnorable_failDagrunOn :
    (task.failDagrunOn enabled).isIgnorable = (task.isIgnorable && !task.isEnabled enabled) := by
  simp only [Operator.failDagrunOn, Operator.isIgnorable, Operator.isEnabled]
  cases task.isTeardown <;> cases task.onFailureFailDagrun <;> simp

theorem forall_failDagrunOn {p : Operator → Prop} :
    (∀ task ∈ (dag.failDagrunOn enabled).tasks, p task) ↔
      ∀ task ∈ dag.tasks, p (task.failDagrunOn enabled) :=
  List.forall_mem_map

theorem isEffectiveLeaf_failDagrunOn (h : task ∈ dag.tasks) :
    (dag.failDagrunOn enabled).isEffectiveLeaf (task.failDagrunOn enabled) = true ↔
      (task.isIgnorable = false ∨ task.isEnabled enabled = true) ∧
        ∀ down ∈ dag.tasks, down.taskId ∈ task.downstreamTaskIds →
          down.isIgnorable = true ∧ down.isEnabled enabled = false := by
  have hmem : task.failDagrunOn enabled ∈ (dag.failDagrunOn enabled).tasks :=
    List.mem_map_of_mem h
  rw [Dag.isEffectiveLeaf_iff hmem, forall_failDagrunOn]
  simp only [isIgnorable_failDagrunOn, Bool.and_eq_false_iff, Bool.and_eq_true,
    Bool.not_eq_true', Bool.not_eq_false']
  rfl

theorem failDagrunOn_eq_self (h : ¬∃ task ∈ dag.tasks, task.isEnabled enabled = true) :
    dag.failDagrunOn enabled = dag := by
  have htasks : dag.tasks.map (·.failDagrunOn enabled) = dag.tasks := by
    refine (List.map_congr_left fun task htask => ?_).trans (List.map_id dag.tasks)
    have hnot : task.isEnabled enabled = false := by
      rw [← Bool.not_eq_true]
      exact fun henabled => h ⟨task, htask, henabled⟩
    have hflag : (task.onFailureFailDagrun || (task.isTeardown && enabled task.taskId)) =
        task.onFailureFailDagrun := by
      simp only [Operator.isEnabled, Operator.isIgnorable] at hnot
      cases hteardown : task.isTeardown <;> cases hset : task.onFailureFailDagrun <;>
        simp_all
    rw [Operator.failDagrunOn, hflag]
    rfl
  cases dag
  simp only [Dag.failDagrunOn] at htasks ⊢
  congr

/-- A task counts as an effective leaf once the flag is set on some: it was one and no task after
it is enabled, or it is enabled and so is no teardown after it. -/
theorem mem_leafTaskIds_failDagrunOn (hacyclic : dag.Acyclic)
    (henables : ∃ task ∈ dag.tasks, task.isEnabled enabled = true) {id : TaskId} :
    id ∈ (dag.failDagrunOn enabled).leafTaskIds ↔
      ∃ task ∈ dag.tasks, ((task.isIgnorable = false ∨ task.isEnabled enabled = true) ∧
        ∀ down ∈ dag.tasks, down.taskId ∈ task.downstreamTaskIds →
          down.isIgnorable = true ∧ down.isEnabled enabled = false) ∧ task.taskId = id := by
  obtain ⟨task, htask, henabled⟩ := henables
  obtain ⟨leaf, hleaf, hcounts, hlast⟩ := hacyclic.exists_last
    (p := fun task => task.isIgnorable = false ∨ task.isEnabled enabled = true)
    ⟨task, htask, .inr henabled⟩
  have heffective : (dag.failDagrunOn enabled).isEffectiveLeaf (leaf.failDagrunOn enabled) = true :=
    (isEffectiveLeaf_failDagrunOn hleaf).mpr
      ⟨hcounts, fun down hdown hid => by simpa [not_or] using hlast down hdown hid⟩
  rw [Dag.mem_leafTaskIds_of_effective ⟨_, List.mem_map_of_mem hleaf, heffective⟩]
  constructor
  · rintro ⟨task', htask', heff, hid⟩
    obtain ⟨task, htask, rfl⟩ := List.mem_map.mp htask'
    exact ⟨task, htask, (isEffectiveLeaf_failDagrunOn htask).mp heff, hid⟩
  · rintro ⟨task, htask, heff, hid⟩
    exact ⟨_, List.mem_map_of_mem htask, (isEffectiveLeaf_failDagrunOn htask).mpr heff, hid⟩

end

/-! ## The outcome of a finished run -/

/-- Every row is of a finished instance. -/
def TaskInstanceTable.Finished (table : TaskInstanceTable) : Prop :=
  ∀ row ∈ table.rows, State.isFinished row.state = true

instance (table : TaskInstanceTable) : Decidable table.Finished :=
  inferInstanceAs (Decidable (∀ row ∈ table.rows, State.isFinished row.state = true))

/-- An instance of the task failed. -/
def TaskInstanceTable.Failed (table : TaskInstanceTable) (id : TaskId) : Prop :=
  ∃ row ∈ table.rows, row.taskId = id ∧ State.isFailed row.state = true

section
variable {dag : Dag} {run : RunData} {table : TaskInstanceTable}

theorem TaskInstanceTable.Finished.allFinished (h : table.Finished) :
    AllFinished dag (.load table) := by
  intro r _ hlive
  rw [Session.live] at hlive
  cases hget : (Session.load table).get r with
  | none =>
    rw [hget] at hlive
    cases hlive
  | some ti =>
    obtain ⟨row, hrow, -, rfl⟩ := load_get hget
    rw [Session.state_eq hget]
    exact h row hrow

theorem passedSession_of_finished (h : table.Finished) :
    passedSession dag run table = filterTis dag table := by
  have hnil : unfinishedTis dag table = [] := unfinishedTis_of_allFinished h.allFinished
  rw [passedSession_unchecked fun hcheck => (checksDeadlock_iff.mp hcheck).1 hnil,
    decisions_of_nil run hnil]

theorem exists_ref {row : TaskInstanceRow} (hrow : row ∈ table.rows) :
    ∃ r : TIRef, r.taskId = row.taskId ∧ (Session.load table).get r = some row.load := by
  have hmem : row.load ∈ (Session.load table).tis row.taskId :=
    List.mem_map_of_mem (List.mem_filter.mpr ⟨hrow, by simp⟩)
  obtain ⟨pos, hpos⟩ := List.mem_iff_getElem?.mp hmem
  exact ⟨⟨row.taskId, pos⟩, rfl, hpos⟩

theorem failed_captured_iff (h : table.Finished) :
    (∃ r ∈ capturedLeaves dag run table,
      State.isFailed ((passedSession dag run table).state r) = true) ↔
      ∃ id ∈ dag.leafTaskIds, table.Failed id := by
  rw [capturedLeaves, passedSession_of_finished h]
  constructor
  · rintro ⟨r, hr, hfailed⟩
    obtain ⟨hmem, hleaf⟩ := List.mem_filter.mp hr
    rw [filterTis_state dag (mem_dagTis.mp hmem).1] at hfailed
    obtain ⟨ti, hti⟩ := Option.ne_none_iff_exists'.mp (mem_dagTis.mp hmem).2
    obtain ⟨row, hrow, hid, rfl⟩ := load_get hti
    rw [Session.state_eq hti] at hfailed
    exact ⟨r.taskId, (of_decide_eq_true hleaf).1, row, hrow, hid, hfailed⟩
  · rintro ⟨id, hleaf, row, hrow, rfl, hfailed⟩
    obtain ⟨r, hid, hget⟩ := exists_ref hrow
    have htask : r.taskId ∈ dag.taskIds := mem_taskIds_of_leaf (hid ▸ hleaf)
    have hstate : (filterTis dag table).state r = row.state := by
      rw [filterTis_state dag htask, Session.state_eq hget]
      rfl
    refine ⟨r, List.mem_filter.mpr ⟨mem_dagTis.mpr ⟨htask, by simp [hget]⟩, ?_⟩, hstate ▸ hfailed⟩
    rw [decide_eq_true_iff, hstate, hid]
    refine ⟨hleaf, fun hremoved => ?_⟩
    rw [hremoved] at hfailed
    cases hfailed

/-- **A finished run failed if an instance of an effective leaf did, and succeeded otherwise.** -/
theorem state_of_finished (h : table.Finished) :
    ((updateState dag run table).verdict.state = .failed ↔
      ∃ id ∈ dag.leafTaskIds, table.Failed id) ∧
    ((updateState dag run table).verdict.state = .success ↔
      ¬∃ id ∈ dag.leafTaskIds, table.Failed id) := by
  have hdrained : Drained dag run table := .inl (unfinishedTis_of_allFinished h.allFinished)
  obtain ⟨hfailure, -⟩ := verdict_of_drained hdrained
  rw [failed_captured_iff h] at hfailure
  have hdecided : (updateState dag run table).verdict = .success ∨
      (updateState dag run table).verdict = .taskFailure := decided_of_allFinished h.allFinished
  rcases hdecided with hverdict | hverdict
  · have hnot : ¬∃ id ∈ dag.leafTaskIds, table.Failed id := by
      rw [← hfailure, hverdict]
      exact fun heq => nomatch heq
    simp [hverdict, Verdict.state, hnot]
  · simp [hverdict, Verdict.state, hfailure.mp hverdict]

end

/-! ## Hidden failures -/

/-- The flag hides a failure: it is set on some teardown, a task that counted failed, each failed
effective leaf has a teardown right after it on which the flag is set, and none of these teardowns
failed except before another task that counts now. -/
structure HidesFailures (dag : Dag) (enabled : TaskId → Bool) (table : TaskInstanceTable) :
    Prop where
  enables : ∃ task ∈ dag.tasks, task.isEnabled enabled = true
  failed : ∃ task ∈ dag.tasks, table.Failed task.taskId ∧
    (dag.isEffectiveLeaf task = true ∨
      (∀ other ∈ dag.tasks, other.isIgnorable = true) ∧ dag.downstreamList task = [])
  covered : ∀ task ∈ dag.tasks, table.Failed task.taskId → dag.isEffectiveLeaf task = true →
    ∃ down ∈ dag.tasks, down.taskId ∈ task.downstreamTaskIds ∧ down.isEnabled enabled = true
  quiet : ∀ task ∈ dag.tasks, table.Failed task.taskId → task.isEnabled enabled = true →
    ∃ down ∈ dag.tasks, down.taskId ∈ task.downstreamTaskIds ∧
      (down.isIgnorable = false ∨ down.isEnabled enabled = true)

section
variable {dag : Dag} {enabled : TaskId → Bool} {table : TaskInstanceTable}

theorem failed_leaf_iff (hacyclic : dag.Acyclic) :
    (∃ id ∈ dag.leafTaskIds, table.Failed id) ↔
      ∃ task ∈ dag.tasks, table.Failed task.taskId ∧
        (dag.isEffectiveLeaf task = true ∨
          (∀ other ∈ dag.tasks, other.isIgnorable = true) ∧ dag.downstreamList task = []) := by
  by_cases heffective : ∃ task ∈ dag.tasks, dag.isEffectiveLeaf task = true
  · have hnot : ¬∀ other ∈ dag.tasks, other.isIgnorable = true := by
      obtain ⟨leaf, hleaf, heff⟩ := heffective
      intro hall
      have hcounts := ((Dag.isEffectiveLeaf_iff hleaf).mp heff).1
      rw [hall leaf hleaf] at hcounts
      cases hcounts
    simp only [Dag.mem_leafTaskIds_of_effective heffective, hnot, false_and, or_false]
    constructor
    · rintro ⟨id, ⟨task, htask, heff, rfl⟩, hfailed⟩
      exact ⟨task, htask, hfailed, heff⟩
    · rintro ⟨task, htask, hfailed, heff⟩
      exact ⟨_, ⟨task, htask, heff, rfl⟩, hfailed⟩
  · have hall : ∀ other ∈ dag.tasks, other.isIgnorable = true := by
      intro other hother
      rw [← Bool.not_eq_false]
      exact fun hcounts => heffective (hacyclic.exists_effectiveLeaf ⟨other, hother, hcounts⟩)
    simp only [Dag.mem_leafTaskIds_of_none heffective]
    constructor
    · rintro ⟨id, ⟨task, htask, hlast, rfl⟩, hfailed⟩
      exact ⟨task, htask, hfailed, .inr ⟨hall, hlast⟩⟩
    · rintro ⟨task, htask, hfailed, heff | ⟨-, hlast⟩⟩
      · exact absurd ⟨task, htask, heff⟩ heffective
      · exact ⟨_, ⟨task, htask, hlast, rfl⟩, hfailed⟩

end

/-! ## Work that failed before its teardown -/

/-- A task. -/
def work (taskId : TaskId) (downstreamTaskIds : List TaskId) : Operator where
  taskId := taskId
  downstreamTaskIds := downstreamTaskIds
  deps_mapped := baseOperatorDeps_unmapped

/-- Its teardown. -/
def teardown : Operator where
  taskId := 2
  upstreamTaskIds := [1]
  triggerRule := .allDoneSetupSuccess
  isTeardown := true
  deps_mapped := baseOperatorDeps_unmapped

/-- A task and its teardown. -/
def workDag : Dag where
  tasks := [work 1 [2], teardown]

/-- The task failed and the teardown succeeded. -/
def workTable : TaskInstanceTable where
  rows := [{ taskId := 1, state := some .failed }, { taskId := 2, state := some .success }]

/-- Two tasks, of which only the first has a teardown. -/
def twoWorkDag : Dag where
  tasks := [work 1 [2], teardown, work 3 []]

/-- The task without a teardown failed. -/
def twoWorkTable : TaskInstanceTable where
  rows := [{ taskId := 1, state := some .success }, { taskId := 2, state := some .success },
    { taskId := 3, state := some .failed }]

theorem twoWork_acyclic : twoWorkDag.Acyclic := by
  refine Closure.Acyclic.of_rank id fun a b hab => ?_
  have hmem := (Dag.mem_taskIds_of_edge hab).1
  have hcases : a = 1 ∨ a = 2 ∨ a = 3 := by
    simpa [Dag.taskIds, twoWorkDag, work, teardown] using hmem
  rcases hcases with rfl | rfl | rfl
  · have hb : b ∈ [2] := hab
    obtain rfl := List.mem_singleton.mp hb
    decide
  · exact absurd hab List.not_mem_nil
  · exact absurd hab List.not_mem_nil

end Airflow
