import Airflow.Dag.Graph
import Airflow.Lib.Closure

/-!
# The flat relatives of a task are what its edges reach

`Dag.traceRelatives` is the walk of `Closure.trace` over the ids of the DAG, so that
`get_flat_relative_ids` returns exactly the tasks that a path of one or more edges leads to.
-/

namespace Airflow
namespace Dag

variable (dag : Dag)

/-- The direct relatives of the task with this id. -/
def relativesOf (upstream : Bool) (id : TaskId) : List TaskId :=
  ((dag.getTask id).map (·.directRelativeIds upstream)).getD []

/-- There is an edge from `a` to `b`. -/
def Edge (upstream : Bool) : TaskId → TaskId → Prop := Closure.Step (dag.relativesOf upstream)

/-- A path of any number of edges leads from `a` to `b`. -/
def Path (upstream : Bool) : TaskId → TaskId → Prop := Closure.Reaches (dag.relativesOf upstream)

variable {dag} {upstream : Bool} {task : Operator} {id : TaskId}

theorem getTask_self (h : task ∈ dag.tasks) : dag.getTask task.taskId = some task := by
  cases hfind : dag.getTask task.taskId with
  | none =>
    have := List.find?_eq_none.mp hfind task h
    simp at this
  | some t =>
    have hid : t.taskId = task.taskId := by simpa using List.find?_some hfind
    rw [List.inj_on_of_nodup_map dag.taskIds_nodup (List.mem_of_find?_eq_some hfind) h hid]

theorem getTask_isSome (h : id ∈ dag.taskIds) : ∃ task ∈ dag.tasks, dag.getTask id = some task := by
  obtain ⟨task, htask, rfl⟩ := List.mem_map.mp h
  exact ⟨task, htask, getTask_self htask⟩

theorem directRelativeIds_sub (h : task ∈ dag.tasks) :
    task.directRelativeIds upstream ⊆ dag.taskIds := by
  intro id hid
  cases upstream with
  | true => exact dag.upstream_mem task h id hid
  | false => exact dag.downstream_mem task h id hid

theorem relativesOf_sub : dag.relativesOf upstream id ⊆ dag.taskIds := by
  rw [relativesOf]
  cases hfind : dag.getTask id with
  | none => exact List.nil_subset _
  | some task => exact directRelativeIds_sub (List.mem_of_find?_eq_some hfind)

theorem relativesOf_taskId (h : task ∈ dag.tasks) :
    dag.relativesOf upstream task.taskId = task.directRelativeIds upstream := by
  rw [relativesOf, getTask_self h]
  rfl

theorem traceRelatives_eq (fuel : Nat) (relatives taskIdsToTrace : List TaskId) :
    dag.traceRelatives upstream fuel relatives taskIdsToTrace =
      Closure.trace (dag.relativesOf upstream) fuel relatives taskIdsToTrace := by
  induction fuel generalizing relatives taskIdsToTrace with
  | zero => rfl
  | succ fuel ih =>
    simp only [traceRelatives, Closure.trace, ih]
    rfl

/-- **`get_flat_relative_ids` returns what one or more edges lead to.** -/
theorem mem_flatRelativeIds (h : task ∈ dag.tasks) :
    id ∈ dag.flatRelativeIds task upstream ↔
      Relation.TransGen (dag.Edge upstream) task.taskId id := by
  have hlen : dag.tasks.length = dag.taskIds.length := by simp [taskIds]
  rw [flatRelativeIds, traceRelatives_eq, hlen,
    Closure.mem_trace (fun _ _ => relativesOf_sub) (directRelativeIds_sub h),
    Relation.TransGen.head'_iff]
  simp only [Edge, Closure.Step, relativesOf_taskId h]
  rfl

/-! ## Acyclic DAGs -/

variable (dag) in
/-- No task is downstream of itself. -/
def Acyclic : Prop := Closure.Acyclic (dag.relativesOf false)

theorem relativesOf_eq_nil (h : id ∉ dag.taskIds) : dag.relativesOf upstream id = [] := by
  have hnone : dag.getTask id = none := by
    rw [getTask, List.find?_eq_none]
    intro task htask hid
    exact h (List.mem_map.mpr ⟨task, htask, of_decide_eq_true hid⟩)
  rw [relativesOf, hnone]
  rfl

theorem mem_taskIds_of_edge {a b : TaskId} (h : dag.Edge upstream a b) :
    a ∈ dag.taskIds ∧ b ∈ dag.taskIds := by
  refine ⟨?_, relativesOf_sub h⟩
  by_contra hnot
  rw [Edge, Closure.Step, relativesOf_eq_nil hnot] at h
  cases h

theorem Acyclic.wellFounded (h : dag.Acyclic) : WellFounded fun b a => dag.Edge false a b :=
  Closure.Acyclic.wellFounded h fun _ _ hab => (mem_taskIds_of_edge hab).1

/-- Of the tasks with some property there is one that has no direct downstream task with it. -/
theorem Acyclic.exists_last (h : dag.Acyclic) {p : Operator → Prop}
    (hex : ∃ task ∈ dag.tasks, p task) :
    ∃ task ∈ dag.tasks, p task ∧
      ∀ down ∈ dag.tasks, down.taskId ∈ task.downstreamTaskIds → ¬p down := by
  have hlast := Closure.Acyclic.exists_last h (fun _ _ hab => (mem_taskIds_of_edge hab).1)
    (p := fun id => ∃ task ∈ dag.tasks, task.taskId = id ∧ p task)
  obtain ⟨task, htask, hp⟩ := hex
  obtain ⟨id, ⟨task, htask, rfl, hp⟩, hnot⟩ := hlast ⟨task.taskId, task, htask, rfl, hp⟩
  refine ⟨task, htask, hp, fun down hdown hid hpd => ?_⟩
  apply hnot down.taskId _ ⟨down, hdown, rfl, hpd⟩
  rw [relativesOf_taskId htask]
  exact hid

end Dag
end Airflow
