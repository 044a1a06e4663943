import Airflow.Dag.Graph
import Airflow.Dag.Proof.Relatives
import Mathlib.Algebra.Ring.Int.Defs
import Mathlib.Algebra.BigOperators.Group.Finset.Basic

/-!
# The total priority weight of a task

`get_flat_relative_ids` with its loop as the source runs it, and `priority_weight_total`
(`airflow/models/abstractoperator.py`). The order in which a set is iterated is not observable:
sets are lists without repetitions.
-/

namespace Airflow

/-- `WeightRule`. `weight_rule` of a mapped operator may be any other text. -/
inductive WeightRule where
  | downstream
  | upstream
  | absolute
  | other (rule : String)
  deriving DecidableEq, Repr

/-- What an operator says of its weight, with its defaults. -/
structure PriorityWeight where
  priorityWeight : Int := 1
  weightRule : WeightRule := .downstream

namespace Dag

/-- `dag.task_dict[task_id].get_direct_relative_ids(upstream)`. -/
def directRelativeIdsOf (dag : Dag) (upstream : Bool) (id : TaskId) : List TaskId :=
  ((dag.getTask id).map (·.directRelativeIds upstream)).getD []

/-- `for task_id in task_ids_to_trace`: `relatives` and `task_ids_to_trace_next` after it. -/
def traceTaskIds (dag : Dag) (upstream : Bool) :
    List TaskId → List TaskId → List TaskId → List TaskId × List TaskId
  | [], relatives, next => (relatives, next)
  | id :: ids, relatives, next =>
    if id ∈ relatives then traceTaskIds dag upstream ids relatives next
    else traceTaskIds dag upstream ids (relatives ++ [id])
      (next ++ (dag.directRelativeIdsOf upstream id).filter (· ∉ next))

/-- `while task_ids_to_trace`; `none` when the fuel runs out. -/
def traceLoop (dag : Dag) (upstream : Bool) : Nat → List TaskId → List TaskId → Option (List TaskId)
  | _, [], relatives => some relatives
  | 0, _ :: _, _ => none
  | fuel + 1, id :: ids, relatives =>
    let (relatives, next) := traceTaskIds dag upstream (id :: ids) relatives []
    traceLoop dag upstream fuel next relatives

end Dag

/-- `get_flat_relative_ids`; `dag` is `self.get_dag()`. -/
def getFlatRelativeIds (fuel : Nat) (dag : Option Dag) (task : Operator) (upstream : Bool) :
    Option (List TaskId) :=
  match dag with
  | none => some []
  | some dag => dag.traceLoop upstream fuel (task.directRelativeIds upstream) []

/-- `priority_weight_total`; `weights` is what the operators say of their weights. -/
def priorityWeightTotal (fuel : Nat) (dag : Option Dag) (weights : TaskId → PriorityWeight)
    (task : Operator) : Option Int :=
  let own := weights task.taskId
  let total (upstream : Bool) :=
    match dag with
    | none => some own.priorityWeight
    | some dag =>
      (getFlatRelativeIds fuel (some dag) task upstream).map fun ids =>
        own.priorityWeight + (ids.map fun id => (weights id).priorityWeight).sum
  match own.weightRule with
  | .absolute => some own.priorityWeight
  | .downstream => total false
  | .upstream => total true
  | .other _ => total false

/-!
## The transitive relatives of a task and its total weight are exact

A turn of `traceLoop` is a `Closure.Level`, so that the loop ends with what a path of one or more
edges leads to, in a DAG with cycles too, and each relative once. The total weight is then a sum
over the set of the relatives.
-/

open Closure

namespace Dag

variable {dag : Dag} {upstream : Bool} {task : Operator} {id b : TaskId} {fuel : Nat}
  {ids relatives next : List TaskId}

theorem directRelativeIdsOf_eq : dag.directRelativeIdsOf upstream = dag.relativesOf upstream := rfl

/-! ## One level -/

theorem mem_traceTaskIds_relatives :
    b ∈ (dag.traceTaskIds upstream ids relatives next).1 ↔ b ∈ relatives ∨ b ∈ ids := by
  induction ids generalizing relatives next with
  | nil => simp [traceTaskIds]
  | cons id ids ih =>
    rw [traceTaskIds]
    split
    · rename_i hid
      rw [ih, List.mem_cons]
      constructor
      · rintro (h | h)
        · exact .inl h
        · exact .inr (.inr h)
      · rintro (h | rfl | h)
        · exact .inl h
        · exact .inl hid
        · exact .inr h
    · rw [ih, List.mem_append, List.mem_singleton, List.mem_cons, or_assoc]

theorem traceTaskIds_nodup (h : relatives.Nodup) :
    (dag.traceTaskIds upstream ids relatives next).1.Nodup := by
  induction ids generalizing relatives next with
  | nil => exact h
  | cons id ids ih =>
    rw [traceTaskIds]
    split
    · exact ih h
    · rename_i hid
      refine ih (h.append (List.nodup_singleton id) fun a ha haid => ?_)
      exact hid (List.mem_singleton.mp haid ▸ ha)

theorem mem_traceTaskIds_next :
    b ∈ (dag.traceTaskIds upstream ids relatives next).2 ↔
      b ∈ next ∨ ∃ a ∈ ids, a ∉ relatives ∧ b ∈ dag.relativesOf upstream a := by
  induction ids generalizing relatives next with
  | nil => simp [traceTaskIds]
  | cons id ids ih =>
    rw [traceTaskIds]
    split
    · rename_i hid
      rw [ih]
      refine or_congr_right ⟨?_, ?_⟩
      · rintro ⟨a, ha, hnot, hb⟩
        exact ⟨a, List.mem_cons_of_mem _ ha, hnot, hb⟩
      · rintro ⟨a, ha, hnot, hb⟩
        rcases List.mem_cons.mp ha with rfl | ha
        · exact absurd hid hnot
        · exact ⟨a, ha, hnot, hb⟩
    · rename_i hid
      rw [ih, directRelativeIdsOf_eq]
      constructor
      · rintro (hb | ⟨a, ha, hnot, hb⟩)
        · rcases List.mem_append.mp hb with hb | hb
          · exact .inl hb
          · exact .inr ⟨id, List.mem_cons_self, hid, (List.mem_filter.mp hb).1⟩
        · refine .inr ⟨a, List.mem_cons_of_mem _ ha, fun hmem => hnot ?_, hb⟩
          exact List.mem_append_left _ hmem
      · rintro (hb | ⟨a, ha, hnot, hb⟩)
        · exact .inl (List.mem_append_left _ hb)
        · by_cases hnext : b ∈ next
          · exact .inl (List.mem_append_left _ hnext)
          by_cases haid : a = id
          · subst haid
            refine .inl (List.mem_append_right _ (List.mem_filter.mpr ⟨hb, ?_⟩))
            exact decide_eq_true hnext
          · have ha' := (List.mem_cons.mp ha).resolve_left haid
            refine .inr ⟨a, ha', fun hmem => ?_, hb⟩
            rcases List.mem_append.mp hmem with hmem | hmem
            · exact hnot hmem
            · exact haid (List.mem_singleton.mp hmem)

theorem level_traceTaskIds :
    Level (dag.relativesOf upstream) relatives ids
      (dag.traceTaskIds upstream ids relatives []).1
      (dag.traceTaskIds upstream ids relatives []).2 where
  nodup := traceTaskIds_nodup
  mem_found := fun _ => mem_traceTaskIds_relatives
  mem_next := by
    intro b
    rw [mem_traceTaskIds_next]
    exact or_iff_right List.not_mem_nil

/-! ## The loop -/

/-- **The loop ends with what its frontier reaches**, given a turn for each task and one more. -/
theorem traceLoop_ends (h : Inv (dag.relativesOf upstream) dag.taskIds relatives ids)
    (hfuel : dag.taskIds.length < fuel + relatives.length) :
    ∃ result, dag.traceLoop upstream fuel ids relatives = some result ∧ result.Nodup ∧
      ∀ b, b ∈ result ↔ b ∈ relatives ∨ ∃ a ∈ ids, Reaches (dag.relativesOf upstream) a b := by
  induction fuel generalizing relatives ids with
  | zero =>
    have hle := List.Nodup.length_le_of_subset h.nodup h.found_sub
    omega
  | succ fuel ih =>
    cases ids with
    | nil => exact ⟨relatives, by rw [traceLoop], h.nodup, by simp⟩
    | cons id ids =>
      have hlevel : Level (dag.relativesOf upstream) relatives (id :: ids) _ _ :=
        level_traceTaskIds
      have hinv := hlevel.inv (fun _ _ => relativesOf_sub) h
      simp only [traceLoop, ← hlevel.reaches_iff h]
      generalize dag.traceTaskIds upstream (id :: ids) relatives [] = level at hlevel hinv ⊢
      obtain ⟨found, next⟩ := level
      rcases hlevel.grows h with hnil | hlt
      · obtain rfl : next = [] := hnil
        exact ⟨found, by cases fuel <;> rfl, hinv.nodup, by simp⟩
      · exact ih hinv (by omega)

theorem getFlatRelativeIds_ends (h : task ∈ dag.tasks) (hfuel : dag.taskIds.length < fuel) :
    ∃ ids, getFlatRelativeIds fuel (some dag) task upstream = some ids ∧ ids.Nodup ∧
      ∀ b, b ∈ ids ↔ Relation.TransGen (dag.Edge upstream) task.taskId b := by
  have hinv : Inv (dag.relativesOf upstream) dag.taskIds [] (task.directRelativeIds upstream) :=
    ⟨List.nodup_nil, List.nil_subset _, directRelativeIds_sub h,
      fun _ ha => absurd ha List.not_mem_nil⟩
  obtain ⟨ids, hloop, hnodup, hmem⟩ := traceLoop_ends hinv (Nat.lt_add_right _ hfuel)
  refine ⟨ids, hloop, hnodup, fun b => ?_⟩
  rw [hmem, Relation.TransGen.head'_iff, ← relativesOf_taskId h]
  exact or_iff_right List.not_mem_nil

/-- The loop finds what the walk of the other modules does. -/
theorem getFlatRelativeIds_flatRelativeIds (h : task ∈ dag.tasks)
    (hfuel : dag.taskIds.length < fuel) :
    ∃ ids, getFlatRelativeIds fuel (some dag) task upstream = some ids ∧
      ∀ b, b ∈ ids ↔ b ∈ dag.flatRelativeIds task upstream := by
  obtain ⟨ids, hloop, -, hmem⟩ := @getFlatRelativeIds_ends dag upstream task fuel h hfuel
  exact ⟨ids, hloop, fun b => (hmem b).trans (mem_flatRelativeIds h).symm⟩

end Dag

/-! ## The total weight -/

variable {dag : Dag} {upstream : Bool} {task : Operator} {fuel : Nat}

/-- `WeightRule.DOWNSTREAM` and `WeightRule.UPSTREAM` by the direction they add up. -/
def WeightRule.ofDirection : Bool → WeightRule
  | false => .downstream
  | true => .upstream

theorem priorityWeightTotal_eq {weights : TaskId → PriorityWeight} {ids : List TaskId}
    (hrule : (weights task.taskId).weightRule = .ofDirection upstream)
    (hids : getFlatRelativeIds fuel (some dag) task upstream = some ids) :
    priorityWeightTotal fuel (some dag) weights task =
      some ((weights task.taskId).priorityWeight +
        (ids.map fun id => (weights id).priorityWeight).sum) := by
  cases upstream <;> simp only [priorityWeightTotal, hrule, WeightRule.ofDirection, hids] <;> rfl

/-- **The transitive relatives and the total weight are exact**, in a DAG with cycles too. -/
theorem relatives_weight_exact (h : task ∈ dag.tasks) (upstream : Bool) :
    ∃ bound, ∀ fuel, bound ≤ fuel → ∃ relatives : Finset TaskId,
      (∀ b, b ∈ relatives ↔ Relation.TransGen (dag.Edge upstream) task.taskId b) ∧
      (∃ ids, getFlatRelativeIds fuel (some dag) task upstream = some ids ∧ ids.Nodup ∧
        ids.toFinset = relatives) ∧
      ∀ weights : TaskId → PriorityWeight,
        (weights task.taskId).weightRule = .ofDirection upstream →
        priorityWeightTotal fuel (some dag) weights task =
          some ((weights task.taskId).priorityWeight +
            ∑ id ∈ relatives, (weights id).priorityWeight) := by
  refine ⟨dag.taskIds.length + 1, fun fuel hfuel => ?_⟩
  obtain ⟨ids, hloop, hnodup, hmem⟩ :=
    @Dag.getFlatRelativeIds_ends dag upstream task fuel h hfuel
  refine ⟨ids.toFinset, fun b => ?_, ⟨ids, hloop, hnodup, rfl⟩, fun weights hrule => ?_⟩
  · rw [List.mem_toFinset]
    exact hmem b
  · rw [priorityWeightTotal_eq hrule hloop, List.sum_toFinset _ hnodup]

/-- A diamond: two paths lead from the first task to the last. -/
def joined : Dag where
  tasks := [{ taskId := 0, downstreamTaskIds := [1, 2], deps_mapped := baseOperatorDeps_unmapped },
    { taskId := 1, upstreamTaskIds := [0], downstreamTaskIds := [3],
      deps_mapped := baseOperatorDeps_unmapped },
    { taskId := 2, upstreamTaskIds := [0], downstreamTaskIds := [3],
      deps_mapped := baseOperatorDeps_unmapped },
    { taskId := 3, upstreamTaskIds := [1, 2], deps_mapped := baseOperatorDeps_unmapped }]

theorem relatives_weight_joined :
    ∃ task ∈ joined.tasks, ∃ bound, ∀ fuel, bound ≤ fuel → ∃ relatives : Finset TaskId,
      (∀ b, b ∈ relatives ↔ Relation.TransGen (joined.Edge false) task.taskId b) ∧
      priorityWeightTotal fuel (some joined) (fun _ => {}) task =
        some (1 + ∑ _ ∈ relatives, 1) := by
  have h := List.mem_cons_self (a := joined.tasks.head (by decide)) (l := joined.tasks.tail)
  obtain ⟨bound, hbound⟩ := @relatives_weight_exact joined _ h false
  refine ⟨_, h, bound, fun fuel hfuel => ?_⟩
  obtain ⟨relatives, hmem, -, htotal⟩ := hbound fuel hfuel
  exact ⟨relatives, hmem, htotal (fun _ => {}) rfl⟩

end Airflow
