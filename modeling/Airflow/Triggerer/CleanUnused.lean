import Airflow.Lib.Sql
import Airflow.State

/-!
# Cleaning up triggers

`Trigger.clean_unused` of `airflow/models/trigger.py`, one transaction, over the columns that it
reads, and what `clear_task_instances` of `airflow/models/taskinstance.py` does to them.
-/

namespace Airflow.CleanUnused

open Sql

/-- A row of `task_instance`; a state of `none` is NULL in the table. -/
structure TaskInstance where
  state : TIState
  triggerId : Option Nat
  deriving DecidableEq

/-- The tables: the ids of the rows of `trigger`, and the task instances. -/
structure Tables where
  triggers : List Nat
  taskInstances : List TaskInstance

/-- The `UPDATE` of `clean_unused`. -/
def removeReferences (rows : List TaskInstance) : List TaskInstance :=
  update
    (fun ti => and (compare (fun a b => a != b) ti.state (some TaskInstanceState.deferred))
      (isNotNull ti.triggerId))
    (fun ti => { ti with triggerId := none }) rows

/-- The `GROUP BY … HAVING count(…) = 0` of `clean_unused`: the ids of triggers without a task
instance. -/
def unusedIds (tables : Tables) : List Nat :=
  let joined := leftJoin (fun id ti => compare (· == ·) (some id) ti.triggerId) tables.triggers
    tables.taskInstances
  tables.triggers.filter fun id =>
    count (fun row => row.2.bind TaskInstance.triggerId) (joined.filter (·.1 == id)) == 0

/-- `Trigger.clean_unused`. -/
def cleanUnused (tables : Tables) : Tables :=
  let updated := { tables with taskInstances := removeReferences tables.taskInstances }
  let ids := unusedIds updated
  { updated with triggers := updated.triggers.filter fun id => !ids.contains id }

/-- What `clear_task_instances` does to a task instance; `hasJob` says that it has a `job_id`. -/
def clear (hasJob : Bool) (ti : TaskInstance) : TaskInstance :=
  if ti.state = some .running then
    if hasJob then { ti with state := some .restarting } else ti
  else { ti with state := none }

/-! ## What is cleaned -/

/-- A trigger is left exactly if a deferred task instance refers to it, and no other one refers to
any. -/
structure Cleaned (before after : Tables) : Prop where
  triggers : ∀ id, id ∈ after.triggers ↔ id ∈ before.triggers ∧
    ∃ ti ∈ after.taskInstances, ti.state = some .deferred ∧ ti.triggerId = some id
  references : ∀ ti ∈ after.taskInstances, ti.state ≠ some .deferred → ti.triggerId = none

/-!
## What the clean-up misses

`state != 'deferred'` is unknown where the state is NULL, so a task instance without a state keeps
its reference, and the trigger stays with it. Everything else is cleaned exactly
(`cleanUnused_iff`).
-/

open Sql

/-! ## The update -/

/-- The reference is removed from an instance with a state that is not deferred. -/
theorem removeReferences_condition {ti : TaskInstance} :
    holds (and (compare (fun a b => a != b) ti.state (some TaskInstanceState.deferred))
      (isNotNull ti.triggerId)) = true ↔
      ti.state ≠ none ∧ ti.state ≠ some .deferred ∧ ti.triggerId ≠ none := by
  rw [holds_and, holds_isNotNull, Bool.and_eq_true, holds_compare, Option.isSome_iff_ne_none,
    ← and_assoc]
  refine and_congr_left fun _ => ?_
  cases hstate : ti.state with
  | none => simp
  | some state => simp

theorem mem_removeReferences {rows : List TaskInstance} {ti : TaskInstance} :
    ti ∈ removeReferences rows ↔ ∃ row ∈ rows, ti.state = row.state ∧
      ti.triggerId = if row.state = none ∨ row.state = some .deferred then row.triggerId
        else none := by
  unfold removeReferences update
  rw [List.mem_map]
  refine exists_congr fun row => and_congr_right fun _ => ?_
  obtain ⟨state, triggerId⟩ := row
  obtain ⟨state', triggerId'⟩ := ti
  by_cases hcond : state ≠ none ∧ state ≠ some .deferred ∧ triggerId ≠ none
  · rw [if_pos (removeReferences_condition.mpr hcond), if_neg (by simp [hcond.1, hcond.2.1])]
    simp [eq_comm]
  · rw [if_neg fun h => hcond (removeReferences_condition.mp h)]
    have hid : (if state = none ∨ state = some .deferred then triggerId else none) = triggerId := by
      by_cases hstate : state = none ∨ state = some .deferred
      · exact if_pos hstate
      · rw [if_neg hstate]
        rw [not_or] at hstate
        by_contra hne
        exact hcond ⟨hstate.1, hstate.2, Ne.symm hne⟩
    simp [hid, eq_comm]

/-! ## The delete -/

theorem mem_unusedIds {tables : Tables} {id : Nat} :
    id ∈ unusedIds tables ↔ id ∈ tables.triggers ∧
      ∀ ti ∈ tables.taskInstances, ti.triggerId ≠ some id := by
  unfold unusedIds
  simp only [List.mem_filter, beq_iff_eq, count_eq_zero]
  refine and_congr_right fun hid => ?_
  constructor
  · intro h ti hti htrigger
    have hjoin : (id, some ti) ∈ leftJoin
        (fun id ti => compare (· == ·) (some id) ti.triggerId) tables.triggers
        tables.taskInstances := by
      refine mem_leftJoin.mpr ⟨hid, hti, holds_compare.mpr ⟨id, id, rfl, htrigger, ?_⟩⟩
      exact beq_self_eq_true id
    have hnone := h _ ⟨hjoin, rfl⟩
    rw [Option.bind_some, htrigger] at hnone
    cases hnone
  · rintro h ⟨id', other⟩ ⟨hjoin, rfl⟩
    cases other with
    | none => rfl
    | some ti =>
      obtain ⟨-, hti, hon⟩ := mem_leftJoin.mp hjoin
      obtain ⟨x, y, hx, hy, heq⟩ := holds_compare.mp hon
      cases hx
      rw [beq_iff_eq] at heq
      exact absurd (heq ▸ hy) (h ti hti)

theorem mem_cleanUnused {tables : Tables} {id : Nat} :
    id ∈ (cleanUnused tables).triggers ↔ id ∈ tables.triggers ∧
      ∃ ti ∈ (cleanUnused tables).taskInstances, ti.triggerId = some id := by
  change id ∈ tables.triggers.filter _ ↔ _
  rw [List.mem_filter, Bool.not_eq_true', ← Bool.not_eq_true, List.contains_iff_mem, mem_unusedIds]
  refine and_congr_right fun hid => ?_
  simp only [hid, true_and, not_forall, ne_eq, not_not, exists_prop]
  rfl

/-- **Unused triggers are exactly cleaned, unless a task instance without a state refers to one.** -/
theorem cleanUnused_iff (tables : Tables) :
    Cleaned tables (cleanUnused tables) ↔
      ∀ ti ∈ tables.taskInstances, ti.state = none → ti.triggerId = none := by
  constructor
  · intro h ti hti hstate
    have hmem : ti ∈ (cleanUnused tables).taskInstances :=
      mem_removeReferences.mpr ⟨ti, hti, rfl, by rw [if_pos (.inl hstate)]⟩
    exact h.references ti hmem (by rw [hstate]; nofun)
  · intro h
    have hreferences : ∀ ti ∈ (cleanUnused tables).taskInstances,
        ti.state ≠ some .deferred → ti.triggerId = none := by
      intro ti hti hstate
      obtain ⟨row, hrow, hsame, htrigger⟩ := mem_removeReferences.mp hti
      rw [htrigger]
      by_cases hnull : row.state = none
      · rw [if_pos (.inl hnull), h row hrow hnull]
      · rw [if_neg]
        rintro (hrow | hrow)
        · exact hnull hrow
        · exact hstate (hsame.trans hrow)
    refine ⟨fun id => ?_, hreferences⟩
    rw [mem_cleanUnused]
    refine and_congr_right fun _ => exists_congr fun ti => and_congr_right fun hti => ?_
    refine ⟨fun htrigger => ⟨?_, htrigger⟩, fun h => h.2⟩
    by_contra hstate
    rw [hreferences ti hti hstate] at htrigger
    cases htrigger

/-- A deferred task instance that is cleared keeps its trigger. -/
theorem clearedInstance_not_cleaned :
    let tables : Tables := ⟨[1], [clear false ⟨some .deferred, some 1⟩]⟩
    ¬Cleaned tables (cleanUnused tables) := by
  intro tables h
  have hti : (⟨none, some 1⟩ : TaskInstance) ∈ (cleanUnused tables).taskInstances := by decide
  exact absurd (h.references _ hti nofun) nofun

end Airflow.CleanUnused
