import Mathlib.Data.List.Basic

/-!
# Statements over tables whose columns may be NULL

A comparison with NULL is neither true nor false: conditions have three values, and `WHERE` takes
the rows of which its condition is true. Tables are lists of rows.
-/

namespace Sql

/-- The value of a condition; `none` is unknown. -/
abbrev Ternary := Option Bool

/-- The condition is true, so that `WHERE` takes the row. -/
def holds (condition : Ternary) : Bool := condition == some true

/-- A comparison of two columns, either of which may be NULL. -/
def compare {α β : Type} (r : α → β → Bool) (a : Option α) (b : Option β) : Ternary :=
  match a, b with
  | some a, some b => some (r a b)
  | _, _ => none

/-- `AND`. -/
def and : Ternary → Ternary → Ternary
  | some false, _ | _, some false => some false
  | some true, some true => some true
  | _, _ => none

/-- `IS NOT NULL`. -/
def isNotNull {α : Type} (a : Option α) : Ternary := some a.isSome

@[simp] theorem holds_and (p q : Ternary) : holds (and p q) = (holds p && holds q) := by
  rcases p with _ | _ | _ <;> rcases q with _ | _ | _ <;> rfl

theorem holds_compare {α β : Type} {r : α → β → Bool} {a : Option α} {b : Option β} :
    holds (compare r a b) = true ↔ ∃ x y, a = some x ∧ b = some y ∧ r x y = true := by
  cases a <;> cases b <;> simp [holds, compare]

@[simp] theorem holds_isNotNull {α : Type} (a : Option α) : holds (isNotNull a) = a.isSome := by
  cases a <;> rfl

section
variable {α β γ : Type}

/-- `UPDATE … SET … WHERE …`. -/
def update (condition : α → Ternary) (set : α → α) (rows : List α) : List α :=
  rows.map fun row => if holds (condition row) then set row else row

/-- `LEFT OUTER JOIN … ON …`: a row without partner is joined with NULLs. -/
def leftJoin (on : α → β → Ternary) (rows : List α) (others : List β) : List (α × Option β) :=
  rows.flatMap fun row =>
    match others.filter fun other => holds (on row other) with
    | [] => [(row, none)]
    | partners => partners.map fun other => (row, some other)

/-- `count(…)` of a column: the rows in which it is not NULL. -/
def count (column : α → Option γ) (rows : List α) : Nat := (rows.filter (column · |>.isSome)).length

theorem count_eq_zero {column : α → Option γ} {rows : List α} :
    count column rows = 0 ↔ ∀ row ∈ rows, column row = none := by
  simp [count]

theorem mem_leftJoin {on : α → β → Ternary} {rows : List α} {others : List β} {row : α}
    {other : β} : (row, some other) ∈ leftJoin on rows others ↔
      row ∈ rows ∧ other ∈ others ∧ holds (on row other) = true := by
  unfold leftJoin
  rw [List.mem_flatMap]
  constructor
  · rintro ⟨row', hrow', hmem⟩
    split at hmem
    · simp at hmem
    · obtain ⟨other', hother', heq⟩ := List.mem_map.mp hmem
      cases heq
      exact ⟨hrow', (List.mem_filter.mp hother').1, (List.mem_filter.mp hother').2⟩
  · rintro ⟨hrow, hother, hon⟩
    have hpartner : other ∈ others.filter fun other => holds (on row other) :=
      List.mem_filter.mpr ⟨hother, hon⟩
    refine ⟨row, hrow, ?_⟩
    split
    · rename_i hnil
      rw [hnil] at hpartner
      cases hpartner
    · exact List.mem_map_of_mem hpartner

end

end Sql
