/-!
# Programs over one row

A `RowProgram` reads a row and commits new contents of it, one interaction after the other. Another
party updates the row once, at some moment between the interactions (`disturbed`). A read may lock
the row until the next commit: an update then waits and is made right after it.
-/

/-- A program over a row: it ends, or reads the row and goes on, or commits and goes on. -/
inductive RowProgram (ρ : Type) where
  | done
  | refresh (lockForUpdate : Bool) (next : ρ → RowProgram ρ)
  | commit (row : ρ) (next : RowProgram ρ)

namespace RowProgram

variable {ρ : Type}

/-- The row as the database has it, with an update that waits for its lock. -/
structure Shared (ρ : Type) where
  row : ρ
  locked : Bool := false
  waiting : Option (ρ → ρ) := none

namespace Shared

/-- The row is unlocked, after a commit or at the end. -/
def release (s : Shared ρ) : Shared ρ := { row := (s.waiting.map (· s.row)).getD s.row }

/-- The update of the other party. -/
def update (s : Shared ρ) (u : ρ → ρ) : Shared ρ :=
  if s.locked then { s with waiting := some u } else { s with row := u s.row }

def lock (s : Shared ρ) (lockForUpdate : Bool) : Shared ρ :=
  { s with locked := s.locked || lockForUpdate }

end Shared

/-- The row after the program, without further updates. -/
def finish : RowProgram ρ → Shared ρ → ρ
  | done, s => s.release.row
  | refresh lockForUpdate next, s => (next s.row).finish (s.lock lockForUpdate)
  | commit row next, s => next.finish { s with row }.release

/-- The row after the program, the update being made after `moment` interactions. -/
def disturbed (u : ρ → ρ) : RowProgram ρ → Nat → Shared ρ → ρ
  | p, 0, s => p.finish (s.update u)
  | done, _ + 1, s => s.release.row
  | refresh lockForUpdate next, moment + 1, s =>
    disturbed u (next s.row) moment (s.lock lockForUpdate)
  | commit row next, moment + 1, s => disturbed u next moment { s with row }.release

/-- The program has not ended after `moment` interactions. -/
def Lasts : RowProgram ρ → Nat → Shared ρ → Prop
  | done, _, _ => False
  | _, 0, _ => True
  | refresh lockForUpdate next, moment + 1, s =>
    Lasts (next s.row) moment (s.lock lockForUpdate)
  | commit row next, moment + 1, s => Lasts next moment { s with row }.release

variable {u : ρ → ρ} {s : Shared ρ} {row : ρ} {p : RowProgram ρ} {moment : Nat}

/-- What is committed last, and not under a lock, is what is left. -/
@[simp] theorem finish_commit_done :
    (commit row done).finish s = (s.waiting.map (· row)).getD row := by
  cases h : s.waiting <;> simp [finish, Shared.release, h]

@[simp] theorem waiting_lock (b : Bool) : (s.lock b).waiting = s.waiting := rfl

@[simp] theorem row_lock (b : Bool) : (s.lock b).row = s.row := rfl

@[simp] theorem locked_lock (b : Bool) : (s.lock b).locked = (s.locked || b) := rfl

/-- An update of an unlocked row is made at once. -/
theorem update_of_unlocked (h : s.locked = false) : s.update u = { s with row := u s.row } := by
  simp [Shared.update, h]

/-- An update of a locked row waits. -/
theorem update_of_locked (h : s.locked = true) : s.update u = { s with waiting := some u } := by
  simp [Shared.update, h]

/-- **An update before the last commit of an unlocked row is lost.** -/
theorem disturbed_commit_done (h : s.locked = false) (hw : s.waiting = none) :
    (commit row done).disturbed u 0 s = row := by
  rw [disturbed, finish_commit_done, update_of_unlocked h, hw]
  rfl

/-- **An update that waits for the last commit is kept.** -/
theorem disturbed_commit_done_of_locked (h : s.locked = true) :
    (commit row done).disturbed u 0 s = u row := by
  rw [disturbed, finish_commit_done, update_of_locked h]
  rfl

theorem not_lasts_commit_done : ¬ (commit row done).Lasts (moment + 1) s := by
  cases moment <;> exact id

theorem not_lasts_refresh_commit {b : Bool} {f : ρ → ρ} :
    ¬ (refresh b fun row => commit (f row) done).Lasts (moment + 2) s := by
  rw [Lasts]
  exact not_lasts_commit_done

end RowProgram
