import Mathlib.Data.Finset.Basic

/-!
# Tables brought up to date by key

A table is a set of rows, each of which has a key. For one key after the other the rows that are
needed and not stored are inserted, and those that are stored and not needed are deleted. Afterwards
the rows of these keys are exactly the needed ones, and the other rows are as before
(`mem_reconcileAll`).
-/

namespace Reconcile

variable {ρ κ : Type*} [DecidableEq ρ] [DecidableEq κ]

/-- `INSERT`, where the whole row is the primary key; `none` if a row is there already. -/
def insertNew (rows new : Finset ρ) : Option (Finset ρ) :=
  if rows ∩ new = ∅ then some (rows ∪ new) else none

/-- The rows of one key are brought up to date, of which those in `stored` are known. -/
def reconcile (rows stored needed : Finset ρ) : Option (Finset ρ) :=
  (insertNew rows (needed \ stored)).map (· \ (stored \ needed))

/-- The rows of several keys, one after the other. -/
def reconcileAll (stored : κ → Finset ρ) (entries : List (κ × Finset ρ)) (rows : Finset ρ) :
    Option (Finset ρ) :=
  entries.foldlM (fun rows e => reconcile rows (stored e.1) e.2) rows

variable {key : ρ → κ} {rows needed : Finset ρ} {k : κ}

/-- **One key.** The rows of the other keys stay. -/
theorem exists_reconcile {stored : Finset ρ} (hstored : ∀ r, r ∈ stored ↔ r ∈ rows ∧ key r = k)
    (hneeded : ∀ r ∈ needed, key r = k) :
    ∃ rows', reconcile rows stored needed = some rows' ∧
      ∀ r, r ∈ rows' ↔ if key r = k then r ∈ needed else r ∈ rows := by
  have hnew : rows ∩ (needed \ stored) = ∅ := by
    refine Finset.eq_empty_of_forall_notMem fun r hr => ?_
    rw [Finset.mem_inter, Finset.mem_sdiff, hstored] at hr
    exact hr.2.2 ⟨hr.1, hneeded r hr.2.1⟩
  refine ⟨(rows ∪ needed \ stored) \ (stored \ needed), ?_, fun r => ?_⟩
  · rw [reconcile, insertNew, if_pos hnew]
    rfl
  · simp only [Finset.mem_sdiff, Finset.mem_union, hstored]
    by_cases hk : key r = k
    · rw [if_pos hk]
      by_cases hr : r ∈ needed <;> by_cases hrow : r ∈ rows <;> simp [hr, hrow, hk]
    · have hr : r ∉ needed := fun hr => hk (hneeded r hr)
      simp [hr, hk]

/-- **All keys.** -/
theorem exists_reconcileAll {stored : κ → Finset ρ} {entries : List (κ × Finset ρ)}
    (hnodup : (entries.map Prod.fst).Nodup)
    (hstored : ∀ e ∈ entries, ∀ r, r ∈ stored e.1 ↔ r ∈ rows ∧ key r = e.1)
    (hneeded : ∀ e ∈ entries, ∀ r ∈ e.2, key r = e.1) :
    ∃ rows', reconcileAll stored entries rows = some rows' ∧
      ∀ r, r ∈ rows' ↔
        if key r ∈ entries.map Prod.fst then ∃ e ∈ entries, e.1 = key r ∧ r ∈ e.2
        else r ∈ rows := by
  induction entries generalizing rows with
  | nil => exact ⟨rows, rfl, fun r => by simp⟩
  | cons e entries ih =>
    rw [List.map_cons, List.nodup_cons] at hnodup
    obtain ⟨rows₁, hstep, hrows₁⟩ :=
      exists_reconcile (hstored e List.mem_cons_self) (hneeded e List.mem_cons_self)
    have hstored' : ∀ e' ∈ entries, ∀ r, r ∈ stored e'.1 ↔ r ∈ rows₁ ∧ key r = e'.1 := by
      intro e' he' r
      rw [hstored e' (List.mem_cons_of_mem e he') r, hrows₁]
      refine and_congr_left fun hr => ?_
      have hne : key r ≠ e.1 := by
        rw [hr]
        exact fun heq => hnodup.1 (heq ▸ List.mem_map_of_mem he')
      rw [if_neg hne]
    obtain ⟨rows', hrest, hrows'⟩ :=
      ih hnodup.2 hstored' fun e' he' => hneeded e' (List.mem_cons_of_mem e he')
    refine ⟨rows', ?_, fun r => ?_⟩
    · rw [reconcileAll, List.foldlM_cons, hstep]
      exact hrest
    · rw [hrows', hrows₁, List.map_cons]
      by_cases hk : key r = e.1
      · have hother : key r ∉ entries.map Prod.fst := hk ▸ hnodup.1
        rw [if_neg hother, if_pos hk, if_pos (List.mem_cons.mpr (.inl hk))]
        constructor
        · exact fun hr => ⟨e, List.mem_cons_self, hk.symm, hr⟩
        · rintro ⟨e', he', heq, hr⟩
          obtain rfl | he' := List.mem_cons.mp he'
          · exact hr
          · exact absurd (heq ▸ List.mem_map_of_mem he') hother
      · rw [if_neg hk]
        have hkeys : key r ∈ e.1 :: entries.map Prod.fst ↔ key r ∈ entries.map Prod.fst := by
          simp [hk]
        have hentry : (∃ e' ∈ e :: entries, e'.1 = key r ∧ r ∈ e'.2) ↔
            ∃ e' ∈ entries, e'.1 = key r ∧ r ∈ e'.2 := by
          simp [Ne.symm hk]
        simp only [hkeys, hentry]

end Reconcile
