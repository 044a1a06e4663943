import Mathlib.Data.List.Chain

/-!
# Dropping equal neighbours

`Neighbours.drop last` goes through a list and drops each element that equals the one before it,
`last` before the first. What is kept has no equal neighbours, and a list without equal neighbours
that was a part of the original is a part of what is kept (`sublist_drop`).
-/

namespace Neighbours

variable {α : Type} [DecidableEq α]

/-- The elements that differ from their predecessor. -/
def drop : Option α → List α → List α
  | _, [] => []
  | last, v :: vs => if last = some v then drop (some v) vs else v :: drop (some v) vs

variable {last : Option α} {l l' : List α} {a v : α}

theorem drop_sublist : (drop last l).Sublist l := by
  induction l generalizing last with
  | nil => exact .slnil
  | cons v vs ih =>
    rw [drop]
    split
    · exact ih.cons v
    · exact ih.cons_cons v

theorem head_drop (h : a ∈ (drop last l).head?) : last ≠ some a := by
  induction l generalizing last with
  | nil => cases h
  | cons v vs ih =>
    rw [drop] at h
    split at h
    · rename_i heq
      exact heq ▸ ih h
    · rename_i hne
      rwa [← Option.some.inj h]

theorem isChain_drop : (drop last l).IsChain (· ≠ ·) := by
  induction l generalizing last with
  | nil => exact .nil
  | cons v vs ih =>
    rw [drop]
    split
    · exact ih
    · rw [List.isChain_cons]
      exact ⟨fun a ha heq => head_drop ha (congrArg some heq), ih⟩

theorem mem_drop (h : a ∈ l) : last = some a ∨ a ∈ drop last l := by
  induction l generalizing last with
  | nil => cases h
  | cons v vs ih =>
    rw [drop]
    split
    · rename_i heq
      rcases List.mem_cons.mp h with rfl | h
      · exact .inl heq
      · rcases ih h with hv | hmem
        · exact .inl (heq.trans hv)
        · exact .inr hmem
    · right
      rcases List.mem_cons.mp h with rfl | h
      · exact List.mem_cons_self
      · rcases @ih (some v) h with hv | hmem
        · obtain rfl := Option.some.inj hv
          exact List.mem_cons_self
        · exact List.mem_cons_of_mem _ hmem

/-- **A part without equal neighbours is kept.** -/
theorem sublist_drop (hchain : l.IsChain (· ≠ ·)) (hsub : l.Sublist l')
    (hhead : ∀ a ∈ l.head?, last ≠ some a) : l.Sublist (drop last l') := by
  induction l' generalizing l last with
  | nil =>
    rw [List.sublist_nil.mp hsub]
    exact .slnil
  | cons v vs ih =>
    rw [drop]
    by_cases hv : ∃ rest, l = v :: rest
    · obtain ⟨rest, rfl⟩ := hv
      rw [List.isChain_cons] at hchain
      rw [if_neg (hhead v rfl)]
      refine (ih hchain.2 (List.cons_sublist_cons.mp hsub) fun a ha heq => ?_).cons_cons v
      exact hchain.1 a ha (Option.some.inj heq)
    · have hvs : l.Sublist vs := by
        cases hsub with
        | cons _ h => exact h
        | cons_cons _ h => exact absurd ⟨_, rfl⟩ hv
      have hrest := ih hchain hvs fun a ha heq => by
        cases l with
        | nil => cases ha
        | cons b rest =>
          obtain rfl := Option.some.inj heq
          obtain rfl := Option.some.inj ha
          exact hv ⟨rest, rfl⟩
      split
      · exact hrest
      · exact hrest.cons v

theorem drop_eq_self (hchain : l.IsChain (· ≠ ·)) (hhead : ∀ a ∈ l.head?, last ≠ some a) :
    drop last l = l :=
  drop_sublist.antisymm (sublist_drop hchain (List.Sublist.refl l) hhead)

/-- A list with each element twice. -/
theorem drop_twice : drop last (l.flatMap fun v => [v, v]) = drop last l := by
  induction l generalizing last with
  | nil => rfl
  | cons v vs ih =>
    rw [List.flatMap_cons]
    change drop last (v :: v :: vs.flatMap fun v => [v, v]) = _
    rw [drop, drop, drop, if_pos rfl, ih]

end Neighbours
