import Mathlib.Algebra.BigOperators.Group.List.Lemmas
import Mathlib.Algebra.Ring.Int.Defs
import Mathlib.Algebra.Ring.Nat
import Mathlib.Data.List.Count

/-!
# Quotas

Items of weight `w` are admitted one after the other under keys. `load` is the weight that the
admitted items put on a key, and `Fits within` says that every key with an admitted item has a load
within its quota. An item that still fits keeps `Fits` (`Fits.concat`); this is all that an admission
loop has to check.

`countP_lt` is the progress measure of a loop that restarts with a larger set of excluded items.
-/

namespace Quota

variable {ι κ : Type*} [DecidableEq κ] {key : ι → κ} {w : ι → Int} {within : κ → Int → Prop}

/-- The weight that `items` put on the key `k`. -/
def load (key : ι → κ) (w : ι → Int) (items : List ι) (k : κ) : Int :=
  ((items.filter (key · = k)).map w).sum

@[simp] theorem load_nil (k : κ) : load key w [] k = 0 := rfl

theorem load_concat (items : List ι) (i : ι) (k : κ) :
    load key w (items ++ [i]) k = load key w items k + if key i = k then w i else 0 := by
  unfold load
  by_cases h : key i = k <;> simp [List.filter_append, h]

/-- Items of weight one are counted. -/
theorem load_one (items : List ι) (k : κ) :
    load key (fun _ => 1) items k = items.countP (key · = k) := by
  unfold load
  rw [List.map_const', List.sum_replicate, List.countP_eq_length_filter]
  simp

/-- Every key that has an item carries a load within its quota. -/
def Fits (key : ι → κ) (w : ι → Int) (within : κ → Int → Prop) (items : List ι) : Prop :=
  ∀ k, (∃ i ∈ items, key i = k) → within k (load key w items k)

theorem Fits.nil : Fits key w within [] := by
  rintro k ⟨i, hi, -⟩
  exact absurd hi List.not_mem_nil

/-- An item that its key has room for can be admitted. -/
theorem Fits.concat {items : List ι} {i : ι} (h : Fits key w within items)
    (hi : within (key i) (load key w items (key i) + w i)) : Fits key w within (items ++ [i]) := by
  rintro k ⟨j, hj, hk⟩
  rw [load_concat]
  by_cases hik : key i = k
  · subst hik
    rw [if_pos rfl]
    exact hi
  · rw [if_neg hik, Int.add_zero]
    rcases List.mem_append.1 hj with hj | hj
    · exact h k ⟨j, hj, hk⟩
    · rw [List.mem_singleton.1 hj] at hk
      exact absurd hk hik

/-- Fewer items satisfy a stronger predicate that one of them fails. -/
theorem countP_lt {l : List ι} {p q : ι → Bool} (h : ∀ x ∈ l, p x = true → q x = true) {x : ι}
    (hx : x ∈ l) (hp : p x = false) (hq : q x = true) : l.countP p < l.countP q := by
  obtain ⟨l₁, l₂, rfl⟩ := List.append_of_mem hx
  have h₁ : l₁.countP p ≤ l₁.countP q :=
    List.countP_mono_left fun y hy => h y (List.mem_append_left _ hy)
  have h₂ : l₂.countP p ≤ l₂.countP q :=
    List.countP_mono_left fun y hy => h y (List.mem_append_right _ (List.mem_cons_of_mem _ hy))
  simp only [List.countP_append, List.countP_cons, hp, hq, if_true, Bool.false_eq_true, if_false]
  omega

end Quota
