import Mathlib.Data.List.DropRight

/-!
# Trimming

`strip p` drops at both ends the elements that satisfy `p`, as Python's `str.strip` does for a set
of characters. `Ends q s` says that `s` is not empty and that its first and last elements satisfy
`q`; it is kept by what trimming, cutting and appending do to a string.
-/

namespace Trim

variable {α : Type*} {p q : α → Bool} {s t : List α}

/-- Drops the elements that satisfy `p` at both ends. -/
def strip (p : α → Bool) (s : List α) : List α := (s.dropWhile p).rdropWhile p

/-- The first and the last element are there and satisfy `q`. -/
def Ends (q : α → Bool) (s : List α) : Prop := s.head?.any q = true ∧ s.getLast?.any q = true

instance : Decidable (Ends q s) := inferInstanceAs (Decidable (_ ∧ _))

/-! ## `Ends` -/

theorem Ends.ne_nil (h : Ends q s) : s ≠ [] := by
  rintro rfl
  cases h.1

theorem Ends.mem (h : Ends q s) : ∃ a ∈ s, q a = true := by
  cases s with
  | nil => cases h.1
  | cons a s => exact ⟨a, List.mem_cons_self .., h.1⟩

theorem any_mono {q' : α → Bool} (hq : ∀ a, q a = true → q' a = true) {o : Option α}
    (h : o.any q = true) : o.any q' = true := by
  cases o with
  | none => cases h
  | some a => exact hq a h

theorem Ends.mono {q' : α → Bool} (h : Ends q s) (hq : ∀ a, q a = true → q' a = true) :
    Ends q' s :=
  ⟨any_mono hq h.1, any_mono hq h.2⟩

/-- What begins with one string and ends with another. -/
theorem Ends.append (hs : s.head?.any q = true) (ht : t.getLast?.any q = true) :
    Ends q (s ++ t) := by
  have hsne : s ≠ [] := by
    rintro rfl
    cases hs
  have htne : t ≠ [] := by
    rintro rfl
    cases ht
  refine ⟨?_, ?_⟩
  · rwa [List.head?_append_of_ne_nil _ hsne]
  · rwa [List.getLast?_append_of_ne_nil _ htne]

/-- A cut keeps the first element. -/
theorem head?_take {n : Nat} (hn : n ≠ 0) : (s.take n).head? = s.head? := by
  cases s with
  | nil => rw [List.take_nil]
  | cons a s =>
    cases n with
    | zero => exact absurd rfl hn
    | succ n => rfl

/-! ## `strip` -/

theorem mem_of_mem_strip {a : α} (h : a ∈ strip p s) : a ∈ s :=
  (List.dropWhile_sublist p).subset ((List.rdropWhile_prefix _ _).subset h)

theorem length_strip_le (p : α → Bool) (s : List α) : (strip p s).length ≤ s.length :=
  ((List.rdropWhile_prefix _ _).length_le).trans (List.dropWhile_sublist p).length_le

theorem strip_eq_nil : strip p s = [] ↔ ∀ a ∈ s, p a = true := by
  rw [strip, List.rdropWhile_eq_nil_iff]
  constructor
  · intro h
    rw [← List.dropWhile_eq_nil_iff]
    by_contra hne
    have hhead := List.head_dropWhile_not p hne
    rw [h _ (List.head_mem hne)] at hhead
    cases hhead
  · exact fun h a ha => h a ((List.dropWhile_sublist p).subset ha)

/-- What is left has ends that are not dropped. -/
theorem ends_strip (h : ∃ a ∈ s, p a = false) : Ends (fun a => !p a) (strip p s) := by
  obtain ⟨a, ha, hpa⟩ := h
  have hne : strip p s ≠ [] := by
    intro hnil
    rw [strip_eq_nil.mp hnil a ha] at hpa
    cases hpa
  have hdrop : s.dropWhile p ≠ [] := by
    intro hnil
    refine hne ?_
    rw [strip, hnil, List.rdropWhile_nil]
  refine ⟨?_, ?_⟩
  · obtain ⟨t, ht⟩ := List.rdropWhile_prefix p (s.dropWhile p)
    have happend : (strip p s ++ t).head? = (strip p s).head? :=
      List.head?_append_of_ne_nil _ hne
    have hhead : (s.dropWhile p).head? = (strip p s).head? := by
      rw [← happend]
      exact congrArg List.head? ht.symm
    rw [← hhead, List.head?_eq_some_head hdrop, Option.any_some,
      List.head_dropWhile_not p hdrop]
    rfl
  · have hlast := List.rdropWhile_last_not p (s.dropWhile p) hne
    rw [List.getLast?_eq_some_getLast hne, Option.any_some, Bool.not_eq_true']
    rw [Bool.not_eq_true] at hlast
    exact hlast

end Trim
