import Airflow.Lib.Closure

/-!
# A search by levels that forgets where it was

`Levels.search` replaces a level by all successors of its nodes until the level holds a node that
is looked for or has no successors. In a graph whose edges go both ways it goes on forever unless
such a node is reached or no node of the first level has a successor (`search_isSome_iff`).
-/

namespace Levels

variable {α : Type} (found : α → Bool) (next : α → List α)

/-- The search, with its number of levels bounded by `fuel`. -/
def search : Nat → List α → Option (List α)
  | 0, _ => none
  | fuel + 1, level =>
    if level.filter found ≠ [] then some (level.filter found)
    else if level.flatMap next = [] then some []
    else search fuel (level.flatMap next)

variable {found next} {fuel : Nat} {level result : List α} {a b : α}

/-- **What is returned is looked for and reached from the level.** -/
theorem mem_of_search (h : search found next fuel level = some result) (hb : b ∈ result) :
    found b = true ∧ ∃ a ∈ level, Closure.Reaches next a b := by
  induction fuel generalizing level with
  | zero => cases h
  | succ fuel ih =>
    rw [search] at h
    split at h
    · cases h
      obtain ⟨hmem, hfound⟩ := List.mem_filter.mp hb
      exact ⟨hfound, b, hmem, .refl⟩
    · split at h
      · cases h
        cases hb
      · obtain ⟨hfound, c, hc, hreach⟩ := ih h
        obtain ⟨a, ha, hac⟩ := List.mem_flatMap.mp hc
        exact ⟨hfound, a, ha, .head hac hreach⟩

/-- The search ends if a node that is looked for is reached. -/
theorem search_of_reaches (ha : a ∈ level) (hreach : Closure.Reaches next a b)
    (hfound : found b = true) :
    ∃ fuel result, search found next fuel level = some result ∧ result ≠ [] := by
  induction hreach using Relation.ReflTransGen.head_induction_on generalizing level with
  | refl =>
    have hne : level.filter found ≠ [] :=
      List.ne_nil_of_mem (List.mem_filter.mpr ⟨ha, hfound⟩)
    exact ⟨1, _, by rw [search, if_pos hne], hne⟩
  | @head a c hac _ ih =>
    by_cases hne : level.filter found ≠ []
    · exact ⟨1, _, by rw [search, if_pos hne], hne⟩
    · have hc : c ∈ level.flatMap next := List.mem_flatMap.mpr ⟨a, ha, hac⟩
      obtain ⟨fuel, result, hsearch, hresult⟩ := ih hc
      refine ⟨fuel + 1, result, ?_, hresult⟩
      rw [search, if_neg hne, if_neg (List.ne_nil_of_mem hc), hsearch]

/-- It ends as well if no node of the level has a successor. -/
theorem search_of_isolated (h : ∀ a ∈ level, next a = []) :
    ∃ fuel result, search found next fuel level = some result := by
  have hnil : level.flatMap next = [] := List.flatMap_eq_nil_iff.mpr h
  by_cases hne : level.filter found ≠ []
  · exact ⟨1, _, by rw [search, if_pos hne]⟩
  · exact ⟨1, _, by rw [search, if_neg hne, if_pos hnil]⟩

/-- In a graph whose edges go both ways, a search that ends does so for one of these reasons. -/
theorem reaches_or_isolated {p : α → Prop}
    (hsymm : ∀ a b, p a → b ∈ next a → p b ∧ a ∈ next b) (hlevel : ∀ a ∈ level, p a)
    (h : search found next fuel level = some result) :
    (∃ a ∈ level, ∃ b, Closure.Reaches next a b ∧ found b = true) ∨
      ∀ a ∈ level, next a = [] := by
  induction fuel generalizing level with
  | zero => cases h
  | succ fuel ih =>
    rw [search] at h
    split at h
    · rename_i hne
      obtain ⟨b, hb⟩ := List.exists_mem_of_ne_nil _ hne
      obtain ⟨hmem, hfound⟩ := List.mem_filter.mp hb
      exact .inl ⟨b, hmem, b, .refl, hfound⟩
    · split at h
      · rename_i hnil
        exact .inr (List.flatMap_eq_nil_iff.mp hnil)
      · rename_i hne
        have hnext : ∀ b ∈ level.flatMap next, p b := by
          intro b hb
          obtain ⟨a, ha, hab⟩ := List.mem_flatMap.mp hb
          exact (hsymm a b (hlevel a ha) hab).1
        rcases ih hnext h with ⟨c, hc, b, hreach, hfound⟩ | hisolated
        · obtain ⟨a, ha, hac⟩ := List.mem_flatMap.mp hc
          exact .inl ⟨a, ha, b, .head hac hreach, hfound⟩
        · -- the next level has the nodes of this one as successors
          obtain ⟨b, hb⟩ := List.exists_mem_of_ne_nil _ hne
          obtain ⟨a, ha, hab⟩ := List.mem_flatMap.mp hb
          have hback := (hsymm a b (hlevel a ha) hab).2
          rw [hisolated b hb] at hback
          cases hback

/-- **Where edges go both ways, the search ends if and only if a node that is looked for is
reached or no node of the level has a successor.** -/
theorem search_isSome_iff {p : α → Prop}
    (hsymm : ∀ a b, p a → b ∈ next a → p b ∧ a ∈ next b) (hlevel : ∀ a ∈ level, p a) :
    (∃ fuel result, search found next fuel level = some result) ↔
      (∃ a ∈ level, ∃ b, Closure.Reaches next a b ∧ found b = true) ∨
        ∀ a ∈ level, next a = [] := by
  constructor
  · rintro ⟨fuel, result, h⟩
    exact reaches_or_isolated hsymm hlevel h
  · rintro (⟨a, ha, b, hreach, hfound⟩ | hisolated)
    · obtain ⟨fuel, result, h, -⟩ := search_of_reaches ha hreach hfound
      exact ⟨fuel, result, h⟩
    · exact search_of_isolated hisolated

end Levels
