import Mathlib.Data.List.Infix

/-!
# Replacing what an alternation matches

An alternation of words goes through a text from left to right. Where some word matches, one that
does is replaced, and the search goes on after it. Whichever of the words is taken, none is left,
if it has no element of the replacement (`not_isInfix_replace`): what is left of the text between
two replacements is where no word matched.
-/

namespace Substitution

variable {α : Type}

/-- An alternation of words. At each place it takes a word that matches, if there is one. -/
structure Alternation (α : Type) where
  words : List (List α)
  take : List α → Option (List α)
  take_mem : ∀ {text word}, take text = some word → word ∈ words ∧ word <+: text
  take_none : ∀ {text}, take text = none → ∀ word ∈ words, ¬ word <+: text

namespace Alternation

/-- The alternation that takes the first word that matches. -/
def first [DecidableEq α] (words : List (List α)) : Alternation α where
  words := words
  take text := words.find? (·.isPrefixOf text)
  take_mem h := ⟨List.mem_of_find?_eq_some h, by
    simpa only [List.isPrefixOf_iff_prefix] using List.find?_some h⟩
  take_none h word hmem := by
    simpa only [List.isPrefixOf_iff_prefix] using List.find?_eq_none.mp h word hmem

variable (self : Alternation α) (replacement : List α)

/-- The text with the matches replaced, the first so many elements left out. -/
def replaceFrom : Nat → List α → List α
  | _, [] => []
  | skip + 1, _ :: text => replaceFrom skip text
  | 0, a :: text =>
    match self.take (a :: text) with
    | some word => replacement ++ replaceFrom (word.length - 1) text
    | none => a :: replaceFrom 0 text

def replace (text : List α) : List α := self.replaceFrom replacement 0 text

variable {self replacement} {word : List α}

theorem isInfix_of_append (hword : word ≠ []) {l l' : List α} (hdisjoint : ∀ a ∈ l, a ∉ word)
    (h : word <:+: l ++ l') : word <:+: l' := by
  induction l with
  | nil => exact h
  | cons a l ih =>
    rcases List.infix_cons_iff.mp h with hprefix | hinfix
    · cases word with
      | nil => exact absurd rfl hword
      | cons b word =>
        obtain rfl := (List.cons_prefix_cons.mp hprefix).1
        exact absurd List.mem_cons_self (hdisjoint _ List.mem_cons_self)
    · exact ih (fun b hb => hdisjoint b (List.mem_cons_of_mem a hb)) hinfix

/-- What the result starts with, before the next replacement, the text starts with. -/
theorem isPrefix_of_replace (hreplacement : replacement ≠ []) {text : List α}
    (hdisjoint : ∀ a ∈ replacement, a ∉ word) (h : word <+: self.replaceFrom replacement 0 text) :
    word <+: text := by
  induction text generalizing word with
  | nil => exact h
  | cons a text ih =>
    cases word with
    | nil => exact List.nil_prefix
    | cons b word =>
      rw [replaceFrom] at h
      cases htake : self.take (a :: text) with
      | some taken =>
        obtain ⟨c, rest, rfl⟩ := List.exists_cons_of_ne_nil hreplacement
        rw [htake] at h
        obtain rfl := (List.cons_prefix_cons.mp h).1
        exact absurd List.mem_cons_self (hdisjoint _ List.mem_cons_self)
      | none =>
        rw [htake] at h
        obtain ⟨rfl, htail⟩ := List.cons_prefix_cons.mp h
        have hdisjoint' : ∀ a ∈ replacement, a ∉ word := fun a ha hmem =>
          hdisjoint a ha (List.mem_cons_of_mem b hmem)
        exact List.cons_prefix_cons.mpr ⟨rfl, ih hdisjoint' htail⟩

theorem not_isInfix_replaceFrom (hmem : word ∈ self.words) (hword : word ≠ [])
    (hreplacement : replacement ≠ []) (hdisjoint : ∀ a ∈ replacement, a ∉ word)
    (skip : Nat) (text : List α) : ¬ word <:+: self.replaceFrom replacement skip text := by
  induction text generalizing skip with
  | nil =>
    intro h
    cases skip <;> exact hword (List.infix_nil.mp h)
  | cons a text ih =>
    cases skip with
    | succ skip => exact ih skip
    | zero =>
      intro h
      cases htake : self.take (a :: text) with
      | some taken =>
        rw [replaceFrom, htake] at h
        exact ih _ (isInfix_of_append hword hdisjoint h)
      | none =>
        have hkeep : self.replaceFrom replacement 0 (a :: text) =
            a :: self.replaceFrom replacement 0 text := by
          rw [replaceFrom, htake]
        rcases List.infix_cons_iff.mp (hkeep ▸ h) with hprefix | hinfix
        · exact self.take_none htake word hmem
            (isPrefix_of_replace hreplacement hdisjoint (hkeep ▸ hprefix))
        · exact ih 0 hinfix

/-- **No word is left.** -/
theorem not_isInfix_replace (hmem : word ∈ self.words) (hword : word ≠ [])
    (hreplacement : replacement ≠ []) (hdisjoint : ∀ a ∈ replacement, a ∉ word)
    (text : List α) : ¬ word <:+: self.replace replacement text :=
  not_isInfix_replaceFrom hmem hword hreplacement hdisjoint 0 text

end Alternation

end Substitution
