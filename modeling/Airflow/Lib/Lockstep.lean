import Mathlib.Data.List.Induction

/-!
# Folds with a history

Rules for an accumulator that is folded along a list, with an invariant that mentions the elements
already visited: `foldl_history` for one fold, and `foldl_lockstep` for two folds of which the
second only visits the elements that satisfy `p`.
-/

namespace Lockstep

variable {α σ τ : Type*} {f : σ → α → σ} {g : τ → α → τ} {L : List α}

/-- An invariant kept by every visit holds at the end of the fold. -/
theorem foldl_history {M : List α → σ → Prop} {s : σ} (hinit : M [] s)
    (hstep : ∀ l a s, l ++ [a] <+: L → M l s → M (l ++ [a]) (f s a)) : M L (L.foldl f s) := by
  have hprefix : ∀ l, l <+: L → M l (l.foldl f s) := by
    intro l
    induction l using List.reverseRecOn with
    | nil => exact fun _ => hinit
    | append_singleton l a ih =>
      intro hl
      rw [List.foldl_append, List.foldl_cons, List.foldl_nil]
      exact hstep l a _ hl (ih ((List.prefix_append l [a]).trans hl))
  exact hprefix L (List.prefix_refl L)

/-- **A relation kept by every visit relates the fold with the one that skips elements.** -/
theorem foldl_lockstep {M : List α → σ → τ → Prop} {p : α → Bool} {s : σ} {t : τ}
    (hinit : M [] s t)
    (hstep : ∀ l a s t, l ++ [a] <+: L → M l s t →
      M (l ++ [a]) (f s a) (if p a then g t a else t)) :
    M L (L.foldl f s) ((L.filter p).foldl g t) := by
  have hprefix : ∀ l, l <+: L → M l (l.foldl f s) ((l.filter p).foldl g t) := by
    intro l
    induction l using List.reverseRecOn with
    | nil => exact fun _ => hinit
    | append_singleton l a ih =>
      intro hl
      have hstep' := hstep l a _ _ hl (ih ((List.prefix_append l [a]).trans hl))
      rw [List.foldl_append, List.filter_append, List.foldl_append, List.foldl_cons,
        List.foldl_nil]
      cases hp : p a with
      | false => simpa [hp] using hstep'
      | true => simpa [hp] using hstep'
  exact hprefix L (List.prefix_refl L)

end Lockstep
