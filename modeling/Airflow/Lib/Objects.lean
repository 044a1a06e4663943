import Mathlib.Data.List.Basic
import Mathlib.Order.Basic

/-!
# Programs that make objects and assign to them

An object has an identity, which a number stands for. A `Program` makes objects under new identities
and notes the identities of the objects it assigns to. `Spares old p post`: `p` returns a value
with `post`, and assigns to no object that was there before `old`.
-/

namespace Objects

/-- The next identity, and the identities of the objects assigned to so far. -/
structure Store where
  next : Nat
  assigned : List Nat := []

abbrev Program (ε α : Type) := StateT Store (Except ε) α

variable {ε α β : Type}

/-- A new object's identity. -/
def make : Program ε Nat := fun s => .ok (s.next, { s with next := s.next + 1 })

/-- An assignment to an attribute of the object `ref`. -/
def assign (ref : Nat) : Program ε Unit := fun s =>
  .ok ((), { s with assigned := s.assigned ++ [ref] })

/-- The program returns, what it returns satisfies `post`, and it assigns only to objects made from
`old` on. -/
def Spares (old : Nat) (p : Program ε α) (post : α → Prop) : Prop :=
  ∀ s, old ≤ s.next → ∃ a s', p s = .ok (a, s') ∧ post a ∧ old ≤ s'.next ∧
    ∀ r ∈ s'.assigned, r ∈ s.assigned ∨ old ≤ r

namespace Spares

variable {old : Nat} {p : Program ε α} {post : α → Prop}

theorem pure {a : α} (h : post a) : Spares old (Pure.pure a : Program ε α) post :=
  fun s hs => ⟨a, s, rfl, h, hs, fun _ hr => .inl hr⟩

theorem bind {f : α → Program ε β} {post' : β → Prop} (hp : Spares old p post)
    (hf : ∀ a, post a → Spares old (f a) post') : Spares old (p >>= f) post' := by
  intro s hs
  obtain ⟨a, s₁, hrun, ha, hs₁, hassigned⟩ := hp s hs
  obtain ⟨b, s₂, hrun', hb, hs₂, hassigned'⟩ := hf a ha s₁ hs₁
  refine ⟨b, s₂, ?_, hb, hs₂, fun r hr => ?_⟩
  · change Except.bind (p s) (fun e => f e.1 e.2) = _
    rw [hrun]
    exact hrun'
  · rcases hassigned' r hr with hr | hr
    · exact hassigned r hr
    · exact .inr hr

theorem mono {post' : α → Prop} (hp : Spares old p post) (h : ∀ a, post a → post' a) :
    Spares old p post' := by
  intro s hs
  obtain ⟨a, s', hrun, ha, hrest⟩ := hp s hs
  exact ⟨a, s', hrun, h a ha, hrest⟩

theorem make : Spares old (Objects.make : Program ε Nat) (old ≤ ·) :=
  fun s hs => ⟨s.next, _, rfl, hs, Nat.le_succ_of_le hs, fun _ hr => .inl hr⟩

theorem assign {ref : Nat} (h : old ≤ ref) :
    Spares old (Objects.assign ref : Program ε Unit) fun _ => True := by
  intro s hs
  refine ⟨(), _, rfl, trivial, hs, fun r hr => ?_⟩
  rcases List.mem_append.mp hr with hr | hr
  · exact .inl hr
  · rw [List.mem_singleton] at hr
    exact .inr (hr ▸ h)

/-- A loop keeps what each turn keeps. -/
theorem foldlM {ι : Type*} {f : α → ι → Program ε α} {inv : List ι → α → Prop} (is : List ι)
    {a : α} (h : inv [] a)
    (hstep : ∀ done i, ∀ a, inv done a → Spares old (f a i) (inv (done ++ [i]))) :
    Spares old (is.foldlM f a) (inv is) := by
  have hrun : ∀ (rest done : List ι) (a : α), inv done a →
      Spares old (rest.foldlM f a) (inv (done ++ rest)) := by
    intro rest
    induction rest with
    | nil =>
      intro done a ha
      rw [List.append_nil]
      exact pure ha
    | cons i rest ih =>
      intro done a ha
      rw [List.foldlM_cons]
      refine bind (hstep done i a ha) fun a' ha' => ?_
      rw [← List.singleton_append (x := i), ← List.append_assoc]
      exact ih (done ++ [i]) a' ha'
  exact hrun is [] a h

/-- A loop over a list gives a list with what each turn gives. -/
theorem mapM {f : α → Program ε β} {R : α → β → Prop} (as : List α)
    (hf : ∀ a ∈ as, Spares old (f a) (R a)) :
    Spares old (as.mapM f) (List.Forall₂ R as) := by
  induction as with
  | nil => exact pure .nil
  | cons a as ih =>
    rw [List.mapM_cons]
    refine bind (hf a List.mem_cons_self) fun b hb => ?_
    refine bind (ih fun a' ha' => hf a' (List.mem_cons_of_mem _ ha')) fun bs hbs => ?_
    exact pure (.cons hb hbs)

end Spares

end Objects
