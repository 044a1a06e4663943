import Mathlib.Logic.Relation

/-!
# Runs of transition systems

Two presentations of a run and the rules to reason about it. A relation `r` between states has the
runs `Relation.ReflTransGen r`, with the invariant rule `invariant`. A function `step` of a state
and a label has the run `states step s as` from `s` along `as`; `AllSteps step ok s as` says that
every step of it meets a condition `ok`. `exact_condition` turns facts about one step into an
equivalence about runs: a property holds in every state of a run exactly when every step meets the
condition.

A number that no step raises by more than its cost bounds what the steps gain from it over the whole
run (`AllSteps.potential`). A number that every step lowers bounds the length of the run
(`AllSteps.length_le`).
-/

namespace Transition

variable {σ α : Type*}

/-- An invariant kept by every step holds in every state reached. -/
theorem invariant {r : σ → σ → Prop} {I : σ → Prop} (hstep : ∀ s t, r s t → I s → I t) {s t : σ}
    (h : Relation.ReflTransGen r s t) (hs : I s) : I t := by
  induction h with
  | refl => exact hs
  | tail _ hr ih => exact hstep _ _ hr ih

/-! ## Deterministic runs -/

section
variable (step : σ → α → σ)

/-- The states of the run from `s` along `as`, `s` first. -/
def states (s : σ) : List α → List σ
  | [] => [s]
  | a :: as => s :: states (step s a) as

/-- Every step of the run from `s` along `as` meets `ok`. -/
def AllSteps (ok : σ → α → Prop) (s : σ) : List α → Prop
  | [] => True
  | a :: as => ok s a ∧ AllSteps ok (step s a) as

/-- The sum of a number over the steps of the run. -/
def total (f : σ → α → Nat) (s : σ) : List α → Nat
  | [] => 0
  | a :: as => f s a + total f (step s a) as

instance instDecidableAllSteps (ok : σ → α → Prop) [∀ s a, Decidable (ok s a)] :
    (s : σ) → (as : List α) → Decidable (AllSteps step ok s as)
  | _, [] => .isTrue trivial
  | s, a :: as =>
    have := instDecidableAllSteps ok (step s a) as
    inferInstanceAs (Decidable (ok s a ∧ AllSteps step ok (step s a) as))

end

variable {step : σ → α → σ} {ok : σ → α → Prop} {I P : σ → Prop}

theorem mem_states_self (s : σ) (as : List α) : s ∈ states step s as := by
  cases as <;> exact List.mem_cons_self ..

/-- The last state of a run. -/
theorem foldl_mem_states (s : σ) (as : List α) : as.foldl step s ∈ states step s as := by
  induction as generalizing s with
  | nil => exact List.mem_singleton_self s
  | cons a as ih => exact List.mem_cons_of_mem _ (ih (step s a))

/-- A condition on the labels is met by every step. -/
theorem AllSteps.of_forall {ok' : α → Prop} {s : σ} {as : List α} (h' : ∀ a ∈ as, ok' a)
    (h : AllSteps step ok s as) : AllSteps step (fun s a => ok' a ∧ ok s a) s as := by
  induction as generalizing s with
  | nil => trivial
  | cons a as ih =>
    exact ⟨⟨h' a (List.mem_cons_self ..), h.1⟩,
      ih (fun b hb => h' b (List.mem_cons_of_mem _ hb)) h.2⟩

/-- An invariant kept by the steps that meet `ok` holds in every state of a run of such steps. -/
theorem AllSteps.states (hstep : ∀ s a, I s → ok s a → I (step s a)) {s : σ} {as : List α}
    (h : AllSteps step ok s as) (hs : I s) : ∀ t ∈ states step s as, I t := by
  induction as generalizing s with
  | nil =>
    intro t ht
    rw [List.mem_singleton.1 ht]
    exact hs
  | cons a as ih =>
    intro t ht
    rcases List.mem_cons.1 ht with rfl | ht
    · exact hs
    · exact ih h.2 (hstep s a hs h.1) t ht

theorem AllSteps.imp {ok' : σ → α → Prop} (hok : ∀ s a, ok s a → ok' s a) {s : σ} {as : List α}
    (h : AllSteps step ok s as) : AllSteps step ok' s as := by
  induction as generalizing s with
  | nil => trivial
  | cons a as ih => exact ⟨hok s a h.1, ih h.2⟩

/-- **The potential of a run.** A step that gains something takes it from the rank, which grows by
the cost of the step at most. -/
theorem AllSteps.potential {rank : σ → Nat} {gain cost : σ → α → Nat}
    (hstep : ∀ s a, ok s a → gain s a + rank (step s a) ≤ rank s + cost s a) {s : σ} {as : List α}
    (h : AllSteps step ok s as) :
    total step gain s as + rank (as.foldl step s) ≤ rank s + total step cost s as := by
  induction as generalizing s with
  | nil => simp [total]
  | cons a as ih =>
    have hfirst := hstep s a h.1
    have hrest := ih h.2
    simp only [total, List.foldl_cons]
    omega

/-- **The bound of a run.** A run of steps that lower the rank, while an invariant holds, is no
longer than the rank at first. -/
theorem AllSteps.length_le {rank : σ → Nat}
    (hstep : ∀ s a, I s → ok s a → I (step s a) ∧ rank (step s a) < rank s) {s : σ} {as : List α}
    (h : AllSteps step ok s as) (hs : I s) :
    I (as.foldl step s) ∧ as.length + rank (as.foldl step s) ≤ rank s := by
  induction as generalizing s with
  | nil => simp [hs]
  | cons a as ih =>
    obtain ⟨hnext, hlower⟩ := hstep s a hs h.1
    obtain ⟨hlast, hle⟩ := ih h.2 hnext
    simp only [List.length_cons, List.foldl_cons]
    exact ⟨hlast, by omega⟩

/-- A condition that always holds is met by every step. -/
theorem AllSteps.of_true (s : σ) (as : List α) : AllSteps step (fun _ _ => True) s as := by
  induction as generalizing s with
  | nil => trivial
  | cons a as ih => exact ⟨trivial, ih (step s a)⟩

/-- An invariant kept by every step holds in every state of a run. -/
theorem states_invariant (hstep : ∀ s a, I s → I (step s a)) {s : σ} {as : List α} (hs : I s) :
    ∀ t ∈ states step s as, I t :=
  (AllSteps.of_true s as).states (fun s a hi _ => hstep s a hi) hs

/-- **The exact condition of a run** whose steps meet `env`. If the steps that meet `ok` keep an
invariant that gives `P`, and a step that does not meet it leads to a state without `P`, then `P`
holds in all states of the run exactly when all its steps meet `ok`. -/
theorem exact_condition_under {env : σ → α → Prop} (hP : ∀ s, I s → P s)
    (hstep : ∀ s a, I s → env s a → ok s a → I (step s a))
    (hbad : ∀ s a, I s → env s a → ¬ok s a → ¬P (step s a)) {s : σ} {as : List α} (hs : I s)
    (henv : AllSteps step env s as) :
    (∀ t ∈ states step s as, P t) ↔ AllSteps step ok s as := by
  induction as generalizing s with
  | nil =>
    refine ⟨fun _ => trivial, fun _ t ht => ?_⟩
    rw [List.mem_singleton.1 ht]
    exact hP s hs
  | cons a as ih =>
    constructor
    · intro h
      have hok : ok s a := Classical.byContradiction fun hn =>
        hbad s a hs henv.1 hn (h _ (List.mem_cons_of_mem _ (mem_states_self _ as)))
      exact ⟨hok, (ih (hstep s a hs henv.1 hok) henv.2).1
        fun t ht => h t (List.mem_cons_of_mem _ ht)⟩
    · intro h t ht
      rcases List.mem_cons.1 ht with rfl | ht
      · exact hP t hs
      · exact (ih (hstep s a hs henv.1 h.1) henv.2).2 h.2 t ht

/-- **The exact condition of a run**, of any steps. -/
theorem exact_condition (hP : ∀ s, I s → P s) (hstep : ∀ s a, I s → ok s a → I (step s a))
    (hbad : ∀ s a, I s → ¬ok s a → ¬P (step s a)) {s : σ} (hs : I s) (as : List α) :
    (∀ t ∈ states step s as, P t) ↔ AllSteps step ok s as :=
  exact_condition_under hP (fun s a hi _ => hstep s a hi) (fun s a hi _ => hbad s a hi) hs
    (.of_true s as)

end Transition
