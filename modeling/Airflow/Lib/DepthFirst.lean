import Airflow.Lib.Closure
import Mathlib.Data.List.Chain

/-!
# Depth-first passes with a bound on the depth

A pass over a list enters each element that was not visited, goes on with the element's successors
one level deeper, and comes back to the rest of the list; what was visited is shared by all levels.
`DepthFirst.Pass` is a pass that ends, `DepthFirst.Stopped` one that would have to enter an element
with no level left. The successors of an element come in any order, so a pass is a relation.

A program that makes such passes and collects something on the way is described by
`DepthFirst.Visits`, which has a rule for each of its steps. What the rules give in the end does not
mention the order: `Visits.mem_iff`, `Visits.exists_chain` and `Visits.chain_of_error`.
-/

namespace DepthFirst

open Closure

variable {α : Type} (succ : α → List α)

/-! ## Passes -/

/-- A pass over a list from `visited` ends with `visited'` and has entered elements on `height`
levels. -/
inductive Pass : List α → List α → List α → Nat → Prop where
  | done {visited : List α} : Pass visited [] visited 0
  | skip {visited rows visited' : List α} {a : α} {height : Nat} :
    a ∈ visited → Pass visited rows visited' height → Pass visited (a :: rows) visited' height
  | enter {visited below middle rows visited' : List α} {a : α} {height height' : Nat} :
    a ∉ visited → (∀ b, b ∈ below ↔ b ∈ succ a) → Pass (visited ++ [a]) below middle height →
    Pass middle rows visited' height' →
    Pass visited (a :: rows) visited' (max (height + 1) height')

/-- A pass over a list from `visited` comes to an element on the level after the last. -/
inductive Stopped : Nat → List α → List α → Prop where
  | here {visited rows : List α} {a : α} : a ∉ visited → Stopped 0 visited (a :: rows)
  | skip {visited rows : List α} {a : α} {levels : Nat} :
    a ∈ visited → Stopped levels visited rows → Stopped levels visited (a :: rows)
  | down {visited below rows : List α} {a : α} {levels : Nat} :
    a ∉ visited → (∀ b, b ∈ below ↔ b ∈ succ a) → Stopped levels (visited ++ [a]) below →
    Stopped (levels + 1) visited (a :: rows)
  | later {visited below middle rows : List α} {a : α} {levels height : Nat} :
    a ∉ visited → (∀ b, b ∈ below ↔ b ∈ succ a) → Pass succ (visited ++ [a]) below middle height →
    Stopped levels middle rows → Stopped levels visited (a :: rows)

/-- A chain of successors that starts at one of the given elements. -/
structure ChainFrom (rows chain : List α) : Prop where
  head : ∀ a ∈ chain.head?, a ∈ rows
  steps : chain.IsChain (Step succ)

variable {succ} {visited visited' middle rows rows' chain : List α} {a b : α}
  {levels height height' : Nat}

theorem Pass.append (h : Pass succ visited rows middle height)
    (h' : Pass succ middle rows' visited' height') :
    Pass succ visited (rows ++ rows') visited' (max height height') := by
  induction h with
  | done => rwa [List.nil_append, Nat.zero_max]
  | skip ha _ ih => exact .skip ha (ih h')
  | enter ha hbelow hdown _ _ ih =>
    rw [List.cons_append, Nat.max_assoc]
    exact .enter ha hbelow hdown (ih h')

theorem Stopped.append_right (h : Stopped succ levels visited rows) (rows' : List α) :
    Stopped succ levels visited (rows ++ rows') := by
  induction h with
  | here ha => exact .here ha
  | skip ha _ ih => exact .skip ha ih
  | down ha hbelow hdown _ => exact .down ha hbelow hdown
  | later ha hbelow hdown _ ih => exact .later ha hbelow hdown ih

theorem Stopped.append_left (h : Pass succ visited rows middle height)
    (h' : Stopped succ levels middle rows') : Stopped succ levels visited (rows ++ rows') := by
  induction h with
  | done => exact h'
  | skip ha _ ih => exact .skip ha (ih h')
  | enter ha hbelow hdown _ _ ih => exact .later ha hbelow hdown (ih h')

/-! ### What a pass has visited -/

theorem Pass.visited_subset (h : Pass succ visited rows visited' height) : visited ⊆ visited' := by
  induction h with
  | done => exact List.Subset.refl _
  | skip _ _ ih => exact ih
  | enter _ _ _ _ ih ih' =>
    exact fun a ha => ih' (ih (List.mem_append_left _ ha))

theorem Pass.rows_subset (h : Pass succ visited rows visited' height) : rows ⊆ visited' := by
  induction h with
  | done => exact List.nil_subset _
  | skip ha hrest ih => exact List.cons_subset.mpr ⟨hrest.visited_subset ha, ih⟩
  | @enter _ _ _ _ _ a _ _ _ _ hdown hrest _ ih' =>
    have ha := hdown.visited_subset (List.mem_append_right _ (List.mem_singleton_self a))
    exact List.cons_subset.mpr ⟨hrest.visited_subset ha, ih'⟩

/-- The successors of all that a pass entered were visited. -/
theorem Pass.closed (h : Pass succ visited rows visited' height) (ha : a ∈ visited')
    (hnew : a ∉ visited) : succ a ⊆ visited' := by
  induction h with
  | done => exact absurd ha hnew
  | skip _ _ ih => exact ih ha hnew
  | @enter _ _ middle _ _ c _ _ _ hbelow hdown hrest ih ih' =>
    by_cases hmid : a ∈ middle
    · by_cases hac : a = c
      · rw [hac]
        exact fun b hb => hrest.visited_subset (hdown.rows_subset ((hbelow b).mpr hb))
      · exact fun b hb => hrest.visited_subset (ih hmid (by simp [hnew, hac]) hb)
    · exact ih' ha hmid

/-! ### Chains -/

theorem ChainFrom.nil : ChainFrom succ rows [] := ⟨by simp, .nil⟩

theorem ChainFrom.cons (ha : a ∈ rows) (h : ChainFrom succ (succ a) chain) :
    ChainFrom succ rows (a :: chain) where
  head := by
    intro b hb
    rwa [← Option.mem_some.mp hb]
  steps := by
    rw [List.isChain_cons]
    exact ⟨h.head, h.steps⟩

theorem ChainFrom.mono (h : ChainFrom succ rows chain) (hsub : rows ⊆ rows') :
    ChainFrom succ rows' chain := ⟨fun a ha => hsub (h.head a ha), h.steps⟩

/-- What a pass enters ends a chain with at most an element for each of its levels. -/
theorem Pass.exists_chain (h : Pass succ visited rows visited' height) (ha : a ∈ visited')
    (hnew : a ∉ visited) :
    ∃ chain, ChainFrom succ rows chain ∧ chain.getLast? = some a ∧ chain.length ≤ height := by
  induction h with
  | done => exact absurd ha hnew
  | skip _ _ ih =>
    obtain ⟨chain, hfrom, hlast, hlength⟩ := ih ha hnew
    exact ⟨chain, hfrom.mono (List.subset_cons_self _ _), hlast, hlength⟩
  | @enter _ _ middle _ _ c height _ _ hbelow _ _ ih ih' =>
    by_cases hmid : a ∈ middle
    · by_cases hac : a = c
      · refine ⟨[c], .cons List.mem_cons_self .nil, by rw [hac]; rfl, ?_⟩
        have := Nat.le_max_left (height + 1)
        exact Nat.le_trans (Nat.le_add_left 1 height) (this _)
      · obtain ⟨chain, hfrom, hlast, hlength⟩ := ih hmid (by simp [hnew, hac])
        have hfrom' := hfrom.mono fun b hb => (hbelow b).mp hb
        refine ⟨c :: chain, .cons List.mem_cons_self hfrom', ?_, ?_⟩
        · rw [List.getLast?_cons, hlast]
          rfl
        · exact Nat.le_trans (Nat.succ_le_succ hlength) (Nat.le_max_left _ _)
    · obtain ⟨chain, hfrom, hlast, hlength⟩ := ih' ha hmid
      exact ⟨chain, hfrom.mono (List.subset_cons_self _ _), hlast,
        Nat.le_trans hlength (Nat.le_max_right _ _)⟩

/-- What a pass enters is reached from where it started. -/
theorem Pass.reached (h : Pass succ visited rows visited' height) (ha : a ∈ visited')
    (hnew : a ∉ visited) : ∃ r ∈ rows, Reaches succ r a := by
  induction h with
  | done => exact absurd ha hnew
  | skip _ _ ih =>
    obtain ⟨r, hr, hreach⟩ := ih ha hnew
    exact ⟨r, List.mem_cons_of_mem _ hr, hreach⟩
  | @enter _ _ middle _ _ c _ _ _ hbelow _ _ ih ih' =>
    by_cases hmid : a ∈ middle
    · by_cases hac : a = c
      · exact ⟨c, List.mem_cons_self, by rw [hac]; exact .refl⟩
      · obtain ⟨r, hr, hreach⟩ := ih hmid (by simp [hnew, hac])
        exact ⟨c, List.mem_cons_self, .head ((hbelow r).mp hr) hreach⟩
    · obtain ⟨r, hr, hreach⟩ := ih' ha hmid
      exact ⟨r, List.mem_cons_of_mem _ hr, hreach⟩

/-- **A pass from nothing visits what is reachable from its list.** -/
theorem Pass.mem_iff (h : Pass succ [] rows visited' height) :
    b ∈ visited' ↔ ∃ a ∈ rows, Reaches succ a b := by
  constructor
  · intro hb
    exact h.reached hb List.not_mem_nil
  · rintro ⟨a, ha, hreach⟩
    induction hreach with
    | refl => exact h.rows_subset ha
    | tail _ hstep ih => exact h.closed ih List.not_mem_nil hstep

/-- A pass that is stopped follows a chain without repetitions, longer than the levels it has. -/
theorem Stopped.exists_chain (h : Stopped succ levels visited rows) :
    ∃ chain, ChainFrom succ rows chain ∧ chain.Nodup ∧ (∀ a ∈ chain, a ∉ visited) ∧
      chain.length = levels + 1 := by
  induction h with
  | @here _ _ a ha =>
    exact ⟨[a], .cons List.mem_cons_self .nil, List.nodup_singleton a,
      fun b hb => by rwa [List.mem_singleton.mp hb], rfl⟩
  | skip _ _ ih =>
    obtain ⟨chain, hfrom, hchain⟩ := ih
    exact ⟨chain, hfrom.mono (List.subset_cons_self _ _), hchain⟩
  | @down visited _ _ a _ ha hbelow _ ih =>
    obtain ⟨chain, hfrom, hnodup, havoid, hlength⟩ := ih
    have hfrom' := hfrom.mono fun b hb => (hbelow b).mp hb
    refine ⟨a :: chain, .cons List.mem_cons_self hfrom', ?_, ?_, by rw [List.length_cons, hlength]⟩
    · refine List.nodup_cons.mpr ⟨fun hmem => ?_, hnodup⟩
      exact havoid a hmem (List.mem_append_right _ (List.mem_singleton_self a))
    · intro b hb
      rcases List.mem_cons.mp hb with rfl | hb
      · exact ha
      · exact fun hv => havoid b hb (List.mem_append_left _ hv)
  | later _ _ hdown _ ih =>
    obtain ⟨chain, hfrom, hnodup, havoid, hlength⟩ := ih
    refine ⟨chain, hfrom.mono (List.subset_cons_self _ _), hnodup, fun b hb hv => ?_, hlength⟩
    exact havoid b hb (hdown.visited_subset (List.mem_append_left _ hv))

/-! ## Programs that make a pass -/

section
variable {β ε : Type} (succ) (emit : α → List β) (deep : ε → Prop)

/-- The outcome of a program that makes a pass over `targets`, in some order and possibly with
repetitions, with `levels` levels: what it collects is `extra` and what every element emits that it
enters, and an error is `deep` only where the pass is stopped. -/
def Visits (levels : Nat) (visited targets : List α) (extra : β → Prop)
    (outcome : Except ε (List β × List α)) : Prop :=
  ∃ rows, (∀ b, b ∈ rows ↔ b ∈ targets) ∧
    match outcome with
    | .ok (result, visited') =>
      (∃ height ≤ levels, Pass succ visited rows visited' height) ∧
        ∀ k, k ∈ result ↔ extra k ∨ ∃ a ∈ visited', a ∉ visited ∧ k ∈ emit a
    | .error e => deep e → Stopped succ levels visited rows

/-- Visiting the elements of a list one after another. -/
def loop {ι : Type} (visit : ι → List α → Except ε (List β × List α)) :
    List ι → List α → Except ε (List β × List α)
  | [], visited => .ok ([], visited)
  | item :: items, visited => do
    let (result, visited) ← visit item visited
    let (rest, visited) ← loop visit items visited
    return (result ++ rest, visited)

theorem loop_error {ι : Type} {visit : ι → List α → Except ε (List β × List α)} {item : ι}
    {items : List ι} {visited : List α} {e : ε}
    (h : loop visit (item :: items) visited = .error e) :
    visit item visited = .error e ∨
      ∃ result middle, visit item visited = .ok (result, middle) ∧
        loop visit items middle = .error e := by
  rw [loop] at h
  cases hitem : visit item visited with
  | error e' =>
    rw [hitem] at h
    exact .inl h
  | ok outcome =>
    rw [hitem] at h
    refine .inr ⟨outcome.1, outcome.2, rfl, ?_⟩
    change loop visit items outcome.2 >>= _ = _ at h
    cases hrest : loop visit items outcome.2 with
    | error e' =>
      rw [hrest] at h
      exact h
    | ok outcome' =>
      rw [hrest] at h
      cases h

end

namespace Visits

variable {β ε : Type} {emit : α → List β} {deep : ε → Prop} {targets targets' : List α}
  {extra extra' : β → Prop} {outcome : Except ε (List β × List α)} {result : List β} {e : ε}

theorem of_not_deep (h : ¬deep e) : Visits succ emit deep levels visited targets extra (.error e) :=
  ⟨targets, fun _ => Iff.rfl, fun hdeep => absurd hdeep h⟩

theorem congr (h : Visits succ emit deep levels visited targets extra outcome)
    (htargets : ∀ b, b ∈ targets ↔ b ∈ targets') (hextra : ∀ k, extra k ↔ extra' k) :
    Visits succ emit deep levels visited targets' extra' outcome := by
  obtain ⟨rows, hrows, h⟩ := h
  obtain rfl : extra = extra' := funext fun k => propext (hextra k)
  exact ⟨rows, fun b => (hrows b).trans (htargets b), h⟩

/-- What is collected is completed by `more` and filtered. -/
theorem filter {keep : β → Bool} {more : List β} (hemit : ∀ a, ∀ k ∈ emit a, keep k = true)
    (hextra : ∀ k, extra k → keep k = true)
    (h : Visits succ emit deep levels visited targets extra outcome) :
    Visits succ emit deep levels visited targets
      (fun k => extra k ∨ k ∈ more ∧ keep k = true) (do
        let (result, visited) ← outcome
        return ((result ++ more).filter keep, visited)) := by
  obtain ⟨rows, hrows, h⟩ := h
  refine ⟨rows, hrows, ?_⟩
  match outcome, h with
  | .error e, h => exact h
  | .ok (result, visited'), h =>
    refine ⟨h.1, fun k => ?_⟩
    rw [List.mem_filter, List.mem_append, h.2 k]
    constructor
    · rintro ⟨(hk | hk) | hk, hkeep⟩
      · exact .inl (.inl hk)
      · exact .inr hk
      · exact .inl (.inr ⟨hk, hkeep⟩)
    · rintro ((hk | hk) | ⟨a, ha, hnew, hk⟩)
      · exact ⟨.inl (.inl hk), hextra k hk⟩
      · exact ⟨.inr hk.1, hk.2⟩
      · exact ⟨.inl (.inr ⟨a, ha, hnew, hk⟩), hemit a k hk⟩

/-- An element that was visited. -/
theorem skip (ha : a ∈ visited) :
    Visits succ emit deep levels visited [a] (fun _ => False) (.ok ([], visited)) := by
  refine ⟨[a], fun _ => Iff.rfl, ⟨0, Nat.zero_le _, .skip ha .done⟩, fun k => ?_⟩
  simp only [List.not_mem_nil, false_or, false_iff, not_exists]
  exact fun b hb => hb.2.1 hb.1

/-- An element on the level after the last. -/
theorem stop (ha : a ∉ visited) :
    Visits succ emit deep 0 visited [a] extra (.error e) :=
  ⟨[a], fun _ => Iff.rfl, fun _ => .here ha⟩

/-- An element that is entered, with a program that goes on with its successors. -/
theorem enter (ha : a ∉ visited)
    (h : Visits succ emit deep levels (visited ++ [a]) (succ a) (· ∈ emit a) outcome) :
    Visits succ emit deep (levels + 1) visited [a] (fun _ => False) outcome := by
  obtain ⟨below, hbelow, h⟩ := h
  refine ⟨[a], fun _ => Iff.rfl, ?_⟩
  match outcome, h with
  | .error e, h => exact fun hdeep => .down ha hbelow (h hdeep)
  | .ok (result, visited'), ⟨⟨height, hheight, hpass⟩, hresult⟩ =>
    refine ⟨⟨max (height + 1) 0, ?_, .enter ha hbelow hpass .done⟩, fun k => ?_⟩
    · rw [Nat.max_zero]
      exact Nat.succ_le_succ hheight
    · rw [hresult k, false_or]
      constructor
      · rintro (hk | ⟨b, hb, hnew, hk⟩)
        · have hav := hpass.visited_subset (List.mem_append_right _ (List.mem_singleton_self a))
          exact ⟨a, hav, ha, hk⟩
        · exact ⟨b, hb, fun hv => hnew (List.mem_append_left _ hv), hk⟩
      · rintro ⟨b, hb, hnew, hk⟩
        by_cases hba : b = a
        · exact .inl (hba ▸ hk)
        · exact .inr ⟨b, hb, by simp [hnew, hba], hk⟩

/-- A program that stops with an error has gone no further. -/
theorem append_error (h : Visits succ emit deep levels visited targets extra (.error e)) :
    Visits succ emit deep levels visited (targets ++ targets') extra' (.error e) := by
  obtain ⟨rows, hrows, h⟩ := h
  refine ⟨rows ++ targets', fun b => ?_, fun hdeep => (h hdeep).append_right _⟩
  rw [List.mem_append, List.mem_append, hrows b]

/-- A program that goes on with the second list after the first. -/
theorem append
    (h : Visits succ emit deep levels visited targets extra (.ok (result, middle)))
    (h' : Visits succ emit deep levels middle targets' extra' outcome) :
    Visits succ emit deep levels visited (targets ++ targets')
      (fun k => extra k ∨ extra' k) (do
        let (rest, visited) ← outcome
        return (result ++ rest, visited)) := by
  obtain ⟨rows, hrows, ⟨height, hheight, hpass⟩, hresult⟩ := h
  obtain ⟨rows', hrows', h'⟩ := h'
  refine ⟨rows ++ rows', fun b => ?_, ?_⟩
  · rw [List.mem_append, List.mem_append, hrows b, hrows' b]
  match outcome, h' with
  | .error e, h' => exact fun hdeep => .append_left hpass (h' hdeep)
  | .ok (rest, visited'), ⟨⟨height', hheight', hpass'⟩, hrest⟩ =>
    refine ⟨⟨max height height', Nat.max_le.mpr ⟨hheight, hheight'⟩, hpass.append hpass'⟩,
      fun k => ?_⟩
    rw [List.mem_append, hresult k, hrest k]
    constructor
    · rintro ((hk | ⟨a, ha, hnew, hk⟩) | (hk | ⟨a, ha, hnew, hk⟩))
      · exact .inl (.inl hk)
      · exact .inr ⟨a, hpass'.visited_subset ha, hnew, hk⟩
      · exact .inl (.inr hk)
      · exact .inr ⟨a, ha, fun hv => hnew (hpass.visited_subset hv), hk⟩
    · rintro ((hk | hk) | ⟨a, ha, hnew, hk⟩)
      · exact .inl (.inl hk)
      · exact .inr (.inl hk)
      · by_cases hmid : a ∈ middle
        · exact .inl (.inr ⟨a, hmid, hnew, hk⟩)
        · exact .inr (.inr ⟨a, ha, hmid, hk⟩)

/-- A loop of programs that each make a pass. -/
theorem loop {ι : Type} {visit : ι → List α → Except ε (List β × List α)}
    {targetsOf : ι → List α} {extraOf : ι → β → Prop} {items : List ι}
    (h : ∀ item ∈ items, ∀ visited,
      Visits succ emit deep levels visited (targetsOf item) (extraOf item) (visit item visited)) :
    Visits succ emit deep levels visited (items.flatMap targetsOf)
      (fun k => ∃ item ∈ items, extraOf item k) (DepthFirst.loop visit items visited) := by
  induction items generalizing visited with
  | nil =>
    refine ⟨[], fun _ => Iff.rfl, ⟨0, Nat.zero_le _, .done⟩, fun k => ?_⟩
    simp only [List.not_mem_nil, false_and, exists_false, false_or, false_iff]
    rintro ⟨b, hb, hnew, -⟩
    exact hnew hb
  | cons item items ih =>
    have hitem := h item List.mem_cons_self visited
    rw [DepthFirst.loop, List.flatMap_cons]
    cases hvisit : visit item visited with
    | error e =>
      rw [hvisit] at hitem
      exact hitem.append_error
    | ok p =>
      obtain ⟨result, middle⟩ := p
      rw [hvisit] at hitem
      have hrest := @ih middle fun item hmem => h item (List.mem_cons_of_mem _ hmem)
      simp only [List.exists_mem_cons_iff]
      exact hitem.append hrest

/-! ### What does not depend on the order -/

/-- **Where a program returns, it has what every reachable element emits**, -/
theorem mem_iff (h : Visits succ emit deep levels [] targets extra (.ok (result, visited')))
    (k : β) :
    k ∈ result ↔ extra k ∨ ∃ a, (∃ t ∈ targets, Reaches succ t a) ∧ k ∈ emit a := by
  obtain ⟨rows, hrows, ⟨height, -, hpass⟩, hresult⟩ := h
  rw [hresult k]
  simp only [hpass.mem_iff, hrows, List.not_mem_nil, not_false_eq_true, true_and]

/-- and has entered every reachable element within its levels. -/
theorem exists_chain
    (h : Visits succ emit deep levels [] targets extra (.ok (result, visited')))
    (hreach : ∃ t ∈ targets, Reaches succ t a) :
    ∃ chain, ChainFrom succ targets chain ∧ chain.getLast? = some a ∧ chain.length ≤ levels := by
  obtain ⟨rows, hrows, ⟨height, hheight, hpass⟩, -⟩ := h
  simp only [← hrows] at hreach
  obtain ⟨chain, hfrom, hlast, hlength⟩ :=
    hpass.exists_chain (hpass.mem_iff.mpr hreach) List.not_mem_nil
  exact ⟨chain, hfrom.mono fun b hb => (hrows b).mp hb, hlast, Nat.le_trans hlength hheight⟩

/-- **Where it is stopped, some chain without repetitions is longer than its levels.** -/
theorem chain_of_error (h : Visits succ emit deep levels visited targets extra (.error e))
    (hdeep : deep e) :
    ∃ chain, ChainFrom succ targets chain ∧ chain.Nodup ∧ (∀ a ∈ chain, a ∉ visited) ∧
      chain.length = levels + 1 := by
  obtain ⟨rows, hrows, h⟩ := h
  obtain ⟨chain, hfrom, hchain⟩ := (h hdeep).exists_chain
  exact ⟨chain, hfrom.mono fun b hb => (hrows b).mp hb, hchain⟩

/-- What a program has visited that returns. -/
theorem mem_visited (h : Visits succ emit deep levels [] targets extra (.ok (result, visited'))) :
    a ∈ visited' ↔ ∃ t ∈ targets, Reaches succ t a := by
  obtain ⟨rows, hrows, ⟨height, -, hpass⟩, -⟩ := h
  simp only [hpass.mem_iff, hrows]

end Visits

end DepthFirst
