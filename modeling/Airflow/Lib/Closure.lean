import Mathlib.Data.List.Dedup
import Mathlib.Data.Set.Finite.List
import Mathlib.Logic.Relation
import Mathlib.Order.WellFounded

/-!
# The closure of a set under successors, one level a step

`Closure.trace` walks a finite graph from the elements of a frontier: each step takes what is new in
the frontier and goes on with its successors. Among finitely many nodes, a level for each and one
more find exactly what is reachable (`Closure.mem_trace`).
-/

namespace Closure

variable {α : Type} [DecidableEq α] (succ : α → List α)

/-- What a frontier adds to what was found. -/
def new (found frontier : List α) : List α := (frontier.filter (· ∉ found)).dedup

/-- The walk, with its number of levels bounded by `fuel`. -/
def trace : Nat → List α → List α → List α
  | 0, found, _ => found
  | fuel + 1, found, frontier =>
    if new found frontier = [] then found
    else trace fuel (found ++ new found frontier) ((new found frontier).flatMap succ)

/-- `b` is a successor of `a`. -/
def Step (a b : α) : Prop := b ∈ succ a

/-- `b` is reached from `a` in any number of steps. -/
def Reaches : α → α → Prop := Relation.ReflTransGen (Step succ)

variable {succ} {found frontier nodes : List α} {a b : α} {fuel : Nat}

@[simp] theorem mem_new : a ∈ new found frontier ↔ a ∈ frontier ∧ a ∉ found := by
  simp [new]

theorem new_nodup : (new found frontier).Nodup := List.nodup_dedup _

theorem new_append_nodup (h : found.Nodup) : (found ++ new found frontier).Nodup :=
  h.append new_nodup fun _ hf hn => (mem_new.mp hn).2 hf

theorem subset_of_new_eq_nil (h : new found frontier = []) : frontier ⊆ found := by
  intro a ha
  refine Decidable.byContradiction fun hn => ?_
  have := mem_new.mpr ⟨ha, hn⟩
  rw [h] at this
  cases this

/-- All that a walk adds is reached from its frontier. -/
theorem reached_of_mem_trace (h : b ∈ trace succ fuel found frontier) :
    b ∈ found ∨ ∃ a ∈ frontier, Reaches succ a b := by
  induction fuel generalizing found frontier with
  | zero => exact .inl h
  | succ fuel ih =>
    rw [trace] at h
    split at h
    · exact .inl h
    · rcases ih h with hb | ⟨c, hc, hreach⟩
      · rcases List.mem_append.mp hb with hb | hb
        · exact .inl hb
        · exact .inr ⟨b, (mem_new.mp hb).1, .refl⟩
      · obtain ⟨a, ha, hac⟩ := List.mem_flatMap.mp hc
        exact .inr ⟨a, (mem_new.mp ha).1, .head hac hreach⟩

/-! ## Enough levels -/

/-- What holds of a walk at every level: what was found is new once and among the nodes, and its
successors were found or are next. -/
structure Inv (succ : α → List α) (nodes found frontier : List α) : Prop where
  nodup : found.Nodup
  found_sub : found ⊆ nodes
  frontier_sub : frontier ⊆ nodes
  closed : ∀ a ∈ found, ∀ b ∈ succ a, b ∈ found ∨ b ∈ frontier

/-- One level of a walk, in whatever order it takes the nodes of its frontier. -/
structure Level (succ : α → List α) (found frontier found' next : List α) : Prop where
  nodup : found.Nodup → found'.Nodup
  mem_found : ∀ a, a ∈ found' ↔ a ∈ found ∨ a ∈ frontier
  mem_next : ∀ b, b ∈ next ↔ ∃ a ∈ frontier, a ∉ found ∧ b ∈ succ a

theorem level_new :
    Level succ found frontier (found ++ new found frontier) ((new found frontier).flatMap succ) where
  nodup := new_append_nodup
  mem_found := by
    intro a
    by_cases ha : a ∈ found <;> simp [ha]
  mem_next := by
    intro b
    simp only [List.mem_flatMap, mem_new, and_assoc]

theorem Level.inv {found' next : List α} (hlevel : Level succ found frontier found' next)
    (hsucc : ∀ a ∈ nodes, succ a ⊆ nodes) (h : Inv succ nodes found frontier) :
    Inv succ nodes found' next where
  nodup := hlevel.nodup h.nodup
  found_sub := by
    intro a ha
    rcases (hlevel.mem_found a).mp ha with ha | ha
    · exact h.found_sub ha
    · exact h.frontier_sub ha
  frontier_sub := by
    intro b hb
    obtain ⟨a, ha, -, hab⟩ := (hlevel.mem_next b).mp hb
    exact hsucc a (h.frontier_sub ha) hab
  closed := by
    intro a ha b hab
    by_cases hfound : a ∈ found
    · exact .inl ((hlevel.mem_found b).mpr (h.closed a hfound b hab))
    · have hfr := ((hlevel.mem_found a).mp ha).resolve_left hfound
      exact .inr ((hlevel.mem_next b).mpr ⟨a, hfr, hfound, hab⟩)

theorem Inv.level (hsucc : ∀ a ∈ nodes, succ a ⊆ nodes)
    (h : Inv succ nodes found frontier) :
    Inv succ nodes (found ++ new found frontier) ((new found frontier).flatMap succ) :=
  level_new.inv hsucc h

/-- A level neither loses nor adds anything that a walk is to find. -/
theorem Level.reaches_iff {found' next : List α} (hlevel : Level succ found frontier found' next)
    (h : Inv succ nodes found frontier) :
    (b ∈ found' ∨ ∃ a ∈ next, Reaches succ a b) ↔ b ∈ found ∨ ∃ a ∈ frontier, Reaches succ a b := by
  have hpath : ∀ a, Reaches succ a b → a ∈ found' → b ∈ found' ∨ ∃ c ∈ next, Reaches succ c b := by
    intro a hab
    induction hab using Relation.ReflTransGen.head_induction_on with
    | refl => exact .inl
    | @head a c hac hcb ih =>
      intro ha
      by_cases hfound : a ∈ found
      · exact ih ((hlevel.mem_found c).mpr (h.closed a hfound c hac))
      · have hfr := ((hlevel.mem_found a).mp ha).resolve_left hfound
        exact .inr ⟨c, (hlevel.mem_next c).mpr ⟨a, hfr, hfound, hac⟩, hcb⟩
  constructor
  · intro hb
    rcases hb with hb | ⟨c, hc, hcb⟩
    · rcases (hlevel.mem_found b).mp hb with hb | hb
      · exact .inl hb
      · exact .inr ⟨b, hb, .refl⟩
    · obtain ⟨a, ha, -, hac⟩ := (hlevel.mem_next c).mp hc
      exact .inr ⟨a, ha, .head hac hcb⟩
  · intro hb
    rcases hb with hb | ⟨a, ha, hab⟩
    · exact .inl ((hlevel.mem_found b).mpr (.inl hb))
    · exact hpath a hab ((hlevel.mem_found a).mpr (.inr ha))

/-- A level finds something new or is the last. -/
theorem Level.grows {found' next : List α} (hlevel : Level succ found frontier found' next)
    (h : Inv succ nodes found frontier) : next = [] ∨ found.length < found'.length := by
  by_cases hnew : ∃ a ∈ frontier, a ∉ found
  · obtain ⟨a, ha, hnot⟩ := hnew
    have hsub : a :: found ⊆ found' := by
      refine List.cons_subset.mpr ⟨(hlevel.mem_found a).mpr (.inr ha), fun c hc => ?_⟩
      exact (hlevel.mem_found c).mpr (.inl hc)
    exact .inr (List.Nodup.length_le_of_subset (List.nodup_cons.mpr ⟨hnot, h.nodup⟩) hsub)
  · refine .inl (List.eq_nil_iff_forall_not_mem.mpr fun b hb => hnew ?_)
    obtain ⟨a, ha, hnot, -⟩ := (hlevel.mem_next b).mp hb
    exact ⟨a, ha, hnot⟩

/-- With enough levels the walk ends with a closed set that holds its frontier. -/
theorem trace_closed (hsucc : ∀ a ∈ nodes, succ a ⊆ nodes)
    (h : Inv succ nodes found frontier) (hfuel : nodes.length < fuel + found.length) :
    found ⊆ trace succ fuel found frontier ∧ frontier ⊆ trace succ fuel found frontier ∧
      ∀ a ∈ trace succ fuel found frontier, succ a ⊆ trace succ fuel found frontier := by
  induction fuel generalizing found frontier with
  | zero =>
    have := List.Nodup.length_le_of_subset h.nodup h.found_sub
    omega
  | succ fuel ih =>
    rw [trace]
    split
    · rename_i hnew
      have hsub := subset_of_new_eq_nil hnew
      refine ⟨List.Subset.refl _, hsub, ?_⟩
      intro a ha b hab
      rcases h.closed a ha b hab with hb | hb
      · exact hb
      · exact hsub hb
    · rename_i hnew
      have hpos : 0 < (new found frontier).length := List.length_pos_iff.mpr hnew
      have hrest := ih (h.level hsucc) (by rw [List.length_append]; omega)
      refine ⟨fun a ha => hrest.1 (List.mem_append_left _ ha), ?_, hrest.2.2⟩
      intro a ha
      by_cases hf : a ∈ found
      · exact hrest.1 (List.mem_append_left _ hf)
      · exact hrest.1 (List.mem_append_right _ (mem_new.mpr ⟨ha, hf⟩))

/-- **A walk with a level for each node finds exactly what is reachable.** -/
theorem mem_trace (hsucc : ∀ a ∈ nodes, succ a ⊆ nodes) (hfrontier : frontier ⊆ nodes) :
    b ∈ trace succ (nodes.length + 1) [] frontier ↔ ∃ a ∈ frontier, Reaches succ a b := by
  constructor
  · intro h
    exact (reached_of_mem_trace h).resolve_left List.not_mem_nil
  · rintro ⟨a, ha, hreach⟩
    have hinv : Inv succ nodes [] frontier :=
      ⟨List.nodup_nil, List.nil_subset _, hfrontier, fun _ h => absurd h List.not_mem_nil⟩
    have hfuel : nodes.length < (nodes.length + 1) + ([] : List α).length := by simp
    obtain ⟨-, hfr, hclosed⟩ := trace_closed hsucc hinv hfuel
    clear hinv hfuel
    induction hreach with
    | refl => exact hfr ha
    | tail _ hstep ih => exact hclosed _ ih hstep

/-! ## Acyclic graphs -/

section
variable {α : Type} {succ : α → List α} {nodes : List α}

variable (succ) in
/-- No node is reached from itself in one or more steps. -/
def Acyclic : Prop := ∀ a, ¬Relation.TransGen (Step succ) a a

theorem Acyclic.of_rank (rank : α → Nat) (h : ∀ a b, Step succ a b → rank a < rank b) :
    Acyclic succ := by
  have hpath : ∀ a b, Relation.TransGen (Step succ) a b → rank a < rank b := by
    intro a b hab
    induction hab with
    | single hab => exact h _ _ hab
    | tail _ hbc ih => exact Nat.lt_trans ih (h _ _ hbc)
  exact fun a ha => Nat.lt_irrefl _ (hpath a a ha)

/-- **In an acyclic graph in which finitely many nodes have successors, every walk ends.** -/
theorem Acyclic.wellFounded (h : Acyclic succ) (hnodes : ∀ a b, Step succ a b → a ∈ nodes) :
    WellFounded fun b a => Step succ a b := by
  let r : {a // a ∈ nodes} → {a // a ∈ nodes} → Prop :=
    fun b a => Relation.TransGen (Step succ) a.1 b.1
  have hwf : WellFounded r := by
    have : Finite {a // a ∈ nodes} := List.finite_toSet nodes
    have : IsTrans {a // a ∈ nodes} r := ⟨fun _ _ _ hab hbc => hbc.trans hab⟩
    have : Std.Irrefl r := ⟨fun a => h a.1⟩
    exact Finite.wellFounded_of_trans_of_irrefl r
  have hacc : ∀ a : {a // a ∈ nodes}, Acc (fun b a => Step succ a b) a.1 := by
    intro a
    induction a using hwf.induction with
    | _ a ih =>
      refine ⟨_, fun b hb => ?_⟩
      by_cases hmem : b ∈ nodes
      · exact ih ⟨b, hmem⟩ (.single hb)
      · exact ⟨_, fun c hc => absurd (hnodes b c hc) hmem⟩
  refine ⟨fun a => ?_⟩
  by_cases hmem : a ∈ nodes
  · exact hacc ⟨a, hmem⟩
  · exact ⟨_, fun b hb => absurd (hnodes a b hb) hmem⟩

/-- Of the nodes with some property there is one that has no successor with it. -/
theorem Acyclic.exists_last (h : Acyclic succ) (hnodes : ∀ a b, Step succ a b → a ∈ nodes)
    {p : α → Prop} (hex : ∃ a, p a) : ∃ a, p a ∧ ∀ b ∈ succ a, ¬p b := by
  have hwf := h.wellFounded hnodes
  obtain ⟨a, ha⟩ := hex
  induction a using hwf.induction with
  | _ a ih =>
    by_cases hnext : ∃ b ∈ succ a, p b
    · obtain ⟨b, hb, hp⟩ := hnext
      exact ih b hb hp
    · exact ⟨a, ha, fun b hb hp => hnext ⟨b, hb, hp⟩⟩

end

end Closure
