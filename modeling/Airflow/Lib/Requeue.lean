import Mathlib.Data.List.Range
import Mathlib.Logic.Function.Iterate
import Mathlib.Order.Basic

/-!
# Draining a queue

A loop takes items from a queue until it is empty, and puts back at the end an item whose handling
fails; the `k`-th handling of the loop has its own outcome. `drains_once_iff` says when the loop
ends and handles each item once: exactly when no handling of an item in its first turn fails.
-/

namespace Requeue

variable {σ α : Type*}

/-- The loop: its state, the items with their places in the queue when the loop began, and the
places of the items that were handled, in order. -/
structure Loop (σ α : Type*) where
  state : σ
  queue : List (α × Nat)
  handled : List Nat := []

/-- The loop begins. -/
def start (s : σ) (items : List α) : Loop σ α := { state := s, queue := items.zipIdx }

/-- One turn; `handle k s a` is what the `k`-th handling does with the item, and whether it
fails. -/
def step (handle : Nat → σ → α → σ × Bool) (l : Loop σ α) : Loop σ α :=
  match l.queue with
  | [] => l
  | (a, i) :: rest =>
    let result := handle l.handled.length l.state a
    { state := result.1
      queue := if result.2 then rest ++ [(a, i)] else rest
      handled := l.handled ++ [i] }

section
variable (handle : Nat → σ → α → σ × Bool)

theorem step_nil {l : Loop σ α} (h : l.queue = []) : step handle l = l := by
  unfold step
  rw [h]

theorem step_cons {l : Loop σ α} {a : α} {i : Nat} {rest : List (α × Nat)}
    (h : l.queue = (a, i) :: rest) :
    step handle l =
      { state := (handle l.handled.length l.state a).1
        queue := if (handle l.handled.length l.state a).2 then rest ++ [(a, i)] else rest
        handled := l.handled ++ [i] } := by
  unfold step
  rw [h]

/-- An empty queue stays empty. -/
theorem iterate_nil {l : Loop σ α} (h : l.queue = []) (m : Nat) : (step handle)^[m] l = l :=
  Function.iterate_fixed (step_nil handle h) m

/-- An item that waits goes on waiting or is handled. -/
theorem waits_or_handled {l : Loop σ α} {a : α} {i : Nat} (h : (a, i) ∈ l.queue) (m : Nat) :
    ∃ later, ((step handle)^[m] l).handled = l.handled ++ later ∧
      ((a, i) ∈ ((step handle)^[m] l).queue ∨ i ∈ later) := by
  induction m with
  | zero => exact ⟨[], (List.append_nil _).symm, .inl h⟩
  | succ m ih =>
    obtain ⟨later, hhandled, hwaits⟩ := ih
    rw [Function.iterate_succ_apply']
    cases hqueue : ((step handle)^[m] l).queue with
    | nil =>
      rw [step_nil handle hqueue]
      exact ⟨later, hhandled, hwaits⟩
    | cons x rest =>
      obtain ⟨b, j⟩ := x
      rw [step_cons handle hqueue]
      refine ⟨later ++ [j], by rw [hhandled, List.append_assoc], ?_⟩
      rw [hqueue, List.mem_cons] at hwaits
      rcases hwaits with (heq | hrest) | hlater
      · obtain ⟨rfl, rfl⟩ := Prod.mk.inj heq
        exact .inr (List.mem_append_right _ (List.mem_singleton_self _))
      · refine .inl ?_
        dsimp only
        split_ifs
        · exact List.mem_append_left _ hrest
        · exact hrest
      · exact .inr (List.mem_append_left _ hlater)

variable {handle}
variable {s : σ} {items : List α} {fails : Nat → α → Bool}

/-- As long as no handling fails, the items are handled one after the other. -/
theorem first_turns (hfails : ∀ k s a, (handle k s a).2 = fails k a) {m : Nat}
    (hm : m ≤ items.length) (h : ∀ k a, k < m → items[k]? = some a → fails k a = false) :
    ((step handle)^[m] (start s items)).queue = items.zipIdx.drop m ∧
      ((step handle)^[m] (start s items)).handled = List.range m := by
  induction m with
  | zero => exact ⟨rfl, rfl⟩
  | succ m ih =>
    obtain ⟨hqueue, hhandled⟩ := ih (by omega) fun k a hk => h k a (by omega)
    have hlt : m < items.zipIdx.length := by
      rw [List.length_zipIdx]
      omega
    rw [List.drop_eq_getElem_cons hlt, List.getElem_zipIdx, Nat.zero_add] at hqueue
    rw [Function.iterate_succ_apply', step_cons handle hqueue]
    dsimp only
    rw [hfails, hhandled, List.length_range,
      h m items[m] (Nat.lt_succ_self m) (List.getElem?_eq_getElem (by omega))]
    exact ⟨rfl, List.range_succ.symm⟩

/-- **The loop ends and handles each item at most once exactly when no item's first handling
fails.** -/
theorem drains_once_iff (hfails : ∀ k s a, (handle k s a).2 = fails k a) (s : σ)
    (items : List α) :
    ((∃ m, ((step handle)^[m] (start s items)).queue = []) ∧
        ∀ m, ((step handle)^[m] (start s items)).handled.Nodup) ↔
      ∀ k a, items[k]? = some a → fails k a = false := by
  constructor
  · rintro ⟨⟨n, hn⟩, hnodup⟩ k
    induction k using Nat.strong_induction_on with
    | _ k ih =>
      intro a ha
      by_contra hfail
      rw [Bool.not_eq_false] at hfail
      have hlt : k < items.length := (List.getElem?_eq_some_iff.mp ha).1
      obtain ⟨hqueue, hhandled⟩ := first_turns (s := s) hfails hlt.le fun j b hj => ih j hj b
      rw [List.drop_eq_getElem_cons (by rwa [List.length_zipIdx]), List.getElem_zipIdx,
        Nat.zero_add, (List.getElem?_eq_some_iff.mp ha).2] at hqueue
      -- the item that failed is last in the queue after its turn
      have hstep := step_cons handle hqueue
      rw [hfails, hhandled, List.length_range, hfail, if_pos rfl,
        ← Function.iterate_succ_apply' (step handle) k (start s items)] at hstep
      have hmem : (a, k) ∈ ((step handle)^[k + 1] (start s items)).queue := by
        rw [hstep]
        exact List.mem_append_right _ (List.mem_singleton_self _)
      obtain ⟨later, hlater, hwaits⟩ := waits_or_handled handle hmem n
      rw [← Function.iterate_add_apply] at hlater hwaits
      have hempty : ((step handle)^[n + (k + 1)] (start s items)).queue = [] := by
        rw [Nat.add_comm, Function.iterate_add_apply, iterate_nil handle hn]
        exact hn
      rw [hempty] at hwaits
      have hagain := hnodup (n + (k + 1))
      rw [hlater, hstep, List.nodup_append] at hagain
      exact hagain.2.2 k (List.mem_append_right _ (List.mem_singleton_self _)) k
        (hwaits.resolve_left List.not_mem_nil) rfl
  · intro h
    have hturns {m : Nat} (hm : m ≤ items.length) := first_turns (s := s) hfails hm
      fun k a _ => h k a
    have hend : ((step handle)^[items.length] (start s items)).queue = [] := by
      rw [(hturns le_rfl).1, List.drop_eq_nil_iff, List.length_zipIdx]
    refine ⟨⟨items.length, hend⟩, fun m => ?_⟩
    rcases Nat.le_total m items.length with hm | hm
    · rw [(hturns hm).2]
      exact List.nodup_range
    · obtain ⟨d, rfl⟩ := Nat.exists_eq_add_of_le' hm
      rw [Function.iterate_add_apply, iterate_nil handle hend, (hturns le_rfl).2]
      exact List.nodup_range

end

end Requeue
