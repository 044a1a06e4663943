import Mathlib.Data.Finite.Defs
import Mathlib.Data.Set.Finite.List
import Mathlib.Logic.Relation
import Mathlib.Order.WellFounded

/-!
# Sorting by passes

A variant of Kahn's algorithm. A pass goes through what is unsorted in a fixed order and takes out
every node that no unsorted node blocks. A blocker that is earlier in the order may be taken out in
the same pass, one that is not costs a pass more: `PassSort.Blocked p n` says that a chain of
blockers with `p` of the second kind ends in `n`, and so that `n` is left after `p` passes. The
sort succeeds if and only if blocking is acyclic, and orders nodes by `PassSort.Precedes`.
-/

namespace PassSort

variable {α : Type} (blocks : α → α → Bool)

/-- A pass over `rest`, with what it left unsorted before: what is unsorted after it and what it
takes out. -/
def pass : List α → List α → List α × List α
  | skipped, [] => (skipped, [])
  | skipped, n :: rest =>
    if (skipped ++ n :: rest).any (blocks · n) then pass (skipped ++ [n]) rest
    else
      let (unsorted, sorted) := pass skipped rest
      (unsorted, n :: sorted)

/-- Passes until nothing is unsorted: `some none` if a pass takes nothing out, `none` when the fuel
runs out. -/
def sort : Nat → List α → Option (Option (List α))
  | _, [] => some (some [])
  | 0, _ :: _ => none
  | fuel + 1, n :: rest =>
    match pass blocks [] (n :: rest) with
    | (_, []) => some none
    | (unsorted, m :: sorted) => (sort fuel unsorted).map (·.map (m :: sorted ++ ·))

/-! ## Chains of blockers -/

section

variable (rank : α → Nat) (nodes : List α)

/-- A chain of blockers among the nodes ends in a node, `p` of them not before what they block. -/
inductive Blocked : Nat → α → Prop where
  | zero {n} : n ∈ nodes → Blocked 0 n
  | forward {p m n} : n ∈ nodes → blocks m n = true → rank m < rank n → Blocked p m → Blocked p n
  | backward {p m n} : n ∈ nodes → blocks m n = true → rank n ≤ rank m → Blocked p m →
      Blocked (p + 1) n

/-- `m` is sorted in an earlier pass than `n`, or before it in the same one. -/
def Precedes (m n : α) : Prop :=
  (∃ p, Blocked blocks rank nodes p n ∧ ¬Blocked blocks rank nodes p m) ∨
    (∀ p, Blocked blocks rank nodes p m ↔ Blocked blocks rank nodes p n) ∧ rank m < rank n

/-- `m` is a node that blocks the node `n`. -/
def Blocks (m n : α) : Prop := m ∈ nodes ∧ n ∈ nodes ∧ blocks m n = true

/-- No node blocks itself through others. -/
def Acyclic : Prop := ∀ n, ¬Relation.TransGen (Blocks blocks nodes) n n

end

variable {blocks} {rank : α → Nat} {nodes : List α} {p q : Nat} {m n : α}

theorem Blocked.mem (h : Blocked blocks rank nodes p n) : n ∈ nodes := by
  cases h <;> assumption

theorem Blocked.pred (h : Blocked blocks rank nodes (p + 1) n) : Blocked blocks rank nodes p n := by
  generalize hq : p + 1 = q at h
  induction h generalizing p with
  | zero => cases hq
  | forward hn hblocks hrank _ ih => exact .forward hn hblocks hrank (ih hq)
  | @backward q m n hn hblocks hrank hm ih =>
    cases hq
    cases q with
    | zero => exact .zero hn
    | succ q => exact .backward hn hblocks hrank (ih rfl)

theorem Blocked.of_le (hpq : p ≤ q) (h : Blocked blocks rank nodes q n) :
    Blocked blocks rank nodes p n := by
  induction hpq with
  | refl => exact h
  | step _ ih => exact ih h.pred

theorem Precedes.asymm (h : Precedes blocks rank nodes m n) : ¬Precedes blocks rank nodes n m := by
  rintro (⟨q, hqm, hqn⟩ | ⟨hiff', hrank'⟩)
  · rcases h with ⟨p, hpn, hpm⟩ | ⟨hiff, -⟩
    · rcases Nat.le_total p q with hle | hle
      · exact hpm (hqm.of_le hle)
      · exact hqn (hpn.of_le hle)
    · exact hqn ((hiff q).mp hqm)
  · rcases h with ⟨p, hpn, hpm⟩ | ⟨-, hrank⟩
    · exact hpm ((hiff' p).mp hpn)
    · omega

/-! ## One pass -/

/-- What is unsorted within a pass, `skipped` behind it and `rest` before it: the nodes that one
more pass is left with, and those left by the passes before. -/
structure InPass (blocks : α → α → Bool) (rank : α → Nat) (nodes : List α) (p : Nat)
    (skipped rest : List α) : Prop where
  sorted : (skipped ++ rest).Pairwise (rank · < rank ·)
  skipped_blocked : ∀ n ∈ skipped, Blocked blocks rank nodes (p + 1) n
  rest_blocked : ∀ n ∈ rest, Blocked blocks rank nodes p n
  mem_of_blocked : ∀ n, Blocked blocks rank nodes (p + 1) n → n ∈ skipped ∨ n ∈ rest
  mem_rest : ∀ n, Blocked blocks rank nodes p n → n ∈ rest ∨ ∀ r ∈ rest, rank n < rank r

namespace InPass

variable {skipped rest : List α}

theorem skipped_lt (h : InPass blocks rank nodes p skipped (n :: rest)) (hm : m ∈ skipped) :
    rank m < rank n :=
  (List.pairwise_append.mp h.sorted).2.2 m hm n List.mem_cons_self

theorem le_of_mem (h : InPass blocks rank nodes p skipped (n :: rest)) (hm : m ∈ n :: rest) :
    rank n ≤ rank m := by
  rcases List.mem_cons.mp hm with rfl | hm
  · exact Nat.le_refl _
  · exact Nat.le_of_lt (List.rel_of_pairwise_cons (List.pairwise_append.mp h.sorted).2.1 hm)

/-- **A node is skipped in a pass if and only if it is left for one more.** -/
theorem blocked_iff (h : InPass blocks rank nodes p skipped (n :: rest)) :
    (skipped ++ n :: rest).any (blocks · n) = true ↔ Blocked blocks rank nodes (p + 1) n := by
  have hn : n ∈ nodes := (h.rest_blocked n List.mem_cons_self).mem
  rw [List.any_eq_true]
  constructor
  · rintro ⟨m, hm, hblocks⟩
    rcases List.mem_append.mp hm with hm | hm
    · exact .forward hn hblocks (h.skipped_lt hm) (h.skipped_blocked m hm)
    · exact .backward hn hblocks (h.le_of_mem hm) (h.rest_blocked m hm)
  · intro hblocked
    cases hblocked with
    | @forward _ m _ _ hblocks hrank hm =>
      refine ⟨m, List.mem_append_left _ ((h.mem_of_blocked m hm).resolve_right fun hrest => ?_),
        hblocks⟩
      have := h.le_of_mem hrest
      omega
    | @backward _ m _ _ hblocks hrank hm =>
      refine ⟨m, List.mem_append_right _ ((h.mem_rest m hm).resolve_right fun hlt => ?_), hblocks⟩
      have := hlt n List.mem_cons_self
      omega

theorem mem_tail (h : InPass blocks rank nodes p skipped (n :: rest))
    (hm : Blocked blocks rank nodes p m) : m ∈ rest ∨ ∀ r ∈ rest, rank m < rank r := by
  rcases h.mem_rest m hm with hmem | hlt
  · rcases List.mem_cons.mp hmem with rfl | hmem
    · exact .inr fun r hr => List.rel_of_pairwise_cons (List.pairwise_append.mp h.sorted).2.1 hr
    · exact .inl hmem
  · exact .inr fun r hr => hlt r (List.mem_cons_of_mem n hr)

theorem skip (h : InPass blocks rank nodes p skipped (n :: rest))
    (hn : Blocked blocks rank nodes (p + 1) n) :
    InPass blocks rank nodes p (skipped ++ [n]) rest where
  sorted := by simpa using h.sorted
  skipped_blocked := by
    intro m hm
    rcases List.mem_append.mp hm with hm | hm
    · exact h.skipped_blocked m hm
    · rw [List.mem_singleton.mp hm]
      exact hn
  rest_blocked := fun m hm => h.rest_blocked m (List.mem_cons_of_mem n hm)
  mem_of_blocked := by
    intro m hm
    have := h.mem_of_blocked m hm
    simp only [List.mem_append, List.mem_cons, List.not_mem_nil, or_false] at this ⊢
    tauto
  mem_rest := fun _ hm => h.mem_tail hm

theorem take (h : InPass blocks rank nodes p skipped (n :: rest))
    (hn : ¬Blocked blocks rank nodes (p + 1) n) :
    InPass blocks rank nodes p skipped rest where
  sorted := h.sorted.sublist (List.Sublist.append_left (List.sublist_cons_self n rest) skipped)
  skipped_blocked := h.skipped_blocked
  rest_blocked := fun m hm => h.rest_blocked m (List.mem_cons_of_mem n hm)
  mem_of_blocked := by
    intro m hm
    rcases h.mem_of_blocked m hm with hmem | hmem
    · exact .inl hmem
    · rcases List.mem_cons.mp hmem with rfl | hmem
      · exact absurd hm hn
      · exact .inr hmem
  mem_rest := fun _ hm => h.mem_tail hm

/-- A pass splits what it goes through and keeps the order. -/
theorem pass_spec {skipped rest : List α} (h : InPass blocks rank nodes p skipped rest) :
    ((pass blocks skipped rest).1 ++ (pass blocks skipped rest).2).Perm (skipped ++ rest) ∧
      InPass blocks rank nodes p (pass blocks skipped rest).1 [] ∧
      (pass blocks skipped rest).2.Sublist rest ∧
      ∀ n ∈ (pass blocks skipped rest).2, ¬Blocked blocks rank nodes (p + 1) n := by
  induction rest generalizing skipped with
  | nil => exact ⟨.refl _, h, .refl _, fun n hn => nomatch hn⟩
  | cons n rest ih =>
    rw [pass]
    by_cases hblocked : Blocked blocks rank nodes (p + 1) n
    · rw [if_pos (h.blocked_iff.mpr hblocked)]
      obtain ⟨hperm, hpass, hsub, hnot⟩ := ih (h.skip hblocked)
      rw [List.append_assoc] at hperm
      exact ⟨hperm, hpass, hsub.cons n, hnot⟩
    · rw [if_neg fun hany => hblocked (h.blocked_iff.mp hany)]
      obtain ⟨hperm, hpass, hsub, hnot⟩ := ih (h.take hblocked)
      refine ⟨?_, hpass, hsub.cons_cons n, List.forall_mem_cons.mpr ⟨hblocked, hnot⟩⟩
      exact (List.perm_middle.trans (hperm.cons n)).trans List.perm_middle.symm

end InPass

/-! ## All passes -/

/-- `unsorted` are the nodes that `p` passes leave, in their order. -/
structure Left (blocks : α → α → Bool) (rank : α → Nat) (nodes : List α) (p : Nat)
    (unsorted : List α) : Prop where
  sorted : unsorted.Pairwise (rank · < rank ·)
  mem_iff : ∀ n, n ∈ unsorted ↔ Blocked blocks rank nodes p n

namespace Left

variable {unsorted : List α}

theorem start (h : nodes.Pairwise (rank · < rank ·)) : Left blocks rank nodes 0 nodes where
  sorted := h
  mem_iff := fun _ => ⟨.zero, Blocked.mem⟩

theorem inPass (h : Left blocks rank nodes p unsorted) :
    InPass blocks rank nodes p [] unsorted where
  sorted := h.sorted
  skipped_blocked := fun _ hn => nomatch hn
  rest_blocked := fun n => (h.mem_iff n).mp
  mem_of_blocked := fun n hn => .inr ((h.mem_iff n).mpr hn.pred)
  mem_rest := fun n hn => .inl ((h.mem_iff n).mpr hn)

theorem next (h : Left blocks rank nodes p unsorted) :
    Left blocks rank nodes (p + 1) (pass blocks [] unsorted).1 where
  sorted := by simpa using h.inPass.pass_spec.2.1.sorted
  mem_iff := by
    intro n
    have hpass := h.inPass.pass_spec.2.1
    exact ⟨hpass.skipped_blocked n, fun hn => (hpass.mem_of_blocked n hn).resolve_right (nomatch ·)⟩

/-- What a pass takes out comes before what it leaves. -/
theorem precedes_of_pass (h : Left blocks rank nodes p unsorted) :
    (pass blocks [] unsorted).2.Pairwise (Precedes blocks rank nodes) ∧
      ∀ m ∈ (pass blocks [] unsorted).2, ∀ n ∈ (pass blocks [] unsorted).1,
        Precedes blocks rank nodes m n := by
  obtain ⟨-, hpass, hsub, hnot⟩ := h.inPass.pass_spec
  have hiff : ∀ m ∈ (pass blocks [] unsorted).2, ∀ q, Blocked blocks rank nodes q m ↔ q ≤ p := by
    intro m hm q
    have hmp := (h.mem_iff m).mp (hsub.subset hm)
    refine ⟨fun hq => ?_, fun hle => hmp.of_le hle⟩
    by_contra hlt
    exact hnot m hm (hq.of_le (by omega))
  constructor
  · refine (h.sorted.sublist hsub).imp_of_mem fun {m n} hm hn hrank => .inr ⟨fun q => ?_, hrank⟩
    rw [hiff m hm, hiff n hn]
  · intro m hm n hn
    exact .inl ⟨p + 1, hpass.skipped_blocked n hn, hnot m hm⟩

end Left

/-! ## When blocking is acyclic -/

/-- Following blockers, the rank grows or a pass is lost. -/
theorem Blocked.trans (h : Relation.TransGen (Blocks blocks nodes) m n)
    (hm : Blocked blocks rank nodes p m) :
    Blocked blocks rank nodes p n ∧ (rank m < rank n ∨ Blocked blocks rank nodes (p + 1) n) := by
  have hstep : ∀ {q a b}, Blocks blocks nodes a b → Blocked blocks rank nodes q a →
      Blocked blocks rank nodes q b ∧ (rank a < rank b ∨ Blocked blocks rank nodes (q + 1) b) := by
    intro q a b hab ha
    by_cases hlt : rank a < rank b
    · exact ⟨.forward hab.2.1 hab.2.2 hlt ha, .inl hlt⟩
    · have hb : Blocked blocks rank nodes (q + 1) b :=
        .backward hab.2.1 hab.2.2 (Nat.le_of_not_lt hlt) ha
      exact ⟨hb.pred, .inr hb⟩
  induction h with
  | single hab => exact hstep hab hm
  | tail _ hbc ih =>
    obtain ⟨hb, hlt | hb'⟩ := ih
    · obtain ⟨hc, hlt' | hc'⟩ := hstep hbc hb
      · exact ⟨hc, .inl (Nat.lt_trans hlt hlt')⟩
      · exact ⟨hc, .inr hc'⟩
    · exact ⟨(hstep hbc hb).1, .inr (hstep hbc hb').1⟩

/-- What blocks itself is never taken out. -/
theorem blocked_of_cycle (h : Relation.TransGen (Blocks blocks nodes) n n) :
    Blocked blocks rank nodes p n := by
  induction p with
  | zero =>
    obtain ⟨m, -, hmn⟩ := Relation.TransGen.tail'_iff.mp h
    exact .zero hmn.2.1
  | succ p ih => exact ((ih.trans h).2).resolve_left (Nat.lt_irrefl _)

/-- If all that is left is blocked by what is left, there is a cycle. -/
theorem not_acyclic_of_left {unsorted : List α} (hsub : unsorted ⊆ nodes) (hne : unsorted ≠ [])
    (h : ∀ n ∈ unsorted, ∃ m ∈ unsorted, blocks m n = true) : ¬Acyclic blocks nodes := by
  intro hacyclic
  let r : {n // n ∈ unsorted} → {n // n ∈ unsorted} → Prop :=
    fun m n => Relation.TransGen (Blocks blocks nodes) m.1 n.1
  have hwf : WellFounded r := by
    have : Finite {n // n ∈ unsorted} := List.finite_toSet unsorted
    have : IsTrans {n // n ∈ unsorted} r := ⟨fun _ _ _ hab hbc => hab.trans hbc⟩
    have : Std.Irrefl r := ⟨fun n => hacyclic n.1⟩
    exact Finite.wellFounded_of_trans_of_irrefl r
  have hnone : ∀ n : {n // n ∈ unsorted}, False := by
    intro n
    induction n using hwf.induction with
    | _ n ih =>
      obtain ⟨m, hm, hblocks⟩ := h n.1 n.2
      exact ih ⟨m, hm⟩ (.single ⟨hsub hm, hsub n.2, hblocks⟩)
  obtain ⟨n, hn⟩ := List.exists_mem_of_ne_nil unsorted hne
  exact hnone ⟨n, hn⟩

/-! ## The whole sort -/

namespace Left

variable {unsorted out : List α} {fuel : Nat}

theorem mem_of_blocks (h : Left blocks rank nodes p unsorted)
    (hn : Blocked blocks rank nodes (p + 1) n) : ∃ m ∈ unsorted, blocks m n = true := by
  cases hn with
  | @forward _ m _ _ hblocks _ hm => exact ⟨m, (h.mem_iff m).mpr hm.pred, hblocks⟩
  | @backward _ m _ _ hblocks _ hm => exact ⟨m, (h.mem_iff m).mpr hm, hblocks⟩

/-- A pass that takes nothing out has run into a cycle. -/
theorem not_acyclic (h : Left blocks rank nodes p unsorted) (hne : unsorted ≠ [])
    (hnil : (pass blocks [] unsorted).2 = []) : ¬Acyclic blocks nodes := by
  have hperm := h.inPass.pass_spec.1
  rw [hnil, List.append_nil, List.nil_append] at hperm
  refine not_acyclic_of_left (fun n hn => ((h.mem_iff n).mp hn).mem) hne fun n hn => ?_
  exact h.mem_of_blocks ((h.next.mem_iff n).mp (hperm.mem_iff.mpr hn))

theorem sort_spec (h : Left blocks rank nodes p unsorted) (hfuel : unsorted.length ≤ fuel) :
    ∃ r, sort blocks fuel unsorted = some r ∧ (r = none → ¬Acyclic blocks nodes) ∧
      ∀ out, r = some out → out.Perm unsorted ∧ out.Pairwise (Precedes blocks rank nodes) ∧
        ∀ n ∈ unsorted, ∃ q, ¬Blocked blocks rank nodes q n := by
  induction fuel generalizing p unsorted with
  | zero =>
    rw [List.eq_nil_of_length_eq_zero (Nat.le_zero.mp hfuel)]
    exact ⟨some [], rfl, (nomatch ·), by simp⟩
  | succ fuel ih =>
    cases unsorted with
    | nil => exact ⟨some [], rfl, (nomatch ·), by simp⟩
    | cons n rest =>
      obtain ⟨hperm, -, hsub, hnot⟩ := h.inPass.pass_spec
      obtain ⟨hpairs, hacross⟩ := h.precedes_of_pass
      have hnext := h.next
      have hcycle := h.not_acyclic (List.cons_ne_nil n rest)
      rw [sort]
      generalize pass blocks [] (n :: rest) = result at *
      obtain ⟨left, taken⟩ := result
      cases taken with
      | nil => exact ⟨none, rfl, fun _ => hcycle rfl, fun out hout => nomatch hout⟩
      | cons m taken =>
        have hlength : left.length + (taken.length + 1) = rest.length + 1 := by
          simpa using hperm.length_eq
        have hleft : left.length ≤ fuel := by
          rw [List.length_cons] at hfuel
          omega
        obtain ⟨r, hr, hnone, hsome⟩ := ih hnext hleft
        refine ⟨r.map (m :: taken ++ ·), by simp [hr], fun h => hnone (by simpa using h), ?_⟩
        intro out hout
        obtain ⟨rest', hrest', rfl⟩ := Option.map_eq_some_iff.mp hout
        obtain ⟨hperm', hpairs', hfree⟩ := hsome rest' hrest'
        refine ⟨?_, List.pairwise_append.mpr ⟨hpairs, hpairs', fun a ha b hb => ?_⟩, ?_⟩
        · exact ((hperm'.append_left _).trans List.perm_append_comm).trans hperm
        · exact hacross a ha b (hperm'.mem_iff.mp hb)
        · intro a ha
          rcases List.mem_append.mp (hperm.mem_iff.mpr ha) with hleft | htaken
          · exact hfree a hleft
          · exact ⟨p + 1, hnot a htaken⟩

end Left

/-- **The sort succeeds if and only if blocking is acyclic, and orders the nodes by `Precedes`.** -/
theorem sort_spec {fuel : Nat} (hsorted : nodes.Pairwise (rank · < rank ·))
    (hfuel : nodes.length ≤ fuel) :
    ∃ r, sort blocks fuel nodes = some r ∧ (r.isSome = true ↔ Acyclic blocks nodes) ∧
      ∀ out, r = some out → out.Perm nodes ∧ out.Pairwise (Precedes blocks rank nodes) := by
  obtain ⟨r, hr, hnone, hsome⟩ := (@Left.start _ blocks rank nodes hsorted).sort_spec hfuel
  refine ⟨r, hr, ⟨fun h n hcycle => ?_, fun h => ?_⟩, fun out hout => ?_⟩
  · obtain ⟨out, rfl⟩ := Option.isSome_iff_exists.mp h
    obtain ⟨m, -, hmn⟩ := Relation.TransGen.tail'_iff.mp hcycle
    obtain ⟨q, hq⟩ := (hsome out rfl).2.2 n hmn.2.1
    exact hq (blocked_of_cycle hcycle)
  · rw [Option.isSome_iff_ne_none]
    exact fun hn => hnone hn h
  · exact ⟨(hsome out hout).1, (hsome out hout).2.1⟩

/-- Of two elements of a list one stands before the other. -/
theorem or_of_pairwise {out : List α} {R : α → α → Prop} (h : out.Pairwise R) (hm : m ∈ out)
    (hn : n ∈ out) (hne : m ≠ n) : R m n ∨ R n m := by
  have hsymm : Std.Symm fun a b => R a b ∨ R b a := ⟨fun _ _ => Or.symm⟩
  have hor : out.Pairwise fun a b => R a b ∨ R b a := h.imp Or.inl
  exact hor.forall hm hn hne

end PassSort
