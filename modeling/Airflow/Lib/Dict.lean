import Mathlib.Algebra.Ring.Nat
import Mathlib.Data.List.Basic
import Mathlib.Data.List.Nodup
import Mathlib.Data.List.Forall2

/-!
# Insertion-ordered dictionaries

`Dict κ υ` is a list of entries with distinct keys, in the order of their insertion, with the
operations of a Python `dict`. Each operation has a `get?` lemma; `get?_eq_some` says that the
entries are what `get?` finds.
-/

/-- A dictionary in insertion order. -/
structure Dict (κ υ : Type*) where
  entries : List (κ × υ) := []
  keys_nodup : (entries.map Prod.fst).Nodup := by exact List.nodup_nil

namespace Dict

variable {κ υ : Type*}

/-- `d.keys()`. -/
def keys (d : Dict κ υ) : List κ := d.entries.map Prod.fst

/-- `d.values()`. -/
def values (d : Dict κ υ) : List υ := d.entries.map Prod.snd

/-- `len(d)`. -/
def size (d : Dict κ υ) : Nat := d.entries.length

/-- `{k: v for k, v in d.items() if p(k)}`. -/
def keep (d : Dict κ υ) (p : κ → Bool) : Dict κ υ where
  entries := d.entries.filter (p ·.1)
  keys_nodup := d.keys_nodup.sublist (List.filter_sublist.map _)

/-- `{k: v for k, v in d.items() if p(k, v)}`. -/
def filter (d : Dict κ υ) (p : κ → υ → Bool) : Dict κ υ where
  entries := d.entries.filter fun e => p e.1 e.2
  keys_nodup := d.keys_nodup.sublist (List.filter_sublist.map _)

/-- `{k: f(k, v) for k, v in d.items()}`. -/
def mapValues {υ' : Type*} (d : Dict κ υ) (f : κ → υ → υ') : Dict κ υ' where
  entries := d.entries.map fun e => (e.1, f e.1 e.2)
  keys_nodup := by
    rw [List.map_map]
    exact d.keys_nodup

theorem nodup_keys (d : Dict κ υ) : d.keys.Nodup := d.keys_nodup

theorem ext_entries {d d' : Dict κ υ} (h : d.entries = d'.entries) : d = d' := by
  cases d
  cases d'
  cases h
  rfl

theorem keep_eq_self {d : Dict κ υ} {p : κ → Bool} (h : ∀ k ∈ d.keys, p k = true) :
    d.keep p = d :=
  ext_entries (List.filter_eq_self.mpr fun _ he => h _ (List.mem_map_of_mem he))

theorem size_keep_le (d : Dict κ υ) (p : κ → Bool) : (d.keep p).size ≤ d.size :=
  List.length_filter_le _ _

section
variable [DecidableEq κ]

/-- `d.get(k)`. -/
def get? (d : Dict κ υ) (k : κ) : Option υ := (d.entries.find? (·.1 = k)).map Prod.snd

/-- `d[k] = v`: a new key comes last. -/
def set (d : Dict κ υ) (k : κ) (v : υ) : Dict κ υ where
  entries :=
    if k ∈ d.keys then d.entries.map fun e => if e.1 = k then (k, v) else e
    else d.entries ++ [(k, v)]
  keys_nodup := by
    split
    · have hkeys : (d.entries.map fun e => if e.1 = k then (k, v) else e).map Prod.fst =
          d.keys := by
        rw [List.map_map]
        refine List.map_congr_left fun e _ => ?_
        by_cases h : e.1 = k <;> simp [h]
      rw [hkeys]
      exact d.keys_nodup
    · next h =>
      rw [List.map_append, List.nodup_append]
      refine ⟨d.keys_nodup, by simp, fun a ha b hb => ?_⟩
      rw [List.map_singleton, List.mem_singleton] at hb
      subst hb
      rintro rfl
      exact h ha

/-- `del d[k]`, where `k` may be missing. -/
def erase (d : Dict κ υ) (k : κ) : Dict κ υ := d.keep (· ≠ k)

/-- `d.pop(k)`; `none` for `KeyError`. -/
def pop (d : Dict κ υ) (k : κ) : Option (υ × Dict κ υ) := (d.get? k).map (·, d.erase k)

/-- `d.setdefault(k, v)`. -/
def setDefault (d : Dict κ υ) (k : κ) (v : υ) : Dict κ υ :=
  if (d.get? k).isSome then d else d.set k v

variable {d : Dict κ υ} {k k' : κ} {v : υ}

theorem get?_eq_some : d.get? k = some v ↔ (k, v) ∈ d.entries := by
  simp only [get?, Option.map_eq_some_iff]
  constructor
  · rintro ⟨⟨k', v'⟩, hfind, rfl⟩
    have hk : k' = k := by simpa using List.find?_some hfind
    exact hk ▸ List.mem_of_find?_eq_some hfind
  · intro hmem
    have hsome : (d.entries.find? (·.1 = k)).isSome := by
      rw [List.find?_isSome]
      exact ⟨_, hmem, by simp⟩
    obtain ⟨⟨k', v'⟩, hfind⟩ := Option.isSome_iff_exists.mp hsome
    have hk : k' = k := by simpa using List.find?_some hfind
    subst hk
    have heq := List.inj_on_of_nodup_map d.keys_nodup hmem (List.mem_of_find?_eq_some hfind) rfl
    exact ⟨_, hfind, congrArg Prod.snd heq.symm⟩

theorem get?_eq_none : d.get? k = none ↔ k ∉ d.keys := by
  simp only [get?, keys, Option.map_eq_none_iff, List.find?_eq_none, decide_eq_true_eq,
    List.mem_map, not_exists, not_and]

theorem mem_keys : k ∈ d.keys ↔ ∃ v, d.get? k = some v := by
  rw [← Option.isSome_iff_exists, Option.isSome_iff_ne_none, ne_eq, get?_eq_none, not_not]

theorem mem_values : v ∈ d.values ↔ ∃ k, d.get? k = some v := by
  simp [values, get?_eq_some]

@[simp]
theorem get?_empty : ({} : Dict κ υ).get? k = none := rfl

theorem get?_keep (p : κ → Bool) : (d.keep p).get? k = if p k then d.get? k else none := by
  ext v
  rw [get?_eq_some, keep, List.mem_filter]
  cases p k <;> simp [get?_eq_some]

theorem get?_filter (p : κ → υ → Bool) : (d.filter p).get? k = (d.get? k).filter (p k) := by
  ext v
  rw [get?_eq_some, filter, List.mem_filter, Option.filter_eq_some_iff, get?_eq_some]

omit [DecidableEq κ] in
theorem keys_mapValues {υ' : Type*} (f : κ → υ → υ') : (d.mapValues f).keys = d.keys := by
  rw [keys, mapValues, List.map_map]
  rfl

theorem get?_mapValues {υ' : Type*} (f : κ → υ → υ') :
    (d.mapValues f).get? k = (d.get? k).map (f k) := by
  ext v
  rw [get?_eq_some, mapValues, List.mem_map, Option.map_eq_some_iff]
  constructor
  · rintro ⟨e, he, heq⟩
    obtain ⟨rfl, rfl⟩ := Prod.mk.inj heq
    exact ⟨e.2, get?_eq_some.mpr he, rfl⟩
  · rintro ⟨w, hw, rfl⟩
    exact ⟨(k, w), get?_eq_some.mp hw, rfl⟩

theorem get?_erase : (d.erase k).get? k' = if k' = k then none else d.get? k' := by
  rw [erase, get?_keep]
  by_cases h : k' = k <;> simp [h]

theorem get?_set : (d.set k v).get? k' = if k' = k then some v else d.get? k' := by
  by_cases hk : k ∈ d.keys
  · have hmap : ∀ l : List (κ × υ),
        ((l.map fun e => if e.1 = k then (k, v) else e).find? (·.1 = k')).map Prod.snd =
          if k' = k then ((l.find? (·.1 = k)).map fun _ => v)
          else (l.find? (·.1 = k')).map Prod.snd := by
      intro l
      induction l with
      | nil => simp
      | cons e l ih =>
        rw [List.map_cons, List.find?_cons, List.find?_cons, List.find?_cons]
        by_cases he : e.1 = k
        · by_cases hk' : k' = k
          · simp [he, hk']
          · simp only [he, if_true, Ne.symm hk', decide_false, hk', if_false] at ih ⊢
            exact ih
        · by_cases hk' : k' = k
          · subst hk'
            simp only [he, if_false, decide_false, if_true] at ih ⊢
            exact ih
          · by_cases he' : e.1 = k' <;> simp_all
    rw [get?, set]
    simp only [if_pos hk, hmap]
    obtain ⟨w, hw⟩ := mem_keys.mp hk
    rw [get?, Option.map_eq_some_iff] at hw
    obtain ⟨e, he, -⟩ := hw
    rw [he, get?]
    rfl
  · rw [get?, set]
    simp only [if_neg hk, List.find?_append, List.find?_singleton]
    by_cases hk' : k' = k
    · subst hk'
      have hnone : d.entries.find? (·.1 = k') = none := by
        simpa [get?] using get?_eq_none.mpr hk
      simp [hnone]
    · simp [hk', Ne.symm hk', get?]

theorem get?_setDefault :
    (d.setDefault k v).get? k' = if k' = k then some ((d.get? k).getD v) else d.get? k' := by
  unfold setDefault
  cases hk : d.get? k with
  | none => simp [get?_set]
  | some w =>
    by_cases h : k' = k
    · simp [h, hk]
    · simp [h]

theorem keys_set : (d.set k v).keys = if k ∈ d.keys then d.keys else d.keys ++ [k] := by
  by_cases h : k ∈ d.keys
  · rw [keys, set]
    simp only [if_pos h, List.map_map]
    refine List.map_congr_left fun e _ => ?_
    by_cases he : e.1 = k <;> simp [he]
  · rw [keys, set]
    simp only [if_neg h, List.map_append, List.map_singleton]
    rfl

theorem mem_keys_set : k' ∈ (d.set k v).keys ↔ k' ∈ d.keys ∨ k' = k := by
  rw [mem_keys, mem_keys, get?_set]
  by_cases h : k' = k <;> simp [h]

theorem mem_keys_erase : k' ∈ (d.erase k).keys ↔ k' ∈ d.keys ∧ k' ≠ k := by
  rw [mem_keys, mem_keys, get?_erase]
  by_cases h : k' = k <;> simp [h]

theorem size_set_of_mem (h : k ∈ d.keys) : (d.set k v).size = d.size := by
  simp [size, set, h]

theorem size_set_of_not_mem (h : k ∉ d.keys) : (d.set k v).size = d.size + 1 := by
  simp [size, set, h]

theorem size_erase_le : (d.erase k).size ≤ d.size := d.size_keep_le _

theorem pop_eq_some {e : υ × Dict κ υ} :
    d.pop k = some e ↔ d.get? k = some e.1 ∧ e.2 = d.erase k := by
  obtain ⟨v, d'⟩ := e
  rw [pop, Option.map_eq_some_iff]
  constructor
  · rintro ⟨w, hw, heq⟩
    cases heq
    exact ⟨hw, rfl⟩
  · rintro ⟨hw, rfl⟩
    exact ⟨v, hw, rfl⟩

theorem pop_isSome : (d.pop k).isSome ↔ k ∈ d.keys := by
  rw [pop, Option.isSome_map, Option.isSome_iff_ne_none, ne_eq, get?_eq_none, not_not]

/-! ## Sums over the values -/

/-- Setting a key replaces its summand. -/
theorem sum_values_set (g : υ → Nat) :
    ((d.set k v).values.map g).sum + (d.get? k).elim 0 g = (d.values.map g).sum + g v := by
  by_cases hk : k ∈ d.keys
  · obtain ⟨w, hw⟩ := mem_keys.mp hk
    have hreplace : ∀ l : List (κ × υ), (l.map Prod.fst).Nodup → (k, w) ∈ l →
        (((l.map fun e => if e.1 = k then (k, v) else e).map Prod.snd).map g).sum + g w =
          ((l.map Prod.snd).map g).sum + g v := by
      intro l hnodup hmem
      induction l with
      | nil => cases hmem
      | cons e l ih =>
        rw [List.map_cons, List.nodup_cons] at hnodup
        rcases List.mem_cons.mp hmem with rfl | hmem
        · have hrest : (l.map fun e => if e.1 = k then (k, v) else e) = l := by
            refine (List.map_congr_left fun e he => ?_).trans (List.map_id l)
            have hne : e.1 ≠ k := fun heq => hnodup.1 (List.mem_map.mpr ⟨e, he, heq⟩)
            rw [if_neg hne]
            rfl
          simp only [List.map_cons, if_true, List.sum_cons, hrest]
          omega
        · have hne : e.1 ≠ k := fun heq => hnodup.1 (heq ▸ List.mem_map_of_mem hmem)
          have := ih hnodup.2 hmem
          simp only [List.map_cons, if_neg hne, List.sum_cons]
          omega
    rw [hw, values, values, set]
    simp only [if_pos hk, Option.elim]
    exact hreplace d.entries d.keys_nodup (get?_eq_some.mp hw)
  · rw [get?_eq_none.mpr hk, values, values, set]
    simp [if_neg hk]

end

end Dict

/-!
## Dictionaries of groups

A `defaultdict` of groups, which may be dictionaries of groups again. Each group stands for a set
of values by a predicate `P`, and the dictionary for the set of pairs of a key and a value of its
group (`Holds`). Adding a value to a group adds the one pair (`holds_update`), at every depth of
nesting, so that grouping a list gives the set of what was grouped (`holds_group`).
-/

namespace Dict

variable {κ υ β ι : Type*}

/-- A dictionary without entries. -/
def empty : Dict κ υ := {}

section
variable [DecidableEq κ]

/-- `d[k] = f(d[k])` of a `defaultdict`. -/
def update (d : Dict κ υ) (k : κ) (default : υ) (f : υ → υ) : Dict κ υ :=
  d.set k (f ((d.get? k).getD default))

/-- `d[k]` of a `defaultdict`. -/
def getD (d : Dict κ υ) (k : κ) (default : υ) : υ := (d.get? k).getD default

/-- The pairs that a dictionary of groups stands for, when a group stands for what is in `P`. -/
def Holds (P : υ → β → Prop) (d : Dict κ υ) (p : κ × β) : Prop :=
  ∃ v, d.get? p.1 = some v ∧ P v p.2

variable {P : υ → β → Prop} {d : Dict κ υ} {k : κ} {default : υ} {f : υ → υ} {b : β} {p : κ × β}

theorem not_holds_empty : ¬(empty : Dict κ υ).Holds P p := fun ⟨_, h, _⟩ => nomatch h

theorem holds_iff_getD (hdefault : ∀ b, ¬P default b) :
    d.Holds P (k, b) ↔ P (d.getD k default) b := by
  rw [getD, Holds]
  cases h : d.get? k with
  | none => simp [hdefault]
  | some v => simp

/-- A pair is held when some entry of the dictionary holds it. -/
theorem holds_iff_entries : d.Holds P p ↔ ∃ e ∈ d.entries, p.1 = e.1 ∧ P e.2 p.2 := by
  constructor
  · rintro ⟨v, hv, hp⟩
    exact ⟨(p.1, v), get?_eq_some.mp hv, rfl, hp⟩
  · rintro ⟨e, he, heq, hp⟩
    exact ⟨e.2, get?_eq_some.mpr (heq ▸ he), hp⟩

/-- **Adding a value to one group adds one pair.** -/
theorem holds_update (hdefault : ∀ b, ¬P default b) (hf : ∀ v c, P (f v) c ↔ P v c ∨ c = b) :
    (d.update k default f).Holds P p ↔ d.Holds P p ∨ p = (k, b) := by
  obtain ⟨k', c⟩ := p
  rw [update, holds_iff_getD hdefault, holds_iff_getD hdefault, getD, getD, get?_set]
  by_cases hk : k' = k
  · subst hk
    rw [if_pos rfl, Option.getD_some, hf]
    simp
  · rw [if_neg hk]
    simp [hk]

/-- **A grouped list holds what was grouped.** -/
theorem holds_group (key : ι → κ) (value : ι → β) (g : ι → υ → υ) (hdefault : ∀ b, ¬P default b)
    (hg : ∀ i v c, P (g i v) c ↔ P v c ∨ c = value i) (items : List ι) :
    (items.foldl (fun d i => d.update (key i) default (g i)) d).Holds P p ↔
      d.Holds P p ∨ ∃ i ∈ items, p = (key i, value i) := by
  induction items generalizing d with
  | nil => simp
  | cons i items ih =>
    rw [List.foldl_cons, ih, holds_update hdefault (hg i), or_assoc]
    simp

end

end Dict

/-!
## Related dictionaries

`Dict.Rel R d d'` says that two dictionaries have the same keys in the same order, with values
related by `R` at each key. The operations of `Dict` keep it, and a write may change what is asked of
the values at its key (`Rel.set`). Two runs over related inputs are compared with it.
-/

namespace Dict

variable {κ υ υ' : Type*}

/-- The same keys in the same order, with related values. -/
def Rel (R : κ → υ → υ' → Prop) (d : Dict κ υ) (d' : Dict κ υ') : Prop :=
  List.Forall₂ (fun e e' => e.1 = e'.1 ∧ R e.1 e.2 e'.2) d.entries d'.entries

variable {R S : κ → υ → υ' → Prop} {d : Dict κ υ} {d' : Dict κ υ'}

theorem Rel.empty : Rel R ({} : Dict κ υ) ({} : Dict κ υ') := List.Forall₂.nil

theorem Rel.mono (h : Rel R d d') (hRS : ∀ k v v', R k v v' → S k v v') : Rel S d d' :=
  List.Forall₂.imp (fun _ _ hR => ⟨hR.1, hRS _ _ _ hR.2⟩) h

theorem Rel.keys (h : Rel R d d') : d.keys = d'.keys := by
  rw [Dict.keys, Dict.keys]
  unfold Rel at h
  generalize d.entries = l at h ⊢
  generalize d'.entries = l' at h ⊢
  induction h with
  | nil => rfl
  | cons hR _ ih => rw [List.map_cons, List.map_cons, hR.1, ih]

theorem Rel.refl {R : κ → υ → υ → Prop} (hR : ∀ k v, R k v v) (d : Dict κ υ) : Rel R d d :=
  List.forall₂_same.mpr fun _ _ => ⟨rfl, hR _ _⟩

/-- Values that are related only when they are equal make equal dictionaries. -/
theorem Rel.eq {R : κ → υ → υ → Prop} {d d' : Dict κ υ} (h : Rel R d d')
    (hR : ∀ k v v', R k v v' → v = v') : d = d' := by
  refine ext_entries ?_
  have heq : List.Forall₂ (· = ·) d.entries d'.entries :=
    List.Forall₂.imp (fun _ _ he => Prod.ext he.1 (hR _ _ _ he.2)) h
  rwa [List.forall₂_eq_eq_eq] at heq

theorem Rel.keep (h : Rel R d d') (p : κ → Bool) : Rel R (d.keep p) (d'.keep p) := by
  refine List.rel_filter (fun e e' he => ?_) h
  change p e.1 = true ↔ p e'.1 = true
  rw [he.1]

section
variable [DecidableEq κ]

theorem Rel.get? (h : Rel R d d') (k : κ) :
    d.get? k = none ∧ d'.get? k = none ∨
      ∃ v v', d.get? k = some v ∧ d'.get? k = some v' ∧ R k v v' := by
  rw [Dict.get?, Dict.get?]
  unfold Rel at h
  generalize d.entries = l at h ⊢
  generalize d'.entries = l' at h ⊢
  induction h with
  | nil => exact .inl ⟨rfl, rfl⟩
  | @cons e e' _ _ hR _ ih =>
    rw [List.find?_cons, List.find?_cons, ← hR.1]
    by_cases hk : e.1 = k
    · simp only [hk, decide_true, Option.map_some]
      exact .inr ⟨e.2, e'.2, rfl, rfl, hk ▸ hR.2⟩
    · simp only [hk, decide_false]
      exact ih

/-- What is asked of the values may depend on what the dictionaries hold. -/
theorem Rel.imp_get? (h : Rel R d d')
    (hRS : ∀ k v v', d.get? k = some v → d'.get? k = some v' → R k v v' → S k v v') :
    Rel S d d' := by
  have hget : ∀ e ∈ d.entries, ∀ e' ∈ d'.entries, e.1 = e'.1 ∧ R e.1 e.2 e'.2 →
      e.1 = e'.1 ∧ S e.1 e.2 e'.2 := by
    intro e he e' he' hR
    exact ⟨hR.1, hRS _ _ _ (get?_eq_some.mpr he) (get?_eq_some.mpr (hR.1 ▸ he')) hR.2⟩
  unfold Rel at h ⊢
  generalize d.entries = l at h hget ⊢
  generalize d'.entries = l' at h hget ⊢
  induction h with
  | nil => exact .nil
  | cons hR _ ih =>
    exact .cons (hget _ List.mem_cons_self _ List.mem_cons_self hR)
      (ih fun e he e' he' => hget e (List.mem_cons_of_mem _ he) e' (List.mem_cons_of_mem _ he'))

/-- What is asked of the values may change at the key that is written. -/
theorem Rel.set (h : Rel R d d') {k : κ} {v : υ} {v' : υ'}
    (hRS : ∀ k', k' ≠ k → ∀ v v', R k' v v' → S k' v v') (hv : S k v v') :
    Rel S (d.set k v) (d'.set k v') := by
  have hkeys := h.keys
  have hmap : ∀ l l', List.Forall₂ (fun e e' => e.1 = e'.1 ∧ R e.1 e.2 e'.2) l l' →
      List.Forall₂ (fun e e' => e.1 = e'.1 ∧ S e.1 e.2 e'.2)
        (l.map fun e => if e.1 = k then (k, v) else e)
        (l'.map fun e => if e.1 = k then (k, v') else e) := by
    intro l l' hl
    induction hl with
    | nil => exact .nil
    | @cons e e' _ _ hR _ ih =>
      rw [List.map_cons, List.map_cons]
      refine .cons ?_ ih
      by_cases hk : e.1 = k
      · rw [if_pos hk, if_pos (hR.1 ▸ hk)]
        exact ⟨rfl, hv⟩
      · rw [if_neg hk, if_neg (hR.1 ▸ hk)]
        exact ⟨hR.1, hRS _ hk _ _ hR.2⟩
  by_cases hk : k ∈ d.keys
  · simp only [Rel, Dict.set, if_pos hk, if_pos (hkeys ▸ hk)]
    exact hmap _ _ h
  · simp only [Rel, Dict.set, if_neg hk, if_neg (hkeys ▸ hk)]
    refine List.rel_append ?_ (.cons ⟨rfl, hv⟩ .nil)
    have hne : ∀ e ∈ d.entries, e.1 ≠ k := fun e he heq => hk (heq ▸ List.mem_map_of_mem he)
    exact List.Forall₂.imp (fun e e' he => ⟨he.2.1, hRS _ he.1 _ _ he.2.2⟩)
      ((List.forall₂_and_left _ _).mpr ⟨hne, h⟩)

theorem Rel.setDefault (h : Rel R d d') {k : κ} {v : υ} {v' : υ'} (hv : R k v v') :
    Rel R (d.setDefault k v) (d'.setDefault k v') := by
  unfold Dict.setDefault
  rcases h.get? k with ⟨hnone, hnone'⟩ | ⟨w, w', hw, hw', -⟩
  · rw [hnone, hnone']
    exact h.set (fun _ _ _ _ hR => hR) hv
  · rw [hw, hw']
    exact h

theorem Rel.erase (h : Rel R d d') (k : κ) : Rel R (d.erase k) (d'.erase k) := h.keep _

end

end Dict
