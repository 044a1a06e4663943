import Airflow.Lib.Dict

/-!
# Writing one layer over another

A loop whose every turn writes at most one value under a key leaves there what the last turn to write
wrote (`lookup_foldl`). Over the entries of a dictionary, whose keys are distinct, that is what the
dictionary holds (`findSome?_entries`). The keys are in the order in which they were first written
(`firsts`).
-/

/-! ## The last write -/

/-- What is under a key after a loop is what the last turn to write there wrote, and what was there
before if none did. -/
theorem lookup_foldl {σ ι υ : Type*} {f : σ → ι → σ} (look : σ → Option υ) (write : ι → Option υ)
    (h : ∀ s i, look (f s i) = (write i).or (look s)) (is : List ι) (s : σ) :
    look (is.foldl f s) = (is.reverse.findSome? write).or (look s) := by
  induction is generalizing s with
  | nil => rfl
  | cons i is ih =>
    rw [List.foldl_cons, ih, h, List.reverse_cons, List.findSome?_append, Option.or_assoc]
    congr 1
    rw [List.findSome?_singleton]

theorem findSome?_unique {ι υ : Type*} {write : ι → Option υ} {is : List ι} {i : ι} (hi : i ∈ is)
    (h : ∀ i' ∈ is, i' = i ∨ write i' = none) : is.findSome? write = write i := by
  induction is with
  | nil => cases hi
  | cons i' is ih =>
    rw [List.findSome?_cons]
    cases hw : write i' with
    | none =>
      rcases List.mem_cons.mp hi with rfl | hi
      · rw [hw]
        refine List.findSome?_eq_none_iff.mpr fun i' hi' => ?_
        rcases h i' (List.mem_cons_of_mem _ hi') with rfl | hnone
        · exact hw
        · exact hnone
      · exact ih hi fun i' hi' => h i' (List.mem_cons_of_mem _ hi')
    | some v =>
      rcases h i' List.mem_cons_self with rfl | hnone
      · exact hw.symm
      · rw [hw] at hnone
        cases hnone

namespace Dict

variable {κ υ υ' : Type*} [DecidableEq κ]

/-- A loop over the entries of a dictionary writes under a key what the dictionary holds there. -/
theorem findSome?_entries (d : Dict κ υ) (k : κ) (g : υ → Option υ') :
    d.entries.reverse.findSome? (fun e => if e.1 = k then g e.2 else none) = (d.get? k).bind g := by
  cases hget : d.get? k with
  | none =>
    rw [Option.bind_none, List.findSome?_eq_none_iff]
    intro e he
    refine if_neg fun hk => get?_eq_none.mp hget ?_
    exact List.mem_map.mpr ⟨e, List.mem_reverse.mp he, hk⟩
  | some v =>
    have hmem := get?_eq_some.mp hget
    rw [findSome?_unique (List.mem_reverse.mpr hmem)]
    · exact if_pos rfl
    · intro e he
      by_cases hk : e.1 = k
      · have hget' : d.get? k = some e.2 := get?_eq_some.mpr (hk ▸ List.mem_reverse.mp he)
        rw [hget, Option.some.injEq] at hget'
        exact .inl (Prod.ext hk hget'.symm)
      · exact .inr (if_neg hk)

end Dict

/-! ## The order of the keys -/

section
variable {κ : Type*} [DecidableEq κ]

/-- A key comes at the end, unless it is there already. -/
def addKey (keys : List κ) (k : κ) : List κ := if k ∈ keys then keys else keys ++ [k]

/-- The keys in the order in which they come first. -/
def firsts (ks : List κ) : List κ := ks.foldl addKey []

theorem Dict.keys_set_eq_addKey {υ : Type*} (d : Dict κ υ) (k : κ) (v : υ) :
    (d.set k v).keys = addKey d.keys k := keys_set

theorem Dict.keys_setDefault {υ : Type*} (d : Dict κ υ) (k : κ) (v : υ) :
    (d.setDefault k v).keys = addKey d.keys k := by
  unfold setDefault addKey
  cases hget : d.get? k with
  | none =>
    rw [if_neg (get?_eq_none.mp hget)]
    exact keys_set.trans (if_neg (get?_eq_none.mp hget))
  | some v' => exact (if_pos (mem_keys.mpr ⟨v', hget⟩)).symm

theorem mem_foldl_addKey {ks acc : List κ} {k : κ} :
    k ∈ ks.foldl addKey acc ↔ k ∈ acc ∨ k ∈ ks := by
  induction ks generalizing acc with
  | nil => simp
  | cons k' ks ih =>
    rw [List.foldl_cons, ih, addKey]
    split
    · next hmem =>
      rw [List.mem_cons]
      constructor
      · exact fun h => h.imp_right .inr
      · rintro (h | rfl | h)
        · exact .inl h
        · exact .inl hmem
        · exact .inr h
    · rw [List.mem_append, List.mem_singleton, List.mem_cons, or_assoc]

theorem mem_firsts {ks : List κ} {k : κ} : k ∈ firsts ks ↔ k ∈ ks :=
  mem_foldl_addKey.trans (by simp)

theorem foldl_addKey_foldl_addKey (as bs cs : List κ) :
    cs.foldl addKey (bs.foldl addKey as) = (cs.foldl addKey bs).foldl addKey as := by
  induction cs generalizing bs with
  | nil => rfl
  | cons k cs ih =>
    have hadd : addKey (bs.foldl addKey as) k = (addKey bs k).foldl addKey as := by
      by_cases hk : k ∈ bs
      · have hbs : addKey bs k = bs := if_pos hk
        rw [hbs, addKey, if_pos (mem_foldl_addKey.mpr (.inr hk))]
      · have hbs : addKey bs k = bs ++ [k] := if_neg hk
        rw [hbs, List.foldl_append]
        rfl
    rw [List.foldl_cons, List.foldl_cons, hadd, ih]

theorem exists_foldl_addKey (ks acc : List κ) : ∃ rest, ks.foldl addKey acc = acc ++ rest := by
  induction ks generalizing acc with
  | nil => exact ⟨[], (List.append_nil acc).symm⟩
  | cons k ks ih =>
    obtain ⟨rest, hrest⟩ := ih (addKey acc k)
    rw [List.foldl_cons, hrest, addKey]
    split
    · exact ⟨rest, rfl⟩
    · exact ⟨k :: rest, by simp⟩

/-- What comes before a key is what came before it first. -/
theorem firsts_append_cons {before after : List κ} {k : κ} (h : k ∉ before) :
    ∃ rest, firsts (before ++ k :: after) = firsts before ++ k :: rest := by
  obtain ⟨rest, hrest⟩ := exists_foldl_addKey after (firsts before ++ [k])
  refine ⟨rest, ?_⟩
  rw [firsts, List.foldl_append, List.foldl_cons]
  change after.foldl addKey (addKey (firsts before) k) = _
  rw [addKey, if_neg (mt mem_firsts.mp h), hrest, List.append_assoc, List.singleton_append]

end

/-! ## One dictionary over another -/

namespace Dict

variable {κ υ : Type*} [DecidableEq κ] {d d' : Dict κ υ} {k : κ}

/-- `d.update(d')`. -/
def updateWith (d d' : Dict κ υ) : Dict κ υ := d'.entries.foldl (fun d e => d.set e.1 e.2) d

/-- Dictionaries with the same keys in the same order and the same values under them are equal. -/
theorem ext_get? (hkeys : d.keys = d'.keys) (hget : ∀ k, d.get? k = d'.get? k) : d = d' := by
  have hlength : d.entries.length = d'.entries.length := by
    simpa only [keys, List.length_map] using congrArg List.length hkeys
  refine ext_entries (List.ext_getElem hlength fun i h h' => ?_)
  have hfst : d.entries[i].1 = d'.entries[i].1 := by
    have hi := congrArg (·[i]?) hkeys
    simpa [keys, h, h'] using hi
  have hv : d.get? d.entries[i].1 = some d.entries[i].2 := get?_eq_some.mpr (List.getElem_mem h)
  have hv' : d'.get? d'.entries[i].1 = some d'.entries[i].2 :=
    get?_eq_some.mpr (List.getElem_mem h')
  rw [hfst, hget, hv', Option.some.injEq] at hv
  exact Prod.ext hfst hv.symm

theorem get?_updateWith : (d.updateWith d').get? k = (d'.get? k).or (d.get? k) := by
  have hstep : ∀ (s : Dict κ υ) (e : κ × υ),
      (s.set e.1 e.2).get? k = (if e.1 = k then some e.2 else none).or (s.get? k) := by
    intro s e
    rw [get?_set]
    by_cases hk : e.1 = k
    · rw [if_pos hk, if_pos hk.symm, Option.some_or]
    · rw [if_neg hk, if_neg (Ne.symm hk), Option.none_or]
  have hlook := lookup_foldl (fun s : Dict κ υ => s.get? k) _ hstep d'.entries d
  rw [findSome?_entries d' k some, Option.bind_fun_some] at hlook
  exact hlook

theorem keys_updateWith : (d.updateWith d').keys = d'.keys.foldl addKey d.keys := by
  have hfold : ∀ (entries : List (κ × υ)) (d : Dict κ υ),
      (entries.foldl (fun d e => d.set e.1 e.2) d).keys =
        (entries.map Prod.fst).foldl addKey d.keys := by
    intro entries
    induction entries with
    | nil => exact fun _ => rfl
    | cons e entries ih =>
      intro d
      rw [List.foldl_cons, ih, keys_set_eq_addKey, List.map_cons, List.foldl_cons]
  exact hfold d'.entries d

/-- Updates may be made in either association. -/
theorem updateWith_assoc (a b c : Dict κ υ) : (a.updateWith b).updateWith c = a.updateWith (b.updateWith c) := by
  refine ext_get? ?_ fun k => ?_
  · rw [keys_updateWith, keys_updateWith, keys_updateWith, keys_updateWith, foldl_addKey_foldl_addKey]
  · rw [get?_updateWith, get?_updateWith, get?_updateWith, get?_updateWith, Option.or_assoc]

theorem updateWith_eq_empty : (d.updateWith d').entries = [] ↔ d.entries = [] ∧ d'.entries = [] := by
  constructor
  · intro h
    have hkeys : ∀ d : Dict κ υ, d.entries = [] ↔ ∀ k, d.get? k = none := by
      intro d
      refine ⟨fun h k => by rw [get?, h]; rfl, fun h => ?_⟩
      refine List.eq_nil_iff_forall_not_mem.mpr fun e he => ?_
      have := (get?_eq_some.mpr he).symm.trans (h e.1)
      cases this
    rw [hkeys] at h ⊢
    rw [hkeys]
    refine ⟨fun k => ?_, fun k => ?_⟩
    · exact (Option.or_eq_none_iff.mp (get?_updateWith.symm.trans (h k))).2
    · exact (Option.or_eq_none_iff.mp (get?_updateWith.symm.trans (h k))).1
  · rintro ⟨h, h'⟩
    rw [updateWith, h', List.foldl_nil, h]

end Dict
