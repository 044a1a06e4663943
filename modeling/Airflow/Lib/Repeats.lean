import Airflow.Lib.Overlay
import Mathlib.Data.List.Induction

/-!
# Lists without repeats

`firsts ks` drops what came before (`dict.fromkeys`). What is last in it is what came for the first
time last (`getLast?_firsts`), so that the last one's kind may be another: when one of another kind
came for the first time after all of that kind had come (`Overtaken`).
-/

variable {κ : Type*} [DecidableEq κ] {ks ks' : List κ} {k w : κ} {p : κ → Bool}

theorem firsts_append (ks ks' : List κ) : firsts (ks ++ ks') = ks'.foldl addKey (firsts ks) :=
  List.foldl_append

theorem firsts_append_singleton (ks : List κ) (k : κ) :
    firsts (ks ++ [k]) = if k ∈ ks then firsts ks else firsts ks ++ [k] := by
  rw [firsts_append, List.foldl_cons, List.foldl_nil, addKey]
  simp only [mem_firsts]

theorem firsts_firsts (ks : List κ) : firsts (firsts ks) = firsts ks :=
  (foldl_addKey_foldl_addKey [] [] ks).symm

/-- Repeats may be dropped again and again, or once at the end. -/
theorem firsts_firsts_append (ks ks' : List κ) : firsts (firsts ks ++ ks') = firsts (ks ++ ks') := by
  rw [firsts_append, firsts_append, firsts_firsts]

theorem filter_firsts (p : κ → Bool) (ks : List κ) :
    (firsts ks).filter p = firsts (ks.filter p) := by
  induction ks using List.reverseRecOn with
  | nil => rfl
  | append_singleton ks k ih =>
    rw [firsts_append_singleton, List.filter_append]
    by_cases hp : p k = true
    · rw [List.filter_singleton, hp, cond_true, firsts_append_singleton]
      simp only [List.mem_filter, hp, and_true]
      by_cases hk : k ∈ ks
      · rw [if_pos hk, if_pos hk, ih]
      · rw [if_neg hk, if_neg hk, List.filter_append, ih, List.filter_singleton, hp, cond_true]
    · rw [Bool.not_eq_true] at hp
      rw [List.filter_singleton, hp, cond_false, List.append_nil, ← ih]
      by_cases hk : k ∈ ks
      · rw [if_pos hk]
      · rw [if_neg hk, List.filter_append, List.filter_singleton, hp, cond_false, List.append_nil]

/-- **The last one without repeats came for the first time after all others had come.** -/
theorem getLast?_firsts (h : (firsts ks).getLast? = some w) :
    w ∈ ks ∧ ∀ k ∈ ks, ks.idxOf k ≤ ks.idxOf w := by
  induction ks using List.reverseRecOn generalizing w with
  | nil => cases h
  | append_singleton ks k ih =>
    rw [firsts_append_singleton] at h
    by_cases hk : k ∈ ks
    · rw [if_pos hk] at h
      obtain ⟨hw, hle⟩ := ih h
      refine ⟨List.mem_append_left _ hw, fun k' hk' => ?_⟩
      have hmem : k' ∈ ks := by
        rcases List.mem_append.mp hk' with hk' | hk'
        · exact hk'
        · exact List.mem_singleton.mp hk' ▸ hk
      rw [List.idxOf_append_of_mem hmem, List.idxOf_append_of_mem hw]
      exact hle k' hmem
    · rw [if_neg hk, List.getLast?_concat, Option.some.injEq] at h
      subst h
      refine ⟨List.mem_append_right _ (List.mem_singleton_self k), fun k' hk' => ?_⟩
      rw [List.idxOf_append_of_notMem hk]
      rcases List.mem_append.mp hk' with hk' | hk'
      · rw [List.idxOf_append_of_mem hk']
        exact Nat.le_add_right_of_le (Nat.le_of_lt (List.idxOf_lt_length_of_mem hk'))
      · rw [List.mem_singleton.mp hk', List.idxOf_append_of_notMem hk]

theorem getLast?_firsts_eq_none : (firsts ks).getLast? = none ↔ ks = [] := by
  rw [List.getLast?_eq_none_iff]
  constructor
  · intro h
    refine List.eq_nil_iff_forall_not_mem.mpr fun k hk => ?_
    have hmem := mem_firsts.mpr hk
    rw [h] at hmem
    cases hmem
  · rintro rfl
    rfl

section
variable {β : Type*} {kind : κ → β}

/-- One of another kind than the last one came for the first time after all of the last one's kind
had come. -/
def Overtaken (kind : κ → β) (ks : List κ) : Prop :=
  ∃ last ∈ ks.getLast?, ∃ k ∈ ks, kind k ≠ kind last ∧
    ∀ k' ∈ ks, kind k' = kind last → ks.idxOf k' < ks.idxOf k

instance [DecidableEq β] : Decidable (Overtaken kind ks) :=
  inferInstanceAs (Decidable (∃ last ∈ ks.getLast?, ∃ k ∈ ks, _ ∧ _))

/-- **Dropping repeats keeps the kind of the last one** unless that is overtaken. -/
theorem map_getLast?_firsts_iff :
    (firsts ks).getLast?.map kind = ks.getLast?.map kind ↔ ¬Overtaken kind ks := by
  cases hfirst : (firsts ks).getLast? with
  | none =>
    rw [getLast?_firsts_eq_none] at hfirst
    subst hfirst
    exact ⟨fun _ ⟨_, h, _⟩ => (by cases h), fun _ => rfl⟩
  | some w =>
    obtain ⟨hw, hle⟩ := getLast?_firsts hfirst
    cases hlast : ks.getLast? with
    | none =>
      rw [List.getLast?_eq_none_iff] at hlast
      exact absurd hw (hlast ▸ List.not_mem_nil)
    | some last =>
      rw [Option.map_some, Option.map_some, Option.some.injEq]
      constructor
      · rintro hkind ⟨_, hlast', k, hk, -, hafter⟩
        rw [hlast] at hlast'
        cases hlast'
        exact absurd (hle k hk) (Nat.not_le.mpr (hafter w hw hkind))
      · intro hnot
        by_contra hkind
        refine hnot ⟨last, hlast, w, hw, hkind, fun k hk hsame => ?_⟩
        refine lt_of_le_of_ne (hle k hk) fun heq => hkind ?_
        rw [← List.idxOf_inj hk |>.mp heq]
        exact hsame

end
