import Airflow.Utils.SecretsMasker

/-!
# What redaction hides and what masking removes

No pattern survives in a string that the replacer went through, and below a sensitive name strings
are replaced as such. What `_redact_all` leaves alone is a member of an `Enum`, and with it the
strings in its value (`redact_iff`). `add_mask` takes the innermost key for the name, so
that masking covers the strings below a sensitive key and those below no key
(`maskSecret_removes`).
-/

namespace Airflow.SecretsMasker

open Substitution SecretsMasker

/-! ## Items -/

/-- An induction over an item, with what holds of the values of dicts and of elements. -/
theorem Item.ind {motive : Item → Prop} (str : ∀ s, motive (.str s))
    (dict : ∀ items : List (Key × Item), (∀ k v, (k, v) ∈ items → motive v) →
      motive (.dict items))
    (seq : ∀ kind items, (∀ v ∈ items, motive v) → motive (.seq kind items))
    (enum : ∀ mixin value, motive value → motive (.enum mixin value))
    (other : ∀ id, motive (.other id)) : ∀ item, motive item
  | .str s => str s
  | .dict items => dict items fun k v hmem =>
    have : sizeOf v < sizeOf items := by
      have := List.sizeOf_lt_of_mem hmem
      simp only [Prod.mk.sizeOf_spec] at this
      omega
    Item.ind str dict seq enum other v
  | .seq kind items => seq kind items fun v hmem =>
    have := List.sizeOf_lt_of_mem hmem
    Item.ind str dict seq enum other v
  | .enum mixin value => enum mixin value (Item.ind str dict seq enum other value)
  | .other id => other id

/-- A string occurs in an item, so many collections deep. -/
inductive StringAt : Item → Nat → String → Prop
  | str {s : String} : StringAt (.str s) 0 s
  | dict {items : List (Key × Item)} {k : Key} {v : Item} {n : Nat} {s : String} :
    (k, v) ∈ items → StringAt v n s → StringAt (.dict items) (n + 1) s
  | seq {kind : Kind} {items : List Item} {v : Item} {n : Nat} {s : String} :
    v ∈ items → StringAt v n s → StringAt (.seq kind items) (n + 1) s
  | enum {mixin : Bool} {value : Item} {n : Nat} {s : String} :
    StringAt value n s → StringAt (.enum mixin value) n s

/-- A string occurs in a member of an `Enum` that is not itself a string or a collection. -/
inductive InEnum : Item → Nat → String → Prop
  | dict {items : List (Key × Item)} {k : Key} {v : Item} {n : Nat} {s : String} :
    (k, v) ∈ items → InEnum v n s → InEnum (.dict items) (n + 1) s
  | seq {kind : Kind} {items : List Item} {v : Item} {n : Nat} {s : String} :
    v ∈ items → InEnum v n s → InEnum (.seq kind items) (n + 1) s
  | mixin {value : Item} {n : Nat} {s : String} : value.isBuiltin = true →
    InEnum value n s → InEnum (.enum true value) n s
  | plain {mixin : Bool} {value : Item} {n : Nat} {s : String} :
    (mixin && value.isBuiltin) = false → StringAt value n s → InEnum (.enum mixin value) n s

/-- A string occurs in such a member of an `Enum` below a sensitive name. -/
inductive InHiddenEnum (env : Env) : Key → Item → Nat → String → Prop
  | hidden {name : Key} {item : Item} {n : Nat} {s : String} :
    isSensitive env name = true → InEnum item n s → InHiddenEnum env name item n s
  | dict {name k : Key} {items : List (Key × Item)} {v : Item} {n : Nat} {s : String} :
    (k, v) ∈ items → InHiddenEnum env k v n s → InHiddenEnum env name (.dict items) (n + 1) s
  | seq {name : Key} {kind : Kind} {items : List Item} {v : Item} {n : Nat} {s : String} :
    v ∈ items → InHiddenEnum env .none v n s → InHiddenEnum env name (.seq kind items) (n + 1) s
  | enum {name : Key} {mixin : Bool} {value : Item} {n : Nat} {s : String} :
    InHiddenEnum env name value n s → InHiddenEnum env name (.enum mixin value) n s

variable {env : Env} {name : Key} {item : Item} {n : Nat} {s : String}

theorem InEnum.stringAt (h : InEnum item n s) : StringAt item n s := by
  induction h with
  | dict hmem _ ih => exact .dict hmem ih
  | seq hmem _ ih => exact .seq hmem ih
  | mixin _ _ ih => exact .enum ih
  | plain _ hat => exact .enum hat

theorem InHiddenEnum.inEnum (h : InHiddenEnum env name item n s) : InEnum item n s := by
  induction h with
  | hidden _ hin => exact hin
  | dict hmem _ ih => exact .dict hmem ih
  | seq hmem _ ih => exact .seq hmem ih
  | @enum _ mixin value _ _ _ ih =>
    cases hbuiltin : mixin && value.isBuiltin with
    | false => exact .plain hbuiltin ih.stringAt
    | true =>
      obtain ⟨rfl, hvalue⟩ := Bool.and_eq_true_iff.mp hbuiltin
      exact .mixin hvalue ih

/-! ## The two recursions -/

section
variable {maxDepth depth : Int}

theorem redactAllSeq_eq_map (items : List Item) :
    redactAllSeq maxDepth depth items = items.map (redactAll maxDepth depth) := by
  induction items with
  | nil => rfl
  | cons v items ih => rw [redactAllSeq, ih, List.map_cons]

theorem redactAllItems_eq_map (items : List (Key × Item)) :
    redactAllItems maxDepth depth items =
      items.map fun kv => (kv.1, redactAll maxDepth depth kv.2) := by
  induction items with
  | nil => rfl
  | cons kv items ih => rw [redactAllItems, ih, List.map_cons]

variable {masker : SecretsMasker}

theorem redactSeq_eq_map (items : List Item) :
    redactSeq env maxDepth masker depth items =
      items.map (redactItem env maxDepth masker .none depth) := by
  induction items with
  | nil => rfl
  | cons v items ih => rw [redactSeq, ih, List.map_cons]

theorem redactItems_eq_map (items : List (Key × Item)) :
    redactItems env maxDepth masker depth items =
      items.map fun kv => (kv.1, redactItem env maxDepth masker kv.1 depth kv.2) := by
  induction items with
  | nil => rfl
  | cons kv items ih => rw [redactItems, ih, List.map_cons]

/-- `_redact_all` leaves the strings of `Enum` members. -/
theorem stringAt_redactAll_of_inEnum (h : InEnum item n s) (hdepth : depth + n ≤ maxDepth) :
    StringAt (redactAll maxDepth depth item) n s := by
  induction h generalizing depth with
  | dict hmem _ ih =>
    rw [redactAll, if_neg (by omega), redactAllItems_eq_map]
    exact .dict (List.mem_map_of_mem hmem) (ih (by push_cast at hdepth; omega))
  | seq hmem _ ih =>
    rw [redactAll, if_neg (by omega), redactAllSeq_eq_map]
    exact .seq (List.mem_map_of_mem hmem) (ih (by push_cast at hdepth; omega))
  | mixin hvalue _ ih =>
    rw [redactAll, if_neg (by omega), hvalue, Bool.and_true, if_pos rfl]
    exact ih hdepth
  | plain hbuiltin hat =>
    rw [redactAll, if_neg (by omega), hbuiltin, if_neg Bool.false_ne_true]
    exact .enum hat

/-- Other strings are replaced. -/
theorem inEnum_of_stringAt_redactAll (h : StringAt (redactAll maxDepth depth item) n s)
    (hdepth : depth + n ≤ maxDepth) : s = "***" ∨ InEnum item n s := by
  induction item using Item.ind generalizing depth n with
  | str t =>
    cases h
    exact .inl rfl
  | other id =>
    rw [redactAll, if_neg (by omega)] at h
    cases h
  | dict items ih =>
    rw [redactAll, if_neg (by omega), redactAllItems_eq_map] at h
    cases h with
    | dict hmem hat =>
      obtain ⟨⟨k, v⟩, hkv, heq⟩ := List.mem_map.mp hmem
      obtain ⟨rfl, rfl⟩ := Prod.mk.inj heq
      exact (ih k v hkv hat (by push_cast at hdepth; omega)).imp_right (.dict hkv)
  | seq kind items ih =>
    rw [redactAll, if_neg (by omega), redactAllSeq_eq_map] at h
    cases h with
    | seq hmem hat =>
      obtain ⟨v, hv, rfl⟩ := List.mem_map.mp hmem
      exact (ih v hv hat (by push_cast at hdepth; omega)).imp_right (.seq hv)
  | enum mixin value ih =>
    rw [redactAll, if_neg (by omega)] at h
    cases hbuiltin : mixin && value.isBuiltin with
    | false =>
      rw [hbuiltin, if_neg Bool.false_ne_true] at h
      cases h with
      | enum hat => exact .inr (.plain hbuiltin hat)
    | true =>
      rw [hbuiltin, if_pos rfl] at h
      obtain ⟨rfl, hvalue⟩ := Bool.and_eq_true_iff.mp hbuiltin
      exact (ih h hdepth).imp_right (.mixin hvalue)

theorem redactItem_hidden (hdepth : depth ≤ maxDepth) (hname : isSensitive env name = true)
    (item : Item) :
    redactItem env maxDepth masker name depth item = redactAll maxDepth depth item := by
  cases item <;> rw [redactItem, unlessHidden, if_neg (by omega), if_pos hname]

theorem unlessHidden_shown (hdepth : depth ≤ maxDepth) (hname : isSensitive env name = false)
    (item shown : Item) : unlessHidden env maxDepth name depth item shown = shown := by
  rw [unlessHidden, if_neg (by omega), hname, if_neg Bool.false_ne_true]

/-- `_redact` leaves them below a sensitive name. -/
theorem stringAt_redactItem_of_inHiddenEnum (h : InHiddenEnum env name item n s)
    (hdepth : depth + n ≤ maxDepth) :
    StringAt (redactItem env maxDepth masker name depth item) n s := by
  cases hname : isSensitive env name with
  | true =>
    rw [redactItem_hidden (by omega) hname]
    exact stringAt_redactAll_of_inEnum h.inEnum hdepth
  | false =>
    induction h generalizing depth with
    | hidden hsensitive _ =>
      rw [hname] at hsensitive
      cases hsensitive
    | @dict name k items v n s hmem hv ih =>
      rw [redactItem, unlessHidden_shown (by omega) hname, redactItems_eq_map]
      refine .dict (List.mem_map_of_mem hmem) ?_
      cases hk : isSensitive env k with
      | true =>
        push_cast at hdepth
        rw [redactItem_hidden (by omega) hk]
        exact stringAt_redactAll_of_inEnum hv.inEnum (by omega)
      | false => exact ih (by push_cast at hdepth; omega) hk
    | seq hmem _ ih =>
      rw [redactItem, unlessHidden_shown (by omega) hname, redactSeq_eq_map]
      exact .seq (List.mem_map_of_mem hmem) (ih (by push_cast at hdepth; omega) rfl)
    | enum _ ih =>
      rw [redactItem, unlessHidden_shown (by omega) hname]
      exact ih hdepth hname

theorem inHiddenEnum_of_hidden (hname : isSensitive env name = true)
    (h : StringAt (redactItem env maxDepth masker name depth item) n s)
    (hdepth : depth + n ≤ maxDepth) :
    s = "***" ∨ (∃ t, s = masker.replaceSecrets t) ∨ InHiddenEnum env name item n s := by
  rw [redactItem_hidden (by omega) hname] at h
  exact (inEnum_of_stringAt_redactAll h hdepth).imp_right fun hin => .inr (.hidden hname hin)

/-- Other strings went through the replacer or are replaced. -/
theorem inHiddenEnum_of_stringAt_redactItem
    (h : StringAt (redactItem env maxDepth masker name depth item) n s)
    (hdepth : depth + n ≤ maxDepth) :
    s = "***" ∨ (∃ t, s = masker.replaceSecrets t) ∨ InHiddenEnum env name item n s := by
  induction item using Item.ind generalizing name depth n with
  | str t =>
    cases hname : isSensitive env name with
    | true => exact inHiddenEnum_of_hidden hname h hdepth
    | false =>
      rw [redactItem, unlessHidden_shown (by omega) hname] at h
      cases h
      exact .inr (.inl ⟨t, rfl⟩)
  | other id =>
    cases hname : isSensitive env name with
    | true => exact inHiddenEnum_of_hidden hname h hdepth
    | false =>
      rw [redactItem, unlessHidden_shown (by omega) hname] at h
      cases h
  | dict items ih =>
    cases hname : isSensitive env name with
    | true => exact inHiddenEnum_of_hidden hname h hdepth
    | false =>
      rw [redactItem, unlessHidden_shown (by omega) hname, redactItems_eq_map] at h
      cases h with
      | dict hmem hat =>
        obtain ⟨⟨k, v⟩, hkv, heq⟩ := List.mem_map.mp hmem
        obtain ⟨rfl, rfl⟩ := Prod.mk.inj heq
        exact (ih k v hkv hat (by push_cast at hdepth; omega)).imp_right
          (Or.imp_right (.dict hkv))
  | seq kind items ih =>
    cases hname : isSensitive env name with
    | true => exact inHiddenEnum_of_hidden hname h hdepth
    | false =>
      rw [redactItem, unlessHidden_shown (by omega) hname, redactSeq_eq_map] at h
      cases h with
      | seq hmem hat =>
        obtain ⟨v, hv, rfl⟩ := List.mem_map.mp hmem
        exact (ih v hv hat (by push_cast at hdepth; omega)).imp_right (Or.imp_right (.seq hv))
  | enum mixin value ih =>
    cases hname : isSensitive env name with
    | true => exact inHiddenEnum_of_hidden hname h hdepth
    | false =>
      rw [redactItem, unlessHidden_shown (by omega) hname] at h
      exact (ih h hdepth).imp_right (Or.imp_right .enum)

end

/-! ## The masker -/

/-- The calls of `add_mask` that a masker has seen, each with its secret and name. -/
def masked (env : Env) (calls : List (Item × Key)) : SecretsMasker :=
  calls.foldl (fun masker call => masker.addMask env call.2 call.1) {}

/-- The replacer is compiled from the patterns, none of which is empty. -/
structure Compiled (masker : SecretsMasker) : Prop where
  nonempty : ∀ p ∈ masker.patterns, p ≠ ""
  replacer : masker.patterns ≠ [] → ∃ r, masker.replacer = some r ∧
    r.words.Perm (masker.patterns.map String.toList)

section
variable {masker : SecretsMasker} {p secret : String}

/-- A name under which secrets are taken: a sensitive one, or none. -/
def takes (env : Env) (name : Key) : Bool := !name.truthy || shouldHideValueForKey env name

theorem mem_foldl_addPattern (l : List String) (state : List String × Bool) :
    p ∈ (l.foldl (addPattern env name) state).1 ↔
      p ∈ state.1 ∨ p ∈ l ∧ p ≠ "" ∧ takes env name = true := by
  induction l generalizing state with
  | nil => simp
  | cons q l ih =>
    rw [List.foldl_cons, ih, List.mem_cons, addPattern]
    split
    · rename_i hadd
      obtain ⟨hq, -, htakes⟩ := hadd
      simp only [List.mem_append, List.mem_singleton]
      constructor
      · rintro ((hmem | rfl) | ⟨hmem, hrest⟩)
        · exact .inl hmem
        · exact .inr ⟨.inl rfl, hq, htakes⟩
        · exact .inr ⟨.inr hmem, hrest⟩
      · rintro (hmem | ⟨rfl | hmem, hrest⟩)
        · exact .inl (.inl hmem)
        · exact .inl (.inr rfl)
        · exact .inr ⟨hmem, hrest⟩
    · rename_i hadd
      constructor
      · rintro (hmem | ⟨hmem, hrest⟩)
        · exact .inl hmem
        · exact .inr ⟨.inr hmem, hrest⟩
      · rintro (hmem | ⟨rfl | hmem, hrest⟩)
        · exact .inl hmem
        · exact .inl (by_contra fun hnot => hadd ⟨hrest.1, hnot, hrest.2⟩)
        · exact .inr ⟨hmem, hrest⟩

/-- Without a new mask the patterns are the same. -/
theorem foldl_addPattern_false (l : List String) (state : List String × Bool)
    (h : (l.foldl (addPattern env name) state).2 = false) :
    state.2 = false ∧ (l.foldl (addPattern env name) state).1 = state.1 := by
  induction l generalizing state with
  | nil => exact ⟨h, rfl⟩
  | cons q l ih =>
    rw [List.foldl_cons] at h ⊢
    obtain ⟨hflag, hsame⟩ := ih _ h
    rw [hsame]
    unfold addPattern at hflag ⊢
    split at hflag
    · cases hflag
    · rename_i hadd
      rw [if_neg hadd]
      exact ⟨hflag, rfl⟩

/-- A string that is added under this name. -/
def Added (env : Env) (name : Key) (secret : String) : Prop :=
  secret ≠ "" ∧ ¬ (env.unitTestMode ∧ secret ∈ SECRETS_TO_SKIP_MASKING_FOR_TESTS) ∧
    takes env name = true

/-- The patterns after `add_mask` of a string. -/
theorem mem_addSecret : p ∈ (masker.addSecret env secret name).patterns ↔
    p ∈ masker.patterns ∨ Added env name secret ∧ p ∈ adaptations env secret ∧ p ≠ "" := by
  unfold addSecret
  split
  · rename_i hskip
    refine ⟨.inl, ?_⟩
    rintro (hmem | ⟨⟨hsecret, hnot, -⟩, -⟩)
    · exact hmem
    · exact absurd hskip (not_or.mpr ⟨hsecret, hnot⟩)
  · rename_i hskip
    obtain ⟨hsecret, hnot⟩ := not_or.mp hskip
    have hmem := @mem_foldl_addPattern env name p (adaptations env secret) (masker.patterns, false)
    dsimp only
    rw [apply_ite SecretsMasker.patterns, ite_self, hmem]
    refine or_congr_right ?_
    constructor
    · exact fun ⟨hadapted, hp, htakes⟩ => ⟨⟨hsecret, hnot, htakes⟩, hadapted, hp⟩
    · exact fun ⟨⟨_, _, htakes⟩, hadapted, hp⟩ => ⟨hadapted, hp, htakes⟩

theorem Compiled.addSecret (h : Compiled masker) :
    Compiled (masker.addSecret env secret name) where
  nonempty p hmem := by
    rcases mem_addSecret.mp hmem with hmem | ⟨-, -, hp⟩
    · exact h.nonempty p hmem
    · exact hp
  replacer := by
    unfold SecretsMasker.addSecret
    split
    · exact h.replacer
    · dsimp only
      split
      · exact fun _ => ⟨_, rfl, env.compile_words _⟩
      · rename_i hflag
        rw [(foldl_addPattern_false _ _ (Bool.eq_false_iff.mpr hflag)).2]
        exact h.replacer

theorem addMaskAll_eq_foldl (items : List Item) (masker : SecretsMasker) :
    addMaskAll env name items masker =
      items.foldl (fun masker v => masker.addMask env name v) masker := by
  induction items generalizing masker with
  | nil => rfl
  | cons v items ih => rw [addMaskAll, ih, List.foldl_cons]

theorem addMaskItems_eq_foldl (items : List (Key × Item)) (masker : SecretsMasker) :
    addMaskItems env items masker =
      items.foldl (fun masker kv => masker.addMask env kv.1 kv.2) masker := by
  induction items generalizing masker with
  | nil => rfl
  | cons kv items ih => rw [addMaskItems, ih, List.foldl_cons]

/-- What adding one secret keeps, adding those of an item keeps. -/
theorem addMask_induction {P : SecretsMasker → Prop}
    (hstep : ∀ masker secret name, P masker → P (masker.addSecret env secret name))
    (item : Item) (name : Key) (masker : SecretsMasker) (h : P masker) :
    P (masker.addMask env name item) := by
  induction item using Item.ind generalizing name masker with
  | str secret => exact hstep masker secret name h
  | other id => exact h
  | dict items ih =>
    rw [addMask, addMaskItems_eq_foldl]
    exact List.foldlRecOn items _ h fun masker h kv hmem => ih kv.1 kv.2 hmem kv.1 masker h
  | seq kind items ih =>
    rw [addMask, addMaskAll_eq_foldl]
    exact List.foldlRecOn items _ h fun masker h v hmem => ih v hmem name masker h
  | enum mixin value ih =>
    rw [addMask]
    split
    · exact ih name masker h
    · exact h

/-- A string below these keys is added. -/
inductive Registered (env : Env) : Key → Item → String → Prop
  | str {name : Key} {s : String} : Added env name s → Registered env name (.str s) s
  | dict {name k : Key} {items : List (Key × Item)} {v : Item} {s : String} :
    (k, v) ∈ items → Registered env k v s → Registered env name (.dict items) s
  | seq {name : Key} {kind : Kind} {items : List Item} {v : Item} {s : String} :
    v ∈ items → Registered env name v s → Registered env name (.seq kind items) s
  | mixin {name : Key} {value : Item} {s : String} : value.isBuiltin = true →
    Registered env name value s → Registered env name (.enum true value) s

theorem Registered.ne_empty {item : Item} (h : Registered env name item s) : s ≠ "" := by
  induction h with
  | str hadded => exact hadded.1
  | dict _ _ ih => exact ih
  | seq _ _ ih => exact ih
  | mixin _ _ ih => exact ih

theorem self_mem_adaptations (secret : String) : secret ∈ adaptations env secret := by
  unfold adaptations
  split <;> exact List.mem_cons_self

/-- The elements of a list add patterns one after the other. -/
theorem mem_foldl_patterns {ι : Type} {add : SecretsMasker → ι → SecretsMasker}
    {adds : ι → String → Prop} (items : List ι)
    (h : ∀ i ∈ items, ∀ masker, ∀ p, p ∈ (add masker i).patterns ↔ p ∈ masker.patterns ∨ adds i p)
    (masker : SecretsMasker) (p : String) :
    p ∈ (items.foldl add masker).patterns ↔ p ∈ masker.patterns ∨ ∃ i ∈ items, adds i p := by
  induction items generalizing masker with
  | nil => simp
  | cons i items ih =>
    rw [List.foldl_cons, ih fun j hj => h j (List.mem_cons_of_mem i hj),
      h i List.mem_cons_self, or_assoc]
    simp

/-- **The patterns after `add_mask`.** -/
theorem mem_addMask (item : Item) (name : Key) (masker : SecretsMasker) (p : String) :
    p ∈ (masker.addMask env name item).patterns ↔ p ∈ masker.patterns ∨
      ∃ s, Registered env name item s ∧ p ∈ adaptations env s ∧ p ≠ "" := by
  induction item using Item.ind generalizing name masker p with
  | str secret =>
    rw [addMask, mem_addSecret]
    refine or_congr_right ⟨fun ⟨hadded, hp⟩ => ⟨secret, .str hadded, hp⟩, ?_⟩
    rintro ⟨_, hadded | _, hp⟩
    exact ⟨‹_›, hp⟩
  | other id =>
    refine ⟨.inl, ?_⟩
    rintro (hmem | ⟨s, hs, -⟩)
    · exact hmem
    · cases hs
  | dict items ih =>
    rw [addMask, addMaskItems_eq_foldl, @mem_foldl_patterns _ _
      (fun kv p => ∃ s, Registered env kv.1 kv.2 s ∧ p ∈ adaptations env s ∧ p ≠ "") items
      fun kv hmem masker p => ih kv.1 kv.2 hmem kv.1 masker p]
    refine or_congr_right ⟨fun ⟨kv, hmem, s, hs, hp⟩ => ⟨s, .dict hmem hs, hp⟩, ?_⟩
    rintro ⟨s, hs, hp⟩
    cases hs with
    | dict hmem hs => exact ⟨_, hmem, s, hs, hp⟩
  | seq kind items ih =>
    rw [addMask, addMaskAll_eq_foldl, @mem_foldl_patterns _ _
      (fun v p => ∃ s, Registered env name v s ∧ p ∈ adaptations env s ∧ p ≠ "") items
      fun v hmem masker p => ih v hmem name masker p]
    refine or_congr_right ⟨fun ⟨v, hmem, s, hs, hp⟩ => ⟨s, .seq hmem hs, hp⟩, ?_⟩
    rintro ⟨s, hs, hp⟩
    cases hs with
    | seq hmem hs => exact ⟨_, hmem, s, hs, hp⟩
  | enum mixin value ih =>
    rw [addMask]
    split
    · rename_i hbuiltin
      obtain ⟨rfl, hvalue⟩ := Bool.and_eq_true_iff.mp hbuiltin
      rw [ih]
      refine or_congr_right ⟨fun ⟨s, hs, hp⟩ => ⟨s, .mixin hvalue hs, hp⟩, ?_⟩
      rintro ⟨s, hs, hp⟩
      cases hs with
      | mixin _ hs => exact ⟨s, hs, hp⟩
    · rename_i hbuiltin
      refine ⟨.inl, ?_⟩
      rintro (hmem | ⟨s, hs, -⟩)
      · exact hmem
      · cases hs with
        | mixin hvalue _ => exact absurd hvalue hbuiltin

theorem mem_masked {calls : List (Item × Key)} : p ∈ (masked env calls).patterns ↔
    ∃ call ∈ calls, ∃ s, Registered env call.2 call.1 s ∧ p ∈ adaptations env s ∧ p ≠ "" := by
  refine (@mem_foldl_patterns _ _
    (fun call p => ∃ s, Registered env call.2 call.1 s ∧ p ∈ adaptations env s ∧ p ≠ "") calls
    (fun call _ masker p => mem_addMask call.1 call.2 masker p) {} p).trans ?_
  exact or_iff_right List.not_mem_nil

/-- A masker that `add_mask` was called on is compiled. -/
theorem compiled_masked (calls : List (Item × Key)) : Compiled (masked env calls) :=
  List.foldlRecOn calls _ ⟨nofun, fun h => absurd rfl h⟩ fun masker h call _ =>
    addMask_induction (fun _ _ _ => Compiled.addSecret) call.1 call.2 masker h

theorem Compiled.toList_ne_nil (h : Compiled masker) (hp : p ∈ masker.patterns) :
    p.toList ≠ [] := fun hnil => h.nonempty p hp (String.toList_eq_nil_iff.mp hnil)

theorem not_mem_of_mem_stars (hstar : '*' ∉ p.toList) : ∀ a ∈ "***".toList, a ∉ p.toList := by
  intro a ha hmem
  obtain rfl : a = '*' := by simpa using ha
  exact hstar hmem

theorem Compiled.not_isInfix_stars (h : Compiled masker) (hp : p ∈ masker.patterns)
    (hstar : '*' ∉ p.toList) : ¬ p.toList <:+: "***".toList := by
  intro hinfix
  rw [← List.append_nil "***".toList] at hinfix
  have hne := h.toList_ne_nil hp
  have hnil := Alternation.isInfix_of_append hne (not_mem_of_mem_stars hstar) hinfix
  exact hne (List.infix_nil.mp hnil)

/-- **No pattern survives the replacer.** -/
theorem Compiled.not_isInfix (h : Compiled masker) (hp : p ∈ masker.patterns)
    (hstar : '*' ∉ p.toList) (text : String) :
    ¬ p.toList <:+: (masker.replaceSecrets text).toList := by
  obtain ⟨r, hr, hwords⟩ := h.replacer (List.ne_nil_of_mem hp)
  rw [replaceSecrets, hr]
  simp only [String.toList_ofList]
  exact Alternation.not_isInfix_replace (hwords.mem_iff.mpr (List.mem_map_of_mem hp))
    (h.toList_ne_nil hp) (by decide) (not_mem_of_mem_stars hstar) _

end

/-! ## What survives redaction -/

theorem redact_str (masker : SecretsMasker) (log : String) :
    masker.redact env (.str log) .none none = .str (masker.replaceSecrets log) := by
  rw [redact, redactItem, unlessHidden_shown (by decide) rfl]

/-- **No secret survives redaction unless in an `Enum` member below a sensitive name.** -/
theorem redact_iff (env : Env) (calls : List (Item × Key))
    (hstar : ∀ p ∈ (masked env calls).patterns, '*' ∉ p.toList) (item : Item)
    (maxDepth : Option Int) :
    (∀ n s, StringAt ((masked env calls).redact env item .none maxDepth) n s →
      (n : Int) ≤ depthLimit maxDepth →
        ∀ p ∈ (masked env calls).patterns, ¬ p.toList <:+: s.toList) ↔
      ∀ n s, InHiddenEnum env .none item n s → (n : Int) ≤ depthLimit maxDepth →
        ∀ p ∈ (masked env calls).patterns, ¬ p.toList <:+: s.toList := by
  have hcompiled := @compiled_masked env calls
  constructor
  · intro h n s hin hdepth
    exact h n s (stringAt_redactItem_of_inHiddenEnum hin (by omega)) hdepth
  · intro h n s hat hdepth p hp
    rcases inHiddenEnum_of_stringAt_redactItem hat (by omega) with rfl | ⟨t, rfl⟩ | hin
    · exact hcompiled.not_isInfix_stars hp (hstar p hp)
    · exact hcompiled.not_isInfix hp (hstar p hp) t
    · exact h n s hin hdepth p hp

/-- The default settings. -/
def defaults : Env where
  sensitiveVarConnNames := none
  hideSensitiveVarConnFields := true
  unitTestMode := false
  secretMaskAdapter := none
  strip s := s
  lower s := String.ofList (s.toList.map Char.toLower)
  compile patterns := .first (patterns.map String.toList)
  compile_words _ := .refl _

theorem hunter_redacted :
    ¬ "hunter2".toList <:+:
      ((masked defaults [(.str "hunter2", .none)]).replaceSecrets "with hunter2").toList := by
  have hstar : ∀ p ∈ (masked defaults [(.str "hunter2", .none)]).patterns, '*' ∉ p.toList := by
    decide
  refine (redact_iff defaults [(.str "hunter2", .none)] hstar (.str "with hunter2") none).mpr ?_
    0 _ ?_ (by decide) "hunter2" (by decide)
  · intro n s hin
    cases hin with
    | hidden hname _ => cases hname
  · rw [redact_str]
    exact .str

/-- The value of an `Enum` member stays below a sensitive key. -/
theorem enumMember_not_redacted :
    ∃ n s, StringAt ((masked defaults [(.str "hunter2", .none)]).redact defaults
        (.dict [(.str "password", .enum false (.str "hunter2"))]) .none none) n s ∧
      (n : Int) ≤ depthLimit none ∧
        ∃ p ∈ (masked defaults [(.str "hunter2", .none)]).patterns, p.toList <:+: s.toList := by
  refine ⟨1, "hunter2", ?_, by decide, "hunter2", by decide, List.infix_rfl⟩
  have hredact : (masked defaults [(.str "hunter2", .none)]).redact defaults
      (.dict [(.str "password", .enum false (.str "hunter2"))]) .none none =
        .dict [(.str "password", .enum false (.str "hunter2"))] := by
    rfl
  rw [hredact]
  exact .dict List.mem_cons_self (.enum .str)

/-! ## What masking removes -/

/-- The check of `mask_secret` decides nothing. -/
theorem maskSecret_eq_addMask (masker : SecretsMasker) (secret : Item) (name : Key) :
    masker.maskSecret env secret name = masker.addMask env name secret := by
  unfold maskSecret
  split
  · rename_i hfalsy
    induction secret using Item.ind generalizing name with
    | str s =>
      have hempty : s = "" := by simpa [Item.truthy] using hfalsy
      rw [addMask, addSecret, if_pos (.inl hempty)]
    | other id => rfl
    | dict items ih =>
      obtain rfl : items = [] := by simpa [Item.truthy] using hfalsy
      rfl
    | seq kind items ih =>
      obtain rfl : items = [] := by simpa [Item.truthy] using hfalsy
      rfl
    | enum mixin value ih =>
      rw [addMask]
      split
      · rename_i hbuiltin
        obtain ⟨rfl, -⟩ := Bool.and_eq_true_iff.mp hbuiltin
        exact ih name hfalsy
      · rfl
  · rfl

/-- **Masking removes the strings below a sensitive key, or below none**, from later logs,
whatever else is masked. -/
theorem maskSecret_removes (env : Env) (earlier later : List (Item × Key)) {value : Item}
    {name : Key} {leaf : String} (hleaf : Registered env name value leaf)
    (hstar : '*' ∉ leaf.toList) (log : String) :
    ∃ out, (later.foldl (fun masker call => masker.maskSecret env call.1 call.2)
        ((masked env earlier).maskSecret env value name)).redact env (.str log) .none none =
          .str out ∧ ¬ leaf.toList <:+: out.toList := by
  -- the masker is one that these calls of `add_mask` lead to
  have hcalls : later.foldl (fun masker call => masker.maskSecret env call.1 call.2)
      ((masked env earlier).maskSecret env value name) =
        masked env (earlier ++ (value, name) :: later) := by
    simp only [maskSecret_eq_addMask, masked, List.foldl_append, List.foldl_cons]
  rw [hcalls]
  refine ⟨_, redact_str _ log, ?_⟩
  refine compiled_masked _ |>.not_isInfix ?_ hstar log
  rw [mem_masked]
  exact ⟨(value, name), by simp, leaf, hleaf, self_mem_adaptations leaf, hleaf.ne_empty⟩

theorem token_masked :
    ∃ out, (([] : List (Item × Key)).foldl (fun masker call =>
          masker.maskSecret defaults call.1 call.2)
        ((masked defaults []).maskSecret defaults (.dict [(.str "api_token", .str "s3cr3t")])
          (.str "password"))).redact defaults (.str "got s3cr3t") .none none = .str out ∧
      ¬ "s3cr3t".toList <:+: out.toList :=
  maskSecret_removes defaults [] []
    (.dict List.mem_cons_self (.str ⟨by decide, by decide, by decide⟩)) (by decide) "got s3cr3t"

/-- A string below an insensitive key inside is redacted and not masked, and one with a star may
arise again. -/
theorem innerKey_not_masked :
    isSensitive defaults (.str "password") = true ∧
    ({} : SecretsMasker).redact defaults (.dict [(.str "user", .str "bob")]) (.str "password")
      none = .dict [(.str "user", .str "***")] ∧
    (({} : SecretsMasker).maskSecret defaults (.dict [(.str "user", .str "bob")])
      (.str "password")).redact defaults (.str "bob") .none none = .str "bob" ∧
    (({} : SecretsMasker).maskSecret defaults (.str "*a") (.str "password")).redact defaults
      (.str "*aa") .none none = .str "***a" := by
  refine ⟨by decide, ?_, ?_, ?_⟩
  · rfl
  · rfl
  · rfl


end Airflow.SecretsMasker
