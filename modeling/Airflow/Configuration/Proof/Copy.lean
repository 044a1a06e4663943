import Airflow.Configuration.Copy
import Airflow.Lib.Overlay

/-!
# Reading a copy

`read_dict` fails if two keys of a section differ only in their case, or if a section that is not in
lower case comes before the one that is (`exists_readDict_iff`). Otherwise the options are found in lower
case (`parser_get?_readDict`).
-/

namespace Airflow.Configuration

namespace RawParser

variable {casing : Casing} {raw raw' : RawParser}

/-- What `set` has stored under a name. -/
def stored (raw : RawParser) (name : OptionName) : Option String :=
  if name.1 = "" then raw.defaults.get? name.2
  else (raw.sections.get? name.1).bind (·.get? name.2)

theorem get?_foldl_set (options defaults : Dict String String) (key : String) :
    (options.entries.foldl (fun d option => d.set option.1 option.2) defaults).get? key =
      (options.get? key).or (defaults.get? key) := by
  rw [lookup_foldl (Dict.get? · key) fun option : String × String =>
    if option.1 = key then some option.2 else none]
  · rw [Dict.findSome?_entries options key some]
    cases options.get? key <;> rfl
  · intro d option
    rw [Dict.get?_set]
    by_cases hkey : key = option.1
    · rw [if_pos hkey, if_pos hkey.symm]
      rfl
    · rw [if_neg hkey, if_neg fun h => hkey h.symm]
      rfl

/-- What is stored in a section is read there. -/
theorem parser_get? {sect key value : String} (hsect : sect ∈ raw.sections.keys)
    (h : raw.stored (sect, key) = some value) :
    ∃ options, raw.parser.get? sect = some options ∧ options.get? key = some value := by
  obtain ⟨options, hoptions⟩ := Dict.mem_keys.mp hsect
  rw [parser, Dict.get?_mapValues, hoptions, Option.map_some]
  refine ⟨_, rfl, ?_⟩
  rw [stored] at h
  by_cases hempty : sect = ""
  · rw [if_pos hempty]
    exact (if_pos hempty).symm.trans h
  · rw [if_neg hempty, get?_foldl_set]
    have h' : options.get? key = some value := by
      rw [if_neg hempty, hoptions] at h
      exact h
    rw [h', Option.some_or]

/-! ## Setting an option -/

/-- What `set` needs. -/
def HasSection (raw : RawParser) (sect : String) : Prop := sect = "" ∨ sect ∈ raw.sections.keys

theorem exists_set (h : raw.HasSection (casing.lower sect)) (key value : String) :
    ∃ raw', raw.set casing sect key value = .ok raw' := by
  simp only [set]
  by_cases hempty : casing.lower sect = ""
  · exact ⟨_, if_pos hempty⟩
  · obtain ⟨options, hoptions⟩ := Dict.mem_keys.mp (h.resolve_left hempty)
    rw [if_neg hempty, hoptions]
    exact ⟨_, rfl⟩

/-- What is known of an option that is set. -/
structure IsSet (casing : Casing) (raw raw' : RawParser) (sect key value : String) : Prop where
  has : raw.HasSection (casing.lower sect)
  keys : raw'.sections.keys = raw.sections.keys
  stored : ∀ name, raw'.stored name =
    if name = (casing.lower sect, casing.lower key) then some value else raw.stored name

theorem set_spec {sect key value : String} (h : raw.set casing sect key value = .ok raw') :
    IsSet casing raw raw' sect key value := by
  simp only [set] at h
  by_cases hempty : casing.lower sect = ""
  · rw [if_pos hempty, Except.ok.injEq] at h
    subst h
    refine ⟨.inl hempty, rfl, fun name => ?_⟩
    obtain ⟨s, k⟩ := name
    rw [RawParser.stored, RawParser.stored, hempty]
    by_cases hs : s = ""
    · simp [hs, Dict.get?_set]
    · simp [hs]
  · rw [if_neg hempty] at h
    cases hoptions : raw.sections.get? (casing.lower sect) with
    | none =>
      rw [hoptions] at h
      cases h
    | some options =>
      rw [hoptions] at h
      cases h
      have hmem : casing.lower sect ∈ raw.sections.keys := Dict.mem_keys.mpr ⟨_, hoptions⟩
      refine ⟨.inr hmem, Dict.keys_set.trans (if_pos hmem), fun name => ?_⟩
      obtain ⟨s, k⟩ := name
      rw [RawParser.stored, RawParser.stored]
      by_cases hs : s = casing.lower sect
      · subst hs
        simp [hempty, Dict.get?_set, hoptions]
      · simp [hs, Dict.get?_set]

theorem stored_addSection (sect : String) (name : OptionName) :
    (raw.addSection sect).stored name = raw.stored name := by
  rw [stored, stored, addSection]
  congr 1
  rw [Dict.get?_setDefault]
  by_cases hs : name.1 = sect
  · rw [if_pos hs, hs]
    cases raw.sections.get? sect <;> rfl
  · rw [if_neg hs]

theorem mem_keys_addSection {sect sect' : String} :
    sect' ∈ (raw.addSection sect).sections.keys ↔ sect' ∈ raw.sections.keys ∨ sect' = sect := by
  rw [addSection, Dict.keys_setDefault, addKey]
  split
  · next hmem =>
    constructor
    · exact .inl
    · rintro (h | rfl)
      · exact h
      · exact hmem
  · rw [List.mem_append, List.mem_singleton]

/-! ## Reading a section -/

/-- What is known of options that are read into a section. -/
structure OptionsRead (casing : Casing) (sect : String) (items : List (String × String))
    (added : List String) (raw raw' : RawParser) : Prop where
  has : items ≠ [] → raw.HasSection (casing.lower sect)
  nodup : (items.map fun item => casing.lower item.1).Nodup
  fresh : ∀ item ∈ items, casing.lower item.1 ∉ added
  keys : raw'.sections.keys = raw.sections.keys
  stored : ∀ item ∈ items,
    raw'.stored (casing.lower sect, casing.lower item.1) = some item.2
  frame : ∀ name, (∀ item ∈ items, name ≠ (casing.lower sect, casing.lower item.1)) →
    raw'.stored name = raw.stored name

theorem readOptions_spec {sect : String} {items : List (String × String)}
    {state state' : RawParser × List String}
    (h : items.foldlM (readOption casing sect) state = .ok state') :
    OptionsRead casing sect items state.2 state.1 state'.1 := by
  induction items generalizing state with
  | nil =>
    rw [List.foldlM_nil] at h
    cases h
    exact ⟨fun h => absurd rfl h, List.nodup_nil, fun _ h => absurd h List.not_mem_nil, rfl,
      fun _ h => absurd h List.not_mem_nil, fun _ _ => rfl⟩
  | cons item items ih =>
    rw [List.foldlM_cons, readOption] at h
    by_cases hadded : casing.lower item.1 ∈ state.2
    · rw [if_pos hadded] at h
      cases h
    · rw [if_neg hadded] at h
      cases hset : state.1.set casing sect (casing.lower item.1) item.2 with
      | error e =>
        rw [hset] at h
        cases h
      | ok raw₁ =>
        rw [hset] at h
        have hs := set_spec hset
        have hrest := @ih (raw₁, casing.lower item.1 :: state.2) h
        have hstored := hs.stored
        rw [casing.lower_lower] at hstored
        have hne : ∀ item' ∈ items, casing.lower item'.1 ≠ casing.lower item.1 :=
          fun item' hitem' heq => hrest.fresh item' hitem' (heq ▸ List.mem_cons_self)
        refine ⟨fun _ => hs.has, ?_, ?_, hrest.keys.trans hs.keys, ?_, ?_⟩
        · rw [List.map_cons, List.nodup_cons]
          refine ⟨fun hmem => ?_, hrest.nodup⟩
          obtain ⟨item', hitem', heq⟩ := List.mem_map.mp hmem
          exact hne item' hitem' heq
        · refine List.forall_mem_cons.mpr ⟨hadded, fun item' hitem' hmem => ?_⟩
          exact hrest.fresh item' hitem' (List.mem_cons_of_mem _ hmem)
        · refine List.forall_mem_cons.mpr ⟨?_, hrest.stored⟩
          rw [hrest.frame, hstored, if_pos rfl]
          exact fun item' hitem' heq => hne item' hitem' (congrArg Prod.snd heq).symm
        · intro name hname
          rw [List.forall_mem_cons] at hname
          rw [hrest.frame name hname.2, hstored, if_neg hname.1]

theorem exists_readOptions {sect : String} {items : List (String × String)}
    (state : RawParser × List String) (hhas : items ≠ [] → state.1.HasSection (casing.lower sect))
    (hnodup : (items.map fun item => casing.lower item.1).Nodup)
    (hfresh : ∀ item ∈ items, casing.lower item.1 ∉ state.2) :
    ∃ state', items.foldlM (readOption casing sect) state = .ok state' := by
  induction items generalizing state with
  | nil => exact ⟨state, rfl⟩
  | cons item items ih =>
    rw [List.map_cons, List.nodup_cons] at hnodup
    rw [List.forall_mem_cons] at hfresh
    have hsect := hhas (List.cons_ne_nil _ _)
    obtain ⟨raw₁, hset⟩ := exists_set hsect (casing.lower item.1) item.2
    rw [List.foldlM_cons, readOption, if_neg hfresh.1, hset]
    refine ih (raw₁, casing.lower item.1 :: state.2) (fun _ => ?_) hnodup.2 ?_
    · rw [HasSection, (set_spec hset).keys]
      exact hsect
    · intro item' hitem' hmem
      rcases List.mem_cons.mp hmem with heq | hmem
      · exact hnodup.1 (List.mem_map.mpr ⟨item', hitem', heq⟩)
      · exact hfresh.2 item' hitem' hmem

/-- What is known of a section that is read. -/
structure SectionRead (casing : Casing) (sect : String × Dict String String)
    (raw raw' : RawParser) : Prop where
  has : sect.2.entries ≠ [] → casing.lower sect.1 = "" ∨
    casing.lower sect.1 ∈ raw.sections.keys ∨ casing.lower sect.1 = sect.1
  nodup : (sect.2.entries.map fun option => casing.lower option.1).Nodup
  keys : ∀ sect', sect' ∈ raw'.sections.keys ↔ sect' ∈ raw.sections.keys ∨ sect' = sect.1
  stored : ∀ option ∈ sect.2.entries,
    raw'.stored (casing.lower sect.1, casing.lower option.1) = some option.2
  frame : ∀ name, (∀ option ∈ sect.2.entries,
    name ≠ (casing.lower sect.1, casing.lower option.1)) → raw'.stored name = raw.stored name

theorem readSection_spec {sect : String × Dict String String}
    (h : readSection casing raw sect = .ok raw') : SectionRead casing sect raw raw' := by
  rw [readSection] at h
  cases hread : sect.2.entries.foldlM (readOption casing sect.1) (raw.addSection sect.1, []) with
  | error e =>
    rw [hread] at h
    cases h
  | ok state' =>
    rw [hread] at h
    cases h
    have hspec := readOptions_spec hread
    refine ⟨fun hne => ?_, hspec.nodup, fun sect' => ?_, hspec.stored, fun name hname => ?_⟩
    · refine (hspec.has hne).imp_right fun hmem => ?_
      exact mem_keys_addSection.mp hmem
    · rw [hspec.keys]
      exact mem_keys_addSection
    · rw [hspec.frame name hname]
      exact stored_addSection sect.1 name

theorem exists_readSection {sect : String × Dict String String}
    (hhas : sect.2.entries ≠ [] → casing.lower sect.1 = "" ∨
      casing.lower sect.1 ∈ raw.sections.keys ∨ casing.lower sect.1 = sect.1)
    (hnodup : (sect.2.entries.map fun option => casing.lower option.1).Nodup) :
    ∃ raw', readSection casing raw sect = .ok raw' := by
  obtain ⟨state', hstate'⟩ := exists_readOptions (raw.addSection sect.1, [])
    (fun hne => (hhas hne).imp_right mem_keys_addSection.mpr) hnodup (fun _ _ => List.not_mem_nil)
  exact ⟨state'.1, by rw [readSection, hstate']; rfl⟩

/-! ## Reading all sections -/

/-- What is known of sections that are read one after the other. -/
structure SectionsRead (casing : Casing) (sects : List (String × Dict String String))
    (raw raw' : RawParser) : Prop where
  has : ∀ before sect after, sects = before ++ sect :: after → sect.2.entries ≠ [] →
    casing.lower sect.1 = "" ∨
      (casing.lower sect.1 ∈ raw.sections.keys ∨ casing.lower sect.1 ∈ before.map Prod.fst) ∨
      casing.lower sect.1 = sect.1
  nodup : ∀ sect ∈ sects, (sect.2.entries.map fun option => casing.lower option.1).Nodup
  keys : ∀ sect', sect' ∈ raw'.sections.keys ↔ sect' ∈ raw.sections.keys ∨ sect' ∈ sects.map Prod.fst
  stored : ∀ before sect after, sects = before ++ sect :: after → ∀ option ∈ sect.2.entries,
    (∀ sect' ∈ after, ∀ option' ∈ sect'.2.entries, (casing.lower sect.1, casing.lower option.1) ≠
      (casing.lower sect'.1, casing.lower option'.1)) →
    raw'.stored (casing.lower sect.1, casing.lower option.1) = some option.2
  frame : ∀ name, (∀ sect ∈ sects, ∀ option ∈ sect.2.entries,
    name ≠ (casing.lower sect.1, casing.lower option.1)) → raw'.stored name = raw.stored name

theorem readSections_spec {sects : List (String × Dict String String)}
    (h : sects.foldlM (readSection casing) raw = .ok raw') : SectionsRead casing sects raw raw' := by
  induction sects generalizing raw with
  | nil =>
    rw [List.foldlM_nil] at h
    cases h
    refine ⟨fun _ _ _ h => ?_, fun _ h => absurd h List.not_mem_nil, fun _ => by simp,
      fun _ _ _ h => ?_, fun _ _ => rfl⟩
    · simp at h
    · simp at h
  | cons sect sects ih =>
    rw [List.foldlM_cons] at h
    cases hread : readSection casing raw sect with
    | error e =>
      rw [hread] at h
      cases h
    | ok raw₁ =>
      rw [hread] at h
      have hs := readSection_spec hread
      have hrest := ih h
      refine ⟨?_, List.forall_mem_cons.mpr ⟨hs.nodup, hrest.nodup⟩, fun sect' => ?_, ?_, ?_⟩
      · intro before sect' after hsplit hne
        rcases List.cons_eq_append_iff.mp hsplit with ⟨rfl, hcons⟩ | ⟨before', rfl, rfl⟩
        · obtain ⟨rfl, -⟩ := List.cons.inj hcons
          exact (hs.has hne).imp_right fun h => h.imp_left .inl
        · refine (hrest.has _ _ _ rfl hne).imp_right fun h => h.imp_left ?_
          rintro (hmem | hmem)
          · rcases (hs.keys _).mp hmem with hmem | heq
            · exact .inl hmem
            · exact .inr (heq ▸ List.mem_cons_self)
          · exact .inr (List.mem_cons_of_mem _ hmem)
      · rw [hrest.keys, hs.keys, List.map_cons, List.mem_cons, or_assoc]
      · intro before sect' after hsplit option hoption hafter
        rcases List.cons_eq_append_iff.mp hsplit with ⟨rfl, hcons⟩ | ⟨before', rfl, rfl⟩
        · obtain ⟨rfl, rfl⟩ := List.cons.inj hcons
          rw [hrest.frame _ hafter]
          exact hs.stored option hoption
        · exact hrest.stored _ _ _ rfl option hoption hafter
      · intro name hname
        rw [List.forall_mem_cons] at hname
        rw [hrest.frame name hname.2, hs.frame name hname.1]

theorem exists_readSections {sects : List (String × Dict String String)}
    (hhas : ∀ before sect after, sects = before ++ sect :: after → sect.2.entries ≠ [] →
      casing.lower sect.1 = "" ∨
        (casing.lower sect.1 ∈ raw.sections.keys ∨ casing.lower sect.1 ∈ before.map Prod.fst) ∨
        casing.lower sect.1 = sect.1)
    (hnodup : ∀ sect ∈ sects, (sect.2.entries.map fun option => casing.lower option.1).Nodup) :
    ∃ raw', sects.foldlM (readSection casing) raw = .ok raw' := by
  induction sects generalizing raw with
  | nil => exact ⟨raw, rfl⟩
  | cons sect sects ih =>
    rw [List.forall_mem_cons] at hnodup
    obtain ⟨raw₁, hread⟩ := exists_readSection (fun hne => (hhas [] sect sects rfl hne).imp_right
      fun h => h.imp_left fun h => h.resolve_right List.not_mem_nil) hnodup.1
    rw [List.foldlM_cons, hread]
    refine ih (fun before sect' after hsplit hne => ?_) hnodup.2
    refine (hhas (sect :: before) sect' after (by rw [hsplit]; rfl) hne).imp_right fun h =>
      h.imp_left ?_
    rw [(readSection_spec hread).keys, List.map_cons, List.mem_cons]
    rintro (hmem | heq | hmem)
    · exact .inl (.inl hmem)
    · exact .inl (.inr heq)
    · exact .inr hmem

/-! ## Reading a dictionary -/

/-- What a dictionary must be like to be read whatever was read before. -/
structure Readable (casing : Casing) (dictionary : Dict String (Dict String String)) : Prop where
  has : ∀ before sect after, dictionary.entries = before ++ sect :: after → sect.2.entries ≠ [] →
    casing.lower sect.1 = "" ∨ casing.lower sect.1 ∈ before.map Prod.fst ∨
      casing.lower sect.1 = sect.1
  nodup : ∀ sect ∈ dictionary.entries,
    (sect.2.entries.map fun option => casing.lower option.1).Nodup

variable {dictionary : Dict String (Dict String String)}

theorem exists_readDict (h : Readable casing dictionary) (raw : RawParser) :
    ∃ raw', raw.readDict casing dictionary = .ok raw' :=
  exists_readSections (fun before sect after hsplit hne =>
    (h.has before sect after hsplit hne).imp_right fun h => h.imp_left .inr) h.nodup

theorem readable_of_readDict (h : RawParser.readDict casing {} dictionary = .ok raw') :
    Readable casing dictionary where
  has before sect after hsplit hne :=
    ((readSections_spec h).has before sect after hsplit hne).imp_right fun h =>
      h.imp_left fun h => h.resolve_left List.not_mem_nil
  nodup := (readSections_spec h).nodup

/-- An option is stored in lower case, if no other section has it as well. -/
theorem stored_readDict (h : raw.readDict casing dictionary = .ok raw') {sect key value : String}
    {options : Dict String String} (hsect : dictionary.get? sect = some options)
    (hkey : options.get? key = some value)
    (hunique : ∀ sect' options' key', dictionary.get? sect' = some options' →
      key' ∈ options'.keys → casing.lower sect' = casing.lower sect →
        casing.lower key' = casing.lower key → sect' = sect) :
    raw'.stored (casing.lower sect, casing.lower key) = some value ∧
      sect ∈ raw'.sections.keys := by
  have hread := readSections_spec h
  have hmem := Dict.get?_eq_some.mp hsect
  obtain ⟨before, after, hsplit⟩ := List.append_of_mem hmem
  refine ⟨hread.stored before (sect, options) after hsplit (key, value)
    (Dict.get?_eq_some.mp hkey) fun sect' hsect' option' hoption' heq => ?_,
    (hread.keys sect).mpr (.inr (List.mem_map.mpr ⟨_, hmem, rfl⟩))⟩
  have hmem' : sect' ∈ dictionary.entries :=
    hsplit ▸ List.mem_append_right _ (List.mem_cons_of_mem _ hsect')
  have hname : sect'.1 = sect := by
    refine hunique sect'.1 sect'.2 option'.1 (Dict.get?_eq_some.mpr hmem') ?_
      (congrArg Prod.fst heq).symm (congrArg Prod.snd heq).symm
    exact List.mem_map.mpr ⟨option', hoption', rfl⟩
  -- the keys of a dictionary are distinct
  have hnodup := dictionary.keys_nodup
  rw [hsplit, List.map_append, List.map_cons, List.nodup_append] at hnodup
  exact (List.nodup_cons.mp hnodup.2.1).1 (List.mem_map.mpr ⟨sect', hsect', hname⟩)

end RawParser

end Airflow.Configuration
