import Airflow.Configuration.Proof.Precedence
import Airflow.Configuration.Proof.Copy
import Mathlib.Tactic.ByContra

/-!
# The configuration that is in effect

What `as_dict` shows, and what a copy of it gives to a process without the environment, is what `get`
gives, for all configurations of a shape, exactly when their options are undisputed (`inEffect_iff`).
-/

namespace Airflow.Configuration

namespace AirflowConfigParser

variable {c : AirflowConfigParser} {display : Display}

/-! ## The sections of `as_dict` -/

/-- Sections are added that are in lower case. -/
def Grows (desc : Description) (sources sources' : ConfigSources) : Prop :=
  ∃ extra : List String, (∀ sect ∈ extra, desc.casing.lower sect = sect) ∧
    sources'.keys = extra.foldl addKey sources.keys

theorem Grows.refl (desc : Description) (sources : ConfigSources) : Grows desc sources sources :=
  ⟨[], fun _ h => absurd h List.not_mem_nil, rfl⟩

theorem Grows.trans {desc : Description} {sources sources' sources'' : ConfigSources}
    (h : Grows desc sources sources') (h' : Grows desc sources' sources'') :
    Grows desc sources sources'' := by
  obtain ⟨extra, hlower, hkeys⟩ := h
  obtain ⟨extra', hlower', hkeys'⟩ := h'
  refine ⟨extra ++ extra', fun sect hsect => ?_, by rw [hkeys', hkeys, List.foldl_append]⟩
  rcases List.mem_append.mp hsect with hsect | hsect
  · exact hlower sect hsect
  · exact hlower' sect hsect

theorem Grows.foldl {ι : Type} {desc : Description} {step : ConfigSources → ι → ConfigSources}
    {items : List ι} (h : ∀ sources, ∀ item ∈ items, Grows desc sources (step sources item))
    (sources : ConfigSources) : Grows desc sources (items.foldl step sources) := by
  induction items generalizing sources with
  | nil => exact Grows.refl desc sources
  | cons item items ih =>
    rw [List.foldl_cons]
    exact (h sources item List.mem_cons_self).trans
      (ih (fun sources item hitem => h sources item (List.mem_cons_of_mem _ hitem)) _)

theorem keys_put (sources : ConfigSources) (name : OptionName) (entry : Entry) :
    (sources.put name entry).keys = addKey sources.keys name.1 :=
  Dict.keys_set_eq_addKey sources name.1 _

theorem grows_put {desc : Description} {name : OptionName}
    (h : desc.casing.lower name.1 = name.1) (sources : ConfigSources) (entry : Entry) :
    Grows desc sources (sources.put name entry) :=
  ⟨[name.1], by simpa using h, keys_put sources name entry⟩

theorem keys_delete (sources : ConfigSources) (name : OptionName) :
    (sources.delete name).keys = sources.keys := by
  rw [ConfigSources.delete]
  cases hget : sources.get? name.1 with
  | none => rfl
  | some options => exact Dict.keys_set.trans (if_pos (Dict.mem_keys.mpr ⟨options, hget⟩))

theorem keys_replaceSection (c : AirflowConfigParser) (source : String) (sources : ConfigSources)
    (sect : String × Dict String String) :
    (c.replaceSection display source sources sect).keys = addKey sources.keys sect.1 := by
  have hloop : ∀ (items : List (String × String)) (sources' : ConfigSources),
      sect.1 ∈ sources'.keys → Dict.keys (items.foldl (fun sources item =>
        c.replaceItem display source sect.2 sources (sect.1, item.1) item.2) sources') =
          sources'.keys := by
    intro items
    induction items with
    | nil => exact fun _ _ => rfl
    | cons item items ih =>
      intro sources' hmem
      have hkeys : (c.replaceItem display source sect.2 sources' (sect.1, item.1) item.2).keys =
          sources'.keys := by
        rw [replaceItem]
        split
        · rfl
        · rw [keys_put]
          exact if_pos hmem
      rw [List.foldl_cons, ih _ (hkeys ▸ hmem), hkeys]
  rw [replaceSection, hloop, Dict.keys_setDefault]
  rw [Dict.keys_setDefault, addKey]
  split
  · next hmem => exact hmem
  · exact List.mem_append_right _ List.mem_cons_self

theorem keys_foldl_replaceSection (c : AirflowConfigParser) (source : String)
    (sects : List (String × Dict String String)) (sources : ConfigSources) :
    (sects.foldl (c.replaceSection display source) sources).keys =
      (sects.map Prod.fst).foldl addKey sources.keys := by
  induction sects generalizing sources with
  | nil => rfl
  | cons sect sects ih =>
    rw [List.foldl_cons, ih, keys_replaceSection, List.map_cons, List.foldl_cons]

theorem keys_replaceConfig (c : AirflowConfigParser) :
    (c.replaceConfig display).keys = firsts c.parserSections := by
  simp only [replaceConfig, List.foldl_cons, List.foldl_nil]
  rw [keys_foldl_replaceSection, keys_foldl_replaceSection, keys_foldl_replaceSection, firsts,
    parserSections, List.foldl_append, List.foldl_append]
  rfl

theorem includeEnv_grows (c : AirflowConfigParser) (sources : ConfigSources) (envVar : String) :
    Grows c.description sources (c.includeEnv display sources envVar) := by
  unfold includeEnv
  cases envVarParts envVar with
  | none => exact Grows.refl _ _
  | some spelled =>
    dsimp only
    cases c.getEnvVarOption spelled with
    | none => exact Grows.refl _ _
    | some opt => exact grows_put (c.description.casing.lower_lower spelled.1) _ _

theorem includeComputed_grows {desc : Description} {name : OptionName}
    (h : desc.casing.lower name.1 = name.1) (suffix source : String)
    (getter : String → Option String) (sources : ConfigSources) :
    Grows desc sources (includeComputed display suffix source getter sources name) := by
  unfold includeComputed
  cases sources.lookup? (name.1, name.2 ++ suffix) with
  | none => exact Grows.refl _ _
  | some text =>
    dsimp only
    cases getter text.value with
    | none => exact Grows.refl _ _
    | some value =>
      dsimp only
      split
      · exact Grows.refl _ _
      · obtain ⟨extra, hlower, hkeys⟩ := grows_put h sources
          (display.entry (shownValue display value) source)
        exact ⟨extra, hlower, (keys_delete _ _).trans hkeys⟩

theorem includeEnvs_grows (c : AirflowConfigParser) (display : Display)
    (sources : ConfigSources) :
    Grows c.description sources (c.includeEnvs display sources) :=
  Grows.foldl (fun sources envVar _ => c.includeEnv_grows sources envVar) sources

theorem includeCommands_grows (c : AirflowConfigParser) (display : Display)
    (sources : ConfigSources) :
    Grows c.description sources (c.includeCommands display sources) :=
  Grows.foldl (fun sources _ hname =>
    includeComputed_grows (c.description.lower_of_mem_sensitive hname).1 "_cmd" "cmd" _ sources)
    sources

theorem includeSecrets_grows (c : AirflowConfigParser) (display : Display)
    (sources : ConfigSources) :
    Grows c.description sources (c.includeSecrets display sources) :=
  Grows.foldl (fun sources _ hname =>
    includeComputed_grows (c.description.lower_of_mem_sensitive hname).1 "_secret" "secret" _
      sources) sources

/-- The sections of `as_dict` are those of the parsers, in their order, and others in lower case. -/
theorem keys_asDict (c : AirflowConfigParser) (raw : Bool) :
    ∃ extra, (∀ sect ∈ extra, c.description.casing.lower sect = sect) ∧
      (c.asDict { sensitive := true, raw := raw }).keys = firsts (c.parserSections ++ extra) := by
  have hgrows : Grows c.description (c.replaceConfig { sensitive := true, raw := raw })
      (c.asDict { sensitive := true, raw := raw }) :=
    ((c.includeEnvs_grows _ _).trans (c.includeCommands_grows _ _)).trans
      (c.includeSecrets_grows _ _)
  obtain ⟨extra, hlower, hkeys⟩ := hgrows
  refine ⟨extra, hlower, hkeys.trans ?_⟩
  rw [keys_replaceConfig, firsts, firsts, List.foldl_append]

/-! ## Reading the copy -/

/-- The text of an option in a copy. -/
theorem get?_tmpConfigurationCopy (h : c.Regular) {sect key value : String} :
    (∃ options, c.tmpConfigurationCopy.get? sect = some options ∧
        options.get? key = some value) ↔
      (c.lastSource (sect, key)).map (c.shown true) = some value := by
  have hlookup := lookup?_asDict h true (sect, key)
  rw [ConfigSources.lookup?] at hlookup
  have hmap : (c.lastSource (sect, key)).map (c.shown true) =
      (((c.asDict { sensitive := true, raw := true }).get? sect).bind (·.get? key)).map
        Entry.value := by
    rw [hlookup, Option.map_map]
    rfl
  rw [hmap, tmpConfigurationCopy, Dict.get?_mapValues]
  cases (c.asDict { sensitive := true, raw := true }).get? sect with
  | none => simp
  | some options => simp [Dict.get?_mapValues]

theorem mem_keys_copy (h : c.Regular) {sect key : String} {options : Dict String String}
    (hsect : c.tmpConfigurationCopy.get? sect = some options) :
    key ∈ options.keys ↔ (c.lastSource (sect, key)).isSome := by
  rw [Dict.mem_keys]
  constructor
  · rintro ⟨value, hvalue⟩
    have hmap := (get?_tmpConfigurationCopy h).mp ⟨options, hsect, hvalue⟩
    rw [← Option.isSome_map, hmap]
    rfl
  · intro hsome
    obtain ⟨s, hs⟩ := Option.isSome_iff_exists.mp hsome
    have hmap : (c.lastSource (sect, key)).map (c.shown true) = some (c.shown true s) := by
      rw [hs]
      rfl
    obtain ⟨options', hsect', hvalue⟩ := (get?_tmpConfigurationCopy h).mpr hmap
    rw [hsect, Option.some.injEq] at hsect'
    exact ⟨_, hsect' ▸ hvalue⟩

theorem keys_tmpConfigurationCopy (c : AirflowConfigParser) :
    ∃ extra, (∀ sect ∈ extra, c.description.casing.lower sect = sect) ∧
      c.tmpConfigurationCopy.keys = firsts (c.parserSections ++ extra) := by
  rw [tmpConfigurationCopy, Dict.keys_mapValues]
  exact c.keys_asDict true

/-- A copy can be read exactly when no keys differ only in their case and the sections are in
order. -/
theorem readable_iff (h : c.Regular) :
    RawParser.Readable c.description.casing c.tmpConfigurationCopy ↔
      (∀ sect key key', (c.lastSource (sect, key)).isSome → (c.lastSource (sect, key')).isSome →
        c.description.casing.lower key = c.description.casing.lower key' → key = key') ∧
      ∀ before sect after, c.parserSections = before ++ sect :: after → sect ∉ before →
        (∃ key, (c.lastSource (sect, key)).isSome) → c.description.casing.lower sect = "" ∨
          c.description.casing.lower sect ∈ before ++ [sect] := by
  obtain ⟨extra, hlower, hkeys⟩ := c.keys_tmpConfigurationCopy
  have hentries : ∀ sect ∈ c.tmpConfigurationCopy.entries, ∀ key,
      key ∈ sect.2.keys ↔ (c.lastSource (sect.1, key)).isSome :=
    fun sect hsect _ => mem_keys_copy h (Dict.get?_eq_some.mpr hsect)
  have hsection : ∀ sect key, (c.lastSource (sect, key)).isSome → ∃ options,
      (sect, options) ∈ c.tmpConfigurationCopy.entries ∧ key ∈ options.keys := by
    intro sect key hsome
    obtain ⟨s, hs⟩ := Option.isSome_iff_exists.mp hsome
    have hmap : (c.lastSource (sect, key)).map (c.shown true) = some (c.shown true s) := by
      rw [hs]
      rfl
    obtain ⟨options, hsect, hvalue⟩ := (get?_tmpConfigurationCopy h).mpr hmap
    exact ⟨options, Dict.get?_eq_some.mp hsect, Dict.mem_keys.mpr ⟨_, hvalue⟩⟩
  -- the sections of the parsers come first, in the order in which they come first
  have hfirst : ∀ before sect after, c.parserSections = before ++ sect :: after → sect ∉ before →
      ∀ before' after', c.tmpConfigurationCopy.keys = before' ++ sect :: after' →
        ∀ sect', sect' ∈ before' ↔ sect' ∈ before := by
    intro before sect after hsplit hnot before' after' hsplit' sect'
    obtain ⟨rest, hrest⟩ := @firsts_append_cons _ _ before (after ++ extra) sect hnot
    have heq : before' ++ sect :: after' = firsts before ++ sect :: rest := by
      rw [← hsplit', hkeys, hsplit, List.append_assoc, List.cons_append, hrest]
    have hnodup : (before' ++ sect :: after').Nodup := hsplit' ▸ Dict.nodup_keys _
    rw [List.nodup_append, List.nodup_cons] at hnodup
    have hbefore := (List.append_cons_inj_of_notMem
      (fun hmem => hnodup.2.2 _ hmem sect List.mem_cons_self rfl) hnodup.2.1.1).mp heq
    rw [hbefore.1]
    exact mem_firsts
  constructor
  · rintro ⟨hhas, hnodup⟩
    refine ⟨fun sect key key' hkey hkey' heq => ?_, fun before sect after hsplit hnot hkey => ?_⟩
    · obtain ⟨options, hmem, hmemkey⟩ := hsection sect key hkey
      have hmemkey' : key' ∈ options.keys := (hentries _ hmem key').mpr hkey'
      obtain ⟨option, hoption, rfl⟩ := List.mem_map.mp hmemkey
      obtain ⟨option', hoption', rfl⟩ := List.mem_map.mp hmemkey'
      exact congrArg Prod.fst (List.inj_on_of_nodup_map (hnodup _ hmem) hoption hoption' heq)
    · obtain ⟨key, hkey⟩ := hkey
      obtain ⟨options, hmem, hmemkey⟩ := hsection sect key hkey
      obtain ⟨before', after', hsplit'⟩ := List.append_of_mem hmem
      have hmap : c.tmpConfigurationCopy.keys =
          before'.map Prod.fst ++ sect :: after'.map Prod.fst := by
        rw [Dict.keys, hsplit', List.map_append, List.map_cons]
      have hne : options.entries ≠ [] := by
        rintro hnil
        rw [Dict.keys, hnil] at hmemkey
        exact absurd hmemkey List.not_mem_nil
      refine (hhas before' (sect, options) after' hsplit' hne).imp_right ?_
      rintro (hbefore | heq)
      · exact List.mem_append_left _ ((hfirst before sect after hsplit hnot _ _ hmap _).mp hbefore)
      · exact List.mem_append_right _ (List.mem_singleton.mpr heq)
  · rintro ⟨hinj, hhas⟩
    refine ⟨fun before sect after hsplit hne => ?_, fun sect hsect => ?_⟩
    · have hmap : c.tmpConfigurationCopy.keys =
          before.map Prod.fst ++ sect.1 :: after.map Prod.fst := by
        rw [Dict.keys, hsplit, List.map_append, List.map_cons]
      have hmem : sect.1 ∈ c.parserSections ++ extra := by
        rw [← mem_firsts, ← hkeys, hmap]
        exact List.mem_append_right _ List.mem_cons_self
      rcases List.mem_append.mp hmem with hparser | hextra
      · obtain ⟨before', after', hsplit', hnot⟩ := List.eq_append_cons_of_mem hparser
        obtain ⟨option, hoption⟩ := List.exists_mem_of_ne_nil _ hne
        have hkey : (c.lastSource (sect.1, option.1)).isSome := by
          refine (hentries sect ?_ option.1).mp (List.mem_map.mpr ⟨option, hoption, rfl⟩)
          exact hsplit ▸ List.mem_append_right _ List.mem_cons_self
        refine (hhas before' sect.1 after' hsplit' hnot ⟨_, hkey⟩).imp_right fun hbefore => ?_
        rcases List.mem_append.mp hbefore with hbefore | heq
        · exact .inl ((hfirst before' sect.1 after' hsplit' hnot _ _ hmap _).mpr hbefore)
        · exact .inr (List.mem_singleton.mp heq)
      · exact .inr (.inr (hlower _ hextra))
    · have hmap : sect.2.entries.map (fun option => c.description.casing.lower option.1) =
          sect.2.keys.map c.description.casing.lower := by
        rw [Dict.keys, List.map_map]
        rfl
      rw [hmap]
      refine List.Nodup.map_on (fun key hkey key' hkey' heq => ?_) sect.2.keys_nodup
      exact hinj sect.1 key key' ((hentries sect hsect key).mp hkey)
        ((hentries sect hsect key').mp hkey') heq

/-! ## What the sources are -/

/-- What holds of the sources that `get` asks holds of the first one. -/
theorem firstSource_ind {P : Source → Prop} {name : OptionName}
    (henv : ∀ name s, c.envSource name = some s → P s)
    (hfile : ∀ name', name' = (c.description.resolve (c.description.lowerName name)).1 ∨
      c.description.deprecatedName (c.description.lowerName name) = some name' →
        ∀ s, c.fileSource name' = some s → P s)
    (hcomputed : ∀ suffix computation name s, c.computedSource suffix computation name = some s →
      P s)
    (hdefault : ∀ s, c.defaultSource (c.description.resolve (c.description.lowerName name)).1 =
      some s → P s)
    (hpre27 : ∀ s, c.pre27Source (c.description.resolve (c.description.lowerName name)).1 =
      some s → P s)
    {s : Source} (hs : c.firstSource name = some s) : P s := by
  have hor : ∀ (getter : OptionName → Option Source) {name'} {deprecated : Option OptionName} {s'},
      (∀ name'', name'' = name' ∨ deprecated = some name'' → ∀ s, getter name'' = some s → P s) →
        orDeprecated getter name' deprecated = some s' → P s' := by
    intro getter name' deprecated s' h hs'
    rw [orDeprecated, Option.or_eq_some_iff, Option.bind_eq_some_iff] at hs'
    rcases hs' with hs' | ⟨-, old, hold, hs'⟩
    · exact h name' (.inl rfl) s' hs'
    · exact h old (.inr hold) s' hs'
  simp only [firstSource, Option.or_eq_some_iff] at hs
  rcases hs with hs | ⟨-, hs | ⟨-, hs | ⟨-, hs | ⟨-, hs | ⟨-, hs⟩⟩⟩⟩⟩
  · exact hor _ (fun name _ s hs => henv name s hs) hs
  · exact hor _ hfile hs
  · exact hor _ (fun name _ s hs => hcomputed _ _ name s hs) hs
  · exact hor _ (fun name _ s hs => hcomputed _ _ name s hs) hs
  · exact hdefault s hs
  · exact hpre27 s hs

theorem textSource_computations {parser : Parser} {origin : Origin} {name : OptionName}
    {s : Source} (hs : textSource parser origin name = some s) : s.computations = [] := by
  obtain ⟨-, rfl⟩ := textSource_eq_some.mp hs
  rfl

theorem computedSource_eq_some {suffix : String} {computation : Computation} {name : OptionName}
    {s : Source} (hs : c.computedSource suffix computation name = some s) :
    s = ⟨.file (name.1, name.2 ++ suffix), [computation], false⟩ := by
  rw [computedSource] at hs
  split at hs
  · obtain ⟨s', hs', rfl⟩ := Option.map_eq_some_iff.mp hs
    obtain ⟨-, rfl⟩ := textSource_eq_some.mp hs'
    rfl
  · cases hs

/-- `get` computes a value once, if at all. -/
theorem firstSource_computations {name : OptionName} {s : Source}
    (hs : c.firstSource name = some s) :
    s.computations = [] ∨ ∃ computation, s.computations = [computation] := by
  refine firstSource_ind (P := fun s => s.computations = [] ∨
    ∃ computation, s.computations = [computation]) (fun name s hs => ?_)
    (fun _ _ s hs => .inl (textSource_computations hs))
    (fun suffix computation name s hs => .inr ⟨computation, ?_⟩)
    (fun s hs => .inl (textSource_computations hs)) (fun s hs => .inl (textSource_computations hs))
    hs
  · obtain ⟨envVar, -, rfl | ⟨computation, rfl, -⟩⟩ := envSource_cases hs
    · exact .inl rfl
    · exact .inr ⟨computation, rfl⟩
  · rw [computedSource_eq_some hs]

/-- What holds of the sources of texts, and of what is computed for sensitive options from a source
for which it holds, holds of the last source. -/
theorem lastSource_ind {P : OptionName → Source → Prop}
    (htextual : ∀ name s, c.textualSource name = some s → P name s)
    (hcompute : ∀ name ∈ c.description.sensitiveConfigValues, ∀ name' s computation,
      P name' s → P name (s.compute computation))
    {name : OptionName} {s : Source} (hs : c.lastSource name = some s) : P name s := by
  have hoverlay : ∀ suffix computation (f : OptionName → Option Source),
      (∀ name s, f name = some s → P name s) → ∀ option ∈ c.description.sensitiveConfigValues,
        ∀ name s, overlay suffix computation f option name = some s → P name s := by
    intro suffix computation f hf option hoption name s hs
    rw [overlay] at hs
    cases htext : f (option.1, option.2 ++ suffix) with
    | none =>
      rw [htext] at hs
      exact hf name s hs
    | some text =>
      rw [htext] at hs
      dsimp only at hs
      split at hs
      · cases hs
      · split at hs
        · next heq =>
          cases hs
          exact heq ▸ hcompute option hoption _ text computation (hf _ text htext)
        · exact hf name s hs
  have hloop : ∀ suffix computation (f : OptionName → Option Source),
      (∀ name s, f name = some s → P name s) → ∀ name s,
        c.description.sensitiveConfigValues.foldl (overlay suffix computation) f name = some s →
          P name s := by
    intro suffix computation f hf
    refine List.foldlRecOn (motive := fun f : OptionName → Option Source =>
      ∀ name s, f name = some s → P name s) _ _ hf ?_
    exact fun f hf option hoption => hoverlay suffix computation f hf option hoption
  exact hloop _ _ _ (hloop _ _ _ htextual) name s hs

/-- The last source is put under a section in lower case, or it is the text of the option itself in a
parser. -/
theorem textualSource_cases {name : OptionName} {s : Source} (hs : c.textualSource name = some s) :
    (c.description.casing.lower name.1 = name.1 ∧ ∃ spelled, c.envSource spelled = some s) ∨
      s = { origin := .file name } ∨ s = { origin := .default name } ∨
        s = { origin := .pre27 name } := by
  rw [textualSource, Option.or_eq_some_iff] at hs
  rcases hs with hs | ⟨-, hs⟩
  · obtain ⟨envVar, -, hwrite⟩ := List.exists_of_findSome?_eq_some hs
    obtain ⟨spelled, -, hspelled⟩ := Option.bind_eq_some_iff.mp hwrite
    split at hspelled
    · next hname =>
      refine .inl ⟨?_, spelled, hspelled⟩
      rw [← hname]
      exact c.description.casing.lower_lower spelled.1
    · cases hspelled
  · right
    rw [parserSource, Option.or_eq_some_iff, Option.or_eq_some_iff] at hs
    rcases hs with hs | ⟨-, hs | ⟨-, hs⟩⟩
    · exact .inl (textSource_eq_some.mp hs).2
    · split at hs
      · cases hs
      · exact .inr (.inl (textSource_eq_some.mp hs).2)
    · exact .inr (.inr (textSource_eq_some.mp hs).2)

theorem lastSource_cases {name : OptionName} {s : Source} (hs : c.lastSource name = some s) :
    c.description.casing.lower name.1 = name.1 ∨
      s = { origin := .file name } ∨ s = { origin := .default name } ∨
        s = { origin := .pre27 name } := by
  refine lastSource_ind (P := fun name s => c.description.casing.lower name.1 = name.1 ∨
    s = { origin := .file name } ∨ s = { origin := .default name } ∨
      s = { origin := .pre27 name }) (fun name s hs => ?_) (fun name hname _ _ _ _ => ?_) hs
  · exact (textualSource_cases hs).imp_left And.left
  · exact .inl (c.description.lower_of_mem_sensitive hname).1

/-- Something is computed from a text that is spelled in the environment. -/
theorem lastSource_spelled {name : OptionName} {s : Source} (hs : c.lastSource name = some s)
    (hspelled : s.spelled = true) : (∃ envVar, s.origin = .environ envVar) ∧ s.computations ≠ [] := by
  revert hspelled
  refine lastSource_ind (P := fun _ s => s.spelled = true →
    (∃ envVar, s.origin = .environ envVar) ∧ s.computations ≠ []) (fun name s hs => ?_)
    (fun _ _ _ s _ hP hspelled => ⟨(hP hspelled).1, ?_⟩) hs
  · intro hspelled
    rcases textualSource_cases hs with ⟨-, spelled, henv⟩ | rfl | rfl | rfl
    · obtain ⟨envVar, -, rfl | ⟨computation, rfl, -⟩⟩ := envSource_cases henv
      · cases hspelled
      · exact ⟨⟨envVar, rfl⟩, List.cons_ne_nil _ _⟩
    · cases hspelled
    · cases hspelled
    · cases hspelled
  · exact List.append_ne_nil_of_right_ne_nil _ (List.cons_ne_nil _ _)

/-! ## Undisputed options -/

theorem escape_of_plain {text : String} (h : Plain text) : escape text = text := by
  have hchars : ∀ cs : List Char, (∀ ch ∈ cs, ch ≠ '%') →
      (cs.flatMap fun ch => if ch = '%' then ['%', '%'] else [ch]) = cs := by
    intro cs
    induction cs with
    | nil => exact fun _ => rfl
    | cons ch cs ih =>
      intro hcs
      rw [List.forall_mem_cons] at hcs
      rw [List.flatMap_cons, if_neg hcs.1, ih hcs.2, List.singleton_append]
  rw [escape, hchars _ fun ch hch => (h ch hch).2.2, String.ofList_toList]

theorem escapeIf_of_plain {text : String} (h : Plain text) (raw : Bool) :
    escapeIf raw text = text := by
  rw [escapeIf]
  split
  · exact escape_of_plain h
  · rfl

theorem shownText_of_plain (h : c.Regular) {origin : Origin} (hplain : Plain (c.text origin))
    (raw : Bool) : c.shownText raw origin = c.text origin := by
  cases origin with
  | environ envVar => rw [shownText, h.expand_of_plain _ hplain, escapeIf_of_plain hplain]
  | file name => simp only [shownText, interpolated, h.interpolate_of_plain _ _ hplain, ite_self]
  | default name => simp only [shownText, interpolated, h.interpolate_of_plain _ _ hplain, ite_self]
  | pre27 name => simp only [shownText, interpolated, h.interpolate_of_plain _ _ hplain, ite_self]

theorem interpolated_of_plain (h : c.Regular) {origin : Origin} (hplain : Plain (c.text origin)) :
    c.interpolated origin = c.text origin := by
  cases origin with
  | environ envVar => rfl
  | file name => exact h.interpolate_of_plain _ _ hplain
  | default name => exact h.interpolate_of_plain _ _ hplain
  | pre27 name => exact h.interpolate_of_plain _ _ hplain

theorem gotText_of_plain (h : c.Regular) {origin : Origin} (hplain : Plain (c.text origin)) :
    c.gotText origin = c.text origin := by
  have hinterpolated := interpolated_of_plain h hplain
  cases origin with
  | environ envVar =>
    exact (congrArg c.expandEnvVar hinterpolated).trans (h.expand_of_plain _ hplain)
  | file name =>
    exact (congrArg c.expandEnvVar hinterpolated).trans (h.expand_of_plain _ hplain)
  | default name =>
    exact (congrArg c.expandEnvVar hinterpolated).trans (h.expand_of_plain _ hplain)
  | pre27 name => exact hinterpolated

/-- What is shown of a settled source is what `get` gives for the same source. -/
theorem shown_eq_of_settled (h : c.Regular) {s s' : Source} (hsame : s.Same s')
    (hcomputations : s'.computations = [] ∨ ∃ computation, s'.computations = [computation])
    (hspelled : s.spelled = true → (∃ envVar, s.origin = .environ envVar) ∧ s.computations ≠ [])
    (hsettled : c.Settled s) (raw : Bool) :
    c.shown raw s = escapeIf raw (c.got s') ∧ c.expandEnvVar (c.got s') = c.got s' := by
  obtain ⟨horigin, hsame⟩ := hsame
  rw [← hsame] at hcomputations
  rw [shown, got, ← horigin, ← hsame]
  rcases hcomputations with hnil | ⟨computation, hone⟩
  · rw [hnil]
    rcases hsettled with hsp | ⟨-, envVar, henv⟩ | hplain
    · exact absurd hnil (hspelled hsp).2
    · have hsp : s.spelled = false := by
        by_contra hsp
        exact (hspelled (by simpa using hsp)).2 hnil
      rw [henv, hsp]
      exact ⟨rfl, h.expand_expand _⟩
    · have hsp : s.spelled = false := by
        by_contra hsp
        exact (hspelled (by simpa using hsp)).2 hnil
      rw [hsp]
      dsimp only [List.foldl_nil]
      rw [gotText_of_plain h hplain, escapeIf_of_plain hplain]
      exact ⟨shownText_of_plain h hplain raw, h.expand_of_plain _ hplain⟩
  · rw [hone]
    dsimp only [List.foldl_cons, List.foldl_nil]
    refine ⟨?_, h.expand_of_plain _ (computeValue_regular h _ computation).2⟩
    congr 2
    rcases hsettled with hsp | ⟨hnil, -⟩ | hplain
    · obtain ⟨envVar, henv⟩ := (hspelled hsp).1
      rw [if_pos hsp, henv]
      rfl
    · rw [hone] at hnil
      cases hnil
    · rw [interpolated_of_plain h hplain, shownText_of_plain h hplain, ite_self]

/-- The first source of an option whose name `get` does not change is found in lower case. -/
theorem lower_of_firstSource {name name' : OptionName} (hcurrent : c.description.Current name)
    {s : Source} (hs : c.firstSource name = some s) (hnil : s.computations = [])
    (horigin : s.origin = .file name' ∨ s.origin = .default name' ∨ s.origin = .pre27 name') :
    c.description.casing.lower name'.1 = name'.1 := by
  have hasked : c.description.casing.lower (c.description.lowerName name).1 =
      (c.description.lowerName name).1 := c.description.casing.lower_lower name.1
  revert hnil horigin
  refine firstSource_ind (P := fun s => s.computations = [] → (s.origin = .file name' ∨
    s.origin = .default name' ∨ s.origin = .pre27 name') →
      c.description.casing.lower name'.1 = name'.1) ?_ ?_ ?_ ?_ ?_ hs
  · rintro option s henv - horigin
    obtain ⟨envVar, -, rfl | ⟨computation, rfl, -⟩⟩ := envSource_cases henv
    · rcases horigin with h | h | h <;> cases h
    · rcases horigin with h | h | h <;> cases h
  · rintro option hoption s hfile - horigin
    obtain ⟨-, rfl⟩ := textSource_eq_some.mp hfile
    rcases horigin with h | h | h
    · cases h
      rcases hoption with rfl | hold
      · rw [hcurrent]
        exact hasked
      · exact c.description.lower_deprecatedName hasked hold
    · cases h
    · cases h
  · rintro suffix computation option s hcomputed hnil -
    rw [computedSource_eq_some hcomputed] at hnil
    cases hnil
  · rintro s hdefault - horigin
    obtain ⟨-, rfl⟩ := textSource_eq_some.mp hdefault
    rcases horigin with h | h | h
    · cases h
    · cases h
      rw [hcurrent]
      exact hasked
    · cases h
  · rintro s hpre27 - horigin
    obtain ⟨-, rfl⟩ := textSource_eq_some.mp hpre27
    rcases horigin with h | h | h
    · cases h
    · cases h
    · cases h
      rw [hcurrent]
      exact hasked

/-! ## A process that has read a copy -/

variable {process : AirflowConfigParser}

theorem getEnvVarOption_of_withoutEnviron (h : c.WithoutEnviron process) (name : OptionName) :
    process.getEnvVarOption name = none := by
  have hget : ∀ suffix, process.environ.get? (process.description.envVarName name ++ suffix) =
      none := by
    intro suffix
    refine Dict.get?_eq_none.mpr fun hmem => h.environ _ hmem ?_
    rw [Description.envVarName, String.append_assoc, String.append_assoc, String.append_assoc,
      String.toList_append]
    exact List.prefix_append _ _
  have hown := hget ""
  rw [String.append_empty] at hown
  rw [getEnvVarOption, hown]
  dsimp only
  rw [hget "_CMD", hget "_SECRET", ite_self]

/-- An option in the config file is what `get` gives if there is none in the environment. -/
theorem get_of_config (h : c.WithoutEnviron process) {name : OptionName}
    (hcurrent : c.description.Current name) {options : Dict String String} {value : String}
    (hsect : process.config.get? (c.description.casing.lower name.1) = some options)
    (hkey : options.get? (c.description.casing.lower name.2) = some value) :
    process.get name.1 name.2 = some (c.expandEnvVar (c.interpolate options value)) := by
  have hfile : process.getFileOption (c.description.lowerName name) =
      some (c.expandEnvVar (c.interpolate options value)) := by
    rw [getFileOption, value?, Description.lowerName, hsect, Option.bind_some, hkey, h.interpolate,
      h.expandEnvVar]
    rfl
  have henv : ∀ name deprecated, orDeprecated process.getEnvVarOption name deprecated = none := by
    intro name deprecated
    rw [orDeprecated, getEnvVarOption_of_withoutEnviron h, Option.none_or]
    cases deprecated with
    | none => rfl
    | some old => exact getEnvVarOption_of_withoutEnviron h old
  have hasked : (process.description.casing.lower name.1, process.description.casing.lower name.2) =
      c.description.lowerName name := by
    rw [h.description]
    rfl
  simp only [get, hasked, henv, Option.none_or]
  rw [h.description, hcurrent, orDeprecated, hfile, Option.some_or, Option.some_or]

/-- What a process gets of an option that it has read from a copy. -/
theorem get_readCopy (hregular : c.Regular) (h : c.WithoutEnviron process) {raw : RawParser}
    {process' : AirflowConfigParser}
    (hread : process.readCopy raw c.tmpConfigurationCopy = .ok process') {name : OptionName}
    (hcurrent : c.description.Current name) {s : Source} (hs : c.lastSource name = some s)
    (hlower : c.description.casing.lower name.1 = name.1)
    (hunique : ∀ name', c.description.lowerName name' = c.description.lowerName name →
      (c.lastSource name').isSome → name'.1 = name.1) :
    ∃ options, process'.get name.1 name.2 =
      some (c.expandEnvVar (c.interpolate options (c.shown true s))) := by
  rw [readCopy, h.description] at hread
  cases hdict : raw.readDict c.description.casing c.tmpConfigurationCopy with
  | error e =>
    rw [hdict] at hread
    cases hread
  | ok raw' =>
    rw [hdict] at hread
    cases hread
    have hmap : (c.lastSource (name.1, name.2)).map (c.shown true) = some (c.shown true s) :=
      congrArg (Option.map (c.shown true)) hs
    obtain ⟨options, hsect, hkey⟩ := (get?_tmpConfigurationCopy hregular).mpr hmap
    obtain ⟨hstored, hmem⟩ := RawParser.stored_readDict hdict hsect hkey
      fun sect' options' key' hsect' hkey' hs' hk' =>
        hunique (sect', key') (Prod.ext hs' hk') ((mem_keys_copy hregular hsect').mp hkey')
    rw [hlower] at hstored
    obtain ⟨options', hoptions', hvalue⟩ := RawParser.parser_get? hmem hstored
    rw [← hlower] at hoptions'
    have hprocess' : c.WithoutEnviron
        { process with description := c.description, config := raw'.parser } :=
      ⟨rfl, h.expandEnvVar, h.interpolate, h.environ⟩
    exact ⟨options', get_of_config hprocess' hcurrent hoptions' hvalue⟩

/-! ## What is shown is in effect -/

/-- The options that are put under a name which `get` does not change are put under a section in lower
case. -/
theorem lower_of_same {name : OptionName} (hcurrent : c.description.Current name) {s s' : Source}
    (hs : c.lastSource name = some s) (hs' : c.firstSource name = some s') (hsame : s.Same s') :
    c.description.casing.lower name.1 = name.1 := by
  rcases lastSource_cases hs with hlower | rfl | rfl | rfl
  · exact hlower
  · exact lower_of_firstSource hcurrent hs' hsame.2.symm (.inl hsame.1.symm)
  · exact lower_of_firstSource hcurrent hs' hsame.2.symm (.inr (.inl hsame.1.symm))
  · exact lower_of_firstSource hcurrent hs' hsame.2.symm (.inr (.inr hsame.1.symm))

/-- Names that are looked for under the same name have the same section. -/
theorem section_unique (hfirst : ∀ name s, c.description.Current name →
      c.lastSource name = some s → ∃ s', c.firstSource name = some s' ∧ s.Same s')
    {name name' : OptionName} (hcurrent : c.description.Current name) (hs : (c.lastSource name).isSome)
    (hs' : (c.lastSource name').isSome)
    (heq : c.description.lowerName name' = c.description.lowerName name) : name'.1 = name.1 := by
  obtain ⟨s, hs⟩ := Option.isSome_iff_exists.mp hs
  obtain ⟨s', hs'⟩ := Option.isSome_iff_exists.mp hs'
  have hcurrent' : c.description.Current name' := by
    rw [Description.Current, heq]
    exact hcurrent
  obtain ⟨f, hf, hsame⟩ := hfirst name s hcurrent hs
  obtain ⟨f', hf', hsame'⟩ := hfirst name' s' hcurrent' hs'
  have hlower := lower_of_same hcurrent hs hf hsame
  have hlower' := lower_of_same hcurrent' hs' hf' hsame'
  rw [← hlower, ← hlower']
  exact congrArg Prod.fst heq

theorem Undisputed.inEffect (hu : c.Undisputed) (h : c.Regular) : c.InEffect where
  get name entry hcurrent hentry := by
    rw [lookup?_asDict h, Option.map_eq_some_iff] at hentry
    obtain ⟨s, hs, rfl⟩ := hentry
    obtain ⟨s', hs', hsame⟩ := hu.first name s hcurrent hs
    have hshown := shown_eq_of_settled h hsame (firstSource_computations hs')
      (lastSource_spelled hs) (hu.settled name s hcurrent hs) false
    rw [get_eq h, hs', Option.map_some]
    exact congrArg some hshown.1.symm
  copy process raw hprocess := by
    obtain ⟨raw', hraw'⟩ := RawParser.exists_readDict
      ((readable_iff h).mpr ⟨hu.keys, hu.sections⟩) raw
    have hread : process.readCopy raw c.tmpConfigurationCopy =
        .ok { process with config := raw'.parser } := by
      rw [readCopy, hprocess.description, hraw']
      rfl
    refine ⟨_, hread, fun name hcurrent hsome => ?_⟩
    rw [lookup?_asDict h, Option.isSome_map] at hsome
    obtain ⟨s, hs⟩ := Option.isSome_iff_exists.mp hsome
    obtain ⟨s', hs', hsame⟩ := hu.first name s hcurrent hs
    have hshown := shown_eq_of_settled h hsame (firstSource_computations hs')
      (lastSource_spelled hs) (hu.settled name s hcurrent hs) true
    obtain ⟨options, hget⟩ := get_readCopy h hprocess hread hcurrent hs
      (lower_of_same hcurrent hs hs' hsame)
      fun name' heq hsome' => section_unique hu.first hcurrent hsome hsome' heq
    rw [hget, get_eq h, hs', Option.map_some, hshown.1]
    change some (c.expandEnvVar (c.interpolate options (escape (c.got s')))) = _
    rw [h.interpolate_escape, hshown.2]

end AirflowConfigParser

end Airflow.Configuration
