import Airflow.Configuration.Provenance
import Airflow.Lib.Overlay

/-!
# `get` and `as_dict` follow their sources

`get` gives the value of the first source (`get_eq`) and `as_dict` shows the value of the last one
(`lookup?_asDict`).
-/

namespace Airflow.Configuration

theorem Parser.text?_eq_some {parser : Parser} {name : OptionName} {text : String} :
    parser.text? name = some text ↔
      ∃ options, parser.get? name.1 = some options ∧ options.get? name.2 = some text := by
  rw [Parser.text?, Option.bind_eq_some_iff]

namespace AirflowConfigParser

variable {c : AirflowConfigParser}

/-! ## `get` -/

theorem text_eq (origin : Origin) {text : String} (h : c.text? origin = some text) :
    c.text origin = text := by
  rw [AirflowConfigParser.text, h]
  rfl

/-- The value of an option in a parser is that of its source. -/
theorem value?_eq {parser : Parser} {origin : Origin} {name : OptionName}
    (hsome : ∀ text, parser.text? name = some text →
      c.interpolated origin = c.interpolate ((parser.get? name.1).getD {}) text) :
    c.value? parser name =
      (textSource parser origin name).map fun s => c.interpolated s.origin := by
  rw [value?, textSource, Option.map_map]
  cases hget : parser.get? name.1 with
  | none =>
    rw [Parser.text?, hget]
    rfl
  | some options =>
    rw [Option.bind_some]
    cases htext : options.get? name.2 with
    | none =>
      rw [Parser.text?, hget, Option.bind_some, htext]
      rfl
    | some text =>
      have hparser : parser.text? name = some text := by
        rw [Parser.text?, hget, Option.bind_some, htext]
      rw [hparser, Option.map_some, Option.map_some, Function.comp_apply, hsome text hparser, hget]
      rfl

theorem value?_file (name : OptionName) :
    c.value? c.config name = (c.fileSource name).map fun s => c.interpolated s.origin :=
  value?_eq fun text htext => by rw [interpolated, text_eq (.file name) htext]

theorem value?_default (name : OptionName) :
    c.value? c.description.defaultValues name =
      (c.defaultSource name).map fun s => c.interpolated s.origin :=
  value?_eq fun text htext => by rw [interpolated, text_eq (.default name) htext]

theorem value?_pre27 (name : OptionName) :
    c.value? c.description.pre27DefaultValues name =
      (c.pre27Source name).map fun s => c.interpolated s.origin :=
  value?_eq fun text htext => by rw [interpolated, text_eq (.pre27 name) htext]

theorem textSource_eq_some {parser : Parser} {origin : Origin} {name : OptionName} {s : Source} :
    textSource parser origin name = some s ↔ (parser.text? name).isSome ∧ s = { origin } := by
  rw [textSource, Option.map_eq_some_iff, Option.isSome_iff_exists]
  constructor
  · rintro ⟨text, htext, rfl⟩
    exact ⟨⟨text, htext⟩, rfl⟩
  · rintro ⟨⟨text, htext⟩, rfl⟩
    exact ⟨text, htext, rfl⟩

/-- Two functions of the sources agree if they agree on the sources there are. -/
theorem map_congr_of_mem {α : Type} {o : Option Source} {f g : Source → α}
    (h : ∀ s, o = some s → f s = g s) : o.map f = o.map g := by
  cases o with
  | none => rfl
  | some s => exact congrArg some (h s rfl)

theorem getFileOption_eq (name : OptionName) :
    c.getFileOption name = (c.fileSource name).map c.got := by
  rw [getFileOption, value?_file, Option.map_map]
  refine map_congr_of_mem fun s hs => ?_
  obtain ⟨-, rfl⟩ := textSource_eq_some.mp hs
  rfl

theorem getDefaultOption_eq (name : OptionName) :
    c.getDefaultOption name = (c.defaultSource name).map c.got := by
  rw [getDefaultOption, value?_default, Option.map_map]
  refine map_congr_of_mem fun s hs => ?_
  obtain ⟨-, rfl⟩ := textSource_eq_some.mp hs
  rfl

theorem value?_pre27_eq (name : OptionName) :
    c.value? c.description.pre27DefaultValues name = (c.pre27Source name).map c.got := by
  rw [value?_pre27]
  refine map_congr_of_mem fun s hs => ?_
  obtain ⟨-, rfl⟩ := textSource_eq_some.mp hs
  rfl

theorem computeValue_secret (h : c.Regular) (path : String) :
    c.secretBackend path = some (c.computeValue path .secret) := by
  obtain ⟨value, hvalue, -⟩ := h.secretBackend path
  rw [computeValue, hvalue]
  rfl

theorem computeValue_regular (h : c.Regular) (value : String) (computation : Computation) :
    c.computeValue value computation ≠ "" ∧ Plain (c.computeValue value computation) := by
  cases computation with
  | cmd => exact h.runCommand value
  | secret =>
    obtain ⟨value', hvalue, hplain⟩ := h.secretBackend value
    rw [computeValue, hvalue]
    exact hplain

theorem get?_environ {envVar : String} (h : envVar ∈ c.environ.keys) :
    c.environ.get? envVar = some (c.text (.environ envVar)) := by
  obtain ⟨text, htext⟩ := Dict.mem_keys.mp h
  rw [htext, text_eq (.environ envVar) htext]

theorem getEnvVarOption_eq_map (h : c.Regular) (name : OptionName) :
    c.getEnvVarOption name = (c.envSource name).map c.got := by
  simp only [getEnvVarOption, envSource, List.contains_iff_mem]
  by_cases hown : c.description.envVarName name ∈ c.environ.keys
  · rw [if_pos hown, get?_environ hown]
    rfl
  · rw [if_neg hown, Dict.get?_eq_none.mpr hown]
    dsimp only
    split
    · by_cases hcmd : c.description.envVarName name ++ "_CMD" ∈ c.environ.keys
      · rw [if_pos hcmd, get?_environ hcmd]
        rfl
      · rw [if_neg hcmd, Dict.get?_eq_none.mpr hcmd]
        dsimp only
        by_cases hsecret : c.description.envVarName name ++ "_SECRET" ∈ c.environ.keys
        · rw [if_pos hsecret, get?_environ hsecret]
          exact computeValue_secret h _
        · rw [if_neg hsecret, Dict.get?_eq_none.mpr hsecret]
          rfl
    · rfl

theorem got_compute {name : OptionName} {s : Source} (hs : c.fileSource name = some s)
    (computation : Computation) :
    c.got (s.compute computation) = c.computeValue (c.interpolated s.origin) computation := by
  obtain ⟨-, rfl⟩ := textSource_eq_some.mp hs
  rfl

/-- The options of commands and of the secrets backend are those of their sources. -/
theorem computedOption_eq (h : c.Regular) {suffix : String} {computation : Computation}
    {option : OptionName → Option String}
    (hoption : ∀ name, option name = if name ∈ c.description.sensitiveConfigValues then
      (c.value? c.config (name.1, name.2 ++ suffix)).map (c.computeValue · computation) else none)
    (name : OptionName) :
    (option name).filter (· ≠ "") = (c.computedSource suffix computation name).map c.got := by
  simp only [hoption, computedSource, value?_file, List.contains_iff_mem]
  split
  · cases hs : c.fileSource (name.1, name.2 ++ suffix) with
    | none => rfl
    | some s =>
      rw [Option.map_some, Option.map_some, Option.map_some, Option.map_some, got_compute hs,
        Option.filter_some, if_pos]
      simpa using (computeValue_regular h _ computation).1
  · rfl

theorem getCmdOption_eq (h : c.Regular) (name : OptionName) :
    (c.getCmdOption name).filter (· ≠ "") = (c.computedSource "_cmd" .cmd name).map c.got :=
  @computedOption_eq c h "_cmd" .cmd _ (fun _ => rfl) name

theorem getSecretOption_eq (h : c.Regular) (name : OptionName) :
    (c.getSecretOption name).filter (· ≠ "") =
      (c.computedSource "_secret" .secret name).map c.got := by
  refine computedOption_eq h (fun name => ?_) name
  rw [getSecretOption]
  congr 1
  cases c.value? c.config (name.1, name.2 ++ "_secret") with
  | none => rfl
  | some path => exact computeValue_secret h path

theorem orDeprecated_map {getter : OptionName → Option String}
    {source : OptionName → Option Source} {f : Source → String}
    (h : ∀ name, getter name = (source name).map f) (name : OptionName)
    (deprecated : Option OptionName) :
    orDeprecated getter name deprecated = (orDeprecated source name deprecated).map f := by
  rw [orDeprecated, orDeprecated, Option.map_or, h]
  congr 1
  cases deprecated with
  | none => rfl
  | some old => exact h old

/-- **`get` gives the value of the first source.** -/
theorem get_eq (h : c.Regular) (name : OptionName) :
    c.get name.1 name.2 = (c.firstSource name).map c.got := by
  simp only [get, firstSource, Option.map_or]
  rw [orDeprecated_map (getEnvVarOption_eq_map h), orDeprecated_map getFileOption_eq,
    orDeprecated_map (getCmdOption_eq h), orDeprecated_map (getSecretOption_eq h),
    getDefaultOption_eq, value?_pre27_eq]
  rfl

/-! ## `as_dict` -/

variable {display : Display}

/-- Under each name, the entry shows the value of a source. -/
def Shows (c : AirflowConfigParser) (raw : Bool) (sources : ConfigSources)
    (source : OptionName → Option Source) : Prop :=
  ∀ name, sources.lookup? name = (source name).map fun s => ⟨c.shown raw s, none⟩

/-! ### Defaults and config file -/

/-- The entry that is written for an option of a parser. -/
def parserEntry (c : AirflowConfigParser) (display : Display) (source : String) (name : OptionName)
    (options : Dict String String) (text : String) : Option Entry :=
  if source = "default" && c.skipsDefault name then none
  else some ⟨if display.raw then text else c.interpolate options text, none⟩

theorem lookup?_replaceSection (c : AirflowConfigParser) (hdisplay : display.source = false)
    (source : String) (sources : ConfigSources) (sect : String × Dict String String)
    (name : OptionName) :
    (c.replaceSection display source sources sect).lookup? name =
      (if sect.1 = name.1 then
        (sect.2.get? name.2).bind (c.parserEntry display source name sect.2)
      else none).or (sources.lookup? name) := by
  rw [← sources.lookup?_setDefault sect.1, replaceSection]
  rw [lookup_foldl (ConfigSources.lookup? · name) fun item : String × String =>
    if sect.1 = name.1 then
      if item.1 = name.2 then c.parserEntry display source name sect.2 item.2 else none
    else none]
  · congr 1
    by_cases hsect : sect.1 = name.1
    · simp only [if_pos hsect]
      exact Dict.findSome?_entries sect.2 name.2 (c.parserEntry display source name sect.2)
    · simp only [if_neg hsect]
      exact List.findSome?_eq_none_iff.mpr fun _ _ => rfl
  · intro sources item
    rw [replaceItem]
    by_cases hname : name = (sect.1, item.1)
    · subst hname
      simp only [if_true, parserEntry]
      split
      · rfl
      · rw [ConfigSources.lookup?_put, if_pos rfl, Display.entry, hdisplay]
        rfl
    · have hwrite : ∀ entry : Option Entry,
          (if sect.1 = name.1 then if item.1 = name.2 then entry else none else none) = none := by
        intro entry
        split
        · next hsect => exact if_neg fun hkey => hname (Prod.ext hsect.symm hkey.symm)
        · rfl
      rw [hwrite, Option.none_or]
      split
      · rfl
      · rw [ConfigSources.lookup?_put, if_neg hname]

/-- What is written for the options of a parser. -/
theorem lookup?_foldl_replaceSection (c : AirflowConfigParser) (hdisplay : display.source = false)
    (source : String) (parser : Parser) (sources : ConfigSources) (name : OptionName) :
    (parser.entries.foldl (c.replaceSection display source) sources).lookup? name =
      ((parser.get? name.1).bind fun options =>
        (options.get? name.2).bind (c.parserEntry display source name options)).or
      (sources.lookup? name) := by
  rw [lookup_foldl (ConfigSources.lookup? · name) _
    (fun sources sect => lookup?_replaceSection c hdisplay source sources sect name)]
  congr 1
  exact Dict.findSome?_entries parser name.1 fun options =>
    (options.get? name.2).bind (c.parserEntry display source name options)

/-- Nothing is written for a default that is skipped. -/
theorem bind_parserEntry_none {parser : Parser} {source : String} {name : OptionName}
    (hskips : (source = "default" && c.skipsDefault name) = true) :
    ((parser.get? name.1).bind fun options =>
      (options.get? name.2).bind (c.parserEntry display source name options)) = none := by
  rw [Option.bind_eq_none_iff]
  intro options _
  rw [Option.bind_eq_none_iff]
  intro text _
  exact if_pos hskips

/-- The entry that is written for an option of a parser is that of its source. -/
theorem bind_parserEntry_eq {parser : Parser} {source : String} {name : OptionName}
    {origin : Origin} (hskips : (source = "default" && c.skipsDefault name) = false)
    (horigin : ∀ envVar, origin ≠ .environ envVar)
    (htext : c.text? origin = parser.text? name)
    (hinterpolated : c.interpolated origin =
      c.interpolate ((parser.get? name.1).getD {}) (c.text origin)) :
    ((parser.get? name.1).bind fun options =>
        (options.get? name.2).bind (c.parserEntry display source name options)) =
      (textSource parser origin name).map fun s => ⟨c.shown display.raw s, none⟩ := by
  have hshown : c.shownText display.raw origin =
      if display.raw then c.text origin else c.interpolated origin := by
    cases origin with
    | environ envVar => exact absurd rfl (horigin envVar)
    | file name => rfl
    | default name => rfl
    | pre27 name => rfl
  rw [textSource, Option.map_map, Parser.text?]
  cases hget : parser.get? name.1 with
  | none => rfl
  | some options =>
    rw [Option.bind_some, Option.bind_some]
    cases hoption : options.get? name.2 with
    | none => rfl
    | some text =>
      have heq : c.text origin = text :=
        text_eq _ (htext.trans (Parser.text?_eq_some.mpr ⟨options, hget, hoption⟩))
      rw [heq, hget] at hinterpolated
      rw [heq, hinterpolated] at hshown
      rw [Option.bind_some, parserEntry, hskips, Option.map_some]
      exact congrArg some (congrArg (Entry.mk · none) hshown.symm)

theorem replaceConfig_shows (c : AirflowConfigParser) (display : Display)
    (hdisplay : display.source = false) :
    c.Shows display.raw (c.replaceConfig display) c.parserSource := by
  intro name
  simp only [replaceConfig, List.foldl_cons, List.foldl_nil]
  rw [lookup?_foldl_replaceSection c hdisplay, lookup?_foldl_replaceSection c hdisplay,
    lookup?_foldl_replaceSection c hdisplay, parserSource, Option.map_or, Option.map_or]
  have hempty : ConfigSources.lookup? {} name = none := rfl
  have hfile : ("airflow.cfg" = "default" && c.skipsDefault name) = false := rfl
  have hpre27 : ("default-pre-2-7" = "default" && c.skipsDefault name) = false := rfl
  rw [hempty, Option.or_none]
  congr 1
  · exact bind_parserEntry_eq hfile (fun _ h => by cases h) rfl rfl
  · congr 1
    · split
      · next hskips => exact bind_parserEntry_none (by simpa using hskips)
      · next hskips =>
        exact bind_parserEntry_eq (by simpa using hskips) (fun _ h => by cases h) rfl rfl
    · exact bind_parserEntry_eq hpre27 (fun _ h => by cases h) rfl rfl

/-! ### Environment -/

theorem envSource_cases {name : OptionName} {s : Source} (hs : c.envSource name = some s) :
    ∃ envVar ∈ c.environ.keys, s = { origin := .environ envVar } ∨
      ∃ computation, s = ⟨.environ envVar, [computation], true⟩ ∧
        name ∈ c.description.sensitiveConfigValues := by
  simp only [envSource, List.contains_iff_mem] at hs
  split at hs
  · next hown =>
    cases hs
    exact ⟨_, hown, .inl rfl⟩
  · split at hs
    · next hsens =>
      split at hs
      · next hcmd =>
        cases hs
        exact ⟨_, hcmd, .inr ⟨_, rfl, hsens⟩⟩
      · split at hs
        · next hsecret =>
          cases hs
          exact ⟨_, hsecret, .inr ⟨_, rfl, hsens⟩⟩
        · cases hs
    · cases hs

theorem shown_envSource {name : OptionName} {s : Source} (hs : c.envSource name = some s)
    (raw : Bool) : c.shown raw s = escapeIf raw (c.got s) := by
  obtain ⟨envVar, -, rfl | ⟨computation, rfl, -⟩⟩ := envSource_cases hs
  · rfl
  · rfl

theorem lookup?_includeEnv_eq (h : c.Regular) (raw : Bool) (sources : ConfigSources)
    (envVar : String) (name : OptionName) :
    (c.includeEnv { sensitive := true, raw := raw } sources envVar).lookup? name =
      ((c.envWrite name envVar).map fun s => ⟨c.shown raw s, none⟩).or
        (sources.lookup? name) := by
  rw [includeEnv, envWrite]
  cases envVarParts envVar with
  | none => rfl
  | some spelled =>
    dsimp only
    rw [Option.bind_some, getEnvVarOption_eq_map h]
    cases hs : c.envSource spelled with
    | none =>
      rw [Option.map_none, ite_self]
      rfl
    | some s =>
      rw [Option.map_some]
      dsimp only
      rw [ConfigSources.lookup?_put]
      by_cases hname : c.description.putName spelled = name
      · rw [if_pos hname, if_pos hname.symm, Option.map_some, shown_envSource hs]
        rfl
      · rw [if_neg hname, if_neg fun heq => hname heq.symm]
        rfl

theorem findSome?_map_right {ι α β : Type} (write : ι → Option α) (f : α → β) (is : List ι) :
    is.findSome? (fun i => (write i).map f) = (is.findSome? write).map f := by
  induction is with
  | nil => rfl
  | cons i is ih =>
    rw [List.findSome?_cons, List.findSome?_cons]
    cases write i with
    | none => exact ih
    | some a => rfl

theorem includeEnvs_shows (h : c.Regular) {raw : Bool} {sources : ConfigSources}
    (hs : c.Shows raw sources c.parserSource) :
    c.Shows raw (c.includeEnvs { sensitive := true, raw := raw } sources) c.textualSource := by
  intro name
  rw [includeEnvs, lookup_foldl (ConfigSources.lookup? · name) _
    (fun sources envVar => lookup?_includeEnv_eq h raw sources envVar name),
    findSome?_map_right (c.envWrite name), textualSource, Option.map_or, hs name]

/-! ### Commands and secrets -/

theorem lookup?_delete (sources : ConfigSources) (name name' : OptionName) :
    (sources.delete name).lookup? name' = if name' = name then none else sources.lookup? name' := by
  obtain ⟨s, k⟩ := name
  obtain ⟨s', k'⟩ := name'
  rw [ConfigSources.delete]
  cases hget : sources.get? s with
  | none =>
    by_cases hname : (s', k') = (s, k)
    · rw [if_pos hname, hname, ConfigSources.lookup?, hget]
      rfl
    · rw [if_neg hname]
  | some options =>
    simp only [ConfigSources.lookup?, Dict.get?_set, Prod.mk.injEq]
    by_cases hs : s' = s
    · subst hs
      rw [if_pos rfl, Option.bind_some, Dict.get?_erase, hget]
      simp
    · simp [hs]

theorem shown_compute (raw : Bool) (s : Source) (computation : Computation) :
    c.shown raw (s.compute computation) =
      escapeIf raw (c.computeValue (c.shown raw s) computation) := by
  rw [shown, Source.compute, List.foldl_append]
  rfl

theorem includeComputed_shows (h : c.Regular) {raw : Bool} (suffix source : String)
    (computation : Computation) {getter : String → Option String}
    (hgetter : ∀ value, getter value = some (c.computeValue value computation)) (name : OptionName)
    {sources : ConfigSources} {f : OptionName → Option Source} (hs : c.Shows raw sources f) :
    c.Shows raw
      (includeComputed { sensitive := true, raw := raw } suffix source getter sources name)
      (overlay suffix computation f name) := by
  have hlookup := hs (name.1, name.2 ++ suffix)
  rw [includeComputed, overlay]
  cases hf : f (name.1, name.2 ++ suffix) with
  | none =>
    rw [hf, Option.map_none] at hlookup
    rw [hlookup]
    exact hs
  | some s =>
    rw [hf, Option.map_some] at hlookup
    rw [hlookup]
    simp only [hgetter, if_neg (computeValue_regular h _ computation).1]
    intro name'
    rw [lookup?_delete, ConfigSources.lookup?_put]
    dsimp only
    split
    · rfl
    · split
      · rw [Option.map_some, shown_compute]
        rfl
      · exact hs name'

theorem foldl_shows {raw : Bool} {step : ConfigSources → OptionName → ConfigSources}
    {step' : (OptionName → Option Source) → OptionName → OptionName → Option Source}
    (hstep : ∀ name sources f, c.Shows raw sources f → c.Shows raw (step sources name) (step' f name))
    (names : List OptionName) {sources : ConfigSources} {f : OptionName → Option Source}
    (hs : c.Shows raw sources f) : c.Shows raw (names.foldl step sources) (names.foldl step' f) := by
  induction names generalizing sources f with
  | nil => exact hs
  | cons name names ih => exact ih (hstep name sources f hs)

/-- **`as_dict` shows the value of the last source.** -/
theorem lookup?_asDict (h : c.Regular) (raw : Bool) (name : OptionName) :
    (c.asDict { sensitive := true, raw := raw }).lookup? name =
      (c.lastSource name).map fun s => ⟨c.shown raw s, none⟩ := by
  have henvs := includeEnvs_shows h (c.replaceConfig_shows { sensitive := true, raw := raw } rfl)
  have hcommands : c.Shows raw _ _ := foldl_shows
    (fun name _ _ hs => includeComputed_shows h "_cmd" "cmd" .cmd (fun _ => rfl) name hs)
    c.description.sensitiveConfigValues henvs
  have hsecrets : c.Shows raw _ _ := foldl_shows
    (fun name _ _ hs =>
      includeComputed_shows h "_secret" "secret" .secret (computeValue_secret h) name hs)
    c.description.sensitiveConfigValues hcommands
  exact hsecrets name

end AirflowConfigParser

end Airflow.Configuration
