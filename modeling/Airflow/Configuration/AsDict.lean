import Airflow.Configuration.Parser

/-!
# `AirflowConfigParser.as_dict`

The sources are written one over the other: the pre-2.7 defaults, the defaults and the config file
(`_replace_config_with_display_sources`), the environment (`_include_envs`), the commands
(`_include_commands`) and the secrets backend (`_include_secrets`). `include_env`, `include_cmds` and
`include_secret` are `True`.
-/

namespace Airflow.Configuration

/-- A value, with its source if sources are displayed. -/
structure Entry where
  value : String
  source : Option String
  deriving DecidableEq, Repr

/-- The dictionary that `as_dict` builds. -/
abbrev ConfigSources := Dict String (Dict String Entry)

namespace ConfigSources

/-- `config_sources.get(section, {}).get(key)`. -/
def lookup? (sources : ConfigSources) (name : OptionName) : Option Entry :=
  (sources.get? name.1).bind (·.get? name.2)

/-- `config_sources.setdefault(section, {}).update({key: entry})`. -/
def put (sources : ConfigSources) (name : OptionName) (entry : Entry) : ConfigSources :=
  sources.set name.1 (((sources.get? name.1).getD {}).set name.2 entry)

/-- `del config_sources[section][key]`. -/
def delete (sources : ConfigSources) (name : OptionName) : ConfigSources :=
  match sources.get? name.1 with
  | none => sources
  | some options => sources.set name.1 (options.erase name.2)

theorem lookup?_put (sources : ConfigSources) (name name' : OptionName) (entry : Entry) :
    (sources.put name entry).lookup? name' =
      if name' = name then some entry else sources.lookup? name' := by
  obtain ⟨s, k⟩ := name
  obtain ⟨s', k'⟩ := name'
  simp only [lookup?, put, Dict.get?_set, Prod.mk.injEq]
  by_cases hs : s' = s
  · subst hs
    by_cases hk : k' = k
    · simp [hk, Dict.get?_set]
    · simp only [if_true, Option.bind_some, Dict.get?_set, if_neg hk, true_and]
      cases sources.get? s' <;> simp
  · simp [hs]

theorem lookup?_setDefault (sources : ConfigSources) (sect : String) (name : OptionName) :
    ConfigSources.lookup? (sources.setDefault sect {}) name = sources.lookup? name := by
  simp only [lookup?, Dict.get?_setDefault]
  by_cases hs : name.1 = sect
  · subst hs
    rw [if_pos rfl]
    cases sources.get? name.1 <;> rfl
  · rw [if_neg hs]

end ConfigSources

/-- `"< hidden >"`. -/
def hidden : String := "< hidden >"

/-- `value.replace("%", "%%")`. -/
def escape (value : String) : String :=
  String.ofList (value.toList.flatMap fun c => if c = '%' then ['%', '%'] else [c])

/-- The keyword arguments of `as_dict`. -/
structure Display where
  source : Bool := false
  sensitive : Bool := false
  raw : Bool := false
  deriving DecidableEq, Repr

/-- The entry of a value. -/
def Display.entry (display : Display) (value source : String) : Entry :=
  ⟨value, if display.source then some source else none⟩

/-- `env_var.split("__", 2)` after the prefix. -/
def splitOnce : List Char → Option (List Char × List Char)
  | '_' :: '_' :: rest => some ([], rest)
  | c :: rest => (splitOnce rest).map fun parts => (c :: parts.1, parts.2)
  | [] => none

/-- The section and the key in the name of an environment variable, as they are spelled there. -/
def envVarParts (envVar : String) : Option OptionName :=
  if envVarPrefix.toList.isPrefixOf envVar.toList then
    (splitOnce (envVar.toList.drop envVarPrefix.length)).map fun parts =>
      (String.ofList parts.1, String.ofList parts.2)
  else none

/-- The name under which the option of an environment variable is put. -/
def Description.putName (self : Description) (spelled : OptionName) : OptionName :=
  let sect := self.casing.lower spelled.1
  (sect, if sect ≠ "kubernetes_environment_variables" then self.casing.lower spelled.2
    else spelled.2)

namespace AirflowConfigParser

variable (self : AirflowConfigParser) (display : Display)

/-! ## Defaults and config file -/

/-- `_deprecated_value_is_set_in_config`: of the parsers, that of the defaults is left out. -/
def deprecatedValueIsSetInConfig (name : OptionName) : Bool :=
  [self.description.pre27DefaultValues, self.config].any fun parser =>
    ((parser.get? name.1).bind (·.get? name.2)).isSome

/-- `_deprecated_variable_is_set`, with what follows the name of the variable. -/
def deprecatedVariableIsSet (name : OptionName) (suffix : String) : Bool :=
  (self.environ.get? (envVarPrefix ++ self.description.casing.upper name.1 ++ "__" ++
    self.description.casing.upper name.2 ++ suffix)).isSome

/-- The deprecated option is set in one of the sources. -/
def deprecatedIsSet (name : OptionName) : Bool :=
  self.deprecatedValueIsSetInConfig name || self.deprecatedVariableIsSet name "" ||
    self.deprecatedVariableIsSet name "_CMD" ||
    self.deprecatedValueIsSetInConfig (name.1, name.2 ++ "_cmd") ||
    self.deprecatedVariableIsSet name "_SECRET" ||
    self.deprecatedValueIsSetInConfig (name.1, name.2 ++ "_secret")

/-- A default is skipped if the deprecated option is set. -/
def skipsDefault (name : OptionName) : Bool :=
  match self.description.deprecatedOptions.get? name with
  | none => false
  | some old => old.1 ≠ "" && old.2 ≠ "" && self.deprecatedIsSet old

/-- `updated_source_name`: a default may come from a provider. -/
def sourceName (source : String) (name : OptionName) : String :=
  if source = "default" then
    (((self.description.options.get? name.1).bind (·.get? name.2)).bind (·.source)).getD source
  else source

/-- One item of `_replace_section_config_with_display_sources`. -/
def replaceItem (source : String) (options : Dict String String) (sources : ConfigSources)
    (name : OptionName) (text : String) : ConfigSources :=
  if source = "default" && self.skipsDefault name then sources
  else
    sources.put name
      (display.entry (if display.raw then text else self.interpolate options text)
        (self.sourceName source name))

/-- `_replace_section_config_with_display_sources`. -/
def replaceSection (source : String) (sources : ConfigSources)
    (sect : String × Dict String String) : ConfigSources :=
  sect.2.entries.foldl
    (fun sources item =>
      self.replaceItem display source sect.2 sources (sect.1, item.1) item.2)
    (sources.setDefault sect.1 {})

/-- `_replace_config_with_display_sources`. -/
def replaceConfig : ConfigSources :=
  [("default-pre-2-7", self.description.pre27DefaultValues),
    ("default", self.description.defaultValues), ("airflow.cfg", self.config)].foldl
    (fun sources config => config.2.entries.foldl (self.replaceSection display config.1) sources)
    {}

/-! ## Environment -/

/-- The variable is that of a command or of a path. -/
def endsWithCmdOrSecret (envVar : String) : Bool :=
  "cmd".toList.isSuffixOf (self.description.casing.lower envVar).toList ||
    "secret".toList.isSuffixOf (self.description.casing.lower envVar).toList

/-- What `_include_envs` shows of the value `opt` of a variable. -/
def shownEnv (envVar : String) (spelled : OptionName) (opt : String) : String :=
  if !display.sensitive &&
      envVar ≠ self.description.envVarName ("core", "unit_test_mode") then
    if !self.endsWithCmdOrSecret envVar &&
        self.description.sensitiveConfigValues.contains spelled then hidden
    else opt
  else if display.raw then escape opt
  else opt

/-- One turn of the loop of `_include_envs`. -/
def includeEnv (sources : ConfigSources) (envVar : String) : ConfigSources :=
  match envVarParts envVar with
  | none => sources
  | some spelled =>
    match self.getEnvVarOption spelled with
    | none => sources
    | some opt =>
      sources.put (self.description.putName spelled)
        (display.entry (self.shownEnv display envVar spelled opt) "env var")

/-- `_include_envs`. -/
def includeEnvs (sources : ConfigSources) : ConfigSources :=
  self.environ.keys.foldl (self.includeEnv display) sources

/-! ## Commands and secrets -/

/-- What is shown of the output of a command or of a secret. -/
def shownValue (value : String) : String :=
  if !display.sensitive then hidden
  else if !display.source && display.raw then escape value
  else value

/-- One turn of the loops of `_include_commands` and `_include_secrets`: the option is computed by
`getter` from the text of the option with `suffix`, which it replaces. -/
def includeComputed (suffix source : String) (getter : String → Option String)
    (sources : ConfigSources) (name : OptionName) : ConfigSources :=
  match sources.lookup? (name.1, name.2 ++ suffix) with
  | none => sources
  | some text =>
    match getter text.value with
    | none => sources
    | some value =>
      if value = "" then sources
      else
        (sources.put name (display.entry (shownValue display value) source)).delete
          (name.1, name.2 ++ suffix)

/-- `_include_commands`. -/
def includeCommands (sources : ConfigSources) : ConfigSources :=
  self.description.sensitiveConfigValues.foldl
    (includeComputed display "_cmd" "cmd" fun command => some (self.runCommand command)) sources

/-- `_include_secrets`. -/
def includeSecrets (sources : ConfigSources) : ConfigSources :=
  self.description.sensitiveConfigValues.foldl
    (includeComputed display "_secret" "secret" self.secretBackend) sources

/-! ## `as_dict` -/

/-- One turn of the last loop of `as_dict`: a value that is not empty is hidden, and so is every
value with its source. -/
def hide (sources : ConfigSources) (name : OptionName) : ConfigSources :=
  match sources.lookup? name with
  | none => sources
  | some entry =>
    if entry.source = none ∧ entry.value = "" then sources
    else sources.put name ⟨hidden, entry.source⟩

/-- `as_dict`. -/
def asDict : ConfigSources :=
  let sources :=
    self.includeSecrets display (self.includeCommands display
      (self.includeEnvs display (self.replaceConfig display)))
  if display.sensitive then sources
  else self.description.sensitiveConfigValues.foldl hide sources

end AirflowConfigParser

end Airflow.Configuration
