import Airflow.Lib.Dict
import Mathlib.Data.List.Dedup

/-!
# `AirflowConfigParser`

`configuration.py`: the sources of an option, `sensitive_config_values`, the names of the environment
variables, and `get` with its order of precedence. What a command prints and what the secrets backend
holds are functions of the command and of the path; `expand_env_var` and the interpolation of
`ConfigParser` are functions as well. A parser holds the texts of its options, the `[DEFAULT]` ones in
each section.
-/

namespace Airflow.Configuration

/-- Python's `str.upper` and `str.lower`. -/
structure Casing where
  upper : String → String
  lower : String → String
  lower_lower : ∀ s, lower (lower s) = lower s

theorem toLower_toLower (c : Char) : c.toLower.toLower = c.toLower := by
  unfold Char.toLower
  split
  · next h =>
    have hA : 'A'.val.toNat = 65 := by decide
    have hZ : 'Z'.val.toNat = 90 := by decide
    have hshift : ('a'.val - 'A'.val).toNat = 32 := by decide
    have hlower : 'A'.val.toNat ≤ c.val.toNat := h.1
    have hupper : c.val.toNat ≤ 'Z'.val.toNat := h.2
    have hsum : (c.val + ('a'.val - 'A'.val)).toNat = c.val.toNat + 32 := by
      rw [UInt32.toNat_add]
      omega
    rw [dif_neg]
    intro h'
    have hupper' : (c.val + ('a'.val - 'A'.val)).toNat ≤ 'Z'.val.toNat := h'.2
    omega
  · rfl

/-- The casing of names in ASCII. -/
def Casing.ascii : Casing where
  upper s := String.ofList (s.toList.map Char.toUpper)
  lower s := String.ofList (s.toList.map Char.toLower)
  lower_lower s := by
    rw [String.toList_ofList, List.map_map]
    exact congrArg String.ofList (List.map_congr_left fun c _ => toLower_toLower c)

/-- A section and a key. -/
abbrev OptionName := String × String

/-- What a `ConfigParser` has read: the texts of the options of each section. -/
abbrev Parser := Dict String (Dict String String)

/-- What is read of the description of an option. -/
structure OptionDescription where
  sensitive : Bool := false
  source : Option String := none
  deriving DecidableEq, Repr

/-- The configuration description with the tables and default values that go with it. The old names
of the tables are in lower case. -/
structure Description where
  casing : Casing
  options : Dict String (Dict String OptionDescription) := {}
  deprecatedOptions : Dict OptionName OptionName := {}
  deprecatedSections : Dict String String := {}
  defaultValues : Parser := {}
  pre27DefaultValues : Parser := {}
  lower_deprecatedOptions : ∀ old ∈ deprecatedOptions.values,
    casing.lower old.1 = old.1 ∧ casing.lower old.2 = old.2
  lower_deprecatedSections : ∀ old ∈ deprecatedSections.values, casing.lower old = old

/-- A configuration: what its sources hold besides the defaults. -/
structure AirflowConfigParser where
  description : Description
  environ : Dict String String := {}
  config : Parser := {}
  runCommand : String → String
  secretBackend : String → Option String
  expandEnvVar : String → String
  interpolate : Dict String String → String → String

/-- `ENV_VAR_PREFIX`. -/
def envVarPrefix : String := "AIRFLOW__"

namespace Description

/-! ## Names -/

/-- The described options that are sensitive, in lower case. -/
def sensitiveOptions (self : Description) : List OptionName :=
  self.options.entries.flatMap fun sect =>
    (sect.2.entries.filter (·.2.sensitive)).map fun option =>
      (self.casing.lower sect.1, self.casing.lower option.1)

/-- `sensitive_config_values`. -/
def sensitiveConfigValues (self : Description) : List OptionName :=
  let sensitive := self.sensitiveOptions
  let deprOption := sensitive.filterMap self.deprecatedOptions.get?
  let deprSection := sensitive.filterMap fun name =>
    (self.deprecatedSections.get? name.1).map (·, name.2)
  (sensitive ++ deprSection ++ deprOption).dedup

theorem lower_of_mem_sensitive (desc : Description) {name : OptionName}
    (h : name ∈ desc.sensitiveConfigValues) :
    desc.casing.lower name.1 = name.1 ∧ desc.casing.lower name.2 = name.2 := by
  have hbase : ∀ option ∈ desc.sensitiveOptions,
      desc.casing.lower option.1 = option.1 ∧ desc.casing.lower option.2 = option.2 := by
    intro option hoption
    obtain ⟨sect, -, hmem⟩ := List.mem_flatMap.mp hoption
    obtain ⟨key, -, rfl⟩ := List.mem_map.mp hmem
    exact ⟨desc.casing.lower_lower _, desc.casing.lower_lower _⟩
  rw [sensitiveConfigValues, List.mem_dedup, List.mem_append, List.mem_append] at h
  rcases h with (h | h) | h
  · exact hbase name h
  · obtain ⟨option, hoption, hname⟩ := List.mem_filterMap.mp h
    obtain ⟨old, hold, rfl⟩ := Option.map_eq_some_iff.mp hname
    exact ⟨desc.lower_deprecatedSections old (Dict.mem_values.mpr ⟨_, hold⟩),
      (hbase option hoption).2⟩
  · obtain ⟨option, -, hname⟩ := List.mem_filterMap.mp h
    exact desc.lower_deprecatedOptions name (Dict.mem_values.mpr ⟨_, hname⟩)

/-- `inversed_deprecated_options`. -/
def inversedDeprecatedOptions (self : Description) : Dict OptionName OptionName :=
  self.deprecatedOptions.entries.foldl (fun d e => d.set e.2 e.1) {}

/-- `inversed_deprecated_sections`. -/
def inversedDeprecatedSections (self : Description) : Dict String String :=
  self.deprecatedSections.entries.foldl (fun d e => d.set e.2 e.1) {}

/-- `_env_var_name`. -/
def envVarName (self : Description) (name : OptionName) : String :=
  let undotted := String.ofList (name.1.toList.map fun c => if c = '.' then '_' else c)
  envVarPrefix ++ self.casing.upper undotted ++ "__" ++ self.casing.upper name.2

/-- The names under which `get` looks for an option given in lower case: the current name and, where
there is one, the deprecated name. -/
def resolve (self : Description) (name : OptionName) : OptionName × Option OptionName :=
  match self.inversedDeprecatedSections.get? name.1 with
  | some newSection => ((newSection, name.2), some name)
  | none =>
    match self.inversedDeprecatedOptions.get? name with
    | some new => (new, some name)
    | none =>
      match self.deprecatedSections.get? name.1 with
      | some oldSection => (name, some (oldSection, name.2))
      | none => (name, self.deprecatedOptions.get? name)

/-- The deprecated name that `get` uses, if its section and its key are not empty. -/
def deprecatedName (self : Description) (name : OptionName) : Option OptionName :=
  (self.resolve name).2.filter fun old => old.1 ≠ "" ∧ old.2 ≠ ""

/-- Deprecated names are in lower case. -/
theorem lower_deprecatedName (desc : Description) {name old : OptionName}
    (hname : desc.casing.lower name.1 = name.1) (h : desc.deprecatedName name = some old) :
    desc.casing.lower old.1 = old.1 := by
  have hresolve : (desc.resolve name).2 = some old := (Option.filter_eq_some_iff.mp h).1
  rw [resolve] at hresolve
  split at hresolve
  · cases hresolve
    exact hname
  · split at hresolve
    · cases hresolve
      exact hname
    · split at hresolve
      · next oldSection hold =>
        cases hresolve
        exact desc.lower_deprecatedSections oldSection (Dict.mem_values.mpr ⟨_, hold⟩)
      · exact (desc.lower_deprecatedOptions old (Dict.mem_values.mpr ⟨_, hresolve⟩)).1

end Description

namespace AirflowConfigParser

variable (self : AirflowConfigParser)

/-! ## Sources -/

/-- The value of an option in a parser, interpolated. -/
def value? (parser : Parser) (name : OptionName) : Option String :=
  (parser.get? name.1).bind fun options => (options.get? name.2).map (self.interpolate options)

/-- `_get_env_var_option`. -/
def getEnvVarOption (name : OptionName) : Option String :=
  let envVar := self.description.envVarName name
  match self.environ.get? envVar with
  | some text => some (self.expandEnvVar text)
  | none =>
    if name ∈ self.description.sensitiveConfigValues then
      match self.environ.get? (envVar ++ "_CMD") with
      | some command => some (self.runCommand command)
      | none =>
        match self.environ.get? (envVar ++ "_SECRET") with
        | some path => self.secretBackend path
        | none => none
    else none

/-- The option in the config file, expanded. -/
def getFileOption (name : OptionName) : Option String :=
  (self.value? self.config name).map self.expandEnvVar

/-- `_get_cmd_option`. -/
def getCmdOption (name : OptionName) : Option String :=
  if name ∈ self.description.sensitiveConfigValues then
    (self.value? self.config (name.1, name.2 ++ "_cmd")).map self.runCommand
  else none

/-- `_get_secret_option`. -/
def getSecretOption (name : OptionName) : Option String :=
  if name ∈ self.description.sensitiveConfigValues then
    (self.value? self.config (name.1, name.2 ++ "_secret")).bind self.secretBackend
  else none

/-- `get_default_value`, expanded. -/
def getDefaultOption (name : OptionName) : Option String :=
  (self.value? self.description.defaultValues name).map self.expandEnvVar

/-! ## `get` -/

/-- The current name is tried first, then the deprecated one. -/
def orDeprecated {α : Type} (getter : OptionName → Option α) (name : OptionName)
    (deprecated : Option OptionName) : Option α :=
  (getter name).or (deprecated.bind getter)

/-- `get`; `none` where the option is not found. -/
def get (sect key : String) : Option String :=
  let asked := (self.description.casing.lower sect, self.description.casing.lower key)
  let name := (self.description.resolve asked).1
  let deprecated := self.description.deprecatedName asked
  (orDeprecated self.getEnvVarOption name deprecated).or <|
  (orDeprecated self.getFileOption name deprecated).or <|
  (orDeprecated (fun name => (self.getCmdOption name).filter (· ≠ "")) name deprecated).or <|
  (orDeprecated (fun name => (self.getSecretOption name).filter (· ≠ "")) name deprecated).or <|
  (self.getDefaultOption name).or (self.value? self.description.pre27DefaultValues name)

end AirflowConfigParser

end Airflow.Configuration
