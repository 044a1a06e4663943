import Airflow.Configuration.AsDict
import Airflow.Lib.Dict
import Mathlib.Data.List.Induction
import Mathlib.Tactic.ByContra

/-!
# What `as_dict` reveals

Two configurations are `Alike` if they differ only in values that are not empty and that `get` would
find for a sensitive option. `as_dict` without `display_sensitive` gives the same for both, whatever
the configurations are, exactly when the variables in the environment are put under names that are
sensitive again and the names of the sensitive options are all in `sensitive_config_values`
(`asDict_hides_iff`).
-/

namespace Airflow.Configuration

/-! ## Secrets -/

namespace Description

variable (desc : Description) (envVars : List String)

/-- The names under which `get` looks for the sensitive options. -/
def lookedUpNames : List OptionName :=
  desc.sensitiveOptions.flatMap fun option =>
    (desc.resolve option).1 :: (desc.deprecatedName option).toList

/-- The option holds the command or the path of a sensitive option. -/
def CommandText (name : OptionName) : Prop :=
  ∃ option ∈ desc.sensitiveConfigValues,
    name = (option.1, option.2 ++ "_cmd") ∨ name = (option.1, option.2 ++ "_secret")

/-- The value in a config file is that of a sensitive option. -/
def SecretName (name : OptionName) : Prop := name ∈ desc.lookedUpNames ∧ ¬desc.CommandText name

/-- A variable of the environment is put under a name, with the value of the variable that is read
for it, which may be another one. -/
def plainReader (envVar : String) : Option (OptionName × String) :=
  (envVarParts envVar).bind fun spelled =>
    if desc.envVarName spelled ∈ envVars then
      some (desc.putName spelled, desc.envVarName spelled)
    else none

/-- The variable whose value is the last to be put under a name. -/
def shownAt (name : OptionName) : Option String :=
  ((envVars.filterMap (desc.plainReader envVars)).reverse.find? (·.1 = name)).map Prod.snd

/-- The value of a variable is the command or the path of a sensitive option. -/
def UsedAsText (envVar : String) : Prop :=
  (∃ option ∈ desc.sensitiveConfigValues,
      envVar = desc.envVarName option ++ "_CMD" ∨ envVar = desc.envVarName option ++ "_SECRET") ∨
    ∃ envVar' ∈ envVars, ∃ name,
      desc.plainReader envVars envVar' = some (name, envVar) ∧ desc.CommandText name

/-- The value of a variable is that of a sensitive option. -/
def SecretVar (envVar : String) : Prop :=
  (∃ name, desc.SecretName name ∧ envVar = desc.envVarName name) ∧ ¬desc.UsedAsText envVars envVar

/-- What is known under the names of sensitive options is hidden: a name is sensitive if `get` looks
there for a sensitive option and no variable is put there, and if the last variable that is put there
has the value of a sensitive option. -/
structure Hides : Prop where
  config : ∀ name, desc.SecretName name → desc.shownAt envVars name = none →
    name ∈ desc.sensitiveConfigValues
  environ : ∀ name envVar, desc.shownAt envVars name = some envVar →
    desc.SecretVar envVars envVar → name ∈ desc.sensitiveConfigValues

/-! ### Names -/

/-- A sensitive option that is spelled as such is put under its own name. -/
theorem putName_of_mem_sensitive {spelled : OptionName}
    (h : spelled ∈ desc.sensitiveConfigValues) : desc.putName spelled = spelled := by
  obtain ⟨hsection, hkey⟩ := desc.lower_of_mem_sensitive h
  simp only [putName, hsection, hkey, ite_self]

variable {desc envVars}

theorem plainReader_eq_some {envVar envVar' : String} {name : OptionName} :
    desc.plainReader envVars envVar = some (name, envVar') ↔
      ∃ spelled, envVarParts envVar = some spelled ∧ envVar' ∈ envVars ∧
        desc.putName spelled = name ∧ desc.envVarName spelled = envVar' := by
  rw [plainReader, Option.bind_eq_some_iff]
  refine exists_congr fun spelled => and_congr_right fun _ => ?_
  split
  · next hmem =>
    rw [Option.some.injEq, Prod.mk.injEq]
    constructor
    · rintro ⟨rfl, rfl⟩
      exact ⟨hmem, rfl, rfl⟩
    · rintro ⟨-, rfl, rfl⟩
      exact ⟨rfl, rfl⟩
  · next hmem =>
    constructor
    · intro h
      cases h
    · rintro ⟨hmem', -, rfl⟩
      exact absurd hmem' hmem

/-- A variable is shown under a name when it is read by the last of those that are put there. -/
theorem shownAt_eq_some {name : OptionName} {envVar : String} :
    desc.shownAt envVars name = some envVar ↔ ∃ before reader after,
      envVars = before ++ reader :: after ∧
        desc.plainReader envVars reader = some (name, envVar) ∧
        ∀ reader' ∈ after, ∀ envVar', desc.plainReader envVars reader' ≠ some (name, envVar') := by
  rw [shownAt]
  generalize desc.plainReader envVars = read
  constructor
  · intro h
    obtain ⟨⟨name', _⟩, hfind, rfl⟩ := Option.map_eq_some_iff.mp h
    have hname : name' = name := by simpa using List.find?_some hfind
    subst hname
    clear h
    induction envVars using List.reverseRecOn with
    | nil => cases hfind
    | append_singleton l reader ih =>
      rw [List.filterMap_append, List.reverse_append] at hfind
      cases hread : read reader with
      | none =>
        simp only [List.filterMap_cons, hread, List.filterMap_nil, List.reverse_nil,
          List.nil_append] at hfind
        obtain ⟨before, reader', after, rfl, hread', hafter⟩ := ih hfind
        refine ⟨before, reader', after ++ [reader], by simp, hread', fun r hr e he => ?_⟩
        rcases List.mem_append.mp hr with hr | hr
        · exact hafter r hr e he
        · rw [List.mem_singleton.mp hr, hread] at he
          cases he
      | some entry =>
        simp only [List.filterMap_cons, hread, List.filterMap_nil, List.reverse_singleton,
          List.singleton_append, List.find?_cons] at hfind
        by_cases hentry : entry.1 = name'
        · simp only [hentry, decide_true, Option.some.injEq] at hfind
          subst hfind
          exact ⟨l, reader, [], rfl, hread, fun r hr => absurd hr List.not_mem_nil⟩
        · simp only [hentry, decide_false] at hfind
          obtain ⟨before, reader', after, rfl, hread', hafter⟩ := ih hfind
          refine ⟨before, reader', after ++ [reader], by simp, hread', fun r hr e he => ?_⟩
          rcases List.mem_append.mp hr with hr | hr
          · exact hafter r hr e he
          · rw [List.mem_singleton.mp hr, hread, Option.some.injEq] at he
            exact hentry (congrArg Prod.fst he)
  · rintro ⟨before, reader, after, rfl, hread, hafter⟩
    have hnone : (after.filterMap read).reverse.find? (·.1 = name) = none := by
      rw [List.find?_eq_none]
      intro entry hentry heq
      obtain ⟨reader', hreader', hread'⟩ := List.mem_filterMap.mp (List.mem_reverse.mp hentry)
      exact hafter reader' hreader' entry.2
        (hread'.trans (congrArg some (Prod.ext (by simpa using heq) rfl)))
    rw [List.filterMap_append, List.filterMap_cons, hread, List.reverse_append,
      List.reverse_cons, List.find?_append, List.find?_append, hnone]
    simp

end Description

/-! ## Two runs -/

/-- Two values are the same, or both are kept secret and not empty. -/
def SameOr (secret : Prop) (value value' : String) : Prop :=
  value = value' ∨ secret ∧ value ≠ "" ∧ value' ≠ ""

/-- Two optional values are the same, or both are there and not empty. -/
def SameOutput (output output' : Option String) : Prop :=
  output = output' ∨
    ∃ value value', output = some value ∧ output' = some value' ∧ value ≠ "" ∧ value' ≠ ""

/-- Two entries are the same, or they are secret and differ only in values that are not empty. -/
def SameEntry (secret : Prop) (entry entry' : Entry) : Prop :=
  entry.source = entry'.source ∧ SameOr secret entry.value entry'.value

theorem SameOr.mono {secret secret' : Prop} {value value' : String}
    (h : SameOr secret value value') (himp : secret → secret') : SameOr secret' value value' :=
  h.imp_right fun h => ⟨himp h.1, h.2⟩

theorem SameEntry.refl (secret : Prop) (entry : Entry) : SameEntry secret entry entry :=
  ⟨rfl, .inl rfl⟩

theorem SameEntry.mono {secret secret' : Prop} {entry entry' : Entry}
    (h : SameEntry secret entry entry') (himp : secret → secret') :
    SameEntry secret' entry entry' :=
  ⟨h.1, h.2.mono himp⟩

theorem SameEntry.eq {entry entry' : Entry} (h : SameEntry False entry entry') :
    entry = entry' := by
  obtain ⟨hsource, hvalue | hvalue⟩ := h
  · cases entry
    cases entry'
    cases hsource
    cases hvalue
    rfl
  · exact hvalue.1.elim

theorem SameOr.entry {secret : Prop} {value value' : String} (h : SameOr secret value value')
    (display : Display) (source : String) :
    SameEntry secret (display.entry value source) (display.entry value' source) :=
  ⟨rfl, h⟩

/-- Dictionaries of the same names that differ only in the values under secret names. -/
def ConfigSources.Same (secret : OptionName → Prop) (sources sources' : ConfigSources) : Prop :=
  Dict.Rel (fun sect => Dict.Rel fun key => SameEntry (secret (sect, key))) sources sources'

namespace ConfigSources.Same

variable {secret secret' : OptionName → Prop} {sources sources' : ConfigSources}

theorem mono (h : Same secret sources sources') (himp : ∀ name, secret name → secret' name) :
    Same secret' sources sources' :=
  Dict.Rel.mono h fun _ _ _ hsection => hsection.mono fun _ _ _ hentry => hentry.mono (himp _)

theorem lookup? (h : Same secret sources sources') (name : OptionName) :
    sources.lookup? name = none ∧ sources'.lookup? name = none ∨
      ∃ entry entry', sources.lookup? name = some entry ∧ sources'.lookup? name = some entry' ∧
        SameEntry (secret name) entry entry' := by
  rw [ConfigSources.lookup?, ConfigSources.lookup?]
  rcases Dict.Rel.get? h name.1 with ⟨hnone, hnone'⟩ | ⟨options, options', hget, hget', hsection⟩
  · exact .inl ⟨by rw [hnone]; rfl, by rw [hnone']; rfl⟩
  · rw [hget, hget']
    exact hsection.get? name.2

theorem setDefault (h : Same secret sources sources') (sect : String) :
    Same secret (sources.setDefault sect {}) (sources'.setDefault sect {}) :=
  Dict.Rel.setDefault h Dict.Rel.empty

/-- The sections of related dictionaries are related. -/
theorem section? (h : Same secret sources sources') (sect : String) :
    Dict.Rel (fun key => SameEntry (secret (sect, key))) ((sources.get? sect).getD {})
      ((sources'.get? sect).getD {}) := by
  rcases Dict.Rel.get? h sect with ⟨hnone, hnone'⟩ | ⟨options, options', hget, hget', hsection⟩
  · rw [hnone, hnone']
    exact Dict.Rel.empty
  · rw [hget, hget']
    exact hsection

/-- What is secret may change at the name that is written. -/
theorem put (h : Same secret sources sources') {name : OptionName} {entry entry' : Entry}
    (himp : ∀ name', name' ≠ name → secret name' → secret' name')
    (hentry : SameEntry (secret' name) entry entry') :
    Same secret' (sources.put name entry) (sources'.put name entry') := by
  refine Dict.Rel.set h (fun sect hne _ _ hsection => ?_) ?_
  · refine hsection.mono fun key _ _ he => he.mono (himp (sect, key) fun heq => ?_)
    exact hne (congrArg Prod.fst heq)
  · refine (h.section? name.1).set (fun key hne _ _ he => he.mono (himp (name.1, key) ?_)) hentry
    exact fun heq => hne (congrArg Prod.snd heq)

theorem delete (h : Same secret sources sources') (name : OptionName) :
    Same secret (sources.delete name) (sources'.delete name) := by
  rw [ConfigSources.delete, ConfigSources.delete]
  rcases Dict.Rel.get? h name.1 with ⟨hnone, hnone'⟩ | ⟨options, options', hget, hget', hsection⟩
  · rw [hnone, hnone']
    exact h
  · rw [hget, hget']
    exact Dict.Rel.set h (fun _ _ _ _ he => he) (hsection.erase _)

/-- A name under which the entries are the same is not secret. -/
theorem reveal (h : Same secret sources sources') {name : OptionName}
    (heq : sources.lookup? name = sources'.lookup? name) :
    Same (fun name' => secret name' ∧ name' ≠ name) sources sources' := by
  refine Dict.Rel.imp_get? h fun sect options options' hget hget' hsection => ?_
  refine hsection.imp_get? fun key entry entry' hkey hkey' hentry => ?_
  by_cases hname : (sect, key) = name
  · subst hname
    have hsame : entry = entry' := by
      simpa [ConfigSources.lookup?, hget, hget', hkey, hkey'] using heq
    exact hsame ▸ SameEntry.refl _ entry
  · exact hentry.mono fun hs => ⟨hs, hname⟩

theorem eq (h : Same (fun _ => False) sources sources') : sources = sources' :=
  Dict.Rel.eq h fun _ _ _ hsection => hsection.eq fun _ _ _ hentry => hentry.eq

end ConfigSources.Same

/-- Two configurations with the same description and the same variables that differ only in values of
sensitive options which are not empty: in the environment, in the config file, in what commands print
and in what the secrets backend holds. The commands and paths are the same. -/
structure Alike (desc : Description) (envVars : List String) (c c' : AirflowConfigParser) :
    Prop where
  description : c.description = desc ∧ c'.description = desc
  interpolate : c.interpolate = c'.interpolate
  keys : c.environ.keys = envVars
  environ : Dict.Rel (fun envVar text text' =>
    text = text' ∧ c.expandEnvVar text = c'.expandEnvVar text' ∨
      desc.SecretVar envVars envVar ∧ c.expandEnvVar text ≠ "" ∧ c'.expandEnvVar text' ≠ "")
    c.environ c'.environ
  config : Dict.Rel (fun sect options options' => Dict.Rel (fun key text text' =>
    SameOr (desc.SecretName (sect, key)) (c.interpolate options text)
      (c'.interpolate options' text')) options options') c.config c'.config
  runCommand : ∀ command, SameOr True (c.runCommand command) (c'.runCommand command)
  secretBackend : ∀ path, SameOutput (c.secretBackend path) (c'.secretBackend path)
  texts : ∀ envVar ∈ envVars, ∀ spelled, envVarParts envVar = some spelled →
    desc.CommandText (desc.putName spelled) → c.getEnvVarOption spelled = c'.getEnvVarOption spelled

namespace AirflowConfigParser

variable {desc : Description} {envVars : List String} {c c' : AirflowConfigParser}

/-! ### Defaults and config file -/

/-- The same options are set in the environment and in the config file. -/
theorem skipsDefault_congr (h : Alike desc envVars c c') (name : OptionName) :
    c.skipsDefault name = c'.skipsDefault name := by
  have henv : ∀ old suffix, c.deprecatedVariableIsSet old suffix =
      c'.deprecatedVariableIsSet old suffix := by
    intro old suffix
    simp only [deprecatedVariableIsSet, h.description.1, h.description.2]
    rcases h.environ.get? (envVarPrefix ++ desc.casing.upper old.1 ++ "__" ++
      desc.casing.upper old.2 ++ suffix) with ⟨hn, hn'⟩ | ⟨v, v', hv, hv', -⟩
    · rw [hn, hn']
    · rw [hv, hv']
      rfl
  have hconfig : ∀ old, c.deprecatedValueIsSetInConfig old =
      c'.deprecatedValueIsSetInConfig old := by
    intro old
    simp only [deprecatedValueIsSetInConfig, h.description.1, h.description.2, List.any_cons,
      List.any_nil, Bool.or_false]
    congr 1
    rcases h.config.get? old.1 with ⟨hn, hn'⟩ | ⟨o, o', ho, ho', hsection⟩
    · rw [hn, hn']
    · rw [ho, ho', Option.bind_some, Option.bind_some]
      rcases hsection.get? old.2 with ⟨hn, hn'⟩ | ⟨v, v', hv, hv', -⟩
      · rw [hn, hn']
      · rw [hv, hv']
        rfl
  simp only [skipsDefault, deprecatedIsSet, henv, hconfig, h.description.1, h.description.2]

/-- The parsers of two configurations, related as their config files are. -/
def SameParser (desc : Description) (c c' : AirflowConfigParser) (parser parser' : Parser) : Prop :=
  Dict.Rel (fun sect options options' => Dict.Rel (fun key text text' =>
    SameOr (desc.SecretName (sect, key)) (c.interpolate options text)
      (c'.interpolate options' text')) options options') parser parser'

theorem replaceSection_same (h : Alike desc envVars c c') (display : Display)
    (hraw : display.raw = false) (source : String)
    {sources sources' : ConfigSources} (hs : sources.Same desc.SecretName sources')
    {sect sect' : String × Dict String String} (hname : sect.1 = sect'.1)
    (hsection : Dict.Rel (fun key text text' =>
      SameOr (desc.SecretName (sect.1, key)) (c.interpolate sect.2 text)
        (c'.interpolate sect'.2 text')) sect.2 sect'.2) :
    (c.replaceSection display source sources sect).Same desc.SecretName
      (c'.replaceSection display source sources' sect') := by
  rw [replaceSection, replaceSection, ← hname]
  refine List.rel_foldl (fun a b hab item item' hitem => ?_) (hs.setDefault sect.1) hsection
  obtain ⟨key, text⟩ := item
  obtain ⟨key', text'⟩ := item'
  obtain ⟨hkey, hvalue⟩ := hitem
  change key = key' at hkey
  subst hkey
  simp only [replaceItem, skipsDefault_congr h, sourceName, h.description.1, h.description.2, hraw,
    Bool.false_eq_true, if_false]
  split
  · exact hab
  · exact hab.put (fun _ _ hsecret => hsecret) (hvalue.entry display _)

theorem replaceConfig_same (h : Alike desc envVars c c') (display : Display)
    (hraw : display.raw = false) :
    (c.replaceConfig display).Same desc.SecretName (c'.replaceConfig display) := by
  have hrefl : ∀ parser, SameParser desc c c' parser parser := by
    intro parser
    refine Dict.Rel.refl (fun sect options => ?_) parser
    exact Dict.Rel.refl (fun key text => .inl (by rw [h.interpolate])) options
  have hparser : ∀ source parser parser', SameParser desc c c' parser parser' →
      ∀ sources sources' : ConfigSources, sources.Same desc.SecretName sources' →
        ConfigSources.Same desc.SecretName
          (parser.entries.foldl (c.replaceSection display source) sources)
          (parser'.entries.foldl (c'.replaceSection display source) sources') := by
    intro source parser parser' hparser sources sources' hs
    refine List.rel_foldl (fun a b hab sect sect' hsection => ?_) hs hparser
    exact replaceSection_same h display hraw source hab hsection.1 hsection.2
  simp only [replaceConfig, List.foldl_cons, List.foldl_nil, h.description.1, h.description.2]
  exact hparser _ _ _ h.config _ _ (hparser _ _ _ (hrefl _) _ _
    (hparser _ _ _ (hrefl _) _ _ Dict.Rel.empty))

/-! ### Environment -/

/-- The two ways in which the option of a variable is found: by the variable of its own name, or, for
a sensitive option, by a command or a path. -/
theorem getEnvVarOption_cases (c : AirflowConfigParser) (name : OptionName) :
    (∃ text, c.environ.get? (c.description.envVarName name) = some text ∧
        c.getEnvVarOption name = some (c.expandEnvVar text)) ∨
      c.environ.get? (c.description.envVarName name) = none ∧
        (c.getEnvVarOption name = none ∨ name ∈ c.description.sensitiveConfigValues) := by
  cases hget : c.environ.get? (c.description.envVarName name) with
  | some text => exact .inl ⟨text, rfl, by simp only [getEnvVarOption, hget]⟩
  | none =>
    refine .inr ⟨rfl, ?_⟩
    by_cases hmem : name ∈ c.description.sensitiveConfigValues
    · exact .inr hmem
    · exact .inl (by simp only [getEnvVarOption, hget, if_neg hmem])

/-- The variables of commands and paths hold the same. -/
theorem get?_command_congr (h : Alike desc envVars c c') {option : OptionName}
    (hoption : option ∈ desc.sensitiveConfigValues) {suffix : String}
    (hsuffix : suffix = "_CMD" ∨ suffix = "_SECRET") :
    c.environ.get? (desc.envVarName option ++ suffix) =
      c'.environ.get? (desc.envVarName option ++ suffix) := by
  rcases h.environ.get? (desc.envVarName option ++ suffix) with
    ⟨hn, hn'⟩ | ⟨text, text', ht, ht', htext | hsecret⟩
  · rw [hn, hn']
  · rw [ht, ht', htext.1]
  · refine absurd (.inl ⟨option, hoption, ?_⟩) hsecret.1.2
    rcases hsuffix with rfl | rfl
    · exact .inl rfl
    · exact .inr rfl

/-- What is found of a variable in the two configurations. -/
theorem getEnvVarOption_congr (h : Alike desc envVars c c') (name : OptionName) :
    c.getEnvVarOption name = c'.getEnvVarOption name ∨
      ∃ value value', c.getEnvVarOption name = some value ∧ c'.getEnvVarOption name = some value' ∧
        value ≠ "" ∧ value' ≠ "" ∧
        (name ∈ desc.sensitiveConfigValues ∨
          desc.envVarName name ∈ envVars ∧ desc.SecretVar envVars (desc.envVarName name)) := by
  unfold getEnvVarOption
  simp only [h.description.1, h.description.2]
  rcases h.environ.get? (desc.envVarName name) with
    ⟨hn, hn'⟩ | ⟨text, text', ht, ht', htext | ⟨hsecret, hne, hne'⟩⟩
  · rw [hn, hn']
    by_cases hmem : name ∈ desc.sensitiveConfigValues
    · simp only [if_pos hmem, get?_command_congr h hmem (.inl rfl),
        get?_command_congr h hmem (.inr rfl)]
      cases c'.environ.get? (desc.envVarName name ++ "_CMD") with
      | some command =>
        rcases h.runCommand command with heq | ⟨-, hne, hne'⟩
        · exact .inl (congrArg some heq)
        · exact .inr ⟨_, _, rfl, rfl, hne, hne', .inl hmem⟩
      | none =>
        cases c'.environ.get? (desc.envVarName name ++ "_SECRET") with
        | some path =>
          rcases h.secretBackend path with heq | ⟨value, value', hv, hv', hne, hne'⟩
          · exact .inl heq
          · exact .inr ⟨value, value', hv, hv', hne, hne', .inl hmem⟩
        | none => exact .inl rfl
    · simp only [if_neg hmem]
      exact .inl trivial
  · rw [ht, ht']
    exact .inl (congrArg some htext.2)
  · rw [ht, ht']
    refine .inr ⟨_, _, rfl, rfl, hne, hne', .inr ⟨?_, hsecret⟩⟩
    exact h.keys ▸ Dict.mem_keys.mpr ⟨text, ht⟩

/-- A variable is put under a name. -/
def Writes (c : AirflowConfigParser) (name : OptionName) (envVar : String) : Prop :=
  ∃ spelled, envVarParts envVar = some spelled ∧ c.description.putName spelled = name ∧
    c.getEnvVarOption spelled ≠ none

theorem writes_of_plainReader (h : Alike desc envVars c c') {envVar envVar' : String}
    {name : OptionName} (hread : desc.plainReader envVars envVar = some (name, envVar')) :
    c.Writes name envVar := by
  obtain ⟨spelled, hparts, hmem, hname, rfl⟩ := Description.plainReader_eq_some.mp hread
  refine ⟨spelled, hparts, by rw [h.description.1, hname], fun hnone => ?_⟩
  rw [← h.keys] at hmem
  obtain ⟨text, hget⟩ := Dict.mem_keys.mp hmem
  rw [getEnvVarOption, h.description.1, hget] at hnone
  cases hnone

/-- What is secret while the variables `rest` are still to be put: the sensitive options that are no
commands or paths, and what will be written over. -/
def Pending (desc : Description) (c : AirflowConfigParser) (rest : List String)
    (name : OptionName) : Prop :=
  (name ∈ desc.sensitiveConfigValues ∧ ¬desc.CommandText name) ∨
    ∃ envVar ∈ rest, c.Writes name envVar

/-- The last variable that is put under a name puts a value there that is the same in both
configurations, or secret. -/
theorem pending_of_last (h : Alike desc envVars c c') (hhides : desc.Hides envVars)
    {before after : List String} {envVar : String} (hsplit : envVars = before ++ envVar :: after)
    {spelled : OptionName} (hparts : envVarParts envVar = some spelled)
    (hne : c.getEnvVarOption spelled ≠ c'.getEnvVarOption spelled) :
    Pending desc c after (desc.putName spelled) := by
  by_cases hlater : ∃ envVar' ∈ after, c.Writes (desc.putName spelled) envVar'
  · exact .inr hlater
  · have hmem : envVar ∈ envVars := hsplit ▸ List.mem_append_right _ List.mem_cons_self
    have htext : ¬desc.CommandText (desc.putName spelled) := fun htext =>
      hne (h.texts envVar hmem spelled hparts htext)
    refine .inl ⟨?_, htext⟩
    rcases getEnvVarOption_congr h spelled with heq | ⟨_, _, -, -, -, -, hsens | ⟨hread, hsecret⟩⟩
    · exact absurd heq hne
    · rw [desc.putName_of_mem_sensitive hsens]
      exact hsens
    · refine hhides.environ _ _ (Description.shownAt_eq_some.mpr ⟨before, envVar, after, hsplit,
        Description.plainReader_eq_some.mpr ⟨spelled, hparts, hread, rfl, rfl⟩, ?_⟩) hsecret
      intro reader hreader envVar' hplain
      exact hlater ⟨reader, hreader, writes_of_plainReader h hplain⟩

/-- What is shown of a value is the value, or it does not depend on it. -/
theorem shownEnv_eq (c : AirflowConfigParser) (display : Display)
    (hdisplay : display.sensitive = false) (hraw : display.raw = false) (envVar : String)
    (spelled : OptionName) : ∃ isHidden : Bool, ∀ value,
      c.shownEnv display envVar spelled value = if isHidden then hidden else value := by
  simp only [shownEnv, hdisplay, hraw, Bool.false_eq_true, if_false]
  split
  · split
    · exact ⟨true, fun _ => rfl⟩
    · exact ⟨false, fun _ => rfl⟩
  · exact ⟨false, fun _ => rfl⟩

theorem includeEnv_same (h : Alike desc envVars c c') (hhides : desc.Hides envVars)
    (display : Display) (hdisplay : display.sensitive = false) (hraw : display.raw = false)
    {before after : List String} {envVar : String} (hsplit : envVars = before ++ envVar :: after)
    {sources sources' : ConfigSources}
    (hs : sources.Same (Pending desc c (envVar :: after)) sources') :
    (c.includeEnv display sources envVar).Same (Pending desc c after)
      (c'.includeEnv display sources' envVar) := by
  -- a variable that is not put anywhere
  have hskip : (∀ name, ¬c.Writes name envVar) →
      sources.Same (Pending desc c after) sources' := by
    intro hwrites
    refine hs.mono fun name hname => hname.imp_right ?_
    rintro ⟨envVar', hmem, hw⟩
    rcases List.mem_cons.mp hmem with rfl | hmem
    · exact absurd hw (hwrites name)
    · exact ⟨envVar', hmem, hw⟩
  unfold includeEnv
  cases hparts : envVarParts envVar with
  | none =>
    refine hskip fun name hw => ?_
    obtain ⟨spelled, hspelled, -⟩ := hw
    rw [hparts] at hspelled
    cases hspelled
  | some spelled =>
    have hput : ∀ name', name' ≠ desc.putName spelled → Pending desc c (envVar :: after) name' →
        Pending desc c after name' := by
      intro name' hne hname'
      refine hname'.imp_right ?_
      rintro ⟨envVar', hmem, hw⟩
      rcases List.mem_cons.mp hmem with rfl | hmem
      · obtain ⟨spelled', hspelled', hname, -⟩ := hw
        rw [hparts, Option.some.injEq] at hspelled'
        subst hspelled'
        rw [h.description.1] at hname
        exact absurd hname.symm hne
      · exact ⟨envVar', hmem, hw⟩
    rw [h.description.1, h.description.2]
    have hshown : ∀ value, c'.shownEnv display envVar spelled value =
        c.shownEnv display envVar spelled value := by
      intro value
      simp only [shownEnv, endsWithCmdOrSecret, h.description.1, h.description.2]
    simp only [hshown]
    rcases getEnvVarOption_congr h spelled with heq | ⟨value, value', hv, hv', hne, hne', -⟩
    · rw [← heq]
      cases hopt : c.getEnvVarOption spelled with
      | none =>
        refine hskip fun name hw => ?_
        obtain ⟨spelled', hspelled', -, hnone⟩ := hw
        rw [hparts, Option.some.injEq] at hspelled'
        exact hnone (hspelled' ▸ hopt)
      | some value => exact hs.put hput (SameEntry.refl _ _)
    · rw [hv, hv']
      refine hs.put hput (SameOr.entry ?_ display _)
      by_cases heq : value = value'
      · exact .inl (by rw [heq])
      · have hpending : Pending desc c after (desc.putName spelled) := by
          refine pending_of_last h hhides hsplit hparts fun hsame => heq ?_
          rwa [hv, hv', Option.some.injEq] at hsame
        obtain ⟨isHidden, hcases⟩ := shownEnv_eq c display hdisplay hraw envVar spelled
        rw [hcases, hcases]
        cases isHidden with
        | true => exact .inl rfl
        | false => exact .inr ⟨hpending, hne, hne'⟩

/-- The variables of the environment leave only the sensitive options secret. -/
theorem includeEnvs_same (h : Alike desc envVars c c') (hhides : desc.Hides envVars)
    (display : Display) (hdisplay : display.sensitive = false) (hraw : display.raw = false)
    {sources sources' : ConfigSources} (hs : sources.Same desc.SecretName sources') :
    (c.includeEnvs display sources).Same
      (fun name => name ∈ desc.sensitiveConfigValues ∧ ¬desc.CommandText name)
      (c'.includeEnvs display sources') := by
  have hloop : ∀ rest before, envVars = before ++ rest → ∀ sources sources' : ConfigSources,
      sources.Same (Pending desc c rest) sources' →
        ConfigSources.Same (Pending desc c []) (rest.foldl (c.includeEnv display) sources)
          (rest.foldl (c'.includeEnv display) sources') := by
    intro rest
    induction rest with
    | nil => exact fun _ _ _ _ hs => hs
    | cons envVar rest ih =>
      intro before hsplit sources sources' hs
      refine ih (before ++ [envVar]) (by simp [hsplit]) _ _ ?_
      exact includeEnv_same h hhides display hdisplay hraw hsplit hs
  have hinit : sources.Same (Pending desc c envVars) sources' := by
    refine hs.mono fun name hname => ?_
    cases hshown : desc.shownAt envVars name with
    | none => exact .inl ⟨hhides.config name hname hshown, hname.2⟩
    | some envVar =>
      obtain ⟨before, reader, after, hsplit, hread, -⟩ := Description.shownAt_eq_some.mp hshown
      exact .inr ⟨reader, hsplit ▸ List.mem_append_right _ List.mem_cons_self,
        writes_of_plainReader h hread⟩
  have hkeys' : c'.environ.keys = envVars := h.environ.keys.symm.trans h.keys
  rw [includeEnvs, includeEnvs, h.keys, hkeys']
  refine (hloop envVars [] rfl _ _ hinit).mono fun name hname => ?_
  rcases hname with hname | ⟨_, hmem, -⟩
  · exact hname
  · exact absurd hmem List.not_mem_nil

/-! ### Commands and secrets -/

/-- A value that is computed from a text is hidden in both configurations. -/
theorem includeComputed_same {sensitive : OptionName → Prop} (display : Display)
    (hdisplay : display.sensitive = false) {suffix source : String}
    {getter getter' : String → Option String}
    (hgetter : ∀ text, SameOutput (getter text) (getter' text)) {name : OptionName}
    (htext : ¬sensitive (name.1, name.2 ++ suffix)) {sources sources' : ConfigSources}
    (hs : sources.Same sensitive sources') :
    (includeComputed display suffix source getter sources name).Same sensitive
      (includeComputed display suffix source getter' sources' name) := by
  unfold includeComputed
  rcases hs.lookup? (name.1, name.2 ++ suffix) with
    ⟨hn, hn'⟩ | ⟨text, text', ht, ht', hsource, hvalue⟩
  · rw [hn, hn']
    exact hs
  · have hsame : text.value = text'.value := hvalue.resolve_right fun hv => htext hv.1
    rw [ht, ht']
    simp only [← hsame]
    have hput : ∀ value value',
        ((sources.put name (display.entry (shownValue display value) source)).delete
          (name.1, name.2 ++ suffix)).Same sensitive
        ((sources'.put name (display.entry (shownValue display value') source)).delete
          (name.1, name.2 ++ suffix)) := by
      intro value value'
      refine ConfigSources.Same.delete (hs.put (fun _ _ hname => hname) ?_) _
      simp only [shownValue, hdisplay, Bool.not_false, if_true]
      exact SameEntry.refl _ _
    rcases hgetter text.value with heq | ⟨value, value', hv, hv', hne, hne'⟩
    · rw [← heq]
      cases getter text.value with
      | none => exact hs
      | some value =>
        dsimp only
        split
        · exact hs
        · exact hput value value
    · simp only [hv, hv', if_neg hne, if_neg hne']
      exact hput value value'

theorem includeCommands_same (h : Alike desc envVars c c') (display : Display)
    (hdisplay : display.sensitive = false) {sources sources' : ConfigSources}
    (hs : sources.Same
      (fun name => name ∈ desc.sensitiveConfigValues ∧ ¬desc.CommandText name) sources') :
    (c.includeCommands display sources).Same
      (fun name => name ∈ desc.sensitiveConfigValues ∧ ¬desc.CommandText name)
      (c'.includeCommands display sources') := by
  rw [includeCommands, includeCommands, h.description.1, h.description.2]
  refine List.foldl_rel hs fun name hname a b hab => ?_
  refine includeComputed_same display hdisplay (fun text => ?_)
    (fun hsecret => hsecret.2 ⟨name, hname, .inl rfl⟩) hab
  rcases h.runCommand text with heq | ⟨-, hne, hne'⟩
  · exact .inl (congrArg some heq)
  · exact .inr ⟨_, _, rfl, rfl, hne, hne'⟩

theorem includeSecrets_same (h : Alike desc envVars c c') (display : Display)
    (hdisplay : display.sensitive = false) {sources sources' : ConfigSources}
    (hs : sources.Same
      (fun name => name ∈ desc.sensitiveConfigValues ∧ ¬desc.CommandText name) sources') :
    (c.includeSecrets display sources).Same
      (fun name => name ∈ desc.sensitiveConfigValues ∧ ¬desc.CommandText name)
      (c'.includeSecrets display sources') := by
  rw [includeSecrets, includeSecrets, h.description.1, h.description.2]
  refine List.foldl_rel hs fun name hname a b hab => ?_
  exact includeComputed_same display hdisplay h.secretBackend
    (fun hsecret => hsecret.2 ⟨name, hname, .inr rfl⟩) hab

/-! ### Hiding -/

/-- Hiding an option leaves nothing secret under its name. -/
theorem hide_same {secret : OptionName → Prop} {sources sources' : ConfigSources}
    (hs : sources.Same secret sources') (name : OptionName) :
    (hide sources name).Same (fun name' => secret name' ∧ name' ≠ name) (hide sources' name) := by
  unfold hide
  rcases hs.lookup? name with ⟨hn, hn'⟩ | ⟨entry, entry', he, he', hsource, hvalue⟩
  · rw [hn, hn']
    exact hs.reveal (hn.trans hn'.symm)
  · rw [he, he']
    simp only [← hsource]
    have hput : (sources.put name ⟨hidden, entry.source⟩).Same
        (fun name' => secret name' ∧ name' ≠ name) (sources'.put name ⟨hidden, entry.source⟩) :=
      hs.put (fun _ hne hname => ⟨hname, hne⟩) (SameEntry.refl _ _)
    rcases hvalue with heq | ⟨-, hne, hne'⟩
    · simp only [← heq]
      split
      · refine hs.reveal ?_
        rw [he, he']
        cases entry
        cases entry'
        cases hsource
        cases heq
        rfl
      · exact hput
    · rw [if_neg fun h => hne h.2, if_neg fun h => hne' h.2]
      exact hput

theorem foldl_hide_eq (names : List OptionName) {secret : OptionName → Prop}
    {sources sources' : ConfigSources} (hs : sources.Same secret sources')
    (hnames : ∀ name, secret name → name ∈ names) :
    names.foldl hide sources = names.foldl hide sources' := by
  induction names generalizing secret sources sources' with
  | nil =>
    refine ConfigSources.Same.eq (hs.mono fun name hname => ?_)
    exact absurd (hnames name hname) List.not_mem_nil
  | cons name names ih =>
    refine ih (hide_same hs name) fun name' hname' => ?_
    exact (List.mem_cons.mp (hnames name' hname'.1)).resolve_left hname'.2

/-- Alike configurations look the same. -/
theorem asDict_eq_of_hides (h : Alike desc envVars c c') (hhides : desc.Hides envVars)
    (displaySource : Bool) :
    c.asDict { source := displaySource } = c'.asDict { source := displaySource } := by
  simp only [asDict, Bool.false_eq_true, if_false]
  rw [h.description.1, h.description.2]
  have henv := includeEnvs_same h hhides { source := displaySource } rfl rfl
    (replaceConfig_same h { source := displaySource } rfl)
  exact foldl_hide_eq _ (includeSecrets_same h _ rfl (includeCommands_same h _ rfl henv))
    fun name hname => hname.1

/-! ### What is revealed -/

/-- A configuration whose commands print nothing and whose secrets backend is empty. -/
def probe (desc : Description) (environ : Dict String String) (config : Parser) :
    AirflowConfigParser where
  description := desc
  environ := environ
  config := config
  runCommand _ := ""
  secretBackend _ := none
  expandEnvVar text := text
  interpolate _ text := text

theorem includeComputed_unchanged (display : Display) (suffix source : String)
    {getter : String → Option String} (hgetter : ∀ text, (getter text).getD "" = "")
    (sources : ConfigSources) (name : OptionName) :
    includeComputed display suffix source getter sources name = sources := by
  unfold includeComputed
  cases sources.lookup? (name.1, name.2 ++ suffix) with
  | none => rfl
  | some text =>
    have hvalue := hgetter text.value
    cases hget : getter text.value with
    | none => simp only [hget]
    | some value =>
      rw [hget] at hvalue
      simp only [hget]
      exact if_pos hvalue

theorem lookup?_foldl_hide {name : OptionName} {names : List OptionName} (hname : name ∉ names)
    (sources : ConfigSources) : (names.foldl hide sources).lookup? name = sources.lookup? name := by
  induction names generalizing sources with
  | nil => rfl
  | cons name' names ih =>
    rw [List.mem_cons, not_or] at hname
    rw [List.foldl_cons, ih hname.2, hide]
    cases sources.lookup? name' with
    | none => rfl
    | some entry =>
      dsimp only
      split
      · rfl
      · rw [ConfigSources.lookup?_put, if_neg hname.1]

/-- Of an option that is not sensitive, a probe shows what its environment and its config file
hold. -/
theorem probe_asDict {name : OptionName} (hname : name ∉ desc.sensitiveConfigValues)
    (environ : Dict String String) (config : Parser) :
    ((probe desc environ config).asDict {}).lookup? name =
      ((probe desc environ config).includeEnvs {}
        ((probe desc environ config).replaceConfig {})).lookup? name := by
  have hdesc : (probe desc environ config).description = desc := rfl
  simp only [asDict, Bool.false_eq_true, if_false, hdesc]
  rw [lookup?_foldl_hide hname, includeSecrets, includeCommands,
    List.foldl_fixed' fun name => includeComputed_unchanged {} "_cmd" "cmd" (fun _ => rfl) _ name,
    List.foldl_fixed' fun name => includeComputed_unchanged {} "_secret" "secret" (fun _ => rfl) _ name]

theorem lookup?_includeEnv {c : AirflowConfigParser} {name : OptionName} {envVar : String}
    (h : ¬c.Writes name envVar) (display : Display) (sources : ConfigSources) :
    (c.includeEnv display sources envVar).lookup? name = sources.lookup? name := by
  unfold includeEnv
  cases hparts : envVarParts envVar with
  | none => rfl
  | some spelled =>
    cases hopt : c.getEnvVarOption spelled with
    | none => simp only [hopt]
    | some value =>
      have hne : name ≠ c.description.putName spelled := fun heq =>
        h ⟨spelled, hparts, heq.symm, by rw [hopt]; simp⟩
      simp only [hopt]
      rw [ConfigSources.lookup?_put, if_neg hne]

theorem lookup?_foldl_includeEnv {c : AirflowConfigParser} {name : OptionName}
    {envVars : List String} (h : ∀ envVar ∈ envVars, ¬c.Writes name envVar) (display : Display)
    (sources : ConfigSources) :
    (envVars.foldl (c.includeEnv display) sources).lookup? name = sources.lookup? name := by
  induction envVars generalizing sources with
  | nil => rfl
  | cons envVar envVars ih =>
    rw [List.forall_mem_cons] at h
    rw [List.foldl_cons, ih h.2, lookup?_includeEnv h.1]

/-- Only plain readers are put under a name that is not sensitive. -/
theorem plainReader_of_writes {c : AirflowConfigParser} {name : OptionName} {envVar : String}
    (hname : name ∉ c.description.sensitiveConfigValues) (h : c.Writes name envVar) :
    ∃ envVar', c.description.plainReader c.environ.keys envVar = some (name, envVar') := by
  obtain ⟨spelled, hparts, rfl, hopt⟩ := h
  rcases getEnvVarOption_cases c spelled with ⟨text, hget, -⟩ | ⟨-, hnone | hsens⟩
  · exact ⟨_, Description.plainReader_eq_some.mpr
      ⟨spelled, hparts, Dict.mem_keys.mpr ⟨text, hget⟩, rfl, rfl⟩⟩
  · exact absurd hnone hopt
  · rw [c.description.putName_of_mem_sensitive hsens] at hname
    exact absurd hsens hname

/-- Two probes with the same environment and config files with different values of a sensitive
option. -/
theorem alike_config {name : OptionName} (hname : desc.SecretName name)
    (environ : Dict String String) (value value' : String) (hvalue : value ≠ "")
    (hvalue' : value' ≠ "") :
    Alike desc environ.keys
      (probe desc environ (Dict.set {} name.1 (Dict.set {} name.2 value)))
      (probe desc environ (Dict.set {} name.1 (Dict.set {} name.2 value'))) where
  description := ⟨rfl, rfl⟩
  interpolate := rfl
  keys := rfl
  environ := Dict.Rel.refl (fun _ _ => .inl ⟨rfl, rfl⟩) environ
  config :=
    Dict.Rel.set Dict.Rel.empty (fun _ _ _ _ h => h)
      (Dict.Rel.set Dict.Rel.empty (fun _ _ _ _ h => h) (.inr ⟨hname, hvalue, hvalue'⟩))
  runCommand _ := .inl rfl
  secretBackend _ := .inl rfl
  texts _ _ _ _ _ := rfl

/-- The environment in which one variable has the value `value`, and every other one `"c"`. -/
def probeEnviron (environ : Dict String String) (envVar value : String) : Dict String String :=
  environ.mapValues fun envVar' _ => if envVar' = envVar then value else "c"

theorem get?_probeEnviron (environ : Dict String String) (envVar value envVar' : String) :
    (probeEnviron environ envVar value).get? envVar' =
      (environ.get? envVar').map fun _ => if envVar' = envVar then value else "c" :=
  Dict.get?_mapValues _

/-- The option that is found in the environment depends on three variables. -/
theorem getEnvVarOption_eq {c c' : AirflowConfigParser} {name : OptionName}
    (hdesc : c'.description = c.description) (hrun : c'.runCommand = c.runCommand)
    (hbackend : c'.secretBackend = c.secretBackend) (hexpand : c'.expandEnvVar = c.expandEnvVar)
    (hown : c.environ.get? (c.description.envVarName name) =
      c'.environ.get? (c.description.envVarName name))
    (htexts : name ∈ c.description.sensitiveConfigValues → ∀ suffix,
      suffix = "_CMD" ∨ suffix = "_SECRET" →
        c.environ.get? (c.description.envVarName name ++ suffix) =
          c'.environ.get? (c.description.envVarName name ++ suffix)) :
    c.getEnvVarOption name = c'.getEnvVarOption name := by
  unfold getEnvVarOption
  simp only [hdesc, hrun, hbackend, hexpand, hown]
  by_cases hsens : name ∈ c.description.sensitiveConfigValues
  · simp only [if_pos hsens, htexts hsens _ (.inl rfl), htexts hsens _ (.inr rfl)]
  · simp only [if_neg hsens]

/-- Two probes whose environments have different values of a sensitive option. -/
theorem alike_environ (environ : Dict String String) {envVar : String}
    (henv : desc.SecretVar environ.keys envVar) (value value' : String) (hvalue : value ≠ "")
    (hvalue' : value' ≠ "") :
    Alike desc environ.keys (probe desc (probeEnviron environ envVar value) {})
      (probe desc (probeEnviron environ envVar value') {}) where
  description := ⟨rfl, rfl⟩
  interpolate := rfl
  keys := Dict.keys_mapValues _
  environ := by
    refine List.forall₂_map_left_iff.mpr (List.forall₂_map_right_iff.mpr
      (List.forall₂_same.mpr fun entry _ => ⟨rfl, ?_⟩))
    by_cases heq : entry.1 = envVar
    · simp only [probe, if_pos heq]
      exact .inr ⟨heq ▸ henv, hvalue, hvalue'⟩
    · refine .inl ⟨?_, ?_⟩ <;> simp only [probe, if_neg heq]
  config := Dict.Rel.empty
  runCommand _ := .inl rfl
  secretBackend _ := .inl rfl
  texts reader hreader spelled hparts htext := by
    have hsame : ∀ envVar', envVar' ≠ envVar → (probeEnviron environ envVar value).get? envVar' =
        (probeEnviron environ envVar value').get? envVar' := by
      intro envVar' hne
      simp only [get?_probeEnviron, if_neg hne]
    have hne : desc.envVarName spelled ∈ environ.keys → desc.envVarName spelled ≠ envVar := by
      rintro hmem rfl
      exact henv.2 (.inr ⟨reader, hreader, _,
        Description.plainReader_eq_some.mpr ⟨spelled, hparts, hmem, rfl, rfl⟩, htext⟩)
    have hown : (probeEnviron environ envVar value).get? (desc.envVarName spelled) =
        (probeEnviron environ envVar value').get? (desc.envVarName spelled) := by
      by_cases hmem : desc.envVarName spelled ∈ environ.keys
      · exact hsame _ (hne hmem)
      · rw [get?_probeEnviron, get?_probeEnviron, Dict.get?_eq_none.mpr hmem]
        rfl
    refine getEnvVarOption_eq rfl rfl rfl rfl hown fun hsens suffix hsuffix => hsame _ ?_
    intro heq
    rcases hsuffix with rfl | rfl
    · exact henv.2 (.inl ⟨spelled, hsens, .inl heq.symm⟩)
    · exact henv.2 (.inl ⟨spelled, hsens, .inr heq.symm⟩)

/-- A probe shows the value of the last variable that is put under a name which is not sensitive. -/
theorem probe_environ_lookup? {environ : Dict String String} {name : OptionName} {envVar : String}
    (hname : name ∉ desc.sensitiveConfigValues)
    (hshown : desc.shownAt environ.keys name = some envVar) (value : String) :
    ((probe desc (probeEnviron environ envVar value) {}).asDict {}).lookup? name =
      some ⟨value, none⟩ := by
  obtain ⟨before, reader, after, hsplit, hread, hafter⟩ := Description.shownAt_eq_some.mp hshown
  obtain ⟨spelled, hparts, hmem, hput, hvar⟩ := Description.plainReader_eq_some.mp hread
  have hkeys : (probeEnviron environ envVar value).keys = environ.keys := Dict.keys_mapValues _
  have hopt : (probe desc (probeEnviron environ envVar value) {}).getEnvVarOption spelled =
      some value := by
    obtain ⟨text, hget⟩ := Dict.mem_keys.mp hmem
    simp only [getEnvVarOption, probe, hvar, get?_probeEnviron, hget, Option.map_some, if_true]
  have hsens : spelled ∉ desc.sensitiveConfigValues := fun hsens =>
    hname (hput ▸ (desc.putName_of_mem_sensitive hsens).symm ▸ hsens)
  have hvalue : (probe desc (probeEnviron environ envVar value) {}).shownEnv {} reader spelled value =
      value := by
    have hdesc : (probe desc (probeEnviron environ envVar value) {}).description = desc := rfl
    simp only [shownEnv, hdesc, List.contains_eq_mem, hsens, decide_false, Bool.and_false,
      Bool.false_eq_true, if_false, ite_self]
  rw [probe_asDict hname, includeEnvs]
  change ConfigSources.lookup? (List.foldl _ _ (probeEnviron environ envVar value).keys) name = _
  rw [hkeys, hsplit, List.foldl_append, List.foldl_cons, lookup?_foldl_includeEnv]
  · simp only [includeEnv, hparts, hopt, hvalue]
    rw [ConfigSources.lookup?_put]
    exact if_pos hput.symm
  · intro reader' hreader' hw
    obtain ⟨envVar', hplain⟩ := plainReader_of_writes hname hw
    exact hafter reader' hreader' envVar' (hkeys ▸ hplain)

/-- A probe shows the value of the config file under a name which is not sensitive and under which no
variable is put. -/
theorem probe_config_lookup? {environ : Dict String String} {name : OptionName}
    (hname : name ∉ desc.sensitiveConfigValues) (hshown : desc.shownAt environ.keys name = none)
    (value : String) :
    ((probe desc environ (Dict.set {} name.1 (Dict.set {} name.2 value))).asDict {}).lookup? name =
      some ⟨value, none⟩ := by
  rw [probe_asDict hname, includeEnvs, lookup?_foldl_includeEnv]
  · simp only [replaceConfig, List.foldl_cons, List.foldl_nil]
    change ConfigSources.lookup? (ConfigSources.put _ (name.1, name.2) ⟨value, none⟩) name = _
    rw [ConfigSources.lookup?_put]
    exact if_pos rfl
  · intro reader hreader hw
    obtain ⟨envVar', hplain⟩ := plainReader_of_writes hname hw
    rw [Description.shownAt, Option.map_eq_none_iff, List.find?_eq_none] at hshown
    exact hshown (name, envVar')
      (List.mem_reverse.mpr (List.mem_filterMap.mpr ⟨reader, hreader, hplain⟩)) (by simp)

/-- **What `as_dict` reveals of sensitive options.** Configurations that are alike look the same,
with and without their sources, exactly when what is known under the names of sensitive options is
hidden. -/
theorem asDict_hides_iff (desc : Description) (environ : Dict String String) :
    (∀ c c', Alike desc environ.keys c c' → ∀ displaySource,
        c.asDict { source := displaySource } = c'.asDict { source := displaySource }) ↔
      desc.Hides environ.keys := by
  refine ⟨fun h => ⟨fun name hname hshown => ?_, fun name envVar hshown henv => ?_⟩,
    fun hhides c c' halike => asDict_eq_of_hides halike hhides⟩
  · by_contra hsens
    have heq := h _ _ (alike_config hname environ "a" "b" (by decide) (by decide)) false
    have hentry := congrArg (ConfigSources.lookup? · name) heq
    simp only [probe_config_lookup? hsens hshown] at hentry
    exact absurd hentry (by decide)
  · by_contra hsens
    have heq := h _ _ (alike_environ environ henv "a" "b" (by decide) (by decide)) false
    have hentry := congrArg (ConfigSources.lookup? · name) heq
    simp only [probe_environ_lookup? hsens hshown] at hentry
    exact absurd hentry (by decide)

/-- A sensitive option in a section with a dot. -/
def dottedDescription : Description where
  casing := .ascii
  options := Dict.set {} "a.b" (Dict.set {} "k" { sensitive := true })
  lower_deprecatedOptions := fun _ h => absurd h List.not_mem_nil
  lower_deprecatedSections := fun _ h => absurd h List.not_mem_nil

/-- The variable of the option is put under a section with an underscore, which is not sensitive. -/
theorem asDict_dotted :
    ¬∀ (desc : Description) (environ : Dict String String) (c c' : AirflowConfigParser),
      Alike desc environ.keys c c' → ∀ displaySource,
        c.asDict { source := displaySource } = c'.asDict { source := displaySource } := by
  intro h
  have hsensitive : dottedDescription.sensitiveConfigValues = [("a.b", "k")] := by decide
  have hsecret : dottedDescription.SecretVar ["AIRFLOW__A_B__K"] "AIRFLOW__A_B__K" := by
    refine ⟨⟨("a.b", "k"), ⟨by decide, ?_⟩, by decide⟩, ?_⟩
    · rintro ⟨option, hoption, hname⟩
      rw [hsensitive, List.mem_singleton] at hoption
      subst hoption
      revert hname
      decide
    · rintro (⟨option, hoption, hname⟩ | ⟨reader, hreader, name, hread, option, hoption, hname⟩)
      · rw [hsensitive, List.mem_singleton] at hoption
        subst hoption
        revert hname
        decide
      · rw [hsensitive, List.mem_singleton] at hoption
        rw [List.mem_singleton] at hreader
        subst hoption hreader
        have hput : dottedDescription.plainReader ["AIRFLOW__A_B__K"] "AIRFLOW__A_B__K" =
          some (("a_b", "k"), "AIRFLOW__A_B__K") := by decide
        rw [hput, Option.some.injEq, Prod.mk.injEq] at hread
        rw [← hread.1] at hname
        revert hname
        decide
  have halike := alike_environ (Dict.set {} "AIRFLOW__A_B__K" "") hsecret "a" "b"
    (by decide) (by decide)
  have hentry := congrArg (ConfigSources.lookup? · ("a_b", "k")) (h _ _ _ _ halike false)
  revert hentry
  decide

end AirflowConfigParser

end Airflow.Configuration
