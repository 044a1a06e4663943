import Airflow.Configuration.Copy

/-!
# Where values come from

A value comes from a text that is written somewhere (`Origin`) and from what is computed from it. `get`
takes the first source in the order of precedence that has the option (`firstSource`); in `as_dict` the
last source that is written over the others remains (`lastSource`). Both depend on where texts are
written, not on the texts. The options of a configuration are `Undisputed` if the two are the same.
-/

namespace Airflow.Configuration

/-! ## Sources -/

/-- Where a text is written. -/
inductive Origin where
  | environ (envVar : String)
  | file (name : OptionName)
  | default (name : OptionName)
  | pre27 (name : OptionName)
  deriving DecidableEq, Repr

/-- What is computed from a text: the output of a command, or the secret at a path. -/
inductive Computation where
  | cmd
  | secret
  deriving DecidableEq, Repr

/-- A text and what is computed from it, in that order. Nothing is expanded in a text that is
computed with as it is `spelled` in the environment. -/
structure Source where
  origin : Origin
  computations : List Computation := []
  spelled : Bool := false
  deriving DecidableEq, Repr

/-- The value is computed from the value of the source. -/
def Source.compute (s : Source) (computation : Computation) : Source :=
  { s with computations := s.computations ++ [computation] }

/-- The same is computed from the same text. -/
def Source.Same (s s' : Source) : Prop :=
  s.origin = s'.origin ∧ s.computations = s'.computations

namespace Parser

/-- The text of an option. -/
def text? (parser : Parser) (name : OptionName) : Option String :=
  (parser.get? name.1).bind (·.get? name.2)

end Parser

/-- Texts that are neither expanded nor interpolated. -/
def Plain (text : String) : Prop := ∀ c ∈ text.toList, c ≠ '$' ∧ c ≠ '~' ∧ c ≠ '%'

namespace Description

/-- The name in lower case, as `get` looks for it. -/
def lowerName (self : Description) (name : OptionName) : OptionName :=
  (self.casing.lower name.1, self.casing.lower name.2)

/-- The description with other defaults. -/
def withDefaults (self : Description) (defaultValues pre27DefaultValues : Parser) : Description :=
  { self with defaultValues, pre27DefaultValues }

/-- `get` does not look for the option under another name first. -/
def Current (self : Description) (name : OptionName) : Prop :=
  (self.resolve (self.lowerName name)).1 = self.lowerName name

end Description

namespace AirflowConfigParser

variable (self : AirflowConfigParser)

/-! ## The order of precedence -/

/-- The option has a text in a parser. -/
def textSource (parser : Parser) (origin : Origin) (name : OptionName) : Option Source :=
  (parser.text? name).map fun _ => { origin }

/-- The source of `_get_env_var_option`. -/
def envSource (name : OptionName) : Option Source :=
  let envVar := self.description.envVarName name
  if envVar ∈ self.environ.keys then some { origin := .environ envVar }
  else if self.description.sensitiveConfigValues.contains name then
    if envVar ++ "_CMD" ∈ self.environ.keys then
      some { origin := .environ (envVar ++ "_CMD"), computations := [.cmd], spelled := true }
    else if envVar ++ "_SECRET" ∈ self.environ.keys then
      some { origin := .environ (envVar ++ "_SECRET"), computations := [.secret], spelled := true }
    else none
  else none

def fileSource (name : OptionName) : Option Source := textSource self.config (.file name) name

def defaultSource (name : OptionName) : Option Source :=
  textSource self.description.defaultValues (.default name) name

def pre27Source (name : OptionName) : Option Source :=
  textSource self.description.pre27DefaultValues (.pre27 name) name

/-- A sensitive option is computed from the text of the option with `suffix` in the config file. -/
def computedSource (suffix : String) (computation : Computation) (name : OptionName) :
    Option Source :=
  if self.description.sensitiveConfigValues.contains name then
    (self.fileSource (name.1, name.2 ++ suffix)).map (·.compute computation)
  else none

/-- The source of `get`. -/
def firstSource (name : OptionName) : Option Source :=
  let asked := self.description.lowerName name
  let name := (self.description.resolve asked).1
  let deprecated := self.description.deprecatedName asked
  (orDeprecated self.envSource name deprecated).or <|
  (orDeprecated self.fileSource name deprecated).or <|
  (orDeprecated (self.computedSource "_cmd" .cmd) name deprecated).or <|
  (orDeprecated (self.computedSource "_secret" .secret) name deprecated).or <|
  (self.defaultSource name).or (self.pre27Source name)

/-! ## One source over the other -/

/-- The source under a name after `_replace_config_with_display_sources`. -/
def parserSource (name : OptionName) : Option Source :=
  (self.fileSource name).or <|
  (if self.skipsDefault name then none else self.defaultSource name).or (self.pre27Source name)

/-- The source that is put under a name for a variable. -/
def envWrite (name : OptionName) (envVar : String) : Option Source :=
  (envVarParts envVar).bind fun spelled =>
    if self.description.putName spelled = name then self.envSource spelled else none

/-- The source under a name after `_include_envs`. -/
def textualSource (name : OptionName) : Option Source :=
  (self.environ.keys.reverse.findSome? (self.envWrite name)).or (self.parserSource name)

/-- One turn of the loops of `_include_commands` and `_include_secrets`. -/
def overlay (suffix : String) (computation : Computation) (sources : OptionName → Option Source)
    (name : OptionName) : OptionName → Option Source :=
  match sources (name.1, name.2 ++ suffix) with
  | none => sources
  | some text => fun name' =>
    if name' = (name.1, name.2 ++ suffix) then none
    else if name' = name then some (text.compute computation)
    else sources name'

/-- The source under a name in `as_dict`. -/
def lastSource : OptionName → Option Source :=
  self.description.sensitiveConfigValues.foldl (overlay "_secret" .secret)
    (self.description.sensitiveConfigValues.foldl (overlay "_cmd" .cmd) self.textualSource)

/-! ## Values -/

/-- The text as it is written. -/
def text? : Origin → Option String
  | .environ envVar => self.environ.get? envVar
  | .file name => self.config.text? name
  | .default name => self.description.defaultValues.text? name
  | .pre27 name => self.description.pre27DefaultValues.text? name

/-- The text, where there is one. -/
def text (origin : Origin) : String := (self.text? origin).getD ""

/-- The text as a `ConfigParser` gives it. -/
def interpolated : Origin → String
  | .environ envVar => self.text (.environ envVar)
  | .file name =>
    self.interpolate ((self.config.get? name.1).getD {}) (self.text (.file name))
  | .default name =>
    self.interpolate ((self.description.defaultValues.get? name.1).getD {})
      (self.text (.default name))
  | .pre27 name =>
    self.interpolate ((self.description.pre27DefaultValues.get? name.1).getD {})
      (self.text (.pre27 name))

/-- The value of a text in `get`. -/
def gotText : Origin → String
  | .pre27 name => self.interpolated (.pre27 name)
  | origin => self.expandEnvVar (self.interpolated origin)

/-- The value that is computed from another. -/
def computeValue (value : String) : Computation → String
  | .cmd => self.runCommand value
  | .secret => (self.secretBackend value).getD ""

/-- The value of a source in `get`. -/
def got (s : Source) : String :=
  match s.computations with
  | [] => self.gotText s.origin
  | computations => computations.foldl self.computeValue (self.interpolated s.origin)

variable (raw : Bool)

/-- A value is escaped to be read again. -/
def escapeIf (value : String) : String := if raw then escape value else value

/-- The value of a text in `as_dict`. -/
def shownText : Origin → String
  | .environ envVar => escapeIf raw (self.expandEnvVar (self.text (.environ envVar)))
  | origin => if raw then self.text origin else self.interpolated origin

/-- The value of a source in `as_dict`. -/
def shown (s : Source) : String :=
  s.computations.foldl (fun value computation => escapeIf raw (self.computeValue value computation))
    (if s.spelled then self.text s.origin else self.shownText raw s.origin)

/-! ## Options that are in effect -/

/-- What is known of commands, of the secrets backend, of expansion and of interpolation: outputs and
secrets are there, not empty and plain. -/
structure Regular (c : AirflowConfigParser) : Prop where
  runCommand : ∀ command, c.runCommand command ≠ "" ∧ Plain (c.runCommand command)
  secretBackend : ∀ path, ∃ value,
    c.secretBackend path = some value ∧ value ≠ "" ∧ Plain value
  expand_of_plain : ∀ text, Plain text → c.expandEnvVar text = text
  expand_expand : ∀ text, c.expandEnvVar (c.expandEnvVar text) = c.expandEnvVar text
  interpolate_of_plain : ∀ options text, Plain text → c.interpolate options text = text
  interpolate_escape : ∀ options text, c.interpolate options (escape text) = text

/-- A process without the variables of the environment. -/
structure WithoutEnviron (c process : AirflowConfigParser) : Prop where
  description : process.description = c.description
  expandEnvVar : process.expandEnvVar = c.expandEnvVar
  interpolate : process.interpolate = c.interpolate
  environ : ∀ envVar ∈ process.environ.keys, ¬envVarPrefix.toList <+: envVar.toList

/-- `as_dict` shows what `get` gives, and so does `get` in a process that has read a copy. -/
structure InEffect (c : AirflowConfigParser) : Prop where
  get : ∀ name entry, c.description.Current name →
    (c.asDict { sensitive := true }).lookup? name = some entry →
      c.get name.1 name.2 = some entry.value
  copy : ∀ process raw, c.WithoutEnviron process →
    ∃ process', process.readCopy raw c.tmpConfigurationCopy = .ok process' ∧
      ∀ name, c.description.Current name →
        ((c.asDict { sensitive := true }).lookup? name).isSome →
          process'.get name.1 name.2 = c.get name.1 name.2

/-- The value of a source does not depend on expansion, interpolation and escaping, or they are made
up for. -/
def Settled (s : Source) : Prop :=
  s.spelled = true ∨ (s.computations = [] ∧ ∃ envVar, s.origin = .environ envVar) ∨
    Plain (self.text s.origin)

/-- The sections of the parsers, in the order in which `as_dict` goes through them. -/
def parserSections : List String :=
  self.description.pre27DefaultValues.keys ++ self.description.defaultValues.keys ++
    self.config.keys

/-- The last source of each option is the first one in the order of precedence, and its text is plain
or made up for. No two keys of a section differ only in their case, and a section that is not in lower
case comes after the one that is. -/
structure Undisputed (c : AirflowConfigParser) : Prop where
  first : ∀ name s, c.description.Current name → c.lastSource name = some s →
    ∃ s', c.firstSource name = some s' ∧ s.Same s'
  settled : ∀ name s, c.description.Current name → c.lastSource name = some s →
    c.Settled s
  keys : ∀ sect key key', (c.lastSource (sect, key)).isSome →
    (c.lastSource (sect, key')).isSome →
      c.description.casing.lower key = c.description.casing.lower key' → key = key'
  sections : ∀ before sect after, c.parserSections = before ++ sect :: after →
    sect ∉ before → (∃ key, (c.lastSource (sect, key)).isSome) →
      c.description.casing.lower sect = "" ∨
        c.description.casing.lower sect ∈ before ++ [sect]

end AirflowConfigParser

/-- Two configurations of the same shape: the same texts are written in the same places, and the texts
that are plain in the first are plain in the second. -/
structure SameShape (c c' : AirflowConfigParser) : Prop where
  description : c'.description =
    c.description.withDefaults c'.description.defaultValues c'.description.pre27DefaultValues
  environ : c'.environ.keys = c.environ.keys
  parserSections : c'.parserSections = c.parserSections
  texts : ∀ origin, (c'.text? origin).isSome = (c.text? origin).isSome
  plain : ∀ origin, Plain (c.text origin) → Plain (c'.text origin)

end Airflow.Configuration
