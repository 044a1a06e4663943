import Airflow.Configuration.AsDict

/-!
# The copy of a configuration

`tmp_configuration_copy` writes `as_dict` into a file, and a process that is started with the file
reads it over its own configuration with `read_dict`. The texts of a `ConfigParser` have the syntax of
interpolation, so that `before_set` lets them pass.
-/

namespace Airflow.Configuration

/-- What a `ConfigParser` holds: its sections and the options of `[DEFAULT]`. -/
structure RawParser where
  sections : Parser := {}
  defaults : Dict String String := {}

/-- Why `read_dict` fails: `DuplicateOptionError` and `NoSectionError`. -/
inductive ReadError where
  | duplicateOption (sect key : String)
  | noSection (sect : String)
  deriving DecidableEq, Repr

namespace RawParser

/-- What is read of each section: its options and those of `[DEFAULT]` (`_unify_values`). An option of
the section with the empty name is one of `[DEFAULT]`. -/
def parser (raw : RawParser) : Parser :=
  raw.sections.mapValues fun sect options =>
    if sect = "" then raw.defaults
    else options.entries.foldl (fun d option => d.set option.1 option.2) raw.defaults

/-- `add_section`, where a section that exists is left as it is. -/
def addSection (raw : RawParser) (sect : String) : RawParser :=
  { raw with sections := raw.sections.setDefault sect {} }

variable (casing : Casing)

/-- `AirflowConfigParser.set`. -/
def set (raw : RawParser) (sect key value : String) : Except ReadError RawParser :=
  let sect := casing.lower sect
  let key := casing.lower key
  if sect = "" then .ok { raw with defaults := raw.defaults.set key value }
  else
    match raw.sections.get? sect with
    | none => .error (.noSection sect)
    | some options => .ok { raw with sections := raw.sections.set sect (options.set key value) }

/-- One turn of the inner loop of `read_dict`, with the keys that were added to the section. -/
def readOption (sect : String) (state : RawParser × List String) (option : String × String) :
    Except ReadError (RawParser × List String) :=
  let key := casing.lower option.1
  if key ∈ state.2 then .error (.duplicateOption sect key)
  else (state.1.set casing sect key option.2).map (·, key :: state.2)

/-- One turn of the outer loop of `read_dict`. -/
def readSection (raw : RawParser) (sect : String × Dict String String) :
    Except ReadError RawParser :=
  (sect.2.entries.foldlM (readOption casing sect.1) (raw.addSection sect.1, [])).map Prod.fst

/-- `read_dict`. -/
def readDict (raw : RawParser) (dictionary : Dict String (Dict String String)) :
    Except ReadError RawParser :=
  dictionary.entries.foldlM (readSection casing) raw

end RawParser

namespace AirflowConfigParser

/-- `tmp_configuration_copy`, with its default arguments. -/
def tmpConfigurationCopy (self : AirflowConfigParser) : Dict String (Dict String String) :=
  (self.asDict { sensitive := true, raw := true }).mapValues fun _ options =>
    options.mapValues fun _ entry => entry.value

/-- The configuration of a process, whose config file is read from `raw`, once it has read a copy. -/
def readCopy (self : AirflowConfigParser) (raw : RawParser)
    (copy : Dict String (Dict String String)) : Except ReadError AirflowConfigParser :=
  (raw.readDict self.description.casing copy).map fun raw => { self with config := raw.parser }

end AirflowConfigParser

end Airflow.Configuration
