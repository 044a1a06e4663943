import Airflow.Lib.Substitution

/-!
# The secrets masker

`airflow/utils/log/secrets_masker.py`: `SecretsMasker` with `add_mask` and `redact`, and
`should_hide_value_for_key` and `mask_secret`. The packages and the settings come as an `Env`; of
the values, `V1EnvVar` is left out.
-/

namespace Airflow.SecretsMasker

open Substitution

/-- A name or a key of a dict; of other keys than strings only their truth value matters. -/
inductive Key where
  | str (s : String)
  | other (truthy : Bool)
deriving DecidableEq

namespace Key

/-- `None`. -/
def none : Key := .other false

def truthy : Key → Bool
  | .str s => s ≠ ""
  | .other truthy => truthy

end Key

inductive Kind where
  | list
  | tuple
  | set
deriving DecidableEq

/-- Sets are turned into tuples. -/
def Kind.redacted : Kind → Kind
  | .list => .list
  | .tuple | .set => .tuple

/-- The values that are redacted. A member of an `Enum` has a value; with `mixin` the class is also
one of the type of its values, as in `class C(str, Enum)`. -/
inductive Item where
  | str (s : String)
  | dict (items : List (Key × Item))
  | seq (kind : Kind) (items : List Item)
  | enum (mixin : Bool) (value : Item)
  | other (id : Nat)

/-- `isinstance(item, (str, dict, tuple, set, list))`, of an item that is no member of an `Enum`. -/
def Item.isBuiltin : Item → Bool
  | .str _ | .dict _ | .seq _ _ => true
  | .enum _ _ | .other _ => false

/-- `bool(item)`. -/
def Item.truthy : Item → Bool
  | .str s => s ≠ ""
  | .dict items => !items.isEmpty
  | .seq _ items => !items.isEmpty
  | .enum mixin value => !mixin || value.truthy
  | .other _ => true

def DEFAULT_SENSITIVE_FIELDS : List String :=
  ["access_token", "api_key", "apikey", "authorization", "passphrase", "passwd", "password",
    "private_key", "secret", "token", "keyfile_dict", "service_account"]

def SECRETS_TO_SKIP_MASKING_FOR_TESTS : List String := ["airflow"]

/-- The settings, the methods of strings and what `re2` compiles: the alternation of the patterns in
the order in which the set of them is iterated. An escaped pattern matches its text only. -/
structure Env where
  /-- `[core] sensitive_var_conn_names`. -/
  sensitiveVarConnNames : Option String
  hideSensitiveVarConnFields : Bool
  unitTestMode : Bool
  /-- `[logging] secret_mask_adapter`, which may return one secret or several. -/
  secretMaskAdapter : Option (String → List String)
  strip : String → String
  lower : String → String
  compile : List String → Alternation Char
  compile_words : ∀ patterns, (compile patterns).words.Perm (patterns.map String.toList)

/-- `a in b` of strings. -/
def isIn (a b : String) : Bool := decide (a.toList <:+: b.toList)

section
variable (env : Env)

/-- `get_sensitive_variables_fields`. -/
def getSensitiveVariablesFields : List String :=
  match env.sensitiveVarConnNames with
  | some names =>
    if names ≠ "" then DEFAULT_SENSITIVE_FIELDS ++ (names.splitOn ",").map env.strip
    else DEFAULT_SENSITIVE_FIELDS
  | none => DEFAULT_SENSITIVE_FIELDS

/-- `should_hide_value_for_key`. -/
def shouldHideValueForKey : Key → Bool
  | .str name =>
    env.hideSensitiveVarConnFields &&
      (getSensitiveVariablesFields env).any (isIn · (env.lower (env.strip name)))
  | .other _ => false

/-- `name and should_hide_value_for_key(name)`. -/
def isSensitive (name : Key) : Bool := name.truthy && shouldHideValueForKey env name

end

/-! ## The masker -/

structure SecretsMasker where
  patterns : List String := []
  replacer : Option (Alternation Char) := none

def MAX_RECURSION_DEPTH : Int := 5

namespace SecretsMasker

variable (env : Env)

/-- `_adaptations`. -/
def adaptations (secret : String) : List String :=
  match env.secretMaskAdapter with
  | some adapter => secret :: adapter secret
  | none => [secret]

/-- The body of the loop over the adaptations: the patterns and `new_mask`. -/
def addPattern (name : Key) (state : List String × Bool) (s : String) : List String × Bool :=
  if s ≠ "" ∧ s ∉ state.1 ∧ (!name.truthy || shouldHideValueForKey env name) then
    (state.1 ++ [s], true)
  else state

/-- `add_mask` of a string. -/
def addSecret (self : SecretsMasker) (secret : String) (name : Key) : SecretsMasker :=
  if secret = "" ∨ env.unitTestMode ∧ secret ∈ SECRETS_TO_SKIP_MASKING_FOR_TESTS then self
  else
    let added := (adaptations env secret).foldl (addPattern env name) (self.patterns, false)
    if added.2 then { patterns := added.1, replacer := some (env.compile added.1) }
    else { self with patterns := added.1 }

mutual

/-- `add_mask`. -/
def addMask (name : Key) : Item → SecretsMasker → SecretsMasker
  | .dict items, self => addMaskItems items self
  | .str secret, self => self.addSecret env secret name
  | .seq _ items, self => addMaskAll name items self
  | .enum mixin value, self => if mixin && value.isBuiltin then addMask name value self else self
  | .other _, self => self

def addMaskAll (name : Key) : List Item → SecretsMasker → SecretsMasker
  | [], self => self
  | v :: items, self => addMaskAll name items (addMask name v self)

def addMaskItems : List (Key × Item) → SecretsMasker → SecretsMasker
  | [], self => self
  | (k, v) :: items, self => addMaskItems items (addMask k v self)

end

/-- `mask_secret`, of the masker of the task logger. -/
def maskSecret (self : SecretsMasker) (secret : Item) (name : Key) : SecretsMasker :=
  if !secret.truthy then self else addMask env name secret self

/-- What becomes of a string without a sensitive name. -/
def replaceSecrets (self : SecretsMasker) (s : String) : String :=
  match self.replacer with
  | some replacer => String.ofList (replacer.replace "***".toList s.toList)
  | none => s

section
variable (maxDepth : Int)

mutual

/-- `_redact_all`. -/
def redactAll (depth : Int) : Item → Item
  | .str _ => .str "***"
  | .dict items =>
    if depth > maxDepth then .str "***" else .dict (redactAllItems (depth + 1) items)
  | .seq kind items =>
    if depth > maxDepth then .str "***" else .seq kind.redacted (redactAllSeq (depth + 1) items)
  | .enum mixin value =>
    if depth > maxDepth then .str "***"
    else if mixin && value.isBuiltin then redactAll depth value
    else .enum mixin value
  | .other id => if depth > maxDepth then .str "***" else .other id

def redactAllSeq (depth : Int) : List Item → List Item
  | [] => []
  | v :: items => redactAll depth v :: redactAllSeq depth items

def redactAllItems (depth : Int) : List (Key × Item) → List (Key × Item)
  | [] => []
  | (k, v) :: items => (k, redactAll depth v) :: redactAllItems depth items

end

/-- What `_redact` starts with: `shown` is what it returns otherwise. -/
def unlessHidden (name : Key) (depth : Int) (item shown : Item) : Item :=
  if depth > maxDepth then item
  else if isSensitive env name then redactAll maxDepth depth item
  else shown

variable (self : SecretsMasker)

mutual

/-- `_redact`. -/
def redactItem (name : Key) (depth : Int) : Item → Item
  | .dict items =>
    unlessHidden env maxDepth name depth (.dict items) (.dict (redactItems (depth + 1) items))
  | .enum mixin value =>
    unlessHidden env maxDepth name depth (.enum mixin value) (redactItem name depth value)
  | .str s => unlessHidden env maxDepth name depth (.str s) (.str (self.replaceSecrets s))
  | .seq kind items =>
    unlessHidden env maxDepth name depth (.seq kind items)
      (.seq kind.redacted (redactSeq (depth + 1) items))
  | .other id => unlessHidden env maxDepth name depth (.other id) (.other id)

def redactSeq (depth : Int) : List Item → List Item
  | [] => []
  | v :: items => redactItem .none depth v :: redactSeq depth items

def redactItems (depth : Int) : List (Key × Item) → List (Key × Item)
  | [] => []
  | (k, v) :: items => (k, redactItem k depth v) :: redactItems depth items

end

end

/-- `max_depth or MAX_RECURSION_DEPTH`. -/
def depthLimit : Option Int → Int
  | some maxDepth => if maxDepth = 0 then MAX_RECURSION_DEPTH else maxDepth
  | none => MAX_RECURSION_DEPTH

/-- `redact`. -/
def redact (self : SecretsMasker) (item : Item) (name : Key) (maxDepth : Option Int) : Item :=
  redactItem env (depthLimit maxDepth) self name 0 item

end SecretsMasker

end Airflow.SecretsMasker
