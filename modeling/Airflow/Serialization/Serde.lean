import Airflow.Lib.Traced

/-!
# `serde`: values in terms of built-in types

`serialize`, `deserialize`, `_convert`, `decode` and `_stringify` of `airflow/serialization/serde.py`
with the registered module `airflow/serialization/serializers/builtin.py`, on Python values
(`PyValue`). What `serialize` returns consists of lists and dicts of primitives, as what a JSON
document says does (`Json`).

What is installed and configured comes as a `Registry`: the allow list, the classes that can be
imported, the other registered modules. `deserialize` records when it imports a class and when it
calls a deserializer. It is modelled without a type hint, which its callers here do not pass. The
limit of the interpreter's own stack is left out, that of `serialize` is not.
-/

namespace Airflow.Serde

/-! ## Values -/

/-- A Python value. A set is in the order of its iteration, a float is given by its `repr`, and
`object` stands for the instances of all other classes. -/
inductive PyValue where
  | none
  | bool (b : Bool)
  | int (i : Int)
  | float (repr : String)
  | str (s : String)
  | list (l : List PyValue)
  | tuple (l : List PyValue)
  | set (l : List PyValue)
  | frozenset (l : List PyValue)
  | dict (items : List (String × PyValue))
  | object (id : Nat)

/-- Lists and dicts of primitives: what a JSON document says. -/
inductive Json where
  | null
  | bool (b : Bool)
  | int (i : Int)
  | float (repr : String)
  | str (s : String)
  | arr (l : List Json)
  | obj (items : List (String × Json))

/-- The exceptions that are raised here. -/
inductive PyError where
  | typeError
  | valueError
  | attributeError
  | importError (classname : String)
  | recursionError

/-- `k in d`. -/
def hasKey {α : Type} (items : List (String × α)) (k : String) : Bool := items.any (·.1 = k)

/-- `d.get(k)`. -/
def getKey {α : Type} (items : List (String × α)) (k : String) : Option α :=
  (items.find? (·.1 = k)).map Prod.snd

def CLASSNAME : String := "__classname__"
def VERSION : String := "__version__"
def DATA : String := "__data__"
def SCHEMA_ID : String := "__id__"
def OLD_TYPE : String := "__type"
def OLD_DATA : String := "__var"
def OLD_DICT : String := "dict"
def DEFAULT_VERSION : Int := 0

namespace PyValue

/-- `isinstance(v, _primitives)`. -/
def isPrimitive : PyValue → Bool
  | .bool _ | .int _ | .float _ | .str _ => true
  | _ => false

/-- `isinstance(v, _builtin_collections)`. -/
def isCollection : PyValue → Bool
  | .list _ | .tuple _ | .set _ | .frozenset _ => true
  | _ => false

/-! ### Sets -/

mutual

/-- `hash(v)` succeeds. -/
def hashable : PyValue → Bool
  | .tuple l => hashableAll l
  | .list _ | .set _ | .dict _ => false
  | _ => true

def hashableAll : List PyValue → Bool
  | [] => true
  | v :: l => v.hashable && hashableAll l

end

/-- The number that a boolean or an integer is. -/
def number : PyValue → Option Int
  | .bool b => some (if b then 1 else 0)
  | .int i => some i
  | _ => Option.none

mutual

/-- `v == w`, for hashable values. -/
def pyEq : PyValue → PyValue → Bool
  | .none, .none => true
  | .float a, .float b => a = b
  | .str a, .str b => a = b
  | .tuple a, .tuple b => pyEqAll a b
  | .frozenset a, .frozenset b => a.length = b.length && pySubset a b
  | .object a, .object b => a = b
  | .bool a, w => w.number = some (if a then 1 else 0)
  | .int a, w => w.number = some a
  | _, _ => false

def pyEqAll : List PyValue → List PyValue → Bool
  | [], [] => true
  | v :: a, w :: b => pyEq v w && pyEqAll a b
  | _, _ => false

def pySubset : List PyValue → List PyValue → Bool
  | [], _ => true
  | v :: a, b => b.any (pyEq v) && pySubset a b

end

/-- The elements of `set(l)`: of equal ones the first. -/
def distinct : List PyValue → List PyValue
  | [] => []
  | v :: l => v :: (distinct l).filter fun w => !pyEq v w

/-- The values that iterating over `v` gives; `none` for `TypeError`. -/
def iterate : PyValue → Option (List PyValue)
  | .list l | .tuple l | .set l | .frozenset l => some l
  | .str s => some (s.toList.map fun c => .str (String.singleton c))
  | .dict items => some (items.map fun e => .str e.1)
  | _ => Option.none

/-- `set(l)` or `frozenset(l)`. -/
def toSet (wrap : List PyValue → PyValue) (l : List PyValue) : Except PyError PyValue :=
  if hashableAll l then .ok (wrap (distinct l)) else .error .typeError

end PyValue

/-! ## The registered module for built-in collections -/

/-- `serializers` of `builtin.py`, which are its deserializers and stringifiers, too. -/
def builtinClasses : List String := ["builtins.frozenset", "builtins.set", "builtins.tuple"]

/-- `builtin.__version__`. -/
def builtinVersion : Int := 1

/-- `builtin.deserialize`. -/
def builtinDeserialize (classname : String) (version : Int) (data : PyValue) :
    Except PyError PyValue :=
  if version > builtinVersion then .error .typeError
  else
    match data.iterate with
    | none => .error .typeError
    | some l =>
      if classname = "builtins.tuple" then .ok (.tuple l)
      else if classname = "builtins.set" then PyValue.toSet .set l
      else if classname = "builtins.frozenset" then PyValue.toSet .frozenset l
      else .error .typeError

/-! ## The registry -/

/-- A class that was imported: its `deserialize`, if it has one, and what it is constructed with
when it is an attrs class, a dataclass or a pydantic model. Deserializers return instances, which
are `object`s. -/
structure PyClass where
  deserialize : Option (PyValue → Int → Except PyError Nat) := none
  construct : Option (PyValue → Except PyError Nat) := none
  version : Int := 0

/-- What the configuration and the installed packages say. `pyStr` is `str()`; `objectData` is the
class, the version and the data that an object is serialized to, if anything can serialize it. -/
structure Registry where
  matchesPattern : String → Bool
  importString : String → Except PyError PyClass
  deserializer : String → Option (Int → PyValue → Except PyError Nat) := fun _ => none
  stringifier : String → Option (Int → PyValue → Except PyError String) := fun _ => none
  pyStr : PyValue → String := fun _ => ""
  objectData : Nat → Option (String × Int × PyValue) := fun _ => none
  maxRecursionDepth : Nat := 999

namespace Registry

variable (registry : Registry)

/-- The check of the allow list; a registered deserializer's class is in `_extra_allowed`. -/
def allowed (classname : String) : Bool :=
  registry.matchesPattern classname || classname ∈ builtinClasses ||
    (registry.deserializer classname).isSome

/-- `import_string`; the built-in classes can be imported. -/
def importClass (classname : String) : Except PyError PyClass :=
  if classname ∈ builtinClasses then .ok {} else registry.importString classname

/-- `_deserializers[classname].deserialize`. -/
def registered (classname : String) : Option (Int → PyValue → Except PyError PyValue) :=
  if classname ∈ builtinClasses then some (builtinDeserialize classname)
  else (registry.deserializer classname).map fun f version data => (f version data).map .object

/-- `_stringifiers[classname].stringify`; the built-in one joins what it iterates over. -/
def stringify (classname : String) : Option (Int → PyValue → Except PyError String) :=
  if classname ∈ builtinClasses then
    some fun _ data =>
      match data.iterate with
      | none => .error .typeError
      | some l => .ok ("(" ++ ",".intercalate (l.map registry.pyStr) ++ ")")
  else registry.stringifier classname

end Registry

/-- The default configuration, without further modules. -/
def stockRegistry : Registry where
  matchesPattern classname := "airflow.".isPrefixOf classname
  importString classname := .error (.importError classname)

/-! ## Serialization -/

/-- `encode`. -/
def encode (classname : String) (version : Int) (data : Json) : Json :=
  .obj [(CLASSNAME, .str classname), (VERSION, .int version), (DATA, data)]

/-- `serialize`, with so many levels left of `MAX_RECURSION_DEPTH`. -/
def serialize (registry : Registry) : Nat → PyValue → Except PyError Json
  | 0, _ => .error .recursionError
  | _ + 1, .none => .ok .null
  | _ + 1, .bool b => .ok (.bool b)
  | _ + 1, .int i => .ok (.int i)
  | _ + 1, .float r => .ok (.float r)
  | _ + 1, .str s => .ok (.str s)
  | n + 1, .list l => (l.mapM (serialize registry n)).map .arr
  | n + 1, .dict items =>
    if hasKey items CLASSNAME || hasKey items SCHEMA_ID then .error .attributeError
    else (items.mapM fun e => (serialize registry n e.2).map fun v => (e.1, v)).map .obj
  -- `builtin.serialize` makes a list of the elements
  | n + 1, .tuple l =>
    (serialize registry n (.list l)).map (encode "builtins.tuple" builtinVersion)
  | n + 1, .set l =>
    (serialize registry n (.list l)).map (encode "builtins.set" builtinVersion)
  | n + 1, .frozenset l =>
    (serialize registry n (.list l)).map (encode "builtins.frozenset" builtinVersion)
  | n + 1, .object id =>
    match registry.objectData id with
    | none => .error .typeError
    | some (classname, version, data) =>
      (serialize registry n data).map (encode classname version)

/-! ## Deserialization -/

/-- `_convert`. -/
def convert (old : List (String × PyValue)) : PyValue :=
  match getKey old OLD_TYPE, getKey old OLD_DATA with
  | some type, some data =>
    match type with
    | .str "dict" => data
    | _ => .dict [(CLASSNAME, type), (VERSION, .int DEFAULT_VERSION), (DATA, data)]
  | _, _ => .dict old

/-- What `deserialize` takes a dict for: the old form of something that is no dict, a plain dict,
or an encoded object, of which `decode` may be unable to read the class or the version. -/
inductive DictView where
  | notADict (e : PyError)
  | plain (items : List (String × PyValue))
  | undecodable
  | tagged (classname : String) (version : Int) (value : PyValue)

/-- The error of using `o` as a dict when it is none: `CLASSNAME not in o`, then `o.items()` or
`o[CLASSNAME]`. -/
def itemsError (o : PyValue) : PyError :=
  let both (p : String → Bool) := p CLASSNAME && p VERSION
  match o with
  | .list l | .tuple l | .set l | .frozenset l =>
    if both fun k => l.any fun v => match v with | .str s => s = k | _ => false then .typeError
    else .attributeError
  | .str s => if both fun k => (s.splitOn k).length > 1 then .typeError else .attributeError
  | _ => .typeError

/-- `decode`. A boolean version is the integer that it is. -/
def decode (d : List (String × PyValue)) : DictView :=
  match getKey d CLASSNAME, getKey d VERSION with
  | some (.str classname), some (.int version) =>
    .tagged classname version ((getKey d DATA).getD .none)
  | some (.str classname), some (.bool version) =>
    .tagged classname (if version then 1 else 0) ((getKey d DATA).getD .none)
  | _, _ => .undecodable

/-- The dict that `deserialize` was called with, converted and decoded. -/
def dictView (old : List (String × PyValue)) : DictView :=
  match convert old with
  | .dict o => if hasKey o CLASSNAME && hasKey o VERSION then decode o else .plain o
  | o => .notADict (itemsError o)

/-- What deserialization records. -/
inductive LoadEvent where
  | importString (classname : String)
  | deserializer (classname : String)

/-- The value or the exception, and what was loaded. -/
abbrev Loading (α : Type) := Traced LoadEvent PyError α

/-! ### Sizes, for termination -/

theorem sizeOf_item {items : List (String × PyValue)} {e : String × PyValue} (h : e ∈ items) :
    sizeOf e.2 < sizeOf items := by
  have hmem := List.sizeOf_lt_of_mem h
  have hpair : sizeOf e = 1 + sizeOf e.1 + sizeOf e.2 := by
    obtain ⟨k, v⟩ := e
    rfl
  omega

theorem sizeOf_getKey {items : List (String × PyValue)} {k : String} {v : PyValue}
    (h : getKey items k = some v) : sizeOf v < sizeOf items := by
  obtain ⟨e, he, rfl⟩ := Option.map_eq_some_iff.mp h
  exact sizeOf_item (List.mem_of_find?_eq_some he)

/-- What `convert` can give. -/
theorem convert_cases (old : List (String × PyValue)) :
    convert old = .dict old ∨
    ∃ type data, getKey old OLD_TYPE = some type ∧ getKey old OLD_DATA = some data ∧
      (convert old = data ∨
        convert old =
          .dict [(CLASSNAME, type), (VERSION, .int DEFAULT_VERSION), (DATA, data)]) := by
  unfold convert
  split
  · next type data htype hdata =>
    refine .inr ⟨type, data, htype, hdata, ?_⟩
    split
    · exact .inl rfl
    · exact .inr rfl
  · exact .inl rfl

theorem decode_not_plain (d items : List (String × PyValue)) : decode d ≠ .plain items := by
  unfold decode
  split <;> simp

theorem decode_tagged {d : List (String × PyValue)} {classname : String} {version : Int}
    {value : PyValue} (h : decode d = .tagged classname version value) :
    value = (getKey d DATA).getD .none := by
  unfold decode at h
  split at h <;> cases h <;> rfl

theorem dictView_plain_size {old items : List (String × PyValue)}
    (h : dictView old = .plain items) {e : String × PyValue} (he : e ∈ items) :
    sizeOf e.2 < sizeOf (PyValue.dict old) := by
  have hitem := sizeOf_item he
  have hdict := PyValue.dict.sizeOf_spec
  unfold dictView at h
  split at h
  · next o ho =>
    split at h
    · exact absurd h (decode_not_plain o items)
    · next htag =>
      cases h
      rcases convert_cases old with hc | ⟨type, data, -, hdata, hc | hc⟩
      · rw [hc] at ho
        cases ho
        rw [hdict]
        omega
      · rw [hc] at ho
        subst ho
        have hlt := sizeOf_getKey hdata
        rw [hdict] at hlt ⊢
        omega
      · rw [hc] at ho
        cases ho
        exact absurd rfl htag
  · cases h

theorem dictView_tagged_size {old : List (String × PyValue)} {classname : String} {version : Int}
    {value : PyValue} (h : dictView old = .tagged classname version value) :
    sizeOf value < sizeOf (PyValue.dict old) := by
  have hdict := PyValue.dict.sizeOf_spec
  have hpos : ∀ l : List (String × PyValue), 1 ≤ sizeOf l := fun l => by
    cases l with
    | nil => exact Nat.le_refl 1
    | cons e l =>
      show 1 ≤ 1 + sizeOf e + sizeOf l
      omega
  have hget : ∀ l : List (String × PyValue), sizeOf ((getKey l DATA).getD .none) ≤ sizeOf l := by
    intro l
    cases hl : getKey l DATA with
    | none => exact hpos l
    | some v => exact Nat.le_of_lt (sizeOf_getKey hl)
  unfold dictView at h
  split at h
  · next o ho =>
    split at h
    · have hvalue := decode_tagged h
      rw [hdict]
      rcases convert_cases old with hc | ⟨type, data, -, hdata, hc | hc⟩
      · rw [hc] at ho
        cases ho
        rw [hvalue]
        have hle := hget old
        omega
      · rw [hc] at ho
        subst ho
        have hlt := sizeOf_getKey hdata
        have hle := hget o
        rw [hdict] at hlt
        rw [hvalue]
        omega
      · rw [hc] at ho
        cases ho
        have hvalue' : value = data := hvalue
        have hlt := sizeOf_getKey hdata
        rw [hvalue']
        omega
    · cases h
  · cases h

/-! ### `deserialize` and `_stringify` -/

mutual

/-- `deserialize`. The elements of a collection are deserialized in full. -/
def deserialize (registry : Registry) (full : Bool) (o : PyValue) : Loading PyValue :=
  match o with
  | .list l => (Traced.sequence (l.map fun d => deserialize registry true d)).map .list
  | .tuple l => (Traced.sequence (l.map fun d => deserialize registry true d)).map .tuple
  | .set l =>
    (Traced.sequence (l.map fun d => deserialize registry true d)).bind fun col =>
      .lift (PyValue.toSet .set col)
  | .frozenset l => (Traced.sequence (l.map fun d => deserialize registry true d)).map .list
  | .dict old =>
    match _h : dictView old with
    | .notADict e => .fail e
    | .undecodable => .fail .valueError
    | .plain items =>
      (Traced.sequence (items.attach.map fun e =>
        (deserialize registry full e.1.2).map fun v => (e.1.1, v))).map .dict
    | .tagged classname version value =>
      if classname = "" then .fail .typeError
      else if !full then (stringify registry classname version value).map .str
      else if !registry.allowed classname then .fail (.importError classname)
      else
        .emit (.importString classname) <|
          (Traced.lift (registry.importClass classname)).bind fun cls =>
            match registry.registered classname with
            | some deserializer =>
              (deserialize registry true value).bind fun data =>
                .emit (.deserializer classname) (.lift (deserializer version data))
            | none =>
              match cls.deserialize, cls.construct with
              | some deserializer, _ =>
                (deserialize registry true value).bind fun data =>
                  .emit (.deserializer classname) (.lift ((deserializer data version).map .object))
              | none, some construct =>
                if version > cls.version then .fail .typeError
                else
                  (deserialize registry true value).bind fun data =>
                    .lift ((construct data).map .object)
              | none, none => .fail .typeError
  | o => .pure o
termination_by (sizeOf o, 0)
decreasing_by
  all_goals first
    | exact Prod.Lex.left _ _ (dictView_tagged_size _h)
    | exact Prod.Lex.left _ _ (dictView_plain_size _h e.2)
    | (have hlt := List.sizeOf_lt_of_mem ‹_ ∈ l›
       exact Prod.Lex.left _ _ (by simp only [PyValue.list.sizeOf_spec, PyValue.tuple.sizeOf_spec,
         PyValue.set.sizeOf_spec, PyValue.frozenset.sizeOf_spec]; omega))

/-- `_stringify`. -/
def stringify (registry : Registry) (classname : String) (version : Int) (value : PyValue) :
    Loading String :=
  match registry.stringify classname with
  | some f => .lift (f version value)
  | none =>
    let wrap s := classname ++ "@version=" ++ toString version ++ "(" ++ s ++ ")"
    if value.isPrimitive then .pure (wrap (registry.pyStr value))
    else if value.isCollection then
      (deserialize registry false value).map fun v =>
        wrap (",".intercalate ((registry.pyStr v).toList.map String.singleton))
    else
      match value with
      | .dict items =>
        (Traced.sequence (items.map fun e =>
          (deserialize registry false e.2).map fun v => e.1 ++ "=" ++ registry.pyStr v)).map
            fun s => wrap (",".intercalate s)
      | _ => .pure (wrap "")
termination_by (sizeOf value, 1)
decreasing_by
  all_goals first
    | exact Prod.Lex.right _ Nat.zero_lt_one
    | (have hlt := sizeOf_item ‹_ ∈ items›
       exact Prod.Lex.left _ _ (by simp only [PyValue.dict.sizeOf_spec]; omega))

end

end Airflow.Serde
