import Airflow.Serialization.Serde

/-!
# Params of serialized DAGs

`_serialize_param` and `_deserialize_param` of `airflow/serialization/serialized_objects.py`, with
`BaseSerialization.serialize` and `deserialize` on values of built-in types. What these make of
other classes comes as a parameter; of the types that `deserialize` knows, those of the built-in
collections are modelled.
-/

namespace Airflow.Params

open Serde

/-- The exceptions that are raised here. -/
inductive PyError where
  | keyError (key : String)
  | typeError
  | otherType (type_ : String)

/-! ## `sorted` -/

/-- `a <= b` of two strings. -/
def strLe (a b : String) : Bool := decide (a ≤ b)

/-- The text of a string. -/
def text : PyValue → Option String
  | .str s => some s
  | _ => none

/-- The strings of a list of strings. -/
def strings (l : List PyValue) : Option (List String) := l.mapM text

/-- `v <= w` of booleans and integers. -/
def numberLe (v w : PyValue) : Bool := decide (v.number.getD 0 ≤ w.number.getD 0)

/-- `sorted(l)`, or `l` if comparing raises `TypeError`: more than one value, and not all of them are
numbers or all strings. -/
def sortedOrAsIs (l : List PyValue) : List PyValue :=
  if l.all (·.number.isSome) then l.mergeSort numberLe
  else
    match strings l with
    | some ss => (ss.mergeSort strLe).map .str
    | none => l

/-! ## `serialize` -/

def TYPE : String := "__type"
def VAR : String := "__var"

/-- `_encode`. -/
def encode (x : PyValue) (type_ : String) : PyValue := .dict [(VAR, x), (TYPE, .str type_)]

section
variable (other : PyValue → PyValue)

mutual

/-- `BaseSerialization.serialize`; `other` is what it makes of instances of other classes. -/
def serialize : PyValue → PyValue
  | .dict items => encode (.dict (serializeItems items)) "dict"
  | .list l => .list (serializeAll l)
  | .set l => encode (.list (sortedOrAsIs (serializeAll l))) "set"
  | .tuple l => encode (.list (serializeAll l)) "tuple"
  | .frozenset l => other (.frozenset l)
  | .object id => other (.object id)
  | v => v

def serializeAll : List PyValue → List PyValue
  | [] => []
  | v :: l => serialize v :: serializeAll l

def serializeItems : List (String × PyValue) → List (String × PyValue)
  | [] => []
  | (k, v) :: items => (k, serialize v) :: serializeItems items

end

end

/-! ## `deserialize` -/

/-- `{… for v in …}`. -/
def toSet (l : List PyValue) : Except PyError PyValue :=
  match PyValue.toSet .set l with
  | .ok v => .ok v
  | .error _ => .error .typeError

mutual

/-- `BaseSerialization.deserialize`. -/
def deserialize : PyValue → Except PyError PyValue
  | .dict items => deserializeVar (getKey items TYPE) items
  | .list l => .list <$> deserializeAll l
  | .tuple _ | .set _ | .frozenset _ | .object _ => .error .typeError
  | v => .ok v

/-- The value under `__var`, decoded by the type. -/
def deserializeVar (type_ : Option PyValue) : List (String × PyValue) → Except PyError PyValue
  | [] => .error (.keyError VAR)
  | (k, v) :: items =>
    if k = VAR then
      match type_ with
      | none => .error (.keyError TYPE)
      | some (.str type_) => decode type_ v
      | some _ => .error .typeError
    else deserializeVar type_ items

/-- A stored value of a built-in collection. -/
def decode (type_ : String) : PyValue → Except PyError PyValue
  | .dict items =>
    if type_ = "dict" then .dict <$> deserializeItems items else .error (.otherType type_)
  | .list l =>
    if type_ = "set" then do toSet (← deserializeAll l)
    else if type_ = "tuple" then .tuple <$> deserializeAll l
    else .error (.otherType type_)
  | _ => .error (.otherType type_)

def deserializeAll : List PyValue → Except PyError (List PyValue)
  | [] => .ok []
  | v :: l => do return (← deserialize v) :: (← deserializeAll l)

def deserializeItems : List (String × PyValue) → Except PyError (List (String × PyValue))
  | [] => .ok []
  | (k, v) :: items => do return (k, ← deserialize v) :: (← deserializeItems items)

end

/-! ## Params -/

/-- `Param`. -/
structure Param where
  value : PyValue
  description : PyValue
  schema : PyValue

/-- `NOTSET`. -/
def notset : PyValue := .object 0

/-- `Param(**kwargs)`. -/
def Param.init (kwargs : List (String × PyValue)) : Param where
  value := (getKey kwargs "default").getD notset
  description := (getKey kwargs "description").getD .none
  schema := (getKey kwargs "schema").getD (.dict [])

/-- `_serialize_param`. -/
def serializeParam (other : PyValue → PyValue) (param : Param) : List (String × PyValue) :=
  [("__class", .str "airflow.models.param.Param"),
    ("default", serialize other param.value),
    ("description", serialize other param.description),
    ("schema", serialize other param.schema)]

/-- An item of a list that looks encoded. -/
def looksEncoded : PyValue → Bool
  | .dict items => hasKey items TYPE
  | _ => false

/-- `is_serialized`. -/
def isSerialized : PyValue → Bool
  | .dict items => hasKey items TYPE
  | .list l => l.all looksEncoded
  | _ => false

/-- What `_deserialize_param` passes for a stored attribute. -/
def restore (val : PyValue) : Except PyError PyValue :=
  if isSerialized val then deserialize val else .ok val

/-- The loop of `_deserialize_param`. -/
def kwargsOf (paramDict : List (String × PyValue)) :
    List String → Except PyError (List (String × PyValue))
  | [] => .ok []
  | attr :: attrs =>
    match getKey paramDict attr with
    | none => kwargsOf paramDict attrs
    | some val => do return (attr, ← restore val) :: (← kwargsOf paramDict attrs)

/-- `_deserialize_param`, for the class `Param`. -/
def deserializeParam (paramDict : List (String × PyValue)) : Except PyError Param :=
  match getKey paramDict "__class" with
  | none => .error (.keyError "__class")
  | some _ => Param.init <$> kwargsOf paramDict ["default", "description", "schema"]

/-! ## Values of built-in types -/

mutual

/-- The same value: a set may have its elements in another order. -/
def Same : PyValue → PyValue → Prop
  | .list a, .list b => SameAll a b
  | .tuple a, .tuple b => SameAll a b
  | .set a, .set b => a.Perm b
  | .dict a, .dict b => SameItems a b
  | .none, .none => True
  | .bool a, .bool b => a = b
  | .int a, .int b => a = b
  | .str a, .str b => a = b
  | _, _ => False

def SameAll : List PyValue → List PyValue → Prop
  | [], [] => True
  | v :: a, w :: b => Same v w ∧ SameAll a b
  | _, _ => False

def SameItems : List (String × PyValue) → List (String × PyValue) → Prop
  | [], [] => True
  | (k, v) :: a, (k', w) :: b => k = k' ∧ Same v w ∧ SameItems a b
  | _, _ => False

end

mutual

/-- Built from `None`, booleans, integers, strings, lists, tuples, sets and dicts, as Python can
build it: the elements of a set are hashable and different, and so are the keys of a dict. -/
def Basic : PyValue → Prop
  | .list l | .tuple l => BasicAll l
  | .set l => PyValue.hashableAll l = true ∧ (l.Pairwise fun v w => PyValue.pyEq v w = false) ∧
    BasicAll l
  | .dict items => (items.map Prod.fst).Nodup ∧ BasicItems items
  | .float _ | .frozenset _ | .object _ => False
  | .none | .bool _ | .int _ | .str _ => True

def BasicAll : List PyValue → Prop
  | [] => True
  | v :: l => Basic v ∧ BasicAll l

def BasicItems : List (String × PyValue) → Prop
  | [] => True
  | (_, v) :: items => Basic v ∧ BasicItems items

end

mutual

/-- No dict, tuple or set at any depth. -/
def Plain : PyValue → Prop
  | .list l => PlainAll l
  | .dict _ | .tuple _ | .set _ => False
  | _ => True

def PlainAll : List PyValue → Prop
  | [] => True
  | v :: l => Plain v ∧ PlainAll l

end

/-- A dict, a tuple or a set. -/
def IsEncoded : PyValue → Prop
  | .dict _ | .tuple _ | .set _ => True
  | _ => False

/-- No list, or one of dicts, tuples and sets only, or one without any of them at any depth. -/
def Restorable : PyValue → Prop
  | .list l => (∀ v ∈ l, IsEncoded v) ∨ PlainAll l
  | _ => True

end Airflow.Params
