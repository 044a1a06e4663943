import Airflow.Serialization.Serde

/-!
# The JSON form of XCom values

`XComEncoder` and `XComDecoder` of `airflow/utils/json.py`, and `BaseXCom.serialize_value` and
`deserialize_value` of `airflow/models/xcom.py` without pickling. A JSON text is what it says
(`Json`): the `json` module prints what it parses and parses what it prints.
-/

namespace Airflow.Serde

/-! ## The encoder -/

/-- What `json.JSONEncoder` writes for a value: tuples are written as lists, and what it cannot
write goes through `XComEncoder.default`. -/
def iterencode (registry : Registry) (o : PyValue) : Except PyError Json :=
  match o with
  | .none => .ok .null
  | .bool b => .ok (.bool b)
  | .int i => .ok (.int i)
  | .float r => .ok (.float r)
  | .str s => .ok (.str s)
  | .list l | .tuple l => (l.mapM fun v => iterencode registry v).map .arr
  | .dict items =>
    (items.mapM fun e => (iterencode registry e.2).map fun v => (e.1, v)).map .obj
  | o => serialize registry registry.maxRecursionDepth o
termination_by sizeOf o
decreasing_by
  · next h => exact Nat.lt_of_lt_of_le (List.sizeOf_lt_of_mem h) (by simp)
  · next h => exact Nat.lt_of_lt_of_le (List.sizeOf_lt_of_mem h) (by simp)
  · next h => exact Nat.lt_of_lt_of_le (sizeOf_item h) (by simp)

/-- `XComEncoder.encode`. -/
def xcomEncode (registry : Registry) (o : PyValue) : Except PyError Json :=
  match o with
  | .dict items =>
    if hasKey items CLASSNAME || hasKey items SCHEMA_ID then .error .attributeError
    else iterencode registry o
  | .tuple _ => serialize registry registry.maxRecursionDepth o
  | _ => iterencode registry o

/-! ## The decoder -/

/-- `json.loads` with an object hook, which is called on the inner dicts first. -/
def loads (hook : List (String × PyValue) → Except PyError PyValue) (j : Json) :
    Except PyError PyValue :=
  match j with
  | .null => .ok .none
  | .bool b => .ok (.bool b)
  | .int i => .ok (.int i)
  | .float r => .ok (.float r)
  | .str s => .ok (.str s)
  | .arr l => (l.mapM fun v => loads hook v).map .list
  | .obj items => (items.mapM fun e => (loads hook e.2).map fun v => (e.1, v)).bind hook
termination_by sizeOf j
decreasing_by
  · next h => exact Nat.lt_of_lt_of_le (List.sizeOf_lt_of_mem h) (by simp)
  · next h =>
    have hlt := List.sizeOf_lt_of_mem h
    have hpair : sizeOf e = 1 + sizeOf e.1 + sizeOf e.2 := by
      obtain ⟨k, v⟩ := e
      rfl
    rw [Json.obj.sizeOf_spec]
    omega

/-- `XComDecoder.object_hook`. -/
def objectHook (registry : Registry) (dct : List (String × PyValue)) : Except PyError PyValue :=
  (deserialize registry true (.dict dct)).result

/-- `XComDecoder.orm_object_hook`. -/
def ormObjectHook (registry : Registry) (dct : List (String × PyValue)) : Except PyError PyValue :=
  (deserialize registry false (.dict dct)).result

/-- `BaseXCom.serialize_value`. -/
def serializeValue (registry : Registry) (value : PyValue) : Except PyError Json :=
  xcomEncode registry value

/-- `BaseXCom.deserialize_value`, or `orm_deserialize_value`. -/
def deserializeValue (registry : Registry) (orm : Bool) (value : Json) : Except PyError PyValue :=
  loads (if orm then ormObjectHook registry else objectHook registry) value

end Airflow.Serde
