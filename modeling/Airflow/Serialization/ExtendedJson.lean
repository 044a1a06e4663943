import Airflow.Lib.JsonFormat
import Airflow.Serialization.Params

/-!
# The `ExtendedJSON` column

`ExtendedJSON` of `airflow/utils/sqlalchemy.py` with the JSON type under it, and the columns of this
type that a deferred task uses: `Trigger.kwargs` and `TaskInstance.next_kwargs`, from `_defer_task`
over `Trigger.submit_event` to `resume_execution`. A string is a list of Unicode characters, without
lone halves of surrogate pairs; the interpreter's own limits on the depth of a value and on the
digits of an integer are left out.
-/

namespace Airflow.ExtendedJson

open Params
open Serde (PyValue hasKey)
open JsonFormat (FloatText isFloatText dumps loads)

/-! ## Python values as JSON documents -/

/-- `d[k] = v`. -/
def setItem (d : List (String × PyValue)) (k : String) (v : PyValue) : List (String × PyValue) :=
  if hasKey d k then d.map fun e => if e.1 = k then (k, v) else e else d ++ [(k, v)]

/-- How `json` writes a float, from its `repr`. -/
def floatText (repr : String) : Option FloatText :=
  let text := if repr = "nan" then "NaN" else if repr = "inf" then "Infinity"
    else if repr = "-inf" then "-Infinity" else repr
  if h : isFloatText text.toList = true then some ⟨text.toList, h⟩ else none

/-- The `repr` of a float that `json` has read. -/
def floatRepr (x : FloatText) : String :=
  let text := String.ofList x.1
  if text = "NaN" then "nan" else if text = "Infinity" then "inf"
  else if text = "-Infinity" then "-inf" else text

mutual

/-- The document that `json.dumps` writes; `none` for `TypeError`. -/
def toJson : PyValue → Option JsonFormat.Value
  | .none => some .null
  | .bool b => some (.bool b)
  | .int i => some (.int i)
  | .float repr => (floatText repr).map .float
  | .str s => some (.str s)
  | .list l | .tuple l => (toJsonAll l).map .arr
  | .dict items => (toJsonItems items).map .obj
  | .set _ | .frozenset _ | .object _ => none

def toJsonAll : List PyValue → Option (List JsonFormat.Value)
  | [] => some []
  | v :: l => do return (← toJson v) :: (← toJsonAll l)

def toJsonItems : List (String × PyValue) → Option (List (String × JsonFormat.Value))
  | [] => some []
  | (k, v) :: items => do return (k, ← toJson v) :: (← toJsonItems items)

end

mutual

/-- What `json.loads` makes of a document. -/
def fromJson : JsonFormat.Value → PyValue
  | .null => .none
  | .bool b => .bool b
  | .int i => .int i
  | .float x => .float (floatRepr x)
  | .str s => .str s
  | .arr l => .list (fromJsonAll l)
  | .obj items => .dict (fromJsonItems [] items)

def fromJsonAll : List JsonFormat.Value → List PyValue
  | [] => []
  | v :: l => fromJson v :: fromJsonAll l

/-- The members are set one after the other. -/
def fromJsonItems (d : List (String × PyValue)) :
    List (String × JsonFormat.Value) → List (String × PyValue)
  | [] => d
  | (k, v) :: items => fromJsonItems (setItem d k (fromJson v)) items

end

/-! ## `ExtendedJSON` -/

/-- What is in the column: `NULL`, or the text of a document. -/
abbrev Cell := Option String

inductive ColumnError where
  /-- `json.dumps` raises `TypeError`. -/
  | notSerializable
  | jsonDecodeError
  | notDict
  | value (e : PyError)

section
variable (other : PyValue → PyValue)

/-- `process_bind_param`, and the JSON type. -/
def processBindParam : PyValue → Except ColumnError Cell
  | .none => .ok none
  | value =>
    match toJson (serialize other value) with
    | some j => .ok (some (dumps j))
    | none => .error .notSerializable

/-- The JSON type, and `process_result_value`. -/
def processResultValue : Cell → Except ColumnError PyValue
  | none => .ok .none
  | some text =>
    match loads text with
    | none => .error .jsonDecodeError
    | some .null => .ok .none
    | some j => (deserialize (fromJson j)).mapError .value

/-! ## Deferred tasks -/

/-- The exception `TaskDeferred`, with what `trigger.serialize()` returns. -/
structure TaskDeferred where
  classpath : String
  triggerKwargs : List (String × PyValue)
  methodName : String
  kwargs : Option (List (String × PyValue))

/-- The rows of the trigger and of the task instance. -/
structure Deferral where
  classpath : String
  kwargs : Cell
  nextMethod : String
  nextKwargs : Cell

/-- `_defer_task`. -/
def deferTask (defer : TaskDeferred) : Except ColumnError Deferral := do
  return {
    classpath := defer.classpath
    kwargs := ← processBindParam other (.dict defer.triggerKwargs)
    nextMethod := defer.methodName
    nextKwargs := ← processBindParam other (.dict (defer.kwargs.getD [])) }

/-- `next_kwargs or {}`. -/
def nextKwargsOf (cell : Cell) : Except ColumnError (List (String × PyValue)) := do
  match ← processResultValue cell with
  | .none => return []
  | .dict items => return items
  | _ => .error .notDict

/-- What `Trigger.submit_event` does to a task instance. -/
def submitEvent (payload : PyValue) (row : Deferral) : Except ColumnError Deferral := do
  let nextKwargs ← nextKwargsOf row.nextKwargs
  return { row with
    nextKwargs := ← processBindParam other (.dict (setItem nextKwargs "event" payload)) }

/-! ## What is kept -/

/-- The value comes back, and so it does from the column. -/
def RoundTrips (v : PyValue) : Prop :=
  ∃ v', deserialize (serialize other v) = .ok v' ∧ Same v' v ∧
    ∃ cell, processBindParam other v = .ok cell ∧ processResultValue cell = .ok v'

/-- The trigger is made with the arguments that it was deferred with, and the method that resumes
the task is called with those of the task and the event. -/
def Delivers (defer : TaskDeferred) (payload : PyValue) : Prop :=
  ∃ row row' triggerKwargs kwargs,
    deferTask other defer = .ok row ∧
    processResultValue row.kwargs = .ok (.dict triggerKwargs) ∧
    Same (.dict triggerKwargs) (.dict defer.triggerKwargs) ∧
    submitEvent other payload row = .ok row' ∧
    row'.nextMethod = defer.methodName ∧
    nextKwargsOf row'.nextKwargs = .ok kwargs ∧
    Same (.dict kwargs) (.dict (setItem (defer.kwargs.getD []) "event" payload))

end

end Airflow.ExtendedJson
