import Airflow.DagRun.Dependencies
import Mathlib.Data.List.Sort

/-!
# XCom references and their values

The `XComArg` classes of `models/xcom_arg.py` as the worker uses them: `resolve` pulls the values
with `TaskInstance.xcom_pull`, and `_MapResult` and `_ZipResult` compute an element when it is asked
for. What the scheduler reads of a reference is its `Airflow.XComArg` (`XComArg.toArg`).

The callables of `map()` are user code: `call` says what each returns or raises. The tables have the
rows of one run, with the values as they are deserialized.
-/

namespace Airflow.XCom

/-! ## Values -/

/-- The exceptions of a subscript, of `resolve`, and those that user code raises. -/
inductive PyError where
  | indexError
  | keyError
  | typeError
  | valueError
  | xcomNotFound
  | xcomForMappingNotPushed
  | unmappableXComTypePushed
  | unmappableXComLengthPushed
  | user (name : String)
  deriving DecidableEq, Repr

/-- A Python value. `object` stands for the instances of all other classes. -/
inductive Value where
  | notset
  | none
  | bool (b : Bool)
  | int (i : Int)
  | float (repr : String)
  | str (s : String)
  | list (items : List Value)
  | tuple (items : List Value)
  | dict (items : List (Value × Value))
  | object (id : Nat)

namespace Value

/-- `value is None`. -/
def isNone : Value → Bool
  | .none => true
  | _ => false

/-- The value is the dict key `i`. -/
def isKey (i : Nat) : Value → Bool
  | .bool b => i = b.toNat
  | .int j => j = i
  | .float repr => repr = toString i ++ ".0"
  | _ => false

/-- `isinstance(value, (Sequence, dict))`. -/
def isSequenceOrDict : Value → Bool
  | .str _ | .list _ | .tuple _ | .dict _ => true
  | _ => false

/-- `_is_mappable_value`. -/
def isMappable : Value → Bool
  | .list _ | .tuple _ | .dict _ => true
  | _ => false

/-- `list(value)`; a dict iterates over its keys. -/
def iterated : Value → List Value
  | .str s => s.toList.map fun c => .str c.toString
  | .list items | .tuple items => items
  | .dict items => items.map Prod.fst
  | _ => []

/-- `len(value)`, of a sequence or dict. -/
def len (value : Value) : Nat := value.iterated.length

/-- The `index`-th element of a sequence. -/
def subscript (items : List Value) (index : Nat) : Except PyError Value :=
  items[index]?.elim (.error .indexError) .ok

/-- `value[index]`. -/
def getItem (index : Nat) : Value → Except PyError Value
  | .dict items => (items.find? (·.1.isKey index)).elim (.error .keyError) (.ok ·.2)
  | .str s => subscript (Value.str s).iterated index
  | .list items | .tuple items => subscript items index
  | _ => .error .typeError

end Value

/-! ## The database -/

def XCOM_RETURN_KEY : String := "return_value"

structure XComRow where
  taskId : TaskId
  mapIndex : Int
  key : String
  value : Value

structure TaskMapRow where
  taskId : TaskId
  mapIndex : Int
  length : Nat

/-- `xcom` and `task_map`, the XComs from the latest one. -/
structure Tables where
  xcoms : List XComRow
  taskMaps : List TaskMapRow

/-- `_record_task_map_for_downstreams` of a task that another is mapped over: the row merged. -/
def recordTaskMapForDownstreams (maxMapLength : Nat) (operator : Operator) (mapIndex : Int)
    (value : Value) : Except PyError (Option TaskMapRow) :=
  if operator.isMapped then .ok none
  else if value.isNone then .error .xcomForMappingNotPushed
  else if !value.isMappable then .error .unmappableXComTypePushed
  else if value.len > maxMapLength then .error .unmappableXComLengthPushed
  else .ok (some ⟨operator.taskId, mapIndex, value.len⟩)

/-- What `get_task_map_length` reads: the counts and lengths of its queries. -/
def Tables.runData (tables : Tables) : RunData where
  taskMapLength t := (tables.taskMaps.find? fun row => row.taskId = t ∧ row.mapIndex < 0).map
    (·.length)
  xcomCount t := tables.xcoms.countP fun row =>
    row.taskId = t ∧ row.mapIndex ≥ 0 ∧ row.key = XCOM_RETURN_KEY

/-- What `xcom_pull` returns: the default, one value, or a `LazyXComAccess` of the values. -/
inductive Pulled where
  | default
  | value (value : Value)
  | lazyXComAccess (items : List Value)

/-- The rows of `XCom.get_many`. -/
def Tables.getMany (tables : Tables) (taskId : TaskId) (key : String)
    (mapIndexes : Option MapIndexes) : List XComRow :=
  tables.xcoms.filter fun row =>
    row.taskId = taskId ∧ (key = "" ∨ row.key = key) ∧ mapIndexes.all (·.contains row.mapIndex)

/-- `LazyXComAccess.build_from_xcom_query` of the query in the order of the map indexes. -/
def lazyByMapIndex (query : List XComRow) : Pulled :=
  .lazyXComAccess ((query.insertionSort (·.mapIndex ≤ ·.mapIndex)).map (·.value))

/-- `xcom_pull` of one task. -/
def Tables.xcomPull (tables : Tables) (taskId : TaskId) (key : String)
    (mapIndexes : Option MapIndexes) : Pulled :=
  let query := tables.getMany taskId key mapIndexes
  match mapIndexes with
  | some (.range ..) => lazyByMapIndex query
  | _ =>
    match query.head? with
    | none => .default
    | some first =>
      if mapIndexes.isSome ∨ first.mapIndex < 0 then .value first.value else lazyByMapIndex query

/-! ## References -/

/-- `PlainXComArg`, `MapXComArg`, and `ZipXComArg` of `arg.zip(*others, fillvalue=fillvalue)`, without
a fill value if it is not set. -/
inductive XComArg (F : Type) where
  | plain (operator : Operator) (key : String)
  | map (arg : XComArg F) (callables : List F)
  | zip (arg : XComArg F) (others : List (XComArg F)) (fillvalue : Option Value)

variable {F : Type}

mutual

/-- `iter_references`. -/
def XComArg.iterReferences : XComArg F → List (Operator × String)
  | .plain operator key => [(operator, key)]
  | .map arg _ => arg.iterReferences
  | .zip arg others _ => arg.iterReferences ++ XComArg.allReferences others

def XComArg.allReferences : List (XComArg F) → List (Operator × String)
  | [] => []
  | arg :: args => arg.iterReferences ++ XComArg.allReferences args

end

mutual

/-- What the scheduler reads of a reference. -/
def XComArg.toArg : XComArg F → Airflow.XComArg
  | .plain operator _ => .plain operator.taskId operator.isMapped
  | .map arg _ => .map arg.toArg
  | .zip arg others fillvalue => .zip (arg.toArg :: XComArg.toArgs others) fillvalue.isSome

def XComArg.toArgs : List (XComArg F) → List Airflow.XComArg
  | [] => []
  | arg :: args => arg.toArg :: XComArg.toArgs args

end

/-- `get_task_map_length`. -/
def XComArg.getTaskMapLength (tables : Tables) (s : Session) (arg : XComArg F) : Option Nat :=
  arg.toArg.getTaskMapLength tables.runData s

/-! ## Values of references -/

/-- What `resolve` returns. -/
inductive Resolved (F : Type) where
  | value (value : Value)
  | lazyXComAccess (items : List Value)
  | mapResult (container : Resolved F) (callables : List F)
  | zipResult (first : Resolved F) (rest : List (Resolved F)) (fillvalue : Option Value)

namespace Resolved

/-- `isinstance(value, (Sequence, dict))`. -/
def isSequenceOrDict : Resolved F → Bool
  | .value v => v.isSequenceOrDict
  | _ => true

mutual

/-- `__len__`. -/
def len : Resolved F → Nat
  | .value v => v.len
  | .lazyXComAccess items => items.length
  | .mapResult container _ => container.len
  | .zipResult first rest fillvalue =>
    if fillvalue.isSome then (lens rest).foldl max first.len
    else (lens rest).foldl min first.len

def lens : List (Resolved F) → List Nat
  | [] => []
  | container :: containers => container.len :: lens containers

end

end Resolved

/-- `_get_or_fill`, after the subscript. -/
def getOrFill (fillvalue : Value) : Except PyError Value → Except PyError Value
  | .error .indexError | .error .keyError => .ok fillvalue
  | result => result

variable (call : F → Value → Except PyError Value)

/-- The callables of a `_MapResult`, applied one after the other. -/
def applyAll (callables : List F) (value : Value) : Except PyError Value :=
  callables.foldlM (fun value f => call f value) value

namespace Resolved

mutual

/-- `__getitem__`. -/
def getItem (index : Nat) : Resolved F → Except PyError Value
  | .value v => v.getItem index
  | .lazyXComAccess items => Value.subscript items index
  | .mapResult container callables => do applyAll call callables (← container.getItem index)
  | .zipResult first rest fillvalue =>
    if index ≥ (Resolved.zipResult first rest fillvalue).len then .error .indexError
    else do
      let item ← getOrFill (fillvalue.getD .notset) (first.getItem index)
      let items ← getItems (fillvalue.getD .notset) index rest
      return .tuple (item :: items)

/-- The elements of the containers at `index`, or the fill value. -/
def getItems (fillvalue : Value) (index : Nat) : List (Resolved F) → Except PyError (List Value)
  | [] => .ok []
  | container :: containers => do
    let item ← getOrFill fillvalue (container.getItem index)
    let items ← getItems fillvalue index containers
    return item :: items

end

end Resolved

/-- The task instance that resolves, its operator, and `expanded_ti_count`. -/
structure Context where
  ti : TIRef
  task : Operator
  expandedTiCount : Option Nat
  multipleOutputs : TaskId → Bool

variable (tables : Tables) (s : Session) (context : Context)

/-- `PlainXComArg.resolve`. -/
def resolvePlain (operator : Operator) (key : String) : Except PyError (Resolved F) :=
  let mapIndexes := getRelevantUpstreamMapIndexes tables.runData s context.ti context.task operator
    (context.expandedTiCount.getD 0)
  match tables.xcomPull operator.taskId key mapIndexes with
  | .value v => .ok (.value v)
  | .lazyXComAccess items => .ok (.lazyXComAccess items)
  | .default =>
    if key = XCOM_RETURN_KEY ∨ context.multipleOutputs operator.taskId then .ok (.value .none)
    else .error .xcomNotFound

mutual

/-- `resolve`. -/
def XComArg.resolve : XComArg F → Except PyError (Resolved F)
  | .plain operator key => resolvePlain tables s context operator key
  | .map arg callables => do
    let value ← arg.resolve
    if !value.isSequenceOrDict then .error .valueError
    else return .mapResult value callables
  | .zip arg others fillvalue => do
    let value ← arg.resolve
    let values ← XComArg.resolveAll others
    if !(value :: values).all (·.isSequenceOrDict) then .error .valueError
    else return .zipResult value values fillvalue

def XComArg.resolveAll : List (XComArg F) → Except PyError (List (Resolved F))
  | [] => .ok []
  | arg :: args => do
    let value ← arg.resolve
    let values ← XComArg.resolveAll args
    return value :: values

end

end Airflow.XCom
