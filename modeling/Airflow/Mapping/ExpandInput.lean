import Airflow.Lib.Dict

/-!
# Mapped task groups: expansion and decoding

`models/expandinput.py` (`DictOfListsExpandInput`, `MappedArgument`) for literal arguments,
the mapped groups of `utils/task_group.py`, and `TaskInstance.get_relevant_upstream_map_indexes`.
A task in nested mapped groups has one `map_index`; an argument of a group and the upstream
instances in a group are both decoded from it, by two computations.
-/

namespace Airflow.Mapping

/-- The exceptions raised while a mapped argument is decoded. -/
inductive ExpandError where
  /-- `RuntimeError("can't resolve task-mapping argument without expanding")` -/
  | notExpanded
  /-- `RuntimeError(f"cannot expand field mapped to length {mapped_length!r}")` -/
  | cannotExpandField (mappedLength : Nat)
  /-- `IndexError(f"index {map_index} is over mapped length")`, or that of a sequence. -/
  | indexOverMappedLength (mapIndex : Int)
  | keyError (key : String)
  | zeroDivision
  deriving DecidableEq, Repr

/-! ## `models/expandinput.py` -/

section
variable (Value : Type)

/-- A literal argument of `expand()`. -/
inductive Literal where
  | sequence (values : List Value)
  | dict (values : Dict String Value)

/-- What an argument resolves to: an element of a sequence, an item of a dict, or the argument
itself where it is not mapped over. -/
inductive Resolved where
  | value (v : Value)
  | item (k : String) (v : Value)
  | whole (argument : Literal Value)

/-- `DictOfListsExpandInput`: the arguments of `expand(**kwargs)` in the order of the call. -/
structure DictOfListsExpandInput where
  value : Dict String (Literal Value)

/-- `MappedArgument`: the stub that the function of a group gets for an argument. -/
structure MappedArgument where
  input : DictOfListsExpandInput Value
  key : String

end

variable {Value : Type}

/-- `len(v)`, as `_get_map_lengths` takes it of a literal. -/
def Literal.length : Literal Value → Nat
  | .sequence values => values.length
  | .dict values => values.size

/-- What is mapped over, in order. -/
def Literal.items : Literal Value → List (Resolved Value)
  | .sequence values => values.map .value
  | .dict values => values.entries.map fun e => .item e.1 e.2

theorem Literal.length_items (l : Literal Value) : l.items.length = l.length := by
  cases l <;> simp [items, length, Dict.size]

namespace DictOfListsExpandInput

variable (self : DictOfListsExpandInput Value)

/-- `_get_map_lengths` -/
def getMapLengths : List (String × Nat) := self.value.entries.map fun e => (e.1, e.2.length)

def getTotalMapLength : Nat :=
  if self.value.entries = [] then 0
  else (self.getMapLengths.map Prod.snd).foldl (· * ·) 1

/-- `_find_index_for_this_field`: the walk over the reversed arguments; `none` is `-1`. -/
def findIndexForThisField (key : String) :
    List (String × Nat) → Nat → Except ExpandError (Option Nat)
  | [], _ => .ok none
  | (mappedKey, mappedLength) :: rest, index =>
    if mappedLength < 1 then .error (.cannotExpandField mappedLength)
    else if mappedKey = key then .ok (some (index % mappedLength))
    else findIndexForThisField key rest (index / mappedLength)

/-- `_expand_mapped_field` -/
def expandMappedField (key : String) (value : Literal Value) (mapIndex : Int) :
    Except ExpandError (Resolved Value) :=
  if mapIndex < 0 then .error .notExpanded
  else match findIndexForThisField key self.getMapLengths.reverse mapIndex.toNat with
    | .error e => .error e
    | .ok none => .ok (.whole value)
    | .ok (some foundIndex) =>
      match value.items[foundIndex]? with
      | some v => .ok v
      | none => .error (.indexOverMappedLength mapIndex)

/-- `resolve`: every argument of the group is expanded, also for one of them. -/
def resolve (mapIndex : Int) : Except ExpandError (List (String × Resolved Value)) :=
  self.value.entries.mapM fun e => (e.1, ·) <$> self.expandMappedField e.1 e.2 mapIndex

end DictOfListsExpandInput

/-- `MappedArgument.resolve`: `data[self._key]`. -/
def MappedArgument.resolve (self : MappedArgument Value) (mapIndex : Int) :
    Except ExpandError (Resolved Value) :=
  match self.input.resolve mapIndex with
  | .error e => .error e
  | .ok data => (data.lookup self.key).elim (.error (.keyError self.key)) .ok

/-! ## `utils/task_group.py` -/

/-- A task group and, through `parent_group`, the groups around it. One with an `_expand_input`
is a `MappedTaskGroup`. -/
inductive TaskGroup (Value : Type) where
  | root
  | child (groupId : String) (expandInput : Option (DictOfListsExpandInput Value))
      (parentGroup : TaskGroup Value)

structure MappedTaskGroup (Value : Type) where
  groupId : String
  expandInput : DictOfListsExpandInput Value
  parentGroup : TaskGroup Value

/-- `iter_mapped_task_groups`: the closest one first. -/
def TaskGroup.iterMappedTaskGroups : TaskGroup Value → List (MappedTaskGroup Value)
  | .root => []
  | .child _ none parentGroup => parentGroup.iterMappedTaskGroups
  | .child groupId (some expandInput) parentGroup =>
    ⟨groupId, expandInput, parentGroup⟩ :: parentGroup.iterMappedTaskGroups

namespace MappedTaskGroup

variable (self : MappedTaskGroup Value)

/-- `iter_mapped_task_groups` of a mapped group, which is the first of them. -/
def iterMappedTaskGroups : List (MappedTaskGroup Value) :=
  self :: self.parentGroup.iterMappedTaskGroups

/-- The total map length of the group alone. -/
def mapLength : Nat := self.expandInput.getTotalMapLength

def getMappedTiCount : Nat :=
  (self.parentGroup.iterMappedTaskGroups.map mapLength).foldl (· * ·) self.mapLength

end MappedTaskGroup

/-! ## Operators and task instances -/

/-- An operator with the groups around it. One with an `expand_input` is a `MappedOperator`; its
constructor refuses a place in a mapped group (`NotImplementedError`). -/
structure Operator (Value : Type) where
  taskId : String
  dagId : Option String
  taskGroup : TaskGroup Value
  expandInput : Option (DictOfListsExpandInput Value)
  notInMappedGroup : expandInput.isSome → taskGroup.iterMappedTaskGroups = []

namespace Operator

variable (self : Operator Value)

def iterMappedTaskGroups : List (MappedTaskGroup Value) := self.taskGroup.iterMappedTaskGroups

/-- `get_mapped_ti_count`; `none` is `NotMapped`. -/
def getMappedTiCount : Option Nat :=
  let parentCount := self.iterMappedTaskGroups.head?.map (·.getMappedTiCount)
  match self.expandInput with
  | none => parentCount
  | some expandInput =>
    some (parentCount.elim expandInput.getTotalMapLength (· * expandInput.getTotalMapLength))

end Operator

/-- `_find_common_ancestor_mapped_group` -/
def findCommonAncestorMappedGroup (node1 node2 : Operator Value) : Option (MappedTaskGroup Value) :=
  if node1.dagId = none ∨ node2.dagId = none ∨ node1.dagId ≠ node2.dagId then none
  else node2.iterMappedTaskGroups.find? fun g =>
    g.groupId ∈ node1.iterMappedTaskGroups.map (·.groupId)

/-- The walk of `_is_further_mapped_inside` from a group to the container. -/
def TaskGroup.isMappedBelow (containerId : String) : TaskGroup Value → Bool
  | .root => false
  | .child groupId expandInput parentGroup =>
    groupId ≠ containerId && (expandInput.isSome || parentGroup.isMappedBelow containerId)

/-- `_is_further_mapped_inside` -/
def isFurtherMappedInside (operator : Operator Value) (container : MappedTaskGroup Value) : Bool :=
  operator.expandInput.isSome || operator.taskGroup.isMappedBelow container.groupId

/-- What `get_relevant_upstream_map_indexes` returns: an `int`, a `range` or `None`. -/
inductive MapIndexes where
  | index (mapIndex : Int)
  | range (start stop : Int)
  | all
  deriving DecidableEq, Repr

/-- `TaskInstance.get_relevant_upstream_map_indexes` -/
def getRelevantUpstreamMapIndexes (task : Operator Value) (mapIndex : Int)
    (upstream : Operator Value) (tiCount : Option Nat) : Except ExpandError MapIndexes :=
  let tiCount := tiCount.getD 0
  if tiCount = 0 then .ok .all
  else match findCommonAncestorMappedGroup task upstream with
    | none => .ok .all
    | some commonAncestor =>
      let ancestorTiCount := commonAncestor.getMappedTiCount
      let ancestorMapIndex := mapIndex * ancestorTiCount / tiCount
      if ¬ isFurtherMappedInside upstream commonAncestor then .ok (.index ancestorMapIndex)
      else if ancestorTiCount = 0 then .error .zeroDivision
      else
        let furtherCount := tiCount / ancestorTiCount
        let mapIndexStart := ancestorMapIndex * furtherCount
        .ok (.range mapIndexStart (mapIndexStart + furtherCount))

end Airflow.Mapping
