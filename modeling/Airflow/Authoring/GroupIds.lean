import Mathlib.Data.List.Basic

/-!
# The ids of task groups

The part of `TaskGroup.__init__` and `TaskGroup.add` (`utils/task_group.py`) that gives a group its
id in a DAG: the validation of the id, the suffix on a collision and the key in the parent group.

`used_group_ids`, which all groups of a DAG share, has the ids with the prefixes of the parents and
the ids of the joins; a new id is looked up in it without a prefix. The pattern of the suffixes is
built of the id as it is, so that whether it matches is asked of the regular expression library
(`re2Match`). `isWord` is `\w` of `re`.
-/

namespace Airflow.GroupIds

/-! ## Texts -/

/-- The text without `"__"` and digits at its end: `re2.split(r"__\d+$", text)[0]`. -/
def baseOf (text : String) : String :=
  let reversed := text.toList.reverse
  match reversed.takeWhile Char.isDigit, reversed.dropWhile Char.isDigit with
  | _ :: _, '_' :: '_' :: rest => String.ofList rest.reverse
  | _, _ => text

/-- What comes after the last `"__"` of the line. -/
def afterLast : List Char → Option (List Char)
  | [] => none
  | c :: cs =>
    if c = '\n' then none
    else
      match afterLast cs with
      | some rest => some rest
      | none => if c = '_' ∧ cs.head? = some '_' then some cs.tail else none

/-- `re2.split(r"^.+__", text)[1]`; `none` for `IndexError`. -/
def splitSuffix (text : String) : Option String :=
  match text.toList with
  | [] => none
  | c :: cs => if c = '\n' then none else (afterLast cs).map String.ofList

/-- The digits of a number, with single underscores between them. -/
def intDigits : List Char → Option Nat
  | cs => cs.foldl (fun state c =>
      match state with
      | none => none
      | some (value, afterDigit) =>
        if c.isDigit then some (10 * value + (c.toNat - '0'.toNat), true)
        else if c = '_' ∧ afterDigit then some (value, false)
        else none) (some (0, false)) |>.bind fun (value, afterDigit) =>
          if afterDigit then some value else none

/-- `int(text)`; `none` for `ValueError`. -/
def int (text : String) : Option Int :=
  let stripped := ((text.toList.dropWhile Char.isWhitespace).reverse.dropWhile
    Char.isWhitespace).reverse
  match stripped with
  | '-' :: digits => (intDigits digits).map fun n => -(n : Int)
  | '+' :: digits => (intDigits digits).map Int.ofNat
  | digits => (intDigits digits).map Int.ofNat

/-! ## Groups -/

/-- A task group: its id without the prefix (`_group_id`), whether it prefixes the ids of its
children, and its parent. -/
inductive TaskGroup where
  | root
  | child (label : String) (prefixGroupId : Bool) (parent : TaskGroup)
  deriving DecidableEq, Repr

namespace TaskGroup

/-- `prefix_group_id`, which is set for the root. -/
def prefixGroupId : TaskGroup → Bool
  | .root => true
  | .child _ prefixGroupId _ => prefixGroupId

/-- `_group_id`. -/
def label : TaskGroup → Option String
  | .root => none
  | .child label _ _ => some label

def parent : TaskGroup → Option TaskGroup
  | .root => none
  | .child _ _ parent => some parent

/-- `group_id`. -/
def groupId : TaskGroup → Option String
  | .root => none
  | .child label _ parent =>
    if parent.prefixGroupId && parent.label.any (· ≠ "") then
      -- `child_id` of the parent
      match parent.groupId with
      | some groupId => if groupId ≠ "" then some (groupId ++ "." ++ label) else some label
      | none => some label
    else some label

end TaskGroup

/-- `DuplicateTaskIdFound` with its text, and the other exceptions of a creation. -/
inductive Error where
  | duplicateTaskIdFound (message : String)
  | invalidGroupId
  | pattern
  | indexError
  | valueError
  deriving DecidableEq, Repr

/-- The groups of a DAG with the ids that are used (but `None`), and the exceptions that creations
raised. -/
structure Groups where
  groups : List TaskGroup := [.root]
  usedGroupIds : List String := []
  raised : List Error := []

/-- The keys of `children` of a group. -/
def Groups.children (s : Groups) (group : TaskGroup) : List String :=
  (s.groups.filter fun g => g.parent = some group).filterMap TaskGroup.groupId

section
variable (isWord : Char → Bool) (re2Match : String → String → Option Bool)

/-! ## The id of a new group -/

/-- `GROUP_KEY_REGEX.match`; its `$` also matches before a newline at the end. -/
def matchesGroupKey (k : String) : Bool :=
  let chars := k.toList
  let line := if chars.getLast? = some '\n' then chars.dropLast else chars
  !line.isEmpty && line.all fun c => isWord c || c = '-'

/-- `validate_group_key`, or the checks of an id that is not used as a prefix. -/
def validate (groupId : String) (prefixGroupId : Bool) : Bool :=
  if prefixGroupId then groupId.length ≤ 200 && matchesGroupKey isWord groupId
  else groupId ≠ ""

/-- `int(re2.split(...)[1])` of the used ids that the pattern of the base matches; `re2Match` is
`none` when the pattern is not one. -/
def suffixesOf (base : String) : List String → Except Error (List Int)
  | [] => .ok []
  | usedGroupId :: rest =>
    match re2Match base usedGroupId with
    | none => .error .pattern
    | some false => suffixesOf base rest
    | some true =>
      match splitSuffix usedGroupId with
      | none => .error .indexError
      | some suffix =>
        match int suffix with
        | none => .error .valueError
        | some n => (suffixesOf base rest).map (n :: ·)

/-- `sorted(suffixes)[-1]`, with a suffix in hand. -/
def largest (n : Int) : List Int → Int
  | [] => n
  | m :: rest => largest (if n ≤ m then m else n) rest

/-- `_check_for_group_id_collisions`: `_group_id` after it. -/
def checkForGroupIdCollisions (usedGroupIds : List String) (groupId : String)
    (addSuffixOnCollision : Bool) : Except Error String :=
  if groupId ∈ usedGroupIds then
    if !addSuffixOnCollision then
      .error (.duplicateTaskIdFound s!"group_id '{groupId}' has already been added to the DAG")
    else
      let base := baseOf groupId
      match suffixesOf re2Match base usedGroupIds with
      | .error e => .error e
      | .ok [] => .ok (groupId ++ "__1")
      | .ok (n :: suffixes) => .ok (base ++ "__" ++ toString (largest n suffixes + 1))
  else .ok groupId

/-! ## Creations -/

/-- The creation of a group in a group of the DAG. -/
structure Creation where
  groupId : String
  prefixGroupId : Bool
  parent : TaskGroup

/-- `TaskGroup.__init__`. -/
def create (s : Groups) (creation : Creation) (addSuffixOnCollision : Bool) :
    Except Error Groups :=
  if !validate isWord creation.groupId creation.prefixGroupId then .error .invalidGroupId
  else
    match checkForGroupIdCollisions re2Match s.usedGroupIds creation.groupId
      addSuffixOnCollision with
    | .error e => .error e
    | .ok label =>
      let group := TaskGroup.child label creation.prefixGroupId creation.parent
      let key := group.groupId.getD ""
      if key ∈ s.children creation.parent then
        .error (.duplicateTaskIdFound s!"Task Group id '{key}' has already been added to the DAG")
      else
        .ok { s with
          groups := s.groups ++ [group]
          usedGroupIds := s.usedGroupIds ++
            [key, key ++ ".downstream_join_id", key ++ ".upstream_join_id"] }

/-- A creation in a run; the parent is a group of the DAG. An exception leaves the groups as they
are. -/
def step (s : Groups) (creation : Creation) : Groups :=
  if creation.parent ∈ s.groups then
    match create isWord re2Match s creation true with
    | .ok s => s
    | .error e => { s with raised := s.raised ++ [e] }
  else s

end

/-- The full ids of the groups. -/
def Groups.groupIds (s : Groups) : List String := s.groups.filterMap TaskGroup.groupId

end Airflow.GroupIds
