import Airflow.Lib.Closure
import Mathlib.Logic.Function.Basic

/-!
# Tasks, task groups and dependencies in a DAG file

`DAGNode._set_relatives` of `models/taskmixin.py` and, of `utils/task_group.py`, the roots and
leaves of a group and its `_set_relatives`. The tasks of a DAG and their places in groups are
fixed; `Edges` is what setting dependencies changes.

`get_roots` and `get_leaves` are generators: the dependencies of one task are set before the next
one is looked for.
-/

namespace Airflow.Authoring

/-! ## The tasks of a DAG -/

/-- A task group and, through `task_group`, the groups around it. -/
inductive TaskGroup where
  | root
  | child (groupId : String) (taskGroup : TaskGroup)
  deriving DecidableEq, Repr

/-- `is_root`. -/
def TaskGroup.isRoot : TaskGroup → Bool
  | .root => true
  | .child .. => false

/-- The group and the groups around it. -/
def TaskGroup.enclosing : TaskGroup → List TaskGroup
  | .root => [.root]
  | .child groupId taskGroup => .child groupId taskGroup :: taskGroup.enclosing

/-- The tasks, in the order in which the root group yields them, with the group of each. The
setters of `is_setup` and `is_teardown` refuse a task that is the other one. -/
structure Dag where
  taskIds : List String
  taskGroup : String → TaskGroup
  isSetup : String → Bool
  isTeardown : String → Bool
  taskIds_nodup : taskIds.Nodup
  not_both : ∀ t, isSetup t = true → isTeardown t = false

/-- `list(group)`. -/
def Dag.tasksOf (dag : Dag) (group : TaskGroup) : List String :=
  dag.taskIds.filter fun t => (dag.taskGroup t).enclosing.contains group

/-! ## Dependencies -/

/-- `upstream_task_ids` and `downstream_task_ids` of every task, each in the order in which the
set is iterated. -/
structure Edges where
  upstreamTaskIds : String → List String
  downstreamTaskIds : String → List String
  mirror : ∀ a b, b ∈ downstreamTaskIds a ↔ a ∈ upstreamTaskIds b

namespace Edges

def empty : Edges := ⟨fun _ => [], fun _ => [], by simp⟩

/-- `a.downstream_task_ids.add(b)` and `b.upstream_task_ids.add(a)`. -/
def add (e : Edges) (a b : String) : Edges where
  upstreamTaskIds := Function.update e.upstreamTaskIds b ((e.upstreamTaskIds b).insert a)
  downstreamTaskIds := Function.update e.downstreamTaskIds a ((e.downstreamTaskIds a).insert b)
  mirror := by
    intro x y
    have hmirror := e.mirror x y
    by_cases hx : x = a <;> by_cases hy : y = b <;>
      simp_all [Function.update_apply]

/-- `DAGNode._set_relatives` of an operator, for a list of operators. -/
def setRelatives (e : Edges) (self : String) (taskList : List String) (upstream : Bool) : Edges :=
  taskList.foldl (fun e task => if upstream then e.add task self else e.add self task) e

def setUpstream (e : Edges) (self : String) (others : List String) : Edges :=
  e.setRelatives self others true

def setDownstream (e : Edges) (self : String) (others : List String) : Edges :=
  e.setRelatives self others false

end Edges

/-! ## `utils/task_group.py` -/

section
variable (dag : Dag) (ids : List String)

/-- `has_non_teardown_downstream`. -/
def hasNonTeardownDownstream (e : Edges) (task exclude : String) : Bool :=
  (e.downstreamTaskIds task).any fun downTask =>
    downTask ≠ exclude && ids.contains downTask && !dag.isTeardown downTask

/-- The body of the loop of `recurse_for_first_non_teardown`, with `yielded` for what is done with
a task when it is yielded. -/
def visitUpstream (yielded : String → Edges → Edges) (recurse : String → Edges → Option Edges)
    (task : String) (e : Edges) (upstreamTask : String) : Option Edges :=
  if !ids.contains upstreamTask then some e
  else if dag.isTeardown upstreamTask then recurse upstreamTask e
  else if dag.isTeardown task && dag.isSetup upstreamTask then some e
  else if hasNonTeardownDownstream dag ids e upstreamTask task then some e
  else some (yielded upstreamTask e)

/-- `recurse_for_first_non_teardown`. -/
def recurseForFirstNonTeardown (yielded : String → Edges → Edges) :
    Nat → String → Edges → Option Edges
  | 0, _, _ => none
  | fuel + 1, task, e =>
    (e.upstreamTaskIds task).foldlM
      (visitUpstream dag ids yielded (recurseForFirstNonTeardown yielded fuel) task) e

/-- The body of the loop of `get_leaves`. -/
def visitTask (yielded : String → Edges → Edges) (fuel : Nat) (e : Edges) (task : String) :
    Option Edges :=
  if (e.downstreamTaskIds task).any ids.contains then some e
  else if !dag.isTeardown task then some (yielded task e)
  else recurseForFirstNonTeardown dag ids yielded fuel task e

/-- `get_leaves`. -/
def forLeaves (yielded : String → Edges → Edges) (fuel : Nat) (e : Edges) : Option Edges :=
  ids.foldlM (visitTask dag ids yielded fuel) e

/-- `get_roots`. -/
def forRoots (yielded : String → Edges → Edges) (e : Edges) : Edges :=
  ids.foldl (fun e task =>
    if (e.upstreamTaskIds task).any ids.contains then e else yielded task e) e

end

namespace TaskGroup

variable (dag : Dag) (self : TaskGroup)

/-- `_set_relatives` with `upstream`. -/
def setUpstream (others : List String) (e : Edges) : Edges :=
  forRoots (dag.tasksOf self) (fun task e => e.setUpstream task others) e

/-- `_set_relatives` without `upstream`; the recursion of `get_leaves` is bounded by `fuel`. -/
def setDownstream (others : List String) (fuel : Nat) (e : Edges) : Option Edges :=
  forLeaves dag (dag.tasksOf self) (fun task e => e.setDownstream task others) fuel e

end TaskGroup

end Airflow.Authoring
