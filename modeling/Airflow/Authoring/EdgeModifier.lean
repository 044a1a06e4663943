import Airflow.Authoring.Nodes
import Mathlib.Data.List.Dedup

/-!
# Labels on dependencies

`EdgeModifier` of `utils/edgemodifier.py` for operators, and the operators `>>` and `<<` of
`DependencyMixin`, with and without a label between the two sides. The labels themselves
(`edge_info`, and the relations that the groups keep for the graph) are left out.
-/

namespace Airflow.Authoring

/-- What a label collects: an operator or a group. -/
inductive Node where
  | task (taskId : String)
  | taskGroup (group : TaskGroup)
  deriving DecidableEq, Repr

/-- `group_id`. -/
def TaskGroup.groupId : TaskGroup → Option String
  | .root => none
  | .child groupId _ => some groupId

namespace Node

variable (dag : Dag)

/-- What a node adds to `group_ids`. -/
def groupId : Node → Option String
  | .task t => if (dag.taskGroup t).isRoot then some "root" else (dag.taskGroup t).groupId
  | .taskGroup group => group.groupId

/-- The node of `_convert_stream_to_task_groups`. -/
def convert : Node → Node
  | .task t => if (dag.taskGroup t).isRoot then .task t else .taskGroup (dag.taskGroup t)
  | .taskGroup group => .taskGroup group

def setUpstream (others : List String) (e : Edges) : Node → Edges
  | .task t => e.setUpstream t others
  | .taskGroup group => group.setUpstream dag others e

def setDownstream (others : List String) (fuel : Nat) (e : Edges) : Node → Option Edges
  | .task t => some (e.setDownstream t others)
  | .taskGroup group => group.setDownstream dag others fuel e

end Node

/-- What stands on a side of `>>`: an operator or a list of operators. -/
inductive Side where
  | task (taskId : String)
  | tasks (taskIds : List String)
  deriving DecidableEq, Repr

/-- `_make_list`. -/
def Side.makeList : Side → List String
  | .task t => [t]
  | .tasks ts => ts

/-! ## `EdgeModifier` -/

structure EdgeModifier where
  upstream : List Node
  downstream : List Node
  deriving DecidableEq, Repr

namespace EdgeModifier

/-- `Label(label)`. -/
def new : EdgeModifier := ⟨[], []⟩

variable (dag : Dag) (label : EdgeModifier)

/-- `group_ids`. -/
def groupIds : List (Option String) :=
  ((label.upstream ++ label.downstream).map (Node.groupId dag)).dedup

/-- `_convert_streams_to_task_groups`, once there are nodes on both sides. -/
def convertStreamsToTaskGroups : EdgeModifier :=
  if label.upstream.isEmpty || label.downstream.isEmpty then label
  else if (label.groupIds dag).length ≠ 1 then
    ⟨label.upstream.map (Node.convert dag), label.downstream.map (Node.convert dag)⟩
  else label

/-- `set_upstream`. -/
def setUpstream (other : Side) (e : Edges) : EdgeModifier × Edges :=
  let label := convertStreamsToTaskGroups dag
    { label with upstream := label.upstream ++ other.makeList.map .task }
  (label, label.downstream.foldl (fun e node => node.setUpstream dag other.makeList e) e)

/-- `set_downstream`. -/
def setDownstream (other : Side) (fuel : Nat) (e : Edges) : Option (EdgeModifier × Edges) := do
  let label := convertStreamsToTaskGroups dag
    { label with downstream := label.downstream ++ other.makeList.map .task }
  let e ← label.upstream.foldlM (fun e node => node.setDownstream dag other.makeList fuel e) e
  return (label, e)

end EdgeModifier

/-! ## The statements of a DAG file -/

/-- `upstream >> downstream`. Two lists have no such operator. -/
def dependency (upstream downstream : Side) (e : Edges) : Option Edges :=
  match upstream, downstream with
  | .task t, _ => some (e.setDownstream t downstream.makeList)
  | .tasks ts, .task t => some (e.setUpstream t ts)
  | .tasks _, .tasks _ => none

/-- `upstream >> Label(label) >> downstream`. With an operator on the left, `_set_relatives` calls
`set_upstream` of the label and then finds no roots there. -/
def labelled (dag : Dag) (upstream downstream : Side) (fuel : Nat) (e : Edges) : Option Edges :=
  let (label, e) := EdgeModifier.new.setUpstream dag upstream e
  (label.setDownstream dag downstream fuel e).map Prod.snd

/-- `downstream << Label(label) << upstream`. -/
def labelledBack (dag : Dag) (upstream downstream : Side) (fuel : Nat) (e : Edges) :
    Option Edges :=
  (EdgeModifier.new.setDownstream dag downstream fuel e).map fun (label, e) =>
    (label.setUpstream dag upstream e).2

end Airflow.Authoring
