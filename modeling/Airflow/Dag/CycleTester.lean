import Airflow.Dag.Graph

/-!
# The cycle tester

`check_cycle` (`airflow/utils/dag_cycle_tester.py`): a depth-first search over the downstream edges
with an explicit stack and three statuses. It looks at the whole adjacency of the top of the stack
again after every pop.

A task id is not empty (`validate_key`), so that `not child_to_check` says that there is none.
-/

namespace Airflow
namespace CycleTester

/-- `CYCLE_NEW`, `CYCLE_IN_PROGRESS`, `CYCLE_DONE`. -/
inductive Status where
  | new
  | inProgress
  | done
  deriving DecidableEq, Repr

/-- `AirflowDagCycleException`, with the task that its text names. -/
structure AirflowDagCycleException where
  faultyTask : TaskId
  deriving DecidableEq, Repr

/-- `visited`, a `defaultdict` in which a task is new. -/
abbrev Visited := TaskId → Status

/-- `_check_adjacent_tasks`: the first untraversed child, `none` if all tasks are traversed. -/
def checkAdjacentTasks (visited : Visited) (taskId : TaskId) :
    List TaskId → Except AirflowDagCycleException (Option TaskId)
  | [] => .ok none
  | adjacent :: rest =>
    match visited adjacent with
    | .inProgress => .error ⟨taskId⟩
    | .new => .ok (some adjacent)
    | .done => checkAdjacentTasks visited taskId rest

/-- A new task is in progress from when it is at the top of the stack. -/
def enter (visited : Visited) (id : TaskId) : Visited :=
  if visited id = .new then Function.update visited id .inProgress else visited

variable (dag : Dag)

/-- `current_task.get_direct_relative_ids()` of the task with this id. -/
def adjacent (id : TaskId) : List TaskId :=
  ((dag.getTask id).map (·.directRelativeIds false)).getD []

/-- `while path_stack`, with the top of the stack first; `none` when the fuel runs out. -/
def searchLoop : Nat → Visited → List TaskId → Option (Except AirflowDagCycleException Visited)
  | _, visited, [] => some (.ok visited)
  | 0, _, _ :: _ => none
  | fuel + 1, visited, current :: pathStack =>
    let visited := enter visited current
    match checkAdjacentTasks visited current (adjacent dag current) with
    | .error e => some (.error e)
    | .ok none => searchLoop fuel (Function.update visited current .done) pathStack
    | .ok (some child) => searchLoop fuel visited (child :: current :: pathStack)

/-- `for dag_task_id in dag.task_dict.keys()`. -/
def searchFrom (fuel : Nat) (visited : Visited) :
    List TaskId → Option (Except AirflowDagCycleException Visited)
  | [] => some (.ok visited)
  | id :: ids =>
    if visited id = .done then searchFrom fuel visited ids
    else
      match searchLoop dag fuel visited [id] with
      | none => none
      | some (.error e) => some (.error e)
      | some (.ok visited) => searchFrom fuel visited ids

/-- `check_cycle`, with at most `fuel` turns of each `while` loop. -/
def checkCycle (fuel : Nat) : Option (Except AirflowDagCycleException Unit) :=
  (searchFrom dag fuel (fun _ => .new) dag.taskIds).map fun result => result.map fun _ => ()

end CycleTester
end Airflow
