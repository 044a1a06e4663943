import Airflow.Authoring.SetupTeardown
import Airflow.Lib.Dict
import Airflow.Lib.Nested

/-!
# Setup and teardown contexts of a DAG file

The rest of `utils/setup_teardown.py`: what a new task adds to `context_map`, and
`set_work_task_roots_and_leaves`, which leaving a context calls. A DAG file is a program that enters
and leaves contexts; between them it creates tasks, and marks and links tasks in any way.

Empty lists are `none` for what the context manages and `[]` for what is found around it.
-/

namespace Airflow.Authoring

open Nested

/-- What a DAG file changes: its tasks, their dependencies and `BaseSetupTeardownContext`, with
`context_map` by operator or tuple of operators. -/
structure DagFile where
  dag : Dag
  edges : Edges
  ctx : SetupTeardownContext := {}
  contextMap : Dict Operators (List String) := {}

namespace DagFile

/-! ## Tasks created in a context -/

/-- `_append_or_set_item`. -/
def appendOrSetItem (file : DagFile) (item : Operators) (task : String) : DagFile :=
  let tasks := (file.contextMap.get? item).getD []
  { file with contextMap := file.contextMap.set item (tasks ++ [task]) }

/-- `update_context_map`. -/
def updateContextMap (file : DagFile) (task : String) : DagFile :=
  if file.dag.isSetup task || file.dag.isTeardown task then file
  else
    let file :=
      match file.ctx.contextManagedSetupTask with
      | some setupTask => file.appendOrSetItem setupTask task
      | none => file
    match file.ctx.contextManagedTeardownTask with
    | some teardownTask => file.appendOrSetItem teardownTask task
    | none => file

/-- What a statement of the file does. -/
inductive Statement where
  /-- A task is created (the end of `BaseOperator.__init__`). -/
  | create (task : String)
  /-- The tasks and their dependencies are changed in another way. -/
  | author (dag : Dag) (edges : Edges)

/-- A statement between the contexts. -/
def act (file : DagFile) : Statement → DagFile
  | .create task => if file.ctx.active then file.updateContextMap task else file
  | .author dag edges => { file with dag, edges }

/-! ## Entering a context -/

/-- `__enter__` of a task, an `XComArg` or a `ContextWrapper`. -/
def enter (fuel : Nat) (operator : Operators) (file : DagFile) :
    Option (Except ContextError DagFile) :=
  if operator.toList.any fun task => !file.dag.isSetup task && !file.dag.isTeardown task then
    some (.error .onlySetupTeardownTasks)
  else
    (file.ctx.pushSetupTeardownTask file.dag file.edges fuel operator).map fun result =>
      result.map fun ctx => { file with ctx }

/-! ## Leaving a context -/

/-- `set_dependency`. -/
def setDependency (file : DagFile) (receivingTask newTask : List String) (upstream : Bool) :
    DagFile :=
  { file with edges :=
      newTask.foldl (fun edges task => edges.setRelatives task receivingTask upstream) file.edges }

/-- The tasks of an operator or a list of them. -/
def tasksOf (operators : Option Operators) : List String := (operators.map Operators.toList).getD []

/-- `pop_context_managed_setup_task`. -/
def popContextManagedSetupTask (file : DagFile) : DagFile :=
  match file.ctx.previousContextManagedSetupTask.getLast? with
  | some setupTask =>
    let ctx := { file.ctx with
      contextManagedSetupTask := setupTask
      previousContextManagedSetupTask := file.ctx.previousContextManagedSetupTask.dropLast }
    { file with ctx }.setDependency (tasksOf file.ctx.contextManagedSetupTask) (tasksOf setupTask)
      false
  | none => { file with ctx := { file.ctx with contextManagedSetupTask := none } }

/-- `pop_context_managed_teardown_task`. -/
def popContextManagedTeardownTask (file : DagFile) : DagFile :=
  match file.ctx.previousContextManagedTeardownTask.getLast? with
  | some teardownTask =>
    let ctx := { file.ctx with
      contextManagedTeardownTask := teardownTask
      previousContextManagedTeardownTask := file.ctx.previousContextManagedTeardownTask.dropLast }
    { file with ctx }.setDependency (tasksOf file.ctx.contextManagedTeardownTask)
      (tasksOf teardownTask) true
  | none => { file with ctx := { file.ctx with contextManagedTeardownTask := none } }

/-- `pop_teardown_downstream_of_setup`. -/
def popTeardownDownstreamOfSetup (file : DagFile) : DagFile :=
  match file.ctx.previousTeardownDownstreamOfSetup.getLast? with
  | some teardownTask =>
    let ctx := { file.ctx with
      teardownDownstreamOfSetup := teardownTask
      previousTeardownDownstreamOfSetup := file.ctx.previousTeardownDownstreamOfSetup.dropLast }
    { file with ctx }.setDependency file.ctx.teardownDownstreamOfSetup teardownTask true
  | none => { file with ctx := { file.ctx with teardownDownstreamOfSetup := [] } }

/-- `pop_setup_upstream_of_teardown`. -/
def popSetupUpstreamOfTeardown (file : DagFile) : DagFile :=
  match file.ctx.previousSetupUpstreamOfTeardown.getLast? with
  | some setupTask =>
    let ctx := { file.ctx with
      setupUpstreamOfTeardown := setupTask
      previousSetupUpstreamOfTeardown := file.ctx.previousSetupUpstreamOfTeardown.dropLast }
    { file with ctx }.setDependency file.ctx.setupUpstreamOfTeardown setupTask false
  | none => { file with ctx := { file.ctx with setupUpstreamOfTeardown := [] } }

/-- `context_map.pop(key, None)`. -/
def popContextMap (file : DagFile) (key : Option Operators) : DagFile :=
  match key with
  | some key => { file with contextMap := file.contextMap.erase key }
  | none => file

/-- `set_setup_teardown_relationships`. -/
def setSetupTeardownRelationships (file : DagFile) : DagFile :=
  let setupTask := file.ctx.contextManagedSetupTask
  let teardownTask := file.ctx.contextManagedTeardownTask
  let file := file.popContextManagedSetupTask.popContextManagedTeardownTask
  let file := file.popTeardownDownstreamOfSetup.popSetupUpstreamOfTeardown
  (file.popContextMap setupTask).popContextMap teardownTask

/-- `tasks_in_context`. -/
def tasksInContext (file : DagFile) (operators : Operators) : List String :=
  ((file.contextMap.get? operators).getD []).filter fun x =>
    !file.dag.isTeardown x && !file.dag.isSetup x

/-- `set_teardown_task_as_leaves`. -/
def setTeardownTaskAsLeaves (file : DagFile) (leaves : List String) : DagFile :=
  file.setDependency (if file.ctx.contextManagedTeardownTask ≠ none then
    tasksOf file.ctx.contextManagedTeardownTask else leaves) file.ctx.teardownDownstreamOfSetup true

/-- `set_setup_task_as_roots`. -/
def setSetupTaskAsRoots (file : DagFile) (roots : List String) : DagFile :=
  file.setDependency (if file.ctx.contextManagedSetupTask ≠ none then
    tasksOf file.ctx.contextManagedSetupTask else roots) file.ctx.setupUpstreamOfTeardown false

/-- The tasks in the context without an upstream task. -/
def rootsOf (file : DagFile) (tasks : List String) : List String :=
  tasks.filter fun task => (file.edges.upstreamTaskIds task).isEmpty

/-- The tasks in the context without a downstream task. -/
def leavesOf (file : DagFile) (tasks : List String) : List String :=
  tasks.filter fun task => (file.edges.downstreamTaskIds task).isEmpty

/-- The first half of `set_work_task_roots_and_leaves`. -/
def setSetupRoots (file : DagFile) (setupTask : Operators) : DagFile :=
  match file.tasksInContext setupTask with
  | [] => file
  | first :: rest =>
    let roots := file.rootsOf (first :: rest)
    let file :=
      if roots.isEmpty then file.setDependency setupTask.toList [first] true
      else file.setDependency roots setupTask.toList false
    let leaves := file.leavesOf (first :: rest)
    file.setTeardownTaskAsLeaves
      (if leaves.isEmpty then [(first :: rest).getLast (by simp)] else leaves)

/-- The second half of `set_work_task_roots_and_leaves`. -/
def setTeardownLeaves (file : DagFile) (teardownTask : Operators) : DagFile :=
  match file.tasksInContext teardownTask with
  | [] => file
  | first :: rest =>
    let leaves := file.leavesOf (first :: rest)
    let file :=
      if leaves.isEmpty then
        file.setDependency teardownTask.toList [(first :: rest).getLast (by simp)] false
      else file.setDependency leaves teardownTask.toList true
    let roots := file.rootsOf (first :: rest)
    file.setSetupTaskAsRoots (if roots.isEmpty then [first] else roots)

/-- `set_work_task_roots_and_leaves`. -/
def setWorkTaskRootsAndLeaves (file : DagFile) : DagFile :=
  let file :=
    match file.ctx.contextManagedSetupTask with
    | some setupTask => file.setSetupRoots setupTask
    | none => file
  let file :=
    match file.ctx.contextManagedTeardownTask with
    | some teardownTask => file.setTeardownLeaves teardownTask
    | none => file
  let file := file.setSetupTeardownRelationships
  { file with ctx := { file.ctx with active := false } }

/-! ## The file -/

/-- The statements of a DAG file; a context is not entered when `__enter__` raises. -/
def system (fuel : Nat) : System Statement Operators DagFile where
  act statement file := file.act statement
  enter operator file := (file.enter fuel operator).bind Except.toOption
  leave := setWorkTaskRootsAndLeaves

end DagFile

end Airflow.Authoring
