import Airflow.Authoring.Nodes
import Airflow.Lib.Levels

/-!
# Entering a setup or a teardown as a context

`push_setup_teardown_task` of `utils/setup_teardown.py`, which `with task:` calls. It looks for the
teardowns around a setup, or the setups around a teardown, level by level through the upstream and
downstream tasks; no visited task is remembered but the one that is entered.

A search is `none` as long as `fuel` levels do not end it.
-/

namespace Airflow.Authoring

/-- What is entered: a task, or a list of them. -/
inductive Operators where
  | one (task : String)
  | many (first : String) (rest : List String)
  deriving DecidableEq, Repr

namespace Operators

/-- `operator[0]` of a list. -/
def first : Operators → String
  | .one task => task
  | .many first _ => first

def toList : Operators → List String
  | .one task => [task]
  | .many first rest => first :: rest

end Operators

/-- The class attributes of `BaseSetupTeardownContext` but `context_map`. -/
structure SetupTeardownContext where
  active : Bool := false
  contextManagedSetupTask : Option Operators := none
  previousContextManagedSetupTask : List (Option Operators) := []
  contextManagedTeardownTask : Option Operators := none
  previousContextManagedTeardownTask : List (Option Operators) := []
  teardownDownstreamOfSetup : List String := []
  previousTeardownDownstreamOfSetup : List (List String) := []
  setupUpstreamOfTeardown : List String := []
  previousSetupUpstreamOfTeardown : List (List String) := []
  deriving DecidableEq, Repr

/-- `AirflowException` of `__enter__` and `ValueError` of `error`. -/
inductive ContextError where
  | onlySetupTeardownTasks
  | mixedTasks
  deriving DecidableEq, Repr

section
variable (dag : Dag) (e : Edges)

/-- What a task adds to the next level: `downstream_list + upstream_list` without the operator. -/
def neighbours (operator task : String) : List String :=
  (e.downstreamTaskIds task ++ e.upstreamTaskIds task).filter (· ≠ operator)

/-- `_get_teardowns`. -/
def getTeardowns (operator : String) (fuel : Nat) (tasks : List String) : Option (List String) :=
  Levels.search dag.isTeardown (neighbours e operator) fuel tasks

/-- `_get_setups`. -/
def getSetups (operator : String) (fuel : Nat) (tasks : List String) : Option (List String) :=
  Levels.search dag.isSetup (neighbours e operator) fuel tasks

namespace SetupTeardownContext

/-- `push_context_managed_setup_task`. -/
def pushContextManagedSetupTask (ctx : SetupTeardownContext) (task : Operators) :
    SetupTeardownContext :=
  { ctx with
    contextManagedSetupTask := some task
    previousContextManagedSetupTask :=
      if ctx.contextManagedSetupTask ≠ none ∧ ctx.contextManagedSetupTask ≠ some task then
        ctx.previousContextManagedSetupTask ++ [ctx.contextManagedSetupTask]
      else ctx.previousContextManagedSetupTask }

/-- `push_context_managed_teardown_task`. -/
def pushContextManagedTeardownTask (ctx : SetupTeardownContext) (task : Operators) :
    SetupTeardownContext :=
  { ctx with
    contextManagedTeardownTask := some task
    previousContextManagedTeardownTask :=
      if ctx.contextManagedTeardownTask ≠ none ∧ ctx.contextManagedTeardownTask ≠ some task then
        ctx.previousContextManagedTeardownTask ++ [ctx.contextManagedTeardownTask]
      else ctx.previousContextManagedTeardownTask }

/-- `_update_teardown_downstream`. -/
def updateTeardownDownstream (ctx : SetupTeardownContext) (fuel : Nat) (operator : Operators) :
    Option SetupTeardownContext :=
  (getTeardowns dag e operator.first fuel (e.downstreamTaskIds operator.first)).map fun teardowns =>
    { ctx with
      teardownDownstreamOfSetup := teardowns
      previousTeardownDownstreamOfSetup :=
        if ctx.teardownDownstreamOfSetup ≠ [] ∧ ctx.teardownDownstreamOfSetup ≠ teardowns then
          ctx.previousTeardownDownstreamOfSetup ++ [ctx.teardownDownstreamOfSetup]
        else ctx.previousTeardownDownstreamOfSetup }

/-- `_update_setup_upstream`. -/
def updateSetupUpstream (ctx : SetupTeardownContext) (fuel : Nat) (operator : Operators) :
    Option SetupTeardownContext :=
  (getSetups dag e operator.first fuel (e.upstreamTaskIds operator.first)).map fun setups =>
    { ctx with
      setupUpstreamOfTeardown := setups
      previousSetupUpstreamOfTeardown :=
        if ctx.setupUpstreamOfTeardown ≠ [] ∧ ctx.setupUpstreamOfTeardown ≠ setups then
          ctx.previousSetupUpstreamOfTeardown ++ [ctx.setupUpstreamOfTeardown]
        else ctx.previousSetupUpstreamOfTeardown }

/-- `_push_tasks`. -/
def pushTasks (ctx : SetupTeardownContext) (fuel : Nat) (operator : Operators) (setup : Bool) :
    Option (Except ContextError SetupTeardownContext) :=
  if operator.toList.any fun task => dag.isSetup task ≠ dag.isSetup operator.first then
    some (.error .mixedTasks)
  else if setup then
    ((ctx.pushContextManagedSetupTask operator).updateTeardownDownstream dag e fuel operator).map
      .ok
  else
    ((ctx.pushContextManagedTeardownTask operator).updateSetupUpstream dag e fuel operator).map .ok

/-- `push_setup_teardown_task`. -/
def pushSetupTeardownTask (ctx : SetupTeardownContext) (fuel : Nat) (operator : Operators) :
    Option (Except ContextError SetupTeardownContext) :=
  let pushed :=
    if dag.isTeardown operator.first then ctx.pushTasks dag e fuel operator false
    else if dag.isSetup operator.first then ctx.pushTasks dag e fuel operator true
    else some (.ok ctx)
  pushed.map fun result => result.map fun ctx => { ctx with active := true }

/-- `__enter__` of a task. -/
def enter (ctx : SetupTeardownContext) (fuel : Nat) (task : String) :
    Option (Except ContextError SetupTeardownContext) :=
  if !dag.isSetup task && !dag.isTeardown task then some (.error .onlySetupTeardownTasks)
  else ctx.pushSetupTeardownTask dag e fuel (.one task)

end SetupTeardownContext

end

end Airflow.Authoring
