import Airflow.Authoring.Contexts

/-!
# Which setup and teardown contexts nest like a stack

The four values of `BaseSetupTeardownContext` are registers of a DAG file: a setup context pushes
to two of them and a teardown context to the other two, and leaving a context pops all four. So they
are restored when every context is entered where each register keeps its value
(`contexts_restore_iff`).
-/

namespace Airflow.Authoring.DagFile

open Nested

variable {file file' : DagFile} {operator : Operators} {fuel : Nat} {ctx : SetupTeardownContext}

/-! ## The registers -/

/-- The context-managed setup. -/
def setupTask (file : DagFile) : Saved (Option Operators) :=
  ⟨file.ctx.contextManagedSetupTask, file.ctx.previousContextManagedSetupTask⟩

/-- The context-managed teardown. -/
def teardownTask (file : DagFile) : Saved (Option Operators) :=
  ⟨file.ctx.contextManagedTeardownTask, file.ctx.previousContextManagedTeardownTask⟩

/-- The teardown downstream of the setup. -/
def teardownDownstream (file : DagFile) : Saved (List String) :=
  ⟨file.ctx.teardownDownstreamOfSetup, file.ctx.previousTeardownDownstreamOfSetup⟩

/-- The setup upstream of the teardown. -/
def setupUpstream (file : DagFile) : Saved (List String) :=
  ⟨file.ctx.setupUpstreamOfTeardown, file.ctx.previousSetupUpstreamOfTeardown⟩

/-- A teardown is entered. -/
def EntersTeardown (file : DagFile) (operator : Operators) : Bool :=
  file.dag.isTeardown operator.first

/-- What entering pushes as the context-managed setup. -/
def pushedSetup (operator : Operators) (file : DagFile) : Option (Option Operators) :=
  if file.EntersTeardown operator then none else some (some operator)

/-- What entering pushes as the context-managed teardown. -/
def pushedTeardown (operator : Operators) (file : DagFile) : Option (Option Operators) :=
  if file.EntersTeardown operator then some (some operator) else none

/-- What entering pushes as the teardown downstream of the setup. -/
def pushedTeardowns (fuel : Nat) (operator : Operators) (file : DagFile) : Option (List String) :=
  if file.EntersTeardown operator then none
  else getTeardowns file.dag file.edges operator.first fuel
    (file.edges.downstreamTaskIds operator.first)

/-- What entering pushes as the setup upstream of the teardown. -/
def pushedSetups (fuel : Nat) (operator : Operators) (file : DagFile) : Option (List String) :=
  if file.EntersTeardown operator then
    getSetups file.dag file.edges operator.first fuel (file.edges.upstreamTaskIds operator.first)
  else none

/-! ## Between the contexts -/

@[simp] theorem appendOrSetItem_ctx (item : Operators) (task : String) :
    (file.appendOrSetItem item task).ctx = file.ctx := rfl

theorem updateContextMap_ctx (task : String) : (file.updateContextMap task).ctx = file.ctx := by
  simp only [updateContextMap]
  split
  · rfl
  · split <;> split <;> rfl

theorem act_ctx (statement : Statement) : (file.act statement).ctx = file.ctx := by
  cases statement with
  | create task =>
    simp only [act]
    split
    · exact updateContextMap_ctx task
    · rfl
  | author dag edges => rfl

/-! ## Entering -/

/-- What entering a context does to the registers. -/
structure Entered (fuel : Nat) (operator : Operators) (file file' : DagFile) : Prop where
  setupTask : file'.setupTask = file.setupTask.enter none (pushedSetup operator file)
  teardownTask : file'.teardownTask = file.teardownTask.enter none (pushedTeardown operator file)
  teardownDownstream : file'.teardownDownstream =
    file.teardownDownstream.enter [] (pushedTeardowns fuel operator file)
  setupUpstream : file'.setupUpstream =
    file.setupUpstream.enter [] (pushedSetups fuel operator file)

theorem pushTasks_teardown (hpush : file.ctx.pushTasks file.dag file.edges fuel operator false =
      some (.ok ctx)) (hteardown : file.EntersTeardown operator = true) :
    Entered fuel operator file { file with ctx := { ctx with active := true } } := by
  simp only [SetupTeardownContext.pushTasks, SetupTeardownContext.updateSetupUpstream] at hpush
  split at hpush
  · cases hpush
  · cases hsetups : getSetups file.dag file.edges operator.first fuel
        (file.edges.upstreamTaskIds operator.first) with
    | none => simp [hsetups] at hpush
    | some setups =>
      simp only [hsetups, Option.map_some, Bool.false_eq_true, if_false, Option.some.injEq,
        Except.ok.injEq] at hpush
      subst hpush
      constructor
      · simp only [pushedSetup, hteardown, if_true]
        rfl
      · simp only [pushedTeardown, hteardown, if_true]
        rfl
      · simp only [pushedTeardowns, hteardown, if_true]
        rfl
      · simp only [pushedSetups, hteardown, if_true, hsetups]
        rfl

theorem pushTasks_setup (hpush : file.ctx.pushTasks file.dag file.edges fuel operator true =
      some (.ok ctx)) (hteardown : file.EntersTeardown operator = false) :
    Entered fuel operator file { file with ctx := { ctx with active := true } } := by
  simp only [SetupTeardownContext.pushTasks, SetupTeardownContext.updateTeardownDownstream] at hpush
  split at hpush
  · cases hpush
  · cases hteardowns : getTeardowns file.dag file.edges operator.first fuel
        (file.edges.downstreamTaskIds operator.first) with
    | none => simp [hteardowns] at hpush
    | some teardowns =>
      simp only [hteardowns, Option.map_some, if_true, Option.some.injEq, Except.ok.injEq] at hpush
      subst hpush
      constructor
      · simp only [pushedSetup, hteardown]
        rfl
      · simp only [pushedTeardown, hteardown]
        rfl
      · simp only [pushedTeardowns, hteardown, hteardowns]
        rfl
      · simp only [pushedSetups, hteardown]
        rfl

theorem first_mem_toList (operator : Operators) : operator.first ∈ operator.toList := by
  cases operator <;> exact List.mem_cons_self

theorem isSetup_of_entered (hkinds : ¬(operator.toList.any fun task =>
      !file.dag.isSetup task && !file.dag.isTeardown task) = true)
    (hteardown : file.dag.isTeardown operator.first = false) :
    file.dag.isSetup operator.first = true := by
  by_contra hsetup
  refine hkinds (List.any_eq_true.mpr ⟨operator.first, first_mem_toList operator, ?_⟩)
  rw [hteardown, Bool.eq_false_iff.mpr hsetup]
  rfl

/-- **A context pushes to the registers of its kind alone.** -/
theorem entered_of_enter (h : (system fuel).enter operator file = some file') :
    Entered fuel operator file file' := by
  obtain ⟨result, henter, hok⟩ := Option.bind_eq_some_iff.mp h
  cases result with
  | error => cases hok
  | ok entered =>
    cases hok
    simp only [enter] at henter
    split at henter
    · cases henter
    · rename_i hkinds
      obtain ⟨pushed, hpushed, hmap⟩ := Option.map_eq_some_iff.mp henter
      cases pushed with
      | error => cases hmap
      | ok ctx =>
        cases hmap
        simp only [SetupTeardownContext.pushSetupTeardownTask] at hpushed
        obtain ⟨tasks, htasks, hactive⟩ := Option.map_eq_some_iff.mp hpushed
        cases tasks with
        | error => cases hactive
        | ok tasks =>
          cases hactive
          by_cases hteardown : file.dag.isTeardown operator.first = true
          · rw [if_pos hteardown] at htasks
            exact pushTasks_teardown htasks hteardown
          · rw [if_neg hteardown] at htasks
            have hsetup := isSetup_of_entered hkinds (Bool.eq_false_iff.mpr hteardown)
            rw [if_pos hsetup] at htasks
            exact pushTasks_setup htasks (Bool.eq_false_iff.mpr hteardown)

/-! ## Leaving -/

@[simp] theorem setDependency_ctx (receivingTask newTask : List String) (upstream : Bool) :
    (file.setDependency receivingTask newTask upstream).ctx = file.ctx := rfl

@[simp] theorem popContextMap_ctx (key : Option Operators) :
    (file.popContextMap key).ctx = file.ctx := by
  cases key <;> rfl

theorem popContextManagedSetupTask_ctx : file.popContextManagedSetupTask.ctx =
    { file.ctx with
      contextManagedSetupTask := (file.setupTask.pop none).cur
      previousContextManagedSetupTask := (file.setupTask.pop none).prev } := by
  simp only [popContextManagedSetupTask, setupTask, Saved.pop]
  cases h : file.ctx.previousContextManagedSetupTask.getLast? with
  | none => simp [List.getLast?_eq_none_iff.mp h]
  | some setupTask => rfl

theorem popContextManagedTeardownTask_ctx : file.popContextManagedTeardownTask.ctx =
    { file.ctx with
      contextManagedTeardownTask := (file.teardownTask.pop none).cur
      previousContextManagedTeardownTask := (file.teardownTask.pop none).prev } := by
  simp only [popContextManagedTeardownTask, teardownTask, Saved.pop]
  cases h : file.ctx.previousContextManagedTeardownTask.getLast? with
  | none => simp [List.getLast?_eq_none_iff.mp h]
  | some teardownTask => rfl

theorem popTeardownDownstreamOfSetup_ctx : file.popTeardownDownstreamOfSetup.ctx =
    { file.ctx with
      teardownDownstreamOfSetup := (file.teardownDownstream.pop []).cur
      previousTeardownDownstreamOfSetup := (file.teardownDownstream.pop []).prev } := by
  simp only [popTeardownDownstreamOfSetup, teardownDownstream, Saved.pop]
  cases h : file.ctx.previousTeardownDownstreamOfSetup.getLast? with
  | none => simp [List.getLast?_eq_none_iff.mp h]
  | some teardownTask => rfl

theorem popSetupUpstreamOfTeardown_ctx : file.popSetupUpstreamOfTeardown.ctx =
    { file.ctx with
      setupUpstreamOfTeardown := (file.setupUpstream.pop []).cur
      previousSetupUpstreamOfTeardown := (file.setupUpstream.pop []).prev } := by
  simp only [popSetupUpstreamOfTeardown, setupUpstream, Saved.pop]
  cases h : file.ctx.previousSetupUpstreamOfTeardown.getLast? with
  | none => simp [List.getLast?_eq_none_iff.mp h]
  | some setupTask => rfl

theorem setSetupTeardownRelationships_ctx : file.setSetupTeardownRelationships.ctx =
    (file.popContextManagedSetupTask.popContextManagedTeardownTask.popTeardownDownstreamOfSetup
      ).popSetupUpstreamOfTeardown.ctx := by
  simp only [setSetupTeardownRelationships, popContextMap_ctx]

theorem setSetupRoots_ctx (setupTask : Operators) :
    (file.setSetupRoots setupTask).ctx = file.ctx := by
  rw [setSetupRoots]
  split
  · rfl
  · dsimp only [setTeardownTaskAsLeaves]
    rw [setDependency_ctx]
    split <;> rfl

theorem setTeardownLeaves_ctx (teardownTask : Operators) :
    (file.setTeardownLeaves teardownTask).ctx = file.ctx := by
  rw [setTeardownLeaves]
  split
  · rfl
  · dsimp only [setSetupTaskAsRoots]
    rw [setDependency_ctx]
    split <;> rfl

/-- Before the registers are popped, only dependencies are set. -/
theorem setWorkTaskRootsAndLeaves_ctx : ∃ linked : DagFile, linked.ctx = file.ctx ∧
    file.setWorkTaskRootsAndLeaves.ctx =
      { linked.setSetupTeardownRelationships.ctx with active := false } := by
  simp only [setWorkTaskRootsAndLeaves]
  refine ⟨_, ?_, rfl⟩
  split <;> split <;> simp only [setSetupRoots_ctx, setTeardownLeaves_ctx]

/-- **Leaving a context pops all four registers.** -/
theorem leave_registers :
    file.setWorkTaskRootsAndLeaves.setupTask = file.setupTask.pop none ∧
      file.setWorkTaskRootsAndLeaves.teardownTask = file.teardownTask.pop none ∧
      file.setWorkTaskRootsAndLeaves.teardownDownstream = file.teardownDownstream.pop [] ∧
      file.setWorkTaskRootsAndLeaves.setupUpstream = file.setupUpstream.pop [] := by
  obtain ⟨linked, hlinked, hleave⟩ := @setWorkTaskRootsAndLeaves_ctx file
  simp only [setupTask, teardownTask, teardownDownstream, setupUpstream, hleave,
    setSetupTeardownRelationships_ctx, popSetupUpstreamOfTeardown_ctx,
    popTeardownDownstreamOfSetup_ctx, popContextManagedTeardownTask_ctx,
    popContextManagedSetupTask_ctx, hlinked, and_self]

/-! ## The registers of the system -/

theorem setupTask_register :
    Register (system fuel) none setupTask pushedSetup where
  act := fun statement file => by simp only [system, setupTask, act_ctx]
  enter := fun _ _ _ h => (entered_of_enter h).setupTask
  leave := fun _ => leave_registers.1

theorem teardownTask_register : Register (system fuel) none teardownTask pushedTeardown where
  act := fun statement file => by simp only [system, teardownTask, act_ctx]
  enter := fun _ _ _ h => (entered_of_enter h).teardownTask
  leave := fun _ => leave_registers.2.1

theorem teardownDownstream_register :
    Register (system fuel) [] teardownDownstream (pushedTeardowns fuel) where
  act := fun statement file => by simp only [system, teardownDownstream, act_ctx]
  enter := fun _ _ _ h => (entered_of_enter h).teardownDownstream
  leave := fun _ => leave_registers.2.2.1

theorem setupUpstream_register :
    Register (system fuel) [] setupUpstream (pushedSetups fuel) where
  act := fun statement file => by simp only [system, setupUpstream, act_ctx]
  enter := fun _ _ _ h => (entered_of_enter h).setupUpstream
  leave := fun _ => leave_registers.2.2.2

/-! ## Contexts that nest like a stack -/

/-- The four values. -/
def values (file : DagFile) :
    Option Operators × Option Operators × List String × List String :=
  (file.ctx.contextManagedSetupTask, file.ctx.contextManagedTeardownTask,
    file.ctx.teardownDownstreamOfSetup, file.ctx.setupUpstreamOfTeardown)

/-- Every register keeps its value when the context is entered: it saves one that is not empty and
not the new one, or it is empty with nothing saved. -/
def EntersCleanly (fuel : Nat) (file : DagFile) (operator : Operators) : Prop :=
  file.setupTask.Keeps none (pushedSetup operator file) ∧
    file.teardownTask.Keeps none (pushedTeardown operator file) ∧
    file.teardownDownstream.Keeps [] (pushedTeardowns fuel operator file) ∧
    file.setupUpstream.Keeps [] (pushedSetups fuel operator file)

/-- **The contexts of a DAG file restore the four values** exactly when each is entered where every
register keeps its value. -/
theorem contexts_restore_iff (dag : Dag) (edges : Edges) (program : Program Statement Operators)
    (hrun : run (system fuel) program { dag, edges } = some file') :
    Restores (system fuel) values program { dag, edges } ↔
      AllEnters (system fuel) (EntersCleanly fuel) program { dag, edges } := by
  have hsetup := setupTask_register.restores_iff hrun rfl
  have hteardown := teardownTask_register.restores_iff hrun rfl
  have hteardowns := teardownDownstream_register.restores_iff hrun rfl
  have hsetups := setupUpstream_register.restores_iff hrun rfl
  delta EntersCleanly
  simp only [allEnters_and]
  rw [← hsetup, ← hteardown, ← hteardowns, ← hsetups, ← restores_prod, ← restores_prod,
    ← restores_prod]
  rfl

/-- Two setups, each with its teardown. -/
def twoPairs : Dag where
  taskIds := ["setup1", "teardown1", "setup2", "teardown2"]
  taskGroup := fun _ => .root
  isSetup := fun t => t == "setup1" || t == "setup2"
  isTeardown := fun t => t == "teardown1" || t == "teardown2"
  taskIds_nodup := by decide
  not_both := by
    intro t h
    rcases Bool.or_eq_true .. |>.mp h with h | h <;> rw [beq_iff_eq.mp h] <;> decide

def twoPairsEdges : Edges := (Edges.empty.add "setup1" "teardown1").add "setup2" "teardown2"

/-- The second setup in the context of the first. -/
def setupInSetup : Program Statement Operators :=
  .within (.one "setup1") (.within (.one "setup2") .done .done) .done

/-- The second setup in the context of the first teardown. -/
def setupInTeardown : Program Statement Operators :=
  .within (.one "teardown1") (.within (.one "setup2") .done .done) .done

theorem setupInSetup_restores_iff :
    Restores (system 1) values setupInSetup { dag := twoPairs, edges := twoPairsEdges } ↔
      AllEnters (system 1) (EntersCleanly 1) setupInSetup
        { dag := twoPairs, edges := twoPairsEdges } :=
  @contexts_restore_iff _ 1 twoPairs twoPairsEdges setupInSetup rfl

theorem setupInTeardown_not_restores : ¬Restores (system 1) values setupInTeardown
    { dag := twoPairs, edges := twoPairsEdges } := by
  intro h
  -- leaving the setup has popped the teardown
  have hleave := ((h _ rfl).1 _ rfl).2 _ rfl
  have hteardown := congrArg (·.2.1) hleave.1
  cases hteardown

end Airflow.Authoring.DagFile
