import Airflow.DagRun.Dependencies

/-!
# Decision rounds, the outcome of a run and the mini scheduler

`DagRun.taskInstanceSchedulingDecisions`, `DagRun.updateState` and what they call, from
`airflow/models/dagrun.py`, and `scheduleDownstreamTasks` of `airflow/models/taskinstance.py`.

A call starts from a table of rows; the session it leaves is part of the result. Statistics,
callbacks and listeners are left out: they follow from the verdict.
-/

namespace Airflow

/-! ## The ready pass -/

/-- The variables of `_get_ready_tis`. -/
structure ReadyPass where
  session : Session
  oldStates : List (TIRef × TIState) := []
  readyTis : List TIRef := []
  additionalTis : List TIRef := []
  expansionHappened : Bool := false
  revisedMapIndexTaskIds : List TaskId := []

section
variable (dag : Dag) (run : RunData)

/-- `_expand_mapped_task_if_needed`, for an instance whose dependencies are met. -/
def expandMappedTaskIfNeeded (s : Session) (task : Operator) (ti : TIRef) :
    Option (Session × List TIRef) :=
  if s.mapIndex ti ≥ 0 then none else s.expandMappedTask run dag.partialDag task

/-- The end of the loop's body: an instance that can be scheduled is ready. -/
def ReadyPass.markReady (p : ReadyPass) (task : Operator) (ti : TIRef) : ReadyPass :=
  if !State.isScheduleable (p.session.state ti) then p
  else if task.taskId ∈ p.revisedMapIndexTaskIds then { p with readyTis := p.readyTis ++ [ti] }
  else
    let (session, created) := p.session.reviseMapIndexesIfMapped run task
    { p with
      session
      readyTis := p.readyTis ++ created ++ [ti]
      revisedMapIndexTaskIds := task.taskId :: p.revisedMapIndexTaskIds }

/-- The body of the loop of `_get_ready_tis`. -/
def ReadyPass.visit (ctx : DepContext) (p : ReadyPass) (ti : TIRef) : ReadyPass :=
  match dag.getTask ti.taskId with
  | none => p
  | some task =>
    let d := areDependenciesMet dag run p.session ti task ctx
    if !d.met then
      { p with session := d.session, oldStates := p.oldStates ++ [(ti, p.session.state ti)] }
    else
      match expandMappedTaskIfNeeded dag run d.session task ti with
      | some (session, newTis) =>
        { p with session, additionalTis := p.additionalTis ++ newTis, expansionHappened := true }
      | none => ReadyPass.markReady run { p with session := d.session } task ti

/-- The context of `_get_ready_tis`. -/
def readyContext (finishedTis : List TIRef) : DepContext :=
  { finishedTis, ignoreUnmappedTasks := true }

/-- The loop of `_get_ready_tis`: the schedulable instances, then those that expansion added.
These have a map index and add no more. -/
def readyPass (s : Session) (schedulableTis finishedTis : List TIRef) : ReadyPass :=
  let p := schedulableTis.foldl (ReadyPass.visit dag run (readyContext finishedTis)) { session := s }
  p.additionalTis.foldl (ReadyPass.visit dag run (readyContext finishedTis)) p

/-- An instance that was not ready changed state. -/
def ReadyPass.changedTis (p : ReadyPass) : Bool :=
  p.oldStates.any fun (ti, state) => p.session.state ti ≠ state

/-! ## The decision round -/

/-- `TISchedulingDecision`, with the session left. -/
structure TISchedulingDecision where
  session : Session
  tis : List TIRef
  schedulableTis : List TIRef := []
  changedTis : Bool := false
  unfinishedTis : List TIRef
  finishedTis : List TIRef

/-- `get_task_instances`: of a partial DAG only the instances of its tasks. -/
def getTaskInstances (table : TaskInstanceTable) : List TIRef :=
  if dag.partialDag then table.refs.filter (·.taskId ∈ dag.taskIds) else table.refs

/-- An instance of a task that the DAG lacks is marked as removed. -/
def excludeRemoved (s : Session) (ti : TIRef) : Session :=
  if ti.taskId ∈ dag.taskIds ∨ s.state ti = some .removed then s
  else (s.setState ti (some .removed)).flush

/-- The session after `_filter_tis_and_exclude_removed`. -/
def filterTis (table : TaskInstanceTable) : Session :=
  (getTaskInstances dag table).foldl (excludeRemoved dag) (.load table)

/-- The instances that `_filter_tis_and_exclude_removed` yields. -/
def dagTis (table : TaskInstanceTable) : List TIRef :=
  (getTaskInstances dag table).filter (·.taskId ∈ dag.taskIds)

/-- `unfinished_tis`, before any expansion. -/
def unfinishedTis (table : TaskInstanceTable) : List TIRef :=
  (dagTis dag table).filter (State.isUnfinished <| (filterTis dag table).state ·)

/-- `finished_tis`, before any expansion. -/
def finishedTis (table : TaskInstanceTable) : List TIRef :=
  (dagTis dag table).filter (State.isFinished <| (filterTis dag table).state ·)

/-- `schedulable_tis`, before the ready pass. -/
def schedulableTis (table : TaskInstanceTable) : List TIRef :=
  (unfinishedTis dag table).filter (State.isScheduleable <| (filterTis dag table).state ·)

/-- `task_instance_scheduling_decisions`. -/
def taskInstanceSchedulingDecisions (table : TaskInstanceTable) : TISchedulingDecision :=
  let tis := dagTis dag table
  let unfinished := unfinishedTis dag table
  let finished := finishedTis dag table
  if unfinished = [] then
    { session := filterTis dag table, tis, unfinishedTis := unfinished, finishedTis := finished }
  else
    let p := readyPass dag run (filterTis dag table) (schedulableTis dag table) finished
    let stillUnfinished := unfinished.filter (State.isUnfinished <| p.session.state ·)
    let nowFinished := unfinished.filter (State.isFinished <| p.session.state ·)
    { session := p.session
      tis
      schedulableTis := p.readyTis
      changedTis := p.expansionHappened || p.changedTis
      unfinishedTis := if p.expansionHappened then stillUnfinished else unfinished
      finishedTis := if p.expansionHappened then finished ++ nowFinished else finished }

/-! ## The deadlock check -/

/-- The context of `_are_premature_tis`. -/
def prematureContext (finishedTis : List TIRef) : DepContext :=
  { finishedTis, ignoreInRetryPeriod := true, ignoreInReschedulePeriod := true }

/-- The generator of `_are_premature_tis`, consumed until an instance is found whose dependencies
are met. -/
def anyDependenciesMet (ctx : DepContext) (d : DepState) : List TIRef → DepState
  | [] => { d with met := false }
  | ti :: tis =>
    match dag.getTask ti.taskId with
    | none => anyDependenciesMet ctx d tis
    | some task =>
      let d' := areDependenciesMet dag run d.session ti task ctx
      let changed := d.haveChangedTiStates || d'.haveChangedTiStates
      if d'.met then ⟨d'.session, changed, true⟩
      else anyDependenciesMet ctx ⟨d'.session, changed, false⟩ tis

/-- `_are_premature_tis`. -/
def arePrematureTis (s : Session) (unfinishedTis finishedTis : List TIRef) : DepState :=
  anyDependenciesMet dag run (prematureContext finishedTis) { session := s } unfinishedTis

/-! ## The outcome of the run -/

/-- `_UnfinishedStates.should_schedule`. -/
def shouldSchedule (s : Session) (tis : List TIRef) : Bool :=
  !tis.isEmpty &&
    tis.all (fun ti => (dag.getTask ti.taskId).all fun task =>
      !task.dependsOnPast && task.maxActiveTisPerDag.isNone && task.maxActiveTisPerDagrun.isNone) &&
    tis.all fun ti => s.state ti ≠ some .deferred

/-- `_tis_for_dagrun_state`. -/
def tisForDagrunState (s : Session) (tis : List TIRef) : List TIRef :=
  tis.filter fun ti => ti.taskId ∈ dag.leafTaskIds ∧ s.state ti ≠ some .removed

/-- The branch that `update_state` takes. -/
inductive Verdict where
  | taskFailure
  | success
  | allTasksDeadlocked
  | running
  deriving DecidableEq, Repr

/-- The state that the branch sets. -/
def Verdict.state : Verdict → DagRunState
  | .taskFailure | .allTasksDeadlocked => .failed
  | .success => .success
  | .running => .running

/-- The branches of `update_state`. -/
def verdict (s : Session) (tis unfinishedTis : List TIRef) (areRunnableTasks : Bool) : Verdict :=
  let considered := tisForDagrunState dag s tis
  if unfinishedTis = [] ∧ considered.any (State.isFailed <| s.state ·) then .taskFailure
  else if unfinishedTis = [] ∧ considered.all (State.isSuccess <| s.state ·) then .success
  else if shouldSchedule dag s unfinishedTis ∧ ¬areRunnableTasks then .allTasksDeadlocked
  else .running

/-- What `update_state` leaves: the verdict, the session, and the instances returned. -/
structure RunUpdate where
  verdict : Verdict
  session : Session
  schedulableTis : List TIRef

/-- The call reaches `_are_premature_tis`. -/
def TISchedulingDecision.checksDeadlock (info : TISchedulingDecision) : Bool :=
  shouldSchedule dag info.session info.unfinishedTis && info.schedulableTis.isEmpty &&
    !info.changedTis

/-- `update_state`. `are_runnable_tasks` is unset when the first `should_schedule` is false; the
third branch then tests the same unfinished instances again and is not taken. -/
def updateState (table : TaskInstanceTable) : RunUpdate :=
  let info := taskInstanceSchedulingDecisions dag run table
  if info.checksDeadlock dag then
    let d := arePrematureTis dag run info.session info.unfinishedTis info.finishedTis
    let unfinishedTis :=
      if d.haveChangedTiStates then
        info.unfinishedTis.filter (State.isUnfinished <| d.session.state ·)
      else info.unfinishedTis
    ⟨verdict dag d.session info.tis unfinishedTis d.met, d.session, info.schedulableTis⟩
  else
    let areRunnableTasks := !info.schedulableTis.isEmpty || info.changedTis
    ⟨verdict dag info.session info.tis info.unfinishedTis areRunnableTasks, info.session,
      info.schedulableTis⟩

/-! ## The mini scheduler -/

/-- The partial DAG of `_schedule_downstream_tasks`. -/
def miniSchedulerDag (task : Operator) : Dag :=
  dag.partialSubset task.downstreamTaskIds true false true

/-- An operator that `_schedule_downstream_tasks` leaves to the scheduler: there is nothing to
run. -/
def Operator.hasNothingToRun (task : Operator) : Bool :=
  task.inheritsFromEmptyOperator && !task.onExecuteCallback && !task.onSuccessCallback &&
    !task.outlets

/-- `_schedule_downstream_tasks`: the decision round on the partial DAG and the instances that are
scheduled from it. -/
def scheduleDownstreamTasks (task : Operator) (table : TaskInstanceTable) :
    TISchedulingDecision × List TIRef :=
  let partialDag := miniSchedulerDag dag task
  let info := taskInstanceSchedulingDecisions partialDag run table
  (info, info.schedulableTis.filter fun ti =>
    ti.taskId ∈ task.downstreamTaskIds ∧
      ¬(partialDag.getTask ti.taskId).any (·.hasNothingToRun))

end

/-!
## `schedule_tis`

`DagRun.schedule_tis` of `airflow/models/dagrun.py`, which sets the instances that a decision round
has returned to `SCHEDULED`. It updates rows by task id and map index. The objects of the session
do not follow the `UPDATE`, and what is pending in the session is written when the transaction is
committed; an instance that is ready has nothing pending, so here the pending states are written
first. `max_tis_per_query` only cuts the statement into several.
-/

/-- `UPDATE … SET state` of the rows with one of these task ids and map indexes. -/
def Session.updateStates (s : Session) (ids : List (TaskId × Int)) (state : TIState) : Session where
  tis t := (s.tis t).map fun ti =>
    if !ti.deleted ∧ (t, ti.mapIndex) ∈ ids then { ti with state, dbState := state } else ti

/-- `schedule_tis`. An operator that has nothing to run succeeds at once. -/
def Session.scheduleTis (s : Session) (dag : Dag) (schedulableTis : List TIRef) : Session :=
  let isDummy (ti : TIRef) := (dag.getTask ti.taskId).any (·.hasNothingToRun)
  let ids (tis : List TIRef) := tis.map fun ti => (ti.taskId, s.mapIndex ti)
  (s.flush.updateStates (ids (schedulableTis.filter (!isDummy ·))) (some .scheduled)).updateStates
    (ids (schedulableTis.filter isDummy)) (some .success)

end Airflow
