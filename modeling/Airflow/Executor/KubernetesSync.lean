import Airflow.Executor.Kubernetes
import Airflow.Lib.Requeue
import Mathlib.Algebra.Order.Ring.Rat

/-!
# The loops of `KubernetesExecutor.sync`

`sync` and `_change_state` of `providers/cncf/kubernetes/executors/kubernetes_executor.py`, `sync`
and `process_watcher_task` of its `kube_scheduler`, `annotations_to_key` and the event scheduler's
`run(blocking=False)`, with every call of the Kubernetes API and of the database free to fail, each
time that it is made. `run_next` is here what it raises and what it puts in the watcher queue.
-/

namespace Airflow.Kubernetes.Sync

/-! ## The executor -/

/-- `TaskInstanceKey`, whose run id may be `None` here. -/
structure Key where
  dagId : String
  taskId : String
  runId : Option String
  tryNumber : Int
  mapIndex : Int
  deriving DecidableEq

/-- `KubernetesWatchType`; the annotations are those of any pod. -/
structure WatcherTask where
  podName : String
  namespace_ : String
  state : PodState
  annotations : Dict String String
  resourceVersion : String

/-- `KubernetesResultsType`. -/
structure Result where
  key : Key
  state : PodState
  podName : String
  namespace_ : String
  resourceVersion : String

/-- `KubernetesJobType`, less what only the construction of the pod reads. -/
structure Job where
  key : Key
  command : List String

structure Executor where
  watcherQueue : List WatcherTask := []
  resultQueue : List Result := []
  taskQueue : List Job := []
  running : List Key := []
  eventBuffer : Dict Key TIState := {}
  /-- The time of the event in `event_scheduler`, lost when its action raised. -/
  nextEvent : Option ℚ

/-! ## Answers of the environment -/

/-- How a query of the database ends. -/
inductive DbAnswer (α : Type) where
  | value (a : α)
  | raised

/-- How `run_next` ends, and what it put in the watcher queue. -/
structure RunNextAnswer where
  raised : Option RunNextError
  watched : List WatcherTask := []

/-- What everything outside does, for each time that it is called. -/
structure Answers where
  /-- `int(text)`. -/
  int : String → Option Int
  /-- Whether `pendulum.parse` accepts a text. -/
  parses : String → Bool
  /-- The query of `annotations_to_key`. -/
  runId : Nat → DbAnswer (Option String)
  /-- The call of the API in `_change_state`. -/
  api : Nat → ApiAnswer
  /-- The query of `_change_state`. -/
  dbState : Nat → DbAnswer TIState
  runNext : Nat → RunNextAnswer
  /-- Whether `clear_not_launched_queued_tasks` raises. -/
  clearRaises : Nat → Bool
  /-- The clock when the event scheduler looks whether the event is due. -/
  checked : Nat → ℚ
  /-- The clock when the event is entered again. -/
  entered : Nat → ℚ

variable (config : KubeConfig) (answers : Answers)

/-! ## The watcher queue -/

/-- `annotations_to_key`; `none` if it raises. -/
def annotationsToKey (turn : Nat) (annotations : Dict String String) : Option Key := do
  let dagId ← annotations.get? "dag_id"
  let taskId ← annotations.get? "task_id"
  let tryNumber ← answers.int (← annotations.get? "try_number")
  let annotationRunId := annotations.get? "run_id"
  let mapIndex ← ((annotations.get? "map_index").map answers.int).getD (some (-1))
  let runId ←
    match annotations.get? "execution_date" with
    | none => some annotationRunId
    | some date =>
      if annotationRunId.all (· = "") then
        if answers.parses date then
          match answers.runId turn with
          | .value runId => some runId
          | .raised => none
        else none
      else some annotationRunId
  return { dagId, taskId, runId, tryNumber, mapIndex }

/-- `process_watcher_task`: what it puts in the result queue; `none` if it raises. -/
def processWatcherTask (turn : Nat) (task : WatcherTask) : Option Result :=
  (annotationsToKey answers turn task.annotations).map fun key =>
    { key
      state := task.state
      podName := task.podName
      namespace_ := task.namespace_
      resourceVersion := task.resourceVersion }

/-- The loop of `kube_scheduler.sync`: the results, the tasks left in the queue, and whether it
raised. -/
def watcherLoop (turn : Nat) : List WatcherTask → List Result × List WatcherTask × Bool
  | [] => ([], [], false)
  | task :: tasks =>
    match processWatcherTask answers turn task with
    | none => ([], tasks, true)
    | some result =>
      let (results, rest) := watcherLoop (turn + 1) tasks
      (result :: results, rest)

/-! ## The result queue -/

/-- `change_state`. -/
def Executor.changeState (self : Executor) (key : Key) (state : TIState) : Executor :=
  { self with
    running := self.running.filter (· ≠ key)
    eventBuffer := self.eventBuffer.set key state }

/-- `_change_state`, and whether it raises. -/
def Executor.changeStateOf (self : Executor) (api : ApiAnswer) (dbState : DbAnswer TIState)
    (result : Result) : Executor × Bool :=
  match result.state with
  | .adopted => ({ self with running := self.running.filter (· ≠ result.key) }, false)
  | .state (some .running) =>
    ({ self with eventBuffer := self.eventBuffer.set result.key (some .running) }, false)
  | .state state =>
    if KubernetesExecutor.podCallRaises config state api then (self, true)
    else
      match state, dbState with
      | none, .raised => ({ self with running := self.running.filter (· ≠ result.key) }, true)
      | none, .value state => (self.changeState result.key state, false)
      | some state, _ => (self.changeState result.key (some state), false)

/-- The `turn`-th call of `_change_state` in the loop over the results. -/
def handle (turn : Nat) (self : Executor) (result : Result) : Executor × Bool :=
  self.changeStateOf config (answers.api turn) (answers.dbState turn) result

/-- Whether `_change_state` raises, of a result and the answers that it gets. -/
def raises (turn : Nat) (result : Result) : Bool :=
  match result.state with
  | .adopted | .state (some .running) => false
  | .state state =>
    KubernetesExecutor.podCallRaises config state (answers.api turn) ||
      match state, answers.dbState turn with
      | none, .raised => true
      | _, _ => false

/-! ## The task queue -/

/-- The handlers of the loop over the tasks, and whether they raise. -/
def Executor.handleError (self : Executor) (job : Job) : RunNextError → Executor × Bool
  | .podReconciliationError => (self.changeState job.key (some .failed), false)
  | .apiException status message =>
    if status = 400 ∨ status = 422 then (self.changeState job.key (some .failed), false)
    else
      match message with
      | none => (self, true)
      | some _ => ({ self with taskQueue := self.taskQueue ++ [job] }, false)
  | .podMutationHookException => (self.changeState job.key (some .failed), false)
  | .other => (self, true)

/-- The loop over the tasks for as many turns as are left, and whether it raised. -/
def taskLoop : (turns : Nat) → (turn : Nat) → Executor → Executor × Bool
  | 0, _, self => (self, false)
  | turns + 1, turn, self =>
    match self.taskQueue with
    | [] => (self, false)
    | job :: jobs =>
      let answer := answers.runNext turn
      let self :=
        { self with taskQueue := jobs, watcherQueue := self.watcherQueue ++ answer.watched }
      match answer.raised with
      | none => taskLoop turns (turn + 1) self
      | some e =>
        match self.handleError job e with
        | (self, true) => (self, true)
        | (self, false) => taskLoop turns (turn + 1) self

/-! ## The event scheduler -/

/-- `event_scheduler.run(blocking=False)` for at most so many looks at the event, which is entered
again after its action: the time of the event, and whether the action raised. -/
def runEvents (interval : ℚ) : (fuel : Nat) → (turn : Nat) → Option ℚ → Option (Option ℚ × Bool)
  | 0, _, _ => none
  | _ + 1, _, none => some (none, false)
  | fuel + 1, turn, some time =>
    if time > answers.checked turn then some (some time, false)
    else if answers.clearRaises turn then some (none, true)
    else runEvents interval fuel (turn + 1) (some (answers.entered turn + interval))

/-! ## `sync` -/

/-- The results when the loop over them begins. -/
def queued (self : Executor) : List Result :=
  self.resultQueue ++ (watcherLoop answers 0 self.watcherQueue).1

/-- Whether `kube_scheduler.sync` raises. -/
def watcherRaises (self : Executor) : Bool := (watcherLoop answers 0 self.watcherQueue).2.2

/-- The executor after `kube_scheduler.sync`, less its result queue. -/
def watched (self : Executor) : Executor :=
  { self with
    watcherQueue := (watcherLoop answers 0 self.watcherQueue).2.1
    resultQueue := [] }

/-- The loop over the results after so many turns. -/
def resultLoop (self : Executor) (turns : Nat) : Requeue.Loop Executor Result :=
  (Requeue.step (handle config answers))^[turns]
    (Requeue.start (watched answers self) (queued answers self))

/-- `sync`, and whether it raises; `none` when one of its loops goes on for more than `fuel`
turns. -/
def sync (interval : ℚ) (fuel : Nat) (self : Executor) : Option (Executor × Bool) :=
  if watcherRaises answers self then
    some ({ watched answers self with resultQueue := queued answers self }, true)
  else
    let loop := resultLoop config answers self fuel
    if !loop.queue.isEmpty then none
    else
      match taskLoop answers config.workerPodsCreationBatchSize 0 loop.state with
      | (self, true) => some (self, true)
      | (self, false) =>
        (runEvents answers interval fuel 0 self.nextEvent).map fun events =>
          ({ self with nextEvent := events.1 }, events.2)

/-- The results that the loop handles in so many turns, by their places in the queue. -/
def handled (self : Executor) (turns : Nat) : List Nat :=
  if watcherRaises answers self then [] else (resultLoop config answers self turns).handled

/-- `sync` ends, and handles each result at most once. -/
structure EndsOnce (interval : ℚ) (executor : Executor) : Prop where
  ends : ∃ fuel, (sync config answers interval fuel executor).isSome = true
  once : ∀ turns, (handled config answers executor turns).Nodup

end Airflow.Kubernetes.Sync
