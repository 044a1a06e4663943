import Airflow.Lib.Dict
import Airflow.State
import Airflow.TaskInstance.Key

/-!
# `KubernetesExecutor` with Knative workers

`execute_async`, `sync` and `_change_state` of
`providers/cncf/kubernetes/executors/kubernetes_executor.py`, and of its `kube_scheduler`
(`AirflowKubernetesScheduler` of `kubernetes_executor_utils.py`) `sync`, `process_watcher_task`,
`run_next`, `get_worker_service_url` and `run_pod_async`: a task is one gRPC call to the Knative
service of its worker, made in `run_next`, and its result takes the way of a pod's result through
`watcher_queue` and `result_queue`.

What happens outside (the pod template, the Kubernetes API, the list of Knative services, the gRPC
call) comes as an answer with each call. The watcher processes see none of these tasks, as there
is no pod of them, and the database answers.

A job's `number` says the how-manieth it is of those put in `task_queue`; `accepted` and `reported`
are the records of the jobs put there and of those reported. No operation reads them.
-/

namespace Airflow.Kubernetes

/-! ## Queues -/

/-- `KubernetesJobType`, less what only the construction of the pod reads. -/
structure Job where
  number : Nat
  key : TaskInstanceKey
  command : List String

/-- The annotations of a result. -/
structure Annotations where
  dagId : String
  taskId : String
  tryNumber : Int
  runId : String
  mapIndex : Int

/-- What a pod's watcher or `run_pod_async` tells. -/
inductive PodState where
  | adopted
  | state (state : TIState)
  deriving DecidableEq

/-- `KubernetesWatchType`. -/
structure WatcherTask where
  podName : String
  namespace_ : String
  state : PodState
  annotations : Annotations
  resourceVersion : Nat
  number : Nat

/-- `KubernetesResultsType`. -/
structure Result where
  key : TaskInstanceKey
  state : PodState
  podName : String
  namespace_ : String
  resourceVersion : Nat
  number : Nat

/-- The options that are read here. -/
structure KubeConfig where
  deleteWorkerPods : Bool := true
  deleteWorkerPodsOnFailure : Bool := false
  workerPodsCreationBatchSize : Nat := 1

structure KubernetesExecutor where
  taskQueue : List Job := []
  watcherQueue : List WatcherTask := []
  resultQueue : List Result := []
  running : List TaskInstanceKey := []
  eventBuffer : Dict TaskInstanceKey TIState := {}
  /-- `kube_scheduler._kn_workers`: the URL of the worker of a DAG's task. -/
  knWorkers : Option (Dict (String × String) String) := none
  accepted : List TaskInstanceKey := []
  reported : List (Nat × TaskInstanceKey) := []

/-! ## Answers of the environment -/

/-- What is raised in `run_next`, as `sync` tells it apart. An `ApiException` has a status and the
message in its body, if `json.loads(e.body)["message"]` finds one. -/
inductive RunNextError where
  | podReconciliationError
  | apiException (status : Nat) (message : Option String)
  | podMutationHookException
  | other

/-- How `_worker_service_urls_future.result` ends: with the services, with the `TimeoutError` that
`get_worker_service_url` catches, or with another exception, as when `kn` is not there, its output
cannot be read, or `concurrent.futures` has a timeout of its own (before Python 3.11). -/
inductive ServiceUrls where
  | services (knWorkers : Dict (String × String) String)
  | timeoutError
  | raised

/-- `timing['execution_time']`, of what the reply's timing unpickles to. -/
inductive ExecutionTime where
  | missing
  | notSerializable
  | seconds

/-- How `invoke_task` ends. The timing of the reply may not unpickle. -/
inductive Invocation where
  | reply (timing : Option ExecutionTime)
  | rpcError
  | raised

/-- The answers to one `run_next`. -/
structure RunNextAnswers where
  /-- `get_base_pod_from_template`: whether there is a pod. -/
  basePod : Except RunNextError Bool := .ok true
  /-- `create_pod_id` and `construct_pod`. -/
  constructPod : Except RunNextError Unit := .ok ()
  /-- The serialization of the pod. -/
  sanitize : Except RunNextError Unit := .ok ()
  /-- The future made before, read when no services are known. -/
  firstUrls : ServiceUrls
  /-- The future made when the task is not among the services. -/
  nextUrls : ServiceUrls
  invocation : Invocation

/-- How a call of the Kubernetes API ends. -/
inductive ApiAnswer where
  | done
  | apiException (status : Nat)
  | raised

/-- The answers to one `sync`: to the API calls of `_change_state`, which succeed when these are
used up; the state that the database has of a task; and those to each `run_next`. -/
structure SyncAnswers where
  api : List ApiAnswer := []
  dbState : TaskInstanceKey → TIState := fun _ => none
  runNext : Nat → RunNextAnswers

namespace KubernetesExecutor

/-! ## `BaseExecutor` -/

/-- `change_state`, for the job with this number. -/
def changeState (self : KubernetesExecutor) (number : Nat) (key : TaskInstanceKey)
    (state : TIState) : KubernetesExecutor :=
  { self with
    running := self.running.filter (· ≠ key)
    eventBuffer := self.eventBuffer.set key state
    reported := self.reported ++ [(number, key)] }

/-- `fail`, of a job of the task queue. -/
def fail (self : KubernetesExecutor) (job : Job) : KubernetesExecutor :=
  self.changeState job.number job.key (some .failed)

/-- `execute_async`, and the key's entry into `running` by `_process_tasks`. A job whose
`executor_config` is not valid is failed without being put in the task queue. -/
def executeAsync (self : KubernetesExecutor) (key : TaskInstanceKey) (command : List String)
    (validConfig : Bool) : KubernetesExecutor :=
  let executor :=
    if validConfig then
      { self with
        eventBuffer := self.eventBuffer.set key (some .queued)
        taskQueue := self.taskQueue ++ [⟨self.accepted.length, key, command⟩]
        accepted := self.accepted ++ [key] }
    else
      { self with
        running := self.running.filter (· ≠ key)
        eventBuffer := self.eventBuffer.set key (some .failed) }
  { executor with
    running := if key ∈ executor.running then executor.running else executor.running ++ [key] }

/-! ## `AirflowKubernetesScheduler` -/

/-- The annotations that `run_pod_async` gives a result. -/
def annotationsOf (key : TaskInstanceKey) : Annotations :=
  ⟨key.dagId, key.taskId, key.tryNumber, key.runId, key.mapIndex⟩

/-- `annotations_to_key`, of annotations with a run id. -/
def annotationsToKey (annotations : Annotations) : TaskInstanceKey :=
  ⟨annotations.dagId, annotations.taskId, annotations.runId, annotations.tryNumber,
    annotations.mapIndex⟩

/-- `watcher_queue.put` in `run_pod_async`. -/
def putResult (self : KubernetesExecutor) (job : Job) (state : TIState) : KubernetesExecutor :=
  { self with
    watcherQueue := self.watcherQueue ++
      [⟨"airflow-worker-0", "airflow", .state state, annotationsOf job.key, 0, job.number⟩] }

/-- The first half of `get_worker_service_url`; `none` where it returns. -/
def loadServiceUrls (self : KubernetesExecutor) (firstUrls : ServiceUrls) :
    Except RunNextError (Option (Dict (String × String) String)) :=
  match self.knWorkers with
  | some knWorkers => .ok (some knWorkers)
  | none =>
    match firstUrls with
    | .services knWorkers => .ok (some knWorkers)
    | .timeoutError => .ok none
    | .raised => .error .other

/-- The second half, with `_kn_workers` loaded: the services it leaves there, and the URL. -/
def findServiceUrl (self : KubernetesExecutor) (knWorkers : Dict (String × String) String)
    (nextUrls : ServiceUrls) (dagId taskId : String) :
    KubernetesExecutor × Except RunNextError (Option String) :=
  match knWorkers.get? (dagId, taskId) with
  | some url => ({ self with knWorkers := some knWorkers }, .ok (some url))
  | none =>
    match nextUrls with
    | .services knWorkers =>
      ({ self with knWorkers := some knWorkers }, .ok (knWorkers.get? (dagId, taskId)))
    -- the future's result is read outside of any `try` here
    | _ => ({ self with knWorkers := some knWorkers }, .error .other)

/-- `get_worker_service_url`. -/
def getWorkerServiceUrl (self : KubernetesExecutor) (answers : RunNextAnswers)
    (dagId taskId : String) : KubernetesExecutor × Except RunNextError (Option String) :=
  match self.loadServiceUrls answers.firstUrls with
  | .error e => (self, .error e)
  | .ok none => (self, .ok none)
  | .ok (some knWorkers) => self.findServiceUrl knWorkers answers.nextUrls dagId taskId

/-- The body of the outer `try` of `run_pod_async`, and whether it raised. -/
def invokeTask (self : KubernetesExecutor) (job : Job) : Invocation → KubernetesExecutor × Bool
  | .rpcError => (self.putResult job (some .failed), false)
  | .raised => (self, true)
  | .reply none => (self, true)
  -- the result is put before the execution time is logged
  | .reply (some .seconds) => (self.putResult job none, false)
  | .reply (some _) => (self.putResult job none, true)

/-- `run_pod_async`. -/
def runPodAsync (self : KubernetesExecutor) (job : Job) (answers : RunNextAnswers) :
    KubernetesExecutor × Except RunNextError Unit :=
  match answers.sanitize with
  | .error e => (self, .error e)
  | .ok _ =>
    match self.getWorkerServiceUrl answers job.key.dagId job.key.taskId with
    | (executor, .error e) => (executor, .error e)
    | (executor, .ok none) => (executor.putResult job (some .failed), .ok ())
    | (executor, .ok (some _)) =>
      match executor.invokeTask job answers.invocation with
      | (executor, false) => (executor, .ok ())
      | (executor, true) => (executor.putResult job (some .failed), .ok ())

/-- `run_next`. -/
def runNext (self : KubernetesExecutor) (job : Job) (answers : RunNextAnswers) :
    KubernetesExecutor × Except RunNextError Unit :=
  if job.command.take 3 ≠ ["airflow", "tasks", "run"] then (self, .error .other)
  else
    match answers.basePod with
    | .error e => (self, .error e)
    | .ok false => (self, .error .other)
    | .ok true =>
      match answers.constructPod with
      | .error e => (self, .error e)
      | .ok _ => self.runPodAsync job answers

/-- `process_watcher_task`. -/
def processWatcherTask (task : WatcherTask) : Result :=
  ⟨annotationsToKey task.annotations, task.state, task.podName, task.namespace_,
    task.resourceVersion, task.number⟩

/-- `kube_scheduler.sync`. -/
def schedulerSync (self : KubernetesExecutor) : KubernetesExecutor :=
  { self with
    watcherQueue := []
    resultQueue := self.resultQueue ++ self.watcherQueue.map processWatcherTask }

/-! ## `_change_state` -/

/-- Whether `delete_pod` raises. -/
def deletePodRaises : ApiAnswer → Bool
  | .done => false
  | .apiException status => status ≠ 404
  | .raised => true

/-- Whether `patch_pod_executor_done` raises. -/
def patchPodRaises : ApiAnswer → Bool
  | .raised => true
  | _ => false

/-- Whether the call of the API that `_change_state` makes for a task state raises. -/
def podCallRaises (config : KubeConfig) (state : TIState) (answer : ApiAnswer) : Bool :=
  if config.deleteWorkerPods then
    (state ≠ some .failed || config.deleteWorkerPodsOnFailure) && deletePodRaises answer
  else patchPodRaises answer

/-- `_change_state`; `none` if it raises. -/
def changeStateOf (self : KubernetesExecutor) (config : KubeConfig)
    (dbState : TaskInstanceKey → TIState) (answer : ApiAnswer) (result : Result) :
    Option KubernetesExecutor :=
  match result.state with
  | .adopted => some { self with running := self.running.filter (· ≠ result.key) }
  | .state (some .running) =>
    some { self with eventBuffer := self.eventBuffer.set result.key (some .running) }
  | .state state =>
    if podCallRaises config state answer then none
    else some (self.changeState result.number result.key
      (if state = none then dbState result.key else state))

/-- The body of the loop over the results: one that raises is put back. -/
def handleResult (self : KubernetesExecutor) (config : KubeConfig)
    (dbState : TaskInstanceKey → TIState) (answer : ApiAnswer) (result : Result) :
    KubernetesExecutor :=
  match self.changeStateOf config dbState answer result with
  | some executor => executor
  | none => { self with resultQueue := self.resultQueue ++ [result] }

/-- The loop over the results. -/
def handleResults (config : KubeConfig) (dbState : TaskInstanceKey → TIState) :
    List ApiAnswer → KubernetesExecutor → KubernetesExecutor
  | [], self =>
    self.resultQueue.foldl (fun executor result => executor.handleResult config dbState .done result)
      { self with resultQueue := [] }
  | answer :: answers, self =>
    match self.resultQueue with
    | [] => self
    | result :: results =>
      handleResults config dbState answers
        ({ self with resultQueue := results }.handleResult config dbState answer result)

/-! ## `sync` -/

/-- The handlers of the loop over the tasks, and whether they raise. -/
def handleError (self : KubernetesExecutor) (job : Job) :
    RunNextError → KubernetesExecutor × Bool
  | .podReconciliationError => (self.fail job, false)
  | .apiException status message =>
    if status = 400 ∨ status = 422 then (self.fail job, false)
    else
      match message with
      | none => (self, true)
      | some _ => ({ self with taskQueue := self.taskQueue ++ [job] }, false)
  | .podMutationHookException => (self.fail job, false)
  | .other => (self, true)

/-- The body of the loop over the tasks, and whether it raises. -/
def runTask (self : KubernetesExecutor) (job : Job) (answers : RunNextAnswers) :
    KubernetesExecutor × Bool :=
  match self.runNext job answers with
  | (executor, .ok _) => (executor, false)
  | (executor, .error e) => executor.handleError job e

/-- The loop over the tasks for as many turns as are left, `turn` being the number of the next. An
exception ends it, and the call of `sync`. -/
def runTasks (answers : Nat → RunNextAnswers) : Nat → Nat → KubernetesExecutor → KubernetesExecutor
  | 0, _, self => self
  | turns + 1, turn, self =>
    match self.taskQueue with
    | [] => self
    | job :: jobs =>
      match { self with taskQueue := jobs }.runTask job (answers turn) with
      | (executor, true) => executor
      | (executor, false) => runTasks answers turns (turn + 1) executor

/-- `sync`. -/
def sync (self : KubernetesExecutor) (config : KubeConfig) (answers : SyncAnswers) :
    KubernetesExecutor :=
  runTasks answers.runNext config.workerPodsCreationBatchSize 0
    (handleResults config answers.dbState answers.api self.schedulerSync)

/-! ## Runs -/

/-- A call on the executor. -/
inductive Call where
  | executeAsync (key : TaskInstanceKey) (command : List String) (validConfig : Bool)
  | sync (answers : SyncAnswers)

def step (config : KubeConfig) (self : KubernetesExecutor) : Call → KubernetesExecutor
  | .executeAsync key command validConfig => self.executeAsync key command validConfig
  | .sync answers => self.sync config answers

end KubernetesExecutor

end Airflow.Kubernetes
