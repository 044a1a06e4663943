import Airflow.State

/-!
# `BaseExecutor` and the calls `KubernetesExecutor` makes on it

`airflow/executors/base_executor.py` as operations on an `Executor`, with `execute_async` and
`_change_state` of `KubernetesExecutor`. The dicts are lists of entries with distinct keys. What
the environment decides comes as an argument of the operation: the outcome of `execute_async`, the
time since a key's first attempt, the results that `sync` finds.

`history` is the record of what happened to each key, which no operation reads: when a dispatch of
it began, and when it was given a terminal state.
-/

namespace Airflow

section
variable (Key Payload : Type)

/-- `QueuedTaskInstanceType` with its key: the command, queue and task instance are the
`payload`. -/
structure QueuedTask where
  key : Key
  priority : Int
  payload : Payload

/-- `RunningRetryAttemptType` of a key (its first attempt's time is read through the
environment). -/
structure RetryAttempt where
  key : Key
  totalTries : Nat
  triesAfterMin : Nat

/-- What the history of an executor records. -/
inductive ExecutorEvent where
  /-- `execute_async` is called for the key. -/
  | dispatched (key : Key)
  /-- The key's state is changed to `SUCCESS` or `FAILED`. -/
  | terminal (key : Key)

/-- The attributes of an executor. `task_queue` is `KubernetesExecutor`'s. -/
structure Executor where
  parallelism : Nat
  queuedTasks : List (QueuedTask Key Payload) := []
  running : List Key := []
  eventBuffer : List (Key × TIState) := []
  attempts : List (RetryAttempt Key) := []
  taskQueue : List (Key × Payload) := []
  history : List (ExecutorEvent Key) := []

end

/-- How `execute_async` ends: the task is accepted, or it is failed from inside (`self.fail`). -/
inductive ExecuteOutcome where
  | accepted
  | failed
  deriving DecidableEq, Repr

/-- A result that `KubernetesExecutor.sync` handles for a key. -/
inductive KubeResult where
  /-- The pod was adopted by another executor. -/
  | adopted
  | running
  /-- A Kubernetes call raised: the result is queued again. -/
  | apiError
  /-- The watcher reports a task state. -/
  | state (state : TaskInstanceState)
  /-- The watcher reports no state, and the database has this one. -/
  | noState (dbState : TIState)
  /-- The watcher reports no state, and reading it from the database raised. -/
  | dbError

/-- How `run_next` ends for the next task of the task queue: the pod is created, an error fails the
task, or an error puts it back. -/
inductive RunNextOutcome where
  | created
  | failed
  | requeued

namespace Executor

variable {Key Payload : Type} [DecidableEq Key]

/-- `dict[key] = value`. -/
def setEvent (buffer : List (Key × TIState)) (key : Key) (state : TIState) : List (Key × TIState) :=
  if key ∈ buffer.map (·.1) then buffer.map fun e => if e.1 = key then (key, state) else e
  else buffer ++ [(key, state)]

def isTerminal : TIState → Bool
  | some .success | some .failed => true
  | _ => false

/-- The history after the key's state is changed to `state`. -/
def recordState (history : List (ExecutorEvent Key)) (key : Key) (state : TIState) :
    List (ExecutorEvent Key) :=
  if isTerminal state then history ++ [.terminal key] else history

/-- `queue_command`. -/
def queueCommand (e : Executor Key Payload) (key : Key) (priority : Int) (payload : Payload) :
    Executor Key Payload :=
  if key ∉ e.queuedTasks.map (·.key) then
    { e with queuedTasks := e.queuedTasks ++ [⟨key, priority, payload⟩] }
  else e

/-- `change_state`. -/
def changeState (e : Executor Key Payload) (key : Key) (state : TIState) : Executor Key Payload :=
  { e with
    running := e.running.filter (· ≠ key)
    eventBuffer := setEvent e.eventBuffer key state
    history := recordState e.history key state }

/-- `fail`. -/
def fail (e : Executor Key Payload) (key : Key) : Executor Key Payload :=
  e.changeState key (some .failed)

/-- `KubernetesExecutor.execute_async`: an invalid `executor_config` fails the task at once, an
accepted one puts it in the task queue. -/
def executeAsync (e : Executor Key Payload) (key : Key) (payload : Payload)
    (outcome : ExecuteOutcome) : Executor Key Payload :=
  let e := { e with history := e.history ++ [ExecutorEvent.dispatched key] }
  match outcome with
  | .failed => e.fail key
  | .accepted =>
    { e with
      eventBuffer := setEvent e.eventBuffer key (some .queued)
      taskQueue := e.taskQueue ++ [(key, payload)] }

/-- The open slots that `heartbeat` passes to `trigger_tasks`. -/
def openSlots (e : Executor Key Payload) : Int :=
  if e.parallelism = 0 then e.queuedTasks.length else (e.parallelism : Int) - e.running.length

/-- `order_queued_tasks_by_priority`: a stable sort, highest priority first. -/
def orderQueuedTasksByPriority (e : Executor Key Payload) : List (QueuedTask Key Payload) :=
  e.queuedTasks.mergeSort fun a b => b.priority ≤ a.priority

/-- `attempts[key]` of the `defaultdict`. -/
def getAttempt (attempts : List (RetryAttempt Key)) (key : Key) : RetryAttempt Key :=
  (attempts.find? (·.key = key)).getD ⟨key, 0, 0⟩

/-- `can_try_again`, `elapsed` being whether more than `MIN_SECONDS` have passed since the first
attempt, with the attempt it leaves. -/
def canTryAgain (attempt : RetryAttempt Key) (elapsed : Bool) : Bool × RetryAttempt Key :=
  if attempt.triesAfterMin > 0 then (false, attempt)
  else (true, { attempt with
    totalTries := attempt.totalTries + 1
    triesAfterMin := if elapsed then attempt.triesAfterMin + 1 else attempt.triesAfterMin })

/-- One iteration of the loop in `trigger_tasks`, with the task tuples collected so far. -/
def triggerTask (elapsed : Key → Bool) (acc : Executor Key Payload × List (QueuedTask Key Payload))
    (task : QueuedTask Key Payload) : Executor Key Payload × List (QueuedTask Key Payload) :=
  let (e, taskTuples) := acc
  let others := e.attempts.filter (·.key ≠ task.key)
  if task.key ∈ e.running then
    match canTryAgain (getAttempt e.attempts task.key) (elapsed task.key) with
    | (true, attempt) => ({ e with attempts := others ++ [attempt] }, taskTuples)
    | (false, _) =>
      ({ e with
        attempts := others
        queuedTasks := e.queuedTasks.filter (·.key ≠ task.key) }, taskTuples)
  else ({ e with attempts := others }, taskTuples ++ [task])

/-- The loop of `trigger_tasks`: the executor after it and the tasks to process. -/
def collectTasks (e : Executor Key Payload) (openSlots : Int) (elapsed : Key → Bool) :
    Executor Key Payload × List (QueuedTask Key Payload) :=
  (e.orderQueuedTasksByPriority.take (min openSlots e.queuedTasks.length).toNat).foldl
    (triggerTask elapsed) (e, [])

/-- One iteration of `_process_tasks`: the key enters `running` after `execute_async` returned. -/
def processTask (outcome : Key → Payload → ExecuteOutcome) (e : Executor Key Payload)
    (task : QueuedTask Key Payload) : Executor Key Payload :=
  let e := { e with queuedTasks := e.queuedTasks.filter (·.key ≠ task.key) }
  let e := e.executeAsync task.key task.payload (outcome task.key task.payload)
  { e with running := if task.key ∈ e.running then e.running else e.running ++ [task.key] }

/-- `trigger_tasks`. -/
def triggerTasks (e : Executor Key Payload) (openSlots : Int) (elapsed : Key → Bool)
    (outcome : Key → Payload → ExecuteOutcome) : Executor Key Payload :=
  let (e, taskTuples) := e.collectTasks openSlots elapsed
  taskTuples.foldl (processTask outcome) e

/-- `KubernetesExecutor._change_state` for one result. -/
def changeStateKube (e : Executor Key Payload) (key : Key) : KubeResult → Executor Key Payload
  | .adopted | .dbError => { e with running := e.running.filter (· ≠ key) }
  | .running => { e with eventBuffer := setEvent e.eventBuffer key (some .running) }
  | .apiError => e
  | .state state => e.changeState key (some state)
  | .noState dbState => e.changeState key dbState

/-- One iteration of the loop of `KubernetesExecutor.sync` over the task queue. -/
def runNextTask (e : Executor Key Payload) (outcome : RunNextOutcome) : Executor Key Payload :=
  match e.taskQueue with
  | [] => e
  | (key, payload) :: rest =>
    match outcome with
    | .created => { e with taskQueue := rest }
    | .failed => { e with taskQueue := rest }.fail key
    | .requeued => { e with taskQueue := rest ++ [(key, payload)] }

/-- `KubernetesExecutor.sync`: the results it finds, then the tasks it starts. -/
def sync (e : Executor Key Payload) (results : List (Key × KubeResult))
    (runs : List RunNextOutcome) : Executor Key Payload :=
  runs.foldl runNextTask (results.foldl (fun e r => e.changeStateKube r.1 r.2) e)

/-- `heartbeat`. -/
def heartbeat (e : Executor Key Payload) (elapsed : Key → Bool)
    (outcome : Key → Payload → ExecuteOutcome) (results : List (Key × KubeResult))
    (runs : List RunNextOutcome) : Executor Key Payload :=
  (e.triggerTasks e.openSlots elapsed outcome).sync results runs

/-! ## Sequences of calls -/

/-- A call on an executor. A heartbeat is a `triggerTasks` followed by a `sync`
(`heartbeat_eq_calls`). -/
inductive Call (Key Payload : Type) where
  | queueCommand (key : Key) (priority : Int) (payload : Payload)
  | triggerTasks (openSlots : Int) (elapsed : Key → Bool)
      (outcome : Key → Payload → ExecuteOutcome)
  | sync (results : List (Key × KubeResult)) (runs : List RunNextOutcome)
  | changeState (key : Key) (state : TIState)

/-- The executor after a call. -/
def call (e : Executor Key Payload) : Call Key Payload → Executor Key Payload
  | .queueCommand key priority payload => e.queueCommand key priority payload
  | .triggerTasks openSlots elapsed outcome => e.triggerTasks openSlots elapsed outcome
  | .sync results runs => e.sync results runs
  | .changeState key state => e.changeState key state

theorem heartbeat_eq_calls (e : Executor Key Payload) (elapsed : Key → Bool)
    (outcome : Key → Payload → ExecuteOutcome) (results : List (Key × KubeResult))
    (runs : List RunNextOutcome) :
    e.heartbeat elapsed outcome results runs =
      (e.call (.triggerTasks e.openSlots elapsed outcome)).call (.sync results runs) := rfl

end Executor

end Airflow
