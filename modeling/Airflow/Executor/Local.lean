import Airflow.Executor.Base
import Airflow.Lib.Transition

/-!
# `LocalExecutor`

`airflow/executors/local_executor.py`: the executor runs commands in worker processes of its own.
With limited parallelism (`LimitedParallelism`) they share a queue of tasks and leave when they find
a poison pill in it, with unlimited parallelism (`UnlimitedParallelism`) each command has a process.
The results come back through a second queue, which `sync` reads.

The executor and the workers take their steps in any order (`step`); a step is one operation on a
queue. A command may raise out of its worker, and a worker may be killed at any point. The process
that keeps the queues is taken to live.
-/

namespace Airflow.LocalExecutor

/-- A key and its command: what is put in the task queue. -/
abbrev Work (Key : Type) := Key × List String

/-! ## State -/

/-- Where a worker is in `do_work`. -/
inductive Worker (Key : Type) where
  /-- It waits for the task queue. -/
  | waiting
  | working (work : Work Key)
  /-- The result is put, and `task_done` is to be called. -/
  | executed
  /-- It has read the poison pill, and `task_done` is to be called. -/
  | poisoned
  /-- The command has raised something else than a failure, and `task_done` is to be called. -/
  | raised
  | exited
  /-- The process is gone, with what it has read accounted for (`died`) or not (`killed`). -/
  | died
  | killed

/-- Where the executor is in `end`. -/
inductive Phase where
  /-- `end` was not called. -/
  | started
  /-- Poison pills are to be put, and then the task queue is joined. -/
  | poisoning (pills : Nat)
  /-- The last `sync`, of `LimitedParallelism`. -/
  | syncing
  /-- The loop of `UnlimitedParallelism`. -/
  | draining
  | returned
  deriving DecidableEq

/-- The executor, its queues and workers. -/
structure System (Key : Type) where
  executor : Executor Key (List String)
  phase : Phase
  /-- Tasks and poison pills. -/
  taskQueue : List (Option (Work Key))
  /-- The tasks that are put and not done. -/
  unfinishedTasks : Nat
  resultQueue : List (Key × TaskInstanceState)
  workers : List (Worker Key)
  workersActive : Int
  /-- What `execute_async` was called for, for the statements. -/
  submitted : List (Work Key)
  /-- The commands that workers have executed. -/
  outcomes : List (Work Key × TaskInstanceState)
  /-- The commands that ended with their workers. -/
  lost : List (Work Key)
  /-- The calls of `change_state`. -/
  reported : List (Key × TaskInstanceState)

variable {Key : Type} [DecidableEq Key]

/-- `start`. -/
def start (parallelism : Nat) : System Key where
  executor := { parallelism }
  phase := .started
  taskQueue := []
  unfinishedTasks := 0
  resultQueue := []
  workers := List.replicate parallelism .waiting
  workersActive := 0
  submitted := []
  outcomes := []
  lost := []
  reported := []

namespace System

variable (s : System Key)

def unlimited : Bool := s.executor.parallelism = 0

/-! ## The executor -/

/-- `validate_airflow_tasks_run_command` raises nothing. -/
def validCommand (command : List String) : Bool := command.take 3 = ["airflow", "tasks", "run"]

/-- `impl.execute_async`. -/
def executeAsync (work : Work Key) : System Key :=
  if s.unlimited then
    { s with
      workers := s.workers ++ [.working work]
      workersActive := s.workersActive + 1
      submitted := s.submitted ++ [work] }
  else
    { s with
      taskQueue := s.taskQueue ++ [some work]
      unfinishedTasks := s.unfinishedTasks + 1
      submitted := s.submitted ++ [work] }

/-- An iteration of `_process_tasks`; it raises on an invalid command. -/
def processTask (key : Key) (command : List String) : System Key :=
  let executor :=
    { s.executor with queuedTasks := s.executor.queuedTasks.filter (·.key ≠ key) }
  if validCommand command then
    { executeAsync s (key, command) with
      executor := { executor with
        running :=
          if key ∈ executor.running then executor.running else executor.running ++ [key] } }
  else { s with executor }

/-- An iteration of the loop of `sync`. -/
def report : System Key :=
  match s.resultQueue with
  | [] => s
  | (key, state) :: rest =>
    { s with
      executor := s.executor.changeState key (some state)
      resultQueue := rest
      workersActive := if s.unlimited then s.workersActive - 1 else s.workersActive
      reported := s.reported ++ [(key, state)] }

/-- The next step of `end`, if it need not wait. -/
def advanceEnd : System Key :=
  match s.phase with
  | .started =>
    { s with phase := if s.unlimited then .draining else .poisoning s.workers.length }
  | .poisoning (pills + 1) =>
    { s with
      phase := .poisoning pills
      taskQueue := s.taskQueue ++ [none]
      unfinishedTasks := s.unfinishedTasks + 1 }
  | .poisoning 0 => if s.unfinishedTasks = 0 then { s with phase := .syncing } else s
  | .syncing => if s.resultQueue = [] then { s with phase := .returned } else s.report
  | .draining => if 0 < s.workersActive then s.report else { s with phase := .returned }
  | .returned => s

/-! ## Workers -/

def setWorker (i : Nat) (worker : Worker Key) : System Key :=
  { s with workers := s.workers.set i worker }

/-- `task_queue.get()`. -/
def get (i : Nat) : System Key :=
  match s.workers[i]?, s.taskQueue with
  | some .waiting, some work :: rest => { s.setWorker i (.working work) with taskQueue := rest }
  | some .waiting, none :: rest => { s.setWorker i .poisoned with taskQueue := rest }
  | _, _ => s

/-- The end of `execute_work`: the result is put. -/
def putResult (i : Nat) (state : TaskInstanceState) : System Key :=
  match s.workers[i]? with
  | some (.working work) =>
    { s.setWorker i (if s.unlimited then .exited else .executed) with
      resultQueue := s.resultQueue ++ [(work.1, state)]
      outcomes := s.outcomes ++ [(work, state)] }
  | _ => s

/-- `execute_work` raises. -/
def raise (i : Nat) : System Key :=
  match s.workers[i]? with
  | some (.working work) =>
    { s.setWorker i (if s.unlimited then .died else .raised) with lost := s.lost ++ [work] }
  | _ => s

/-- `task_queue.task_done()`, and what the worker does then. -/
def taskDone (i : Nat) : System Key :=
  match s.workers[i]? with
  | some .executed =>
    { s.setWorker i .waiting with unfinishedTasks := s.unfinishedTasks - 1 }
  | some .poisoned => { s.setWorker i .exited with unfinishedTasks := s.unfinishedTasks - 1 }
  | some .raised => { s.setWorker i .died with unfinishedTasks := s.unfinishedTasks - 1 }
  | _ => s

/-- The process of a worker is killed. -/
def kill (i : Nat) : System Key :=
  match s.workers[i]? with
  | some .waiting => s.setWorker i .died
  | some (.working work) => { s.setWorker i .killed with lost := s.lost ++ [work] }
  | some .executed | some .poisoned | some .raised => s.setWorker i .killed
  | _ => s

end System

/-! ## Runs -/

inductive Event (Key : Type) where
  | processTask (key : Key) (command : List String)
  | sync
  | advanceEnd
  | get (i : Nat)
  | putResult (i : Nat) (state : TaskInstanceState)
  | raise (i : Nat)
  | taskDone (i : Nat)
  | kill (i : Nat)

def step (s : System Key) : Event Key → System Key
  | .processTask key command => if s.phase = .started then s.processTask key command else s
  | .sync => if s.phase = .started then s.report else s
  | .advanceEnd => s.advanceEnd
  | .get i => s.get i
  | .putResult i state => s.putResult i state
  | .raise i => s.raise i
  | .taskDone i => s.taskDone i
  | .kill i => s.kill i

end Airflow.LocalExecutor
