import Airflow.Lib.Dict
import Mathlib.Data.List.Dedup

/-!
# `TriggerRunner`

`update_triggers`, `create_triggers`, `cancel_triggers` and `cleanup_finished_triggers` of
`jobs/triggerer_job_runner.py`, with `Trigger.bulk_fetch` of `models/trigger.py`. What runs inside a
trigger's coroutine is not known: at each `await asyncio.sleep(0)` of the runner, the coroutines
take any number of steps (`CoroutineStep`), each of which sends an event or ends one of them.
-/

namespace Airflow.Triggerer

/-! ## Exceptions -/

/-- The classes of exceptions that the handlers of the runner tell apart. -/
inductive ExceptionClass where
  | typeError
  | otherException
  | cancelledError
  | systemExit
  | keyboardInterrupt
  | otherBaseException
  deriving DecidableEq, Repr

/-- An exception; `cls` is the class among those told apart that it is an instance of. -/
structure PyException where
  cls : ExceptionClass
  message : String
  deriving DecidableEq, Repr

/-! ## Rows and objects -/

/-- What the runner reads and sets of a task instance. -/
structure TaskInstance where
  dagId : String
  runId : String
  taskId : String
  mapIndex : Int := -1
  tryNumber : Nat
  isTriggerLogContext : Bool := false
  deriving DecidableEq, Repr

/-- A row of the `trigger` table with its task instance. -/
structure TriggerRow (Kwargs : Type) where
  id : Nat
  classpath : String
  kwargs : Kwargs
  taskInstance : Option TaskInstance

/-- The `trigger` table. Reading the `kwargs` of a row deserializes them, which may raise. -/
structure TriggerTable (Kwargs : Type) where
  rows : List (TriggerRow (Except PyException Kwargs))
  id_nodup : (rows.map (·.id)).Nodup

/-- A trigger with the attributes that `set_trigger_logging_metadata` sets. -/
structure TriggerInstance (Obj : Type) where
  trigger : Obj
  taskInstance : Option TaskInstance
  triggererJobId : Option Nat
  triggerId : Nat

/-- The code of the triggers: `import_string`, and the call of a class for the trigger with an
id. -/
structure TriggerCode (Kwargs Class Obj : Type) where
  importString : String → Except PyException Class
  construct : Nat → Class → Kwargs → Except PyException Obj

/-- How a coroutine ends: it returns, a `TriggerEvent` or something else, or it raises. -/
inductive TaskResult where
  | returned (isTriggerEvent : Bool)
  | raised (exc : PyException)
  deriving DecidableEq, Repr

/-- An `asyncio.Task`. -/
structure AsyncTask where
  result : Option TaskResult := none
  cancelRequested : Bool := false
  deriving DecidableEq, Repr

/-- `task.done()`. -/
def AsyncTask.done (task : AsyncTask) : Bool := task.result.isSome

/-- `task.cancel()`. -/
def AsyncTask.cancel (task : AsyncTask) : AsyncTask :=
  if task.done then task else { task with cancelRequested := true }

structure TriggerDetails where
  task : AsyncTask
  name : String
  events : Nat
  deriving DecidableEq, Repr

structure TriggerRunner (Class Obj Event : Type) where
  triggers : Dict Nat TriggerDetails := {}
  triggerCache : Dict String Class := {}
  toCreate : List (Nat × TriggerInstance Obj) := []
  toCancel : List Nat := []
  events : List (Nat × Event) := []
  failedTriggers : List (Nat × Option PyException) := []
  stop : Bool := false
  jobId : Option Nat := none

/-- A step of a coroutine while the runner waits. -/
inductive CoroutineStep (Event : Type) where
  | fire (triggerId : Nat) (event : Event)
  | finish (triggerId : Nat) (result : TaskResult)

variable {Kwargs Class Obj Event : Type}

/-! ## `Trigger.bulk_fetch` -/

/-- Reads one row. -/
def TriggerRow.load (row : TriggerRow (Except PyException Kwargs)) :
    Except PyException (TriggerRow Kwargs) :=
  match row.kwargs with
  | .error e => .error e
  | .ok kwargs => .ok ⟨row.id, row.classpath, kwargs, row.taskInstance⟩

/-- Reads the rows that a query selects. -/
def loadRows : List (TriggerRow (Except PyException Kwargs)) →
    Except PyException (List (TriggerRow Kwargs))
  | [] => .ok []
  | row :: rows =>
    match row.load with
    | .error e => .error e
    | .ok loaded =>
      match loadRows rows with
      | .error e => .error e
      | .ok rest => .ok (loaded :: rest)

/-- `Trigger.bulk_fetch`; the dictionary that it returns is its list of values. -/
def bulkFetch (table : TriggerTable Kwargs) (ids : List Nat) :
    Except PyException (List (TriggerRow Kwargs)) :=
  loadRows (table.rows.filter (·.id ∈ ids))

namespace TriggerRunner

/-! ## `update_triggers` -/

/-- The ids that `update_triggers` does not request again. -/
def knownTriggerIds (self : TriggerRunner Class Obj Event) : List Nat :=
  self.triggers.keys ++ self.events.map Prod.fst ++ self.toCancel ++ self.toCreate.map Prod.fst ++
    self.failedTriggers.map Prod.fst

/-- `new_trigger_ids`, in the order in which the set is walked through. -/
def newTriggerIds (self : TriggerRunner Class Obj Event) (requested : List Nat) : List Nat :=
  requested.dedup.filter (· ∉ self.knownTriggerIds)

/-- `cancel_trigger_ids`. -/
def cancelTriggerIds (self : TriggerRunner Class Obj Event) (requested : List Nat) : List Nat :=
  self.triggers.keys.filter (· ∉ requested)

/-- `get_trigger_by_classpath`, with the cache that it leaves. -/
def getTriggerByClasspath (self : TriggerRunner Class Obj Event)
    (code : TriggerCode Kwargs Class Obj) (classpath : String) :
    Except PyException (Class × Dict String Class) :=
  match self.triggerCache.get? classpath with
  | some cls => .ok (cls, self.triggerCache)
  | none =>
    match code.importString classpath with
    | .error e => .error e
    | .ok cls => .ok (cls, self.triggerCache.set classpath cls)

/-- `set_trigger_logging_metadata`. -/
def setTriggerLoggingMetadata (self : TriggerRunner Class Obj Event) (ti : Option TaskInstance)
    (triggerId : Nat) (trigger : Obj) : TriggerInstance Obj where
  trigger := trigger
  taskInstance := ti.map fun ti => { ti with isTriggerLogContext := true }
  triggererJobId := self.jobId
  triggerId := triggerId

/-- `self.failed_triggers.append((trigger_id, exc))`. -/
def fail (self : TriggerRunner Class Obj Event) (triggerId : Nat) (exc : Option PyException) :
    TriggerRunner Class Obj Event :=
  { self with failedTriggers := self.failedTriggers ++ [(triggerId, exc)] }

/-- One turn of the loop of `update_triggers` over the new ids, with the exception that leaves
it. -/
def addTrigger (self : TriggerRunner Class Obj Event) (code : TriggerCode Kwargs Class Obj)
    (newTriggers : List (TriggerRow Kwargs)) (newId : Nat) :
    TriggerRunner Class Obj Event × Option PyException :=
  match newTriggers.find? (·.id = newId) with
  | none => (self, none)
  | some row =>
    match self.getTriggerByClasspath code row.classpath with
    | .error e => (self.fail newId (some e), none)
    | .ok (cls, cache) =>
      let self := { self with triggerCache := cache }
      match code.construct newId cls row.kwargs with
      | .error e =>
        if e.cls = .typeError then (self.fail newId (some e), none) else (self, some e)
      | .ok trigger =>
        ({ self with
            toCreate := self.toCreate ++
              [(newId, self.setTriggerLoggingMetadata row.taskInstance newId trigger)] },
          none)

/-- The loop of `update_triggers` over the new ids. -/
def addTriggers (code : TriggerCode Kwargs Class Obj) (newTriggers : List (TriggerRow Kwargs)) :
    TriggerRunner Class Obj Event → List Nat → TriggerRunner Class Obj Event × Option PyException
  | self, [] => (self, none)
  | self, newId :: newIds =>
    match self.addTrigger code newTriggers newId with
    | (self, some e) => (self, some e)
    | (self, none) => addTriggers code newTriggers self newIds

/-- `update_triggers`, with the exception that it raises. -/
def updateTriggers (self : TriggerRunner Class Obj Event) (code : TriggerCode Kwargs Class Obj)
    (table : TriggerTable Kwargs) (requested : List Nat) :
    TriggerRunner Class Obj Event × Option PyException :=
  match bulkFetch table (self.newTriggerIds requested) with
  | .error e => (self, some e)
  | .ok newTriggers =>
    match addTriggers code newTriggers self (self.newTriggerIds requested) with
    | (updated, some e) => (updated, some e)
    | (updated, none) =>
      ({ updated with toCancel := updated.toCancel ++ self.cancelTriggerIds requested }, none)

/-! ## Coroutines -/

/-- What one step of a coroutine does. A task that is not there or has ended takes none. -/
def runCoroutine (self : TriggerRunner Class Obj Event) :
    CoroutineStep Event → TriggerRunner Class Obj Event
  | .fire triggerId event =>
    match self.triggers.get? triggerId with
    | none => self
    | some details =>
      if details.task.done then self
      else
        { self with
          triggers := self.triggers.set triggerId { details with events := details.events + 1 }
          events := self.events ++ [(triggerId, event)] }
  | .finish triggerId result =>
    match self.triggers.get? triggerId with
    | none => self
    | some details =>
      if details.task.done then self
      else
        { self with
          triggers :=
            self.triggers.set triggerId
              { details with task := { details.task with result := some result } } }

/-- `await asyncio.sleep(0)`. -/
def sleep (self : TriggerRunner Class Obj Event) (steps : List (CoroutineStep Event)) :
    TriggerRunner Class Obj Event :=
  steps.foldl runCoroutine self

/-! ## `create_triggers` -/

/-- The name of a running trigger. -/
def triggerName (ti : TaskInstance) (triggerId : Nat) : String :=
  s!"{ti.dagId}/{ti.runId}/{ti.taskId}/{ti.mapIndex}/{ti.tryNumber} (ID {triggerId})"

/-- One turn of the loop of `create_triggers` up to its `await`, with the exception that leaves it:
the name of a trigger without a task instance cannot be written. -/
def createTrigger (self : TriggerRunner Class Obj Event) (triggerId : Nat)
    (instance' : TriggerInstance Obj) : TriggerRunner Class Obj Event × Option PyException :=
  if triggerId ∉ self.triggers.keys then
    match instance'.taskInstance with
    | none => (self, some ⟨.otherException, "'NoneType' object has no attribute 'dag_id'"⟩)
    | some ti =>
      ({ self with triggers := self.triggers.set triggerId ⟨{}, triggerName ti triggerId, 0⟩ },
        none)
  else (self, none)

/-- The loop of `create_triggers` over the queue; `turns i` are the steps of the coroutines at its
`i`-th `await`. -/
def createLoop : List (Nat × TriggerInstance Obj) → (Nat → List (CoroutineStep Event)) →
    TriggerRunner Class Obj Event → TriggerRunner Class Obj Event × Option PyException
  | [], _, self => (self, none)
  | (triggerId, instance') :: rest, turns, self =>
    match { self with toCreate := rest }.createTrigger triggerId instance' with
    | (self, some e) => (self, some e)
    | (self, none) => createLoop rest (fun i => turns (i + 1)) (self.sleep (turns 0))

/-- `create_triggers`. -/
def createTriggers (self : TriggerRunner Class Obj Event)
    (turns : Nat → List (CoroutineStep Event)) :
    TriggerRunner Class Obj Event × Option PyException :=
  createLoop self.toCreate turns self

/-! ## `cancel_triggers` -/

/-- One turn of the loop of `cancel_triggers` up to its `await`. -/
def cancelTrigger (self : TriggerRunner Class Obj Event) (triggerId : Nat) :
    TriggerRunner Class Obj Event :=
  match self.triggers.get? triggerId with
  | none => self
  | some details =>
    { self with
      triggers := self.triggers.set triggerId { details with task := details.task.cancel } }

/-- The loop of `cancel_triggers` over the queue. -/
def cancelLoop : List Nat → (Nat → List (CoroutineStep Event)) →
    TriggerRunner Class Obj Event → TriggerRunner Class Obj Event
  | [], _, self => self
  | triggerId :: rest, turns, self =>
    cancelLoop rest (fun i => turns (i + 1))
      (({ self with toCancel := rest }.cancelTrigger triggerId).sleep (turns 0))

/-- `cancel_triggers`. -/
def cancelTriggers (self : TriggerRunner Class Obj Event)
    (turns : Nat → List (CoroutineStep Event)) : TriggerRunner Class Obj Event :=
  cancelLoop self.toCancel turns self

/-! ## `cleanup_finished_triggers` -/

/-- The exceptions after which a trigger is dropped without a word. -/
def ExpectedExit : TaskResult → Prop
  | .raised e => e.cls = .cancelledError ∨ e.cls = .systemExit ∨ e.cls = .keyboardInterrupt
  | .returned _ => False

instance : DecidablePred ExpectedExit
  | .raised e => inferInstanceAs (Decidable (e.cls = _ ∨ e.cls = _ ∨ e.cls = _))
  | .returned _ => instDecidableFalse

/-- `saved_exc`. -/
def savedExc : TaskResult → Option PyException
  | .raised e => some e
  | .returned _ => none

/-- One turn of the loop of `cleanup_finished_triggers` up to its `await`. -/
def cleanupTrigger (self : TriggerRunner Class Obj Event) (triggerId : Nat) :
    TriggerRunner Class Obj Event :=
  match self.triggers.get? triggerId with
  | none => self
  | some details =>
    match details.task.result with
    | none => self
    | some result =>
      let failed :=
        if ¬ExpectedExit result ∧ details.events = 0 then
          self.fail triggerId (savedExc result)
        else self
      { failed with triggers := failed.triggers.erase triggerId }

/-- The loop of `cleanup_finished_triggers` over the ids of the items. -/
def cleanupLoop : List Nat → (Nat → List (CoroutineStep Event)) →
    TriggerRunner Class Obj Event → TriggerRunner Class Obj Event
  | [], _, self => self
  | triggerId :: rest, turns, self =>
    cleanupLoop rest (fun i => turns (i + 1)) ((self.cleanupTrigger triggerId).sleep (turns 0))

/-- `cleanup_finished_triggers`. -/
def cleanupFinishedTriggers (self : TriggerRunner Class Obj Event)
    (turns : Nat → List (CoroutineStep Event)) : TriggerRunner Class Obj Event :=
  cleanupLoop self.triggers.keys turns self

/-! ## `arun` -/

/-- The steps of the coroutines at the `await`s of one turn of `arun`. -/
structure Turns (Event : Type) where
  create : Nat → List (CoroutineStep Event) := fun _ => []
  cancel : Nat → List (CoroutineStep Event) := fun _ => []
  cleanup : Nat → List (CoroutineStep Event) := fun _ => []

/-- One turn of the loop of `arun`, with the exception that leaves it. -/
def arunTurn (self : TriggerRunner Class Obj Event) (turns : Turns Event) :
    TriggerRunner Class Obj Event × Option PyException :=
  match self.createTriggers turns.create with
  | (created, some e) => ({ created with stop := true }, some e)
  | (created, none) =>
    ((created.cancelTriggers turns.cancel).cleanupFinishedTriggers turns.cleanup, none)

end TriggerRunner

end Airflow.Triggerer
