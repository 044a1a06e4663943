import Airflow.Triggerer.CleanUnused
import Airflow.Triggerer.Runner

/-!
# The two threads of the triggerer

`TriggererJobRunner._run_trigger_loop`, which loads triggers and hands their events on, beside
`TriggerRunner.arun`, which runs them. A step is one access of a thread to `triggers` or to one of
the four deques, or one transaction. Only the async thread writes `triggers` and takes from
`to_create` and `to_cancel`, and only the main thread takes from `events` and `failed_triggers`; a
thread's look at what only it takes from or writes goes with the access that follows. Coroutines run
where the async thread awaits. The rest of Airflow acts on the tables at any time (`Elsewhere`). A
signal only ends a run.

`started`, `queued` and `handled` record, for each row since it was assigned to this triggerer, the
coroutines that were started, the events and failures that were queued, and those that were passed
on. `doublePuts` and `restarts` record what must not happen. No step reads them.
-/

namespace Airflow.Triggerer

variable {Kwargs Class Obj Event : Type}

/-! ## The threads -/

/-- A deque that `update_triggers` reads after `triggers`. -/
inductive Collection where
  | events
  | toCancel
  | toCreate
  | failedTriggers
  deriving DecidableEq, Repr

/-- The ids in a deque. -/
def Collection.ids (runner : TriggerRunner Class Obj Event) : Collection → List Nat
  | .events => runner.events.map Prod.fst
  | .toCancel => runner.toCancel
  | .toCreate => runner.toCreate.map Prod.fst
  | .failedTriggers => runner.failedTriggers.map Prod.fst

/-- The variables of `update_triggers`; `known` grows with each read. -/
structure Reads where
  requested : List Nat
  running : List Nat
  known : List Nat

/-- `new_trigger_ids`. -/
def Reads.newTriggerIds (reads : Reads) : List Nat :=
  reads.requested.dedup.filter (· ∉ reads.known)

/-- `cancel_trigger_ids`. -/
def Reads.cancelTriggerIds (reads : Reads) : List Nat :=
  reads.running.filter (· ∉ reads.requested)

/-- What the main thread does next. -/
inductive MainThread (Kwargs Event : Type) where
  | cleanUnused
  | assignUnassigned
  | idsForTriggerer
  | readTriggers (requested : List Nat)
  /-- `left` are the deques that are not read yet; after them comes the bulk-fetch. -/
  | readKnown (reads : Reads) (left : List Collection)
  | addTriggers (reads : Reads) (newTriggers : List (TriggerRow Kwargs)) (newIds : List Nat)
  | handleEvents
  | submitEvent (triggerId : Nat) (event : Event)
  | handleFailedTriggers
  | submitFailure (triggerId : Nat) (exc : Option PyException)
  | exited

/-- What the async thread does next. -/
inductive AsyncThread (Obj : Type) where
  | createTriggers
  | createTrigger (triggerId : Nat) (instance' : TriggerInstance Obj)
  | cancelTriggers
  | cancelTrigger (triggerId : Nat)
  | cleanupFinishedTriggers
  | cleanupTriggers (triggerIds : List Nat)
  /-- `expected` says that the loop continues without an `await`. -/
  | deleteTrigger (triggerId : Nat) (expected : Bool) (triggerIds : List Nat)
  | exited

/-- The two threads, what they share, the tables, and the records. -/
structure Threads (Kwargs Class Obj Event : Type) where
  runner : TriggerRunner Class Obj Event := {}
  main : MainThread Kwargs Event := .cleanUnused
  async : AsyncThread Obj := .createTriggers
  /-- The async thread awaits, so that coroutines run. -/
  awaiting : Bool := false
  /-- The event that a coroutine has counted and not queued yet. -/
  firing : Option (Nat × Event) := none
  tables : CleanUnused.Tables
  /-- The column `triggerer_id`. -/
  triggererId : Nat → Option Nat
  started : List Nat := []
  queued : List Nat := []
  handled : List Nat := []
  doublePuts : List Nat := []
  restarts : List Nat := []

/-- A step of the system; what is chosen outside the two threads is part of it. -/
inductive ThreadStep (Kwargs Event : Type) where
  | main
  | assignUnassigned (triggerIds : List Nat)
  | bulkFetch (table : TriggerTable Kwargs)
  | async
  | fire (triggerId : Nat) (event : Event)
  | finish (triggerId : Nat) (result : TaskResult)
  | elsewhere (tables : CleanUnused.Tables) (triggererId : Nat → Option Nat)

/-! ## The tables -/

/-- What `submit_event` and `submit_failure` do to the task instances. -/
def wakeUp (triggerId : Nat) (rows : List CleanUnused.TaskInstance) :
    List CleanUnused.TaskInstance :=
  rows.map fun ti =>
    if ti.triggerId = some triggerId ∧ ti.state = some .deferred then ⟨some .scheduled, none⟩
    else ti

/-- What everything but this triggerer does to the tables: no row is assigned to it, and a task
instance is only deferred together with a new row. -/
def Elsewhere (jobId : Nat) (tables tables' : CleanUnused.Tables)
    (triggererId triggererId' : Nat → Option Nat) : Prop :=
  ∀ id ∈ tables'.triggers, triggererId' id = some jobId →
    (id ∈ tables.triggers ∧ triggererId id = some jobId) ∧
    ∀ ti' ∈ tables'.taskInstances, ti'.state = some .deferred ∧ ti'.triggerId = some id →
      ∃ ti ∈ tables.taskInstances, ti.state = some .deferred ∧ ti.triggerId = some id

instance (jobId : Nat) (tables tables' : CleanUnused.Tables)
    (triggererId triggererId' : Nat → Option Nat) :
    Decidable (Elsewhere jobId tables tables' triggererId triggererId') :=
  inferInstanceAs (Decidable (∀ id ∈ _, _ → (_ ∧ _) ∧ ∀ ti' ∈ _, _ → ∃ ti ∈ _, _))

namespace Threads

/-- The row is assigned to the triggerer. -/
def Assigned (s : Threads Kwargs Class Obj Event) (jobId id : Nat) : Prop :=
  id ∈ s.tables.triggers ∧ s.triggererId id = some jobId

instance (s : Threads Kwargs Class Obj Event) (jobId id : Nat) : Decidable (s.Assigned jobId id) :=
  inferInstanceAs (Decidable (_ ∧ _))

/-! ## The main thread -/

/-- `Trigger.assign_unassigned`, with the rows that it selects. -/
def assignUnassigned (s : Threads Kwargs Class Obj Event) (jobId : Nat) (triggerIds : List Nat) :
    Threads Kwargs Class Obj Event :=
  let assigned := triggerIds.filter fun id => id ∈ s.tables.triggers ∧ ¬s.Assigned jobId id
  { s with
    triggererId := fun id => if id ∈ assigned then some jobId else s.triggererId id
    main := .idsForTriggerer
    started := s.started.filter (· ∉ assigned)
    queued := s.queued.filter (· ∉ assigned)
    handled := s.handled.filter (· ∉ assigned) }

/-- The bulk-fetch of `update_triggers`. -/
def bulkFetch (s : Threads Kwargs Class Obj Event) (reads : Reads) (table : TriggerTable Kwargs) :
    Threads Kwargs Class Obj Event :=
  match Triggerer.bulkFetch table reads.newTriggerIds with
  | .error _ => { s with runner := { s.runner with stop := true }, main := .exited }
  | .ok newTriggers => { s with main := .addTriggers reads newTriggers reads.newTriggerIds }

/-- One turn of the loop of `update_triggers` over the new ids. An exception ends the thread. -/
def addTrigger (s : Threads Kwargs Class Obj Event) (code : TriggerCode Kwargs Class Obj)
    (jobId : Nat) (reads : Reads) (newTriggers : List (TriggerRow Kwargs)) (newId : Nat)
    (newIds : List Nat) : Threads Kwargs Class Obj Event :=
  match s.runner.addTrigger code newTriggers newId with
  | (runner, some _) => { s with runner := { runner with stop := true }, main := .exited }
  | (runner, none) =>
    { s with
      runner := runner
      main := .addTriggers reads newTriggers newIds
      queued :=
        if s.runner.failedTriggers.length < runner.failedTriggers.length then newId :: s.queued
        else s.queued
      doublePuts :=
        if s.runner.toCreate.length < runner.toCreate.length ∧ s.Assigned jobId newId ∧
            (newId ∈ s.runner.toCreate.map Prod.fst ∨ newId ∈ s.runner.triggers.keys) then
          newId :: s.doublePuts
        else s.doublePuts }

/-- The end of `Trigger.submit_event` or `Trigger.submit_failure`. -/
def submit (s : Threads Kwargs Class Obj Event) (triggerId : Nat)
    (main : MainThread Kwargs Event) : Threads Kwargs Class Obj Event :=
  { s with
    tables := { s.tables with taskInstances := wakeUp triggerId s.tables.taskInstances }
    main := main
    handled := triggerId :: s.handled }

/-- The next step of the main thread, where it does not depend on a choice. -/
def stepMain (s : Threads Kwargs Class Obj Event) (code : TriggerCode Kwargs Class Obj)
    (jobId : Nat) : Threads Kwargs Class Obj Event :=
  match s.main with
  | .cleanUnused =>
    if s.runner.stop then { s with main := .exited }
    else { s with tables := CleanUnused.cleanUnused s.tables, main := .assignUnassigned }
  | .idsForTriggerer =>
    { s with
      main := .readTriggers (s.tables.triggers.filter fun id => s.triggererId id = some jobId) }
  | .readTriggers requested =>
    { s with
      main := .readKnown ⟨requested, s.runner.triggers.keys, s.runner.triggers.keys⟩
        [.events, .toCancel, .toCreate, .failedTriggers] }
  | .readKnown reads (collection :: left) =>
    { s with
      main := .readKnown { reads with known := reads.known ++ collection.ids s.runner } left }
  | .addTriggers reads newTriggers (newId :: newIds) =>
    s.addTrigger code jobId reads newTriggers newId newIds
  | .addTriggers reads _ [] =>
    { s with
      runner := { s.runner with toCancel := s.runner.toCancel ++ reads.cancelTriggerIds }
      main := .handleEvents }
  | .handleEvents =>
    match s.runner.events with
    | [] => { s with main := .handleFailedTriggers }
    | (triggerId, event) :: rest =>
      { s with runner := { s.runner with events := rest }, main := .submitEvent triggerId event }
  | .submitEvent triggerId _ => s.submit triggerId .handleEvents
  | .handleFailedTriggers =>
    match s.runner.failedTriggers with
    | [] => { s with main := .cleanUnused }
    | (triggerId, exc) :: rest =>
      { s with
        runner := { s.runner with failedTriggers := rest }
        main := .submitFailure triggerId exc }
  | .submitFailure triggerId _ => s.submit triggerId .handleFailedTriggers
  | .assignUnassigned | .readKnown _ [] | .exited => s

/-! ## The async thread -/

/-- One turn of the loop of `create_triggers` after the id is taken. An exception ends the thread;
the coroutine has been started by then. -/
def createTrigger (s : Threads Kwargs Class Obj Event) (jobId triggerId : Nat)
    (instance' : TriggerInstance Obj) : Threads Kwargs Class Obj Event :=
  if triggerId ∈ s.runner.triggers.keys then { s with async := .createTriggers, awaiting := true }
  else
    let recorded := { s with
      awaiting := true
      started := triggerId :: s.started
      restarts :=
        if s.Assigned jobId triggerId ∧ (triggerId ∈ s.started ∨ triggerId ∈ s.queued) then
          triggerId :: s.restarts
        else s.restarts }
    match s.runner.createTrigger triggerId instance' with
    | (runner, some _) => { recorded with runner := { runner with stop := true }, async := .exited }
    | (runner, none) => { recorded with runner := runner, async := .createTriggers }

/-- One turn of the loop of `cleanup_finished_triggers` up to the deletion. -/
def cleanupTrigger (s : Threads Kwargs Class Obj Event) (triggerId : Nat)
    (triggerIds : List Nat) : Threads Kwargs Class Obj Event :=
  match (s.runner.triggers.get? triggerId).bind fun details =>
      details.task.result.map (details.events, ·) with
  | none => { s with async := .cleanupTriggers triggerIds, awaiting := true }
  | some (events, result) =>
    if ¬TriggerRunner.ExpectedExit result ∧ events = 0 then
      { s with
        runner := s.runner.fail triggerId (TriggerRunner.savedExc result)
        async := .deleteTrigger triggerId false triggerIds
        queued := triggerId :: s.queued }
    else
      { s with
        async := .deleteTrigger triggerId (decide (TriggerRunner.ExpectedExit result)) triggerIds }

/-- The next step of `arun`. -/
def stepArun (s : Threads Kwargs Class Obj Event) (jobId : Nat) : Threads Kwargs Class Obj Event :=
  match s.async with
  | .createTriggers =>
    match s.runner.toCreate with
    | [] => { s with async := .cancelTriggers }
    | (triggerId, instance') :: rest =>
      { s with
        runner := { s.runner with toCreate := rest }
        async := .createTrigger triggerId instance' }
  | .createTrigger triggerId instance' => s.createTrigger jobId triggerId instance'
  | .cancelTriggers =>
    match s.runner.toCancel with
    | [] => { s with async := .cleanupFinishedTriggers }
    | triggerId :: rest =>
      { s with runner := { s.runner with toCancel := rest }, async := .cancelTrigger triggerId }
  | .cancelTrigger triggerId =>
    { s with
      runner := s.runner.cancelTrigger triggerId
      async := .cancelTriggers
      awaiting := true }
  | .cleanupFinishedTriggers => { s with async := .cleanupTriggers s.runner.triggers.keys }
  | .cleanupTriggers (triggerId :: triggerIds) => s.cleanupTrigger triggerId triggerIds
  | .cleanupTriggers [] =>
    if s.runner.stop then { s with async := .exited, awaiting := true }
    else { s with async := .createTriggers, awaiting := true }
  | .deleteTrigger triggerId expected triggerIds =>
    { s with
      runner := { s.runner with triggers := s.runner.triggers.erase triggerId }
      async := .cleanupTriggers triggerIds
      awaiting := !expected }
  | .exited => s

/-- The next step of the async thread: a coroutine queues the event that it has counted, or an
`await` is over, or `arun` goes on. -/
def stepAsync (s : Threads Kwargs Class Obj Event) (jobId : Nat) : Threads Kwargs Class Obj Event :=
  match s.firing with
  | some (triggerId, event) =>
    { s with
      runner := { s.runner with events := s.runner.events ++ [(triggerId, event)] }
      firing := none
      queued := triggerId :: s.queued }
  | none => if s.awaiting then { s with awaiting := false } else s.stepArun jobId

/-- A coroutine counts an event in `run_trigger`. -/
def fire (s : Threads Kwargs Class Obj Event) (triggerId : Nat) (event : Event) :
    Threads Kwargs Class Obj Event :=
  match s.runner.triggers.get? triggerId with
  | none => s
  | some details =>
    if details.task.done then s
    else
      { s with
        runner := { s.runner with
          triggers := s.runner.triggers.set triggerId
            { details with events := details.events + 1 } }
        firing := some (triggerId, event) }

/-! ## Steps -/

/-- One step; a step that is not the next one of its thread does nothing. -/
def step (code : TriggerCode Kwargs Class Obj) (jobId : Nat) (s : Threads Kwargs Class Obj Event) :
    ThreadStep Kwargs Event → Threads Kwargs Class Obj Event
  | .main => s.stepMain code jobId
  | .assignUnassigned triggerIds =>
    match s.main with
    | .assignUnassigned => s.assignUnassigned jobId triggerIds
    | _ => s
  | .bulkFetch table =>
    match s.main with
    | .readKnown reads [] => s.bulkFetch reads table
    | _ => s
  | .async => s.stepAsync jobId
  | .fire triggerId event =>
    if s.awaiting ∧ s.firing.isNone then s.fire triggerId event else s
  | .finish triggerId result =>
    if s.awaiting ∧ s.firing.isNone then
      { s with runner := s.runner.runCoroutine (.finish triggerId result) }
    else s
  | .elsewhere tables triggererId =>
    if Elsewhere jobId s.tables tables s.triggererId triggererId then
      { s with tables := tables, triggererId := triggererId }
    else s

/-- No id of a row that is assigned has been put into `to_create` again, and no second coroutine has
been started for one. -/
def StartedOnce (s : Threads Kwargs Class Obj Event) : Prop :=
  s.doublePuts = [] ∧ s.restarts = []

instance (s : Threads Kwargs Class Obj Event) : Decidable s.StartedOnce :=
  inferInstanceAs (Decidable (_ ∧ _))

/-! ## When a step is safe -/

/-- The id that `create_triggers` has taken from `to_create` and not looked up in `triggers` yet. -/
def held (s : Threads Kwargs Class Obj Event) : Option Nat :=
  match s.async with
  | .createTrigger triggerId _ => some triggerId
  | _ => none

/-- The id that the next step of the async thread takes from `to_create`. -/
def taken (s : Threads Kwargs Class Obj Event) : Option Nat :=
  match s.firing, s.awaiting, s.async with
  | none, false, .createTriggers => (s.runner.toCreate.map Prod.fst).head?
  | _, _, _ => none

/-- The condition of a step: at a clean-up no task instance without a state refers to an assigned
row whose event or failure has been passed on; at the read of `triggers` `create_triggers` holds no
requested id, and it takes none until `to_create` is read; no coroutine of an assigned row that has
not sent an event ends as if it had been cancelled, without having been. -/
def Safe (jobId : Nat) (s : Threads Kwargs Class Obj Event) : ThreadStep Kwargs Event → Prop
  | .main =>
    match s.main with
    | .cleanUnused => ∀ ti ∈ s.tables.taskInstances, ti.state = none →
      ∀ id ∈ ti.triggerId, s.Assigned jobId id → id ∉ s.handled
    | .readTriggers requested => ∀ id ∈ s.held, id ∉ requested
    | _ => True
  | .async =>
    match s.main with
    | .readKnown reads left => .toCreate ∈ left → ∀ id ∈ s.taken, id ∉ reads.requested
    | _ => True
  | .finish triggerId result => TriggerRunner.ExpectedExit result → s.Assigned jobId triggerId →
    ∀ details ∈ s.runner.triggers.get? triggerId, details.events = 0 →
      details.task.cancelRequested = true
  | _ => True

instance (jobId : Nat) (s : Threads Kwargs Class Obj Event) :
    (a : ThreadStep Kwargs Event) → Decidable (s.Safe jobId a)
  | .main =>
    match h : s.main with
    | .cleanUnused =>
      decidable_of_iff (∀ ti ∈ s.tables.taskInstances, ti.state = none →
        ∀ id ∈ ti.triggerId, s.Assigned jobId id → id ∉ s.handled) (by simp only [Safe, h])
    | .readTriggers requested =>
      decidable_of_iff (∀ id ∈ s.held, id ∉ requested) (by simp only [Safe, h])
    | .assignUnassigned | .idsForTriggerer | .readKnown .. | .addTriggers .. | .handleEvents
    | .submitEvent .. | .handleFailedTriggers | .submitFailure .. | .exited =>
      .isTrue (by simp only [Safe, h])
  | .async =>
    match h : s.main with
    | .readKnown reads left =>
      decidable_of_iff (.toCreate ∈ left → ∀ id ∈ s.taken, id ∉ reads.requested)
        (by simp only [Safe, h])
    | .cleanUnused | .assignUnassigned | .idsForTriggerer | .readTriggers _ | .addTriggers ..
    | .handleEvents | .submitEvent .. | .handleFailedTriggers | .submitFailure .. | .exited =>
      .isTrue (by simp only [Safe, h])
  | .finish triggerId result =>
    inferInstanceAs (Decidable (TriggerRunner.ExpectedExit result → s.Assigned jobId triggerId →
      ∀ details ∈ s.runner.triggers.get? triggerId, details.events = 0 →
        details.task.cancelRequested = true))
  | .assignUnassigned _ | .bulkFetch _ | .fire .. | .elsewhere .. => instDecidableTrue

end Threads

end Airflow.Triggerer
