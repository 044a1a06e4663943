import Airflow.Triggerer.Runner
import Mathlib.Order.Defs.PartialOrder
import Mathlib.Logic.Basic

/-!
# One bad trigger and the others

A turn of the triggerer is `update_triggers` followed by one turn of `arun`. `Isolated` says that it
raises nothing, that every new trigger with a task instance is either started or recorded as failed,
and that the triggers which are not touched go on. `isolated_iff`: this is so exactly when the
entries that wait in `to_create` have task instances, and each new row that is read has `kwargs` that
can be deserialized, a constructor that returns or raises a `TypeError`, and, where it returns, a
task instance (`Harmless`).
-/

namespace Airflow.Triggerer

variable {Kwargs Class Obj Event : Type}

/-! ## What goes on in a trigger -/

/-- What a coroutine may do to its own entry. -/
structure TriggerDetails.Evolves (details details' : TriggerDetails) : Prop where
  name : details'.name = details.name
  cancelRequested : details'.task.cancelRequested = details.task.cancelRequested
  events : details.events ≤ details'.events
  ended : details.task.done = true → details' = details

theorem TriggerDetails.Evolves.refl (details : TriggerDetails) : details.Evolves details :=
  ⟨rfl, rfl, Nat.le_refl _, fun _ => rfl⟩

theorem TriggerDetails.Evolves.trans {details₁ details₂ details₃ : TriggerDetails}
    (h : details₁.Evolves details₂) (h' : details₂.Evolves details₃) :
    details₁.Evolves details₃ where
  name := h'.name.trans h.name
  cancelRequested := h'.cancelRequested.trans h.cancelRequested
  events := Nat.le_trans h.events h'.events
  ended hdone := by
    have heq := h.ended hdone
    exact (h'.ended (heq ▸ hdone)).trans heq

namespace TriggerRunner

/-- What the coroutines do while the runner waits: only their own entries change, and `events`
grows. -/
structure Awaited (s s' : TriggerRunner Class Obj Event) : Prop where
  rest : s' = { s with triggers := s'.triggers, events := s'.events }
  events : s.events <+: s'.events
  keys : s'.triggers.keys = s.triggers.keys
  evolves : ∀ id details, s.triggers.get? id = some details →
    ∃ details', s'.triggers.get? id = some details' ∧ details.Evolves details'

theorem Awaited.refl (s : TriggerRunner Class Obj Event) : Awaited s s :=
  ⟨rfl, List.prefix_refl _, rfl, fun _ details h => ⟨details, h, .refl _⟩⟩

theorem Awaited.trans {s₁ s₂ s₃ : TriggerRunner Class Obj Event} (h : Awaited s₁ s₂)
    (h' : Awaited s₂ s₃) : Awaited s₁ s₃ where
  rest := by
    rw [h'.rest, h.rest]
  events := h.events.trans h'.events
  keys := h'.keys.trans h.keys
  evolves id details hget := by
    obtain ⟨details₂, hget₂, hev⟩ := h.evolves id details hget
    obtain ⟨details₃, hget₃, hev'⟩ := h'.evolves id details₂ hget₂
    exact ⟨details₃, hget₃, hev.trans hev'⟩

/-- An entry that evolves, with the rest left alone. -/
theorem Awaited.of_set {s : TriggerRunner Class Obj Event} {triggerId : Nat}
    {details details' : TriggerDetails} {events : List (Nat × Event)}
    (hget : s.triggers.get? triggerId = some details) (hev : details.Evolves details')
    (hevents : s.events <+: events) :
    Awaited s { s with triggers := s.triggers.set triggerId details', events := events } where
  rest := rfl
  events := hevents
  keys := by
    have hmem : triggerId ∈ s.triggers.keys := Dict.mem_keys.mpr ⟨details, hget⟩
    rw [Dict.keys_set, if_pos hmem]
  evolves id d hd := by
    by_cases hid : id = triggerId
    · subst hid
      rw [hget, Option.some.injEq] at hd
      exact ⟨details', by rw [Dict.get?_set, if_pos rfl], hd ▸ hev⟩
    · exact ⟨d, by rw [Dict.get?_set, if_neg hid, hd], .refl d⟩

theorem runCoroutine_awaited (s : TriggerRunner Class Obj Event) (step : CoroutineStep Event) :
    Awaited s (s.runCoroutine step) := by
  cases step with
  | fire triggerId event =>
    simp only [runCoroutine]
    split
    · exact .refl s
    · next details hget =>
      split
      · exact .refl s
      · next hdone =>
        have hev : details.Evolves { details with events := details.events + 1 } :=
          ⟨rfl, rfl, Nat.le_succ _, fun h => absurd h hdone⟩
        exact .of_set hget hev (List.prefix_append _ _)
  | finish triggerId result =>
    simp only [runCoroutine]
    split
    · exact .refl s
    · next details hget =>
      split
      · exact .refl s
      · next hdone =>
        have hev : details.Evolves
            { details with task := { details.task with result := some result } } :=
          ⟨rfl, rfl, Nat.le_refl _, fun h => absurd h hdone⟩
        exact .of_set hget hev (List.prefix_refl _)

theorem sleep_awaited (s : TriggerRunner Class Obj Event) (steps : List (CoroutineStep Event)) :
    Awaited s (s.sleep steps) := by
  induction steps generalizing s with
  | nil => exact .refl s
  | cons step steps ih => exact (runCoroutine_awaited s step).trans (ih _)

/-! ## `bulk_fetch` -/

theorem load_eq_ok {row : TriggerRow (Except PyException Kwargs)} {loaded : TriggerRow Kwargs} :
    row.load = .ok loaded ↔ row.kwargs = .ok loaded.kwargs ∧ loaded.id = row.id ∧
      loaded.classpath = row.classpath ∧ loaded.taskInstance = row.taskInstance := by
  obtain ⟨id, classpath, kwargs, taskInstance⟩ := row
  obtain ⟨id', classpath', kwargs', taskInstance'⟩ := loaded
  cases kwargs with
  | error e => simp [TriggerRow.load]
  | ok kwargs =>
    simp only [TriggerRow.load, Except.ok.injEq, TriggerRow.mk.injEq]
    constructor
    · rintro ⟨rfl, rfl, rfl, rfl⟩
      exact ⟨rfl, rfl, rfl, rfl⟩
    · rintro ⟨rfl, rfl, rfl, rfl⟩
      exact ⟨rfl, rfl, rfl, rfl⟩

/-- The rows are read when each of them can be read. -/
theorem loadRows_ok (rows : List (TriggerRow (Except PyException Kwargs))) :
    (∃ loaded, loadRows rows = .ok loaded) ↔ ∀ row ∈ rows, ∃ kwargs, row.kwargs = .ok kwargs := by
  induction rows with
  | nil => simp [loadRows]
  | cons row rows ih =>
    rw [List.forall_mem_cons, ← ih]
    cases hrow : row.kwargs with
    | error e => simp [loadRows, TriggerRow.load, hrow]
    | ok kwargs =>
      cases hrows : loadRows rows with
      | error e => simp [loadRows, TriggerRow.load, hrow, hrows]
      | ok rest => simp [loadRows, TriggerRow.load, hrow, hrows]

/-- A row that is found after reading is the row of the table. -/
theorem find?_loadRows {rows : List (TriggerRow (Except PyException Kwargs))}
    {loaded : List (TriggerRow Kwargs)} (h : loadRows rows = .ok loaded) (id : Nat) :
    loaded.find? (·.id = id) = (rows.find? (·.id = id)).bind fun row => row.load.toOption := by
  induction rows generalizing loaded with
  | nil =>
    cases h
    rfl
  | cons row rows ih =>
    simp only [loadRows] at h
    split at h
    · cases h
    · next first hfirst =>
      split at h
      · cases h
      · next rest hrest =>
        cases h
        have hid : first.id = row.id := (load_eq_ok.mp hfirst).2.1
        rw [List.find?_cons, List.find?_cons, hid, ih hrest]
        by_cases hrow : row.id = id
        · simp [hrow, hfirst, Except.toOption]
        · simp [hrow]

/-! ## `update_triggers` -/

/-- What `get_trigger_by_classpath` finds. -/
def resolve (self : TriggerRunner Class Obj Event) (code : TriggerCode Kwargs Class Obj)
    (classpath : String) : Except PyException Class :=
  match self.triggerCache.get? classpath with
  | some cls => .ok cls
  | none => code.importString classpath

/-- What becomes of a new trigger. -/
inductive Outcome (Obj : Type) where
  | vanished
  | failed (exc : PyException)
  | escapes (exc : PyException)
  | created (trigger : TriggerInstance Obj)

def Outcome.failure? : Outcome Obj → Option PyException
  | .failed exc => some exc
  | _ => none

def Outcome.trigger? : Outcome Obj → Option (TriggerInstance Obj)
  | .created trigger => some trigger
  | _ => none

/-- What becomes of a new trigger whose row was found, or not. -/
def outcome (self : TriggerRunner Class Obj Event) (code : TriggerCode Kwargs Class Obj)
    (newId : Nat) : Option (TriggerRow Kwargs) → Outcome Obj
  | none => .vanished
  | some row =>
    match self.resolve code row.classpath with
    | .error e => .failed e
    | .ok cls =>
      match code.construct newId cls row.kwargs with
      | .error e => if e.cls = .typeError then .failed e else .escapes e
      | .ok trigger => .created (self.setTriggerLoggingMetadata row.taskInstance newId trigger)

theorem getTriggerByClasspath_cases (s : TriggerRunner Class Obj Event)
    (code : TriggerCode Kwargs Class Obj) (classpath : String) :
    (∃ e, s.getTriggerByClasspath code classpath = .error e ∧
        s.resolve code classpath = .error e) ∨
      ∃ cls cache, s.getTriggerByClasspath code classpath = .ok (cls, cache) ∧
        s.resolve code classpath = .ok cls ∧
        ∀ classpath', { s with triggerCache := cache }.resolve code classpath' =
          s.resolve code classpath' := by
  simp only [getTriggerByClasspath, resolve]
  cases hcache : s.triggerCache.get? classpath with
  | some cls => exact .inr ⟨cls, s.triggerCache, rfl, rfl, fun _ => rfl⟩
  | none =>
    cases himport : code.importString classpath with
    | error e => exact .inl ⟨e, rfl, rfl⟩
    | ok cls =>
      refine .inr ⟨cls, s.triggerCache.set classpath cls, rfl, rfl, fun classpath' => ?_⟩
      rw [Dict.get?_set]
      by_cases hpath : classpath' = classpath
      · subst hpath
        rw [if_pos rfl, hcache, himport]
      · rw [if_neg hpath]

/-- The part of the state on which the outcomes depend is kept. -/
structure SameOutcomes (code : TriggerCode Kwargs Class Obj)
    (s s' : TriggerRunner Class Obj Event) : Prop where
  rest : s' = { s with
    triggerCache := s'.triggerCache, toCreate := s'.toCreate, failedTriggers := s'.failedTriggers }
  resolve : ∀ classpath, s'.resolve code classpath = s.resolve code classpath

theorem SameOutcomes.outcome {code : TriggerCode Kwargs Class Obj}
    {s s' : TriggerRunner Class Obj Event} (h : SameOutcomes code s s') (newId : Nat)
    (row : Option (TriggerRow Kwargs)) : s'.outcome code newId row = s.outcome code newId row := by
  have hjob : s'.jobId = s.jobId := by rw [h.rest]
  cases row with
  | none => rfl
  | some row =>
    simp only [TriggerRunner.outcome, h.resolve, setTriggerLoggingMetadata, hjob]

theorem SameOutcomes.trans {code : TriggerCode Kwargs Class Obj}
    {s₁ s₂ s₃ : TriggerRunner Class Obj Event} (h : SameOutcomes code s₁ s₂)
    (h' : SameOutcomes code s₂ s₃) : SameOutcomes code s₁ s₃ where
  rest := by rw [h'.rest, h.rest]
  resolve classpath := (h'.resolve classpath).trans (h.resolve classpath)

/-- One turn of the loop: the exception that leaves it, and what it appends otherwise. -/
theorem addTrigger_spec (s : TriggerRunner Class Obj Event) (code : TriggerCode Kwargs Class Obj)
    (newTriggers : List (TriggerRow Kwargs)) (newId : Nat) :
    SameOutcomes code s (s.addTrigger code newTriggers newId).1 ∧
      ((s.addTrigger code newTriggers newId).2 = none ↔
        ∀ e, s.outcome code newId (newTriggers.find? (·.id = newId)) ≠ .escapes e) ∧
      (s.addTrigger code newTriggers newId).1.toCreate =
        s.toCreate ++ ((s.outcome code newId
          (newTriggers.find? (·.id = newId))).trigger?.map (newId, ·)).toList ∧
      (s.addTrigger code newTriggers newId).1.failedTriggers =
        s.failedTriggers ++ ((s.outcome code newId
          (newTriggers.find? (·.id = newId))).failure?.map fun e => (newId, some e)).toList := by
  simp only [addTrigger]
  cases newTriggers.find? (·.id = newId) with
  | none => exact ⟨⟨rfl, fun _ => rfl⟩, by simp [outcome], by simp [outcome, Outcome.trigger?],
      by simp [outcome, Outcome.failure?]⟩
  | some row =>
    rcases getTriggerByClasspath_cases s code row.classpath with
      ⟨e, hget, hres⟩ | ⟨cls, cache, hget, hres, hsame⟩
    · simp only [hget, outcome, hres]
      exact ⟨⟨rfl, fun _ => rfl⟩, by simp, by simp [Outcome.trigger?, fail],
        by simp [Outcome.failure?, fail]⟩
    · simp only [hget, outcome, hres]
      cases code.construct newId cls row.kwargs with
      | error e =>
        by_cases htype : e.cls = .typeError
        · simp only [if_pos htype]
          exact ⟨⟨rfl, hsame⟩, by simp, by simp [Outcome.trigger?, fail],
            by simp [Outcome.failure?, fail]⟩
        · simp only [if_neg htype]
          exact ⟨⟨rfl, hsame⟩, by simp, by simp [Outcome.trigger?], by simp [Outcome.failure?]⟩
      | ok trigger =>
        exact ⟨⟨rfl, hsame⟩, by simp, by simp [Outcome.trigger?, setTriggerLoggingMetadata],
          by simp [Outcome.failure?]⟩

/-- What the loop over `newIds` leaves when nothing is raised. -/
structure Added (code : TriggerCode Kwargs Class Obj) (newTriggers : List (TriggerRow Kwargs))
    (newIds : List Nat) (s s' : TriggerRunner Class Obj Event) : Prop where
  same : SameOutcomes code s s'
  toCreate : s'.toCreate = s.toCreate ++ newIds.flatMap fun newId =>
    ((s.outcome code newId (newTriggers.find? (·.id = newId))).trigger?.map (newId, ·)).toList
  failedTriggers : s'.failedTriggers = s.failedTriggers ++ newIds.flatMap fun newId =>
    ((s.outcome code newId (newTriggers.find? (·.id = newId))).failure?.map
      fun e => (newId, some e)).toList

theorem addTriggers_spec (code : TriggerCode Kwargs Class Obj)
    (newTriggers : List (TriggerRow Kwargs)) (s : TriggerRunner Class Obj Event)
    (newIds : List Nat) :
    ((addTriggers code newTriggers s newIds).2 = none ↔ ∀ newId ∈ newIds, ∀ e,
        s.outcome code newId (newTriggers.find? (·.id = newId)) ≠ .escapes e) ∧
      ((addTriggers code newTriggers s newIds).2 = none →
        Added code newTriggers newIds s (addTriggers code newTriggers s newIds).1) := by
  induction newIds generalizing s with
  | nil => exact ⟨by simp [addTriggers], fun _ => ⟨⟨rfl, fun _ => rfl⟩, by simp [addTriggers],
      by simp [addTriggers]⟩⟩
  | cons newId newIds ih =>
    obtain ⟨hsame, hnone, hcreate, hfailed⟩ := addTrigger_spec s code newTriggers newId
    rw [addTriggers, List.forall_mem_cons, ← hnone]
    revert hsame hnone hcreate hfailed
    generalize s.addTrigger code newTriggers newId = added
    obtain ⟨s₁, raised⟩ := added
    intro hsame hnone hcreate hfailed
    cases raised with
    | some e => exact ⟨by simp, fun h => nomatch h⟩
    | none =>
      obtain ⟨hrest, hadded⟩ := ih s₁
      simp only [hsame.outcome] at hrest
      refine ⟨by simpa using hrest, fun h => ?_⟩
      have h₂ := hadded h
      refine ⟨hsame.trans h₂.same, ?_, ?_⟩
      · rw [h₂.toCreate, hcreate, List.append_assoc, List.flatMap_cons]
        simp only [hsame.outcome]
      · rw [h₂.failedTriggers, hfailed, List.append_assoc, List.flatMap_cons]
        simp only [hsame.outcome]

/-! ## `create_triggers` -/

/-- The entries of the queue that are to be started have task instances: of the entries with an id
that is not running, the first. -/
def Startable (pending : List (Nat × TriggerInstance Obj)) (running : List Nat) : Prop :=
  ∀ id entry, pending.find? (·.1 = id) = some entry → id ∉ running →
    entry.2.taskInstance.isSome = true

theorem startable_cons_of_mem {triggerId : Nat} {trigger : TriggerInstance Obj}
    {rest : List (Nat × TriggerInstance Obj)} {running : List Nat} (h : triggerId ∈ running) :
    Startable ((triggerId, trigger) :: rest) running ↔ Startable rest running := by
  have hfind : ∀ id, id ∉ running →
      ((triggerId, trigger) :: rest).find? (·.1 = id) = rest.find? (·.1 = id) := by
    intro id hid
    have hne : triggerId ≠ id := fun heq => hid (heq ▸ h)
    rw [List.find?_cons]
    simp [hne]
  constructor
  · intro hs id entry hentry hid
    exact hs id entry ((hfind id hid).trans hentry) hid
  · intro hs id entry hentry hid
    exact hs id entry ((hfind id hid).symm.trans hentry) hid

theorem startable_cons_of_not_mem {triggerId : Nat} {trigger : TriggerInstance Obj}
    {rest : List (Nat × TriggerInstance Obj)} {running running' : List Nat}
    (h : triggerId ∉ running) (hrun : ∀ id, id ∈ running' ↔ id ∈ running ∨ id = triggerId) :
    Startable ((triggerId, trigger) :: rest) running ↔
      trigger.taskInstance.isSome = true ∧ Startable rest running' := by
  constructor
  · intro hs
    refine ⟨hs triggerId (triggerId, trigger) (by simp) h, fun id entry hentry hid => ?_⟩
    have hid' := not_or.mp (mt (hrun id).mpr hid)
    have hne : triggerId ≠ id := Ne.symm hid'.2
    exact hs id entry (by rw [List.find?_cons]; simpa [hne] using hentry) hid'.1
  · rintro ⟨hti, hs⟩ id entry hentry hid
    by_cases heq : triggerId = id
    · simp only [List.find?_cons, heq, decide_true, Option.some.injEq] at hentry
      exact hentry ▸ hti
    · simp only [List.find?_cons, heq, decide_false] at hentry
      exact hs id entry hentry
        (mt (hrun id).mp (not_or.mpr ⟨hid, Ne.symm heq⟩))

/-- What the loop of `create_triggers` over `pending` leaves when nothing is raised. -/
structure Created (pending : List (Nat × TriggerInstance Obj))
    (s s' : TriggerRunner Class Obj Event) : Prop where
  rest : s' = { s with toCreate := s'.toCreate, triggers := s'.triggers, events := s'.events }
  events : s.events <+: s'.events
  keys : ∀ id, id ∈ s'.triggers.keys ↔ id ∈ s.triggers.keys ∨ id ∈ pending.map Prod.fst
  evolves : ∀ id details, s.triggers.get? id = some details →
    ∃ details', s'.triggers.get? id = some details' ∧ details.Evolves details'

/-- One turn of the loop, its `await` included. -/
theorem createTrigger_created {s s' : TriggerRunner Class Obj Event} {triggerId : Nat}
    {trigger : TriggerInstance Obj} (h : s.createTrigger triggerId trigger = (s', none))
    (steps : List (CoroutineStep Event)) :
    Created [(triggerId, trigger)] s (s'.sleep steps) := by
  have hsleep := sleep_awaited s' steps
  unfold createTrigger at h
  split at h
  · next hid =>
    split at h
    · cases h
    · cases h
      refine ⟨by rw [hsleep.rest], hsleep.events, fun id => ?_, fun id details hget => ?_⟩
      · rw [hsleep.keys, Dict.mem_keys_set]
        simp
      · have hne : id ≠ triggerId := fun heq => hid (heq ▸ Dict.mem_keys.mpr ⟨details, hget⟩)
        exact hsleep.evolves id details (by rw [Dict.get?_set, if_neg hne, hget])
  · next hid =>
    cases h
    refine ⟨by rw [hsleep.rest], hsleep.events, fun id => ?_, hsleep.evolves⟩
    rw [hsleep.keys, List.map_singleton, List.mem_singleton]
    exact ⟨.inl, fun h => h.elim (fun h => h) fun heq => heq ▸ not_not.mp hid⟩

theorem Created.cons {s₁ s₂ s₃ : TriggerRunner Class Obj Event}
    {entry : Nat × TriggerInstance Obj} {rest : List (Nat × TriggerInstance Obj)}
    (h : Created [entry] s₁ s₂) (h' : Created rest s₂ s₃) : Created (entry :: rest) s₁ s₃ where
  rest := by rw [h'.rest, h.rest]
  events := h.events.trans h'.events
  keys id := by
    rw [h'.keys, h.keys, List.map_cons, List.map_cons, List.map_nil, List.mem_singleton,
      List.mem_cons, or_assoc]
  evolves id details hget := by
    obtain ⟨details₂, hget₂, hev⟩ := h.evolves id details hget
    obtain ⟨details₃, hget₃, hev'⟩ := h'.evolves id details₂ hget₂
    exact ⟨details₃, hget₃, hev.trans hev'⟩

theorem createTrigger_raises (s : TriggerRunner Class Obj Event) (triggerId : Nat)
    (trigger : TriggerInstance Obj) :
    (s.createTrigger triggerId trigger).2 = none ↔
      (triggerId ∉ s.triggers.keys → trigger.taskInstance.isSome = true) := by
  unfold createTrigger
  split
  · next hid => cases trigger.taskInstance <;> simp [hid]
  · next hid => simp [hid]

/-- The loop of `create_triggers` raises nothing exactly when what it starts has task instances. -/
theorem createLoop_spec (pending : List (Nat × TriggerInstance Obj))
    (turns : Nat → List (CoroutineStep Event)) (s : TriggerRunner Class Obj Event) :
    ((createLoop pending turns s).2 = none ↔ Startable pending s.triggers.keys) ∧
      ((createLoop pending turns s).2 = none →
        Created pending s (createLoop pending turns s).1) := by
  induction pending generalizing turns s with
  | nil =>
    refine ⟨by simp [createLoop, Startable], fun _ => ⟨rfl, List.prefix_refl _, by simp [createLoop],
      fun id details hget => ⟨details, hget, .refl _⟩⟩⟩
  | cons entry rest ih =>
    obtain ⟨triggerId, trigger⟩ := entry
    have hraises := createTrigger_raises { s with toCreate := rest } triggerId trigger
    rw [createLoop]
    cases hcreate : { s with toCreate := rest }.createTrigger triggerId trigger with
    | mk s₁ raised =>
      rw [hcreate] at hraises
      cases raised with
      | some e =>
        refine ⟨⟨fun h => (nomatch h), fun h => ?_⟩, fun h => (nomatch h)⟩
        have hid : ¬(triggerId ∉ s.triggers.keys → trigger.taskInstance.isSome = true) :=
          fun hid => nomatch hraises.mpr hid
        obtain ⟨hid, hti⟩ := Classical.not_imp.mp hid
        exact absurd (h triggerId (triggerId, trigger) (by simp) hid) hti
      | none =>
        have hone := createTrigger_created hcreate (turns 0)
        obtain ⟨hiff, hspec⟩ := ih (fun i => turns (i + 1)) (s₁.sleep (turns 0))
        have hti := hraises.mp rfl
        have hkeys : ∀ id, id ∈ (s₁.sleep (turns 0)).triggers.keys ↔
            id ∈ s.triggers.keys ∨ id = triggerId := by
          intro id
          simpa using hone.keys id
        refine ⟨hiff.trans ?_, fun h => ?_⟩
        · by_cases hid : triggerId ∈ s.triggers.keys
          · rw [startable_cons_of_mem hid]
            have hsame : ∀ id, id ∈ (s₁.sleep (turns 0)).triggers.keys ↔ id ∈ s.triggers.keys :=
              fun id => (hkeys id).trans ⟨fun h => h.elim (fun h => h) fun heq => heq ▸ hid, .inl⟩
            simp only [Startable, hsame]
          · rw [startable_cons_of_not_mem hid hkeys]
            exact ⟨fun h => ⟨hti hid, h⟩, And.right⟩
        · have hcons := hone.cons (hspec h)
          exact ⟨by rw [hcons.rest], hcons.events, hcons.keys, hcons.evolves⟩

/-! ## `cancel_triggers` -/

/-- What the loop of `cancel_triggers` over `pending` leaves. -/
structure Cancelled (pending : List Nat) (s s' : TriggerRunner Class Obj Event) : Prop where
  rest : s' = { s with toCancel := s'.toCancel, triggers := s'.triggers, events := s'.events }
  events : s.events <+: s'.events
  keys : s'.triggers.keys = s.triggers.keys
  evolves : ∀ id details, id ∉ pending → s.triggers.get? id = some details →
    ∃ details', s'.triggers.get? id = some details' ∧ details.Evolves details'

theorem cancelTrigger_cancelled (s : TriggerRunner Class Obj Event) (triggerId : Nat)
    (steps : List (CoroutineStep Event)) :
    Cancelled [triggerId] s ((s.cancelTrigger triggerId).sleep steps) := by
  have hsleep := sleep_awaited (s.cancelTrigger triggerId) steps
  cases hget : s.triggers.get? triggerId with
  | none =>
    have hcancel : s.cancelTrigger triggerId = s := by simp [cancelTrigger, hget]
    rw [hcancel] at hsleep ⊢
    exact ⟨by rw [hsleep.rest], hsleep.events, hsleep.keys, fun id d _ hd => hsleep.evolves id d hd⟩
  | some details =>
    have hcancel : s.cancelTrigger triggerId =
        { s with triggers :=
          s.triggers.set triggerId { details with task := details.task.cancel } } := by
      simp [cancelTrigger, hget]
    rw [hcancel] at hsleep ⊢
    refine ⟨by rw [hsleep.rest], hsleep.events, ?_, fun id d hid hd => ?_⟩
    · rw [hsleep.keys, Dict.keys_set, if_pos (Dict.mem_keys.mpr ⟨details, hget⟩)]
    · have hne : id ≠ triggerId := fun heq => hid (heq ▸ List.mem_singleton_self _)
      exact hsleep.evolves id d (by rw [Dict.get?_set, if_neg hne, hd])

theorem cancelLoop_cancelled (pending : List Nat) (turns : Nat → List (CoroutineStep Event))
    (s : TriggerRunner Class Obj Event) : Cancelled pending s (cancelLoop pending turns s) := by
  induction pending generalizing turns s with
  | nil => exact ⟨rfl, List.prefix_refl _, rfl, fun _ d _ hd => ⟨d, hd, .refl d⟩⟩
  | cons triggerId rest ih =>
    have hone := cancelTrigger_cancelled { s with toCancel := rest } triggerId (turns 0)
    have hrest := ih (fun i => turns (i + 1))
      (({ s with toCancel := rest }.cancelTrigger triggerId).sleep (turns 0))
    rw [cancelLoop]
    refine ⟨by rw [hrest.rest, hone.rest], hone.events.trans hrest.events,
      hrest.keys.trans hone.keys, fun id d hid hd => ?_⟩
    rw [List.mem_cons, not_or] at hid
    obtain ⟨d₂, hd₂, hev⟩ := hone.evolves id d (by simpa using hid.1) hd
    obtain ⟨d₃, hd₃, hev'⟩ := hrest.evolves id d₂ hid.2 hd₂
    exact ⟨d₃, hd₃, hev.trans hev'⟩

/-! ## `cleanup_finished_triggers` -/

/-- A trigger goes on, or it has ended of itself and its entry is gone; if it ended without an event,
and not by one of the expected exceptions, then its failure is recorded. -/
def Continues (id : Nat) (details : TriggerDetails) (s : TriggerRunner Class Obj Event) : Prop :=
  ∃ details', details.Evolves details' ∧
    (s.triggers.get? id = some details' ∨
      id ∉ s.triggers.keys ∧ ∃ result, details'.task.result = some result ∧
        (¬ExpectedExit result → details'.events = 0 →
          (id, savedExc result) ∈ s.failedTriggers))

/-- What the loop of `cleanup_finished_triggers` leaves. -/
structure Cleaned (s s' : TriggerRunner Class Obj Event) : Prop where
  rest : s' = { s with
    triggers := s'.triggers, events := s'.events, failedTriggers := s'.failedTriggers }
  events : s.events <+: s'.events
  failedTriggers : s.failedTriggers <+: s'.failedTriggers
  keys : s'.triggers.keys ⊆ s.triggers.keys
  continues : ∀ id details, s.triggers.get? id = some details → Continues id details s'
  failures : ∀ failure ∈ s'.failedTriggers,
    failure ∈ s.failedTriggers ∨ failure.1 ∈ s.triggers.keys ∧ failure.1 ∉ s'.triggers.keys

theorem Awaited.cleaned {s s' : TriggerRunner Class Obj Event} (h : Awaited s s') :
    Cleaned s s' := by
  have hfailed : s'.failedTriggers = s.failedTriggers := by rw [h.rest]
  refine ⟨by rw [h.rest], h.events, hfailed ▸ List.prefix_refl _, h.keys ▸ List.Subset.refl _,
    fun id details hget => ?_, fun failure hmem => .inl (hfailed ▸ hmem)⟩
  obtain ⟨details', hget', hev⟩ := h.evolves id details hget
  exact ⟨details', hev, .inl hget'⟩

theorem Cleaned.trans {s₁ s₂ s₃ : TriggerRunner Class Obj Event} (h : Cleaned s₁ s₂)
    (h' : Cleaned s₂ s₃) : Cleaned s₁ s₃ where
  rest := by rw [h'.rest, h.rest]
  events := h.events.trans h'.events
  failedTriggers := h.failedTriggers.trans h'.failedTriggers
  keys := List.Subset.trans h'.keys h.keys
  continues id details hget := by
    obtain ⟨details₂, hev, hget₂ | ⟨hgone, result, hresult, hfail⟩⟩ := h.continues id details hget
    · obtain ⟨details₃, hev', hrest⟩ := h'.continues id details₂ hget₂
      exact ⟨details₃, hev.trans hev', hrest⟩
    · exact ⟨details₂, hev, .inr ⟨fun hmem => hgone (h'.keys hmem), result, hresult,
        fun hexp hevents => h'.failedTriggers.subset (hfail hexp hevents)⟩⟩
  failures failure hmem := by
    rcases h'.failures failure hmem with hmem | ⟨hin, hgone⟩
    · exact (h.failures failure hmem).imp_right
        fun hf => ⟨hf.1, fun hmem => hf.2 (h'.keys hmem)⟩
    · exact .inr ⟨h.keys hin, hgone⟩

theorem cleanupTrigger_cleaned (s : TriggerRunner Class Obj Event) (triggerId : Nat) :
    Cleaned s (s.cleanupTrigger triggerId) := by
  have hself : Cleaned s s := (Awaited.refl s).cleaned
  unfold cleanupTrigger
  split
  · exact hself
  · next details hget =>
    split
    · exact hself
    · next result hresult =>
      have hgone : triggerId ∉ (s.triggers.erase triggerId).keys := by
        rw [Dict.mem_keys_erase]
        exact fun h => h.2 rfl
      have hsub : (s.triggers.erase triggerId).keys ⊆ s.triggers.keys :=
        fun id hid => (Dict.mem_keys_erase.mp hid).1
      -- the other entries stay as they are
      have hother : ∀ (failed : List (Nat × Option PyException)) id d,
          s.triggers.get? id = some d →
          (id = triggerId → ¬ExpectedExit result → details.events = 0 →
            (id, savedExc result) ∈ failed) →
          Continues id d
            { s with triggers := s.triggers.erase triggerId, failedTriggers := failed } := by
        intro failed id d hd hfail
        refine ⟨d, .refl d, ?_⟩
        by_cases hid : id = triggerId
        · subst hid
          rw [hget, Option.some.injEq] at hd
          subst hd
          exact .inr ⟨hgone, result, hresult, hfail rfl⟩
        · exact .inl (by rw [Dict.get?_erase, if_neg hid, hd])
      by_cases hfails : ¬ExpectedExit result ∧ details.events = 0
      · simp only [if_pos hfails, fail]
        refine ⟨rfl, List.prefix_refl _, List.prefix_append _ _, hsub, fun id d hd =>
          hother _ id d hd fun heq _ _ => by simp [heq], fun failure hmem => ?_⟩
        rcases List.mem_append.mp hmem with hmem | hmem
        · exact .inl hmem
        · rw [List.mem_singleton] at hmem
          subst hmem
          exact .inr ⟨Dict.mem_keys.mpr ⟨details, hget⟩, hgone⟩
      · simp only [if_neg hfails]
        exact ⟨rfl, List.prefix_refl _, List.prefix_refl _, hsub, fun id d hd =>
          hother _ id d hd fun _ hexp hevents => absurd ⟨hexp, hevents⟩ hfails,
          fun failure hmem => .inl hmem⟩

theorem cleanupLoop_cleaned (ids : List Nat) (turns : Nat → List (CoroutineStep Event))
    (s : TriggerRunner Class Obj Event) : Cleaned s (cleanupLoop ids turns s) := by
  induction ids generalizing turns s with
  | nil => exact (Awaited.refl s).cleaned
  | cons triggerId rest ih =>
    have hone := (cleanupTrigger_cleaned s triggerId).trans (sleep_awaited _ (turns 0)).cleaned
    exact hone.trans (ih _ _)

/-! ## A turn of the triggerer -/

/-- The state that `update_triggers` leaves. -/
def updated (s : TriggerRunner Class Obj Event) (code : TriggerCode Kwargs Class Obj)
    (table : TriggerTable Kwargs) (requested : List Nat) : TriggerRunner Class Obj Event :=
  (s.updateTriggers code table requested).1

/-- The state that `update_triggers` and `create_triggers` leave. -/
def created (s : TriggerRunner Class Obj Event) (code : TriggerCode Kwargs Class Obj)
    (table : TriggerTable Kwargs) (requested : List Nat) (turns : Turns Event) :
    TriggerRunner Class Obj Event :=
  ((s.updated code table requested).createTriggers turns.create).1

/-- The state that `update_triggers` and a turn of `arun` leave. -/
def finished (s : TriggerRunner Class Obj Event) (code : TriggerCode Kwargs Class Obj)
    (table : TriggerTable Kwargs) (requested : List Nat) (turns : Turns Event) :
    TriggerRunner Class Obj Event :=
  ((s.updated code table requested).arunTurn turns).1

/-- A turn of the triggerer in which no trigger harms another. -/
structure Isolated (s : TriggerRunner Class Obj Event) (code : TriggerCode Kwargs Class Obj)
    (table : TriggerTable Kwargs) (requested : List Nat) (turns : Turns Event) : Prop where
  update_raises : (s.updateTriggers code table requested).2 = none
  arun_raises : ((s.updated code table requested).arunTurn turns).2 = none
  stop : (s.finished code table requested turns).stop = s.stop
  /-- A new trigger with a task instance is either started or failed, -/
  exactlyOne : ∀ row ∈ table.rows, row.id ∈ s.newTriggerIds requested →
    row.taskInstance.isSome = true →
    Xor (row.id ∈ (s.created code table requested turns).triggers.keys)
      (row.id ∈ (s.created code table requested turns).failedTriggers.map Prod.fst)
  /-- one that waited before is started, and no other is. -/
  started : ∀ id, id ∈ (s.created code table requested turns).triggers.keys →
    id ∈ s.triggers.keys ∨ id ∈ s.toCreate.map Prod.fst ∨ id ∈ s.newTriggerIds requested
  pending : ∀ id ∈ s.toCreate.map Prod.fst,
    id ∈ (s.created code table requested turns).triggers.keys
  /-- A trigger that runs goes on unless it is not requested any more, -/
  running : ∀ id details, s.triggers.get? id = some details → id ∈ requested → id ∉ s.toCancel →
    Continues id details (s.finished code table requested turns)
  /-- and so does one that was started. -/
  continues : ∀ id details, (s.created code table requested turns).triggers.get? id = some details →
    id ∈ requested → id ∉ s.toCancel → Continues id details (s.finished code table requested turns)
  /-- A failure is recorded for a new trigger that cannot be started, or for one that has ended. -/
  failures : ∀ failure ∈ (s.finished code table requested turns).failedTriggers,
    failure ∈ s.failedTriggers ∨ failure.1 ∈ s.newTriggerIds requested ∨
      failure.1 ∈ (s.created code table requested turns).triggers.keys ∧
        failure.1 ∉ (s.finished code table requested turns).triggers.keys
  failed : s.failedTriggers <+: (s.created code table requested turns).failedTriggers ∧
    (s.created code table requested turns).failedTriggers <+:
      (s.finished code table requested turns).failedTriggers
  events : s.events <+: (s.finished code table requested turns).events

/-- The row of a new trigger does no harm: its `kwargs` can be read and, if its class is found, the
constructor raises a `TypeError` or it returns and there is a task instance. -/
def HarmlessRow (s : TriggerRunner Class Obj Event) (code : TriggerCode Kwargs Class Obj)
    (row : TriggerRow (Except PyException Kwargs)) : Prop :=
  ∃ kwargs, row.kwargs = .ok kwargs ∧ ∀ cls, s.resolve code row.classpath = .ok cls →
    match code.construct row.id cls kwargs with
    | .error e => e.cls = .typeError
    | .ok _ => row.taskInstance.isSome = true

/-- No trigger that waits or is new does any harm. -/
structure Harmless (s : TriggerRunner Class Obj Event) (code : TriggerCode Kwargs Class Obj)
    (table : TriggerTable Kwargs) (requested : List Nat) : Prop where
  pending : Startable s.toCreate s.triggers.keys
  rows : ∀ row ∈ table.rows, row.id ∈ s.newTriggerIds requested → s.HarmlessRow code row

/-! ## What `update_triggers` leaves -/

theorem mem_newTriggerIds {s : TriggerRunner Class Obj Event} {requested : List Nat} {id : Nat} :
    id ∈ s.newTriggerIds requested ↔ id ∈ requested ∧ id ∉ s.triggers.keys ∧
      id ∉ s.events.map Prod.fst ∧ id ∉ s.toCancel ∧ id ∉ s.toCreate.map Prod.fst ∧
      id ∉ s.failedTriggers.map Prod.fst := by
  rw [newTriggerIds, List.mem_filter, List.mem_dedup, decide_eq_true_eq, knownTriggerIds]
  simp only [List.mem_append, not_or, and_assoc]

/-- What `update_triggers` leaves, with the rows that it read, when nothing is raised. -/
structure Updated (code : TriggerCode Kwargs Class Obj) (newTriggers : List (TriggerRow Kwargs))
    (requested : List Nat) (s s' : TriggerRunner Class Obj Event) : Prop where
  rest : s' = { s with
    triggerCache := s'.triggerCache
    toCreate := s'.toCreate
    failedTriggers := s'.failedTriggers
    toCancel := s.toCancel ++ s.cancelTriggerIds requested }
  toCreate : s'.toCreate = s.toCreate ++ (s.newTriggerIds requested).flatMap fun newId =>
    ((s.outcome code newId (newTriggers.find? (·.id = newId))).trigger?.map (newId, ·)).toList
  failedTriggers : s'.failedTriggers =
    s.failedTriggers ++ (s.newTriggerIds requested).flatMap fun newId =>
      ((s.outcome code newId (newTriggers.find? (·.id = newId))).failure?.map
        fun e => (newId, some e)).toList

/-- `update_triggers` raises nothing when the rows can be read and no exception escapes. -/
theorem updateTriggers_spec (s : TriggerRunner Class Obj Event)
    (code : TriggerCode Kwargs Class Obj) (table : TriggerTable Kwargs) (requested : List Nat) :
    ((s.updateTriggers code table requested).2 = none ↔
        ∃ newTriggers, bulkFetch table (s.newTriggerIds requested) = .ok newTriggers ∧
          ∀ newId ∈ s.newTriggerIds requested, ∀ e,
            s.outcome code newId (newTriggers.find? (·.id = newId)) ≠ .escapes e) ∧
      ((s.updateTriggers code table requested).2 = none →
        ∀ newTriggers, bulkFetch table (s.newTriggerIds requested) = .ok newTriggers →
          Updated code newTriggers requested s (s.updated code table requested)) := by
  rw [updated, updateTriggers]
  cases bulkFetch table (s.newTriggerIds requested) with
  | error e => simp
  | ok newTriggers =>
    obtain ⟨hiff, hadded⟩ := addTriggers_spec code newTriggers s (s.newTriggerIds requested)
    simp only [Except.ok.injEq, exists_eq_left']
    rw [← hiff]
    revert hadded
    generalize addTriggers code newTriggers s (s.newTriggerIds requested) = added
    obtain ⟨s₁, raised⟩ := added
    intro hadded
    cases raised with
    | some e => exact ⟨by simp, fun h => nomatch h⟩
    | none =>
      have hs₁ : Added code newTriggers (s.newTriggerIds requested) s s₁ := hadded rfl
      refine ⟨by simp, fun _ loaded hloaded => ?_⟩
      subst hloaded
      refine ⟨?_, hs₁.toCreate, hs₁.failedTriggers⟩
      dsimp only
      rw [hs₁.same.rest]

/-! ## The rows of the new triggers -/

theorem find?_row {table : TriggerTable Kwargs} {row : TriggerRow (Except PyException Kwargs)}
    (hrow : row ∈ table.rows) : table.rows.find? (·.id = row.id) = some row := by
  cases hfind : table.rows.find? (·.id = row.id) with
  | none => simpa using List.find?_eq_none.mp hfind row hrow
  | some row' =>
    have hid : row'.id = row.id := by simpa using List.find?_some hfind
    rw [List.inj_on_of_nodup_map table.id_nodup (List.mem_of_find?_eq_some hfind) hrow hid]

/-- The row that is read for a new id. -/
theorem find?_bulkFetch {table : TriggerTable Kwargs} {ids : List Nat}
    {newTriggers : List (TriggerRow Kwargs)} (h : bulkFetch table ids = .ok newTriggers) {id : Nat}
    (hid : id ∈ ids) :
    newTriggers.find? (·.id = id) =
      (table.rows.find? (·.id = id)).bind fun row => row.load.toOption := by
  rw [find?_loadRows h, List.find?_filter]
  congr 2
  funext row
  by_cases hrow : row.id = id <;> simp [hrow, hid]

/-- What becomes of a new trigger, by its row in the table. -/
theorem outcome_row {s : TriggerRunner Class Obj Event} {code : TriggerCode Kwargs Class Obj}
    {table : TriggerTable Kwargs} {ids : List Nat} {newTriggers : List (TriggerRow Kwargs)}
    (h : bulkFetch table ids = .ok newTriggers) {row : TriggerRow (Except PyException Kwargs)}
    (hrow : row ∈ table.rows) (hid : row.id ∈ ids) {kwargs : Kwargs}
    (hkwargs : row.kwargs = .ok kwargs) :
    s.outcome code row.id (newTriggers.find? (·.id = row.id)) =
      s.outcome code row.id (some ⟨row.id, row.classpath, kwargs, row.taskInstance⟩) := by
  rw [find?_bulkFetch h hid, find?_row hrow, Option.bind_some]
  simp [TriggerRow.load, hkwargs, Except.toOption]

/-- A row does no harm when no exception escapes and what is to be started has a task instance. -/
theorem harmlessRow_iff {s : TriggerRunner Class Obj Event} {code : TriggerCode Kwargs Class Obj}
    {row : TriggerRow (Except PyException Kwargs)} {kwargs : Kwargs}
    (hkwargs : row.kwargs = .ok kwargs) :
    s.HarmlessRow code row ↔
      (∀ e, s.outcome code row.id (some ⟨row.id, row.classpath, kwargs, row.taskInstance⟩) ≠
          .escapes e) ∧
        ∀ trigger, s.outcome code row.id (some ⟨row.id, row.classpath, kwargs, row.taskInstance⟩) =
          .created trigger → trigger.taskInstance.isSome = true := by
  simp only [HarmlessRow, hkwargs, Except.ok.injEq, exists_eq_left', outcome]
  cases s.resolve code row.classpath with
  | error e => simp
  | ok cls =>
    simp only [Except.ok.injEq, forall_eq']
    cases code.construct row.id cls kwargs with
    | error e => by_cases htype : e.cls = .typeError <;> simp [htype]
    | ok trigger => simp [setTriggerLoggingMetadata]

/-- The entries that `update_triggers` appends are started when they have task instances. -/
theorem startable_append {pending added : List (Nat × TriggerInstance Obj)} {running : List Nat}
    (hnew : ∀ entry ∈ added, entry.1 ∉ running ∧ entry.1 ∉ pending.map Prod.fst)
    (hunique : ∀ entry ∈ added, ∀ entry' ∈ added, entry.1 = entry'.1 → entry = entry') :
    Startable (pending ++ added) running ↔
      Startable pending running ∧ ∀ entry ∈ added, entry.2.taskInstance.isSome = true := by
  constructor
  · refine fun h => ⟨fun id entry hentry hid => ?_, fun entry hmem => ?_⟩
    · exact h id entry (by rw [List.find?_append, hentry]; rfl) hid
    · refine h entry.1 entry ?_ (hnew entry hmem).1
      have hnone : pending.find? (·.1 = entry.1) = none := by
        rw [List.find?_eq_none]
        intro e he heq
        exact (hnew entry hmem).2 (List.mem_map.mpr ⟨e, he, by simpa using heq⟩)
      rw [List.find?_append, hnone, Option.none_or]
      cases hfind : added.find? (·.1 = entry.1) with
      | none => simpa using List.find?_eq_none.mp hfind entry hmem
      | some entry' =>
        rw [hunique entry' (List.mem_of_find?_eq_some hfind) entry hmem
          (by simpa using List.find?_some hfind)]
  · rintro ⟨hpending, hadded⟩ id entry hentry hid
    rw [List.find?_append, Option.or_eq_some_iff] at hentry
    rcases hentry with hentry | ⟨-, hentry⟩
    · exact hpending id entry hentry hid
    · exact hadded entry (List.mem_of_find?_eq_some hentry)

/-! ## When a turn raises nothing -/

theorem mem_createdEntries {s : TriggerRunner Class Obj Event} {code : TriggerCode Kwargs Class Obj}
    {newTriggers : List (TriggerRow Kwargs)} {newIds : List Nat}
    {entry : Nat × TriggerInstance Obj} :
    (entry ∈ newIds.flatMap fun newId =>
        ((s.outcome code newId (newTriggers.find? (·.id = newId))).trigger?.map
          (newId, ·)).toList) ↔
      entry.1 ∈ newIds ∧
        s.outcome code entry.1 (newTriggers.find? (·.id = entry.1)) = .created entry.2 := by
  obtain ⟨id, trigger⟩ := entry
  simp only [List.mem_flatMap, Option.mem_toList, Option.map_eq_some_iff, Prod.mk.injEq]
  constructor
  · rintro ⟨newId, hmem, trigger', htrigger, rfl, rfl⟩
    refine ⟨hmem, ?_⟩
    revert htrigger
    cases s.outcome code newId (newTriggers.find? (·.id = newId)) <;> simp [Outcome.trigger?]
  · rintro ⟨hmem, houtcome⟩
    exact ⟨id, hmem, trigger, by rw [houtcome]; rfl, rfl, rfl⟩

theorem mem_failedEntries {s : TriggerRunner Class Obj Event} {code : TriggerCode Kwargs Class Obj}
    {newTriggers : List (TriggerRow Kwargs)} {newIds : List Nat} {id : Nat} :
    (id ∈ (newIds.flatMap fun newId =>
        ((s.outcome code newId (newTriggers.find? (·.id = newId))).failure?.map
          fun e => (newId, some e)).toList).map Prod.fst) ↔
      id ∈ newIds ∧
        ∃ e, s.outcome code id (newTriggers.find? (·.id = id)) = .failed e := by
  simp only [List.mem_map, List.mem_flatMap, Option.mem_toList, Option.map_eq_some_iff]
  constructor
  · rintro ⟨failure, ⟨newId, hmem, e, he, rfl⟩, rfl⟩
    refine ⟨hmem, e, ?_⟩
    revert he
    cases s.outcome code newId (newTriggers.find? (·.id = newId)) <;> simp [Outcome.failure?]
  · rintro ⟨hmem, e, houtcome⟩
    exact ⟨(id, some e), ⟨id, hmem, e, by rw [houtcome]; rfl, rfl⟩, rfl⟩

theorem arunTurn_raises {s : TriggerRunner Class Obj Event} {turns : Turns Event} :
    (s.arunTurn turns).2 = none ↔ Startable s.toCreate s.triggers.keys := by
  rw [← (createLoop_spec s.toCreate turns.create s).1, arunTurn, createTriggers]
  generalize createLoop s.toCreate turns.create s = created
  obtain ⟨s', raised⟩ := created
  cases raised <;> simp

/-- The rows can be read when the rows of the new triggers can. -/
theorem bulkFetch_ok {table : TriggerTable Kwargs} {ids : List Nat} :
    (∃ newTriggers, bulkFetch table ids = .ok newTriggers) ↔
      ∀ row ∈ table.rows, row.id ∈ ids → ∃ kwargs, row.kwargs = .ok kwargs := by
  rw [bulkFetch, loadRows_ok]
  simp only [List.mem_filter, decide_eq_true_eq, and_imp]

/-- The rows of the new triggers do no harm, by what becomes of the triggers. -/
theorem harmlessRows_iff {s : TriggerRunner Class Obj Event} {code : TriggerCode Kwargs Class Obj}
    {table : TriggerTable Kwargs} {ids : List Nat} {newTriggers : List (TriggerRow Kwargs)}
    (h : bulkFetch table ids = .ok newTriggers) :
    (∀ row ∈ table.rows, row.id ∈ ids → s.HarmlessRow code row) ↔
      (∀ id ∈ ids, ∀ e,
          s.outcome code id (newTriggers.find? (·.id = id)) ≠ .escapes e) ∧
        ∀ id ∈ ids, ∀ trigger,
          s.outcome code id (newTriggers.find? (·.id = id)) = .created trigger →
            trigger.taskInstance.isSome = true := by
  have hkwargs := bulkFetch_ok.mp ⟨newTriggers, h⟩
  -- an id without a row does nothing
  have hid : ∀ id ∈ ids, newTriggers.find? (·.id = id) = none ∨
      ∃ row ∈ table.rows, row.id = id := by
    intro id hmem
    rw [find?_bulkFetch h hmem]
    cases hfind : table.rows.find? (·.id = id) with
    | none => exact .inl rfl
    | some row => exact .inr ⟨row, List.mem_of_find?_eq_some hfind, by
        simpa using List.find?_some hfind⟩
  constructor
  · intro hrows
    refine ⟨fun id hmem e => ?_, fun id hmem trigger => ?_⟩
    · rcases hid id hmem with hnone | ⟨row, hrow, rfl⟩
      · simp [hnone, outcome]
      · obtain ⟨kwargs, hk⟩ := hkwargs row hrow hmem
        rw [outcome_row h hrow hmem hk]
        exact ((harmlessRow_iff hk).mp (hrows row hrow hmem)).1 e
    · rcases hid id hmem with hnone | ⟨row, hrow, rfl⟩
      · simp [hnone, outcome]
      · obtain ⟨kwargs, hk⟩ := hkwargs row hrow hmem
        rw [outcome_row h hrow hmem hk]
        exact ((harmlessRow_iff hk).mp (hrows row hrow hmem)).2 trigger
  · rintro ⟨hescapes, hcreated⟩ row hrow hmem
    obtain ⟨kwargs, hk⟩ := hkwargs row hrow hmem
    rw [harmlessRow_iff hk, ← outcome_row h hrow hmem hk]
    exact ⟨hescapes row.id hmem, hcreated row.id hmem⟩

/-- What `update_triggers` leaves can be started. -/
theorem startable_updated {s : TriggerRunner Class Obj Event} {code : TriggerCode Kwargs Class Obj}
    {newTriggers : List (TriggerRow Kwargs)} {requested : List Nat}
    {s' : TriggerRunner Class Obj Event} (h : Updated code newTriggers requested s s') :
    Startable s'.toCreate s'.triggers.keys ↔ Startable s.toCreate s.triggers.keys ∧
      ∀ id ∈ s.newTriggerIds requested, ∀ trigger,
        s.outcome code id (newTriggers.find? (·.id = id)) = .created trigger →
          trigger.taskInstance.isSome = true := by
  have htriggers : s'.triggers = s.triggers := by rw [h.rest]
  rw [h.toCreate, htriggers, startable_append]
  · refine and_congr_right fun _ => ⟨fun hadded id hmem trigger houtcome => ?_,
      fun hadded entry hentry => ?_⟩
    · exact hadded (id, trigger) (mem_createdEntries.mpr ⟨hmem, houtcome⟩)
    · obtain ⟨hmem, houtcome⟩ := mem_createdEntries.mp hentry
      exact hadded entry.1 hmem entry.2 houtcome
  · intro entry hentry
    obtain ⟨-, hrunning, -, -, hpending, -⟩ :=
      mem_newTriggerIds.mp (mem_createdEntries.mp hentry).1
    exact ⟨hrunning, hpending⟩
  · intro entry hentry entry' hentry' hid
    have houtcome := (mem_createdEntries.mp hentry).2
    have houtcome' := (mem_createdEntries.mp hentry').2
    rw [← hid] at houtcome'
    exact Prod.ext hid (Outcome.created.inj (houtcome.symm.trans houtcome'))

/-- A turn raises nothing exactly when no trigger that waits or is new does any harm. -/
theorem raises_iff (s : TriggerRunner Class Obj Event) (code : TriggerCode Kwargs Class Obj)
    (table : TriggerTable Kwargs) (requested : List Nat) (turns : Turns Event) :
    ((s.updateTriggers code table requested).2 = none ∧
        ((s.updated code table requested).arunTurn turns).2 = none) ↔
      Harmless s code table requested := by
  obtain ⟨hiff, hspec⟩ := updateTriggers_spec s code table requested
  rw [arunTurn_raises]
  constructor
  · rintro ⟨hupdate, harun⟩
    obtain ⟨newTriggers, hfetch, hescapes⟩ := hiff.mp hupdate
    rw [startable_updated (hspec hupdate newTriggers hfetch)] at harun
    exact ⟨harun.1, (harmlessRows_iff hfetch).mpr ⟨hescapes, harun.2⟩⟩
  · rintro ⟨hpending, hrows⟩
    obtain ⟨newTriggers, hfetch⟩ := bulkFetch_ok.mpr fun row hrow hmem =>
      (hrows row hrow hmem).imp fun _ h => h.1
    obtain ⟨hescapes, hcreated⟩ := (harmlessRows_iff hfetch).mp hrows
    have hupdate := hiff.mpr ⟨newTriggers, hfetch, hescapes⟩
    exact ⟨hupdate, (startable_updated (hspec hupdate newTriggers hfetch)).mpr
      ⟨hpending, hcreated⟩⟩

/-! ## What a turn leaves -/

/-- What a turn of `arun` leaves after `create_triggers`. -/
theorem finished_cleaned {s : TriggerRunner Class Obj Event} {turns : Turns Event}
    (h : (s.arunTurn turns).2 = none) :
    ∃ cancelled, Created s.toCreate s (s.createTriggers turns.create).1 ∧
      Cancelled (s.createTriggers turns.create).1.toCancel (s.createTriggers turns.create).1
        cancelled ∧ Cleaned cancelled (s.arunTurn turns).1 := by
  have hcreate : (createLoop s.toCreate turns.create s).2 = none :=
    (createLoop_spec s.toCreate turns.create s).1.mpr (arunTurn_raises.mp h)
  have hcreated := (createLoop_spec s.toCreate turns.create s).2 hcreate
  rw [arunTurn]
  unfold createTriggers
  revert hcreate hcreated
  generalize createLoop s.toCreate turns.create s = created
  obtain ⟨s', raised⟩ := created
  intro hcreate hcreated
  cases hcreate
  exact ⟨s'.cancelTriggers turns.cancel, hcreated, cancelLoop_cancelled _ _ _,
    cleanupLoop_cleaned _ _ _⟩

/-- A turn that raises nothing, step by step. -/
structure Turned (s : TriggerRunner Class Obj Event) (code : TriggerCode Kwargs Class Obj)
    (table : TriggerTable Kwargs) (requested : List Nat) (turns : Turns Event)
    (newTriggers : List (TriggerRow Kwargs)) (cancelled : TriggerRunner Class Obj Event) :
    Prop where
  fetch : bulkFetch table (s.newTriggerIds requested) = .ok newTriggers
  escapes : ∀ newId ∈ s.newTriggerIds requested, ∀ e,
    s.outcome code newId (newTriggers.find? (·.id = newId)) ≠ .escapes e
  update : Updated code newTriggers requested s (s.updated code table requested)
  create : Created (s.updated code table requested).toCreate (s.updated code table requested)
    (s.created code table requested turns)
  cancel : Cancelled (s.created code table requested turns).toCancel
    (s.created code table requested turns) cancelled
  cleanup : Cleaned cancelled (s.finished code table requested turns)

theorem turned_of_raises {s : TriggerRunner Class Obj Event}
    {code : TriggerCode Kwargs Class Obj} {table : TriggerTable Kwargs} {requested : List Nat}
    {turns : Turns Event} (hupdate : (s.updateTriggers code table requested).2 = none)
    (harun : ((s.updated code table requested).arunTurn turns).2 = none) :
    ∃ newTriggers cancelled, Turned s code table requested turns newTriggers cancelled := by
  obtain ⟨hiff, hspec⟩ := updateTriggers_spec s code table requested
  obtain ⟨newTriggers, hfetch, hescapes⟩ := hiff.mp hupdate
  obtain ⟨cancelled, hcreated, hcancelled, hcleaned⟩ := finished_cleaned harun
  exact ⟨newTriggers, cancelled, hfetch, hescapes, hspec hupdate newTriggers hfetch, hcreated,
    hcancelled, hcleaned⟩

section
variable {s cancelled : TriggerRunner Class Obj Event} {code : TriggerCode Kwargs Class Obj}
  {table : TriggerTable Kwargs} {requested : List Nat} {turns : Turns Event}
  {newTriggers : List (TriggerRow Kwargs)}

theorem Turned.triggers_updated (h : Turned s code table requested turns newTriggers cancelled) :
    (s.updated code table requested).triggers = s.triggers := by
  rw [h.update.rest]

theorem Turned.failed_created (h : Turned s code table requested turns newTriggers cancelled) :
    (s.created code table requested turns).failedTriggers =
      (s.updated code table requested).failedTriggers := by
  rw [h.create.rest]

/-- The ids that are started. -/
theorem Turned.mem_created (h : Turned s code table requested turns newTriggers cancelled)
    (id : Nat) : id ∈ (s.created code table requested turns).triggers.keys ↔
      id ∈ s.triggers.keys ∨ id ∈ s.toCreate.map Prod.fst ∨
        id ∈ s.newTriggerIds requested ∧ ∃ trigger,
          s.outcome code id (newTriggers.find? (·.id = id)) = .created trigger := by
  rw [h.create.keys, h.triggers_updated, h.update.toCreate, List.map_append, List.mem_append]
  refine or_congr_right (or_congr_right ?_)
  rw [List.mem_map]
  constructor
  · rintro ⟨entry, hentry, rfl⟩
    obtain ⟨hmem, houtcome⟩ := mem_createdEntries.mp hentry
    exact ⟨hmem, entry.2, houtcome⟩
  · rintro ⟨hmem, trigger, houtcome⟩
    exact ⟨(id, trigger), mem_createdEntries.mpr ⟨hmem, houtcome⟩, rfl⟩

/-- The ids that have failed before the triggers run. -/
theorem Turned.mem_failed (h : Turned s code table requested turns newTriggers cancelled)
    (id : Nat) : id ∈ (s.created code table requested turns).failedTriggers.map Prod.fst ↔
      id ∈ s.failedTriggers.map Prod.fst ∨ id ∈ s.newTriggerIds requested ∧
        ∃ e, s.outcome code id (newTriggers.find? (·.id = id)) = .failed e := by
  rw [h.failed_created, h.update.failedTriggers, List.map_append, List.mem_append,
    mem_failedEntries]

theorem outcome_some_ne_vanished (s : TriggerRunner Class Obj Event)
    (code : TriggerCode Kwargs Class Obj) (id : Nat) (row : TriggerRow Kwargs) :
    s.outcome code id (some row) ≠ .vanished := by
  simp only [outcome]
  cases s.resolve code row.classpath with
  | error e => simp
  | ok cls =>
    dsimp only
    cases code.construct id cls row.kwargs with
    | error e => by_cases htype : e.cls = .typeError <;> simp [htype]
    | ok trigger => simp

theorem Turned.exactlyOne (h : Turned s code table requested turns newTriggers cancelled)
    {row : TriggerRow (Except PyException Kwargs)} (hrow : row ∈ table.rows)
    (hmem : row.id ∈ s.newTriggerIds requested) :
    Xor (row.id ∈ (s.created code table requested turns).triggers.keys)
      (row.id ∈ (s.created code table requested turns).failedTriggers.map Prod.fst) := by
  obtain ⟨-, hrunning, -, -, hpending, hnotfailed⟩ := mem_newTriggerIds.mp hmem
  obtain ⟨kwargs, hkwargs⟩ := bulkFetch_ok.mp ⟨newTriggers, h.fetch⟩ row hrow hmem
  have hescapes := h.escapes row.id hmem
  have hvanished := outcome_some_ne_vanished s code row.id
    ⟨row.id, row.classpath, kwargs, row.taskInstance⟩
  rw [h.mem_created, h.mem_failed]
  simp only [hrunning, hpending, hnotfailed, hmem, false_or, true_and]
  rw [outcome_row h.fetch hrow hmem hkwargs] at hescapes ⊢
  revert hescapes hvanished
  cases s.outcome code row.id (some ⟨row.id, row.classpath, kwargs, row.taskInstance⟩) <;>
    simp [Xor]

/-- What was started and is requested goes on. -/
theorem Turned.continues (h : Turned s code table requested turns newTriggers cancelled)
    {id : Nat} {details : TriggerDetails}
    (hget : (s.created code table requested turns).triggers.get? id = some details)
    (hrequested : id ∈ requested) (hcancel : id ∉ s.toCancel) :
    Continues id details (s.finished code table requested turns) := by
  have hqueue : (s.created code table requested turns).toCancel =
      s.toCancel ++ s.cancelTriggerIds requested := by rw [h.create.rest, h.update.rest]
  have hnotin : id ∉ (s.created code table requested turns).toCancel := by
    rw [hqueue, List.mem_append, not_or, cancelTriggerIds, List.mem_filter]
    exact ⟨hcancel, fun hmem => of_decide_eq_true hmem.2 hrequested⟩
  obtain ⟨details₂, hget₂, hev⟩ := h.cancel.evolves id details hnotin hget
  obtain ⟨details₃, hev', hrest⟩ := h.cleanup.continues id details₂ hget₂
  exact ⟨details₃, hev.trans hev', hrest⟩

theorem Turned.running (h : Turned s code table requested turns newTriggers cancelled)
    {id : Nat} {details : TriggerDetails} (hget : s.triggers.get? id = some details)
    (hrequested : id ∈ requested) (hcancel : id ∉ s.toCancel) :
    Continues id details (s.finished code table requested turns) := by
  rw [← h.triggers_updated] at hget
  obtain ⟨details₂, hget₂, hev⟩ := h.create.evolves id details hget
  obtain ⟨details₃, hev', hrest⟩ := h.continues hget₂ hrequested hcancel
  exact ⟨details₃, hev.trans hev', hrest⟩

theorem Turned.failed_cancelled (h : Turned s code table requested turns newTriggers cancelled) :
    cancelled.failedTriggers = (s.created code table requested turns).failedTriggers := by
  rw [h.cancel.rest]

theorem Turned.failures (h : Turned s code table requested turns newTriggers cancelled)
    {failure : Nat × Option PyException}
    (hmem : failure ∈ (s.finished code table requested turns).failedTriggers) :
    failure ∈ s.failedTriggers ∨ failure.1 ∈ s.newTriggerIds requested ∨
      failure.1 ∈ (s.created code table requested turns).triggers.keys ∧
        failure.1 ∉ (s.finished code table requested turns).triggers.keys := by
  rcases h.cleanup.failures failure hmem with hmem | ⟨hin, hgone⟩
  · rw [h.failed_cancelled, h.failed_created, h.update.failedTriggers, List.mem_append] at hmem
    exact hmem.imp_right fun hadded =>
      .inl (mem_failedEntries.mp (List.mem_map_of_mem hadded)).1
  · exact .inr (.inr ⟨h.cancel.keys ▸ hin, hgone⟩)

theorem Turned.isolated (h : Turned s code table requested turns newTriggers cancelled)
    (hupdate : (s.updateTriggers code table requested).2 = none)
    (harun : ((s.updated code table requested).arunTurn turns).2 = none) :
    Isolated s code table requested turns where
  update_raises := hupdate
  arun_raises := harun
  stop := by rw [h.cleanup.rest, h.cancel.rest, h.create.rest, h.update.rest]
  exactlyOne _ hrow hmem _ := h.exactlyOne hrow hmem
  started id hid := ((h.mem_created id).mp hid).imp_right fun h => h.imp_right And.left
  pending id hid := (h.mem_created id).mpr (.inr (.inl hid))
  running _ _ := h.running
  continues _ _ := h.continues
  failures _ := h.failures
  failed := by
    refine ⟨?_, h.failed_cancelled ▸ h.cleanup.failedTriggers⟩
    rw [h.failed_created, h.update.failedTriggers]
    exact List.prefix_append _ _
  events := by
    have hevents : (s.updated code table requested).events = s.events := by rw [h.update.rest]
    exact (hevents ▸ h.create.events).trans (h.cancel.events.trans h.cleanup.events)

end

/-- **One bad trigger and the others.** In a turn of the triggerer nothing is raised and no trigger
is touched for another's sake exactly when the triggers that wait have task instances and the rows of
the new triggers do no harm. -/
theorem isolated_iff (s : TriggerRunner Class Obj Event) (code : TriggerCode Kwargs Class Obj)
    (table : TriggerTable Kwargs) (requested : List Nat) (turns : Turns Event) :
    Isolated s code table requested turns ↔ Harmless s code table requested := by
  rw [← raises_iff s code table requested turns]
  constructor
  · intro h
    exact ⟨h.update_raises, h.arun_raises⟩
  · rintro ⟨hupdate, harun⟩
    obtain ⟨newTriggers, cancelled, h⟩ := turned_of_raises hupdate harun
    exact h.isolated hupdate harun

/-- Two rows, of which the second has lost its task instance. -/
def twoRows : TriggerTable Unit where
  rows := [⟨1, "good.Trigger", .ok (), some ⟨"dag", "run", "task", -1, 1, false⟩⟩,
    ⟨2, "bad.Trigger", .ok (), none⟩]
  id_nodup := by simp

/-- Classes of which all can be imported, with constructors that end as `outcome` says. -/
def codeOf (outcome : Nat → Except PyException Unit) : TriggerCode Unit String Unit where
  importString classpath := .ok classpath
  construct triggerId _ _ := outcome triggerId

/-- A constructor that raises a `ValueError` makes `update_triggers` raise it; a trigger whose task
instance was cleared makes `create_triggers` raise. -/
theorem isolated_badTriggers :
    ¬Isolated ({} : TriggerRunner String Unit Unit)
        (codeOf fun id => if id = 1 then .error ⟨.otherException, "ValueError"⟩ else .ok ())
        twoRows [1, 2] {} ∧
      ¬Isolated ({} : TriggerRunner String Unit Unit) (codeOf fun _ => .ok ()) twoRows [1, 2] {} := by
  constructor
  · intro h
    exact absurd h.update_raises (by decide)
  · intro h
    exact absurd h.arun_raises (by decide)

end TriggerRunner

end Airflow.Triggerer
