import Airflow.Scheduler.ExecutorEvents

/-!
# Which attempt an executor event acts on

`processExecutorEvents` answers, for each row it finds, the last event of the row's primary key
(`processExecutorEvents_ok`). A `QUEUED` event is answered without looking at its try, and an
event that another one of the same primary key follows is not answered at all;
`processExecutorEvents_iff` is the condition under which neither happens.
-/

namespace Airflow.ExecutorEvents

/-- The last event in the buffer under the primary key. -/
def lastEvent (eventBuffer : Dict TaskInstanceKey Event) (key : PrimaryKey) :
    Option (TaskInstanceKey × Event) :=
  eventBuffer.entries.reverse.find? (·.1.primary = key)

section
variable {eventBuffer : Dict TaskInstanceKey Event} {key : PrimaryKey}
  {e : TaskInstanceKey × Event}

theorem lastEvent_eq_some (h : lastEvent eventBuffer key = some e) :
    e.1.primary = key ∧ eventBuffer.get? e.1 = some e.2 := by
  have hmem := List.mem_of_find?_eq_some h
  have hkey := List.find?_some h
  rw [List.mem_reverse] at hmem
  exact ⟨by simpa using hkey, Dict.get?_eq_some.mpr hmem⟩

theorem lastEvent_isSome (h : eventBuffer.get? e.1 = some e.2) :
    ∃ e', lastEvent eventBuffer e.1.primary = some e' := by
  rw [← Option.isSome_iff_exists, lastEvent, List.find?_isSome]
  refine ⟨e, List.mem_reverse.mpr (Dict.get?_eq_some.mp h), by simp⟩

theorem get?_foldl_set (entries : List (TaskInstanceKey × Event)) (m : Dict PrimaryKey Int) :
    (entries.foldl (fun map e => map.set e.1.primary e.1.tryNumber) m).get? key =
      ((entries.reverse.find? (·.1.primary = key)).map (·.1.tryNumber)).or (m.get? key) := by
  induction entries generalizing m with
  | nil => simp
  | cons e entries ih =>
    rw [List.foldl_cons, ih, List.reverse_cons, List.find?_append, Dict.get?_set]
    cases entries.reverse.find? (·.1.primary = key) with
    | some e' => simp
    | none => by_cases h : e.1.primary = key <;> simp [h, Ne.symm]

/-- The map holds the try of the last event. -/
theorem get?_primaryKeyToTryNumberMap :
    (Scheduler.primaryKeyToTryNumberMap eventBuffer).get? key =
      (lastEvent eventBuffer key).map (·.1.tryNumber) := by
  rw [Scheduler.primaryKeyToTryNumberMap, get?_foldl_set, Dict.get?_empty, Option.or_none,
    lastEvent]

end

/-! ## One pass over the rows -/

namespace Scheduler

variable (self : Scheduler)

/-- What is done about a row of the query: the answer to the last event of its key. -/
def answer (eventBuffer : Dict TaskInstanceKey Event) (key : PrimaryKey) (ti : TaskInstance) :
    TaskInstance × List (TaskInstanceKey × Action) :=
  match lastEvent eventBuffer key with
  | none => (ti, [])
  | some (bufferKey, event) =>
    let (ti, action) := self.respond key ti bufferKey event
    (ti, (action.map fun a => (bufferKey, a)).toList)

theorem mem_answer {eventBuffer : Dict TaskInstanceKey Event} {key : PrimaryKey} {ti : TaskInstance}
    {a : TaskInstanceKey × Action} (h : a ∈ (self.answer eventBuffer key ti).2) :
    a.1.primary = key := by
  unfold answer at h
  split at h
  next => exact absurd h List.not_mem_nil
  next bufferKey event hlast =>
    have hkey := (lastEvent_eq_some hlast).1
    cases haction : (self.respond key ti bufferKey event).2 with
    | none => simp [haction] at h
    | some action =>
      simp only [haction, Option.map_some, Option.toList_some, List.mem_singleton] at h
      rw [h]
      exact hkey

variable {self} {eventBuffer : Dict TaskInstanceKey Event}

theorem processTi_eq {acc : Processing} {key : PrimaryKey} {ti : TaskInstance}
    {bufferKey : TaskInstanceKey} {event : Event}
    (hlast : lastEvent eventBuffer key = some (bufferKey, event))
    (hget : acc.eventBuffer.get? bufferKey = some event) :
    self.processTi (primaryKeyToTryNumberMap eventBuffer) acc (key, ti) = .ok {
      eventBuffer := acc.eventBuffer.erase bufferKey
      db := acc.db.set key (self.answer eventBuffer key ti).1
      log := acc.log ++ (self.answer eventBuffer key ti).2 } := by
  have htry : (primaryKeyToTryNumberMap eventBuffer).get? key = some bufferKey.tryNumber := by
    rw [get?_primaryKeyToTryNumberMap, hlast, Option.map_some]
  have hkey : (key.tryKey ti.tryNumber).withTryNumber bufferKey.tryNumber = bufferKey :=
    (PrimaryKey.tryKey_eq key).mpr ⟨(lastEvent_eq_some hlast).1, rfl⟩
  have hpop : acc.eventBuffer.pop bufferKey = some (event, acc.eventBuffer.erase bufferKey) := by
    rw [Dict.pop, hget, Option.map_some]
  simp only [processTi, htry, hkey, hpop, answer, hlast]

/-- **The loop answers every row**, and takes each answered event out of the buffer. -/
theorem foldlM_processTi (rows : List (PrimaryKey × TaskInstance))
    (hnodup : (rows.map Prod.fst).Nodup)
    (hrows : ∀ row ∈ rows, ∃ e, lastEvent eventBuffer row.1 = some e) (acc : Processing)
    (hacc : ∀ e : TaskInstanceKey × Event, e.1.primary ∈ rows.map Prod.fst →
      eventBuffer.get? e.1 = some e.2 → acc.eventBuffer.get? e.1 = some e.2) :
    ∃ result, rows.foldlM (self.processTi (primaryKeyToTryNumberMap eventBuffer)) acc = .ok result ∧
      (∀ key, result.db.get? key =
        ((rows.find? (·.1 = key)).map fun row => (self.answer eventBuffer key row.2).1).or
          (acc.db.get? key)) ∧
      result.log = acc.log ++ rows.flatMap fun row => (self.answer eventBuffer row.1 row.2).2 := by
  induction rows generalizing acc with
  | nil => exact ⟨acc, rfl, by simp, by simp⟩
  | cons row rows ih =>
    obtain ⟨key, ti⟩ := row
    rw [List.map_cons, List.nodup_cons] at hnodup
    obtain ⟨⟨bufferKey, event⟩, hlast⟩ := hrows (key, ti) List.mem_cons_self
    obtain ⟨hprimary, hget⟩ := lastEvent_eq_some hlast
    have hacc' : acc.eventBuffer.get? bufferKey = some event :=
      hacc (bufferKey, event) (by simp [hprimary]) hget
    have hstep := @processTi_eq self _ _ key ti _ _ hlast hacc'
    obtain ⟨result, hfold, hdb, hlog⟩ := ih hnodup.2
      (fun row hrow => hrows row (List.mem_cons_of_mem _ hrow))
      { eventBuffer := acc.eventBuffer.erase bufferKey
        db := acc.db.set key (self.answer eventBuffer key ti).1
        log := acc.log ++ (self.answer eventBuffer key ti).2 } (by
        intro e hmem he
        have hne : e.1 ≠ bufferKey := by
          rintro heq
          apply hnodup.1
          rw [← hprimary, ← heq]
          exact hmem
        rw [Dict.get?_erase, if_neg hne]
        exact hacc e (List.mem_cons_of_mem _ hmem) he)
    refine ⟨result, ?_, ?_, ?_⟩
    · rw [List.foldlM_cons, hstep]
      exact hfold
    · intro key'
      rw [hdb key', List.find?_cons, Dict.get?_set]
      by_cases heq : key' = key
      · subst heq
        have hnone : rows.find? (·.1 = key') = none := by
          rw [List.find?_eq_none]
          intro row hrow hkey
          exact hnodup.1 (List.mem_map.mpr ⟨row, hrow, by simpa using hkey⟩)
        simp [hnone]
      · simp [heq, Ne.symm heq]
    · rw [hlog, List.flatMap_cons, List.append_assoc]

theorem filter_flatMap {rows : List (PrimaryKey × TaskInstance)}
    (hnodup : (rows.map Prod.fst).Nodup) (key : PrimaryKey) :
    (rows.flatMap fun row => (self.answer eventBuffer row.1 row.2).2).filter (·.1.primary = key) =
      ((rows.find? (·.1 = key)).map fun row => (self.answer eventBuffer key row.2).2).getD [] := by
  induction rows with
  | nil => rfl
  | cons row rows ih =>
    obtain ⟨key', ti⟩ := row
    rw [List.map_cons, List.nodup_cons] at hnodup
    rw [List.flatMap_cons, List.filter_append, ih hnodup.2, List.find?_cons]
    by_cases heq : key' = key
    · subst heq
      have hnone : rows.find? (·.1 = key') = none := by
        rw [List.find?_eq_none]
        intro row hrow hkey
        exact hnodup.1 (List.mem_map.mpr ⟨row, hrow, by simpa using hkey⟩)
      have hall : (self.answer eventBuffer key' ti).2.filter (·.1.primary = key') =
          (self.answer eventBuffer key' ti).2 := by
        rw [List.filter_eq_self]
        exact fun a ha => by simpa using self.mem_answer ha
      simp [hnone, hall]
    · have hempty : (self.answer eventBuffer key' ti).2.filter (·.1.primary = key) = [] := by
        rw [List.filter_eq_nil_iff]
        intro a ha
        simpa [self.mem_answer ha] using heq
      simp [hempty, heq]

variable (self) in
/-- The rows that the query finds. -/
def Queried (eventBuffer : Dict TaskInstanceKey Event) (key : PrimaryKey) : Prop :=
  key ∈ (tisWithRightState eventBuffer).map (·.primary) ∧ self.locked key = false

variable (self) in
instance (eventBuffer : Dict TaskInstanceKey Event) (key : PrimaryKey) :
    Decidable (self.Queried eventBuffer key) := inferInstanceAs (Decidable (_ ∧ _))

theorem find?_queriedTis {db : Database} {key : PrimaryKey} {ti : TaskInstance}
    (hti : db.get? key = some ti) :
    (self.queriedTis eventBuffer db).find? (·.1 = key) =
      if self.Queried eventBuffer key then some (key, ti) else none := by
  have hmem := Dict.get?_eq_some.mp hti
  by_cases hq : self.Queried eventBuffer key
  · rw [if_pos hq]
    have hrow : (key, ti) ∈ self.queriedTis eventBuffer db := by
      apply List.mem_filter.mpr
      refine ⟨hmem, ?_⟩
      obtain ⟨hright, hlocked⟩ := hq
      simpa [hlocked] using hright
    cases hfind : (self.queriedTis eventBuffer db).find? (·.1 = key) with
    | none =>
      have := List.find?_eq_none.mp hfind (key, ti) hrow
      simp at this
    | some row =>
      have hkey : row.1 = key := by simpa using List.find?_some hfind
      have hrow' := (List.mem_filter.mp (List.mem_of_find?_eq_some hfind)).1
      have hget : db.get? row.1 = some row.2 := Dict.get?_eq_some.mpr hrow'
      rw [hkey, hti] at hget
      rw [← hkey, Option.some_inj.mp hget]
  · rw [if_neg hq, List.find?_eq_none]
    intro row hrow hkey
    apply hq
    have hfound := (List.mem_filter.mp hrow).2
    rw [Bool.and_eq_true, decide_eq_true_iff] at hfound
    rw [decide_eq_true_iff] at hkey
    rw [← hkey]
    exact ⟨hfound.1, by simpa using hfound.2⟩

/-- **What a pass does to a row**: the answer to the last event if the query finds the row. -/
theorem processExecutorEvents_ok (db : Database) :
    ∃ result, self.processExecutorEvents db = .ok result ∧ ∀ key ti, db.get? key = some ti →
      (self.Queried self.executor.eventBuffer key →
        result.db.get? key = some (self.answer self.executor.eventBuffer key ti).1 ∧
        result.log.filter (·.1.primary = key) = (self.answer self.executor.eventBuffer key ti).2) ∧
      (¬ self.Queried self.executor.eventBuffer key →
        result.db.get? key = some ti ∧ result.log.filter (·.1.primary = key) = []) := by
  generalize hbuffer : self.executor.eventBuffer = eventBuffer
  by_cases hright : tisWithRightState eventBuffer = []
  · refine ⟨{ eventBuffer, db }, ?_, fun key ti hti => ⟨fun hq => ?_, fun _ => ⟨hti, rfl⟩⟩⟩
    · simp only [processExecutorEvents, Executor.getEventBuffer, hbuffer, if_pos hright]
    · simp [Queried, hright] at hq
  have hnodup : ((self.queriedTis eventBuffer db).map Prod.fst).Nodup :=
    db.keys_nodup.sublist (List.filter_sublist.map _)
  have hrows : ∀ row ∈ self.queriedTis eventBuffer db,
      ∃ e, lastEvent eventBuffer row.1 = some e := by
    intro row hrow
    have hfound := (List.mem_filter.mp hrow).2
    rw [Bool.and_eq_true, decide_eq_true_iff, List.mem_map] at hfound
    obtain ⟨⟨bufferKey, hmem, heq⟩, -⟩ := hfound
    obtain ⟨e, he, rfl⟩ := List.mem_map.mp hmem
    rw [← heq]
    exact lastEvent_isSome (Dict.get?_eq_some.mpr (List.mem_filter.mp he).1)
  obtain ⟨result, hfold, hdb, hlog⟩ := @foldlM_processTi self _ _ hnodup hrows
    { eventBuffer, db } (fun _ _ h => h)
  refine ⟨result, ?_, fun key ti hti => ⟨fun hq => ?_, fun hq => ?_⟩⟩
  · simp only [processExecutorEvents, Executor.getEventBuffer, hbuffer, if_neg hright]
    exact hfold
  · rw [hdb, hlog, List.nil_append, filter_flatMap hnodup, find?_queriedTis hti, if_pos hq]
    exact ⟨rfl, rfl⟩
  · rw [hdb, hlog, List.nil_append, filter_flatMap hnodup, find?_queriedTis hti, if_neg hq]
    exact ⟨hti, rfl⟩

/-! ## The two conditions -/

/-- A row changes only when one thing is done about it, for an event of its current try. -/
def OnlyOwnAttempt (db : Database) (result : Processing) : Prop :=
  ∀ key ti, db.get? key = some ti → result.db.get? key ≠ some ti → ∃ bufferKey action,
    result.log.filter (·.1.primary = key) = [(bufferKey, action)] ∧
      bufferKey.tryNumber = ti.tryNumber

/-- The executor reports the current try finished of an instance that is queued by this job and
that the executor does not know. -/
structure FinishedWhileQueued (scheduler : Scheduler) (db : Database)
    (bufferKey : TaskInstanceKey) (event : Event) (ti : TaskInstance) : Prop where
  reported : scheduler.executor.eventBuffer.get? bufferKey = some event
  finished : event.state = .success ∨ event.state = .failed
  row : db.get? bufferKey.primary = some ti
  own : bufferKey.tryNumber = ti.tryNumber
  queued : ti.state = some .queued
  queuedByThisJob : ti.queuedByJobId = some scheduler.jobId
  unknown : scheduler.executor.hasTask bufferKey = false

end Scheduler

/-- The instance is failed, at once or by the DAG processor. -/
def Action.handlesFailure : Action → Bool
  | .handleFailure | .sendCallback => true
  | .setState state => state = .failed
  | .setExternalExecutorId => false

namespace Scheduler

variable (self : Scheduler)

def OneFailureHandling (db : Database) (result : Processing) : Prop :=
  ∀ bufferKey event ti, self.FinishedWhileQueued db bufferKey event ti →
    (result.log.filter fun a => a.1.primary = bufferKey.primary ∧ a.2.handlesFailure).length = 1

/-- No last event of a row is a `QUEUED` one of another try with news for it; and an event of the
current try that must be acted on is the last one of a row that can be locked, whose task can be
loaded unless the event is `FAILED`. -/
def LastEventsOfOwnAttempt (db : Database) : Prop :=
  (∀ key ti bufferKey info, db.get? key = some ti → self.locked key = false →
    lastEvent self.executor.eventBuffer key = some (bufferKey, ⟨.queued, info⟩) →
      bufferKey.tryNumber = ti.tryNumber ∨ info = ti.externalExecutorId) ∧
  ∀ bufferKey event ti, self.FinishedWhileQueued db bufferKey event ti →
    self.locked bufferKey.primary = false ∧
    lastEvent self.executor.eventBuffer bufferKey.primary = some (bufferKey, event) ∧
    (event.state = .failed ∨ (self.getTask bufferKey.dagId bufferKey.taskId).isSome)

variable {self} {db : Database} {key : PrimaryKey} {ti : TaskInstance}
  {bufferKey : TaskInstanceKey} {event : Event}

/-- A `QUEUED` event is answered whatever its try. -/
theorem respond_queued (h : event.state = .queued) :
    self.respond key ti bufferKey event =
      ({ ti with externalExecutorId := event.info }, some .setExternalExecutorId) := by
  rw [respond, if_pos h]

/-- Any other event is answered only if it is of the current try. -/
theorem respond_other (hqueued : event.state ≠ .queued)
    (htry : bufferKey.tryNumber ≠ ti.tryNumber) :
    self.respond key ti bufferKey event = (ti, none) := by
  rw [respond, if_neg hqueued, if_neg]
  exact fun h => htry h.1.1.symm

theorem tiRequeued_eq (hkey : bufferKey.primary = key) (htry : bufferKey.tryNumber = ti.tryNumber) :
    self.tiRequeued key ti =
      (ti.queuedByJobId ≠ some self.jobId || self.executor.hasTask bufferKey) := by
  rw [tiRequeued, (PrimaryKey.tryKey_eq key).mpr ⟨hkey, htry⟩]

/-- What changes a row is an action, for a `QUEUED` event or one of the current try. -/
theorem respond_changed (h : (self.respond key ti bufferKey event).1 ≠ ti) :
    ∃ action, (self.respond key ti bufferKey event).2 = some action ∧
      (event.state = .queued ∨ bufferKey.tryNumber = ti.tryNumber) := by
  by_cases hqueued : event.state = .queued
  · rw [respond_queued hqueued]
    exact ⟨_, rfl, .inl hqueued⟩
  by_cases htry : bufferKey.tryNumber = ti.tryNumber
  · refine (Option.isSome_iff_exists.mp ?_).imp fun action haction => ⟨haction, .inr htry⟩
    unfold respond at h ⊢
    rw [if_neg hqueued] at h ⊢
    split at h
    next hown =>
      rw [if_pos hown]
      cases self.getTask key.dagId key.taskId with
      | none => rfl
      | some task => by_cases hc : (task.onRetryCallback || task.onFailureCallback) <;> simp [hc]
    next => exact absurd rfl h
  · rw [respond_other hqueued htry] at h
    exact absurd rfl h

/-- What is done about an instance that finished while it was queued. -/
theorem FinishedWhileQueued.respond (h : self.FinishedWhileQueued db bufferKey event ti) :
    ∃ ti' action, self.respond bufferKey.primary ti bufferKey event = (ti', some action) ∧
      (action.handlesFailure ↔
        event.state = .failed ∨ (self.getTask bufferKey.dagId bufferKey.taskId).isSome) := by
  have hqueued : event.state ≠ .queued := by
    rcases h.finished with hs | hs <;> simp [hs]
  have hrequeued : ¬ self.tiRequeued bufferKey.primary ti := by
    simp [tiRequeued_eq rfl h.own, h.queuedByThisJob, h.unknown]
  rw [Scheduler.respond, if_neg hqueued, if_pos ⟨⟨h.own.symm, h.queued⟩, hrequeued⟩]
  cases htask : self.getTask bufferKey.primary.dagId bufferKey.primary.taskId with
  | none =>
    refine ⟨_, _, rfl, ?_⟩
    show (decide (event.state = .failed) = true ↔ _ ∨ (self.getTask _ _).isSome)
    rw [show self.getTask bufferKey.dagId bufferKey.taskId = none from htask]
    simp
  | some task =>
    have hsome : (self.getTask bufferKey.dagId bufferKey.taskId).isSome := by
      rw [show self.getTask bufferKey.dagId bufferKey.taskId = some task from htask]
      rfl
    by_cases hc : (task.onRetryCallback || task.onFailureCallback) = true
    · exact ⟨_, _, if_pos hc, by simp [Action.handlesFailure, hsome]⟩
    · exact ⟨_, _, if_neg hc, by simp [Action.handlesFailure, hsome]⟩

theorem Queried.of_event (hget : self.executor.eventBuffer.get? bufferKey = some event)
    (hstate : event.state = .failed ∨ event.state = .success ∨ event.state = .queued)
    (hlocked : self.locked bufferKey.primary = false) :
    self.Queried self.executor.eventBuffer bufferKey.primary := by
  refine ⟨?_, hlocked⟩
  apply List.mem_map_of_mem
  apply List.mem_map.mpr
  refine ⟨(bufferKey, event), List.mem_filter.mpr ⟨Dict.get?_eq_some.mp hget, ?_⟩, rfl⟩
  rcases hstate with h | h | h <;> simp [h]

theorem Queried.lastEvent (h : self.Queried self.executor.eventBuffer key) :
    ∃ bufferKey event, ExecutorEvents.lastEvent self.executor.eventBuffer key =
      some (bufferKey, event) := by
  obtain ⟨bufferKey, hmem, heq⟩ := List.mem_map.mp h.1
  obtain ⟨e, he, rfl⟩ := List.mem_map.mp hmem
  obtain ⟨e', he'⟩ := lastEvent_isSome (Dict.get?_eq_some.mpr (List.mem_filter.mp he).1)
  exact ⟨e'.1, e'.2, heq ▸ he'⟩

theorem answer_eq (hlast : lastEvent self.executor.eventBuffer key = some (bufferKey, event)) :
    self.answer self.executor.eventBuffer key ti =
      ((self.respond key ti bufferKey event).1,
        ((self.respond key ti bufferKey event).2.map fun a => (bufferKey, a)).toList) := by
  simp only [answer, hlast]

/-- The failure handlings of a row are those in what is recorded of it. -/
theorem filter_handlesFailure (log : List (TaskInstanceKey × Action)) :
    log.filter (fun a => a.1.primary = key ∧ a.2.handlesFailure) =
      (log.filter (·.1.primary = key)).filter (·.2.handlesFailure) := by
  rw [List.filter_filter]
  congr 1
  funext a
  simp [Bool.and_comm]

/-- An answer to an event that is not of the current try is no failure handling. -/
theorem not_handlesFailure_of_tryNumber_ne (htry : bufferKey.tryNumber ≠ ti.tryNumber) :
    ((((self.respond key ti bufferKey event).2.map fun a => (bufferKey, a)).toList).filter
      (·.2.handlesFailure)) = [] := by
  by_cases hqueued : event.state = .queued
  · rw [respond_queued hqueued]
    rfl
  · rw [respond_other hqueued htry]
    rfl

/-- **Each event acts on its own attempt, and each finished one is handled once, exactly if the
last events of the rows are those of their current tries.** -/
theorem processExecutorEvents_iff :
    (∃ result, self.processExecutorEvents db = .ok result ∧ OnlyOwnAttempt db result ∧
      self.OneFailureHandling db result) ↔ self.LastEventsOfOwnAttempt db := by
  obtain ⟨result, hok, hrows⟩ := self.processExecutorEvents_ok db
  constructor
  · rintro ⟨result', hok', hown, hone⟩
    cases hok.symm.trans hok'
    refine ⟨fun key ti bufferKey info hti hlocked hlast => ?_, fun bufferKey event ti hfin => ?_⟩
    · obtain ⟨rfl, hget⟩ := lastEvent_eq_some hlast
      have hq := Queried.of_event hget (.inr (.inr rfl)) hlocked
      obtain ⟨hdb, hlog⟩ := (hrows _ _ hti).1 hq
      rw [answer_eq hlast, respond_queued rfl] at hdb hlog
      by_cases hinfo : info = ti.externalExecutorId
      · exact .inr hinfo
      left
      obtain ⟨bufferKey', action, hlog', htry⟩ := hown _ _ hti (by
        rw [hdb]
        intro heq
        apply hinfo
        rw [← Option.some_inj.mp heq])
      rw [hlog] at hlog'
      have heq : bufferKey = bufferKey' := congrArg Prod.fst (List.cons.inj hlog').1
      rw [heq]
      exact htry
    · have hcount := hone _ _ _ hfin
      rw [filter_handlesFailure] at hcount
      have hlocked : self.locked bufferKey.primary = false := by
        by_contra hlocked
        have hnot : ¬ self.Queried self.executor.eventBuffer bufferKey.primary :=
          fun hq => hlocked hq.2
        rw [((hrows _ _ hfin.row).2 hnot).2] at hcount
        simp at hcount
      have hstate : event.state = .failed ∨ event.state = .success ∨ event.state = .queued := by
        rcases hfin.finished with h | h <;> simp [h]
      have hq := Queried.of_event hfin.reported hstate hlocked
      obtain ⟨lastKey, last, hlast⟩ := hq.lastEvent
      rw [((hrows _ _ hfin.row).1 hq).2, answer_eq hlast] at hcount
      obtain ⟨hprimary, hget⟩ := lastEvent_eq_some hlast
      have htry : lastKey.tryNumber = ti.tryNumber := by
        by_contra htry
        rw [not_handlesFailure_of_tryNumber_ne htry] at hcount
        simp at hcount
      have hkey : lastKey = bufferKey :=
        ((PrimaryKey.tryKey_eq bufferKey.primary).mpr ⟨hprimary, htry⟩).symm.trans
          ((PrimaryKey.tryKey_eq _).mpr ⟨rfl, hfin.own⟩)
      subst hkey
      have hevent : last = event := Option.some_inj.mp (hget.symm.trans hfin.reported)
      subst hevent
      refine ⟨hlocked, hlast, ?_⟩
      obtain ⟨ti', action, hrespond, hhandles⟩ := hfin.respond
      apply hhandles.mp
      rw [hrespond] at hcount
      by_contra hno
      simp [hno] at hcount
  · rintro ⟨hqueued, hfinished⟩
    refine ⟨result, hok, fun key ti hti hchanged => ?_, fun bufferKey event ti hfin => ?_⟩
    · by_cases hq : self.Queried self.executor.eventBuffer key
      · obtain ⟨hdb, hlog⟩ := (hrows _ _ hti).1 hq
        obtain ⟨bufferKey, event, hlast⟩ := hq.lastEvent
        rw [answer_eq hlast] at hdb hlog
        have hne : (self.respond key ti bufferKey event).1 ≠ ti := fun heq =>
          hchanged (by rw [hdb, heq])
        obtain ⟨action, haction, hstate | htry⟩ := respond_changed hne
        · obtain ⟨state, info⟩ := event
          simp only at hstate
          subst hstate
          refine ⟨bufferKey, action, by rw [hlog, haction]; rfl, ?_⟩
          rcases hqueued _ _ _ _ hti hq.2 hlast with htry | hinfo
          · exact htry
          · rw [respond_queued rfl, hinfo] at hne
            exact absurd rfl hne
        · exact ⟨bufferKey, action, by rw [hlog, haction]; rfl, htry⟩
      · exact absurd ((hrows _ _ hti).2 hq).1 hchanged
    · obtain ⟨hlocked, hlast, hhandled⟩ := hfinished _ _ _ hfin
      have hstate : event.state = .failed ∨ event.state = .success ∨ event.state = .queued := by
        rcases hfin.finished with h | h <;> simp [h]
      have hq := Queried.of_event hfin.reported hstate hlocked
      obtain ⟨ti', action, hrespond, hhandles⟩ := hfin.respond
      rw [filter_handlesFailure, ((hrows _ _ hfin.row).1 hq).2, answer_eq hlast, hrespond]
      simp [hhandles.mpr hhandled]

end Scheduler

/-- A scheduler whose executor reports the second try failed and then, late, the first one. -/
def lateReport : Scheduler where
  jobId := 1
  executor := {
    eventBuffer :=
      ⟨[(⟨"dag", "task", "run", 2, -1⟩, ⟨.failed, none⟩),
        (⟨"dag", "task", "run", 1, -1⟩, ⟨.success, none⟩)], by decide⟩ }
  getTask := fun _ _ => some { retries := 3 }

/-- The instance is in its second try, queued by the same job. -/
def queuedAgain : Database :=
  ⟨[(⟨"dag", "task", "run", -1⟩,
    { state := some .queued, _tryNumber := 1, maxTries := 3, queuedByJobId := some 1 })], by decide⟩

/-- The late report of the first try hides the failure of the second one. -/
theorem lateReport_not_handled :
    ¬ ∃ result, lateReport.processExecutorEvents queuedAgain = .ok result ∧
      Scheduler.OnlyOwnAttempt queuedAgain result ∧
      lateReport.OneFailureHandling queuedAgain result := by
  rintro ⟨result, hok, -, hone⟩
  have hcount := hone ⟨"dag", "task", "run", 2, -1⟩ ⟨.failed, none⟩
    { state := some .queued, _tryNumber := 1, maxTries := 3, queuedByJobId := some 1 }
    ⟨rfl, .inr rfl, rfl, rfl, rfl, rfl, rfl⟩
  cases hok
  cases hcount

end Airflow.ExecutorEvents
