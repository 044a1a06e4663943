import Mathlib.Data.List.Basic
import Airflow.Lib.Transition
import Airflow.Scheduler.DatasetRuns

/-!
# No dataset event is lost as long as registrations and run creations are timely

`no_event_lost_iff`: over every interleaving, each event of the DAG's datasets is consumed by
exactly one run or still pending (`NoEventLost`) exactly when every transaction commits in time
(`Timely`): a registration while the queue row it relies on is there and no run has a later date,
and a run creation when it has selected every event that no run has consumed.

The queue row of a dataset keeps the time of its first event, and the run takes the latest of these
times as its date; a second event of the dataset comes after it, and its row is deleted with the
others (`second_event_lost`).
-/

namespace Airflow.DatasetRuns

/-! ## The property -/

/-- How many runs have consumed the event. -/
def consumers (runs : List DagRun) (k : Nat) : Nat :=
  runs.countP fun r => k ∈ r.consumedDatasetEvents

/-- The event's dataset has a queue row, and the window of the next run includes the event. -/
def Database.Pending (db : Database) (event : DatasetEvent) : Prop :=
  (db.queue event.datasetId).createdAt.isSome ∧
    ∀ r ∈ db.runs, r.executionDate < event.timestamp

/-- Each event of the DAG's datasets was consumed by exactly one run, or by none and is pending. -/
def NoEventLost (datasets : List Nat) (db : Database) : Prop :=
  ∀ k event, db.events[k]? = some event → event.datasetId ∈ datasets →
    consumers db.runs k = 1 ∨ consumers db.runs k = 0 ∧ db.Pending event

/-- A registration commits while the queue row of its dataset is there, or comes with it, and before
any run has a date from its timestamp on. A run is committed when every event that no run has
consumed was committed before the selection and is not later than the run's date. -/
def Timely (datasets : List Nat) (db : Database) : Statement → Prop
  | .commitRegistration i => ∀ event, db.registrations i = .queued event →
    event.datasetId ∈ datasets →
      ((db.queue event.datasetId).commit i).createdAt.isSome ∧
        ∀ r ∈ db.runs, r.executionDate < event.timestamp
  | .commitCreation => ∀ creation, db.creating = some creation → creation.deleted.isSome →
    ∀ k event, db.events[k]? = some event → event.datasetId ∈ datasets →
      consumers db.runs k = 0 → k < creation.seen ∧ event.timestamp ≤ creation.execDate
  | _ => True

/-! ## The invariant -/

/-- The open creation: the queue is as its scheduler read it, it has selected the events of its
window, and it deletes all rows. -/
structure CreationInv (datasets : List Nat) (db : Database) (creation : Creation) : Prop where
  queue : lastQueuedTime datasets db.queue = some creation.execDate
  seen : creation.seen ≤ db.events.length
  events : ∀ k, k ∈ creation.datasetEvents ↔ k < creation.seen ∧
    ∃ event, db.events[k]? = some event ∧ event.datasetId ∈ datasets ∧
      event.timestamp ≤ creation.execDate ∧ ∀ r ∈ db.runs, r.executionDate < event.timestamp
  deleted : ∀ rows, creation.deleted = some rows → ∀ d ∈ datasets, d ∈ rows

structure Inv (datasets : List Nat) (db : Database) : Prop where
  kept : NoEventLost datasets db
  consumed : ∀ r ∈ db.runs, ∀ k ∈ r.consumedDatasetEvents,
    ∃ event, db.events[k]? = some event ∧ event.timestamp ≤ r.executionDate
  queued : ∀ d, db.queue d ≠ .absent → d ∈ datasets
  uncommitted : ∀ d i createdAt, db.queue d = .uncommitted i createdAt →
    ∃ event, db.registrations i = .queued event ∧ event.datasetId = d ∧
      event.timestamp ≤ createdAt
  later : ∀ d createdAt, db.queue d = .committed createdAt →
    ∀ r ∈ db.runs, r.executionDate < createdAt
  info : ∀ j time, db.infos j = some time → (∃ r ∈ db.runs, r.executionDate = time) ∨
    lastQueuedTime datasets db.queue = some time
  creating : ∀ creation, db.creating = some creation → CreationInv datasets db creation

/-! ## The queue -/

section
variable {datasets : List Nat} {queue : Nat → QueueRow} {time : Int}

theorem committed_of_createdAt {row : QueueRow} (h : row.createdAt.isSome = true) :
    ∃ createdAt, row = .committed createdAt := by
  cases row with
  | committed createdAt => exact ⟨createdAt, rfl⟩
  | absent | uncommitted => cases h

theorem lastQueuedTime_committed (h : lastQueuedTime datasets queue = some time) :
    ∀ d ∈ datasets, ∃ createdAt, queue d = .committed createdAt := by
  unfold lastQueuedTime at h
  split at h
  · rename_i hall
    exact fun d hd => committed_of_createdAt (List.all_eq_true.1 hall d hd)
  · cases h

theorem lastQueuedTime_mem (h : lastQueuedTime datasets queue = some time) :
    ∃ d, queue d = .committed time := by
  unfold lastQueuedTime at h
  split at h
  · have hmem := List.max?_mem h
    obtain ⟨d, -, hd⟩ := List.mem_filterMap.1 hmem
    refine ⟨d, ?_⟩
    cases hrow : queue d with
    | committed createdAt =>
      rw [hrow] at hd
      exact congrArg _ (Option.some.inj hd)
    | absent | uncommitted =>
      rw [hrow] at hd
      cases hd
  · cases h

theorem lastQueuedTime_congr {queue' : Nat → QueueRow}
    (h : ∀ d ∈ datasets, (queue' d).createdAt = (queue d).createdAt) :
    lastQueuedTime datasets queue' = lastQueuedTime datasets queue := by
  unfold lastQueuedTime
  have hall : (datasets.all fun d => (queue' d).createdAt.isSome) =
      datasets.all fun d => (queue d).createdAt.isSome := by
    rw [Bool.eq_iff_iff, List.all_eq_true, List.all_eq_true]
    exact forall₂_congr fun d hd => by rw [h d hd]
  rw [hall, List.filterMap_congr h]

end

/-! ## The selection -/

theorem previousDate_all {runs : List DagRun} {execDate t : Int}
    (hruns : ∀ r ∈ runs, r.executionDate < execDate) :
    (previousDate runs execDate).all (· < t) = true ↔ ∀ r ∈ runs, r.executionDate < t := by
  unfold previousDate
  have hfilter : (runs.map (·.executionDate)).filter (· < execDate) =
      runs.map (·.executionDate) := by
    rw [List.filter_eq_self]
    intro d hd
    obtain ⟨r, hr, rfl⟩ := List.mem_map.1 hd
    simpa using hruns r hr
  rw [hfilter]
  rcases hmax : (runs.map (·.executionDate)).max? with _ | m
  · rw [List.max?_eq_none_iff, List.map_eq_nil_iff] at hmax
    simp [hmax]
  · obtain ⟨hmem, hle⟩ := List.max?_eq_some_iff.1 hmax
    obtain ⟨r, hr, rfl⟩ := List.mem_map.1 hmem
    rw [hmax, Option.all_some, decide_eq_true_eq]
    refine ⟨fun h r' hr' => ?_, fun h => h r hr⟩
    have := hle r'.executionDate (List.mem_map.2 ⟨r', hr', rfl⟩)
    omega

theorem mem_selectEvents {datasets : List Nat} {events : List DatasetEvent} {runs : List DagRun}
    {execDate : Int} (hruns : ∀ r ∈ runs, r.executionDate < execDate) {k : Nat} :
    k ∈ selectEvents datasets events runs execDate ↔ ∃ event, events[k]? = some event ∧
      event.datasetId ∈ datasets ∧ event.timestamp ≤ execDate ∧
      ∀ r ∈ runs, r.executionDate < event.timestamp := by
  unfold selectEvents
  constructor
  · intro h
    obtain ⟨⟨event, i⟩, he, rfl⟩ := List.mem_map.1 h
    obtain ⟨hzip, hcond⟩ := List.mem_filter.1 he
    simp only [decide_eq_true_eq] at hcond
    exact ⟨event, List.mem_zipIdx_iff_getElem?.1 hzip, hcond.1, hcond.2.1,
      (previousDate_all hruns).1 hcond.2.2⟩
  · rintro ⟨event, hget, hd, hle, hlt⟩
    refine List.mem_map.2 ⟨(event, k), List.mem_filter.2 ⟨List.mem_zipIdx_iff_getElem?.2 hget, ?_⟩,
      rfl⟩
    simp only [decide_eq_true_eq]
    exact ⟨hd, hle, (previousDate_all hruns).2 hlt⟩

/-! ## Registrations -/

section
variable {datasets : List Nat} {db : Database}

/-- Every row of the DAG is later than its runs, so the date of a creation is too. -/
theorem CreationInv.after_runs {creation : Creation} (hi : Inv datasets db)
    (hc : CreationInv datasets db creation) : ∀ r ∈ db.runs, r.executionDate < creation.execDate := by
  obtain ⟨d, hd⟩ := lastQueuedTime_mem hc.queue
  exact hi.later d _ hd

theorem consumers_new (hi : Inv datasets db) : consumers db.runs db.events.length = 0 := by
  refine List.countP_eq_zero.2 fun r hr hk => ?_
  obtain ⟨event, hget, -⟩ := hi.consumed r hr _ (by simpa using hk)
  rw [List.getElem?_eq_none (Nat.le_refl _)] at hget
  cases hget

theorem Inv.log (hi : Inv datasets db) (i : Nat) (event : DatasetEvent) :
    Inv datasets (step datasets db (.log i event)) := by
  simp only [step]
  split
  · rename_i hidle
    refine ⟨hi.kept, hi.consumed, hi.queued, fun d i' createdAt hd => ?_, hi.later, hi.info,
      fun creation hc => ?_⟩
    · obtain ⟨event', hreg, hrest⟩ := hi.uncommitted d i' createdAt hd
      refine ⟨event', ?_, hrest⟩
      have hne : i' ≠ i := fun h => by
        rw [h, hidle] at hreg
        cases hreg
      dsimp only
      rw [Function.update_of_ne hne]
      exact hreg
    · obtain ⟨h₁, h₂, h₃, h₄⟩ := hi.creating creation hc
      exact ⟨h₁, h₂, h₃, h₄⟩
  · exact hi

/-- A registration that queues no row of its own changes nothing that the invariant is about. -/
theorem Inv.setQueued (hi : Inv datasets db) {i : Nat} {event : DatasetEvent}
    (hlog : db.registrations i = .logged event) :
    Inv datasets { db with registrations := Function.update db.registrations i (.queued event) } := by
  refine ⟨hi.kept, hi.consumed, hi.queued, fun d i' createdAt hd => ?_, hi.later, hi.info,
    fun creation hc => ?_⟩
  · obtain ⟨event', hreg, hrest⟩ := hi.uncommitted d i' createdAt hd
    refine ⟨event', ?_, hrest⟩
    have hne : i' ≠ i := fun h => by
      rw [h, hlog] at hreg
      cases hreg
    dsimp only
    rw [Function.update_of_ne hne]
    exact hreg
  · obtain ⟨h₁, h₂, h₃, h₄⟩ := hi.creating creation hc
    exact ⟨h₁, h₂, h₃, h₄⟩

theorem Inv.queueDagruns (hi : Inv datasets db) {i : Nat} {event : DatasetEvent}
    (hlog : db.registrations i = .logged event) (createdAt : Int) (slowPath : Bool) :
    Inv datasets (queueDagruns datasets db i event createdAt slowPath) := by
  unfold DatasetRuns.queueDagruns
  dsimp only
  split
  · exact hi.setQueued hlog
  rename_i hmem
  rw [not_not] at hmem
  split
  · split
    · exact hi
    · exact hi.setQueued hlog
  · exact hi
  · rename_i habsent
    split
    · exact hi
    · rename_i hclock
      have hi' := hi.setQueued hlog
      -- the new row is seen by nobody else
      have hsame : ∀ d, (Function.update db.queue event.datasetId
          (.uncommitted i createdAt) d).createdAt = (db.queue d).createdAt := fun d => by
        by_cases hd : d = event.datasetId
        · rw [hd, Function.update_self, habsent]
          rfl
        · rw [Function.update_of_ne hd]
      have hlast := lastQueuedTime_congr fun d (_ : d ∈ datasets) => hsame d
      refine ⟨fun k e hget hd => ?_, hi.consumed, fun d hd => ?_, fun d i' c hd => ?_,
        fun d c hd => ?_, fun j time hj => ?_, fun creation hc => ?_⟩
      · refine (hi.kept k e hget hd).imp_right fun h => ⟨h.1, ?_, h.2.2⟩
        dsimp only
        rw [hsame]
        exact h.2.1
      · by_cases hde : d = event.datasetId
        · exact hde ▸ hmem
        · dsimp only at hd
          rw [Function.update_of_ne hde] at hd
          exact hi.queued d hd
      · by_cases hde : d = event.datasetId
        · dsimp only at hd
          rw [hde, Function.update_self] at hd
          cases hd
          exact ⟨event, Function.update_self .., hde.symm, Int.not_lt.1 hclock⟩
        · dsimp only at hd
          rw [Function.update_of_ne hde] at hd
          exact hi'.uncommitted d i' c hd
      · by_cases hde : d = event.datasetId
        · dsimp only at hd
          rw [hde, Function.update_self] at hd
          cases hd
        · dsimp only at hd
          rw [Function.update_of_ne hde] at hd
          exact hi.later d c hd
      · dsimp only
        rw [hlast]
        exact hi.info j time hj
      · obtain ⟨h₁, h₂, h₃, h₄⟩ := hi.creating creation hc
        exact ⟨hlast.trans h₁, h₂, h₃, h₄⟩

theorem commit_committed {row : QueueRow} {c : Int} (h : row = .committed c) (i : Nat) :
    row.commit i = .committed c := by
  rw [h]
  rfl

/-- What the row of a dataset is after a commit that makes it a committed one. -/
theorem commit_eq_committed {row : QueueRow} {i : Nat} {c : Int} (h : row.commit i = .committed c) :
    row = .committed c ∨ row = .uncommitted i c := by
  cases row with
  | absent => cases h
  | committed c' => exact .inl h
  | uncommitted i' c' =>
    unfold QueueRow.commit at h
    dsimp only at h
    split at h
    · rename_i hi
      cases h
      exact .inr (by rw [hi])
    · cases h

theorem commit_eq_uncommitted {row : QueueRow} {i i' : Nat} {c : Int}
    (h : row.commit i = .uncommitted i' c) : row = .uncommitted i' c ∧ i' ≠ i := by
  cases row with
  | absent | committed => cases h
  | uncommitted i₀ c₀ =>
    unfold QueueRow.commit at h
    dsimp only at h
    split at h
    · cases h
    · rename_i hne
      cases h
      exact ⟨rfl, hne⟩

theorem Inv.commitRegistration (hi : Inv datasets db) {i : Nat}
    (ht : Timely datasets db (.commitRegistration i)) :
    Inv datasets (step datasets db (.commitRegistration i)) := by
  simp only [step]
  split
  · rename_i event hreg
    have hlast : ∀ time, lastQueuedTime datasets db.queue = some time →
        lastQueuedTime datasets (fun d => (db.queue d).commit i) = some time := by
      intro time htime
      rw [← htime]
      refine lastQueuedTime_congr fun d hd => ?_
      obtain ⟨c, hc⟩ := lastQueuedTime_committed htime d hd
      rw [commit_committed hc, hc]
    refine ⟨fun k e hget hd => ?_, fun r hr k hk => ?_, fun d hd => ?_, fun d i' c hd => ?_,
      fun d c hd r hr => ?_, fun j time hj => ?_, fun creation hc => ?_⟩
    · rw [List.getElem?_append] at hget
      split at hget
      · refine (hi.kept k e hget hd).imp_right fun h => ⟨h.1, ?_, h.2.2⟩
        obtain ⟨c, hc⟩ := committed_of_createdAt h.2.1
        dsimp only
        rw [commit_committed hc]
        rfl
      · rename_i hge
        obtain ⟨hlt, he⟩ := List.getElem?_eq_some_iff.1 hget
        have hk : k = db.events.length := by
          simp only [List.length_singleton] at hlt
          omega
        subst hk
        simp only [Nat.sub_self, List.getElem_cons_zero] at he
        subst he
        exact .inr ⟨consumers_new hi, ht event hreg hd⟩
    · obtain ⟨e, hget, hle⟩ := hi.consumed r hr k hk
      refine ⟨e, ?_, hle⟩
      rw [List.getElem?_append_left (List.getElem?_eq_some_iff.1 hget).1]
      exact hget
    · refine hi.queued d fun habsent => hd ?_
      dsimp only
      rw [habsent]
      rfl
    · obtain ⟨hrow, hne⟩ := commit_eq_uncommitted hd
      obtain ⟨e, hreg', hrest⟩ := hi.uncommitted d i' c hrow
      refine ⟨e, ?_, hrest⟩
      dsimp only
      rw [Function.update_of_ne hne]
      exact hreg'
    · rcases commit_eq_committed hd with hrow | hrow
      · exact hi.later d c hrow r hr
      · obtain ⟨e, hreg', rfl, hle⟩ := hi.uncommitted d i c hrow
        cases hreg.symm.trans hreg'
        have hmem : event.datasetId ∈ datasets := hi.queued _ (by rw [hrow]; exact nofun)
        exact Int.lt_of_lt_of_le ((ht event hreg hmem).2 r hr) hle
    · exact (hi.info j time hj).imp_right (hlast time)
    · obtain ⟨h₁, h₂, h₃, h₄⟩ := hi.creating creation hc
      refine ⟨hlast _ h₁, ?_, fun k => ?_, h₄⟩
      · rw [List.length_append]
        omega
      · rw [h₃ k]
        refine and_congr_right fun hlt => ?_
        dsimp only
        rw [List.getElem?_append_left (by omega)]
  · exact hi

theorem not_kept_of_commitRegistration (hi : Inv datasets db) {i : Nat}
    (ht : ¬Timely datasets db (.commitRegistration i)) :
    ¬NoEventLost datasets (step datasets db (.commitRegistration i)) := by
  simp only [Timely, not_forall] at ht
  obtain ⟨event, hreg, hmem, hlate⟩ := ht
  intro hkept
  simp only [step, hreg] at hkept
  have hget : (db.events ++ [event])[db.events.length]? = some event := by simp
  rcases hkept _ event hget hmem with h | ⟨-, hpending⟩
  · have hnew := consumers_new hi
    dsimp only at h
    omega
  · exact hlate hpending

/-! ## Creations -/

theorem Inv.readInfo (hi : Inv datasets db) (j : Nat) :
    Inv datasets (step datasets db (.readInfo j)) := by
  simp only [step]
  split
  · rename_i time htime
    refine ⟨hi.kept, hi.consumed, hi.queued, hi.uncommitted, hi.later, fun j' time' hj => ?_,
      fun creation hc => ?_⟩
    · by_cases hjj : j' = j
      · dsimp only at hj
        rw [hjj, Function.update_self] at hj
        cases hj
        exact .inr htime
      · dsimp only at hj
        rw [Function.update_of_ne hjj] at hj
        exact hi.info j' time' hj
    · obtain ⟨h₁, h₂, h₃, h₄⟩ := hi.creating creation hc
      exact ⟨h₁, h₂, h₃, h₄⟩
  · exact hi

theorem Inv.select (hi : Inv datasets db) (j : Nat) :
    Inv datasets (step datasets db (.select j)) := by
  have hinfo : ∀ j' time, Function.update db.infos j none j' = some time →
      (∃ r ∈ db.runs, r.executionDate = time) ∨ lastQueuedTime datasets db.queue = some time := by
    intro j' time hj
    by_cases hjj : j' = j
    · rw [hjj, Function.update_self] at hj
      cases hj
    · rw [Function.update_of_ne hjj] at hj
      exact hi.info j' time hj
  have hdone : Inv datasets { db with infos := Function.update db.infos j none } := by
    refine ⟨hi.kept, hi.consumed, hi.queued, hi.uncommitted, hi.later, hinfo, fun creation hc => ?_⟩
    obtain ⟨h₁, h₂, h₃, h₄⟩ := hi.creating creation hc
    exact ⟨h₁, h₂, h₃, h₄⟩
  simp only [step]
  split
  · rename_i execDate hexec
    split
    · exact hdone
    split
    · exact hdone
    rename_i hnew
    refine ⟨hi.kept, hi.consumed, hi.queued, hi.uncommitted, hi.later, hinfo, fun creation hc => ?_⟩
    cases hc
    have hqueue : lastQueuedTime datasets db.queue = some execDate := by
      refine (hi.info j execDate hexec).resolve_left fun ⟨r, hr, hdate⟩ => hnew ?_
      exact List.mem_map.2 ⟨r, hr, hdate⟩
    obtain ⟨d, hd⟩ := lastQueuedTime_mem hqueue
    refine ⟨hqueue, Nat.le_refl _, fun k => ?_, fun rows hrows => nomatch hrows⟩
    rw [mem_selectEvents (hi.later d execDate hd)]
    refine ⟨fun h => ⟨?_, h⟩, fun h => h.2⟩
    obtain ⟨event, hget, -⟩ := h
    exact (List.getElem?_eq_some_iff.1 hget).1
  · exact hi

theorem Inv.delete (hi : Inv datasets db) : Inv datasets (step datasets db .delete) := by
  simp only [step]
  split
  · rename_i creation hcreation
    split
    · exact hi
    refine ⟨hi.kept, hi.consumed, hi.queued, hi.uncommitted, hi.later, hi.info,
      fun creation' hc => ?_⟩
    cases hc
    obtain ⟨h₁, h₂, h₃, -⟩ := hi.creating creation hcreation
    refine ⟨h₁, h₂, h₃, fun rows hrows d hd => ?_⟩
    cases hrows
    obtain ⟨c, hrow⟩ := lastQueuedTime_committed h₁ d hd
    exact List.mem_filter.2 ⟨hd, by rw [hrow]; rfl⟩
  · exact hi

/-- What `commitCreation` commits, when the open creation is ready for it. -/
theorem commitCreation_cases (datasets : List Nat) (db : Database) :
    step datasets db .commitCreation = db ∧
        (∀ creation, db.creating = some creation → creation.deleted = none) ∨
      ∃ creation rows, db.creating = some creation ∧ creation.deleted = some rows ∧
        step datasets db .commitCreation =
          { db with
            runs := db.runs ++ [⟨creation.execDate, creation.datasetEvents⟩]
            queue := fun d => if d ∈ rows then .absent else db.queue d
            creating := none } := by
  rcases hc : db.creating with _ | ⟨execDate, events, seen, _ | rows⟩
  · exact .inl ⟨by simp only [step, hc], nofun⟩
  · exact .inl ⟨by simp only [step, hc], fun creation h => by cases h; rfl⟩
  · exact .inr ⟨_, rows, rfl, rfl, by simp only [step, hc]⟩

theorem consumers_append (runs : List DagRun) (r : DagRun) (k : Nat) :
    consumers (runs ++ [r]) k = consumers runs k + if k ∈ r.consumedDatasetEvents then 1 else 0 := by
  simp [consumers, List.countP_append, List.countP_singleton]

/-- An event that was consumed is not in the window of the next run. -/
theorem CreationInv.not_mem_of_consumed {creation : Creation} (hi : Inv datasets db)
    (hc : CreationInv datasets db creation) {k : Nat} (hk : consumers db.runs k ≠ 0) :
    k ∉ creation.datasetEvents := by
  intro hmem
  obtain ⟨r, hr, hrk⟩ := List.countP_pos_iff.1 (Nat.pos_of_ne_zero hk)
  obtain ⟨e, hget, hle⟩ := hi.consumed r hr k (by simpa using hrk)
  obtain ⟨-, e', hget', -, -, hlt⟩ := (hc.events k).1 hmem
  cases hget.symm.trans hget'
  have := hlt r hr
  omega

theorem Inv.commitCreation (hi : Inv datasets db) (ht : Timely datasets db .commitCreation) :
    Inv datasets (step datasets db .commitCreation) := by
  rcases commitCreation_cases datasets db with ⟨h, -⟩ | ⟨creation, rows, hcreation, hrows, h⟩
  · rw [h]
    exact hi
  rw [h]
  have hc := hi.creating creation hcreation
  have habsent : ∀ d, d ∉ rows → db.queue d = .absent := fun d hd => by
    by_contra hrow
    exact hd (hc.deleted rows hrows d (hi.queued d hrow))
  have hempty : ∀ d, (if d ∈ rows then QueueRow.absent else db.queue d) = .absent := fun d => by
    split
    · rfl
    · rename_i hd
      exact habsent d hd
  refine ⟨fun k e hget hd => ?_, fun r hr k hk => ?_, fun d hd => absurd (hempty d) hd,
    fun d i c hd => ?_, fun d c hd => ?_, fun j time hj => ?_, fun creation' hc' => nomatch hc'⟩
  · rw [consumers_append]
    rcases hi.kept k e hget hd with hone | ⟨hzero, hrow, hlt⟩
    · rw [if_neg (hc.not_mem_of_consumed hi (by omega))]
      exact .inl (by omega)
    · obtain ⟨hseen, hle⟩ := ht creation hcreation (by rw [hrows]; rfl) k e hget hd hzero
      rw [if_pos ((hc.events k).2 ⟨hseen, e, hget, hd, hle, hlt⟩)]
      exact .inl (by omega)
  · rcases List.mem_append.1 hr with hr | hr
    · exact hi.consumed r hr k hk
    · rw [List.mem_singleton.1 hr] at hk ⊢
      obtain ⟨-, e, hget, -, hle, -⟩ := (hc.events k).1 hk
      exact ⟨e, hget, hle⟩
  · cases (hempty d).symm.trans hd
  · cases (hempty d).symm.trans hd
  · refine .inl ?_
    rcases hi.info j time hj with ⟨r, hr, hdate⟩ | htime
    · exact ⟨r, List.mem_append_left _ hr, hdate⟩
    · rw [hc.queue, Option.some.injEq] at htime
      exact ⟨_, List.mem_append_right _ (List.mem_singleton_self _), htime⟩

theorem not_kept_of_commitCreation (hi : Inv datasets db)
    (ht : ¬Timely datasets db .commitCreation) :
    ¬NoEventLost datasets (step datasets db .commitCreation) := by
  simp only [Timely, not_forall] at ht
  obtain ⟨creation, hcreation, hdel, k, e, hget, hd, hzero, hlate⟩ := ht
  have hc := hi.creating creation hcreation
  rcases commitCreation_cases datasets db with ⟨-, hnone⟩ | ⟨creation', rows, hcreation', hrows, h⟩
  · rw [hnone creation hcreation] at hdel
    cases hdel
  cases hcreation.symm.trans hcreation'
  intro hkept
  rw [h] at hkept
  have hnot : k ∉ creation.datasetEvents := fun hmem => by
    obtain ⟨hseen, e', hget', -, hle, -⟩ := (hc.events k).1 hmem
    cases hget.symm.trans hget'
    exact hlate ⟨hseen, hle⟩
  rcases hkept k e hget hd with hone | ⟨-, hrow, -⟩
  · rw [consumers_append, if_neg hnot, hzero] at hone
    cases hone
  · dsimp only at hrow
    rw [if_pos (hc.deleted rows hrows _ hd)] at hrow
    cases hrow

end

/-! ## Runs -/

theorem Inv.init (datasets : List Nat) : Inv datasets {} := by
  refine ⟨fun k e hget => ?_, fun r hr => ?_, fun d hd => absurd rfl hd, fun d i c hd => ?_,
    fun d c hd => ?_, fun j time hj => ?_, fun creation hc => ?_⟩
  · simp at hget
  · simp at hr
  · cases hd
  · cases hd
  · cases hj
  · cases hc

theorem Inv.step {datasets : List Nat} {db : Database} {s : Statement} (hi : Inv datasets db)
    (ht : Timely datasets db s) : Inv datasets (step datasets db s) := by
  cases s with
  | log i event => exact hi.log i event
  | queueDagruns i createdAt slowPath =>
    simp only [DatasetRuns.step]
    split
    · rename_i event hlog
      exact hi.queueDagruns hlog createdAt slowPath
    · exact hi
  | commitRegistration i => exact hi.commitRegistration ht
  | readInfo j => exact hi.readInfo j
  | select j => exact hi.select j
  | delete => exact hi.delete
  | commitCreation => exact hi.commitCreation ht

theorem not_kept_of_not_timely {datasets : List Nat} {db : Database} {s : Statement}
    (hi : Inv datasets db) (ht : ¬Timely datasets db s) :
    ¬NoEventLost datasets (step datasets db s) := by
  cases s with
  | commitRegistration i => exact not_kept_of_commitRegistration hi ht
  | commitCreation => exact not_kept_of_commitCreation hi ht
  | _ => exact absurd trivial ht

/-- **No dataset event is lost exactly when every commit is timely**, in every interleaving from
when the DAG starts listening. -/
theorem no_event_lost_iff (datasets : List Nat) (statements : List Statement) :
    (∀ db ∈ Transition.states (step datasets) {} statements, NoEventLost datasets db) ↔
      Transition.AllSteps (step datasets) (Timely datasets) {} statements :=
  Transition.exact_condition (I := Inv datasets) (fun _ hi => hi.kept) (fun _ _ hi ht => hi.step ht)
    (fun _ _ hi ht => not_kept_of_not_timely hi ht) (.init datasets) statements

/-- A second event of the only dataset, after the first one has queued its row, is neither consumed
by the run nor pending after it. -/
theorem second_event_lost : ¬∀ (datasets : List Nat) (statements : List Statement),
    ∀ db ∈ Transition.states (step datasets) {} statements, NoEventLost datasets db := by
  intro h
  have hkept := h [0] [.log 0 ⟨0, 1⟩, .queueDagruns 0 2 false, .commitRegistration 0,
    .log 0 ⟨0, 3⟩, .queueDagruns 0 4 false, .commitRegistration 0,
    .readInfo 0, .select 0, .delete, .commitCreation] _ (List.mem_of_getElem? (i := 10) rfl)
  rcases hkept 1 ⟨0, 3⟩ rfl (by decide) with hone | ⟨-, hrow, -⟩
  · exact absurd hone (by decide)
  · exact absurd hrow (by decide)

end Airflow.DatasetRuns
