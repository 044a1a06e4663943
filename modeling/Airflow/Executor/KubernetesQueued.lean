import Airflow.Kubernetes.Names
import Airflow.Lib.Dict
import Airflow.State
import Airflow.TaskInstance.Key
import Airflow.Kubernetes.Proof.Names
import Mathlib.Algebra.Order.Ring.Rat

/-!
# Queued tasks that were not launched

`clear_not_launched_queued_tasks`, `_list_pods` and what `execute_async` keeps for it in
`last_handled`, of `providers/cncf/kubernetes/executors/kubernetes_executor.py`, with
`build_labels_for_k8s_executor_pod` of `pod_generator.py`. Workers change the states of task
instances between the select, which finds the queued ones, and the updates.
-/

namespace Airflow.Kubernetes.Queued

/-! ## What there is -/

/-- A row of `task_instance`. -/
structure TaskInstance where
  state : TIState
  _tryNumber : Int
  queuedByJobId : Option Nat
  queue : String
  /-- `execution_date.isoformat()`. -/
  executionDate : String

abbrev Database := Dict PrimaryKey TaskInstance

/-- A pod: the task instance that it executes, by its annotations, and its metadata. -/
structure Pod where
  ti : PrimaryKey
  namespace_ : String
  labels : Dict String String

/-- `KubernetesExecutor`. `namespaces` are the ones in which it lists pods, all of them if
`none`. -/
structure Executor where
  jobId : Nat
  kubernetesQueue : Option String := none
  workerPodsQueuedCheckInterval : ℚ
  namespaces : Option (List String)
  /-- The keys of the jobs in `task_queue`. -/
  taskQueue : List TaskInstanceKey := []
  lastHandled : Dict TaskInstanceKey ℚ := {}

/-- A worker changes the state of a task instance. -/
structure Change where
  ti : PrimaryKey
  state : TIState

/-- The state of a task instance after the change. -/
def Change.stateOf (change : Change) (key : PrimaryKey) (state : TIState) : TIState :=
  if key = change.ti then change.state else state

/-! ## `execute_async` -/

/-- The end of `execute_async`. -/
def Executor.executeAsync (self : Executor) (key : TaskInstanceKey) (now : ℚ) : Executor :=
  { self with
    taskQueue := self.taskQueue ++ [key]
    lastHandled := self.lastHandled.set key now }

/-! ## Labels -/

section
variable (md5 : List Char → HexDigest)

/-- `make_safe_label_value`. -/
def safe (value : String) : String := String.ofList (makeSafeLabelValue md5 value.toList)

/-- `datetime_to_label_safe_datestring`. -/
def safeDate (isoformat : String) : String :=
  String.ofList (isoformat.toList.flatMap fun c =>
    if c = ':' then ['_'] else if c = '+' then "_plus_".toList else [c])

/-- `build_labels_for_k8s_executor_pod`, as `construct_pod` calls it for a job of the executor. -/
def buildLabels (airflowVersion : String) (key : TaskInstanceKey) (schedulerJobId : String) :
    Dict String String :=
  let labels := ({} : Dict String String)
    |>.set "dag_id" (safe md5 key.dagId)
    |>.set "task_id" (safe md5 key.taskId)
    |>.set "try_number" (toString key.tryNumber)
    |>.set "kubernetes_executor" "True"
    |>.set "airflow_version" (String.ofList (airflowVersion.toList.map fun c =>
      if c = '+' then '-' else c))
    |>.set "airflow-worker" (safe md5 schedulerJobId)
  let labels :=
    if key.mapIndex ≥ 0 then labels.set "map_index" (toString key.mapIndex) else labels
  if key.runId = "" then labels else labels.set "run_id" (safe md5 key.runId)

/-- The pods that `_list_pods` finds. -/
def listPods (self : Executor) (pods : List Pod) : List Pod :=
  pods.filter fun pod =>
    self.namespaces.all (·.contains pod.namespace_) &&
      pod.labels.get? "airflow-worker" == some (safe md5 (toString self.jobId))

/-- What a pod adds to `label_search_set`. -/
def podSearchStrs (pod : Pod) : List String :=
  match pod.labels.get? "dag_id", pod.labels.get? "task_id",
    pod.labels.get? "airflow-worker" with
  | some dagId, some taskId, some airflowWorker =>
    let base := "dag_id=" ++ dagId ++ ",task_id=" ++ taskId ++ ",airflow-worker=" ++ airflowWorker
    let base :=
      match pod.labels.get? "map_index" with
      | none => base
      | some mapIndex => base ++ ",map_index=" ++ mapIndex
    ((pod.labels.get? "run_id").map fun runId => base ++ ",run_id=" ++ runId).toList ++
      ((pod.labels.get? "execution_date").map fun date =>
        base ++ ",execution_date=" ++ date).toList
  | _, _, _ => []

/-- The strings that are looked for, of a task instance that the job queued. -/
def labelSearchStrs (self : Executor) (key : PrimaryKey) (ti : TaskInstance) : List String :=
  let base := "dag_id=" ++ safe md5 key.dagId ++ ",task_id=" ++ safe md5 key.taskId ++
    ",airflow-worker=" ++ safe md5 (toString self.jobId)
  let base := if key.mapIndex ≥ 0 then base ++ ",map_index=" ++ toString key.mapIndex else base
  [base ++ ",run_id=" ++ safe md5 key.runId,
    base ++ ",execution_date=" ++ safeDate ti.executionDate]

/-! ## The call -/

/-- Whether the task instance is queued by the job. -/
def IsQueuedBy (jobId : Nat) (ti : TaskInstance) : Prop :=
  ti.state = some .queued ∧ ti.queuedByJobId = some jobId

instance (jobId : Nat) (ti : TaskInstance) : Decidable (IsQueuedBy jobId ti) :=
  inferInstanceAs (Decidable (_ ∧ _))

/-- `queued_tis`. -/
def queuedTis (self : Executor) (db : Database) : List (PrimaryKey × TaskInstance) :=
  db.entries.filter fun row =>
    decide (IsQueuedBy self.jobId row.2) && self.kubernetesQueue.all (· = row.2.queue)

/-- `last_handled` without its old entries; the clock is read for each of them. -/
def freshHandled (self : Executor) (time : TaskInstanceKey → ℚ) : Dict TaskInstanceKey ℚ :=
  self.lastHandled.filter fun key timestamp =>
    !decide (time key - timestamp > self.workerPodsQueuedCheckInterval * 3)

/-- `ti.key`, of a queued task instance. -/
def tiKey (row : PrimaryKey × TaskInstance) : TaskInstanceKey :=
  row.1.tryKey (row.2._tryNumber + 1)

/-- Whether a queued task instance is left alone. -/
def isLaunched (self : Executor) (time : TaskInstanceKey → ℚ) (pods : List Pod)
    (row : PrimaryKey × TaskInstance) : Bool :=
  ((freshHandled self time).get? (tiKey row)).isSome ||
    (labelSearchStrs md5 self row.1 row.2).any fun s =>
      (listPods md5 self pods).any fun pod => (podSearchStrs pod).contains s

/-- A worker's change reaches the database. -/
def applyChange (db : Database) (change : Change) : Database :=
  db.mapValues fun key ti => { ti with state := change.stateOf key ti.state }

/-- The update of a task instance. -/
def setScheduled (db : Database) (key : PrimaryKey) : Database :=
  db.mapValues fun key' ti => if key' = key then { ti with state := some .scheduled } else ti

/-- The loop over the queued task instances: what the database has in the end and, of each update,
its task instance and the row right before it. `changes` are those of the workers since the turn
before. -/
def updateLoop (self : Executor) (time : TaskInstanceKey → ℚ) (pods : List Pod)
    (changes : Nat → List Change) : (turn : Nat) → List (PrimaryKey × TaskInstance) → Database →
      Database × List ((PrimaryKey × TaskInstance) × Option TaskInstance)
  | _, [], db => (db, [])
  | turn, row :: rows, db =>
    let db := (changes turn).foldl applyChange db
    if isLaunched md5 self time pods row then updateLoop self time pods changes (turn + 1) rows db
    else
      let rest := updateLoop self time pods changes (turn + 1) rows (setScheduled db row.1)
      (rest.1, (row, db.get? row.1) :: rest.2)

/-- `clear_not_launched_queued_tasks`: the executor, the database and the updates. -/
def clearNotLaunchedQueuedTasks (self : Executor) (time : TaskInstanceKey → ℚ) (pods : List Pod)
    (changes : Nat → List Change) (db : Database) :
    Executor × Database × List ((PrimaryKey × TaskInstance) × Option TaskInstance) :=
  ({ self with lastHandled := freshHandled self time },
    updateLoop md5 self time pods changes 0 (queuedTis self db) db)

/-! ## Only what was not launched -/

/-- A task instance that may be moved to `scheduled`: at the update it is queued by the job, there
is no pod of it and no job of it waits in the task queue. -/
structure NotLaunched (executor : Executor) (pods : List Pod) (row : PrimaryKey × TaskInstance)
    (found : Option TaskInstance) : Prop where
  queued : ∃ ti, found = some ti ∧ IsQueuedBy executor.jobId ti
  noPod : ∀ pod ∈ pods, pod.ti ≠ row.1
  notWaiting : tiKey row ∉ executor.taskQueue

/-- All the updates are of such task instances. -/
def OnlyNotLaunched (self : Executor) (time : TaskInstanceKey → ℚ) (pods : List Pod)
    (changes : Nat → List Change) (db : Database) : Prop :=
  ∀ u ∈ (clearNotLaunchedQueuedTasks md5 self time pods changes db).2.2,
    NotLaunched self pods u.1 u.2

/-! ## The condition -/

/-- The state that the workers leave a queued task instance in, by the turns so far. -/
def stateAt (changes : Nat → List Change) (key : PrimaryKey) (turns : Nat) : TIState :=
  ((List.range turns).flatMap changes).foldl (fun state change => change.stateOf key state)
    (some .queued)

/-- What the call should leave alone, of the task instance whose turn it is. -/
def IsBusy (self : Executor) (pods : List Pod) (changes : Nat → List Change) (turn : Nat)
    (row : PrimaryKey × TaskInstance) : Prop :=
  stateAt changes row.1 (turn + 1) ≠ some .queued ∨ (∃ pod ∈ pods, pod.ti = row.1) ∨
    tiKey row ∈ self.taskQueue

end

/-!
## Which task instances are scheduled again

The two guards of the loop, an entry of `last_handled` that is not old and a pod with the labels,
are all that it goes by; whatever else makes a task instance busy is not looked at.
-/

variable {md5 : List Char → HexDigest} {self : Executor} {time : TaskInstanceKey → ℚ}
  {pods : List Pod} {changes : Nat → List Change}

/-! ## The guards -/

section
variable {row : PrimaryKey × TaskInstance}

/-- A job is left alone after `execute_async` for three intervals. -/
theorem isLaunched_of_handled {t : ℚ} (h : self.lastHandled.get? (tiKey row) = some t)
    (hage : time (tiKey row) - t ≤ self.workerPodsQueuedCheckInterval * 3) :
    isLaunched md5 self time pods row = true := by
  have hfresh : (freshHandled self time).get? (tiKey row) = some t := by
    unfold freshHandled
    rw [Dict.get?_filter, h, Option.filter_some, decide_eq_false (not_lt.mpr hage)]
    rfl
  unfold isLaunched
  rw [hfresh, Option.isSome_some, Bool.true_or]

theorem get?_executeAsync (self : Executor) (key : TaskInstanceKey) (now : ℚ) :
    (self.executeAsync key now).lastHandled.get? key = some now := by
  unfold Executor.executeAsync
  rw [Dict.get?_set, if_pos rfl]

section
variable (md5 : List Char → HexDigest) (airflowVersion : String) (key : TaskInstanceKey)
  (jobId : String)

theorem get?_buildLabels_dagId :
    (buildLabels md5 airflowVersion key jobId).get? "dag_id" = some (safe md5 key.dagId) := by
  unfold buildLabels
  split_ifs <;> simp [Dict.get?_set]

theorem get?_buildLabels_taskId :
    (buildLabels md5 airflowVersion key jobId).get? "task_id" = some (safe md5 key.taskId) := by
  unfold buildLabels
  split_ifs <;> simp [Dict.get?_set]

theorem get?_buildLabels_airflowWorker :
    (buildLabels md5 airflowVersion key jobId).get? "airflow-worker" =
      some (safe md5 jobId) := by
  unfold buildLabels
  split_ifs <;> simp [Dict.get?_set]

theorem get?_buildLabels_mapIndex :
    (buildLabels md5 airflowVersion key jobId).get? "map_index" =
      if key.mapIndex ≥ 0 then some (toString key.mapIndex) else none := by
  unfold buildLabels
  split_ifs <;> simp [Dict.get?_set]

theorem get?_buildLabels_runId (hrun : key.runId ≠ "") :
    (buildLabels md5 airflowVersion key jobId).get? "run_id" = some (safe md5 key.runId) := by
  unfold buildLabels
  rw [if_neg hrun, Dict.get?_set, if_pos rfl]

end

/-- A pod that was made for a job of the executor has the string that is looked for first. -/
theorem podSearchStrs_built {pod : Pod} {airflowVersion : String} (hrun : row.1.runId ≠ "")
    (hlabels : pod.labels =
      buildLabels md5 airflowVersion (tiKey row) (toString self.jobId)) :
    ∃ s ∈ labelSearchStrs md5 self row.1 row.2, s ∈ podSearchStrs pod := by
  refine ⟨_, List.mem_cons_self .., ?_⟩
  unfold podSearchStrs
  rw [hlabels, get?_buildLabels_dagId, get?_buildLabels_taskId, get?_buildLabels_airflowWorker,
    get?_buildLabels_mapIndex, get?_buildLabels_runId _ _ _ _ hrun]
  dsimp only [Option.map_some]
  refine List.mem_append_left _ (List.mem_singleton.mpr ?_)
  by_cases hmap : row.1.mapIndex ≥ 0
  · rw [if_pos hmap, if_pos (show (tiKey row).mapIndex ≥ 0 from hmap)]
    rfl
  · rw [if_neg hmap, if_neg (show ¬(tiKey row).mapIndex ≥ 0 from hmap)]
    rfl

/-- A task instance is left alone while such a pod is in a namespace that is listed. -/
theorem isLaunched_of_built {pod : Pod} {airflowVersion : String} (hrun : row.1.runId ≠ "")
    (hpod : pod ∈ pods) (hlisted : self.namespaces.all (·.contains pod.namespace_) = true)
    (hlabels : pod.labels =
      buildLabels md5 airflowVersion (tiKey row) (toString self.jobId)) :
    isLaunched md5 self time pods row = true := by
  obtain ⟨s, hs, hfound⟩ := podSearchStrs_built hrun hlabels
  have hmem : pod ∈ listPods md5 self pods := by
    refine List.mem_filter.mpr ⟨hpod, ?_⟩
    rw [hlisted, Bool.true_and, hlabels, get?_buildLabels_airflowWorker, beq_self_eq_true]
  unfold isLaunched
  rw [Bool.or_eq_true]
  exact .inr (List.any_eq_true.mpr
    ⟨s, hs, List.any_eq_true.mpr ⟨pod, hmem, List.contains_iff_mem.mpr hfound⟩⟩)

end

/-! ## The rows during the loop -/

/-- The workers' changes, seen at one task instance. -/
theorem get?_foldl_applyChange (cs : List Change) {db : Database} {key : PrimaryKey}
    {ti : TaskInstance} {state : TIState} (h : db.get? key = some { ti with state }) :
    (cs.foldl applyChange db).get? key =
      some { ti with state := cs.foldl (fun state change => change.stateOf key state) state } := by
  induction cs generalizing db state with
  | nil => exact h
  | cons change cs ih =>
    refine ih ?_
    unfold applyChange
    rw [Dict.get?_mapValues, h, Option.map_some]

theorem stateAt_succ (key : PrimaryKey) (turn : Nat) :
    stateAt changes key (turn + 1) =
      (changes turn).foldl (fun state change => change.stateOf key state)
        (stateAt changes key turn) := by
  unfold stateAt
  rw [List.range_succ, List.flatMap_append, List.flatMap_singleton, List.foldl_append]

/-- The rows of the task instances whose turn is still to come: only workers changed them. -/
def Tracks (self : Executor) (changes : Nat → List Change) (turn : Nat)
    (rows : List (PrimaryKey × TaskInstance)) (db : Database) : Prop :=
  ∀ row ∈ rows, row.2.queuedByJobId = some self.jobId ∧
    db.get? row.1 = some { row.2 with state := stateAt changes row.1 turn }

theorem Tracks.changed {turn : Nat} {rows : List (PrimaryKey × TaskInstance)} {db : Database}
    (h : Tracks self changes turn rows db) :
    Tracks self changes (turn + 1) rows ((changes turn).foldl applyChange db) := by
  intro row hrow
  obtain ⟨hjob, hget⟩ := h row hrow
  refine ⟨hjob, ?_⟩
  rw [get?_foldl_applyChange (changes turn) hget, stateAt_succ]

/-- An update changes one row. -/
theorem Tracks.scheduled {turn : Nat} {rows : List (PrimaryKey × TaskInstance)} {db : Database}
    (h : Tracks self changes turn rows db) {key : PrimaryKey} (hkey : key ∉ rows.map Prod.fst) :
    Tracks self changes turn rows (setScheduled db key) := by
  intro row hrow
  obtain ⟨hjob, hget⟩ := h row hrow
  refine ⟨hjob, ?_⟩
  have hne : row.1 ≠ key := fun heq => hkey (heq ▸ List.mem_map_of_mem hrow)
  unfold setScheduled
  rw [Dict.get?_mapValues, hget, Option.map_some, if_neg hne]

/-- A task instance that is updated was not launched exactly when it is not busy. -/
theorem notLaunched_iff {turn : Nat} {row : PrimaryKey × TaskInstance}
    (hjob : row.2.queuedByJobId = some self.jobId) :
    NotLaunched self pods row
        (some { row.2 with state := stateAt changes row.1 (turn + 1) }) ↔
      ¬IsBusy self pods changes turn row := by
  unfold IsBusy
  rw [not_or, not_or, not_not]
  constructor
  · intro h
    obtain ⟨ti, hti, hqueued, -⟩ := h.queued
    rw [← Option.some.inj hti] at hqueued
    exact ⟨hqueued, fun ⟨pod, hpod, heq⟩ => h.noPod pod hpod heq, h.notWaiting⟩
  · rintro ⟨hqueued, hpod, hwaiting⟩
    exact ⟨⟨_, rfl, hqueued, hjob⟩, fun pod hmem heq => hpod ⟨pod, hmem, heq⟩, hwaiting⟩

/-- The updates of the loop. -/
theorem updateLoop_iff (md5 : List Char → HexDigest) (time : TaskInstanceKey → ℚ) (pods : List Pod)
    {rows : List (PrimaryKey × TaskInstance)} {turn : Nat} {db : Database}
    (hnodup : (rows.map Prod.fst).Nodup) (h : Tracks self changes turn rows db) :
    (∀ u ∈ (updateLoop md5 self time pods changes turn rows db).2,
        NotLaunched self pods u.1 u.2) ↔
      ∀ i row, rows[i]? = some row → IsBusy self pods changes (turn + i) row →
        isLaunched md5 self time pods row = true := by
  induction rows generalizing turn db with
  | nil => exact ⟨fun _ i row hrow => (by cases hrow), fun _ u hu => absurd hu List.not_mem_nil⟩
  | cons row rows ih =>
    rw [List.map_cons, List.nodup_cons] at hnodup
    have hchanged := h.changed
    have hrest : Tracks self changes (turn + 1) rows ((changes turn).foldl applyChange db) :=
      fun row' hrow' => hchanged row' (List.mem_cons_of_mem _ hrow')
    obtain ⟨hjob, hget⟩ := hchanged row (List.mem_cons_self ..)
    have hcons : (∀ i row', (row :: rows)[i]? = some row' →
          IsBusy self pods changes (turn + i) row' →
            isLaunched md5 self time pods row' = true) ↔
        (IsBusy self pods changes turn row → isLaunched md5 self time pods row = true) ∧
          ∀ i row', rows[i]? = some row' → IsBusy self pods changes (turn + 1 + i) row' →
            isLaunched md5 self time pods row' = true := by
      constructor
      · intro hall
        refine ⟨hall 0 row rfl, fun i row' hrow' hbusy => hall (i + 1) row' hrow' ?_⟩
        rwa [← Nat.add_assoc, Nat.add_right_comm]
      · rintro ⟨hfirst, hall⟩ i row' hrow' hbusy
        cases i with
        | zero =>
          obtain rfl := Option.some.inj hrow'
          exact hfirst hbusy
        | succ i =>
          refine hall i row' hrow' ?_
          rwa [Nat.add_right_comm, Nat.add_assoc]
    rw [hcons]
    unfold updateLoop
    dsimp only
    cases hlaunched : isLaunched md5 self time pods row with
    | true =>
      rw [if_pos rfl, ih hnodup.2 hrest]
      exact ⟨fun hall => ⟨fun _ => rfl, hall⟩, fun hall => hall.2⟩
    | false =>
      rw [if_neg Bool.false_ne_true, List.forall_mem_cons, ih hnodup.2 (hrest.scheduled hnodup.1),
        hget, notLaunched_iff hjob]
      refine and_congr_left fun _ => ⟨fun hidle hbusy => absurd hbusy hidle, fun hidle hbusy => ?_⟩
      cases hidle hbusy

theorem tracks_queuedTis (self : Executor) (changes : Nat → List Change) (db : Database) :
    Tracks self changes 0 (queuedTis self db) db := by
  intro row hrow
  obtain ⟨hmem, hqueued⟩ := List.mem_filter.mp hrow
  rw [Bool.and_eq_true, decide_eq_true_iff] at hqueued
  obtain ⟨⟨hstate, hjob⟩, -⟩ := hqueued
  refine ⟨hjob, ?_⟩
  rw [Dict.get?_eq_some.mpr hmem]
  obtain ⟨key, ti⟩ := row
  cases ti
  cases hstate
  rfl

def loadTask : PrimaryKey := ⟨"etl", "load", "run", -1⟩

/-- The executor of job `7` checks every minute; its job was put in the task queue at `0`. -/
def waitingExecutor : Executor :=
  { jobId := 7, workerPodsQueuedCheckInterval := 60, namespaces := none : Executor }.executeAsync
    (loadTask.tryKey 1) 0

/-- The task instance is queued by the job. -/
def waitingDatabase : Database :=
  ({} : Database).set loadTask ⟨some .queued, 0, some 7, "default", "2024-01-01T00:00:00"⟩

/-- The call at `181`. -/
def waitingUpdates : List ((PrimaryKey × TaskInstance) × Option TaskInstance) :=
  (clearNotLaunchedQueuedTasks (fun _ => underscoreDigest) waitingExecutor (fun _ => 181) []
    (fun _ => []) waitingDatabase).2.2

end Airflow.Kubernetes.Queued
