import Airflow.TaskInstance.Clear

/-!
# What clearing deletes, changes and resets

The loop records for each listed instance the number of the try that comes after the change of its
state (`recordedTry`), which for an instance that runs in a job is not the one it had. From the
nested groups the rows of `task_reschedule` with exactly the recorded keys are deleted
(`mem_clear_taskReschedules`). So clearing is exact when no reschedule of a running instance could
tell the two numbers apart (`clearsExactly_iff`).
-/

namespace Airflow.Clear

variable {dag : Option ClearedDag} {dagBag : String → Option ClearedDag} {task : Option Task}
  {ti : PrimaryKey} {tis : List PrimaryKey} {row : TaskReschedule} {now : Int}
  {activateDagRuns : Option Bool} {dagRunState : Option DagRunState} {session : Session}

/-! ## One instance -/

/-- The instance as the model of the attempts has it. -/
def TaskInstance.attempt (ti : TaskInstance) : Attempts.TaskInstance :=
  ⟨ti.state, ti._tryNumber, ti.maxTries, ti.nextMethod⟩

/-- Clearing an instance is what the model of the attempts says. -/
theorem clear_attempt (ti : TaskInstance) (task : Option Task) :
    (ti.clear task).attempt =
      ti.attempt.clearTaskInstance (task.map fun task => ⟨task.retries⟩) ti.hasJob := by
  unfold TaskInstance.clear Attempts.TaskInstance.clearTaskInstance
  by_cases hrun : ti.state = some .running
  · have hrun' : ti.attempt.state = some .running := hrun
    rw [if_pos hrun, if_pos hrun']
    split <;> rfl
  · have hrun' : ¬ti.attempt.state = some .running := hrun
    rw [if_neg hrun, if_neg hrun']
    cases task <;> rfl

/-- The try number that the loop records: that of the attempt after the change of the state. -/
def TaskInstance.recordedTry (ti : TaskInstance) : Int :=
  if ti.state = some .running ∧ ¬ti.hasJob then ti._tryNumber else ti._tryNumber + 1

theorem tryNumber_clear (ti : TaskInstance) : (ti.clear task).tryNumber = ti.recordedTry := by
  unfold TaskInstance.clear TaskInstance.recordedTry
  by_cases hrun : ti.state = some .running
  · cases hjob : ti.hasJob <;> simp [hrun, TaskInstance.tryNumber]
  · cases task <;> simp [hrun, TaskInstance.tryNumber, TaskInstance.clearNextMethodArgs,
      TaskInstance.refreshFromTask]

/-- Clearing an instance again records the same try number. -/
theorem recordedTry_clear (ti : TaskInstance) : (ti.clear task).recordedTry = ti.recordedTry := by
  unfold TaskInstance.clear
  by_cases hrun : ti.state = some .running
  · cases hjob : ti.hasJob <;> simp [hrun, hjob, TaskInstance.recordedTry]
  · cases task <;> simp [hrun, TaskInstance.recordedTry, TaskInstance.clearNextMethodArgs,
      TaskInstance.refreshFromTask]

theorem recordedTry_of_not_running {ti : TaskInstance} (h : ti.state ≠ some .running) :
    ti.recordedTry = ti.tryNumber := by
  rw [TaskInstance.recordedTry, TaskInstance.tryNumber, if_neg h, if_neg fun hrun => h hrun.1]

theorem recordedTry_of_running {ti : TaskInstance} (h : ti.state = some .running) :
    ti.recordedTry = if ti.hasJob then ti.tryNumber + 1 else ti.tryNumber := by
  rw [TaskInstance.recordedTry, TaskInstance.tryNumber, if_pos h]
  cases ti.hasJob <;> simp [h]

/-! ## The groups -/

/-- What the groups of a run and below hold. -/
def InTasks (taskIds : List String) (taskId : String) : Prop := taskId ∈ taskIds

def InTries : Dict Int (List String) → Int × String → Prop := Dict.Holds InTasks

def InMapIndexes : Dict Int (Dict Int (List String)) → Int × Int × String → Prop :=
  Dict.Holds InTries

def InRuns : Dict String (Dict Int (Dict Int (List String))) → String × Int × Int × String → Prop :=
  Dict.Holds InMapIndexes

def InDags : TaskIdByKey → String × String × Int × Int × String → Prop := Dict.Holds InRuns

theorem not_inTasks_nil {taskId : String} : ¬InTasks [] taskId := List.not_mem_nil

theorem inTasks_addTo {taskIds : List String} {taskId other : String} :
    InTasks (addTo taskIds taskId) other ↔ InTasks taskIds other ∨ other = taskId := by
  rw [InTasks, InTasks, addTo]
  split
  · rename_i hmem
    refine ⟨.inl, ?_⟩
    rintro (h | rfl)
    · exact h
    · exact hmem
  · rw [List.mem_append, List.mem_singleton]

/-- **A listed instance adds its key to what the groups hold.** -/
theorem inDags_add {groups : TaskIdByKey} {n : Int} {p : String × String × Int × Int × String} :
    InDags (groups.add ti n) p ↔
      InDags groups p ∨ p = (ti.dagId, ti.runId, ti.mapIndex, n, ti.taskId) := by
  refine Dict.holds_update (fun _ => Dict.not_holds_empty) fun runIds c => ?_
  refine Dict.holds_update (fun _ => Dict.not_holds_empty) fun mapIndexes c => ?_
  refine Dict.holds_update (fun _ => Dict.not_holds_empty) fun taskTries c => ?_
  exact Dict.holds_update (fun _ => not_inTasks_nil) fun taskIds c => inTasks_addTo

/-- The condition is true of the rows whose key the groups hold. -/
theorem conditions_iff {groups : TaskIdByKey} : conditions groups row = true ↔
    InDags groups (row.ti.dagId, row.ti.runId, row.ti.mapIndex, row.tryNumber, row.ti.taskId) := by
  simp only [conditions, InDags, InRuns, InMapIndexes, InTries, InTasks, Dict.holds_iff_entries,
    List.any_eq_true, Bool.and_eq_true, decide_eq_true_eq]

/-! ## The loop -/

/-- What the loop keeps of the instances it has not come to, or not yet. -/
structure Tracks (before : PrimaryKey → TaskInstance) (done : List PrimaryKey) (loop : Loop) :
    Prop where
  recorded : ∀ ti, (loop.taskInstances ti).recordedTry = (before ti).recordedTry
  others : ∀ ti, ti ∉ done → loop.taskInstances ti = before ti
  groups : ∀ p, InDags loop.taskIdByKey p ↔ ∃ ti ∈ done,
    p = (ti.dagId, ti.runId, ti.mapIndex, (before ti).recordedTry, ti.taskId)

variable {before : PrimaryKey → TaskInstance} {done : List PrimaryKey} {loop : Loop}

theorem Tracks.init : Tracks before [] { taskInstances := before } where
  recorded := fun _ => rfl
  others := fun _ _ => rfl
  groups := fun p => by
    refine iff_of_false Dict.not_holds_empty ?_
    rintro ⟨ti, hti, -⟩
    exact List.not_mem_nil hti

theorem Tracks.step (h : Tracks before done loop) (ti : PrimaryKey) :
    Tracks before (done ++ [ti]) (loopStep dag dagBag loop ti) where
  recorded := by
    intro other
    by_cases heq : other = ti
    · subst heq
      simp only [loopStep, Function.update_self, recordedTry_clear, h.recorded]
    · simp only [loopStep, Function.update_of_ne heq, h.recorded]
  others := by
    intro other hnot
    rw [List.mem_append, List.mem_singleton, not_or] at hnot
    simp only [loopStep, Function.update_of_ne hnot.2]
    exact h.others other hnot.1
  groups := by
    intro p
    have hadd : InDags (loopStep dag dagBag loop ti).taskIdByKey p ↔
        InDags loop.taskIdByKey p ∨
          p = (ti.dagId, ti.runId, ti.mapIndex, (before ti).recordedTry, ti.taskId) := by
      simp only [loopStep, tryNumber_clear, h.recorded]
      exact inDags_add
    rw [hadd, h.groups]
    simp only [List.mem_append, List.mem_singleton, or_and_right, exists_or, exists_eq_left]

theorem Tracks.foldl (h : Tracks before done loop) (tis : List PrimaryKey) :
    Tracks before (done ++ tis) (tis.foldl (loopStep dag dagBag) loop) := by
  induction tis generalizing done loop with
  | nil => rwa [List.append_nil]
  | cons ti tis ih =>
    rw [List.append_cons]
    exact ih (h.step ti)

theorem tracks (tis : List PrimaryKey) :
    Tracks before tis (tis.foldl (loopStep dag dagBag) { taskInstances := before }) :=
  Tracks.init.foldl tis

/-! ## What is deleted and what is left -/

theorem conditions_loop :
    conditions (tis.foldl (loopStep dag dagBag)
        { taskInstances := session.taskInstances }).taskIdByKey row = true ↔
      row.ti ∈ tis ∧ row.tryNumber = (session.taskInstances row.ti).recordedTry := by
  rw [conditions_iff, (tracks tis).groups]
  constructor
  · rintro ⟨ti, hti, heq⟩
    simp only [Prod.mk.injEq] at heq
    obtain ⟨hdag, hrun, hmap, htry, htask⟩ := heq
    have hrow : row.ti = ti := by
      obtain ⟨id, ⟨dagId, taskId, runId, mapIndex⟩, tryNumber⟩ := row
      obtain ⟨dagId', taskId', runId', mapIndex'⟩ := ti
      subst hdag hrun hmap htask
      rfl
    rw [hrow]
    exact ⟨hti, htry⟩
  · rintro ⟨hti, htry⟩
    exact ⟨row.ti, hti, by rw [htry]⟩

/-- **The rows that are left are those that no listed instance recorded.** -/
theorem mem_clear_taskReschedules :
    row ∈ (clearTaskInstances dag dagBag now activateDagRuns dagRunState tis
        session).taskReschedules ↔
      row ∈ session.taskReschedules ∧
        ¬(row.ti ∈ tis ∧ row.tryNumber = (session.taskInstances row.ti).recordedTry) := by
  rw [← @conditions_loop dag dagBag]
  simp only [clearTaskInstances]
  split
  · rename_i hsize
    refine (and_iff_left ?_).symm
    rw [Dict.size, List.length_eq_zero_iff] at hsize
    simp [conditions, hsize]
  · rw [List.mem_filter, Bool.not_eq_true', Bool.not_eq_true]

theorem clear_taskInstances (h : ti ∉ tis) :
    (clearTaskInstances dag dagBag now activateDagRuns dagRunState tis session).taskInstances ti =
      session.taskInstances ti :=
  (tracks tis).others ti h

/-! ## The runs -/

/-- A task instance of the run is listed. -/
def Listed (tis : List PrimaryKey) (run : DagRun) : Prop :=
  ∃ ti ∈ tis, ti.dagId = run.dagId ∧ ti.runId = run.runId

theorem isListedRun_iff {run : DagRun} : isListedRun tis run = true ↔ Listed tis run := by
  have hgroup : (runIdsByDagId tis).Holds InTasks (run.dagId, run.runId) ↔
      (.empty : Dict String (List String)).Holds InTasks (run.dagId, run.runId) ∨
        ∃ ti ∈ tis, (run.dagId, run.runId) = (ti.dagId, ti.runId) :=
    Dict.holds_group (fun ti : PrimaryKey => ti.dagId) (fun ti => ti.runId)
      (fun ti runIds => addTo runIds ti.runId)
      (fun _ => not_inTasks_nil) (fun _ _ _ => inTasks_addTo) tis
  rw [or_iff_right Dict.not_holds_empty, Dict.holds_iff_entries] at hgroup
  simp only [isListedRun, List.any_eq_true, Bool.and_eq_true, decide_eq_true_eq]
  refine hgroup.trans (exists_congr fun ti => and_congr_right fun _ => ?_)
  rw [Prod.mk.injEq, eq_comm, eq_comm (a := run.runId)]

/-- A run is changed only when a listed instance is of it and it is finished. -/
theorem clear_dagRuns : List.Forall₂
    (fun run run' => run' ≠ run → Listed tis run ∧ State.isFinishedDr run.state = true)
    session.dagRuns
    (clearTaskInstances dag dagBag now activateDagRuns dagRunState tis session).dagRuns := by
  have hself : List.Forall₂
      (fun run run' => run' ≠ run → Listed tis run ∧ State.isFinishedDr run.state = true)
      session.dagRuns session.dagRuns := List.forall₂_same.mpr fun _ _ hne => absurd rfl hne
  simp only [clearTaskInstances]
  split
  · exact hself
  · rename_i newState _
    split
    · exact hself
    · rw [List.forall₂_map_right_iff]
      refine List.forall₂_same.mpr fun run _ hne => ?_
      by_cases hlisted : isListedRun tis run = true
      · refine ⟨isListedRun_iff.mp hlisted, ?_⟩
        by_contra hfin
        rw [if_pos hlisted, DagRun.reset, if_neg hfin] at hne
        exact hne rfl
      · rw [if_neg hlisted] at hne
        exact absurd rfl hne

/-! ## Exactness -/

/-- The instance is given a new state: an instance that runs without a job is left as it is. -/
def TaskInstance.IsCleared (ti : TaskInstance) : Prop := ti.state = some .running → ti.hasJob = true

/-- Clearing deletes the reschedules of the tries of the instances in `cleared`, changes listed
instances alone and resets finished runs of listed instances alone. -/
structure ClearsExactly (cleared : TaskInstance → Prop) (tis : List PrimaryKey)
    (session after : Session) : Prop where
  reschedules : ∀ row ∈ session.taskReschedules, row ∉ after.taskReschedules ↔
    row.ti ∈ tis ∧ cleared (session.taskInstances row.ti) ∧
      row.tryNumber = (session.taskInstances row.ti).tryNumber
  instances : ∀ ti, ti ∉ tis → after.taskInstances ti = session.taskInstances ti
  runs : List.Forall₂
    (fun run run' => run' ≠ run → Listed tis run ∧ State.isFinishedDr run.state = true)
    session.dagRuns after.dagRuns

theorem clearsExactly_iff_rows {cleared : TaskInstance → Prop} :
    ClearsExactly cleared tis session
        (clearTaskInstances dag dagBag now activateDagRuns dagRunState tis session) ↔
      ∀ row ∈ session.taskReschedules, row.ti ∈ tis →
        (row.tryNumber = (session.taskInstances row.ti).recordedTry ↔
          cleared (session.taskInstances row.ti) ∧
            row.tryNumber = (session.taskInstances row.ti).tryNumber) := by
  constructor
  · intro h row hrow hti
    have hdeleted := h.reschedules row hrow
    rw [mem_clear_taskReschedules] at hdeleted
    simpa [hrow, hti] using hdeleted
  · intro h
    refine ⟨fun row hrow => ?_, fun ti => clear_taskInstances, clear_dagRuns⟩
    rw [mem_clear_taskReschedules, not_and, not_not]
    constructor
    · intro hdeleted
      obtain ⟨hti, htry⟩ := hdeleted hrow
      exact ⟨hti, (h row hrow hti).mp htry⟩
    · rintro ⟨hti, hcleared⟩ -
      exact ⟨hti, (h row hrow hti).mpr hcleared⟩

/-- **Clearing is exact for the instances that are given a new state** when no reschedule of a
listed running instance has its try number, nor the next one if it has a job; **and for all listed
instances** when none of one that has a job has either. -/
theorem clearsExactly_iff (dag : Option ClearedDag) (dagBag : String → Option ClearedDag)
    (now : Int) (activateDagRuns : Option Bool) (dagRunState : Option DagRunState)
    (tis : List PrimaryKey) (session : Session) :
    (ClearsExactly TaskInstance.IsCleared tis session
        (clearTaskInstances dag dagBag now activateDagRuns dagRunState tis session) ↔
      ∀ row ∈ session.taskReschedules, row.ti ∈ tis →
        (session.taskInstances row.ti).state = some .running →
          row.tryNumber ≠ (session.taskInstances row.ti).tryNumber ∧
            ((session.taskInstances row.ti).hasJob = true →
              row.tryNumber ≠ (session.taskInstances row.ti).tryNumber + 1)) ∧
    (ClearsExactly (fun _ => True) tis session
        (clearTaskInstances dag dagBag now activateDagRuns dagRunState tis session) ↔
      ∀ row ∈ session.taskReschedules, row.ti ∈ tis →
        (session.taskInstances row.ti).state = some .running →
          (session.taskInstances row.ti).hasJob = true →
            row.tryNumber ≠ (session.taskInstances row.ti).tryNumber ∧
              row.tryNumber ≠ (session.taskInstances row.ti).tryNumber + 1) := by
  rw [clearsExactly_iff_rows, clearsExactly_iff_rows]
  constructor
  · refine forall_congr' fun row => forall_congr' fun _ => forall_congr' fun _ => ?_
    generalize session.taskInstances row.ti = ti
    by_cases hrun : ti.state = some .running
    · rw [recordedTry_of_running hrun, TaskInstance.IsCleared]
      cases hjob : ti.hasJob
      · simp [hrun]
      · simp only [hrun, if_true, implies_true, true_and, forall_const]
        omega
    · simp [recordedTry_of_not_running hrun, TaskInstance.IsCleared, hrun]
  · refine forall_congr' fun row => forall_congr' fun _ => forall_congr' fun _ => ?_
    generalize session.taskInstances row.ti = ti
    by_cases hrun : ti.state = some .running
    · rw [recordedTry_of_running hrun]
      cases hjob : ti.hasJob
      · simp
      · simp only [hrun, if_true, true_and, forall_const]
        omega
    · simp [recordedTry_of_not_running hrun, hrun]

/-- A sensor that runs its first attempt in a job, and the reschedule of this attempt. -/
def sensor : PrimaryKey := ⟨"d", "sensor", "r", -1⟩

def rescheduled : Session where
  taskInstances := fun _ => ⟨some .running, 1, 0, some 7, none, none, none,
    ⟨"default", "default_pool", 1, 1, none, none, "Sensor", none⟩⟩
  taskReschedules := [⟨1, sensor, 1⟩]
  jobs := [⟨7, .running⟩]
  dagRuns := [⟨"d", "r", .running, some 0, none, 0⟩]

theorem rescheduled_not_deleted :
    ¬ClearsExactly TaskInstance.IsCleared [sensor] rescheduled
        (clearTaskInstances none (fun _ => none) 0 none (some .queued) [sensor] rescheduled) ∧
      ¬ClearsExactly (fun _ => True) [sensor] rescheduled
        (clearTaskInstances none (fun _ => none) 0 none (some .queued) [sensor] rescheduled) := by
  have hkept : (⟨1, sensor, 1⟩ : TaskReschedule) ∈
      (clearTaskInstances none (fun _ => none) 0 none (some .queued) [sensor]
        rescheduled).taskReschedules := by decide
  constructor
  · intro h
    exact (h.reschedules _ List.mem_cons_self).mpr
      ⟨List.mem_cons_self, fun _ => by decide, by decide⟩ hkept
  · intro h
    exact (h.reschedules _ List.mem_cons_self).mpr
      ⟨List.mem_cons_self, trivial, by decide⟩ hkept

end Airflow.Clear
