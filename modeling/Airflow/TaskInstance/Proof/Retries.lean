import Airflow.TaskInstance.Retries

/-!
# The retry budget

An instance that has not ended has the try number of the next attempt: one more than the attempts
that failed since it was created or cleared, counted from what `clear_task_instances` leaves below
`max_tries` (`Budgeted`). Every event keeps that, so that a task instance fails with the attempt
after its retries (`retryBudget_exact`).
-/

namespace Airflow.Attempts

open TaskInstance

/-! ## Try numbers -/

section
variable {ti : TaskInstance} {task : Task}

theorem tryNumber_running (h : ti.state = some .running) : ti.tryNumber = ti._tryNumber := by
  simp [tryNumber, h]

theorem tryNumber_not_running (h : ti.state ≠ some .running) :
    ti.tryNumber = ti._tryNumber + 1 := by
  simp [tryNumber, h]

/-- What `handle_failure` does, by whether the instance is eligible to retry. -/
theorem handleFailure_eq (ti : TaskInstance) (loaded : Option Task) :
    ti.handleFailure loaded false =
      if ti.isEligibleToRetry loaded then
        { state := some .upForRetry
          _tryNumber := if ti.state = some .queued then ti._tryNumber + 1 else ti._tryNumber
          maxTries := ti.maxTries }
      else { state := some .failed, _tryNumber := ti._tryNumber, maxTries := ti.maxTries } := by
  have helig : ti.clearNextMethodArgs.isEligibleToRetry loaded = ti.isEligibleToRetry loaded := rfl
  simp only [handleFailure, helig, Bool.false_or]
  cases ti.isEligibleToRetry loaded <;> rfl

theorem runRawTask_raises (hs : ti.state = some .running) (airflowException : Bool) :
    ti.runRawTask task (.raises airflowException) = ti.handleFailure task false := by
  simp [runRawTask, hs, State.isFinished]

/-- A retry has the next try number, whether the instance ran or was only queued. -/
theorem handleFailure_retry {loaded : Option Task}
    (hstate : ti.state = some .queued ∨ ti.state = some .running)
    (h : ti.isEligibleToRetry loaded = true) :
    (ti.handleFailure loaded false).state = some .upForRetry ∧
      (ti.handleFailure loaded false).tryNumber = ti.tryNumber + 1 ∧
      (ti.handleFailure loaded false).maxTries = ti.maxTries := by
  rw [handleFailure_eq, if_pos h]
  rcases hstate with hs | hs <;> simp [tryNumber, hs]

theorem handleFailure_failed {loaded : Option Task} (h : ti.isEligibleToRetry loaded = false) :
    (ti.handleFailure loaded false).state = some .failed := by
  rw [handleFailure_eq, h]
  rfl

/-! ## The budget -/

/-- What holds of an instance with so many failed attempts. -/
structure Budgeted (task : Task) (run : Run) : Prop where
  /-- The next attempt, before the instance has ended. -/
  next : State.isFinished run.ti.state = false →
    run.ti.tryNumber = run.ti.maxTries - task.retries + run.failures + 1
  within : run.ti.state ≠ some .failed → run.failures ≤ task.retries
  failed : run.ti.state = some .failed → run.failures = task.retries + 1
  notRestarting : run.ti.state ≠ some .restarting

variable {run : Run}

theorem budgeted_init (task : Task) : Budgeted task (Run.init task) := by
  constructor <;> simp [Run.init, insertMapping, tryNumber]

/-- An unfinished instance is eligible to retry while fewer attempts failed than there are
retries, also when the task cannot be loaded. -/
theorem Budgeted.eligible (h : Budgeted task run)
    (hunfinished : State.isFinished run.ti.state = false) (loaded : Bool) :
    run.ti.isEligibleToRetry (if loaded then some task else none) =
      decide (run.failures < task.retries) := by
  have hnext := h.next hunfinished
  have hle : run.ti.tryNumber ≤ run.ti.maxTries ↔ run.failures < task.retries := by
    rw [hnext]
    omega
  unfold isEligibleToRetry
  rw [if_neg h.notRestarting]
  cases loaded with
  | false => simp [hle]
  | true =>
    rw [if_pos rfl]
    by_cases hlt : run.failures < task.retries
    · have hne : task.retries ≠ 0 := by omega
      simp [hle, hlt, hne]
    · simp [hle, hlt]

/-- A failing attempt is retried while retries are left. -/
theorem Budgeted.fail_state (h : Budgeted task run)
    (hstate : run.ti.state = some .queued ∨ run.ti.state = some .running) (loaded : Bool) :
    (run.ti.handleFailure (if loaded then some task else none) false).state =
      if run.failures < task.retries then some .upForRetry else some .failed := by
  have hunfinished : State.isFinished run.ti.state = false := by
    rcases hstate with hs | hs <;> rw [hs] <;> rfl
  have helig := h.eligible hunfinished loaded
  by_cases hlt : run.failures < task.retries
  · rw [if_pos hlt]
    exact (handleFailure_retry hstate (helig.trans (decide_eq_true hlt))).1
  · rw [if_neg hlt]
    exact handleFailure_failed (helig.trans (decide_eq_false hlt))

theorem Budgeted.fail (h : Budgeted task run)
    (hstate : run.ti.state = some .queued ∨ run.ti.state = some .running) (loaded : Bool) :
    Budgeted task
      { ti := run.ti.handleFailure (if loaded then some task else none) false
        failures := run.failures + 1 } := by
  have hunfinished : State.isFinished run.ti.state = false := by
    rcases hstate with hs | hs <;> rw [hs] <;> rfl
  have hwithin : run.failures ≤ task.retries := by
    apply h.within
    rcases hstate with hs | hs <;> simp [hs]
  have helig := h.eligible hunfinished loaded
  by_cases hlt : run.failures < task.retries
  · obtain ⟨hs, htry, hmax⟩ := handleFailure_retry hstate (helig.trans (decide_eq_true hlt))
    have hnext := h.next hunfinished
    refine ⟨fun _ => ?_, fun _ => ?_, fun hf => ?_, ?_⟩
    · show _ = _ - _ + ((run.failures + 1 : Nat) : Int) + 1
      simp only [htry, hmax, hnext]
      omega
    · show run.failures + 1 ≤ _
      omega
    · simp [hs] at hf
    · simp [hs]
  · have hs := handleFailure_failed (helig.trans (decide_eq_false hlt))
    refine ⟨fun hf => ?_, fun hf => absurd hs hf, fun _ => ?_, ?_⟩
    · simp [hs, State.isFinished] at hf
    · show run.failures + 1 = _
      omega
    · simp [hs]

/-- An event that moves an unfinished instance to another unfinished state without a failure. -/
theorem Budgeted.move (h : Budgeted task run) {ti : TaskInstance}
    (hbefore : State.isFinished run.ti.state = false) (hafter : State.isFinished ti.state = false)
    (htry : ti.tryNumber = run.ti.tryNumber) (hmax : ti.maxTries = run.ti.maxTries)
    (hrestarting : ti.state ≠ some .restarting) :
    Budgeted task { ti := ti, failures := run.failures } := by
  have hnot : ∀ {s : TIState}, State.isFinished s = false → s ≠ some .failed := by
    rintro s hs rfl
    cases hs
  refine ⟨fun _ => ?_, fun _ => h.within (hnot hbefore), fun hf => absurd hf (hnot hafter),
    hrestarting⟩
  show ti.tryNumber = _
  rw [htry, hmax]
  exact h.next hbefore

/-- The instance ends without a failure. -/
theorem Budgeted.succeed (h : Budgeted task run) {ti : TaskInstance}
    (hbefore : run.ti.state = some .running) (hafter : ti.state = some .success ∨
      ti.state = some .skipped) : Budgeted task { ti := ti, failures := run.failures } := by
  have hwithin : run.failures ≤ task.retries := by
    apply h.within
    simp [hbefore]
  refine ⟨fun hf => ?_, fun _ => hwithin, fun hf => ?_, ?_⟩ <;>
    rcases hafter with hs | hs <;> simp_all [State.isFinished]

theorem Budgeted.clear (task : Task) (hfinished : State.isFinished run.ti.state = true) :
    Budgeted task { ti := run.ti.clearTaskInstance task false, failures := 0 } := by
  have hs : run.ti.state ≠ some .running := by
    intro hs
    rw [hs] at hfinished
    cases hfinished
  rw [clearTaskInstance, if_neg hs]
  refine ⟨fun _ => ?_, fun _ => Nat.zero_le _, fun hf => ?_, ?_⟩
  · simp [tryNumber, hs, clearNextMethodArgs]
    omega
  · cases hf
  · simp [clearNextMethodArgs]

/-- **Every event keeps the budget.** -/
theorem Budgeted.step (h : Budgeted task run) (event : Event) :
    Budgeted task (step task run event) := by
  unfold Attempts.step
  split
  · next hhappens =>
    cases event with
    | schedule =>
      have hs : State.isFinished run.ti.state = false :=
        State.not_isFinished_of_isUnfinished (State.isUnfinished_of_isScheduleable hhappens)
      have hrun : run.ti.state ≠ some .running := by
        intro hrun
        simp [Event.happens, hrun, State.isScheduleable] at hhappens
      refine h.move hs rfl ?_ rfl (by simp [Event.apply])
      simp [Event.apply, tryNumber, hrun]
    | queue =>
      have hs : run.ti.state = some .scheduled := by simpa [Event.happens] using hhappens
      refine h.move (by rw [hs]; rfl) rfl ?_ rfl (by simp [Event.apply])
      simp [Event.apply, tryNumber, hs]
    | dequeue back =>
      have hs : run.ti.state = some .queued ∧ (back = none ∨ back = some .scheduled) := by
        simpa [Event.happens] using hhappens
      refine h.move (by rw [hs.1]; rfl) ?_ ?_ rfl ?_
      · rcases hs.2 with rfl | rfl <;> rfl
      · rcases hs.2 with rfl | rfl <;> simp [Event.apply, tryNumber, hs.1]
      · rcases hs.2 with rfl | rfl <;> simp [Event.apply]
    | start nonRequeueable requeueable =>
      show Budgeted task
        ⟨(run.ti.checkAndChangeStateBeforeExecution nonRequeueable requeueable).1, run.failures⟩
      unfold checkAndChangeStateBeforeExecution
      split
      · exact h
      · next hrunnable =>
        have hs : State.isRunnable run.ti.state = true := by
          cases hr : State.isRunnable run.ti.state <;> simp_all
        have hrun : run.ti.state ≠ some .running := by
          intro hrun
          simp [hrun, State.isRunnable] at hs
        have hfin := State.not_isFinished_of_isRunnable hs
        split
        · refine h.move hfin rfl ?_ rfl (by simp)
          simp [tryNumber, hrun]
        · refine h.move hfin rfl ?_ rfl (by simp)
          simp [tryNumber, hrun]
    | finish outcome =>
      have hs : run.ti.state = some .running := by simpa [Event.happens] using hhappens
      have hfin : State.isFinished run.ti.state = false := by rw [hs]; rfl
      cases outcome with
      | returns => exact h.succeed hs (.inl rfl)
      | skips => exact h.succeed hs (.inr rfl)
      | defers method =>
        -- the try number of the deferred instance is that of the attempt
        refine h.move hfin rfl ?_ rfl (by simp [Event.apply, runRawTask, deferTask])
        simp [Event.apply, runRawTask, deferTask, tryNumber, hs]
      | reschedules =>
        refine h.move hfin rfl ?_ rfl
          (by simp [Event.apply, runRawTask, handleReschedule, clearNextMethodArgs])
        simp [Event.apply, runRawTask, handleReschedule, clearNextMethodArgs, tryNumber, hs]
      | raises airflowException =>
        show Budgeted task ⟨run.ti.runRawTask task (.raises airflowException), run.failures + 1⟩
        rw [runRawTask_raises hs]
        exact h.fail (.inr hs) true
    | kill taskLoaded =>
      have hs : run.ti.state = some .queued ∨ run.ti.state = some .running := by
        simpa [Event.happens] using hhappens
      exact h.fail hs taskLoaded
    | submitEvent =>
      have hs : run.ti.state = some .deferred := by simpa [Event.happens] using hhappens
      refine h.move (by rw [hs]; rfl) rfl ?_ rfl (by simp [Event.apply, submitEvent])
      simp [Event.apply, submitEvent, tryNumber, hs]
    | submitFailure =>
      have hs : run.ti.state = some .deferred := by simpa [Event.happens] using hhappens
      refine h.move (by rw [hs]; rfl) rfl ?_ rfl (by simp [Event.apply, submitFailure])
      simp [Event.apply, submitFailure, tryNumber, hs]
    | clear => exact Budgeted.clear task hhappens
  · exact h

/-! ## The claim about runs -/

/-- The instance is failed exactly when one attempt more than the retries failed, no attempt runs
then, and a failing attempt is retried exactly while retries are left. -/
structure BudgetExact (task : Task) (run : Run) : Prop where
  failed_iff : run.ti.state = some .failed ↔ run.failures = task.retries + 1
  running : run.ti.state = some .running → run.failures ≤ task.retries
  next : ∀ event, event.fails = true → event.happens run.ti.state = true →
    (Attempts.step task run event).ti.state =
      if run.failures < task.retries then some .upForRetry else some .failed

theorem Budgeted.exact (h : Budgeted task run) : BudgetExact task run := by
  have hfailed : run.ti.state = some .failed ↔ run.failures = task.retries + 1 := by
    refine ⟨h.failed, fun hf => Classical.byContradiction fun hne => ?_⟩
    have hle := h.within hne
    omega
  refine ⟨hfailed, fun hrun => h.within (by simp [hrun]), fun event hfails hhappens => ?_⟩
  unfold Attempts.step
  rw [if_pos hhappens]
  cases event with
  | kill taskLoaded =>
    refine h.fail_state ?_ taskLoaded
    simpa [Event.happens] using hhappens
  | finish outcome =>
    have hs : run.ti.state = some .running := by simpa [Event.happens] using hhappens
    cases outcome with
    | raises airflowException =>
      show (run.ti.runRawTask task (.raises airflowException)).state = _
      rw [runRawTask_raises hs]
      exact h.fail_state (.inr hs) true
    | _ => cases hfails
  | _ => cases hfails

theorem Budgeted.foldl (h : Budgeted task run) (events : List Event) :
    Budgeted task (events.foldl (Attempts.step task) run) := by
  induction events generalizing run with
  | nil => exact h
  | cons event events ih => exact ih (h.step event)

end

/-- Two retries, one of them of an instance that was killed in the queue, with a deferral. -/
example : ((([.schedule, .queue, .kill true, .schedule, .queue, .start true true,
    .finish (.defers "execute_complete"), .submitEvent, .queue, .start true true,
    .finish (.raises true), .schedule, .queue, .start true true, .finish (.raises false)] :
    List Event).foldl (step ⟨2⟩) (Run.init ⟨2⟩)).ti).state = some .failed := by decide

end Airflow.Attempts
