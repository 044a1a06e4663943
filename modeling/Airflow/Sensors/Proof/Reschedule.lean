import Airflow.Sensors.Reschedule
import Airflow.TaskInstance.Proof.Retries
import Mathlib.Tactic.Linarith

/-!
# Timing out from the first poke

The rows of the first try begin with the first execution, once it has rescheduled (`Inv`); when it
ends in any other way there is none, and every later execution measures from its own start.
-/

namespace Airflow.Sensors

open Attempts.TaskInstance Transition

variable {sensor : BaseSensorOperator} {mysql : Bool} {runHash : ℚ → Int → Nat}

/-! ## One execution -/

/-- A poke that comes to nothing after the timeout ends the execution. -/
theorem iteration_timedOut (mysql : Bool) (hash : Nat) {startedAt : ℚ} (tryNumber : Int)
    {poke : Poke} {clock : Clock} (hpoke : sensor.isFalse poke = true)
    (hlate : sensor.timeout < clock.compared - startedAt) :
    ∃ message, sensor.iteration mysql hash startedAt tryNumber poke clock =
      .inl (.raises (if sensor.softFail then .airflowSkipException message
        else .airflowSensorTimeout message)) := by
  refine ⟨.timedOut (clock.reported - startedAt) sensor.timeout, ?_⟩
  cases poke with
  | returns isDone xcomValue =>
    cases isDone with
    | true => cases hpoke
    | false => exact if_pos hlate
  | raises e =>
    have hnone : sensor.handlePokeException e = none := Option.isNone_iff_eq_none.mp hpoke
    unfold BaseSensorOperator.iteration
    simp only [hnone]
    exact if_pos hlate

/-- In reschedule mode one iteration ends the execution. -/
theorem iteration_reschedule (hmode : sensor.reschedule = true) (hash : Nat) (startedAt : ℚ)
    (tryNumber : Int) (poke : Poke) (clock : Clock) :
    ∃ result, sensor.iteration mysql hash startedAt tryNumber poke clock = .inl result := by
  unfold BaseSensorOperator.iteration
  simp only [hmode, if_true]
  cases poke with
  | returns isDone xcomValue =>
    cases isDone with
    | true => exact ⟨_, rfl⟩
    | false =>
      dsimp only
      split_ifs
      all_goals exact ⟨_, rfl⟩
  | raises e =>
    dsimp only
    cases sensor.handlePokeException e with
    | some result => exact ⟨_, rfl⟩
    | none =>
      dsimp only
      split_ifs
      all_goals exact ⟨_, rfl⟩

theorem Execution.result_eq {e : Execution} {poke : Poke} {clock : Clock} {result : Result}
    (h : sensor.iteration mysql (runHash e.startedAt 1) e.startedAt 1 poke clock = .inl result) :
    e.result sensor mysql runHash poke clock = some result := by
  unfold Execution.result BaseSensorOperator.executeLoop
  rw [h]

/-- An execution that measures from the first one, or from its poke, times out with it. -/
theorem measuresFrom {first e : Execution} (hdates : first.actualStartDate ≤ first.pokeDate)
    (hstart : e.startedAt = first.actualStartDate ∨ e.startedAt = first.pokeDate) :
    MeasuresFrom sensor mysql runHash first e where
  startedAt := hstart
  timesOut poke clock hpoke hlate := by
    have hle : e.startedAt ≤ first.pokeDate := by
      rcases hstart with h | h
      · rwa [h]
      · exact h.le
    obtain ⟨message, h⟩ := iteration_timedOut mysql (runHash e.startedAt 1) 1 hpoke
      (hlate.trans_le (sub_le_sub_left hle clock.compared))
    exact ⟨message, Execution.result_eq h⟩

/-! ## The rows of the first try -/

/-- The first row of a try. -/
def firstRow (rows : List TaskReschedule) (tryNumber : Int) : Option TaskReschedule :=
  rows.find? (·.tryNumber = tryNumber)

theorem firstRow_eq_none {rows : List TaskReschedule} {tryNumber : Int} :
    firstRow rows tryNumber = none ↔ ∀ row ∈ rows, row.tryNumber ≠ tryNumber := by
  rw [firstRow, List.find?_eq_none]
  exact forall₂_congr fun row _ => not_congr decide_eq_true_iff

/-- The row that comes first stays first. -/
theorem firstRow_append {rows : List TaskReschedule} {tryNumber : Int} {row : TaskReschedule}
    (h : firstRow rows tryNumber = some row) (later : List TaskReschedule) :
    firstRow (rows ++ later) tryNumber = some row := by
  rw [firstRow, List.find?_append, show rows.find? _ = some row from h, Option.some_or]

theorem firstRow_append_singleton {rows : List TaskReschedule} {row : TaskReschedule}
    (h : firstRow rows row.tryNumber = none) : firstRow (rows ++ [row]) row.tryNumber = some row := by
  rw [firstRow, List.find?_append, show rows.find? _ = none from h, Option.none_or]
  exact List.find?_cons_of_pos (decide_eq_true rfl)

/-- Clearing leaves no row of the try that comes next. -/
theorem firstRow_filter (rows : List TaskReschedule) (tryNumber : Int) :
    firstRow (rows.filter (·.tryNumber ≠ tryNumber)) tryNumber = none := by
  rw [firstRow_eq_none]
  intro row hrow
  exact of_decide_eq_true (List.mem_filter.mp hrow).2

theorem startedAt_of_row {maxTries : Int} {rows : List TaskReschedule} {row : TaskReschedule}
    (hmode : sensor.reschedule = true)
    (h : firstRow rows (sensor.firstTryNumber maxTries) = some row) (now : ℚ) :
    sensor.startedAt maxTries rows now = row.startDate := by
  unfold firstRow at h
  unfold BaseSensorOperator.startedAt
  rw [if_pos hmode, h]
  rfl

theorem startedAt_of_no_row {maxTries : Int} {rows : List TaskReschedule}
    (h : firstRow rows (sensor.firstTryNumber maxTries) = none) (now : ℚ) :
    sensor.startedAt maxTries rows now = now := by
  unfold firstRow at h
  unfold BaseSensorOperator.startedAt
  rw [h]
  exact ite_self now

/-! ## The end of an execution -/

section
variable (sensor : BaseSensorOperator) (s : State) (e : Execution) (result : Result)

theorem finish_execution : (s.finish sensor e result).execution = none := by
  cases result with
  | returns xcomValue => rfl
  | raises exception => cases exception <;> rfl

theorem finish_executions : (s.finish sensor e result).executions = s.executions := by
  cases result with
  | returns xcomValue => rfl
  | raises exception => cases exception <;> rfl

theorem finish_now : (s.finish sensor e result).now = s.now := by
  cases result with
  | returns xcomValue => rfl
  | raises exception => cases exception <;> rfl

theorem finish_ended : (s.finish sensor e result).ended = s.ended ++ [(e, result)] := by
  cases result with
  | returns xcomValue => rfl
  | raises exception => cases exception <;> rfl

theorem handleFailure_maxTries (ti : Attempts.TaskInstance) (task : Option Attempts.Task)
    (forceFail : Bool) : (ti.handleFailure task forceFail).maxTries = ti.maxTries := by
  unfold Attempts.TaskInstance.handleFailure
  dsimp only
  split <;> rfl

theorem handleFailure_state (ti : Attempts.TaskInstance) (task : Option Attempts.Task)
    (forceFail : Bool) : (ti.handleFailure task forceFail).state ≠ some .running := by
  unfold Attempts.TaskInstance.handleFailure
  dsimp only
  split
  · intro h
    cases h
  · intro h
    cases h

theorem runRawTask_maxTries (ti : Attempts.TaskInstance) (task : Attempts.Task)
    (outcome : Outcome) : (ti.runRawTask task outcome).maxTries = ti.maxTries := by
  cases outcome with
  | raises airflowException =>
    unfold runRawTask
    dsimp only
    split
    · rfl
    · exact handleFailure_maxTries ti _ _
  | _ => rfl

theorem runRawTask_state {ti : Attempts.TaskInstance} (task : Attempts.Task) (outcome : Outcome)
    (h : ti.state = some .running) : (ti.runRawTask task outcome).state ≠ some .running := by
  cases outcome with
  | raises airflowException =>
    rw [Attempts.runRawTask_raises h]
    exact handleFailure_state ti _ _
  | _ =>
    intro h'
    cases h'

theorem finish_maxTries : (s.finish sensor e result).ti.maxTries = s.ti.maxTries := by
  cases result with
  | returns xcomValue => exact runRawTask_maxTries s.ti _ _
  | raises exception =>
    cases exception with
    | airflowSensorTimeout message => exact handleFailure_maxTries s.ti _ _
    | airflowFailException message => exact handleFailure_maxTries s.ti _ _
    | airflowRescheduleException date => rfl
    | _ => exact runRawTask_maxTries s.ti _ _

theorem finish_state (h : s.ti.state = some .running) :
    (s.finish sensor e result).ti.state ≠ some .running := by
  cases result with
  | returns xcomValue => exact runRawTask_state _ _ h
  | raises exception =>
    cases exception with
    | airflowSensorTimeout message => exact handleFailure_state s.ti _ _
    | airflowFailException message => exact handleFailure_state s.ti _ _
    | airflowRescheduleException date =>
      intro h'
      cases h'
    | _ => exact runRawTask_state _ _ h

/-- Only a reschedule adds a row. -/
theorem finish_rows : (s.finish sensor e result).rows = s.rows ∨
    ∃ date, result = .raises (.airflowRescheduleException date) ∧
      (s.finish sensor e result).rows = s.rows ++ [rescheduleRow s.ti e date] := by
  cases result with
  | returns xcomValue => exact .inl rfl
  | raises exception =>
    cases exception with
    | airflowRescheduleException date => exact .inr ⟨date, rfl, rfl⟩
    | _ => exact .inl rfl

end

/-! ## The invariant -/

/-- What holds while clearing finds no execution and later executions start only after the first one
has rescheduled. -/
structure Inv (sensor : BaseSensorOperator) (s : State) : Prop where
  running : s.execution.isSome = true ↔ s.ti.state = some .running
  execution_mem : ∀ {e}, s.execution = some e → e ∈ s.executions
  dates : ∀ e ∈ s.executions, e.actualStartDate ≤ e.pokeDate ∧ e.pokeDate ≤ s.now
  endedDates : ∀ x ∈ s.ended, x.1.pokeDate ≤ s.now
  /-- Before the first execution the first try is the next one, and it has no row. -/
  fresh : s.executions = [] → s.execution = none ∧
    s.ti._tryNumber + 1 = sensor.firstTryNumber s.ti.maxTries ∧
    firstRow s.rows (sensor.firstTryNumber s.ti.maxTries) = none
  /-- Once the first execution has rescheduled, its row is the first one of the first try. -/
  rescheduled : ∀ first, s.executions.head? = some first → s.Rescheduled first →
    ∃ row, firstRow s.rows (sensor.firstTryNumber s.ti.maxTries) = some row ∧
      row.startDate = first.actualStartDate
  /-- Until then there is no row, and only the first execution goes on. -/
  waiting : ∀ first, s.executions.head? = some first → ¬s.Rescheduled first →
    firstRow s.rows (sensor.firstTryNumber s.ti.maxTries) = none ∧
      ∀ e, s.execution = some e →
        e = first ∧ s.ti._tryNumber = sensor.firstTryNumber s.ti.maxTries
  startedAt : ∀ e first, s.execution = some e → s.executions.head? = some first →
    e.startedAt = first.actualStartDate ∨ e.startedAt = first.pokeDate

theorem inv_init (sensor : BaseSensorOperator) (now : ℚ) : Inv sensor (.init sensor now) where
  running := ⟨fun h => (by cases h), fun h => (by cases h)⟩
  execution_mem he := by cases he
  dates _ he := absurd he List.not_mem_nil
  endedDates _ hx := absurd hx List.not_mem_nil
  fresh _ := by
    refine ⟨rfl, ?_, rfl⟩
    change (0 : Int) + 1 = (sensor.retries : Int) - sensor.retries + 1
    omega
  rescheduled _ hfirst _ := by cases hfirst
  waiting _ hfirst _ := by cases hfirst
  startedAt _ _ he _ := by cases he

variable {s : State}

/-- An execution that goes on is as it should be. -/
theorem Inv.timesOutFromFirst (h : Inv sensor s) :
    s.TimesOutFromFirst sensor mysql runHash :=
  fun e first he hfirst => measuresFrom (h.dates first (List.mem_of_mem_head? hfirst)).1
    (h.startedAt e first he hfirst)

/-- The instance changes its state, without being executed before or after. -/
theorem Inv.setState (h : Inv sensor s) (hnot : s.ti.state ≠ some .running) {state : TIState}
    (hstate : state ≠ some .running) :
    Inv sensor { s with ti := { s.ti with state } } where
  __ := h
  running := by
    have hnone : ¬s.execution.isSome = true := fun hsome => hnot (h.running.mp hsome)
    exact ⟨fun hsome => absurd hsome hnone, fun hrun => absurd hrun hstate⟩

theorem not_running_of_isRunnable {state : TIState} (h : State.isRunnable state = true) :
    state ≠ some .running := by
  rintro rfl
  cases h

theorem not_running_of_isScheduleable {state : TIState} (h : State.isScheduleable state = true) :
    state ≠ some .running := by
  rintro rfl
  cases h

theorem rescheduled_finish {e first : Execution} {result : Result} :
    (s.finish sensor e result).Rescheduled first ↔
      s.Rescheduled first ∨ ∃ date, first = e ∧ result = .raises (.airflowRescheduleException date) := by
  unfold State.Rescheduled
  rw [finish_ended]
  constructor
  · rintro ⟨date, hmem⟩
    rcases List.mem_append.mp hmem with hmem | hmem
    · exact .inl ⟨date, hmem⟩
    · obtain ⟨hfirst, hresult⟩ := Prod.mk.inj (List.mem_singleton.mp hmem)
      exact .inr ⟨date, hfirst, hresult.symm⟩
  · rintro (⟨date, hmem⟩ | ⟨date, hfirst, hresult⟩)
    · exact ⟨date, List.mem_append_left _ hmem⟩
    · rw [hfirst, hresult]
      exact ⟨date, List.mem_append_right _ (List.mem_singleton_self _)⟩

/-- An execution ends. -/
theorem Inv.finish (h : Inv sensor s) {e : Execution} (he : s.execution = some e)
    (result : Result) : Inv sensor (s.finish sensor e result) := by
  have hrun : s.ti.state = some .running := h.running.mp (by rw [he]; rfl)
  have hne : s.executions ≠ [] := by
    intro hnil
    have hnone := (h.fresh hnil).1
    rw [he] at hnone
    cases hnone
  constructor
  case running =>
    rw [finish_execution]
    exact ⟨fun hsome => (by cases hsome),
      fun hstate => absurd hstate (finish_state sensor s e result hrun)⟩
  case execution_mem =>
    rw [finish_execution]
    exact fun he => by cases he
  case dates =>
    rw [finish_executions, finish_now]
    exact h.dates
  case endedDates =>
    rw [finish_ended, finish_now]
    intro x hx
    rcases List.mem_append.mp hx with hx | hx
    · exact h.endedDates x hx
    · rw [List.mem_singleton.mp hx]
      exact (h.dates e (h.execution_mem he)).2
  case fresh =>
    rw [finish_executions]
    exact fun hnil => absurd hnil (List.ne_nil_of_mem (h.execution_mem he))
  case rescheduled =>
    rw [finish_executions, finish_maxTries]
    intro first hfirst hresch
    by_cases hold : s.Rescheduled first
    · -- the row that comes first stays first
      obtain ⟨row, hrow, hdate⟩ := h.rescheduled first hfirst hold
      refine ⟨row, ?_, hdate⟩
      rcases finish_rows sensor s e result with hrows | ⟨date, -, hrows⟩
      · rwa [hrows]
      · rw [hrows]
        exact firstRow_append hrow _
    · -- the first execution adds the first row
      obtain ⟨hnone, hcurrent⟩ := h.waiting first hfirst hold
      obtain ⟨rfl, htry⟩ := hcurrent e he
      rcases rescheduled_finish.mp hresch with hresch | ⟨date, -, rfl⟩
      · exact absurd hresch hold
      · refine ⟨rescheduleRow s.ti e date, ?_, rfl⟩
        rw [← htry] at hnone ⊢
        exact firstRow_append_singleton hnone
  case waiting =>
    rw [finish_executions, finish_maxTries, finish_execution]
    intro first hfirst hresch
    have hold : ¬s.Rescheduled first := fun hold => hresch (rescheduled_finish.mpr (.inl hold))
    obtain ⟨hnone, hcurrent⟩ := h.waiting first hfirst hold
    refine ⟨?_, fun e he => by cases he⟩
    rcases finish_rows sensor s e result with hrows | ⟨date, hdate, -⟩
    · rwa [hrows]
    · exact absurd (rescheduled_finish.mpr (.inr ⟨date, (hcurrent e he).1.symm, hdate⟩)) hresch
  case startedAt =>
    rw [finish_execution]
    exact fun e first he => by cases he

/-! ## Starting an execution -/

section
variable (sensor : BaseSensorOperator) (s : State) (after : { t : ℚ // 0 < t })
  (setup : { t : ℚ // 0 ≤ t })

/-- What a start leads to. -/
def started : State :=
  { s with
    ti := { s.ti with _tryNumber := s.ti._tryNumber + 1, state := some .running }
    execution := some (s.start sensor after setup)
    now := (s.start sensor after setup).pokeDate
    executions := s.executions ++ [s.start sensor after setup] }

theorem start_dates : s.now < (s.start sensor after setup).actualStartDate ∧
    (s.start sensor after setup).actualStartDate ≤ (s.start sensor after setup).pokeDate :=
  ⟨lt_add_of_pos_right _ after.2, le_add_of_nonneg_right setup.2⟩

end

variable {after : { t : ℚ // 0 < t }} {setup : { t : ℚ // 0 ≤ t }}

theorem Inv.execution_eq_none (h : Inv sensor s) (hnot : s.ti.state ≠ some .running) :
    s.execution = none := by
  cases he : s.execution with
  | none => rfl
  | some e => exact absurd (h.running.mp (by rw [he]; rfl)) hnot

/-- The first execution is the one that is started, if there was none. -/
theorem head?_append_singleton {es : List Execution} {e first : Execution}
    (h : (es ++ [e]).head? = some first) : es = [] ∧ first = e ∨ es.head? = some first := by
  cases es with
  | nil => exact .inl ⟨rfl, (Option.some.inj h).symm⟩
  | cons first' es => exact .inr h

/-- Without a row of the first try an execution measures from its own start. -/
theorem start_startedAt (hrow : firstRow s.rows (sensor.firstTryNumber s.ti.maxTries) = none) :
    (s.start sensor after setup).startedAt = (s.start sensor after setup).pokeDate :=
  startedAt_of_no_row hrow _

/-- The first execution, or one after the first has rescheduled, is started. -/
theorem Inv.started (h : Inv sensor s) (hmode : sensor.reschedule = true)
    (hok : ∀ first, s.executions.head? = some first → s.Rescheduled first) :
    Inv sensor (started sensor s after setup) := by
  obtain ⟨hlt, hle⟩ := start_dates sensor s after setup
  have hnow : s.now ≤ (s.start sensor after setup).pokeDate := (hlt.trans_le hle).le
  have hnew : ¬s.Rescheduled (s.start sensor after setup) := by
    rintro ⟨date, hmem⟩
    exact absurd (h.endedDates _ hmem) (not_le.mpr (hlt.trans_le hle))
  constructor
  case running => exact ⟨fun _ => rfl, fun _ => rfl⟩
  case execution_mem =>
    intro e he
    obtain rfl := Option.some.inj he
    exact List.mem_append_right _ (List.mem_singleton_self _)
  case dates =>
    intro e he
    rcases List.mem_append.mp he with he | he
    · exact ⟨(h.dates e he).1, (h.dates e he).2.trans hnow⟩
    · rw [List.mem_singleton.mp he]
      exact ⟨hle, le_rfl⟩
  case endedDates => exact fun x hx => (h.endedDates x hx).trans hnow
  case fresh => exact fun hnil => absurd hnil (List.append_ne_nil_of_right_ne_nil _ (by simp))
  case rescheduled =>
    intro first hfirst hresch
    rcases head?_append_singleton hfirst with ⟨-, rfl⟩ | hfirst
    · exact absurd hresch hnew
    · exact h.rescheduled first hfirst hresch
  case waiting =>
    intro first hfirst hresch
    rcases head?_append_singleton hfirst with ⟨hnil, rfl⟩ | hfirst
    · obtain ⟨-, htry, hrow⟩ := h.fresh hnil
      exact ⟨hrow, fun e he => ⟨(Option.some.inj he).symm, htry⟩⟩
    · exact absurd (hok first hfirst) hresch
  case startedAt =>
    intro e first he hfirst
    obtain rfl := Option.some.inj he
    rcases head?_append_singleton hfirst with ⟨hnil, rfl⟩ | hfirst
    · exact .inr (start_startedAt (h.fresh hnil).2.2)
    · obtain ⟨row, hrow, hdate⟩ := h.rescheduled first hfirst (hok first hfirst)
      exact .inl ((startedAt_of_row hmode hrow _).trans hdate)

/-- A later execution that is started before the first one has rescheduled measures from its own
start. -/
theorem Inv.started_late (h : Inv sensor s) {first : Execution}
    (hfirst : s.executions.head? = some first) (hresch : ¬s.Rescheduled first) :
    ¬(Sensors.started sensor s after setup).TimesOutFromFirst sensor mysql runHash := by
  intro hall
  obtain ⟨hlt, hle⟩ := start_dates sensor s after setup
  have hhead : (s.executions ++ [s.start sensor after setup]).head? = some first := by
    rw [List.head?_append, hfirst, Option.some_or]
  have hstart := (hall _ first rfl hhead).startedAt
  rw [start_startedAt (h.waiting first hfirst hresch).1] at hstart
  obtain ⟨hdates, hnow⟩ := h.dates first (List.mem_of_mem_head? hfirst)
  rcases hstart with hstart | hstart <;> linarith

/-! ## Clearing -/

/-- What clearing leaves of an instance that is not executed. -/
def cleared (sensor : BaseSensorOperator) (s : State) : State :=
  { s with
    ti :=
      { s.ti with
        maxTries := s.ti._tryNumber + 1 + sensor.retries - 1
        state := none
        nextMethod := none }
    rows := s.rows.filter (·.tryNumber ≠ s.ti._tryNumber + 1)
    executions := [] }

theorem step_clear (hnot : s.ti.state ≠ some .running) (hasJob : Bool) :
    step sensor mysql runHash s (.clear hasJob) = cleared sensor s := by
  have hti : s.ti.clearTaskInstance (some sensor.task) hasJob = (cleared sensor s).ti := by
    unfold clearTaskInstance
    rw [if_neg hnot, Attempts.tryNumber_not_running hnot]
    rfl
  unfold step
  dsimp only
  rw [hti]
  rfl

/-- Clearing an instance that is not executed begins anew. -/
theorem Inv.cleared (h : Inv sensor s) (hidle : s.execution = none) :
    Inv sensor (cleared sensor s) := by
  have hfirst : sensor.firstTryNumber (s.ti._tryNumber + 1 + sensor.retries - 1) =
      s.ti._tryNumber + 1 := by
    unfold BaseSensorOperator.firstTryNumber
    omega
  constructor
  case running =>
    refine ⟨fun hsome => ?_, fun hrun => by cases hrun⟩
    rw [show (Sensors.cleared sensor s).execution = none from hidle] at hsome
    cases hsome
  case execution_mem =>
    intro e he
    rw [show (Sensors.cleared sensor s).execution = none from hidle] at he
    cases he
  case dates => exact fun e he => absurd he List.not_mem_nil
  case endedDates => exact h.endedDates
  case fresh =>
    refine fun _ => ⟨hidle, hfirst.symm, ?_⟩
    change firstRow _ (sensor.firstTryNumber (s.ti._tryNumber + 1 + sensor.retries - 1)) = none
    rw [hfirst]
    exact firstRow_filter s.rows _
  case rescheduled => exact fun first hfirst => by cases hfirst
  case waiting => exact fun first hfirst => by cases hfirst
  case startedAt => exact fun e first _ hfirst => by cases hfirst

/-! ## Steps -/

/-- The instance runs now, or it stays or is to be scheduled again. -/
theorem checkAndChangeState_cases (ti : Attempts.TaskInstance) (nonRequeueable requeueable : Bool) :
    ti.state ≠ some .running ∧
        (ti.checkAndChangeStateBeforeExecution nonRequeueable requeueable =
            ({ ti with _tryNumber := ti._tryNumber + 1, state := some .running }, true) ∨
          ti.checkAndChangeStateBeforeExecution nonRequeueable requeueable =
            ({ ti with state := none }, false)) ∨
      ti.checkAndChangeStateBeforeExecution nonRequeueable requeueable = (ti, false) := by
  unfold checkAndChangeStateBeforeExecution
  cases hrunnable : State.isRunnable ti.state && nonRequeueable with
  | true =>
    refine .inl ⟨not_running_of_isRunnable (Bool.and_eq_true_iff.mp hrunnable).1, ?_⟩
    cases requeueable with
    | true => exact .inl rfl
    | false => exact .inr rfl
  | false => exact .inr rfl

/-- What a start does. -/
theorem step_start_cases (nonRequeueable requeueable : Bool) :
    (s.ti.checkAndChangeStateBeforeExecution nonRequeueable requeueable).2 = true ∧
        step sensor mysql runHash s (.start nonRequeueable requeueable after setup) =
          started sensor s after setup ∨
      (s.ti.checkAndChangeStateBeforeExecution nonRequeueable requeueable).2 = false ∧
        (step sensor mysql runHash s (.start nonRequeueable requeueable after setup) = s ∨
          s.ti.state ≠ some .running ∧
            step sensor mysql runHash s (.start nonRequeueable requeueable after setup) =
              { s with ti := { s.ti with state := none } }) := by
  unfold step
  dsimp only
  rcases checkAndChangeState_cases s.ti nonRequeueable requeueable with ⟨hnot, h | h⟩ | h
  · rw [h]
    exact .inl ⟨rfl, rfl⟩
  · rw [h]
    exact .inr ⟨rfl, .inr ⟨hnot, rfl⟩⟩
  · rw [h]
    exact .inr ⟨rfl, .inl rfl⟩

/-- What a poke that ends the execution does. -/
theorem step_poke {e : Execution} {poke : Poke} {clock : Clock} {result : Result}
    (he : s.execution = some e) (hresult : e.result sensor mysql runHash poke clock = some result) :
    step sensor mysql runHash s (.poke poke clock) = s.finish sensor e result := by
  unfold step
  rw [he]
  dsimp only
  rw [hresult]

/-- A step keeps the invariant, when clearing finds no execution and a later execution starts only
after the first one has rescheduled. -/
theorem Inv.step (hmode : sensor.reschedule = true) (h : Inv sensor s) {event : Event}
    (hclear : ClearsIdle s event) (hok : StartsAfterReschedule s event) :
    Inv sensor (step sensor mysql runHash s event) := by
  cases event with
  | schedule =>
    unfold Sensors.step
    dsimp only
    split_ifs with hstate
    · exact h.setState (not_running_of_isScheduleable hstate) (by decide)
    · exact h
  | queue =>
    unfold Sensors.step
    dsimp only
    split_ifs with hstate
    · exact h.setState (by rw [hstate]; decide) (by decide)
    · exact h
  | start nonRequeueable requeueable after setup =>
    rcases step_start_cases nonRequeueable requeueable with
      ⟨hruns, hstep⟩ | ⟨-, hstep | ⟨hnot, hstep⟩⟩
    · rw [hstep]
      exact h.started hmode (hok hruns)
    · rwa [hstep]
    · rw [hstep]
      exact h.setState hnot (by decide)
  | poke poke clock =>
    cases he : s.execution with
    | none =>
      unfold Sensors.step
      rw [he]
      exact h
    | some e =>
      unfold Sensors.step
      rw [he]
      dsimp only
      cases e.result sensor mysql runHash poke clock with
      | none => exact h
      | some result => exact h.finish he result
  | clear hasJob =>
    have hnot : s.ti.state ≠ some .running := by
      intro hrun
      have hsome := h.running.mpr hrun
      rw [show s.execution = none from hclear] at hsome
      cases hsome
    rw [step_clear hnot]
    exact h.cleared hclear

/-- A later execution that starts too soon is not as it should be. -/
theorem Inv.step_late (h : Inv sensor s) {event : Event} (hbad : ¬StartsAfterReschedule s event) :
    ¬(Sensors.step sensor mysql runHash s event).TimesOutFromFirst sensor mysql runHash := by
  cases event with
  | start nonRequeueable requeueable after setup =>
    obtain ⟨hruns, hbad⟩ := Classical.not_imp.mp hbad
    obtain ⟨first, hbad⟩ := not_forall.mp hbad
    obtain ⟨hfirst, hresch⟩ := Classical.not_imp.mp hbad
    rcases step_start_cases nonRequeueable requeueable with ⟨-, hstep⟩ | ⟨hnot, -⟩
    · rw [hstep]
      exact h.started_late hfirst hresch
    · rw [hruns] at hnot
      cases hnot
  | _ => exact absurd trivial hbad

/-- **A rescheduling sensor times out from its first poke exactly when no later execution starts
before the first one has rescheduled**, in every run in which clearing finds no execution. -/
theorem timesOutFromFirst_iff (hmode : sensor.reschedule = true) (now : ℚ) {events : List Event}
    (hclear : AllSteps (step sensor mysql runHash) ClearsIdle (.init sensor now) events) :
    (∀ t ∈ states (step sensor mysql runHash) (.init sensor now) events,
        t.TimesOutFromFirst sensor mysql runHash) ↔
      AllSteps (step sensor mysql runHash) StartsAfterReschedule (.init sensor now) events :=
  exact_condition_under (fun _ hi => hi.timesOutFromFirst)
    (fun _ _ hi hclear hok => hi.step hmode hclear hok)
    (fun _ _ hi _ hbad => hi.step_late hbad) (inv_init sensor now) hclear

/-! ### Fixed runs -/

/-- A sensor with one retry that may wait for an hour. -/
def hourSensor : BaseSensorOperator where
  retries := 1
  pokeInterval := 60
  timeout := 3600
  reschedule := true
  pokeInterval_nonneg := by decide
  timeout_nonneg := by decide

def oneSecond : { t : ℚ // 0 < t } := ⟨1, by decide⟩

def noTime : { t : ℚ // 0 ≤ t } := ⟨0, by decide⟩

def clockAt (t : ℚ) : Clock := ⟨t, t, t, t⟩

/-- Scheduled, queued, started and poked. -/
def attempt (after : { t : ℚ // 0 < t }) (poke : Poke) (clock : Clock) : List Event :=
  [.schedule, .queue, .start true true after noTime, .poke poke clock]

/-- The run of the sensor. -/
def hourRun (events : List Event) : List State :=
  states (step hourSensor false fun _ _ => 0) (.init hourSensor 0) events

def reschedulesFirst : List Event :=
  attempt oneSecond (.returns false none) (clockAt 1) ++
    attempt oneSecond (.raises (.other false)) (clockAt 2) ++
      attempt oneSecond (.returns false none) (clockAt 5000) ++ [.clear false]

theorem timesOut_reschedulesFirst :
    (hourRun reschedulesFirst).length = 14 ∧
      ∀ t ∈ hourRun reschedulesFirst, t.TimesOutFromFirst hourSensor false fun _ _ => 0 :=
  ⟨rfl, (timesOutFromFirst_iff rfl 0 (by decide +kernel)).mpr (by decide +kernel)⟩

/-- The first attempt raises at its first poke; the second one goes on after the timeout. -/
def failsFirst : List Event :=
  attempt oneSecond (.raises (.other false)) (clockAt 1) ++
    attempt ⟨5000, by decide⟩ (.returns false none) (clockAt 5001)

theorem failsFirst_not_timesOut :
    (hourRun failsFirst).getLast?.map
        (fun t => t.ended.map fun x => (x.1.actualStartDate, x.1.startedAt, x.2)) =
      some [(1, 1, .raises (.other false)),
        (5001, 5001, .raises (.airflowRescheduleException 5061))] ∧
      ¬∀ t ∈ hourRun failsFirst, t.TimesOutFromFirst hourSensor false fun _ _ => 0 := by
  refine ⟨by decide +kernel, fun h => ?_⟩
  have hsecond : ∃ t ∈ hourRun failsFirst, t.execution.map (·.startedAt) = some 5001 ∧
      t.executions.head?.map (fun e => (e.actualStartDate, e.pokeDate)) = some (1, 1) := by
    decide +kernel
  obtain ⟨t, ht, he, hfirst⟩ := hsecond
  obtain ⟨e, he, hstart⟩ := Option.map_eq_some_iff.mp he
  obtain ⟨first, hfirst, hdates⟩ := Option.map_eq_some_iff.mp hfirst
  obtain ⟨hactual, hpoke⟩ := Prod.mk.inj hdates
  have hfrom := (h t ht e first he hfirst).startedAt
  rw [hstart, hactual, hpoke] at hfrom
  rcases hfrom with hfrom | hfrom
  · exact absurd hfrom (by decide)
  · exact absurd hfrom (by decide)

end Airflow.Sensors
