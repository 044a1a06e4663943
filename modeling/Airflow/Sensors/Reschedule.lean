import Airflow.Lib.Transition
import Airflow.Sensors.Base
import Airflow.TaskInstance.Retries

/-!
# A rescheduling sensor and its task instance

What happens to the task instance of a sensor in reschedule mode: it is scheduled, queued and
started, a poke ends its execution (`_run_raw_task`, `_handle_reschedule` and `handle_failure` of
`airflow/models/taskinstance.py`), and it is cleared. The rows of `task_reschedule` are in the
order of their ids.
-/

namespace Airflow.Sensors

/-! ## The state -/

/-- An execution. -/
structure Execution where
  /-- `actual_start_date` of `_run_raw_task`. -/
  actualStartDate : ℚ
  /-- What the clock shows when `execute` starts, right before the poke. -/
  pokeDate : ℚ
  /-- The date from which `execute` measures `run_duration`. -/
  startedAt : ℚ
  deriving DecidableEq

/-- The task instance, its rows and the process that executes it. `executions` are the executions
that were started since the instance was created or last cleared and `ended` are the executions that
ended, with their results; no step reads these two. -/
structure State where
  ti : Attempts.TaskInstance
  rows : List TaskReschedule := []
  execution : Option Execution := none
  /-- The clock at the last poke of a started execution. -/
  now : ℚ
  executions : List Execution := []
  ended : List (Execution × Result) := []

/-- What happens. A start comes with the time since the last poke of a started execution and the
time until its own. -/
inductive Event where
  | schedule
  | queue
  | start (nonRequeueable requeueable : Bool) (after : { t : ℚ // 0 < t })
    (setup : { t : ℚ // 0 ≤ t })
  | poke (poke : Poke) (clock : Clock)
  | clear (hasJob : Bool)

/-! ## The steps -/

section
variable (sensor : BaseSensorOperator) (mysql : Bool) (runHash : ℚ → Int → Nat)

/-- What a task instance reads of the sensor. -/
def BaseSensorOperator.task : Attempts.Task := { retries := sensor.retries }

/-- The instance is created. -/
def State.init (now : ℚ) : State := { ti := Attempts.insertMapping sensor.task, now }

/-- `_run_raw_task`, up to the poke. -/
def State.start (s : State) (after : { t : ℚ // 0 < t }) (setup : { t : ℚ // 0 ≤ t }) :
    Execution where
  actualStartDate := s.now + after
  pokeDate := s.now + after + setup
  startedAt := sensor.startedAt s.ti.maxTries s.rows (s.now + after + setup)

/-- The row that `_handle_reschedule` adds. -/
def rescheduleRow (ti : Attempts.TaskInstance) (e : Execution) (rescheduleDate : ℚ) :
    TaskReschedule where
  tryNumber := ti._tryNumber
  startDate := e.actualStartDate
  rescheduleDate

/-- What `_run_raw_task` does with the result of `execute`. -/
def State.finish (s : State) (e : Execution) (result : Result) : State :=
  let s := { s with execution := none, ended := s.ended ++ [(e, result)] }
  match result with
  | .returns _ => { s with ti := s.ti.runRawTask sensor.task .returns }
  | .raises (.airflowSkipException _) => { s with ti := s.ti.runRawTask sensor.task .skips }
  | .raises (.airflowRescheduleException date) =>
    { s with ti := s.ti.handleReschedule, rows := s.rows ++ [rescheduleRow s.ti e date] }
  | .raises (.airflowFailException _) | .raises (.airflowSensorTimeout _) =>
    { s with ti := s.ti.handleFailure (some sensor.task) true }
  | .raises (.airflowTaskTimeout _) =>
    { s with ti := s.ti.runRawTask sensor.task (.raises true) }
  | .raises (.other airflowException) =>
    { s with ti := s.ti.runRawTask sensor.task (.raises airflowException) }

/-- What the execution comes to with the poke. -/
def Execution.result (e : Execution) (poke : Poke) (clock : Clock) : Option Result :=
  (sensor.executeLoop mysql runHash e.startedAt 1 [(poke, clock)]).2

/-- One step. -/
def step (s : State) : Event → State
  | .schedule =>
    if State.isScheduleable s.ti.state then { s with ti := { s.ti with state := some .scheduled } }
    else s
  | .queue =>
    if s.ti.state = some .scheduled then { s with ti := { s.ti with state := some .queued } }
    else s
  | .start nonRequeueable requeueable after setup =>
    let (ti, runs) := s.ti.checkAndChangeStateBeforeExecution nonRequeueable requeueable
    let s := { s with ti }
    if runs then
      let e := s.start sensor after setup
      { s with execution := some e, now := e.pokeDate, executions := s.executions ++ [e] }
    else s
  | .poke poke clock =>
    match s.execution with
    | none => s
    | some e =>
      match e.result sensor mysql runHash poke clock with
      | none => s
      | some result => s.finish sensor e result
  | .clear hasJob =>
    let ti := s.ti.clearTaskInstance (some sensor.task) hasJob
    { s with
      ti
      rows := s.rows.filter (·.tryNumber ≠ ti.tryNumber)
      executions := [] }

/-! ## Timing out from the first poke -/

/-- The execution measures from the first one since the instance was created or cleared, and gives
up when its poke comes to nothing later than the timeout after the first poke. -/
structure MeasuresFrom (first e : Execution) : Prop where
  startedAt : e.startedAt = first.actualStartDate ∨ e.startedAt = first.pokeDate
  timesOut : ∀ poke clock, sensor.isFalse poke = true →
    sensor.timeout < clock.compared - first.pokeDate →
      ∃ message, e.result sensor mysql runHash poke clock =
        some (.raises (if sensor.softFail then .airflowSkipException message
          else .airflowSensorTimeout message))

/-- The execution that goes on in a state is as it should be. -/
def State.TimesOutFromFirst (s : State) : Prop :=
  ∀ e first, s.execution = some e → s.executions.head? = some first →
    MeasuresFrom sensor mysql runHash first e

/-! ## The conditions -/

/-- The date to which a result reschedules. -/
def Result.rescheduleDate : Result → Option ℚ
  | .raises (.airflowRescheduleException date) => some date
  | _ => none

/-- The execution ended by rescheduling. -/
def State.Rescheduled (s : State) (e : Execution) : Prop :=
  ∃ date, (e, .raises (.airflowRescheduleException date)) ∈ s.ended

instance (s : State) (e : Execution) : Decidable (s.Rescheduled e) :=
  decidable_of_iff
    (∃ x ∈ s.ended, ∃ date ∈ x.2.rescheduleDate, (e, .raises (.airflowRescheduleException date)) = x)
    ⟨fun ⟨_, hx, date, _, heq⟩ => ⟨date, heq ▸ hx⟩, fun ⟨date, h⟩ => ⟨_, h, date, rfl, rfl⟩⟩

/-- Clearing finds no execution. -/
def ClearsIdle (s : State) : Event → Prop
  | .clear _ => s.execution = none
  | _ => True

instance (s : State) : (event : Event) → Decidable (ClearsIdle s event)
  | .clear _ => inferInstanceAs (Decidable (s.execution = none))
  | .schedule | .queue | .start .. | .poke .. => inferInstanceAs (Decidable True)

/-- A later execution is started only after the first one since the instance was created or cleared
has rescheduled it. -/
def StartsAfterReschedule (s : State) : Event → Prop
  | .start nonRequeueable requeueable _ _ =>
    (s.ti.checkAndChangeStateBeforeExecution nonRequeueable requeueable).2 = true →
      ∀ first ∈ s.executions.head?, s.Rescheduled first
  | _ => True

instance (s : State) : (event : Event) → Decidable (StartsAfterReschedule s event)
  | .start nonRequeueable requeueable _ _ =>
    inferInstanceAs (Decidable
      ((s.ti.checkAndChangeStateBeforeExecution nonRequeueable requeueable).2 = true →
        ∀ first ∈ s.executions.head?, s.Rescheduled first))
  | .schedule | .queue | .poke .. | .clear _ => inferInstanceAs (Decidable True)

end

end Airflow.Sensors
