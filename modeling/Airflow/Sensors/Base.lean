import Mathlib.Algebra.Order.Floor.Ring
import Mathlib.Data.Rat.Floor

/-!
# Sensors

`execute` and `_get_next_poke_interval` of `airflow/sensors/base.py` in both modes. Dates, clocks
and durations are exact rationals, in seconds; what the clock shows each time that it is read is an
argument, and so is the hash of the backoff.
-/

namespace Airflow.Sensors

/-! ## The sensor -/

/-- The arguments of a sensor, as `_validate_input_values` leaves them. -/
structure BaseSensorOperator where
  logDagId : String := ""
  retries : Nat := 0
  pokeInterval : ℚ
  timeout : ℚ
  softFail : Bool := false
  /-- `mode == "reschedule"`. -/
  reschedule : Bool
  exponentialBackoff : Bool := false
  maxWait : Option ℚ := none
  silentFail : Bool := false
  pokeInterval_nonneg : 0 ≤ pokeInterval
  timeout_nonneg : 0 ≤ timeout

/-- What the messages of `execute` say. -/
inductive Message where
  /-- `"Sensor has timed out; run duration of … seconds exceeds the specified timeout of ….."`. -/
  | timedOut (runDuration timeout : ℚ)
  /-- `"Cannot reschedule DAG … to … since it is over MySQL's TIMESTAMP storage limit."`. -/
  | overTimestampLimit (logDagId : String) (rescheduleDate : ℚ)
  /-- `"Skipping due to soft_fail is set to True."`. -/
  | softFail
  /-- What `poke` says. -/
  | other (text : String)
  deriving DecidableEq

/-- The exceptions that a sensor tells apart; of the others, whether they are an
`AirflowException`. -/
inductive PyException where
  | airflowSensorTimeout (message : Message)
  | airflowTaskTimeout (message : Message)
  | airflowFailException (message : Message)
  | airflowSkipException (message : Message)
  | airflowRescheduleException (rescheduleDate : ℚ)
  | other (airflowException : Bool)
  deriving DecidableEq

/-- What `poke` does: a value, which is true or not and may carry an XCom, or an exception. -/
inductive Poke where
  | returns (isDone : Bool) (xcomValue : Option String)
  | raises (e : PyException)

/-- How `execute` ends. -/
inductive Result where
  | returns (xcomValue : Option String)
  | raises (e : PyException)
  deriving DecidableEq

/-- A row of `task_reschedule`, of one task instance. -/
structure TaskReschedule where
  tryNumber : Int
  startDate : ℚ
  rescheduleDate : ℚ

/-! ## The next interval -/

/-- `int(x)`. -/
def truncate (x : ℚ) : Int := if 0 ≤ x then ⌊x⌋ else ⌈x⌉

/-- `timedelta.max.total_seconds()`, a float. -/
def timedeltaMaxSeconds : ℚ := 86400000000000

/-- `_MYSQL_TIMESTAMP_MAX`, 2038-01-19 03:14:07 UTC, in seconds since the epoch. -/
def mysqlTimestampMax : ℚ := 2147483647

/-- What the clock shows in an iteration: when `run_duration` is compared with the timeout and when
it is put into the message, when the next interval is computed and when the reschedule date is. -/
structure Clock where
  compared : ℚ
  reported : ℚ
  waited : ℚ
  rescheduled : ℚ

namespace BaseSensorOperator

variable (sensor : BaseSensorOperator)

/-- `min_backoff`. -/
def minBackoff (tryNumber : Int) : Int :=
  max (truncate (sensor.pokeInterval * 2 ^ (tryNumber - 2))) 1

/-- `_get_next_poke_interval`; a `max_wait` of zero is none. -/
def getNextPokeInterval (runHash : Nat) (runDuration : ℚ) (tryNumber : Int) : ℚ :=
  if !sensor.exponentialBackoff then sensor.pokeInterval
  else
    let minBackoff := sensor.minBackoff tryNumber
    let moddedHash := minBackoff + runHash % minBackoff
    let delayBackoffInSeconds := min (moddedHash : ℚ) (timedeltaMaxSeconds - 1)
    let newInterval := min (sensor.timeout - truncate runDuration) delayBackoffInSeconds
    match sensor.maxWait with
    | none => newInterval
    | some maxWait => if maxWait = 0 then newInterval else min maxWait newInterval

/-! ## One poke -/

/-- What an exception of `poke` comes to: the result it ends the execution with, if it does. -/
def handlePokeException (e : PyException) : Option Result :=
  let soft := Result.raises (.airflowSkipException .softFail)
  match e with
  | .airflowSensorTimeout _ | .airflowTaskTimeout _ | .airflowFailException _ =>
    some (if sensor.softFail then soft else .raises e)
  | .airflowSkipException _ => some (.raises e)
  | .airflowRescheduleException _ | .other _ =>
    if sensor.silentFail then none else some (if sensor.softFail then soft else .raises e)

/-- Whether the sensor goes on after `poke`: it returned something false, or what it raised is only
logged. -/
def isFalse : Poke → Bool
  | .returns isDone _ => !isDone
  | .raises e => (sensor.handlePokeException e).isNone

/-- An iteration of the loop of `execute`, by the date from which `run_duration` is measured: the
result that ends it or the seconds to sleep. -/
def iteration (mysql : Bool) (runHash : Nat) (startedAt : ℚ) (tryNumber : Int) (poke : Poke)
    (clock : Clock) : Result ⊕ ℚ :=
  let runDuration (now : ℚ) := now - startedAt
  let goOn : Result ⊕ ℚ :=
    if runDuration clock.compared > sensor.timeout then
      let message := .timedOut (runDuration clock.reported) sensor.timeout
      .inl (.raises (if sensor.softFail then .airflowSkipException message
        else .airflowSensorTimeout message))
    else
      let nextPokeInterval :=
        sensor.getNextPokeInterval runHash (runDuration clock.waited) tryNumber
      if sensor.reschedule then
        let rescheduleDate := clock.rescheduled + nextPokeInterval
        if mysql && rescheduleDate > mysqlTimestampMax then
          .inl (.raises (.airflowSensorTimeout
            (.overTimestampLimit sensor.logDagId rescheduleDate)))
        else .inl (.raises (.airflowRescheduleException rescheduleDate))
      else .inr nextPokeInterval
  match poke with
  | .returns true xcomValue => .inl (.returns xcomValue)
  | .returns false _ => goOn
  | .raises e =>
    match sensor.handlePokeException e with
    | some result => .inl result
    | none => goOn

/-! ## The execution -/

/-- The `while` loop of `execute` over what the pokes do: the seconds slept in between, and the
result, if one of these pokes ends the execution. -/
def executeLoop (mysql : Bool) (runHash : ℚ → Int → Nat) (startedAt : ℚ) :
    (tryNumber : Int) → List (Poke × Clock) → List ℚ × Option Result
  | _, [] => ([], none)
  | tryNumber, (poke, clock) :: pokes =>
    match sensor.iteration mysql (runHash startedAt tryNumber) startedAt tryNumber poke clock with
    | .inl result => ([], some result)
    | .inr seconds =>
      let (slept, result) := executeLoop mysql runHash startedAt (tryNumber + 1) pokes
      (seconds :: slept, result)

/-- `first_try_number`. -/
def firstTryNumber (maxTries : Int) : Int := maxTries - sensor.retries + 1

/-- `started_at`: in reschedule mode the start date of the first row of the first try, in the order
of the ids. -/
def startedAt (maxTries : Int) (rows : List TaskReschedule) (now : ℚ) : ℚ :=
  if sensor.reschedule then
    ((rows.find? (·.tryNumber = sensor.firstTryNumber maxTries)).map (·.startDate)).getD now
  else now

/-- `execute`. -/
def execute (mysql : Bool) (runHash : ℚ → Int → Nat) (maxTries : Int) (rows : List TaskReschedule)
    (now : ℚ) (pokes : List (Poke × Clock)) : List ℚ × Option Result :=
  sensor.executeLoop mysql runHash (sensor.startedAt maxTries rows now) 1 pokes

end BaseSensorOperator

end Airflow.Sensors
