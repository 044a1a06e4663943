import Airflow.Sensors.Reschedule
import Mathlib.Order.Bounds.Basic

/-!
# The waits between pokes

What a sensor waits after a number of pokes that come to nothing: in poke mode the pokes are
iterations of one execution, in reschedule mode each is an execution of its own, which the scheduler
starts when the one before has rescheduled it. The hash of the backoff is arbitrary, so that there
is a set of waits.
-/

namespace Airflow.Sensors

/-! ## In poke mode -/

section
variable (sensor : BaseSensorOperator) (mysql : Bool) (now : ℚ)

/-- The waits after the last of the pokes of one execution. -/
def pokeModeWaits (pokes : List (Poke × Clock)) : Set ℚ :=
  { w | ∃ runHash slept, sensor.execute mysql runHash sensor.retries [] now pokes = (slept, none) ∧
    slept.getLast? = some w }

/-! ## In reschedule mode -/

/-- An execution that is scheduled, queued, started and poked. -/
structure Round where
  after : { t : ℚ // 0 < t }
  setup : { t : ℚ // 0 ≤ t }
  poke : Poke
  clock : Clock

def Round.events (r : Round) : List Event :=
  [.schedule, .queue, .start true true r.after r.setup, .poke r.poke r.clock]

/-- The task instance after the rounds. -/
def rounds (runHash : ℚ → Int → Nat) (rs : List Round) : State :=
  (rs.flatMap Round.events).foldl (step sensor mysql runHash) (.init sensor now)

/-- The waits after the last of the rounds: from when the reschedule date is computed. -/
def rescheduleModeWaits (rs : List Round) : Set ℚ :=
  { w | ∃ runHash e date r, (rounds sensor mysql now runHash rs).ended.getLast? =
      some (e, .raises (.airflowRescheduleException date)) ∧ rs.getLast? = some r ∧
        date = r.clock.rescheduled + w }

end

/-! ## Pokes that come to nothing -/

/-- The sensor waits after the poke: it comes to nothing, in time, and the reschedule date is one
that the database can store. -/
structure WaitsAfter (sensor : BaseSensorOperator) (mysql : Bool) (startedAt : ℚ) (poke : Poke)
    (clock : Clock) : Prop where
  isFalse : sensor.isFalse poke = true
  inTime : clock.compared - startedAt ≤ sensor.timeout
  inLimit : sensor.reschedule = true → mysql = true → ∀ runHash,
    clock.rescheduled + sensor.getNextPokeInterval runHash (clock.waited - startedAt) 1 ≤
      mysqlTimestampMax

/-- The date from which the executions of the rounds measure: the first one from its poke and the
others from its start. -/
def measuredFrom (now : ℚ) : List Round → ℚ
  | [] => now
  | [r] => now + r.after + r.setup
  | r :: _ :: _ => now + r.after

/-- The sensor waits after every round. -/
def RoundsWait (sensor : BaseSensorOperator) (mysql : Bool) (now : ℚ) (rs : List Round) : Prop :=
  ∀ before r, before ++ [r] <+: rs →
    WaitsAfter sensor mysql (measuredFrom now (before ++ [r])) r.poke r.clock

/-- What `run_duration` gives when the wait after the last poke is computed. -/
def lastDuration (startedAt : ℚ) (clocks : List Clock) : ℚ :=
  (clocks.getLast?.map (·.waited - startedAt)).getD 0

/-! ## Bounds -/

/-- `min(timeout - int(run_duration), timedelta.max.total_seconds() - 1, max_wait)`. -/
def BaseSensorOperator.cap (sensor : BaseSensorOperator) (runDuration : ℚ) : ℚ :=
  let cap := min (sensor.timeout - truncate runDuration) (timedeltaMaxSeconds - 1)
  match sensor.maxWait with
  | none => cap
  | some maxWait => if maxWait = 0 then cap else min maxWait cap

/-- Two sets of waits have the same lower and upper bound. -/
structure SameBounds (A B : Set ℚ) : Prop where
  least : ∀ w, IsLeast A w ↔ IsLeast B w
  greatest : ∀ w, IsGreatest A w ↔ IsGreatest B w

/-- The lower bounds of the waits after `1` to `n` pokes do not decrease until a cap is reached. -/
def NonDecreasing (waits : Nat → Set ℚ) (cap : Nat → ℚ) (n : Nat) : Prop :=
  ∀ k m, 0 < k → k ≤ m → m ≤ n → ∀ w w', IsLeast (waits k) w → IsLeast (waits m) w' →
    w ≤ w' ∨ w' = cap m

/-- The same sensor in the other mode. -/
def BaseSensorOperator.inMode (sensor : BaseSensorOperator) (reschedule : Bool) :
    BaseSensorOperator := { sensor with reschedule }

/-- Poke mode and reschedule mode wait alike: after the last poke between the same bounds, and with
backoff no less after a later poke than after an earlier one. -/
structure WaitAlike (sensor : BaseSensorOperator) (mysql : Bool) (now now' : ℚ)
    (pokes : List (Poke × Clock)) (rs : List Round) : Prop where
  same : SameBounds (pokeModeWaits (sensor.inMode false) mysql now pokes)
    (rescheduleModeWaits (sensor.inMode true) mysql now' rs)
  poke : sensor.exponentialBackoff = true →
    NonDecreasing (fun k => pokeModeWaits (sensor.inMode false) mysql now (pokes.take k))
      (fun k => sensor.cap (lastDuration now ((pokes.take k).map (·.2)))) pokes.length
  reschedule : sensor.exponentialBackoff = true →
    NonDecreasing (fun k => rescheduleModeWaits (sensor.inMode true) mysql now' (rs.take k))
      (fun k => sensor.cap (lastDuration (measuredFrom now' (rs.take k))
        ((rs.take k).map (·.clock)))) rs.length

end Airflow.Sensors
