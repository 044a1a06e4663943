import Airflow.Timetables.Timetable

/-!
# The schedule of a serialized DAG

`encode_relativedelta`, `encode_timezone` and `_encode_timetable` of
`airflow/serialization/serialized_objects.py` with what decodes them, the `serialize` and
`deserialize` of the timetables, and the scheduling part of `SerializedDAG.serialize_dag` and
`deserialize_dag`. Numbers are exact.
-/

namespace Airflow.Timetables

/-! ## `relativedelta` -/

/-- The values of the fields of a `relativedelta` and of its encoding. -/
inductive FieldValue where
  | none
  | num (q : ℚ)
  | weekday (w : Weekday)
  | list (l : List Int)
deriving DecidableEq

namespace FieldValue

/-- `bool(v)`. -/
def truthy : FieldValue → Bool
  | .none => false
  | .num q => q ≠ 0
  | .weekday _ => true
  | .list l => l ≠ []

def ofOption : Option Int → FieldValue
  | Option.none => .none
  | some i => .num i

end FieldValue

/-- `__dict__` of a `relativedelta`. -/
def RelativeDelta.vars (d : RelativeDelta) : Dict String FieldValue where
  entries :=
    [("years", .num d.years), ("months", .num d.months), ("days", .num d.days),
      ("leapdays", .num d.leapdays), ("hours", .num d.hours), ("minutes", .num d.minutes),
      ("seconds", .num d.seconds), ("microseconds", .num d.microseconds),
      ("year", .ofOption d.year), ("month", .ofOption d.month), ("day", .ofOption d.day),
      ("hour", .ofOption d.hour), ("minute", .ofOption d.minute), ("second", .ofOption d.second),
      ("microsecond", .ofOption d.microsecond),
      ("weekday", d.weekday.elim .none .weekday),
      ("_has_time", .num (if d.hasTime then 1 else 0))]
  keys_nodup := by
    show List.Nodup ["years", "months", "days", "leapdays", "hours", "minutes", "seconds",
      "microseconds", "year", "month", "day", "hour", "minute", "second", "microsecond",
      "weekday", "_has_time"]
    decide

/-- `k.startswith("_")`. -/
def startsWithUnderscore (k : String) : Bool := k.toList.head? = some '_'

/-- The list that stands for a weekday. -/
def encodeWeekday (w : Weekday) : FieldValue :=
  match w.n with
  | some n => if n ≠ 0 then .list [w.weekday, n] else .list [w.weekday]
  | none => .list [w.weekday]

/-- `encode_relativedelta`. -/
def encodeRelativedelta (var : RelativeDelta) : Dict String FieldValue :=
  let encoded := var.vars.filter fun k v => !startsWithUnderscore k && v.truthy
  match var.weekday with
  | some w => encoded.set "weekday" (encodeWeekday w)
  | none => encoded

/-- `relativedelta.weekday(*args)`. -/
def weekdayOfArgs : FieldValue → Except PyError Weekday
  | .list [weekday] => .ok { weekday }
  | .list [weekday, n] =>
    if h : n ≠ 0 then .ok ⟨weekday, some n, by simpa using h⟩ else .error .valueError
  | _ => .error .typeError

/-- `var["weekday"] = relativedelta.weekday(*var["weekday"])`, if there is a weekday. -/
def decodeWeekday (var : Dict String FieldValue) : Except PyError (Dict String FieldValue) :=
  match var.get? "weekday" with
  | some args => (weekdayOfArgs args).map fun w => var.set "weekday" (.weekday w)
  | none => .ok var

/-- The parameters of `relativedelta` that are fields of it. -/
def relativedeltaParameters : List String :=
  ["years", "months", "days", "leapdays", "hours", "minutes", "seconds", "microseconds", "year",
    "month", "day", "hour", "minute", "second", "microsecond", "weekday"]

section
variable (kwargs : Dict String FieldValue)

/-- A relative parameter, 0 where it is not given. -/
def relativeArg (k : String) : Except PyError ℚ :=
  match kwargs.get? k with
  | none => .ok 0
  | some (.num q) => .ok q
  | some _ => .error .typeError

/-- A relative parameter that has to be an integer. -/
def integerArg (k : String) : Except PyError Int := do
  let q ← relativeArg kwargs k
  if q.den = 1 then return q.num else throw .valueError

/-- An absolute parameter, `None` where it is not given. -/
def absoluteArg (k : String) : Except PyError (Option Int) :=
  match kwargs.get? k with
  | none | some .none => .ok none
  | some (.num q) => if q.den = 1 then .ok (some q.num) else .error .valueError
  | some _ => .error .typeError

def weekdayArg (k : String) : Except PyError (Option Weekday) :=
  match kwargs.get? k with
  | none | some .none => .ok none
  | some (.weekday w) => .ok (some w)
  | some _ => .error .typeError

/-- The arguments of the call `relativedelta(**kwargs)`. -/
def relativedeltaArgs : Except PyError RelativeDelta := do
  if !kwargs.keys.all (relativedeltaParameters.contains ·) then throw .typeError
  return {
    years := ← integerArg kwargs "years"
    months := ← integerArg kwargs "months"
    days := ← relativeArg kwargs "days"
    leapdays := ← relativeArg kwargs "leapdays"
    hours := ← relativeArg kwargs "hours"
    minutes := ← relativeArg kwargs "minutes"
    seconds := ← relativeArg kwargs "seconds"
    microseconds := ← relativeArg kwargs "microseconds"
    year := ← absoluteArg kwargs "year"
    month := ← absoluteArg kwargs "month"
    day := ← absoluteArg kwargs "day"
    hour := ← absoluteArg kwargs "hour"
    minute := ← absoluteArg kwargs "minute"
    second := ← absoluteArg kwargs "second"
    microsecond := ← absoluteArg kwargs "microsecond"
    weekday := ← weekdayArg kwargs "weekday" }

end

section
variable {DateTime Naive : Type} (lib : Library DateTime Naive)

/-- `decode_relativedelta`. -/
def decodeRelativedelta (var : Dict String FieldValue) : Except PyError RelativeDelta := do
  lib.relativedelta (← relativedeltaArgs (← decodeWeekday var))

/-! ## Timezones and timetables -/

/-- The values in the encoding of a timetable. -/
inductive Encoded where
  | num (q : ℚ)
  | str (s : String)
  | dict (d : Dict String FieldValue)

/-- `encode_timezone`. -/
def encodeTimezone : Timezone → Encoded
  | .fixed offset => if offset = 0 then .str "UTC" else .num offset
  | .named name => .str name

/-- `decode_timezone`. -/
def decodeTimezone : Encoded → Except PyError Timezone
  | .str name => lib.timezone (.inl name)
  | .num offset => lib.timezone (.inr offset.num)
  | .dict _ => .error .typeError

/-- The seconds of a `timedelta`, or the fields of a `relativedelta`. -/
def encodeDelta : Delta → Encoded
  | .timedelta d => .num d.totalSeconds
  | .relativedelta d => .dict (encodeRelativedelta d)

def decodeDelta : Encoded → Except PyError Delta
  | .dict d => (decodeRelativedelta lib d).map .relativedelta
  | .num seconds => (Timedelta.ofSeconds seconds).map .timedelta
  | .str _ => .error .typeError

/-- `{"__type": …, "__var": …}` of a timetable. -/
structure EncodedTimetable where
  type : String
  var : Dict String Encoded

/-- `d[k]`. -/
def item (var : Dict String Encoded) (k : String) : Except PyError Encoded :=
  (var.get? k).elim (.error .keyError) .ok

def stringItem (var : Dict String Encoded) (k : String) : Except PyError String := do
  match ← item var k with
  | .str s => return s
  | _ => throw .typeError

/-- The fields that `CronMixin` timetables encode. -/
def CronMixin.encode (self : CronMixin) : Dict String Encoded where
  entries := [("expression", .str self.expression), ("timezone", encodeTimezone self.timezone)]
  keys_nodup := by
    show List.Nodup ["expression", "timezone"]
    decide

def CronMixin.decode (var : Dict String Encoded) : Except PyError CronMixin := do
  CronMixin.init lib (← stringItem var "expression") (← decodeTimezone lib (← item var "timezone"))

/-- `_encode_timetable`, with the `serialize` of the timetable. -/
def encodeTimetable : Timetable → EncodedTimetable
  | .null => ⟨"airflow.timetables.simple.NullTimetable", {}⟩
  | .once => ⟨"airflow.timetables.simple.OnceTimetable", {}⟩
  | .continuous => ⟨"airflow.timetables.simple.ContinuousTimetable", {}⟩
  | .delta d =>
    ⟨"airflow.timetables.interval.DeltaDataIntervalTimetable", Dict.set {} "delta" (encodeDelta d)⟩
  | .cronDataInterval cron =>
    ⟨"airflow.timetables.interval.CronDataIntervalTimetable", cron.encode⟩
  | .cronTrigger cron interval =>
    ⟨"airflow.timetables.trigger.CronTriggerTimetable",
      cron.encode.set "interval" (encodeDelta interval)⟩

/-- `_decode_timetable`, with the `deserialize` of the timetable. -/
def decodeTimetable (encoded : EncodedTimetable) : Except PyError Timetable :=
  match encoded.type with
  | "airflow.timetables.simple.NullTimetable" => .ok .null
  | "airflow.timetables.simple.OnceTimetable" => .ok .once
  | "airflow.timetables.simple.ContinuousTimetable" => .ok .continuous
  | "airflow.timetables.interval.DeltaDataIntervalTimetable" => do
    return .delta (← decodeDelta lib (← item encoded.var "delta"))
  | "airflow.timetables.interval.CronDataIntervalTimetable" => do
    return .cronDataInterval (← CronMixin.decode lib encoded.var)
  | "airflow.timetables.trigger.CronTriggerTimetable" => do
    let interval ← decodeDelta lib (← item encoded.var "interval")
    return .cronTrigger (← CronMixin.decode lib encoded.var) interval
  | type => .error (.notRegistered type)

/-! ## The DAG -/

/-- `BaseSerialization.serialize` of a schedule interval. -/
inductive EncodedInterval where
  | null
  | str (s : String)
  /-- `{"__type": "timedelta", "__var": …}`. -/
  | timedelta (seconds : ℚ)
  /-- `{"__type": "relativedelta", "__var": …}`. -/
  | relativedelta (var : Dict String FieldValue)

def serializeInterval : ScheduleInterval → EncodedInterval
  | .none => .null
  | .str s => .str s
  | .timedelta d => .timedelta d.totalSeconds
  | .relativedelta d => .relativedelta (encodeRelativedelta d)

def deserializeInterval : EncodedInterval → Except PyError ScheduleInterval
  | .null => .ok .none
  | .str s => .ok (.str s)
  | .timedelta seconds => (Timedelta.ofSeconds seconds).map .timedelta
  | .relativedelta var => (decodeRelativedelta lib var).map .relativedelta

/-- The scheduling part of a serialized DAG; `none` is a missing key. -/
structure EncodedDAG where
  timezone : Encoded
  scheduleInterval : Option EncodedInterval
  timetable : Option EncodedTimetable

/-- `SerializedDAG.serialize_dag`: of the schedule interval and the timetable, the one that the
other comes from. -/
def serializeDag (dag : DAG) : EncodedDAG :=
  let timezone := encodeTimezone dag.timezone
  if .str (dag.timetable.summary lib) = dag.scheduleInterval then
    { timezone, scheduleInterval := none, timetable := some (encodeTimetable dag.timetable) }
  else
    { timezone, scheduleInterval := some (serializeInterval dag.scheduleInterval)
      timetable := none }

/-- `SerializedDAG.deserialize_dag`. The interval of a DAG without one is that of `DAG.__init__`
without a schedule. -/
def deserializeDag (config : Config) (encoded : EncodedDAG) : Except PyError DAG := do
  let timezone ← decodeTimezone lib encoded.timezone
  let interval ← encoded.scheduleInterval.mapM (deserializeInterval lib)
  match encoded.timetable with
  | some timetable => do
    let timetable ← decodeTimetable lib timetable
    return { scheduleInterval := .str (timetable.summary lib), timezone, timetable }
  | none => do
    let scheduleInterval := interval.getD defaultScheduleInterval
    let timetable ← createTimetable lib config scheduleInterval timezone
    return { scheduleInterval, timezone, timetable }

end

end Airflow.Timetables
