import Airflow.Lib.Dict
import Mathlib.Data.Rat.Floor

/-!
# Timetables

`airflow/timetables` as `create_timetable` of `airflow/models/dag.py` uses it: the trivial
timetables of `simple.py`, `CronMixin`, `DeltaDataIntervalTimetable`, `CronDataIntervalTimetable`
and `CronTriggerTimetable`, with `next_dagrun_info`. `now` is what `DateTime.utcnow()` returns.

`pendulum`, `dateutil` and `croniter` come as a `Library`. Of a fixed zone's two parts, the offset
and the name, only the offset matters to a datetime.
-/

namespace Airflow.Timetables

/-- The exceptions that are raised here. -/
inductive PyError where
  | typeError
  | valueError
  | keyError
  | overflowError
  | zeroDivisionError
  | assertionError
  | croniterBadCronError
  | formatException
  | missingFieldException
  | notRegistered (timetable : String)
  | other (classname : String)
deriving DecidableEq

/-! ## Deltas -/

/-- `round(q)`: to the nearest integer, to the even one of two. -/
def roundHalfEven (q : ℚ) : Int :=
  if q - ⌊q⌋ < 1 / 2 then ⌊q⌋
  else if q - ⌊q⌋ = 1 / 2 ∧ ⌊q⌋ % 2 = 0 then ⌊q⌋
  else ⌊q⌋ + 1

theorem roundHalfEven_intCast (i : Int) : roundHalfEven i = i := by
  unfold roundHalfEven
  rw [if_pos (by simp), Int.floor_intCast]

/-- A `datetime.timedelta`, between `timedelta.min` and `timedelta.max`. -/
structure Timedelta where
  microseconds : Int
  inRange : -86399999913600000000 ≤ microseconds ∧ microseconds ≤ 86399999999999999999
deriving DecidableEq

namespace Timedelta

def zero : Timedelta := ⟨0, by decide⟩

/-- `total_seconds()`. -/
def totalSeconds (d : Timedelta) : ℚ := d.microseconds / 1000000

/-- `timedelta(seconds=…)`. -/
def ofSeconds (seconds : ℚ) : Except PyError Timedelta :=
  if h : _ ∧ _ then .ok ⟨roundHalfEven (seconds * 1000000), h⟩ else .error .overflowError

end Timedelta

/-- `relativedelta.weekday`: a day of the week, or the `n`th one. -/
structure Weekday where
  weekday : Int
  n : Option Int := none
  n_ne_zero : n ≠ some 0 := by decide
deriving DecidableEq

/-- A `relativedelta`. The plural fields are relative, the others replace a part of the date. -/
structure RelativeDelta where
  years : Int := 0
  months : Int := 0
  days : ℚ := 0
  leapdays : ℚ := 0
  hours : ℚ := 0
  minutes : ℚ := 0
  seconds : ℚ := 0
  microseconds : ℚ := 0
  year : Option Int := none
  month : Option Int := none
  day : Option Int := none
  hour : Option Int := none
  minute : Option Int := none
  second : Option Int := none
  microsecond : Option Int := none
  weekday : Option Weekday := none
deriving DecidableEq

namespace RelativeDelta

/-- The absolute fields that hold numbers. -/
def absolutes (d : RelativeDelta) : List (Option Int) :=
  [d.year, d.month, d.day, d.hour, d.minute, d.second, d.microsecond]

/-- `_has_time`. -/
def hasTime (d : RelativeDelta) : Bool :=
  d.hours ≠ 0 || d.minutes ≠ 0 || d.seconds ≠ 0 || d.microseconds ≠ 0 || d.hour.isSome ||
    d.minute.isSome || d.second.isSome || d.microsecond.isSome

end RelativeDelta

/-- `Delta = Union[datetime.timedelta, relativedelta]`. -/
inductive Delta where
  | timedelta (d : Timedelta)
  | relativedelta (d : RelativeDelta)
deriving DecidableEq

/-! ## Dates -/

/-- A `pendulum` timezone: a `FixedTimezone` or one of the database. -/
inductive Timezone where
  | fixed (offset : Int)
  | named (name : String)
deriving DecidableEq

structure DataInterval (DateTime : Type) where
  start : DateTime
  «end» : DateTime
deriving DecidableEq

structure TimeRestriction (DateTime : Type) where
  earliest : Option DateTime
  latest : Option DateTime
  catchup : Bool

structure DagRunInfo (DateTime : Type) where
  runAfter : DateTime
  dataInterval : DataInterval DateTime
deriving DecidableEq

namespace DagRunInfo

variable {DateTime : Type}

def exact (t : DateTime) : DagRunInfo DateTime := ⟨t, t, t⟩

def interval (start «end» : DateTime) : DagRunInfo DateTime := ⟨«end», start, «end»⟩

end DagRunInfo

/-- What is used of the packages `pendulum`, `dateutil` and `croniter`, on aware datetimes and on
naive ones. -/
structure Library (DateTime Naive : Type) where
  /-- `relativedelta.relativedelta` of these arguments. -/
  relativedelta : RelativeDelta → Except PyError RelativeDelta
  /-- `pendulum.tz.timezone` of a name or an offset. -/
  timezone : String ⊕ Int → Except PyError Timezone
  utc : Timezone
  /-- `a == b`. -/
  eq : DateTime → DateTime → Bool
  /-- `a < b`. -/
  lt : DateTime → DateTime → Bool
  /-- `t.astimezone(tz)`, `t.in_timezone(tz)`. -/
  inTimezone : DateTime → Timezone → DateTime
  /-- The datetime of the same fields without a timezone. -/
  naive : DateTime → Naive
  /-- `tz.convert(value.replace(fold=1))`. -/
  convert : Naive → Timezone → DateTime
  add : DateTime → Delta → Except PyError DateTime
  sub : DateTime → Delta → Except PyError DateTime
  naiveSub : Naive → Naive → Timedelta
  /-- `str(delta)`. -/
  str : Delta → String
  timestamp : DateTime → ℚ
  /-- `DateTime.fromtimestamp(s, tz=t.tzinfo)`. -/
  fromTimestamp : ℚ → DateTime → Except PyError DateTime
  /-- `ExpressionDescriptor(expression, …).get_description()`. -/
  description : String → Except PyError String
  /-- `croniter(expression).expanded`. -/
  expanded : String → Except PyError (List (List String))
  /-- `croniter(expression, start_time=t).get_next(datetime)`. -/
  cronNext : String → Naive → Except PyError Naive
  cronPrev : String → Naive → Except PyError Naive

namespace Library

variable {DateTime Naive : Type} (lib : Library DateTime Naive)

/-- `max(a, b)`. -/
def max (a b : DateTime) : DateTime := if lib.lt a b then b else a

def makeNaive (value : DateTime) (tz : Timezone) : Naive := lib.naive (lib.inTimezone value tz)

def makeAware (value : Naive) (tz : Timezone) : DateTime := lib.convert value tz

def convertToUtc (value : DateTime) : DateTime := lib.inTimezone value lib.utc

/-- Two zones between which no datetime distinguishes. -/
def SameZone (a b : Timezone) : Prop :=
  (∀ t, lib.inTimezone t a = lib.inTimezone t b) ∧ ∀ t, lib.convert t a = lib.convert t b

/-- The documented behaviour of the packages that serialization relies on: a `relativedelta` is
built again from its own fields and has the absolute fields it is given; `pendulum.tz.timezone`
returns a fixed zone for an offset other than 0, and a zone of the database for its name. -/
structure Documented : Prop where
  relativedelta_self : ∀ a d, lib.relativedelta a = .ok d → lib.relativedelta d = .ok d
  relativedelta_absolutes : ∀ a d, lib.relativedelta a = .ok d → d.absolutes = a.absolutes
  timezone_utc : ∃ tz, lib.timezone (.inl "UTC") = .ok tz ∧ lib.SameZone (.fixed 0) tz
  timezone_offset : ∀ offset ≠ 0,
    ∃ tz, lib.timezone (.inr offset) = .ok tz ∧ lib.SameZone (.fixed offset) tz
  timezone_name : ∀ a name, lib.timezone a = .ok (.named name) →
    ∃ tz, lib.timezone (.inl name) = .ok tz ∧ lib.SameZone (.named name) tz

end Library

/-! ## Cron expressions -/

def cronPresets : List (String × String) :=
  [("@hourly", "0 * * * *"), ("@daily", "0 0 * * *"), ("@weekly", "0 0 * * 0"),
    ("@monthly", "0 0 1 * *"), ("@quarterly", "0 0 1 */3 *"), ("@yearly", "0 0 1 1 *")]

/-- `cron_presets.get(cron, cron)`. -/
def expressionOf (cron : String) : String := (cronPresets.lookup cron).getD cron

structure CronMixin where
  expression : String
  timezone : Timezone
  description : String
deriving DecidableEq

namespace CronMixin

section
variable {DateTime Naive : Type} (lib : Library DateTime Naive)

/-- The description that `__init__` computes. -/
def describe (expression : String) : Except PyError String :=
  let described : Except PyError String := do
    if (← lib.expanded expression).length > 5 then throw .formatException
    lib.description expression
  match described with
  | .error .croniterBadCronError | .error .formatException | .error .missingFieldException =>
    .ok ""
  | described => described

/-- `CronMixin.__init__`. -/
def init (cron : String) (timezone : Timezone) : Except PyError CronMixin :=
  (describe lib (expressionOf cron)).map fun description =>
    { expression := expressionOf cron, timezone, description }

variable (self : CronMixin)

/-- `_get_next`. -/
def getNext (current : DateTime) : Except PyError DateTime := do
  let naive := lib.makeNaive current self.timezone
  let expanded ← lib.expanded self.expression
  let scheduled ← lib.cronNext self.expression naive
  if expanded[1]? ≠ some ["*"] then
    return lib.convertToUtc (lib.makeAware scheduled self.timezone)
  let delta := lib.naiveSub scheduled naive
  return lib.convertToUtc (← lib.add (lib.inTimezone current self.timezone) (.timedelta delta))

/-- `_get_prev`. -/
def getPrev (current : DateTime) : Except PyError DateTime := do
  let naive := lib.makeNaive current self.timezone
  let expanded ← lib.expanded self.expression
  let scheduled ← lib.cronPrev self.expression naive
  if expanded[1]? ≠ some ["*"] then
    return lib.convertToUtc (lib.makeAware scheduled self.timezone)
  let delta := lib.naiveSub naive scheduled
  return lib.convertToUtc (← lib.sub (lib.inTimezone current self.timezone) (.timedelta delta))

/-- `_align_to_next`. -/
def alignToNext (current : DateTime) : Except PyError DateTime := do
  let nextTime ← self.getNext lib current
  if !lib.eq (← self.getPrev lib nextTime) current then return nextTime
  return current

/-- `_align_to_prev`. -/
def alignToPrev (current : DateTime) : Except PyError DateTime := do
  let prevTime ← self.getPrev lib current
  if !lib.eq (← self.getNext lib prevTime) current then return prevTime
  return current

end

end CronMixin

/-! ## Data intervals -/

/-- What a subclass of `_DataIntervalTimetable` defines. -/
structure DataIntervalMethods (DateTime : Type) where
  skipToLatest : Option DateTime → Except PyError DateTime
  alignToNext : DateTime → Except PyError DateTime
  alignToPrev : DateTime → Except PyError DateTime
  getNext : DateTime → Except PyError DateTime

section
variable {DateTime Naive : Type} (lib : Library DateTime Naive)

/-- `_DataIntervalTimetable.next_dagrun_info`. -/
def DataIntervalMethods.nextDagrunInfo (self : DataIntervalMethods DateTime)
    (last : Option (DataInterval DateTime)) (restriction : TimeRestriction DateTime) :
    Except PyError (Option (DagRunInfo DateTime)) := do
  let earliest ←
    if !restriction.catchup then some <$> self.skipToLatest restriction.earliest
    else restriction.earliest.mapM self.alignToNext
  let start ←
    match last with
    | none => pure earliest
    | some last => do
      let aligned ← self.alignToPrev last.end
      pure (some (match earliest with
        | some earliest => lib.max aligned earliest
        | none => aligned))
  match start with
  | none => return none
  | some start =>
    if restriction.latest.any (lib.lt · start) then return none
    return some (.interval start (← self.getNext start))

/-- `CronDataIntervalTimetable`. -/
def cronMethods (now : DateTime) (self : CronMixin) : DataIntervalMethods DateTime where
  skipToLatest earliest := do
    let lastStart ← self.getPrev lib now
    let nextStart ← self.getNext lib lastStart
    let newStart ←
      if lib.eq nextStart now then pure lastStart
      else if lib.lt now nextStart then self.getPrev lib lastStart
      else throw .assertionError
    match earliest with
    | none => return newStart
    | some earliest => return lib.max newStart (← self.alignToNext lib earliest)
  alignToNext := self.alignToNext lib
  alignToPrev := self.alignToPrev lib
  getNext := self.getNext lib

/-- `_relativedelta_in_seconds`. -/
def relativedeltaInSeconds (delta : RelativeDelta) : ℚ :=
  delta.years * 365 * 24 * 60 * 60 + delta.months * 30 * 24 * 60 * 60 + delta.days * 24 * 60 * 60 +
    delta.hours * 60 * 60 + delta.minutes * 60 + delta.seconds

/-- `a % b`. -/
def pyMod (a b : ℚ) : Except PyError ℚ :=
  if b = 0 then .error .zeroDivisionError else .ok (a - b * ⌊a / b⌋)

/-- `DeltaDataIntervalTimetable._round`. -/
def roundToDelta (delta : Delta) (dt : DateTime) : Except PyError DateTime := do
  let deltaInSeconds :=
    match delta with
    | .timedelta d => d.totalSeconds
    | .relativedelta d => relativedeltaInSeconds d
  let dtInSeconds := lib.timestamp dt
  lib.fromTimestamp (dtInSeconds - (← pyMod dtInSeconds deltaInSeconds)) dt

/-- `DeltaDataIntervalTimetable`. -/
def deltaMethods (now : DateTime) (delta : Delta) : DataIntervalMethods DateTime where
  skipToLatest earliest := do
    let newStart := lib.convertToUtc (← lib.sub (← roundToDelta lib delta now) delta)
    match earliest with
    | none => return newStart
    | some earliest => return lib.max newStart earliest
  alignToNext current := .ok current
  alignToPrev current := .ok current
  getNext current := lib.convertToUtc <$> lib.add current delta

/-! ## Timetables -/

inductive Timetable where
  | null
  | once
  | continuous
  | delta (delta : Delta)
  | cronDataInterval (cron : CronMixin)
  | cronTrigger (cron : CronMixin) (interval : Delta)
deriving DecidableEq

/-- `CronTriggerTimetable.next_dagrun_info`. -/
def triggerNextDagrunInfo (now : DateTime) (self : CronMixin) (interval : Delta)
    (last : Option (DataInterval DateTime)) (restriction : TimeRestriction DateTime) :
    Except PyError (Option (DagRunInfo DateTime)) := do
  let nextStartTime ←
    if restriction.catchup then
      match last, restriction.earliest with
      | some last, _ => some <$> self.getNext lib last.end
      | none, earliest => earliest.mapM (self.alignToNext lib)
    else do
      let first ← self.alignToPrev lib now
      let afterLast ← last.mapM fun last => self.getNext lib last.end
      let aligned ← restriction.earliest.mapM (self.alignToNext lib)
      pure (some ((afterLast.toList ++ aligned.toList).foldl lib.max first))
  match nextStartTime with
  | none => return none
  | some nextStartTime =>
    if restriction.latest.any (lib.lt · nextStartTime) then return none
    return some (.interval (← lib.sub nextStartTime interval) nextStartTime)

/-- `next_dagrun_info`. -/
def Timetable.nextDagrunInfo (now : DateTime) (last : Option (DataInterval DateTime))
    (restriction : TimeRestriction DateTime) :
    Timetable → Except PyError (Option (DagRunInfo DateTime))
  | .null => return none
  | .once =>
    match last, restriction.earliest with
    | none, some runAfter =>
      if restriction.latest.any (lib.lt · runAfter) then return none
      else return some (.exact runAfter)
    | _, _ => return none
  | .continuous =>
    match restriction.earliest with
    | none => return none
    | some earliest =>
      let (start, «end») :=
        match last with
        | some last => (last.end, now)
        | none => (earliest, lib.max earliest now)
      if restriction.latest.any (lib.lt · «end») then return none
      else return some (.interval start «end»)
  | .delta d => (deltaMethods lib now d).nextDagrunInfo lib last restriction
  | .cronDataInterval cron => (cronMethods lib now cron).nextDagrunInfo lib last restriction
  | .cronTrigger cron interval => triggerNextDagrunInfo lib now cron interval last restriction

/-- `summary`. -/
def Timetable.summary : Timetable → String
  | .null => "None"
  | .once => "@once"
  | .continuous => "@continuous"
  | .delta d => lib.str d
  | .cronDataInterval cron | .cronTrigger cron _ => cron.expression

end

/-! ## The schedule of a DAG -/

/-- `schedule_interval`. -/
inductive ScheduleInterval where
  | none
  | str (s : String)
  | timedelta (d : Timedelta)
  | relativedelta (d : RelativeDelta)
deriving DecidableEq

/-- `DEFAULT_SCHEDULE_INTERVAL`: a day. -/
def defaultScheduleInterval : ScheduleInterval := .timedelta ⟨86400000000, by decide⟩

/-- The options that are read: `[scheduler] create_cron_data_intervals`. -/
structure Config where
  createCronDataIntervals : Bool

/-- The scheduling part of a DAG. -/
structure DAG where
  scheduleInterval : ScheduleInterval
  timezone : Timezone
  timetable : Timetable
deriving DecidableEq

section
variable {DateTime Naive : Type} (lib : Library DateTime Naive) (config : Config)

/-- `create_timetable`. -/
def createTimetable (interval : ScheduleInterval) (timezone : Timezone) :
    Except PyError Timetable :=
  match interval with
  | .none => .ok .null
  | .timedelta d => .ok (.delta (.timedelta d))
  | .relativedelta d => .ok (.delta (.relativedelta d))
  | .str interval =>
    if interval = "@once" then .ok .once
    else if interval = "@continuous" then .ok .continuous
    else if config.createCronDataIntervals then
      (CronMixin.init lib interval timezone).map .cronDataInterval
    else
      (CronMixin.init lib interval timezone).map (.cronTrigger · (.timedelta .zero))

/-- `DAG.__init__` with this `schedule`, where the start date has this timezone. -/
def DAG.init (schedule : ScheduleInterval) (timezone : Timezone) : Except PyError DAG :=
  (createTimetable lib config schedule timezone).map fun timetable =>
    { scheduleInterval := schedule, timezone, timetable }

end

/-!
## Data interval timetables and what they accept

The two subclasses of `_DataIntervalTimetable`, and `DeltaDataIntervalTimetable.validate`, which
compares naive datetimes.
-/

/-- A `CronDataIntervalTimetable` or a `DeltaDataIntervalTimetable`. -/
inductive DataIntervalTimetable where
  | cron (cron : CronMixin)
  | delta (delta : Delta)

/-- The methods of the class, when `DateTime.utcnow()` returns `now`. -/
def DataIntervalTimetable.methods {DateTime Naive : Type} (lib : Library DateTime Naive)
    (now : DateTime) : DataIntervalTimetable → DataIntervalMethods DateTime
  | .cron self => cronMethods lib now self
  | .delta self => deltaMethods lib now self

/-- `a + delta` and `a <= b` of naive datetimes. -/
structure NaiveDatetime (Naive : Type) where
  add : Naive → Delta → Except PyError Naive
  le : Naive → Naive → Bool

/-- `validate`, when `datetime.datetime.now()` returns `now`. -/
def validate {Naive : Type} (naive : NaiveDatetime Naive) (now : Naive) (delta : Delta) :
    Except PyError Unit := do
  if naive.le (← naive.add now delta) now then throw (.other "AirflowTimetableInvalid")

end Airflow.Timetables
