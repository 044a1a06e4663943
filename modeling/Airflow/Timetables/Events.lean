import Airflow.Timetables.Timetable

/-!
# Timetables that are given their dates

`EventsTimetable` of `airflow/timetables/events.py`, and `next_dagrun_info` of the timetables that
schedule by dates, cron expressions or deltas (`BuiltIn`).
-/

namespace Airflow.Timetables

/-- `logical_date`. -/
def DagRunInfo.logicalDate {DateTime : Type} (self : DagRunInfo DateTime) : DateTime :=
  self.dataInterval.start

variable {DateTime Naive : Type} (lib : Library DateTime Naive)

/-- `EventsTimetable`; the description and the summary decide nothing here. -/
structure EventsTimetable (DateTime : Type) where
  eventDates : List DateTime
  restrictToEvents : Bool := false

namespace EventsTimetable

/-- `__init__`: the dates are sorted unless the caller says that they are. -/
def init (eventDates : List DateTime) (restrictToEvents presorted : Bool) :
    EventsTimetable DateTime where
  eventDates := if presorted then eventDates else eventDates.mergeSort fun a b => !lib.lt b a
  restrictToEvents := restrictToEvents

variable (self : EventsTimetable DateTime)

/-- `next_dagrun_info`. The restriction is not read. -/
def nextDagrunInfo (last : Option (DataInterval DateTime))
    (_restriction : TimeRestriction DateTime) :
    Except PyError (Option (DagRunInfo DateTime)) :=
  match last with
  | none =>
    match self.eventDates with
    | [] => .error (.other "IndexError")
    | nextEvent :: _ => .ok (some (.exact nextEvent))
  | some last =>
    match self.eventDates.dropWhile fun when => !lib.lt last.end when with
    | [] => .ok none
    | nextEvent :: _ => .ok (some (.exact nextEvent))

end EventsTimetable

/-- The timetables with a start date, an end date and a catchup to honour. -/
inductive BuiltIn (DateTime : Type) where
  | cronDataInterval (cron : CronMixin)
  | delta (delta : Delta)
  | cronTrigger (cron : CronMixin) (interval : Delta)
  | events (timetable : EventsTimetable DateTime)

/-- `next_dagrun_info`. -/
def BuiltIn.nextDagrunInfo (now : DateTime) (last : Option (DataInterval DateTime))
    (restriction : TimeRestriction DateTime) :
    BuiltIn DateTime → Except PyError (Option (DagRunInfo DateTime))
  | .cronDataInterval cron =>
    (Timetable.cronDataInterval cron).nextDagrunInfo lib now last restriction
  | .delta d => (Timetable.delta d).nextDagrunInfo lib now last restriction
  | .cronTrigger cron interval =>
    (Timetable.cronTrigger cron interval).nextDagrunInfo lib now last restriction
  | .events timetable => timetable.nextDagrunInfo lib last restriction

end Airflow.Timetables
