import Airflow.Timetables.Events
import Airflow.Timetables.Proof.Restriction
import Mathlib.Data.List.Chain

/-!
# Runs that follow one another

The runs of a data interval timetable, each after the one before (`iterate`), and
`iter_dagrun_infos_between` of `airflow/models/dag.py`, with the parts of a DAG that it reads.
Datetimes are aware, so that `coerce_datetime` keeps them.
-/

namespace Airflow.Timetables

variable {DateTime Naive : Type} (lib : Library DateTime Naive)

/-! ## Run after run -/

/-- What `next_dagrun_info` finds when it is called, apart from the start date. -/
structure Setting (DateTime : Type) where
  now : DateTime
  latest : Option DateTime := none
  catchup : Bool

def Setting.restriction (self : Setting DateTime) (earliest : DateTime) :
    TimeRestriction DateTime where
  earliest := some earliest
  latest := self.latest
  catchup := self.catchup

/-- `next_dagrun_info` in one setting after the other, each time after the last run that was
returned. -/
def iterate (timetable : Timetable) (earliest : DateTime) :
    Option (DataInterval DateTime) → List (Setting DateTime) →
      List (Setting DateTime × DagRunInfo DateTime)
  | _, [] => []
  | last, setting :: settings =>
    match timetable.nextDagrunInfo lib setting.now last (setting.restriction earliest) with
    | .ok (some info) =>
      (setting, info) :: iterate timetable earliest (some info.dataInterval) settings
    | .ok none | .error _ => iterate timetable earliest last settings

/-! ## The runs of a DAG between two dates -/

/-- The dates of a task. -/
structure TaskDates (DateTime : Type) where
  startDate : Option DateTime
  endDate : Option DateTime

/-- What of a DAG decides about its run dates. -/
structure DatedDag (DateTime : Type) where
  timetable : Timetable
  tasks : List (TaskDates DateTime)
  startDate : Option DateTime
  endDate : Option DateTime
  catchup : Bool
  isSubdag : Bool

namespace DatedDag

/-- `min(dates)`, if there are any. -/
def min : List DateTime → Option DateTime
  | [] => none
  | first :: rest => some (rest.foldl (fun a b => if lib.lt b a then b else a) first)

/-- `max(dates)`, if there are any. -/
def max : List DateTime → Option DateTime
  | [] => none
  | first :: rest => some (rest.foldl lib.max first)

variable (self : DatedDag DateTime)

/-- `_time_restriction`. -/
def timeRestriction : TimeRestriction DateTime :=
  let startDates := self.tasks.filterMap TaskDates.startDate ++ self.startDate.toList
  let endDates := self.tasks.filterMap TaskDates.endDate
  { earliest := min lib startDates
    latest :=
      if endDates.length = self.tasks.length then
        max lib (endDates ++ self.endDate.toList) <|> self.endDate
      else self.endDate
    catchup := self.catchup }

/-- `while info is not None`, at most `fuel` times round: `none` if that is too few. The `k`th call
of `next_dagrun_info` finds the clock at `now k`. -/
def whileInfo (now : Nat → DateTime) (restriction : TimeRestriction DateTime) :
    (fuel k : Nat) → DagRunInfo DateTime → Option (List (DagRunInfo DateTime))
  | 0, _, _ => none
  | fuel + 1, k, info =>
    match self.timetable.nextDagrunInfo lib (now k) (some info.dataInterval) restriction with
    | .ok (some next) => (whileInfo now restriction fuel (k + 1) next).map (info :: ·)
    | .ok none | .error _ => some [info]

/-- `iter_dagrun_infos_between`: the infos it yields, or its exception. -/
def iterDagrunInfosBetween (now : Nat → DateTime) (fuel : Nat) (earliest : Option DateTime)
    (latest : DateTime) (align : Bool) : Option (Except PyError (List (DagRunInfo DateTime))) :=
  match earliest <|> (self.timeRestriction lib).earliest with
  | none => some (.error .valueError)
  | some earliest =>
    let restriction : TimeRestriction DateTime :=
      { earliest := some earliest, latest := some latest, catchup := true }
    let align := align && !self.isSubdag
    match self.timetable.nextDagrunInfo lib (now 0) none restriction with
    | .ok none | .error _ => some (.ok (if !align then [.interval earliest latest] else []))
    | .ok (some info) =>
      let invented : List (DagRunInfo DateTime) :=
        if !align && !lib.eq info.logicalDate earliest then
          [.interval earliest info.dataInterval.start]
        else []
      (self.whileInfo lib now restriction fuel 1 info).map fun infos => .ok (invented ++ infos)

end DatedDag

/-!
## Data intervals follow one another without a gap

A `Schedule` says which logical dates a start date leads to and where the interval that starts at
a date ends; a cron expression and a positive `timedelta` have one (`HasSchedule`). Whatever the
catchup setting of each step, a run starts no earlier than the end of the one before, and with
catchup exactly there (`iterate_gapless`).
-/

/-! ## Schedules -/

/-- What a data interval timetable is for. -/
structure Schedule where
  /-- The logical dates, with this start date. -/
  dates : Int → Set Int
  /-- The interval that starts there ends there. -/
  Next : Int → Int → Prop

namespace Schedule

/-- The first logical date is there, with this start date. -/
def First (self : Schedule) (earliest first : Int) : Prop :=
  IsLeast {t | t ∈ self.dates earliest ∧ earliest ≤ t} first

/-- A cron expression: from tick to tick. -/
def cron (ticks : Set Int) : Schedule where
  dates _ := ticks
  Next start «end» := IsLeast {t | t ∈ ticks ∧ start < t} «end»

/-- A `timedelta`: from the start date on. -/
def timedelta (d : Int) : Schedule where
  dates earliest := {t | ∃ k : Nat, t = earliest + k * d}
  Next start «end» := «end» = start + d

theorem timedelta_first (d earliest : Int) :
    (timedelta d).First earliest earliest :=
  ⟨⟨⟨0, by simp⟩, le_refl _⟩, fun _ ht => ht.2⟩

end Schedule

/-- Adding the `timedelta` moves a datetime by so much, if it stays within the range of datetimes,
and the conversion to UTC keeps the instant. -/
structure Elapses {DateTime Naive : Type} {lib : Library DateTime Naive} (clock : Clock lib Int)
    (d : Timedelta) : Prop where
  add : ∀ t n, lib.add t (.timedelta d) = .ok n →
    clock.instant n = clock.instant t + d.microseconds
  utc : ∀ t, clock.instant (lib.convertToUtc t) = clock.instant t

/-- The schedule of a data interval timetable. -/
inductive HasSchedule {DateTime Naive : Type} {lib : Library DateTime Naive}
    (clock : Clock lib Int) : Timetable → Schedule → Prop
  | cron {cron : CronMixin} {ticks : Set Int} (h : Ticks clock cron ticks) :
    HasSchedule clock (.cronDataInterval cron) (.cron ticks)
  | timedelta {d : Timedelta} (hpos : 0 < d.microseconds) (h : Elapses clock d) :
    HasSchedule clock (.delta (.timedelta d)) (.timedelta d.microseconds)

variable {DateTime Naive : Type} {lib : Library DateTime Naive} {clock : Clock lib Int}
  {methods : DataIntervalMethods DateTime} {timetable : Timetable} {schedule : Schedule}

/-- The methods of a data interval timetable keep to its schedule. -/
structure Follows (clock : Clock lib Int) (methods : DataIntervalMethods DateTime)
    (schedule : Schedule) : Prop where
  next_lt : ∀ s n, schedule.Next s n → s < n
  next_dates : ∀ earliest s n, s ∈ schedule.dates earliest → schedule.Next s n →
    IsLeast {t | t ∈ schedule.dates earliest ∧ s < t} n
  getNext : ∀ t n, methods.getNext t = .ok n →
    schedule.Next (clock.instant t) (clock.instant n)
  alignToNext : ∀ t, ∃ n, methods.alignToNext t = .ok n ∧
    schedule.First (clock.instant t) (clock.instant n)
  alignToPrev : ∀ s t, schedule.Next s (clock.instant t) →
    ∃ p, methods.alignToPrev t = .ok p ∧ clock.instant p = clock.instant t
  skip : ∀ e b, methods.skipToLatest (some e) = .ok b →
    ∃ n, methods.alignToNext e = .ok n ∧ clock.instant n ≤ clock.instant b

theorem Ticks.follows {cron : CronMixin} {ticks : Set Int} (h : Ticks clock cron ticks)
    (now : DateTime) : Follows clock (cronMethods lib now cron) (.cron ticks) where
  next_lt s n hnext := hnext.1.2
  next_dates earliest s n _ hnext := hnext
  getNext t n hn := by
    obtain ⟨n', hn', hleast⟩ := h.next t
    obtain rfl := Except.ok.inj (hn.symm.trans hn')
    exact hleast
  alignToNext t := h.alignToNext t
  alignToPrev s t hnext := by
    obtain ⟨p, hp, ⟨hmem, hle⟩, hgreatest⟩ := h.alignToPrev t
    exact ⟨p, hp, le_antisymm hle (hgreatest ⟨hnext.1.1, le_refl _⟩)⟩
  skip e b hb := by
    obtain ⟨n, hn, -⟩ := h.alignToNext e
    rw [(h.startSpec now).skip_some] at hb
    cases hskip : (cronMethods lib now cron).skipToLatest none with
    | error err =>
      rw [hskip] at hb
      cases hb
    | ok b' =>
      change (cronMethods lib now cron).alignToNext e = .ok n at hn
      rw [hskip] at hb
      refine ⟨n, hn, ?_⟩
      simp only [bind, Except.bind, hn, pure, Except.pure, Except.ok.injEq] at hb
      rw [← hb, clock.instant_max]
      exact le_max_right _ _

theorem Elapses.follows {d : Timedelta} (h : Elapses clock d) (hpos : 0 < d.microseconds)
    (now : DateTime) :
    Follows clock (deltaMethods lib now (.timedelta d)) (.timedelta d.microseconds) where
  next_lt s n hnext := by
    change n = s + d.microseconds at hnext
    omega
  next_dates := by
    rintro earliest s n ⟨k, rfl⟩ rfl
    refine ⟨⟨⟨k + 1, ?_⟩, ?_⟩, ?_⟩
    · push_cast
      ring
    · exact lt_add_of_pos_right _ hpos
    · rintro t ⟨⟨j, rfl⟩, hlt⟩
      have hkj : (k : Int) * d.microseconds < j * d.microseconds := by linarith
      have hsucc : (k : Int) + 1 ≤ j := lt_of_mul_lt_mul_right hkj hpos.le
      have hmul := mul_le_mul_of_nonneg_right hsucc hpos.le
      linarith
  getNext t n hn := by
    change (lib.add t (.timedelta d)).map lib.convertToUtc = .ok n at hn
    cases hadd : lib.add t (.timedelta d) with
    | error e =>
      rw [hadd] at hn
      cases hn
    | ok n' =>
      rw [hadd] at hn
      obtain rfl := Except.ok.inj hn
      exact (h.utc n').trans (h.add t n' hadd)
  alignToNext t := ⟨t, rfl, Schedule.timedelta_first _ _⟩
  alignToPrev s t _ := ⟨t, rfl, rfl⟩
  skip e b hb := by
    refine ⟨e, rfl, ?_⟩
    change (do
      let rounded ← roundToDelta lib (.timedelta d) now
      let newStart ← lib.sub rounded (.timedelta d)
      return lib.max (lib.convertToUtc newStart) e) = Except.ok b at hb
    cases hround : roundToDelta lib (.timedelta d) now with
    | error err =>
      rw [hround] at hb
      cases hb
    | ok rounded =>
      rw [hround] at hb
      cases hsub : lib.sub rounded (.timedelta d) with
      | error err =>
        simp only [bind, Except.bind, hsub] at hb
        cases hb
      | ok newStart =>
        simp only [bind, Except.bind, hsub, pure, Except.pure, Except.ok.injEq] at hb
        rw [← hb, clock.instant_max]
        exact le_max_right _ _

/-- Both are data interval timetables, whose methods keep to the schedule. -/
theorem HasSchedule.exists_methods (h : HasSchedule clock timetable schedule) (now : DateTime) :
    ∃ methods : DataIntervalMethods DateTime, Follows clock methods schedule ∧
      (∀ t, (∀ d, timetable = .delta d → ∃ n, lib.add t d = .ok n) →
        ∃ n, methods.getNext t = .ok n) ∧
      ∀ last restriction, timetable.nextDagrunInfo lib now last restriction =
        methods.nextDagrunInfo lib last restriction := by
  cases h with
  | cron h => exact ⟨_, h.follows now, fun t _ => (h.next t).imp fun n hn => hn.1, fun _ _ => rfl⟩
  | timedelta hpos h =>
    refine ⟨_, h.follows hpos now, fun t hadd => ?_, fun _ _ => rfl⟩
    obtain ⟨n, hn⟩ := hadd _ rfl
    exact ⟨lib.convertToUtc n, by simp [deltaMethods, hn]⟩

/-! ## One step -/

/-- The last interval is one of the schedule, no earlier than the first date. -/
def Continues (clock : Clock lib Int) (schedule : Schedule) (first : Int)
    (last : Option (DataInterval DateTime)) : Prop :=
  ∀ interval, last = some interval → first ≤ clock.instant interval.start ∧
    schedule.Next (clock.instant interval.start) (clock.instant interval.end)

section
variable {earliest : DateTime} {first : Int} {last : Option (DataInterval DateTime)}
  {restriction : TimeRestriction DateTime}

/-- The bound that the start date and the catchup setting give. -/
theorem Follows.bound_cases (h : Follows clock methods schedule)
    (hearliest : restriction.earliest = some earliest)
    (hfirst : schedule.First (clock.instant earliest) first) :
    (restriction.catchup = false ∧
      ∃ err, (if !restriction.catchup then some <$> methods.skipToLatest restriction.earliest
        else restriction.earliest.mapM methods.alignToNext) = .error err) ∨
    ∃ e, (if !restriction.catchup then some <$> methods.skipToLatest restriction.earliest
        else restriction.earliest.mapM methods.alignToNext) = .ok (some e) ∧
      first ≤ clock.instant e ∧ (restriction.catchup = true → clock.instant e = first) := by
  obtain ⟨n, hn, hfirst'⟩ := h.alignToNext earliest
  obtain rfl := hfirst.unique hfirst'
  rw [hearliest]
  cases restriction.catchup with
  | true =>
    refine .inr ⟨n, ?_, le_refl _, fun _ => rfl⟩
    simp [hn]
  | false =>
    cases hskip : methods.skipToLatest (some earliest) with
    | error err => exact .inl ⟨rfl, err, by simp⟩
    | ok e =>
      obtain ⟨n', hn', hle⟩ := h.skip earliest e hskip
      obtain rfl := Except.ok.inj (hn.symm.trans hn')
      exact .inr ⟨e, by simp, hle, nofun⟩

/-- Where the next run starts: no earlier than the end of the last one, with catchup exactly
there. -/
def StartsAt (clock : Clock lib Int) (first : Int) (last : Option (DataInterval DateTime))
    (catchup : Bool) (start : Int) : Prop :=
  first ≤ start ∧
  (∀ interval, last = some interval → clock.instant interval.end ≤ start) ∧
  (catchup = true → ∀ interval, last = some interval → start = clock.instant interval.end) ∧
  (catchup = true → last = none → start = first)

/-- **One step.** `next_dagrun_info` raises an exception, or decides about a run that starts where
it has to. -/
theorem Follows.nextDagrunInfo_cases (h : Follows clock methods schedule)
    (hearliest : restriction.earliest = some earliest)
    (hfirst : schedule.First (clock.instant earliest) first)
    (hlast : Continues clock schedule first last) :
    (restriction.catchup = false ∧
      ∃ err, methods.nextDagrunInfo lib last restriction = .error err) ∨
    ∃ start, StartsAt clock first last restriction.catchup (clock.instant start) ∧
      methods.nextDagrunInfo lib last restriction =
        if restriction.latest.any (lib.lt · start) then .ok none
        else (methods.getNext start).bind fun «end» => .ok (some (.interval start «end»)) := by
  rw [nextDagrunInfo_eq]
  rcases h.bound_cases hearliest hfirst with ⟨hcatchup, err, hb⟩ | ⟨e, hb, hle, heq⟩
  · left
    rw [hb]
    exact ⟨hcatchup, err, rfl⟩
  · right
    rw [hb]
    cases last with
    | none => exact ⟨e, ⟨hle, nofun, fun _ => nofun, fun hcatchup _ => heq hcatchup⟩, rfl⟩
    | some interval =>
      obtain ⟨hstart, hnext⟩ := hlast interval rfl
      obtain ⟨p, hp, hinstant⟩ := h.alignToPrev _ interval.end hnext
      have hlt := h.next_lt _ _ hnext
      refine ⟨lib.max p e, ?_, by simp only [Except.bind, hp]⟩
      rw [clock.instant_max, hinstant]
      refine ⟨by omega, ?_, ?_, nofun⟩
      · rintro _ ⟨⟩
        exact le_max_left _ _
      · rintro hcatchup _ ⟨⟩
        have := heq hcatchup
        omega

/-- What is returned is the interval of the schedule that starts where it has to. -/
theorem HasSchedule.returned (h : HasSchedule clock timetable schedule) {now : DateTime}
    (hearliest : restriction.earliest = some earliest)
    (hfirst : schedule.First (clock.instant earliest) first)
    (hlast : Continues clock schedule first last) {info : DagRunInfo DateTime}
    (hinfo : timetable.nextDagrunInfo lib now last restriction = .ok (some info)) :
    StartsAt clock first last restriction.catchup (clock.instant info.dataInterval.start) ∧
      schedule.Next (clock.instant info.dataInterval.start)
        (clock.instant info.dataInterval.end) ∧
      info = .interval info.dataInterval.start info.dataInterval.end := by
  obtain ⟨methods, hmethods, -, hnext⟩ := h.exists_methods now
  rw [hnext] at hinfo
  rcases hmethods.nextDagrunInfo_cases hearliest hfirst hlast with
    ⟨-, err, herr⟩ | ⟨start, hstart, hok⟩
  · rw [herr] at hinfo
    cases hinfo
  · rw [hok] at hinfo
    split at hinfo
    · cases hinfo
    · cases hend : methods.getNext start with
      | error err =>
        rw [hend] at hinfo
        cases hinfo
      | ok «end» =>
        rw [hend] at hinfo
        obtain rfl := Option.some.inj (Except.ok.inj hinfo)
        exact ⟨hstart, hmethods.getNext start «end» hend, rfl⟩

end

/-! ## Whole runs -/

section
variable {earliest : DateTime}

/-- A run after another one, with catchup right after it. -/
def Follow (clock : Clock lib Int) (a b : Setting DateTime × DagRunInfo DateTime) : Prop :=
  clock.instant a.2.dataInterval.end ≤ clock.instant b.2.dataInterval.start ∧
    (b.1.catchup = true →
      clock.instant b.2.dataInterval.start = clock.instant a.2.dataInterval.end)

theorem HasSchedule.iterate_spec (h : HasSchedule clock timetable schedule) {first : Int}
    (hfirst : schedule.First (clock.instant earliest) first) (settings : List (Setting DateTime)) :
    ∀ last : Option (DataInterval DateTime), Continues clock schedule first last →
      (∀ run ∈ iterate lib timetable earliest last settings,
        schedule.Next (clock.instant run.2.dataInterval.start)
          (clock.instant run.2.dataInterval.end) ∧
        run.2 = .interval run.2.dataInterval.start run.2.dataInterval.end) ∧
      (iterate lib timetable earliest last settings).IsChain (Follow clock) ∧
      ∀ run ∈ (iterate lib timetable earliest last settings).head?,
        StartsAt clock first last run.1.catchup (clock.instant run.2.dataInterval.start) := by
  induction settings with
  | nil =>
    intro last hlast
    refine ⟨nofun, .nil, nofun⟩
  | cons setting settings ih =>
    intro last hlast
    rw [iterate]
    cases hrun : timetable.nextDagrunInfo lib setting.now last (setting.restriction earliest) with
    | error err => exact ih last hlast
    | ok returned =>
      cases returned with
      | none => exact ih last hlast
      | some info =>
        obtain ⟨hstart, hnext, hinfo⟩ := h.returned rfl hfirst hlast hrun
        obtain ⟨hall, hchain, hhead⟩ := ih (some info.dataInterval) (by
          rintro _ ⟨⟩
          exact ⟨hstart.1, hnext⟩)
        refine ⟨?_, hchain.cons fun run hmem => ?_, ?_⟩
        · intro run hmem
          rcases List.mem_cons.mp hmem with rfl | hmem
          · exact ⟨hnext, hinfo⟩
          · exact hall run hmem
        · obtain ⟨-, hle, heq, -⟩ := hhead run hmem
          exact ⟨hle _ rfl, fun hcatchup => heq hcatchup _ rfl⟩
        · rintro _ ⟨⟩
          exact hstart

/-- **Data intervals are gapless and move forward.** Every run has the interval of its start, the
starts increase, and a run with catchup starts where the one before ended, the first one at the
first date of the schedule. -/
theorem iterate_gapless (h : HasSchedule clock timetable schedule) (earliest : DateTime)
    (settings : List (Setting DateTime)) :
    let runs := iterate lib timetable earliest none settings
    (∀ run ∈ runs,
      schedule.Next (clock.instant run.2.dataInterval.start)
        (clock.instant run.2.dataInterval.end) ∧
      run.2 = .interval run.2.dataInterval.start run.2.dataInterval.end) ∧
    runs.Pairwise (fun a b =>
      clock.instant a.2.dataInterval.start < clock.instant b.2.dataInterval.start) ∧
    runs.IsChain (fun a b => b.1.catchup = true →
      clock.instant b.2.dataInterval.start = clock.instant a.2.dataInterval.end) ∧
    ∀ run ∈ runs.head?, run.1.catchup = true →
      schedule.First (clock.instant earliest) (clock.instant run.2.dataInterval.start) := by
  intro runs
  obtain ⟨methods, hmethods, -⟩ := h.exists_methods earliest
  obtain ⟨n, -, hfirst⟩ := hmethods.alignToNext earliest
  obtain ⟨hall, hchain, hhead⟩ := h.iterate_spec hfirst settings none nofun
  refine ⟨hall, ?_, hchain.imp fun _ _ hfollow => hfollow.2, ?_⟩
  · have hstarts : runs.IsChain (fun a b =>
        clock.instant a.2.dataInterval.start < clock.instant b.2.dataInterval.start) := by
      refine hchain.imp_of_mem_imp fun a b ha _ hfollow => ?_
      exact (hmethods.next_lt _ _ (hall a ha).1).trans_le hfollow.1
    rw [← List.isChain_map fun run : Setting DateTime × DagRunInfo DateTime =>
      clock.instant run.2.dataInterval.start] at hstarts
    exact List.pairwise_map.mp (List.isChain_iff_pairwise.mp hstarts)
  · intro run hmem hcatchup
    obtain ⟨-, -, -, heq⟩ := hhead run hmem
    rw [heq hcatchup rfl]
    exact hfirst

end

/-- Every second, with the catchup setting flipped. -/
theorem everySecond_gapless :
    (iterate everySecond (.cronDataInterval ⟨"* * * * * *", .named "UTC", ""⟩) 3 none
      [⟨10, none, true⟩, ⟨11, none, false⟩, ⟨12, none, true⟩]).Pairwise (fun a b =>
        seconds.instant a.2.dataInterval.start < seconds.instant b.2.dataInterval.start) :=
  (iterate_gapless (.cron (ticks_everySecond _)) 3
    [⟨10, none, true⟩, ⟨11, none, false⟩, ⟨12, none, true⟩]).2.1

end Airflow.Timetables
