import Airflow.Lib.Traced
import Airflow.Serialization.Schedule

/-!
# What serialization keeps of a schedule

* `decodeRelativedelta_encodeRelativedelta`: decoding builds the `relativedelta` again from its
  fields, but without the absolute fields that are 0.
* `nextDagrunInfo_congr`: timetables that differ in the name of a zone schedule the same.
* `schedulePreserved_iff`: the schedule is preserved unless it has such a field.
-/

namespace Airflow.Timetables

/-! ## Numbers -/

theorem Timedelta.ofSeconds_totalSeconds (d : Timedelta) :
    Timedelta.ofSeconds d.totalSeconds = .ok d := by
  have hround : roundHalfEven (d.totalSeconds * 1000000) = d.microseconds := by
    rw [totalSeconds, div_mul_cancel₀ _ (by norm_num), roundHalfEven_intCast]
  unfold ofSeconds
  simp only [hround]
  rw [dif_pos d.inRange]

/-! ## `relativedelta` -/

/-- What the encoding of a `relativedelta` says: without the absolute fields that are 0. -/
def RelativeDelta.dropZeros (d : RelativeDelta) : RelativeDelta :=
  { d with
    year := d.year.filter (· ≠ 0)
    month := d.month.filter (· ≠ 0)
    day := d.day.filter (· ≠ 0)
    hour := d.hour.filter (· ≠ 0)
    minute := d.minute.filter (· ≠ 0)
    second := d.second.filter (· ≠ 0)
    microsecond := d.microsecond.filter (· ≠ 0) }

theorem filter_ne_zero_eq_self {x : Option Int} : x.filter (· ≠ 0) = x ↔ x ≠ some 0 := by
  cases x with
  | none => simp
  | some i =>
    by_cases hi : i = 0
    · subst hi
      simp
    · simp [hi]

theorem absolutes_dropZeros (d : RelativeDelta) :
    d.dropZeros.absolutes = d.absolutes.map (Option.filter (· ≠ 0)) := rfl

theorem dropZeros_absolutes_eq {d : RelativeDelta} :
    d.dropZeros.absolutes = d.absolutes ↔ some 0 ∉ d.absolutes := by
  rw [absolutes_dropZeros]
  generalize d.absolutes = l
  induction l with
  | nil => simp
  | cons x l ih =>
    rw [List.map_cons, List.cons.injEq, ih, filter_ne_zero_eq_self, List.mem_cons, not_or,
      ne_comm]

theorem dropZeros_eq_self {d : RelativeDelta} (h : some 0 ∉ d.absolutes) : d.dropZeros = d := by
  have heq := dropZeros_absolutes_eq.mpr h
  simp only [RelativeDelta.absolutes, List.cons.injEq] at heq
  obtain ⟨hyear, hmonth, hday, hhour, hminute, hsecond, hmicrosecond, -⟩ := heq
  cases d
  simp_all [RelativeDelta.dropZeros]

theorem weekdayOfArgs_encodeWeekday (w : Weekday) : weekdayOfArgs (encodeWeekday w) = .ok w := by
  obtain ⟨weekday, n, hn⟩ := w
  cases n with
  | none => rfl
  | some n =>
    have hn : n ≠ 0 := by simpa using hn
    simp [encodeWeekday, weekdayOfArgs, hn]

section
variable {kwargs : Dict String FieldValue} {k : String}

theorem relativeArg_eq {q : ℚ}
    (h : kwargs.get? k = (some (FieldValue.num q)).filter FieldValue.truthy) :
    relativeArg kwargs k = .ok q := by
  rw [relativeArg, h, Option.filter_some]
  by_cases hq : q = 0 <;> simp [FieldValue.truthy, hq]

theorem integerArg_eq {i : Int}
    (h : kwargs.get? k = (some (FieldValue.num i)).filter FieldValue.truthy) :
    integerArg kwargs k = .ok i := by
  rw [integerArg, relativeArg_eq h]
  rfl

theorem absoluteArg_eq {x : Option Int}
    (h : kwargs.get? k = (some (FieldValue.ofOption x)).filter FieldValue.truthy) :
    absoluteArg kwargs k = .ok (x.filter (· ≠ 0)) := by
  rw [absoluteArg, h, Option.filter_some]
  cases x with
  | none => simp [FieldValue.truthy, FieldValue.ofOption]
  | some i =>
    rw [Option.filter_some]
    by_cases hi : i = 0 <;> simp [FieldValue.truthy, FieldValue.ofOption, hi]

end

section
variable (d : RelativeDelta)

/-- The keyword arguments of `relativedelta` when `d` is decoded. -/
def decodedKwargs : Dict String FieldValue :=
  match d.weekday with
  | some w => (encodeRelativedelta d).set "weekday" (.weekday w)
  | none => encodeRelativedelta d

theorem get?_encodeRelativedelta {k : String} (hk : k ≠ "weekday") :
    (encodeRelativedelta d).get? k =
      (d.vars.get? k).filter fun v => !startsWithUnderscore k && v.truthy := by
  unfold encodeRelativedelta
  cases d.weekday with
  | none => exact Dict.get?_filter _
  | some w =>
    simp only [Dict.get?_set, if_neg hk]
    exact Dict.get?_filter _

theorem get?_decodedKwargs_of_ne {k : String} (hk : k ≠ "weekday") :
    (decodedKwargs d).get? k =
      (d.vars.get? k).filter fun v => !startsWithUnderscore k && v.truthy := by
  unfold decodedKwargs
  cases d.weekday with
  | none => exact get?_encodeRelativedelta d hk
  | some w =>
    simp only [Dict.get?_set, if_neg hk]
    exact get?_encodeRelativedelta d hk

theorem get?_vars_weekday : d.vars.get? "weekday" = some (d.weekday.elim .none .weekday) := rfl

theorem get?_encodeRelativedelta_weekday :
    (encodeRelativedelta d).get? "weekday" = d.weekday.map encodeWeekday := by
  unfold encodeRelativedelta
  cases hw : d.weekday with
  | none =>
    show (d.vars.filter _).get? "weekday" = none
    rw [Dict.get?_filter, get?_vars_weekday, hw]
    rfl
  | some w => simp only [Dict.get?_set, if_true, Option.map_some]

theorem get?_decodedKwargs_weekday :
    (decodedKwargs d).get? "weekday" = d.weekday.map .weekday := by
  unfold decodedKwargs
  cases hw : d.weekday with
  | none =>
    show (encodeRelativedelta d).get? "weekday" = none
    rw [get?_encodeRelativedelta_weekday, hw]
    rfl
  | some w => simp only [Dict.get?_set, if_true, Option.map_some]

theorem decodeWeekday_encodeRelativedelta :
    decodeWeekday (encodeRelativedelta d) = .ok (decodedKwargs d) := by
  unfold decodeWeekday decodedKwargs
  rw [get?_encodeRelativedelta_weekday]
  cases d.weekday with
  | none => rfl
  | some w =>
    simp only [Option.map_some, weekdayOfArgs_encodeWeekday]
    rfl

theorem get?_decodedKwargs (k : String)
    (hk : k ≠ "weekday" ∧ startsWithUnderscore k = false) :
    (decodedKwargs d).get? k = (d.vars.get? k).filter FieldValue.truthy := by
  rw [get?_decodedKwargs_of_ne d hk.1]
  simp only [hk.2, Bool.not_false, Bool.true_and]

theorem keys_decodedKwargs :
    (decodedKwargs d).keys.all (relativedeltaParameters.contains ·) = true := by
  rw [List.all_eq_true]
  intro k hk
  obtain ⟨v, hv⟩ := Dict.mem_keys.mp hk
  rw [List.contains_iff_mem]
  by_cases hne : k = "weekday"
  · subst hne
    decide
  rw [get?_decodedKwargs_of_ne d hne, Option.filter_eq_some_iff] at hv
  have hvars : k ∈ relativedeltaParameters ++ ["_has_time"] := Dict.mem_keys.mpr ⟨v, hv.1⟩
  rw [List.mem_append, List.mem_singleton] at hvars
  rcases hvars with hparam | rfl
  · exact hparam
  · cases hv.2

theorem weekdayArg_decodedKwargs : weekdayArg (decodedKwargs d) "weekday" = .ok d.weekday := by
  rw [weekdayArg, get?_decodedKwargs_weekday]
  cases d.weekday <;> rfl

theorem relativedeltaArgs_decodedKwargs :
    relativedeltaArgs (decodedKwargs d) = .ok d.dropZeros := by
  have hget := get?_decodedKwargs d
  unfold relativedeltaArgs
  rw [keys_decodedKwargs, integerArg_eq (hget "years" (by decide)),
    integerArg_eq (hget "months" (by decide)),
    relativeArg_eq (hget "days" (by decide)),
    relativeArg_eq (hget "leapdays" (by decide)),
    relativeArg_eq (hget "hours" (by decide)),
    relativeArg_eq (hget "minutes" (by decide)),
    relativeArg_eq (hget "seconds" (by decide)),
    relativeArg_eq (hget "microseconds" (by decide)),
    absoluteArg_eq (hget "year" (by decide)),
    absoluteArg_eq (hget "month" (by decide)),
    absoluteArg_eq (hget "day" (by decide)),
    absoluteArg_eq (hget "hour" (by decide)),
    absoluteArg_eq (hget "minute" (by decide)),
    absoluteArg_eq (hget "second" (by decide)),
    absoluteArg_eq (hget "microsecond" (by decide)),
    weekdayArg_decodedKwargs]
  rfl

end

section
variable {DateTime Naive : Type} (lib : Library DateTime Naive)

/-- **The codec of a `relativedelta` loses the absolute fields that are 0**, and nothing else. -/
theorem decodeRelativedelta_encodeRelativedelta (d : RelativeDelta) :
    decodeRelativedelta lib (encodeRelativedelta d) = lib.relativedelta d.dropZeros := by
  unfold decodeRelativedelta
  rw [decodeWeekday_encodeRelativedelta]
  show (do lib.relativedelta (← relativedeltaArgs (decodedKwargs d))) = _
  rw [relativedeltaArgs_decodedKwargs]
  rfl

variable {lib} {config : Config}

/-- A `relativedelta` that the constructor has built is decoded as it was if and only if no
absolute field of it is 0. -/
theorem decodeRelativedelta_encodeRelativedelta_eq_self (hlib : lib.Documented)
    {d : RelativeDelta} (hbuilt : ∃ a, lib.relativedelta a = .ok d) :
    decodeRelativedelta lib (encodeRelativedelta d) = .ok d ↔ some 0 ∉ d.absolutes := by
  rw [decodeRelativedelta_encodeRelativedelta]
  constructor
  · intro h
    rw [← dropZeros_absolutes_eq]
    exact (hlib.relativedelta_absolutes _ _ h).symm
  · intro h
    obtain ⟨a, ha⟩ := hbuilt
    rw [dropZeros_eq_self h]
    exact hlib.relativedelta_self a d ha

/-! ## Timetables that schedule the same -/

variable (lib) in
/-- The same expression in zones that are the same to every datetime. -/
structure CronMixin.Same (a b : CronMixin) : Prop where
  expression : a.expression = b.expression
  timezone : lib.SameZone a.timezone b.timezone

namespace CronMixin.Same

variable {a b : CronMixin} (h : CronMixin.Same lib a b)
include h

theorem getNext : a.getNext lib = b.getNext lib := by
  funext current
  simp only [CronMixin.getNext, Library.makeNaive, Library.makeAware, h.expression, h.timezone.1,
    h.timezone.2]

theorem getPrev : a.getPrev lib = b.getPrev lib := by
  funext current
  simp only [CronMixin.getPrev, Library.makeNaive, Library.makeAware, h.expression, h.timezone.1,
    h.timezone.2]

theorem alignToNext : a.alignToNext lib = b.alignToNext lib := by
  funext current
  simp only [CronMixin.alignToNext, h.getNext, h.getPrev]

theorem alignToPrev : a.alignToPrev lib = b.alignToPrev lib := by
  funext current
  simp only [CronMixin.alignToPrev, h.getNext, h.getPrev]

theorem cronMethods (now : DateTime) : cronMethods lib now a = cronMethods lib now b := by
  simp only [Timetables.cronMethods, h.getNext, h.getPrev, h.alignToNext, h.alignToPrev]

end CronMixin.Same

variable (lib) in
/-- Timetables that differ in the name of their zone at most. -/
inductive Timetable.Same : Timetable → Timetable → Prop
  | refl (t : Timetable) : Same t t
  | cronDataInterval {a b : CronMixin} (h : CronMixin.Same lib a b) :
    Same (.cronDataInterval a) (.cronDataInterval b)
  | cronTrigger {a b : CronMixin} (interval : Delta) (h : CronMixin.Same lib a b) :
    Same (.cronTrigger a interval) (.cronTrigger b interval)

theorem nextDagrunInfo_congr {t t' : Timetable} (h : Timetable.Same lib t t')
    (now : DateTime) (last : Option (DataInterval DateTime))
    (restriction : TimeRestriction DateTime) :
    t.nextDagrunInfo lib now last restriction = t'.nextDagrunInfo lib now last restriction := by
  cases h with
  | refl => rfl
  | cronDataInterval h =>
    show (cronMethods lib now _).nextDagrunInfo lib last restriction = _
    rw [h.cronMethods]
    rfl
  | cronTrigger interval h =>
    simp only [Timetable.nextDagrunInfo, triggerNextDagrunInfo, h.getNext, h.alignToNext,
      h.alignToPrev]

/-! ## The timetable of the decoded DAG -/

theorem expressionOf_expressionOf (cron : String) :
    expressionOf (expressionOf cron) = expressionOf cron := by
  have hvalues : ∀ e ∈ cronPresets, expressionOf e.2 = e.2 := by decide
  cases hlookup : cronPresets.lookup cron with
  | none =>
    have heq : expressionOf cron = cron := by rw [expressionOf, hlookup]; rfl
    rw [heq, heq]
  | some expression =>
    have heq : expressionOf cron = expression := by rw [expressionOf, hlookup]; rfl
    rw [heq]
    obtain ⟨l₁, l₂, hpresets, -⟩ := List.lookup_eq_some_iff.mp hlookup
    exact hvalues (cron, expression) (by rw [hpresets]; simp)

theorem CronMixin.init_eq_ok {cron : String} {timezone : Timezone} {c : CronMixin} :
    CronMixin.init lib cron timezone = .ok c ↔
      CronMixin.describe lib (expressionOf cron) = .ok c.description ∧
        c.expression = expressionOf cron ∧ c.timezone = timezone := by
  obtain ⟨expression, tz, description⟩ := c
  unfold CronMixin.init
  cases CronMixin.describe lib (expressionOf cron) with
  | error e => simp [Except.map]
  | ok described =>
    simp only [Except.map, Except.ok.injEq, CronMixin.mk.injEq]
    constructor
    · rintro ⟨rfl, rfl, rfl⟩
      exact ⟨rfl, rfl, rfl⟩
    · rintro ⟨rfl, rfl, rfl⟩
      exact ⟨rfl, rfl, rfl⟩

/-- A `CronMixin` is built in every zone where it is built in one, from its expression too. -/
theorem CronMixin.init_of_init {cron cron' : String} {tz tz' : Timezone} {c : CronMixin}
    (h : CronMixin.init lib cron tz = .ok c) (hcron : expressionOf cron' = expressionOf cron)
    (htz : lib.SameZone tz tz') :
    ∃ c', CronMixin.init lib cron' tz' = .ok c' ∧ CronMixin.Same lib c c' := by
  obtain ⟨hdescription, hexpression, rfl⟩ := CronMixin.init_eq_ok.mp h
  refine ⟨{ c with timezone := tz' }, CronMixin.init_eq_ok.mpr ⟨?_, ?_, rfl⟩, rfl, htz⟩
  · rw [hcron]
    exact hdescription
  · rw [hcron]
    exact hexpression

/-- The zones a DAG can have: fixed ones and those that `pendulum.tz.timezone` has returned. -/
def Known (lib : Library DateTime Naive) : Timezone → Prop
  | .fixed _ => True
  | .named name => ∃ a, lib.timezone a = .ok (.named name)

theorem decodeTimezone_encodeTimezone (hlib : lib.Documented) {tz : Timezone}
    (htz : Known lib tz) :
    ∃ tz', decodeTimezone lib (encodeTimezone tz) = .ok tz' ∧ lib.SameZone tz tz' := by
  cases tz with
  | fixed offset =>
    by_cases hoffset : offset = 0
    · subst hoffset
      exact hlib.timezone_utc
    · rw [encodeTimezone, if_neg hoffset]
      exact hlib.timezone_offset offset hoffset
  | named name =>
    obtain ⟨a, ha⟩ := htz
    exact hlib.timezone_name a name ha

theorem CronMixin.decode_encode (hlib : lib.Documented) {cron : String} {tz : Timezone}
    (htz : Known lib tz) {c : CronMixin} (h : CronMixin.init lib cron tz = .ok c) :
    ∃ c', CronMixin.decode lib c.encode = .ok c' ∧ CronMixin.Same lib c c' := by
  obtain ⟨-, hexpression, hzone⟩ := CronMixin.init_eq_ok.mp h
  obtain ⟨tz', hdecode, hsame⟩ := decodeTimezone_encodeTimezone hlib htz
  have hinit : CronMixin.decode lib c.encode = CronMixin.init lib c.expression tz' := by
    show (decodeTimezone lib (encodeTimezone c.timezone)).bind
      (CronMixin.init lib c.expression) = _
    rw [hzone, hdecode]
    rfl
  rw [hinit]
  refine CronMixin.init_of_init h ?_ hsame
  rw [hexpression, expressionOf_expressionOf]

/-- The timetables of the schedules that are strings. -/
theorem createTimetable_str_eq_ok {s : String} {tz : Timezone} {t : Timetable} :
    createTimetable lib config (.str s) tz = .ok t ↔
      (s = "@once" ∧ .once = t) ∨
      (s = "@continuous" ∧ .continuous = t) ∨
      ((s ≠ "@once" ∧ s ≠ "@continuous") ∧ ∃ c, CronMixin.init lib s tz = .ok c ∧
        (if config.createCronDataIntervals then .cronDataInterval c
          else .cronTrigger c (.timedelta .zero)) = t) := by
  unfold createTimetable
  by_cases honce : s = "@once"
  · simp [honce]
  by_cases hcontinuous : s = "@continuous"
  · simp [hcontinuous]
  simp only [honce, hcontinuous, if_false, false_and, false_or, ne_eq, not_false_eq_true,
    and_self, true_and]
  cases config.createCronDataIntervals with
  | true => simp only [if_true, Traced.map_eq_ok]
  | false => simp only [Bool.false_eq_true, if_false, Traced.map_eq_ok]

theorem createTimetable_of_sameZone {schedule : ScheduleInterval} {tz tz' : Timezone}
    (hzone : lib.SameZone tz tz') {t : Timetable}
    (h : createTimetable lib config schedule tz = .ok t) :
    ∃ t', createTimetable lib config schedule tz' = .ok t' ∧
      Timetable.Same lib t t' := by
  cases schedule with
  | none | timedelta | relativedelta =>
    cases h
    exact ⟨_, rfl, .refl _⟩
  | str s =>
    rcases createTimetable_str_eq_ok.mp h with honce | hcontinuous | ⟨hne, c, hc, rfl⟩
    · exact ⟨t, createTimetable_str_eq_ok.mpr (.inl honce), .refl t⟩
    · exact ⟨t, createTimetable_str_eq_ok.mpr (.inr (.inl hcontinuous)), .refl t⟩
    · obtain ⟨c', hc', hsame⟩ := CronMixin.init_of_init hc rfl hzone
      refine ⟨_, createTimetable_str_eq_ok.mpr (.inr (.inr ⟨hne, c', hc', rfl⟩)), ?_⟩
      cases config.createCronDataIntervals with
      | true => exact .cronDataInterval hsame
      | false => exact .cronTrigger _ hsame

/-- A timetable that is stored in place of its schedule comes back with the decoded zone. -/
theorem decodeTimetable_encodeTimetable (hlib : lib.Documented) {s : String} {tz : Timezone}
    (htz : Known lib tz) {t : Timetable}
    (h : createTimetable lib config (.str s) tz = .ok t) :
    ∃ t', decodeTimetable lib (encodeTimetable t) = .ok t' ∧
      Timetable.Same lib t t' := by
  rcases createTimetable_str_eq_ok.mp h with ⟨-, rfl⟩ | ⟨-, rfl⟩ | ⟨-, c, hc, rfl⟩
  · exact ⟨_, rfl, .refl _⟩
  · exact ⟨_, rfl, .refl _⟩
  obtain ⟨c', hdecode, hsame⟩ := CronMixin.decode_encode hlib htz hc
  cases config.createCronDataIntervals with
  | true =>
    refine ⟨.cronDataInterval c', ?_, .cronDataInterval hsame⟩
    show (CronMixin.decode lib c.encode).bind _ = _
    rw [hdecode]
    rfl
  | false =>
    refine ⟨.cronTrigger c' (.timedelta .zero), ?_, .cronTrigger _ hsame⟩
    have hzero : decodeDelta lib (encodeDelta (.timedelta .zero)) = .ok (.timedelta .zero) := by
      show (Timedelta.ofSeconds (Timedelta.totalSeconds .zero)).map _ = _
      rw [Timedelta.ofSeconds_totalSeconds]
      rfl
    show (decodeDelta lib (encodeDelta (.timedelta .zero))).bind
      (fun interval => (CronMixin.decode lib c.encode).bind _) = _
    rw [hzero]
    show (CronMixin.decode lib c.encode).bind _ = _
    rw [hdecode]
    rfl

/-! ## The schedule -/

/-- A `relativedelta` schedule has been built by the constructor. -/
def ScheduleInterval.Built (lib : Library DateTime Naive) : ScheduleInterval → Prop
  | .relativedelta d => ∃ a, lib.relativedelta a = .ok d
  | _ => True

/-- No absolute field of a `relativedelta` schedule is 0. -/
def ScheduleInterval.NoZeroField : ScheduleInterval → Prop
  | .relativedelta d => some 0 ∉ d.absolutes
  | _ => True

theorem deserializeInterval_serializeInterval (hlib : lib.Documented)
    {schedule : ScheduleInterval} (hbuilt : schedule.Built lib) (hzero : schedule.NoZeroField) :
    deserializeInterval lib (serializeInterval schedule) = .ok schedule := by
  cases schedule with
  | none => rfl
  | str s => rfl
  | timedelta d =>
    show (Timedelta.ofSeconds d.totalSeconds).map _ = _
    rw [Timedelta.ofSeconds_totalSeconds]
    rfl
  | relativedelta d =>
    show (decodeRelativedelta lib (encodeRelativedelta d)).map _ = _
    rw [(decodeRelativedelta_encodeRelativedelta_eq_self hlib hbuilt).mpr hzero]
    rfl

theorem deserializeDag_serializeDag (hlib : lib.Documented) {schedule : ScheduleInterval}
    (hbuilt : schedule.Built lib) (hzero : schedule.NoZeroField) {tz : Timezone}
    (htz : Known lib tz) {dag : DAG} (h : DAG.init lib config schedule tz = .ok dag) :
    ∃ dag', deserializeDag lib config (serializeDag lib dag) = .ok dag' ∧
      Timetable.Same lib dag.timetable dag'.timetable := by
  obtain ⟨t, ht, rfl⟩ := Traced.map_eq_ok.mp h
  obtain ⟨tz', hzone, hsame⟩ := decodeTimezone_encodeTimezone hlib htz
  by_cases hsummary : .str (t.summary lib) = schedule
  · subst hsummary
    obtain ⟨t', ht', hsame'⟩ := decodeTimetable_encodeTimetable hlib htz ht
    refine ⟨{ scheduleInterval := .str (t'.summary lib), timezone := tz', timetable := t' },
      ?_, hsame'⟩
    simp only [serializeDag, if_true, deserializeDag, hzone, ht']
    rfl
  · obtain ⟨t', ht', hsame'⟩ := createTimetable_of_sameZone hsame ht
    refine ⟨{ scheduleInterval := schedule, timezone := tz', timetable := t' }, ?_, hsame'⟩
    have hinterval := deserializeInterval_serializeInterval hlib hbuilt hzero
    simp only [serializeDag, if_neg hsummary, deserializeDag, hzone, Option.mapM_some, hinterval]
    show (createTimetable lib config schedule tz').bind _ = _
    rw [ht']
    rfl

variable (lib config) in
/-- The schedule of a DAG survives serialization: the decoded DAG schedules the same, and a
`relativedelta` is decoded as it was. -/
structure SchedulePreserved (schedule : ScheduleInterval) (tz : Timezone) : Prop where
  nextDagrunInfo : ∀ dag, DAG.init lib config schedule tz = .ok dag →
    ∃ dag', deserializeDag lib config (serializeDag lib dag) = .ok dag' ∧
      ∀ now last restriction, dag'.timetable.nextDagrunInfo lib now last restriction =
        dag.timetable.nextDagrunInfo lib now last restriction
  relativedelta : ∀ d, schedule = .relativedelta d →
    decodeRelativedelta lib (encodeRelativedelta d) = .ok d

/-- **The schedule survives serialization if and only if it is no `relativedelta` with an absolute
field that is 0.** -/
theorem schedulePreserved_iff (hlib : lib.Documented) (schedule : ScheduleInterval)
    (hbuilt : schedule.Built lib) (tz : Timezone) (htz : Known lib tz) :
    SchedulePreserved lib config schedule tz ↔ schedule.NoZeroField := by
  constructor
  · intro h
    cases schedule with
    | relativedelta d =>
      exact (decodeRelativedelta_encodeRelativedelta_eq_self hlib hbuilt).mp (h.relativedelta d rfl)
    | none | str | timedelta => trivial
  · intro hzero
    constructor
    · intro dag hdag
      obtain ⟨dag', hdag', hsame⟩ := deserializeDag_serializeDag hlib hbuilt hzero htz hdag
      exact ⟨dag', hdag', fun now last restriction =>
        (nextDagrunInfo_congr hsame now last restriction).symm⟩
    · rintro d rfl
      exact (decodeRelativedelta_encodeRelativedelta_eq_self hlib hbuilt).mpr hzero

end

/-! ## A schedule that is lost -/

/-- The offset of a fixed zone, and of UTC, the only zone of the database here. -/
def fixedOffset : Timezone → Int
  | .fixed offset => offset
  | .named _ => 0

/-- A time of day in seconds, with the absolute fields of `d`. -/
def replaceTime (time : Int) (d : RelativeDelta) : Int :=
  d.hour.getD (time / 3600) * 3600 + d.minute.getD (time / 60 % 60) * 60 + d.second.getD (time % 60)

/-- `t + d` on naive seconds for a `d` of days and times of day, or `t - d` with the sign -1. -/
def addRelativedelta (sign t : Int) (d : RelativeDelta) : Except PyError Int :=
  if ({ days := d.days, hours := d.hours, minutes := d.minutes, seconds := d.seconds
        hour := d.hour, minute := d.minute, second := d.second } : RelativeDelta) = d then
    .ok (t / 86400 * 86400 + replaceTime (t % 86400) d +
      sign * ⌊d.days * 86400 + d.hours * 3600 + d.minutes * 60 + d.seconds⌋)
  else .error (.other "NotImplementedError")

def addDelta (sign t : Int) : Delta → Except PyError Int
  | .timedelta d => .ok (t + sign * (d.microseconds / 1000000))
  | .relativedelta d => addRelativedelta sign t d

/-- Datetimes in zones with a fixed offset: the seconds since the epoch and the offset. It knows
`relativedelta` objects in normal form and no cron expressions. -/
def fixedZones : Library (Int × Int) Int where
  relativedelta d :=
    if |d.months| ≤ 11 ∧ |d.hours| ≤ 23 ∧ |d.minutes| ≤ 59 ∧ |d.seconds| ≤ 59 ∧
      |d.microseconds| ≤ 999999 then .ok d
    else .error (.other "NotImplementedError")
  timezone
    | .inl name => if name = "UTC" then .ok (.named "UTC") else .error (.other "InvalidTimezone")
    | .inr offset => .ok (.fixed offset)
  utc := .named "UTC"
  eq a b := a.1 = b.1
  lt a b := a.1 < b.1
  inTimezone t tz := (t.1, fixedOffset tz)
  naive t := t.1 + t.2
  convert t tz := (t - fixedOffset tz, fixedOffset tz)
  add t d := (addDelta 1 (t.1 + t.2) d).map fun n => (n - t.2, t.2)
  sub t d := (addDelta (-1) (t.1 + t.2) d).map fun n => (n - t.2, t.2)
  naiveSub a b := if h : _ then ⟨(a - b) * 1000000, h⟩ else .zero
  str
    | .timedelta _ => "1 day, 0:00:00"
    | .relativedelta d =>
      if d.hour = none then "relativedelta(days=+1)" else "relativedelta(days=+1, hour=0)"
  timestamp t := t.1
  fromTimestamp s t := .ok (⌊s⌋, t.2)
  description _ := .error .formatException
  expanded _ := .error .croniterBadCronError
  cronNext _ _ := .error .croniterBadCronError
  cronPrev _ _ := .error .croniterBadCronError

theorem fixedZones_documented : fixedZones.Documented where
  relativedelta_self a d h := by
    simp only [fixedZones] at h ⊢
    split at h
    · next hnormal =>
      cases h
      rw [if_pos hnormal]
    · cases h
  relativedelta_absolutes a d h := by
    simp only [fixedZones] at h
    split at h <;> cases h
    rfl
  timezone_utc := ⟨.named "UTC", rfl, fun _ => rfl, fun _ => rfl⟩
  timezone_offset offset _ := ⟨.fixed offset, rfl, fun _ => rfl, fun _ => rfl⟩
  timezone_name a name h := by
    cases a with
    | inl s =>
      simp only [fixedZones] at h
      split at h <;> cases h
      exact ⟨.named "UTC", rfl, fun _ => rfl, fun _ => rfl⟩
    | inr offset => cases h

/-- The schedule `relativedelta(days=1)` survives. -/
theorem daily_preserved :
    SchedulePreserved fixedZones ⟨true⟩ (.relativedelta { days := 1 }) (.named "UTC") :=
  (schedulePreserved_iff fixedZones_documented (.relativedelta { days := 1 })
    (Exists.intro { days := 1 } (by decide +kernel)) (.named "UTC")
    (Exists.intro (.inl "UTC") rfl)).mpr (by
      show some 0 ∉ RelativeDelta.absolutes { days := 1 }
      decide)

/-- `relativedelta(days=1, hour=0)` runs at midnight, but is decoded as `relativedelta(days=1)`:
from noon on the scheduler runs the DAG at noon. -/
theorem midnight_lost :
    ¬SchedulePreserved fixedZones ⟨true⟩ (.relativedelta { days := 1, hour := some 0 })
      (.named "UTC") := by
  intro h
  obtain ⟨dag', hdag', hsame⟩ := h.nextDagrunInfo _ rfl
  have hdecoded : deserializeDag fixedZones ⟨true⟩ (serializeDag fixedZones
      { scheduleInterval := .relativedelta { days := 1, hour := some 0 }
        timezone := .named "UTC"
        timetable := .delta (.relativedelta { days := 1, hour := some 0 }) }) =
      .ok { scheduleInterval := .relativedelta { days := 1 }, timezone := .named "UTC",
            timetable := .delta (.relativedelta { days := 1 }) } := by decide +kernel
  rw [hdecoded] at hdag'
  cases hdag'
  have hnoon := hsame (0, 0) none { earliest := some (43200, 0), latest := none, catchup := true }
  revert hnoon
  decide +kernel

end Airflow.Timetables
