import Airflow.Timetables.Proof.Restriction
import Airflow.Timetables.Timetable

/-!
# The latest complete interval

Without catchup a run starts where the latest complete interval does. For a cron expression
`_skip_to_latest` finds it. For a delta it rounds the time to a multiple of seconds since the epoch
and goes back a delta from there, which is right for a `timedelta`; a `relativedelta` is rounded by
seconds that stand for it, of which there may be none, or more than its calendar period has
(`skipToLatest_last_iff`). Numbers of seconds are exact here.
-/

namespace Airflow.Timetables

variable {DateTime Naive : Type} {lib : Library DateTime Naive} {clock : Clock lib Int}

/-! ## Datetimes and deltas -/

/-- The instants of datetimes: microseconds since the epoch, from `datetime.min` to
`datetime.max`. -/
def InRange (t : Int) : Prop := -62135596800000000 ≤ t ∧ t ≤ 253402300799999999

instance (t : Int) : Decidable (InRange t) := inferInstanceAs (Decidable (_ ∧ _))

def inRange (t : Int) : Option Int := if InRange t then some t else none

theorem inRange_eq_some {t t' : Int} : inRange t = some t' ↔ InRange t ∧ t = t' := by
  simp [inRange]

/-- Where a `relativedelta` leads to in UTC, forth and back. -/
structure Calendar where
  plus : RelativeDelta → Int → Option Int
  minus : RelativeDelta → Int → Option Int

namespace Calendar

variable (calendar : Calendar)

def add : Delta → Int → Option Int
  | .timedelta d, t => inRange (t + d.microseconds)
  | .relativedelta d, t => calendar.plus d t

def sub : Delta → Int → Option Int
  | .timedelta d, t => inRange (t - d.microseconds)
  | .relativedelta d, t => calendar.minus d t

end Calendar

/-- The result is a datetime of this instant, or an exception if there is none. -/
def Arrives (clock : Clock lib Int) (result : Except PyError DateTime) : Option Int → Prop
  | some t => ∃ r, result = .ok r ∧ clock.instant r = t
  | none => ∃ err, result = .error err

def InUtc (lib : Library DateTime Naive) (t : DateTime) : Prop := lib.convertToUtc t = t

/-- The documented behaviour of datetimes in UTC: instants are counted in microseconds, an
operation that leaves the range of datetimes raises an exception, and the zone is kept. -/
structure UtcDatetimes (clock : Clock lib Int) (calendar : Calendar) : Prop where
  timestamp : ∀ t, lib.timestamp t = clock.instant t / 1000000
  fromTimestamp : ∀ s t,
    Arrives clock (lib.fromTimestamp s t) (inRange (roundHalfEven (s * 1000000)))
  fromTimestamp_utc : ∀ s t r, InUtc lib t → lib.fromTimestamp s t = .ok r → InUtc lib r
  add : ∀ t d, InUtc lib t → Arrives clock (lib.add t d) (calendar.add d (clock.instant t))
  sub : ∀ t d, InUtc lib t → Arrives clock (lib.sub t d) (calendar.sub d (clock.instant t))
  utc_instant : ∀ t, clock.instant (lib.convertToUtc t) = clock.instant t
  utc : ∀ t, InUtc lib (lib.convertToUtc t)

/-- Adding a `timedelta` to a naive datetime leads to a later one exactly if it is positive. -/
def Forward (naive : NaiveDatetime Naive) : Prop :=
  ∀ t d n, naive.add t (.timedelta d) = .ok n → (naive.le n t = true ↔ d.microseconds ≤ 0)

/-! ## What is wanted, and when it is met -/

/-- A start is returned whose interval is the last one that is over. -/
def ReturnsLast (clock : Clock lib Int) (methods : DataIntervalMethods DateTime)
    (now : DateTime) : Prop :=
  ∃ start «end» next, methods.skipToLatest none = .ok start ∧ methods.getNext start = .ok «end» ∧
    methods.getNext «end» = .ok next ∧ clock.instant «end» ≤ clock.instant now ∧
    clock.instant now < clock.instant next

/-- The last multiple of so many seconds since the epoch. -/
def lastMultiple (seconds : ℚ) (now : Int) : Int :=
  roundHalfEven (seconds * ⌊(now : ℚ) / 1000000 / seconds⌋ * 1000000)

/-- The time since `rounded`, and what a step back from there and forth again loses, are together
less than the calendar period that follows. -/
def WithinPeriod (calendar : Calendar) (d : RelativeDelta) (rounded now : Int) : Prop :=
  ∃ again, calendar.minus d rounded >>= calendar.plus d = some again ∧
    ∃ next, calendar.plus d again = some next ∧
      0 ≤ (now - rounded) + (rounded - again) ∧
      (now - rounded) + (rounded - again) < next - again

/-- When the latest complete interval is found. -/
def FindsLastWhen (calendar : Calendar) (now : Int) : DataIntervalTimetable → Prop
  | .cron _ => True
  | .delta (.timedelta d) =>
    let rounded := now - now % d.microseconds
    InRange (rounded - d.microseconds) ∧ InRange (rounded + d.microseconds)
  | .delta (.relativedelta d) =>
    relativedeltaInSeconds d ≠ 0 ∧
      let rounded := lastMultiple (relativedeltaInSeconds d) now
      InRange rounded ∧ WithinPeriod calendar d rounded now

/-! ## Cron -/

theorem Ticks.returnsLast {cron : CronMixin} {ticks : Set Int} (h : Ticks clock cron ticks)
    (now : DateTime) : ReturnsLast clock (cronMethods lib now cron) now := by
  obtain ⟨b, hb, -, e, heleast, henow, hlast⟩ := h.skipToLatest_spec now
  obtain ⟨n, hn, hnleast⟩ := h.next b
  obtain ⟨n', hn', ⟨hmem, hlt⟩, -⟩ := h.next n
  rw [hnleast.unique heleast] at hlt
  refine ⟨b, n, n', hb, hn, hn', ?_, hlast _ hmem hlt⟩
  rw [hnleast.unique heleast]
  exact henow

/-! ## Deltas -/

/-- The seconds that a delta is rounded by. -/
def secondsOf : Delta → ℚ
  | .timedelta d => d.totalSeconds
  | .relativedelta d => relativedeltaInSeconds d

theorem Arrives.exists_iff {result : Except PyError DateTime} {found : Option Int}
    (h : Arrives clock result found) {P : DateTime → Prop} {Q : Int → Prop}
    (hPQ : ∀ r, result = .ok r → (P r ↔ Q (clock.instant r))) :
    (∃ r, result = .ok r ∧ P r) ↔ ∃ t, found = some t ∧ Q t := by
  cases found with
  | none =>
    obtain ⟨err, rfl⟩ := h
    simp
  | some t =>
    obtain ⟨r, rfl, rfl⟩ := h
    simpa using hPQ r rfl

section
variable {calendar : Calendar} {now : DateTime} {delta : Delta}

/-- `_round`. -/
theorem roundToDelta_eq (h : UtcDatetimes clock calendar) (delta : Delta) (dt : DateTime) :
    roundToDelta lib delta dt = if secondsOf delta = 0 then .error .zeroDivisionError else
      lib.fromTimestamp (secondsOf delta * ⌊(clock.instant dt : ℚ) / 1000000 / secondsOf delta⌋)
        dt := by
  have hround : roundToDelta lib delta dt = (pyMod (lib.timestamp dt) (secondsOf delta)).bind
      fun remainder => lib.fromTimestamp (lib.timestamp dt - remainder) dt := by
    cases delta <;> rfl
  rw [hround, pyMod, h.timestamp]
  split
  · rfl
  · simp only [Except.bind, sub_sub_cancel]

/-- What `_skip_to_latest` and two steps of `_get_next` compute. -/
theorem deltaReturnsLast_iff_steps :
    ReturnsLast clock (deltaMethods lib now delta) now ↔
      ∃ rounded, roundToDelta lib delta now = .ok rounded ∧
      ∃ start, lib.sub rounded delta = .ok start ∧
      ∃ «end», lib.add (lib.convertToUtc start) delta = .ok «end» ∧
      ∃ next, lib.add (lib.convertToUtc «end») delta = .ok next ∧
        clock.instant (lib.convertToUtc «end») ≤ clock.instant now ∧
        clock.instant now < clock.instant (lib.convertToUtc next) := by
  have hskip : (deltaMethods lib now delta).skipToLatest none =
      (roundToDelta lib delta now).bind fun rounded =>
        (lib.sub rounded delta).map lib.convertToUtc := by
    change (do
      let newStart := lib.convertToUtc (← lib.sub (← roundToDelta lib delta now) delta)
      return newStart) = _
    cases roundToDelta lib delta now with
    | error err => rfl
    | ok rounded =>
      cases hsub : lib.sub rounded delta <;> simp only [bind, Except.bind, hsub] <;> rfl
  have hnext : ∀ t t', (deltaMethods lib now delta).getNext t = .ok t' ↔
      ∃ n, lib.add t delta = .ok n ∧ lib.convertToUtc n = t' := by
    intro t t'
    change (lib.add t delta).map lib.convertToUtc = .ok t' ↔ _
    cases lib.add t delta <;> simp [Except.map]
  unfold ReturnsLast
  rw [hskip]
  simp only [hnext]
  cases roundToDelta lib delta now with
  | error err => simp [Except.bind]
  | ok rounded =>
    cases hsub : lib.sub rounded delta with
    | error err => simp [Except.bind, Except.map, hsub]
    | ok start =>
      simp only [Except.bind, Except.map, hsub, Except.ok.injEq, exists_eq_left']
      constructor
      · rintro ⟨_, _, _, rfl, ⟨e, he, rfl⟩, ⟨n, hn, rfl⟩, hrest⟩
        exact ⟨e, he, n, hn, hrest⟩
      · rintro ⟨e, he, n, hn, hrest⟩
        exact ⟨_, _, _, rfl, ⟨e, he, rfl⟩, ⟨n, hn, rfl⟩, hrest⟩

/-- The same in instants. -/
theorem deltaReturnsLast_iff (h : UtcDatetimes clock calendar) (hnow : InUtc lib now) :
    ReturnsLast clock (deltaMethods lib now delta) now ↔ secondsOf delta ≠ 0 ∧
      ∃ rounded, inRange (lastMultiple (secondsOf delta) (clock.instant now)) = some rounded ∧
      ∃ start, calendar.sub delta rounded = some start ∧
      ∃ «end», calendar.add delta start = some «end» ∧
      ∃ next, calendar.add delta «end» = some next ∧
        «end» ≤ clock.instant now ∧ clock.instant now < next := by
  rw [deltaReturnsLast_iff_steps, roundToDelta_eq h]
  by_cases hzero : secondsOf delta = 0
  · simp [hzero]
  rw [if_neg hzero, and_iff_right hzero]
  refine (h.fromTimestamp _ now).exists_iff fun rounded hrounded => ?_
  have hutc := h.fromTimestamp_utc _ _ _ hnow hrounded
  refine (h.sub rounded delta hutc).exists_iff fun start _ => ?_
  rw [← h.utc_instant start]
  refine (h.add _ delta (h.utc start)).exists_iff fun «end» _ => ?_
  rw [← h.utc_instant «end»]
  refine (h.add _ delta (h.utc «end»)).exists_iff fun next _ => ?_
  rw [h.utc_instant next]

theorem lastMultiple_timedelta {d : Timedelta} (hpos : 0 < d.microseconds) (t : Int) :
    lastMultiple d.totalSeconds t = t - t % d.microseconds := by
  have hd : (d.microseconds : ℚ) ≠ 0 := by exact_mod_cast hpos.ne'
  have hfloor : ⌊(t : ℚ) / 1000000 / d.totalSeconds⌋ = t / d.microseconds := by
    obtain ⟨k, hk⟩ := Int.eq_ofNat_of_zero_le hpos.le
    rw [Timedelta.totalSeconds, div_div_div_cancel_right₀ (by norm_num), hk]
    exact Rat.floor_intCast_div_natCast t k
  have hmultiple : t - t % d.microseconds = d.microseconds * (t / d.microseconds) :=
    sub_eq_iff_eq_add.mpr (Int.mul_ediv_add_emod t d.microseconds).symm
  rw [lastMultiple, hfloor, hmultiple, ← roundHalfEven_intCast (_ * _), Timedelta.totalSeconds]
  congr 1
  push_cast
  field_simp

/-- A positive `timedelta` is rounded by its own length. -/
theorem timedeltaReturnsLast_iff (h : UtcDatetimes clock calendar) (hnow : InUtc lib now)
    (hrange : InRange (clock.instant now)) {d : Timedelta} (hpos : 0 < d.microseconds) :
    ReturnsLast clock (deltaMethods lib now (.timedelta d)) now ↔
      FindsLastWhen calendar (clock.instant now) (.delta (.timedelta d)) := by
  have hzero : secondsOf (.timedelta d) ≠ 0 := by
    have hd : (d.microseconds : ℚ) ≠ 0 := by exact_mod_cast hpos.ne'
    exact div_ne_zero hd (by norm_num)
  have hnonneg := Int.emod_nonneg (clock.instant now) hpos.ne'
  have hlt := Int.emod_lt_of_pos (clock.instant now) hpos
  rw [deltaReturnsLast_iff h hnow, and_iff_right hzero, secondsOf, lastMultiple_timedelta hpos]
  simp only [Calendar.sub, Calendar.add, FindsLastWhen, inRange_eq_some]
  generalize clock.instant now % d.microseconds = remainder at hnonneg hlt
  unfold InRange at hrange ⊢
  constructor
  · rintro ⟨rounded, ⟨hr, rfl⟩, start, ⟨hs, rfl⟩, «end», ⟨he, rfl⟩, next, ⟨hn, rfl⟩, -, -⟩
    exact ⟨hs, by omega⟩
  · rintro ⟨hback, hforth⟩
    refine ⟨_, ⟨by omega, rfl⟩, _, ⟨hback, rfl⟩, _, ⟨by omega, rfl⟩, _, ⟨by omega, rfl⟩, ?_, ?_⟩ <;>
      omega

/-- A `relativedelta` is rounded by seconds that stand for it. -/
theorem relativedeltaReturnsLast_iff (h : UtcDatetimes clock calendar) (hnow : InUtc lib now)
    (d : RelativeDelta) :
    ReturnsLast clock (deltaMethods lib now (.relativedelta d)) now ↔
      FindsLastWhen calendar (clock.instant now) (.delta (.relativedelta d)) := by
  rw [deltaReturnsLast_iff h hnow]
  simp only [secondsOf, Calendar.sub, Calendar.add, FindsLastWhen, WithinPeriod, inRange_eq_some,
    Option.bind_eq_bind, Option.bind_eq_some_iff]
  refine and_congr_right fun _ => ?_
  constructor
  · rintro ⟨_, ⟨hrange, rfl⟩, start, hstart, «end», hend, next, hnext, hle, hlt⟩
    exact ⟨hrange, «end», ⟨start, hstart, hend⟩, next, hnext, by omega, by omega⟩
  · rintro ⟨hrange, «end», ⟨start, hstart, hend⟩, next, hnext, hle, hlt⟩
    exact ⟨_, ⟨hrange, rfl⟩, start, hstart, «end», hend, next, hnext, by omega, by omega⟩

end

/-- An accepted `timedelta` is positive. -/
theorem pos_of_validate {naive : NaiveDatetime Naive} (h : Forward naive) {moment : Naive}
    {d : Timedelta} (haccepted : validate naive moment (.timedelta d) = .ok ()) :
    0 < d.microseconds := by
  cases hadd : naive.add moment (.timedelta d) with
  | error err =>
    simp only [validate, hadd, bind, Except.bind] at haccepted
    cases haccepted
  | ok n =>
    simp only [validate, hadd, bind, Except.bind] at haccepted
    by_contra hnot
    rw [if_pos ((h _ _ _ hadd).mpr (not_lt.mp hnot))] at haccepted
    cases haccepted

/-- The microseconds of a `relativedelta` of days and less. -/
def fixedMicroseconds (d : RelativeDelta) : Int :=
  ⌊relativedeltaInSeconds d * 1000000 + d.microseconds⌋

/-- The calendar of such deltas. -/
def fixedLength : Calendar where
  plus d t := inRange (t + fixedMicroseconds d)
  minus d t := inRange (t - fixedMicroseconds d)

/-- The result of an operation that leads to this instant. -/
def arriving : Option Int → Except PyError Int
  | some t => .ok t
  | none => .error .overflowError

/-- Datetimes in UTC as microseconds since the epoch. -/
def utcLibrary : Library Int Int :=
  { everySecond with
    add t d := arriving (fixedLength.add d t)
    sub t d := arriving (fixedLength.sub d t)
    timestamp t := t / 1000000
    fromTimestamp s _ := arriving (inRange (roundHalfEven (s * 1000000))) }

def utcClock : Clock utcLibrary Int where
  instant t := t
  eq_iff := seconds.eq_iff
  lt_iff := seconds.lt_iff

theorem arrives_arriving (found : Option Int) : Arrives utcClock (arriving found) found := by
  cases found with
  | none => exact ⟨_, rfl⟩
  | some t => exact ⟨t, rfl, rfl⟩

theorem utcDatetimes : UtcDatetimes utcClock fixedLength where
  timestamp _ := rfl
  fromTimestamp _ _ := arrives_arriving _
  fromTimestamp_utc _ _ _ _ _ := rfl
  add _ _ _ := arrives_arriving _
  sub _ _ _ := arrives_arriving _
  utc_instant _ := rfl
  utc _ := rfl

def naiveUtc : NaiveDatetime Int where
  add t d := arriving (fixedLength.add d t)
  le a b := a ≤ b

theorem forward_naiveUtc : Forward naiveUtc := by
  intro t d n hadd
  change arriving (inRange (t + d.microseconds)) = .ok n at hadd
  have hn : n = t + d.microseconds := by
    unfold inRange at hadd
    split at hadd
    · exact (Except.ok.inj hadd).symm
    · cases hadd
  rw [hn, naiveUtc, decide_eq_true_iff]
  omega

theorem fixedMicroseconds_microsecond : fixedMicroseconds { microseconds := 1 } = 1 := by
  have hcount : relativedeltaInSeconds { microseconds := 1 } = 0 := by
    norm_num [relativedeltaInSeconds]
  rw [fixedMicroseconds, hcount]
  norm_num

end Airflow.Timetables
