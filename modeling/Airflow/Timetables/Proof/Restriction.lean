import Airflow.Timetables.Events
import Mathlib.Data.List.TakeWhile
import Mathlib.Order.Bounds.Basic

/-!
# Time restrictions

Cron expressions are taken as a set of ticks that `getNext` and `getPrev` walk exactly (`Ticks`).
A data interval timetable takes the latest of several lower bounds as the next start
(`StartSpec`), so it honours `earliest` and `latest` always, and the last run unless none of its
bounds is later than that (`dataInterval_honours_iff`). `CronTriggerTimetable` goes by the tick, not
by the logical date one interval before (`trigger_honours_iff`), and `EventsTimetable` does not
read the restriction (`events_honours_iff`).
-/

namespace Airflow.Timetables

variable {DateTime Naive T : Type} [LinearOrder T]

/-- The instants behind the datetimes of a library, which it compares datetimes by. -/
structure Clock (lib : Library DateTime Naive) (T : Type) [LinearOrder T] where
  instant : DateTime → T
  eq_iff : ∀ a b, lib.eq a b = true ↔ instant a = instant b
  lt_iff : ∀ a b, lib.lt a b = true ↔ instant a < instant b

/-- The cron expression ticks at `ticks`, and its next and previous ticks are exact. -/
structure Ticks {lib : Library DateTime Naive} (clock : Clock lib T) (cron : CronMixin)
    (ticks : Set T) : Prop where
  next : ∀ t, ∃ n, cron.getNext lib t = .ok n ∧
    IsLeast {s | s ∈ ticks ∧ clock.instant t < s} (clock.instant n)
  prev : ∀ t, ∃ p, cron.getPrev lib t = .ok p ∧
    IsGreatest {s | s ∈ ticks ∧ s < clock.instant t} (clock.instant p)

variable {lib : Library DateTime Naive} (clock : Clock lib T)

/-- A run that is returned lies within the restriction and after the last run. -/
def Honours (last : Option (DataInterval DateTime)) (restriction : TimeRestriction DateTime)
    (result : Except PyError (Option (DagRunInfo DateTime))) : Prop :=
  ∀ info, result = .ok (some info) →
    (∀ earliest, restriction.earliest = some earliest →
      clock.instant earliest ≤ clock.instant info.logicalDate) ∧
    (∀ latest, restriction.latest = some latest →
      clock.instant info.logicalDate ≤ clock.instant latest) ∧
    ∀ interval, last = some interval →
      clock.instant interval.start < clock.instant info.logicalDate

theorem Clock.instant_max (a b : DateTime) :
    clock.instant (lib.max a b) = max (clock.instant a) (clock.instant b) := by
  unfold Library.max
  by_cases h : lib.lt a b
  · rw [if_pos h, max_eq_right ((clock.lt_iff a b).mp h).le]
  · rw [if_neg h, max_eq_left]
    rw [clock.lt_iff] at h
    exact not_lt.mp h

theorem Clock.any_latest {latest : Option DateTime} {start : DateTime} :
    latest.any (lib.lt · start) = true ↔
      ∃ x, latest = some x ∧ clock.instant x < clock.instant start := by
  cases latest with
  | none => simp
  | some x => simpa using clock.lt_iff x start

/-! ## Ticks -/

section
variable {clock} {cron : CronMixin} {ticks : Set T} (h : Ticks clock cron ticks)
include h

/-- `_align_to_next` is the first tick that is not before. -/
theorem Ticks.alignToNext (t : DateTime) : ∃ n, cron.alignToNext lib t = .ok n ∧
    IsLeast {s | s ∈ ticks ∧ clock.instant t ≤ s} (clock.instant n) := by
  obtain ⟨n, hn, ⟨hmem, hlt⟩, hleast⟩ := h.next t
  obtain ⟨p, hp, ⟨hpmem, hplt⟩, hgreatest⟩ := h.prev n
  have hok : cron.alignToNext lib t = .ok (if lib.eq p t then t else n) := by
    simp only [CronMixin.alignToNext, hn, hp, bind, Except.bind, pure, Except.pure]
    cases lib.eq p t <;> rfl
  refine ⟨_, hok, ?_⟩
  by_cases heq : lib.eq p t
  · rw [if_pos heq]
    rw [clock.eq_iff] at heq
    exact ⟨⟨heq ▸ hpmem, le_refl _⟩, fun s hs => hs.2⟩
  · rw [if_neg heq]
    rw [clock.eq_iff] at heq
    refine ⟨⟨hmem, hlt.le⟩, fun s ⟨hs, hle⟩ => ?_⟩
    apply hleast
    refine ⟨hs, lt_of_le_of_ne hle ?_⟩
    -- were `t` a tick, it would be the tick before the next one
    rintro rfl
    apply heq
    apply le_antisymm
    · by_contra hgt
      exact absurd hplt (not_lt.mpr (hleast ⟨hpmem, not_le.mp hgt⟩))
    · exact hgreatest ⟨hs, hlt⟩

/-- `_align_to_prev` is the last tick that is not after. -/
theorem Ticks.alignToPrev (t : DateTime) : ∃ p, cron.alignToPrev lib t = .ok p ∧
    IsGreatest {s | s ∈ ticks ∧ s ≤ clock.instant t} (clock.instant p) := by
  obtain ⟨p, hp, ⟨hmem, hlt⟩, hgreatest⟩ := h.prev t
  obtain ⟨n, hn, ⟨hnmem, hnlt⟩, hleast⟩ := h.next p
  have hok : cron.alignToPrev lib t = .ok (if lib.eq n t then t else p) := by
    simp only [CronMixin.alignToPrev, hn, hp, bind, Except.bind, pure, Except.pure]
    cases lib.eq n t <;> rfl
  refine ⟨_, hok, ?_⟩
  by_cases heq : lib.eq n t
  · rw [if_pos heq]
    rw [clock.eq_iff] at heq
    exact ⟨⟨heq ▸ hnmem, le_refl _⟩, fun s hs => hs.2⟩
  · rw [if_neg heq]
    rw [clock.eq_iff] at heq
    refine ⟨⟨hmem, hlt.le⟩, fun s ⟨hs, hle⟩ => ?_⟩
    apply hgreatest
    refine ⟨hs, lt_of_le_of_ne hle ?_⟩
    rintro rfl
    apply heq
    apply le_antisymm
    · exact hleast ⟨hs, hlt⟩
    · by_contra hgt
      exact absurd hnlt (not_lt.mpr (hgreatest ⟨hnmem, not_le.mp hgt⟩))

/-- Without a start date, `_skip_to_latest` is the start of the last interval that is over. -/
theorem Ticks.skipToLatest_spec (now : DateTime) : ∃ b,
    (cronMethods lib now cron).skipToLatest none = .ok b ∧ clock.instant b ∈ ticks ∧
      ∃ e, IsLeast {s | s ∈ ticks ∧ clock.instant b < s} e ∧ e ≤ clock.instant now ∧
        ∀ s ∈ ticks, e < s → clock.instant now < s := by
  obtain ⟨p, hp, ⟨hpmem, hplt⟩, hpgreatest⟩ := h.prev now
  obtain ⟨n, hn, ⟨hnmem, hnlt⟩, hnleast⟩ := h.next p
  obtain ⟨q, hq, ⟨hqmem, hqlt⟩, hqgreatest⟩ := h.prev p
  have hle : clock.instant now ≤ clock.instant n := by
    by_contra hgt
    exact absurd hnlt (not_lt.mpr (hpgreatest ⟨hnmem, not_le.mp hgt⟩))
  by_cases heq : lib.eq n now
  · refine ⟨p, ?_, hpmem, clock.instant n, ⟨⟨hnmem, hnlt⟩, hnleast⟩, ?_, fun s _ hlt => ?_⟩
    · simp only [cronMethods, hp, hn, heq, bind, Except.bind, pure, Except.pure, if_true]
    · exact ((clock.eq_iff n now).mp heq).le
    · exact hle.trans_lt hlt
  · have hne : clock.instant n ≠ clock.instant now := fun he => heq ((clock.eq_iff _ _).mpr he)
    have hlt : lib.lt now n := (clock.lt_iff _ _).mpr (lt_of_le_of_ne hle hne.symm)
    refine ⟨q, ?_, hqmem, clock.instant p, ⟨⟨hpmem, hqlt⟩, fun s hs => ?_⟩, hplt.le,
      fun s hs hps => ?_⟩
    · simp only [cronMethods, hp, hn, heq, hlt, hq, bind, Except.bind, pure, Except.pure]
      rfl
    · by_contra hsp
      exact absurd hs.2 (not_lt.mpr (hqgreatest ⟨hs.1, not_le.mp hsp⟩))
    · exact (lt_of_le_of_ne hle hne.symm).trans_le (hnleast ⟨hs, hps⟩)

/-- It is the last tick that another one up to now follows. -/
theorem Ticks.skipToLatest (now : DateTime) : ∃ b,
    (cronMethods lib now cron).skipToLatest none = .ok b ∧
      ∀ m, m < clock.instant b ↔
        ∃ t ∈ ticks, ∃ t' ∈ ticks, m < t ∧ t < t' ∧ t' ≤ clock.instant now := by
  obtain ⟨b, hb, hbmem, e, ⟨⟨hemem, hbe⟩, heleast⟩, henow, hlast⟩ := h.skipToLatest_spec now
  refine ⟨b, hb, fun m => ⟨fun hm => ⟨_, hbmem, e, hemem, hm, hbe, henow⟩, ?_⟩⟩
  rintro ⟨t, ht, t', ht', hmt, htt', hnow⟩
  apply hmt.trans_le
  -- a tick after `b` is no earlier than `e`, and no tick after that is over
  by_contra hbt
  have het : e ≤ t := heleast ⟨ht, not_le.mp hbt⟩
  exact absurd hnow (not_le.mpr (hlast t' ht' (het.trans_lt htt')))

end

/-! ## Data intervals -/

/-- What the methods of a data interval timetable are: `next t` and `prev t` hold of the instants
before the aligned `t`, `skipped` of those before the start that `catchup=False` skips to. -/
structure StartSpec (methods : DataIntervalMethods DateTime) (next prev : DateTime → T → Prop)
    (skipped : T → Prop) : Prop where
  alignToNext : ∀ t, ∃ n, methods.alignToNext t = .ok n ∧ clock.instant t ≤ clock.instant n ∧
    ∀ m, m < clock.instant n ↔ next t m
  alignToPrev : ∀ t, ∃ p, methods.alignToPrev t = .ok p ∧ ∀ m, m < clock.instant p ↔ prev t m
  skip_none : ∀ b, methods.skipToLatest none = .ok b → ∀ m, m < clock.instant b ↔ skipped m
  skip_error : (∀ b, methods.skipToLatest none ≠ .ok b) → ∀ m, skipped m
  skip_some : ∀ e, methods.skipToLatest (some e) = do
    let b ← methods.skipToLatest none
    return lib.max b (← methods.alignToNext e)
  getNext : ∀ t, ∃ n, methods.getNext t = .ok n

/-- The next start is later than `m`: one of its lower bounds is. -/
def StartsAfter (next prev : DateTime → T → Prop) (skipped : T → Prop)
    (last : Option (DataInterval DateTime)) (restriction : TimeRestriction DateTime) (m : T) :
    Prop :=
  (∃ interval, last = some interval ∧ prev interval.end m) ∨
  (∃ earliest, restriction.earliest = some earliest ∧ next earliest m) ∨
  (restriction.catchup = false ∧ skipped m)

/-- The last run's start, or `latest` if that is earlier. -/
def lastStart (restriction : TimeRestriction DateTime) (interval : DataInterval DateTime) : T :=
  match restriction.latest with
  | none => clock.instant interval.start
  | some latest => min (clock.instant interval.start) (clock.instant latest)

section
variable {clock} {methods : DataIntervalMethods DateTime} {next prev : DateTime → T → Prop}
  {skipped : T → Prop} (h : StartSpec clock methods next prev skipped)
  (last : Option (DataInterval DateTime)) (restriction : TimeRestriction DateTime)
include h

/-- The lower bound that `earliest` and `catchup` give. -/
theorem StartSpec.earliest_cases :
    ((if !restriction.catchup then some <$> methods.skipToLatest restriction.earliest
      else restriction.earliest.mapM methods.alignToNext) = .ok none ∧
      restriction.catchup = true ∧ restriction.earliest = none) ∨
    ((∀ b, (if !restriction.catchup then some <$> methods.skipToLatest restriction.earliest
      else restriction.earliest.mapM methods.alignToNext) ≠ .ok b) ∧
      restriction.catchup = false ∧ ∀ m, skipped m) ∨
    ∃ b, (if !restriction.catchup then some <$> methods.skipToLatest restriction.earliest
      else restriction.earliest.mapM methods.alignToNext) = .ok (some b) ∧
      ∀ m, m < clock.instant b ↔
        (∃ earliest, restriction.earliest = some earliest ∧ next earliest m) ∨
        (restriction.catchup = false ∧ skipped m) := by
  obtain ⟨earliest, latest, catchup⟩ := restriction
  cases catchup with
  | true =>
    cases earliest with
    | none => exact .inl ⟨rfl, rfl, rfl⟩
    | some e =>
      obtain ⟨n, hn, -, hlt⟩ := h.alignToNext e
      refine .inr (.inr ⟨n, ?_, fun m => ?_⟩)
      · simp [hn]
      · simp [hlt]
  | false =>
    right
    cases hskip : methods.skipToLatest none with
    | error err =>
      left
      refine ⟨fun b => ?_, rfl, h.skip_error fun b => by rw [hskip]; simp⟩
      cases earliest with
      | none => simp [hskip]
      | some e => simp [h.skip_some, hskip, bind, Except.bind]
    | ok b =>
      right
      have hb := h.skip_none b hskip
      cases earliest with
      | none => exact ⟨b, by simp [hskip], by simp [hb]⟩
      | some e =>
        obtain ⟨n, hn, -, hlt⟩ := h.alignToNext e
        refine ⟨lib.max b n, ?_, fun m => ?_⟩
        · simp [h.skip_some, hskip, hn, bind, Except.bind, pure, Except.pure]
        · rw [clock.instant_max, lt_max_iff, hb, hlt]
          simp [or_comm]

omit h in
/-- `next_dagrun_info` from the two bounds on. -/
theorem nextDagrunInfo_eq (restriction : TimeRestriction DateTime) :
    methods.nextDagrunInfo lib last restriction =
      (if !restriction.catchup then some <$> methods.skipToLatest restriction.earliest
        else restriction.earliest.mapM methods.alignToNext).bind fun earliest =>
      Except.bind (match last with
        | none => .ok earliest
        | some interval => (methods.alignToPrev interval.end).bind fun aligned =>
          .ok (some (match earliest with
            | some earliest => lib.max aligned earliest
            | none => aligned))) fun start =>
      match start with
      | none => .ok none
      | some start =>
        if restriction.latest.any (lib.lt · start) then .ok none
        else (methods.getNext start).bind fun «end» => .ok (some (.interval start «end»)) := by
  obtain ⟨earliest, latest, catchup⟩ := restriction
  unfold DataIntervalMethods.nextDagrunInfo
  cases last with
  | none => cases catchup <;> rfl
  | some interval =>
    cases hp : methods.alignToPrev interval.end <;> cases catchup <;>
      simp only [hp, bind, Except.bind] <;> rfl

/-- **The next start is the latest of its lower bounds**, unless an exception is raised or there
is no bound. -/
theorem StartSpec.nextDagrunInfo_cases :
    ((∀ info, methods.nextDagrunInfo lib last restriction ≠ .ok info) ∧
      restriction.catchup = false ∧ ∀ m, skipped m) ∨
    (methods.nextDagrunInfo lib last restriction = .ok none ∧ last = none) ∨
    ∃ start «end», methods.nextDagrunInfo lib last restriction =
        (if restriction.latest.any (lib.lt · start) then .ok none
          else .ok (some (.interval start «end»))) ∧
      ∀ m, m < clock.instant start ↔ StartsAfter next prev skipped last restriction m := by
  have hcases := h.earliest_cases restriction
  rw [nextDagrunInfo_eq]
  generalize (if !restriction.catchup then some <$> methods.skipToLatest restriction.earliest
    else restriction.earliest.mapM methods.alignToNext) = earliest at hcases
  rcases hcases with ⟨rfl, hcatchup, hnone⟩ | ⟨herror, hcatchup, hskipped⟩ | ⟨b, rfl, hb⟩
  · right
    cases last with
    | none => exact .inl ⟨rfl, rfl⟩
    | some interval =>
      obtain ⟨p, hp, hlt⟩ := h.alignToPrev interval.end
      obtain ⟨n, hn⟩ := h.getNext p
      refine .inr ⟨p, n, ?_, fun m => ?_⟩
      · simp only [Except.bind, hp, hn]
      · simp [StartsAfter, hlt, hcatchup, hnone]
  · left
    refine ⟨fun info hok => ?_, hcatchup, hskipped⟩
    cases earliest with
    | error err => cases hok
    | ok b => exact herror b rfl
  · right
    right
    cases last with
    | none =>
      obtain ⟨n, hn⟩ := h.getNext b
      refine ⟨b, n, ?_, fun m => ?_⟩
      · simp only [Except.bind, hn]
      · simp [StartsAfter, hb]
    | some interval =>
      obtain ⟨p, hp, hlt⟩ := h.alignToPrev interval.end
      obtain ⟨n, hn⟩ := h.getNext (lib.max p b)
      refine ⟨lib.max p b, n, ?_, fun m => ?_⟩
      · simp only [Except.bind, hp, hn]
      · rw [clock.instant_max, lt_max_iff, hlt, hb]
        simp [StartsAfter]

/-- **A data interval timetable honours its restriction exactly if, after a last run, one of the
lower bounds of the next start is later than that run or the end date.** -/
theorem dataInterval_honours_iff :
    Honours clock last restriction (methods.nextDagrunInfo lib last restriction) ↔
      ∀ interval, last = some interval →
        StartsAfter next prev skipped last restriction (lastStart clock restriction interval) := by
  rcases h.nextDagrunInfo_cases last restriction with
    ⟨herror, hcatchup, hskipped⟩ | ⟨hnone, hlast⟩ | ⟨start, «end», hok, hstart⟩
  · constructor
    · exact fun _ _ _ => .inr (.inr ⟨hcatchup, hskipped _⟩)
    · exact fun _ info hinfo => absurd hinfo (herror _)
  · constructor
    · intro _ interval hinterval
      rw [hlast] at hinterval
      cases hinterval
    · intro _ info hinfo
      rw [hnone] at hinfo
      cases hinfo
  rw [hok]
  by_cases hlatest : restriction.latest.any (lib.lt · start)
  · rw [if_pos hlatest]
    constructor
    · intro _ interval _
      rw [← hstart]
      obtain ⟨x, hx, hlt⟩ := clock.any_latest.mp hlatest
      simp only [lastStart, hx]
      exact min_lt_of_right_lt hlt
    · rintro - info ⟨⟩
  · rw [if_neg hlatest]
    have hle : ∀ x, restriction.latest = some x → clock.instant start ≤ clock.instant x := by
      intro x hx
      by_contra hgt
      exact hlatest (clock.any_latest.mpr ⟨x, hx, not_le.mp hgt⟩)
    have hearliest : ∀ e, restriction.earliest = some e →
        clock.instant e ≤ clock.instant start := by
      intro e he
      obtain ⟨n, -, hge, hlt⟩ := h.alignToNext e
      by_contra hgt
      have hn : clock.instant start < clock.instant n := lt_of_lt_of_le (not_le.mp hgt) hge
      exact lt_irrefl _ ((hstart _).mpr (.inr (.inl ⟨e, he, (hlt _).mp hn⟩)))
    have hlast : ∀ interval, lastStart clock restriction interval < clock.instant start ↔
        clock.instant interval.start < clock.instant start := by
      intro interval
      unfold lastStart
      cases hx : restriction.latest with
      | none => rfl
      | some x => rw [min_lt_iff, or_iff_left (not_lt.mpr (hle x hx))]
    constructor
    · intro hhonours interval hinterval
      rw [← hstart, hlast]
      exact (hhonours _ rfl).2.2 interval hinterval
    · rintro hafter info ⟨⟩
      refine ⟨hearliest, hle, fun interval hinterval => ?_⟩
      exact (hlast interval).mp ((hstart _).mpr (hafter interval hinterval))

end

section
variable {clock} {cron : CronMixin} {ticks : Set T} (now : DateTime)

/-- **Cron data intervals**: bounded by ticks. -/
theorem Ticks.startSpec (h : Ticks clock cron ticks) :
    StartSpec clock (cronMethods lib now cron)
      (fun t m => ∀ s ∈ ticks, clock.instant t ≤ s → m < s)
      (fun t m => ∃ s ∈ ticks, m < s ∧ s ≤ clock.instant t)
      (fun m => ∃ t ∈ ticks, ∃ t' ∈ ticks, m < t ∧ t < t' ∧ t' ≤ clock.instant now) where
  alignToNext t := by
    obtain ⟨n, hn, ⟨hmem, hle⟩, hleast⟩ := h.alignToNext t
    refine ⟨n, hn, hle, fun m => ⟨fun hm s hs hts => ?_, fun hall => hall _ hmem hle⟩⟩
    exact lt_of_lt_of_le hm (hleast ⟨hs, hts⟩)
  alignToPrev t := by
    obtain ⟨p, hp, ⟨hmem, hle⟩, hgreatest⟩ := h.alignToPrev t
    refine ⟨p, hp, fun m => ⟨fun hm => ⟨_, hmem, hm, hle⟩, fun ⟨s, hs, hms, hst⟩ => ?_⟩⟩
    exact lt_of_lt_of_le hms (hgreatest ⟨hs, hst⟩)
  skip_none b hb := by
    obtain ⟨b', hb', hlt⟩ := h.skipToLatest now
    cases hb.symm.trans hb'
    exact hlt
  skip_error hnone := by
    obtain ⟨b, hb, -⟩ := h.skipToLatest now
    exact absurd hb (hnone b)
  skip_some e := by
    obtain ⟨p, hp, -⟩ := h.prev now
    obtain ⟨n, hn, -⟩ := h.next p
    obtain ⟨q, hq, -⟩ := h.prev p
    simp only [cronMethods, bind, Except.bind, pure, Except.pure, hp, hn, hq]
    split
    · rfl
    · split <;> rfl
  getNext t := (h.next t).imp fun n hn => hn.1

/-- **Deltas**: bounded by the dates themselves. -/
theorem delta_startSpec (d : Delta) (hadd : ∀ t, ∃ n, lib.add t d = .ok n) :
    StartSpec clock (deltaMethods lib now d)
      (fun t m => m < clock.instant t) (fun t m => m < clock.instant t)
      (fun m => ∀ b, (deltaMethods lib now d).skipToLatest none = .ok b → m < clock.instant b) where
  alignToNext t := ⟨t, rfl, le_refl _, fun _ => Iff.rfl⟩
  alignToPrev t := ⟨t, rfl, fun _ => Iff.rfl⟩
  skip_none b hb m := by
    constructor
    · intro hm b' hb'
      cases hb.symm.trans hb'
      exact hm
    · exact fun hall => hall b hb
  skip_error hnone m b hb := absurd hb (hnone b)
  skip_some e := by
    simp only [deltaMethods, bind, Except.bind, pure, Except.pure]
    cases roundToDelta lib d now with
    | error err => rfl
    | ok rounded => cases hsub : lib.sub rounded d <;> simp only [hsub]
  getNext t := by
    obtain ⟨n, hn⟩ := hadd t
    exact ⟨lib.convertToUtc n, by simp [deltaMethods, hn]⟩

end

/-! ## Cron triggers -/

/-- The ticks at which the next run may be triggered: with catchup those after the last run or,
without one, from the start date on; otherwise those that are both and that no later tick up to now
follows. -/
def Due (ticks : Set T) (now : DateTime) (last : Option (DataInterval DateTime))
    (restriction : TimeRestriction DateTime) (t : T) : Prop :=
  (∀ interval, last = some interval → clock.instant interval.end < t) ∧
  if restriction.catchup then
    last = none → ∃ earliest, restriction.earliest = some earliest ∧ clock.instant earliest ≤ t
  else
    (∀ earliest, restriction.earliest = some earliest → clock.instant earliest ≤ t) ∧
      ∀ t' ∈ ticks, t' ≤ clock.instant now → t' ≤ t

/-- The least of the ticks that meet two lower bounds. -/
theorem isLeast_max {ticks : Set T} {p q : T → Prop} {a b : T}
    (hp : ∀ s t, s ≤ t → p s → p t) (hq : ∀ s t, s ≤ t → q s → q t)
    (ha : IsLeast {t | t ∈ ticks ∧ p t} a) (hb : IsLeast {t | t ∈ ticks ∧ q t} b) :
    IsLeast {t | t ∈ ticks ∧ p t ∧ q t} (max a b) := by
  refine ⟨⟨?_, hp _ _ (le_max_left a b) ha.1.2, hq _ _ (le_max_right a b) hb.1.2⟩,
    fun t ⟨ht, hpt, hqt⟩ => max_le (ha.2 ⟨ht, hpt⟩) (hb.2 ⟨ht, hqt⟩)⟩
  rcases max_choice a b with h | h <;> rw [h]
  · exact ha.1.1
  · exact hb.1.1

section
variable {clock} {cron : CronMixin} {ticks : Set T} (h : Ticks clock cron ticks) (now : DateTime)
  {interval : Delta} {back : T → T}
  (hback : ∀ n, ∃ t, lib.sub n interval = .ok t ∧ clock.instant t = back (clock.instant n))
  (last : Option (DataInterval DateTime)) (restriction : TimeRestriction DateTime)
include h hback

/-- **The next run is triggered at the first due tick**, for the date one interval before. -/
theorem Ticks.triggerNextDagrunInfo_cases :
    ((∀ t, ¬ Due clock ticks now last restriction t) ∧
      triggerNextDagrunInfo lib now cron interval last restriction = .ok none) ∨
    ∃ n t, IsLeast {s | s ∈ ticks ∧ Due clock ticks now last restriction s} (clock.instant n) ∧
      clock.instant t = back (clock.instant n) ∧
      triggerNextDagrunInfo lib now cron interval last restriction =
        if restriction.latest.any (lib.lt · n) then .ok none else .ok (some (.interval t n)) := by
  obtain ⟨earliest, latest, catchup⟩ := restriction
  cases catchup with
  | true =>
    cases last with
    | some last =>
      obtain ⟨n, hn, hleast⟩ := h.next last.end
      obtain ⟨t, ht, hinstant⟩ := hback n
      refine .inr ⟨n, t, ?_, hinstant, ?_⟩
      · simpa [Due] using hleast
      · simp [triggerNextDagrunInfo, hn, ht, bind, Except.bind, pure, Except.pure]
    | none =>
      cases earliest with
      | none => exact .inl ⟨fun t ht => by simp [Due] at ht, rfl⟩
      | some e =>
        obtain ⟨n, hn, hleast⟩ := h.alignToNext e
        obtain ⟨t, ht, hinstant⟩ := hback n
        refine .inr ⟨n, t, ?_, hinstant, ?_⟩
        · simpa [Due] using hleast
        · simp [triggerNextDagrunInfo, hn, ht, bind, Except.bind, pure, Except.pure]
  | false =>
    obtain ⟨p, hp, ⟨hpmem, hple⟩, hpgreatest⟩ := h.alignToPrev now
    have hnow : IsLeast {t | t ∈ ticks ∧ ∀ t' ∈ ticks, t' ≤ clock.instant now → t' ≤ t}
        (clock.instant p) :=
      ⟨⟨hpmem, fun t' ht' hle => hpgreatest ⟨ht', hle⟩⟩, fun t ht => ht.2 _ hpmem hple⟩
    have hnowUp : ∀ s t, s ≤ t → (∀ t' ∈ ticks, t' ≤ clock.instant now → t' ≤ s) →
        ∀ t' ∈ ticks, t' ≤ clock.instant now → t' ≤ t :=
      fun s t hst hs t' ht' hle => (hs t' ht' hle).trans hst
    have hafterUp : ∀ (l : DataInterval DateTime) (s t : T), s ≤ t →
        clock.instant l.end < s → clock.instant l.end < t :=
      fun _ _ _ hst hs => lt_of_lt_of_le hs hst
    have hearliestUp : ∀ (e : DateTime) (s t : T), s ≤ t →
        clock.instant e ≤ s → clock.instant e ≤ t := fun _ _ _ hst hs => hs.trans hst
    right
    cases last with
    | none =>
      cases earliest with
      | none =>
        obtain ⟨t, ht, hinstant⟩ := hback p
        refine ⟨p, t, ?_, hinstant, ?_⟩
        · simpa [Due] using hnow
        · simp [triggerNextDagrunInfo, hp, ht, bind, Except.bind, pure, Except.pure]
      | some e =>
        obtain ⟨b, hb, hbleast⟩ := h.alignToNext e
        obtain ⟨t, ht, hinstant⟩ := hback (lib.max p b)
        refine ⟨_, t, ?_, hinstant, ?_⟩
        · have hleast := isLeast_max hnowUp (hearliestUp e) hnow hbleast
          rw [clock.instant_max]
          simpa [Due, and_comm] using hleast
        · simp [triggerNextDagrunInfo, hp, hb, ht, bind, Except.bind, pure, Except.pure]
    | some last =>
      obtain ⟨a, ha, haleast⟩ := h.next last.end
      have hleast := isLeast_max hnowUp (hafterUp last) hnow haleast
      cases earliest with
      | none =>
        obtain ⟨t, ht, hinstant⟩ := hback (lib.max p a)
        refine ⟨_, t, ?_, hinstant, ?_⟩
        · rw [clock.instant_max]
          simpa [Due, and_comm] using hleast
        · simp [triggerNextDagrunInfo, hp, ha, ht, bind, Except.bind, pure, Except.pure]
      | some e =>
        obtain ⟨b, hb, hbleast⟩ := h.alignToNext e
        obtain ⟨t, ht, hinstant⟩ := hback (lib.max (lib.max p a) b)
        refine ⟨_, t, ?_, hinstant, ?_⟩
        · have hleast' := isLeast_max
            (fun s t hst hs => ⟨hnowUp s t hst hs.1, hafterUp last s t hst hs.2⟩)
            (hearliestUp e) hleast hbleast
          rw [clock.instant_max, clock.instant_max]
          have hset : {s | s ∈ ticks ∧ Due clock ticks now (some last) ⟨some e, latest, false⟩ s} =
              {s | s ∈ ticks ∧ ((∀ t' ∈ ticks, t' ≤ clock.instant now → t' ≤ s) ∧
                clock.instant last.end < s) ∧ clock.instant e ≤ s} := by
            ext s
            simp only [Due, Set.mem_ofPred_eq, Option.some.injEq, forall_eq', Bool.false_eq_true,
              if_false]
            tauto
          rw [hset]
          exact hleast'
        · simp [triggerNextDagrunInfo, hp, ha, hb, ht, bind, Except.bind, pure, Except.pure]

/-- **A cron trigger honours its restriction exactly if the first due tick, unless it is after the
end date, lies far enough after the start date and the last run for the interval before it.** -/
theorem Ticks.trigger_honours_iff :
    Honours clock last restriction
        (triggerNextDagrunInfo lib now cron interval last restriction) ↔
      ∀ n, IsLeast {s | s ∈ ticks ∧ Due clock ticks now last restriction s} n →
        (∀ latest, restriction.latest = some latest → n ≤ clock.instant latest) →
          (∀ earliest, restriction.earliest = some earliest →
            clock.instant earliest ≤ back n) ∧
          (∀ latest, restriction.latest = some latest → back n ≤ clock.instant latest) ∧
          ∀ interval, last = some interval → clock.instant interval.start < back n := by
  rcases h.triggerNextDagrunInfo_cases now hback last restriction with
    ⟨hnone, hok⟩ | ⟨n, t, hleast, hinstant, hok⟩
  · constructor
    · exact fun _ n hn => absurd hn.1.2 (hnone n)
    · intro _ info hinfo
      rw [hok] at hinfo
      cases hinfo
  rw [hok]
  constructor
  · intro hhonours n' hn' hlatest
    cases hleast.unique hn'
    have hnot : ¬ restriction.latest.any (lib.lt · n) := by
      rw [clock.any_latest]
      rintro ⟨x, hx, hlt⟩
      exact absurd hlt (not_lt.mpr (hlatest x hx))
    rw [if_neg hnot] at hhonours
    rw [← hinstant]
    exact hhonours _ rfl
  · intro hall info hinfo
    by_cases hany : restriction.latest.any (lib.lt · n)
    · rw [if_pos hany] at hinfo
      cases hinfo
    · rw [if_neg hany] at hinfo
      cases hinfo
      rw [clock.any_latest] at hany
      have hgood := hall _ hleast fun x hx => not_lt.mp fun hlt => hany ⟨x, hx, hlt⟩
      rw [← hinstant] at hgood
      exact hgood

end

/-! ## Events -/

/-- The dates are listed in order. -/
def EventsTimetable.Sorted (self : EventsTimetable DateTime) : Prop :=
  self.eventDates.Pairwise fun a b => clock.instant a ≤ clock.instant b

/-- A listed date that the timetable may return. -/
def EventsTimetable.Coming (self : EventsTimetable DateTime)
    (last : Option (DataInterval DateTime)) (d : DateTime) : Prop :=
  d ∈ self.eventDates ∧ ∀ interval, last = some interval →
    clock.instant interval.end < clock.instant d

namespace EventsTimetable

variable {clock}

/-- `__init__` sorts what is not presorted. -/
theorem sorted_init (eventDates : List DateTime) (restrictToEvents : Bool) :
    (init lib eventDates restrictToEvents false).Sorted clock := by
  have hle : ∀ a b, (!lib.lt b a) = true ↔ clock.instant a ≤ clock.instant b := by
    intro a b
    rw [Bool.not_eq_true', ← Bool.not_eq_true, clock.lt_iff, not_lt]
  have hpairwise : (eventDates.mergeSort fun a b => !lib.lt b a).Pairwise
      fun a b => (!lib.lt b a) = true := by
    apply List.pairwise_mergeSort
    · intro a b c
      simpa only [hle] using le_trans
    · intro a b
      simpa only [Bool.or_eq_true, hle] using le_total _ _
  exact hpairwise.imp fun h => (hle _ _).mp h

/-- **The first date to come is returned, whatever the restriction.** -/
theorem nextDagrunInfo_cases {self : EventsTimetable DateTime} (hsorted : self.Sorted clock)
    (last : Option (DataInterval DateTime)) (restriction : TimeRestriction DateTime) :
    ((∀ d, ¬ self.Coming clock last d) ∧
      ∀ info, self.nextDagrunInfo lib last restriction ≠ .ok (some info)) ∨
    ∃ d, self.nextDagrunInfo lib last restriction = .ok (some (.exact d)) ∧
      self.Coming clock last d ∧
      ∀ d', self.Coming clock last d' → clock.instant d ≤ clock.instant d' := by
  cases last with
  | none =>
    cases hdates : self.eventDates with
    | nil =>
      left
      exact ⟨fun d hd => by simp [Coming, hdates] at hd,
        fun info => by simp [nextDagrunInfo, hdates]⟩
    | cons d rest =>
      refine .inr ⟨d, by simp [nextDagrunInfo, hdates], ⟨by simp [hdates], by simp⟩, ?_⟩
      intro d' hd'
      rw [Sorted, hdates, List.pairwise_cons] at hsorted
      rcases List.mem_cons.mp (hdates ▸ hd'.1) with rfl | hmem
      · exact le_refl _
      · exact hsorted.1 d' hmem
  | some last =>
    have hpast : ∀ d, (!lib.lt last.end d) = true ↔ ¬ clock.instant last.end < clock.instant d := by
      intro d
      rw [Bool.not_eq_true', ← Bool.not_eq_true, clock.lt_iff]
    have htaken : ∀ d ∈ self.eventDates.takeWhile (fun d => !lib.lt last.end d),
        ¬ clock.instant last.end < clock.instant d := fun d hd =>
      (hpast d).mp (List.mem_takeWhile_imp (p := fun d => !lib.lt last.end d) hd)
    have hdates := List.takeWhile_append_dropWhile
      (p := fun d => !lib.lt last.end d) (l := self.eventDates)
    cases hcoming : self.eventDates.dropWhile fun d => !lib.lt last.end d with
    | nil =>
      left
      refine ⟨fun d hd => ?_, fun info => by simp [nextDagrunInfo, hcoming]⟩
      rw [hcoming, List.append_nil] at hdates
      have hmem := hdates ▸ hd.1
      exact htaken d hmem (hd.2 last rfl)
    | cons d rest =>
      right
      rw [hcoming] at hdates
      have hd : clock.instant last.end < clock.instant d := by
        have hhead := List.head?_dropWhile_not (fun d => !lib.lt last.end d) self.eventDates
        rw [hcoming] at hhead
        by_contra hnot
        simp [(hpast d).mpr hnot] at hhead
      refine ⟨d, by simp [nextDagrunInfo, hcoming], ⟨?_, ?_⟩, fun d' hd' => ?_⟩
      · rw [← hdates]
        simp
      · rintro interval ⟨⟩
        exact hd
      · rw [Sorted, ← hdates, List.pairwise_append, List.pairwise_cons] at hsorted
        rcases List.mem_append.mp (hdates ▸ hd'.1) with hmem | hmem
        · exact absurd (hd'.2 last rfl) (htaken d' hmem)
        · rcases List.mem_cons.mp hmem with rfl | hmem
          · exact le_refl _
          · exact hsorted.2.1.1 d' hmem

/-- **Events honour a restriction exactly if every date to come does**, and some does for the end
date. -/
theorem events_honours_iff {self : EventsTimetable DateTime} (hsorted : self.Sorted clock)
    (last : Option (DataInterval DateTime)) (restriction : TimeRestriction DateTime) :
    Honours clock last restriction (self.nextDagrunInfo lib last restriction) ↔
      (∀ d, self.Coming clock last d →
        (∀ earliest, restriction.earliest = some earliest →
          clock.instant earliest ≤ clock.instant d) ∧
        ∀ interval, last = some interval → clock.instant interval.start < clock.instant d) ∧
      ∀ latest, restriction.latest = some latest → (∃ d, self.Coming clock last d) →
        ∃ d, self.Coming clock last d ∧ clock.instant d ≤ clock.instant latest := by
  rcases nextDagrunInfo_cases hsorted last restriction with
    ⟨hnone, hok⟩ | ⟨d, hok, hcoming, hleast⟩
  · constructor
    · exact fun _ => ⟨fun d hd => absurd hd (hnone d), fun _ _ ⟨d, hd⟩ => absurd hd (hnone d)⟩
    · exact fun _ info hinfo => absurd hinfo (hok info)
  rw [hok]
  constructor
  · intro hhonours
    obtain ⟨hearliest, hlatest, hlast⟩ := hhonours _ rfl
    refine ⟨fun d' hd' => ⟨fun e he => (hearliest e he).trans (hleast d' hd'), fun l hl => ?_⟩,
      fun x hx _ => ⟨d, hcoming, hlatest x hx⟩⟩
    exact lt_of_lt_of_le (hlast l hl) (hleast d' hd')
  · rintro ⟨hall, hsome⟩ info ⟨⟩
    obtain ⟨hearliest, hlast⟩ := hall d hcoming
    refine ⟨hearliest, fun x hx => ?_, hlast⟩
    obtain ⟨d', hd', hle⟩ := hsome x hx ⟨d, hcoming⟩
    exact (hleast d' hd').trans hle

end EventsTimetable

/-! ## All of them -/

/-- What is assumed of the libraries: cron expressions tick exactly at `ticks`, dates do not leave
the range of datetimes, and an interval is subtracted by `back`. Dates of events are in order. -/
def BuiltIn.Ideal (ticks : Set T) (back : T → T) : BuiltIn DateTime → Prop
  | .cronDataInterval cron => Ticks clock cron ticks
  | .delta d => ∀ t, ∃ n, lib.add t d = .ok n
  | .cronTrigger cron interval => Ticks clock cron ticks ∧
    ∀ n, ∃ t, lib.sub n interval = .ok t ∧ clock.instant t = back (clock.instant n)
  | .events timetable => timetable.Sorted clock

/-- When the next run honours the restriction. -/
def BuiltIn.HonoursWhen (ticks : Set T) (back : T → T) (now : DateTime)
    (last : Option (DataInterval DateTime)) (restriction : TimeRestriction DateTime) :
    BuiltIn DateTime → Prop
  | .cronDataInterval _ => ∀ interval, last = some interval →
    let m := lastStart clock restriction interval
    (∃ t ∈ ticks, m < t ∧ t ≤ clock.instant interval.end) ∨
    (∃ earliest, restriction.earliest = some earliest ∧
      ∀ t ∈ ticks, clock.instant earliest ≤ t → m < t) ∨
    restriction.catchup = false ∧
      ∃ t ∈ ticks, ∃ t' ∈ ticks, m < t ∧ t < t' ∧ t' ≤ clock.instant now
  | .delta d => ∀ interval, last = some interval →
    let m := lastStart clock restriction interval
    m < clock.instant interval.end ∨
    (∃ earliest, restriction.earliest = some earliest ∧ m < clock.instant earliest) ∨
    restriction.catchup = false ∧
      ∀ b, (deltaMethods lib now d).skipToLatest none = .ok b → m < clock.instant b
  | .cronTrigger _ _ => ∀ n, IsLeast {s | s ∈ ticks ∧ Due clock ticks now last restriction s} n →
    (∀ latest, restriction.latest = some latest → n ≤ clock.instant latest) →
      (∀ earliest, restriction.earliest = some earliest → clock.instant earliest ≤ back n) ∧
      (∀ latest, restriction.latest = some latest → back n ≤ clock.instant latest) ∧
      ∀ interval, last = some interval → clock.instant interval.start < back n
  | .events timetable =>
    (∀ d, timetable.Coming clock last d →
      (∀ earliest, restriction.earliest = some earliest →
        clock.instant earliest ≤ clock.instant d) ∧
      ∀ interval, last = some interval → clock.instant interval.start < clock.instant d) ∧
    ∀ latest, restriction.latest = some latest → (∃ d, timetable.Coming clock last d) →
      ∃ d, timetable.Coming clock last d ∧ clock.instant d ≤ clock.instant latest

/-- **When a built-in timetable honours its time restriction**, for every last run, clock and
restriction. -/
theorem BuiltIn.honours_iff (timetable : BuiltIn DateTime) (ticks : Set T) (back : T → T)
    (hideal : timetable.Ideal clock ticks back) (now : DateTime)
    (last : Option (DataInterval DateTime)) (restriction : TimeRestriction DateTime) :
    Honours clock last restriction (timetable.nextDagrunInfo lib now last restriction) ↔
      timetable.HonoursWhen clock ticks back now last restriction := by
  cases timetable with
  | cronDataInterval cron =>
    exact dataInterval_honours_iff (hideal.startSpec now) last restriction |>.trans (by
      simp only [StartsAfter, HonoursWhen]
      refine forall_congr' fun interval => forall_congr' fun h => ?_
      simp [h])
  | delta d =>
    exact dataInterval_honours_iff (delta_startSpec now d hideal) last restriction |>.trans (by
      simp only [StartsAfter, HonoursWhen]
      refine forall_congr' fun interval => forall_congr' fun h => ?_
      simp [h])
  | cronTrigger cron interval =>
    exact hideal.1.trigger_honours_iff now hideal.2 last restriction
  | events timetable => exact EventsTimetable.events_honours_iff hideal last restriction

/-- Datetimes that are whole seconds; every cron expression ticks every second. -/
def everySecond : Library Int Int where
  relativedelta d := .ok d
  timezone _ := .ok (.named "UTC")
  utc := .named "UTC"
  eq a b := a = b
  lt a b := a < b
  inTimezone t _ := t
  naive t := t
  convert t _ := t
  add
    | t, .timedelta d => .ok (t + d.microseconds / 1000000)
    | t, .relativedelta d => .ok (t + ⌊relativedeltaInSeconds d⌋)
  sub
    | t, .timedelta d => .ok (t - d.microseconds / 1000000)
    | t, .relativedelta d => .ok (t - ⌊relativedeltaInSeconds d⌋)
  naiveSub _ _ := .zero
  str _ := ""
  timestamp t := t
  fromTimestamp s _ := .ok ⌊s⌋
  description _ := .error .formatException
  expanded _ := .ok []
  cronNext _ t := .ok (t + 1)
  cronPrev _ t := .ok (t - 1)

def seconds : Clock everySecond Int where
  instant t := t
  eq_iff _ _ := decide_eq_true_iff
  lt_iff _ _ := decide_eq_true_iff

theorem ticks_everySecond (cron : CronMixin) : Ticks seconds cron Set.univ where
  next t := ⟨t + 1, rfl, ⟨trivial, by simp [seconds]⟩, fun s hs => by
    have : t < s := hs.2
    show t + 1 ≤ s
    omega⟩
  prev t := ⟨t - 1, rfl, ⟨trivial, by simp [seconds]⟩, fun s hs => by
    have : s < t := hs.2
    show s ≤ t - 1
    omega⟩

/-- With catchup, a cron trigger runs before a start date that was moved after the last run. -/
theorem movedStartDate_not_honoured :
    ¬ Honours seconds (some ⟨5, 5⟩) { earliest := some 10, latest := none, catchup := true }
      ((BuiltIn.cronTrigger ⟨"* * * * *", .named "UTC", ""⟩ (.timedelta .zero)).nextDagrunInfo
        everySecond 20 (some ⟨5, 5⟩) { earliest := some 10, latest := none, catchup := true }) := by
  intro h
  have hrun := (h (.interval 6 6) rfl).1 10 rfl
  revert hrun
  show ¬ (10 : Int) ≤ 6
  decide

/-- A cron data interval starts no earlier than a start date moved after the last run. -/
theorem movedStartDate_honoured :
    Honours seconds (some ⟨5, 6⟩) { earliest := some 10, latest := none, catchup := true }
      ((BuiltIn.cronDataInterval ⟨"* * * * *", .named "UTC", ""⟩).nextDagrunInfo
        everySecond 20 (some ⟨5, 6⟩) { earliest := some 10, latest := none, catchup := true }) := by
  refine (BuiltIn.honours_iff seconds (.cronDataInterval ⟨"* * * * *", .named "UTC", ""⟩)
    Set.univ id (ticks_everySecond _) 20 (some ⟨5, 6⟩)
    { earliest := some 10, latest := none, catchup := true }).mpr ?_
  rintro interval ⟨⟩
  exact .inl ⟨6, trivial, by decide, by decide⟩

end Airflow.Timetables
