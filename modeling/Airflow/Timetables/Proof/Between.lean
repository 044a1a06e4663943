import Airflow.Timetables.Iterate

/-!
# The runs between two dates

`iter_dagrun_infos_between` makes up the interval that `align=False` asks for, if the first date is
not on the schedule, and then walks the schedule with `next_dagrun_info`. Each step of the loop
takes the next logical date (`whileInfo_spec`), so it yields those in the range and no others.
-/

namespace Airflow.Timetables

variable {DateTime Naive : Type} {lib : Library DateTime Naive} {clock : Clock lib Int}
  {timetable : Timetable} {schedule : Schedule}

/-- Adding the delta to a date up to there does not leave the range of datetimes. -/
def WithinRange (clock : Clock lib Int) (timetable : Timetable) (latest : DateTime) : Prop :=
  ∀ t, clock.instant t ≤ clock.instant latest →
    ∀ d, timetable = .delta d → ∃ n, lib.add t d = .ok n

/-- The restriction of the loop. -/
def between (earliest latest : DateTime) : TimeRestriction DateTime where
  earliest := some earliest
  latest := some latest
  catchup := true

/-- The info of the interval of the schedule that starts there. -/
def IsInfo (clock : Clock lib Int) (schedule : Schedule) (start : Int)
    (info : DagRunInfo DateTime) : Prop :=
  clock.instant info.logicalDate = start ∧
    schedule.Next start (clock.instant info.dataInterval.end) ∧
    info = .interval info.dataInterval.start info.dataInterval.end

section
variable {earliest latest : DateTime} {first : Int} {last : Option (DataInterval DateTime)}

/-- **One call**: the next date of the schedule, unless it is later than `latest`. -/
theorem HasSchedule.nextDagrunInfo_between (h : HasSchedule clock timetable schedule)
    (hrange : WithinRange clock timetable latest) (now : DateTime)
    (hfirst : schedule.First (clock.instant earliest) first)
    (hlast : Continues clock schedule first last) {start : Int}
    (hnone : last = none → start = first)
    (hsome : ∀ interval, last = some interval → start = clock.instant interval.end) :
    (clock.instant latest < start ∧
      timetable.nextDagrunInfo lib now last (between earliest latest) = .ok none) ∨
    start ≤ clock.instant latest ∧
      ∃ info, timetable.nextDagrunInfo lib now last (between earliest latest) = .ok (some info) ∧
        IsInfo clock schedule start info := by
  obtain ⟨methods, hmethods, htotal, hnext⟩ := h.exists_methods now
  rw [hnext]
  have hearliest : (between earliest latest).earliest = some earliest := rfl
  rcases hmethods.nextDagrunInfo_cases hearliest hfirst hlast with
    ⟨hcatchup, -⟩ | ⟨s, ⟨-, -, hends, hstarts⟩, hok⟩
  · cases hcatchup
  have hs : clock.instant s = start := by
    cases last with
    | none => rw [hstarts rfl rfl, hnone rfl]
    | some interval => rw [hends rfl interval rfl, hsome interval rfl]
  rw [hok, ← hs]
  by_cases hlatest : (between earliest latest).latest.any (lib.lt · s)
  · rw [if_pos hlatest]
    obtain ⟨x, hx, hlt⟩ := clock.any_latest.mp hlatest
    obtain rfl := Option.some.inj hx
    exact .inl ⟨hlt, rfl⟩
  · rw [if_neg hlatest]
    have hle : clock.instant s ≤ clock.instant latest := by
      rw [clock.any_latest] at hlatest
      exact not_lt.mp fun hlt => hlatest ⟨latest, rfl, hlt⟩
    obtain ⟨«end», hend⟩ := htotal s (hrange s hle)
    refine .inr ⟨hle, .interval s «end», ?_, rfl, hmethods.getNext s «end» hend, rfl⟩
    rw [hend]
    rfl

end

/-- The infos are those of the dates of the schedule from `start` to `latest`, in order. -/
structure Covers (clock : Clock lib Int) (schedule : Schedule) (dates : Set Int)
    (start latest : Int) (infos : List (DagRunInfo DateTime)) : Prop where
  info : ∀ info ∈ infos, IsInfo clock schedule (clock.instant info.logicalDate) info
  increasing : infos.Pairwise fun a b => clock.instant a.logicalDate < clock.instant b.logicalDate
  dates : ∀ t, (∃ info ∈ infos, clock.instant info.logicalDate = t) ↔
    t ∈ dates ∧ start ≤ t ∧ t ≤ latest

namespace Covers

variable {dates : Set Int} {start next latest : Int} {info : DagRunInfo DateTime}
  {infos : List (DagRunInfo DateTime)}

/-- No date is in the range. -/
theorem nil (h : ∀ t ∈ dates, start ≤ t → latest < t) :
    Covers clock schedule dates start latest [] where
  info := nofun
  increasing := .nil
  dates t := ⟨fun ⟨_, hmem, _⟩ => absurd hmem List.not_mem_nil,
    fun ⟨hmem, hle, hlatest⟩ => absurd (h t hmem hle) (not_lt.mpr hlatest)⟩

/-- A date before the others. -/
theorem cons (hinfo : IsInfo clock schedule start info) (hmem : start ∈ dates)
    (hlatest : start ≤ latest) (hnext : IsLeast {t | t ∈ dates ∧ start < t} next)
    (h : Covers clock schedule dates next latest infos) :
    Covers clock schedule dates start latest (info :: infos) where
  info i hi := by
    rcases List.mem_cons.mp hi with rfl | hi
    · rw [hinfo.1]
      exact hinfo
    · exact h.info i hi
  increasing := by
    refine List.pairwise_cons.mpr ⟨fun i hi => ?_, h.increasing⟩
    rw [hinfo.1]
    exact lt_of_lt_of_le hnext.1.2 ((h.dates _).mp ⟨i, hi, rfl⟩).2.1
  dates t := by
    simp only [List.mem_cons, exists_eq_or_imp, hinfo.1, h.dates]
    constructor
    · rintro (rfl | ⟨ht, hle, hlatest'⟩)
      · exact ⟨hmem, le_refl _, hlatest⟩
      · exact ⟨ht, (hnext.1.2.trans_le hle).le, hlatest'⟩
    · rintro ⟨ht, hle, hlatest'⟩
      rcases hle.eq_or_lt with heq | hlt
      · exact .inl heq
      · exact .inr ⟨ht, hnext.2 ⟨ht, hlt⟩, hlatest'⟩

/-- There is no date before the first one. -/
theorem of_first {first : Int} (hfirst : IsLeast {t | t ∈ dates ∧ start ≤ t} first)
    (h : Covers clock schedule dates first latest infos) :
    Covers clock schedule dates start latest infos where
  info := h.info
  increasing := h.increasing
  dates t := by
    rw [h.dates]
    refine and_congr_right fun hmem => and_congr_left fun _ => ?_
    exact ⟨fun hle => hfirst.1.2.trans hle, fun hle => hfirst.2 ⟨hmem, hle⟩⟩

/-- An info that is made up stands before those of the schedule. -/
theorem append {invented : List (DagRunInfo DateTime)}
    (h : Covers clock schedule dates start latest infos) (hle : start ≤ latest)
    (hinvented : invented = [] ∨
      ∃ made, invented = [made] ∧ clock.instant made.logicalDate = start ∧ start ∉ dates) :
    (invented ++ infos).Pairwise (fun a b =>
      clock.instant a.logicalDate < clock.instant b.logicalDate) ∧
    ∀ info ∈ invented ++ infos, start ≤ clock.instant info.logicalDate ∧
      clock.instant info.logicalDate ≤ latest := by
  have hrange : ∀ info ∈ infos, clock.instant info.logicalDate ∈ dates ∧
      start ≤ clock.instant info.logicalDate ∧ clock.instant info.logicalDate ≤ latest :=
    fun info hmem => (h.dates _).mp ⟨info, hmem, rfl⟩
  rcases hinvented with rfl | ⟨made, rfl, rfl, hmade⟩
  · exact ⟨h.increasing, fun info hmem => (hrange info hmem).2⟩
  refine ⟨List.pairwise_cons.mpr ⟨fun info hmem => ?_, h.increasing⟩, fun info hmem => ?_⟩
  · obtain ⟨hdate, hstart, -⟩ := hrange info hmem
    refine lt_of_le_of_ne hstart fun heq => ?_
    rw [heq] at hmade
    exact hmade hdate
  · rcases List.mem_cons.mp hmem with rfl | hmem
    · exact ⟨le_refl _, hle⟩
    · exact (hrange info hmem).2

end Covers

/-- More rounds than it takes change nothing. -/
theorem DatedDag.whileInfo_mono {dag : DatedDag DateTime} {now : Nat → DateTime}
    {restriction : TimeRestriction DateTime} {fuel fuel' : Nat} (hfuel : fuel ≤ fuel') :
    ∀ {k : Nat} {info : DagRunInfo DateTime} {infos : List (DagRunInfo DateTime)},
      dag.whileInfo lib now restriction fuel k info = some infos →
      dag.whileInfo lib now restriction fuel' k info = some infos := by
  induction fuel generalizing fuel' with
  | zero =>
    intro k info infos h
    cases h
  | succ fuel ih =>
    intro k info infos h
    obtain ⟨fuel', rfl⟩ := Nat.exists_eq_add_of_le' (Nat.one_le_of_lt hfuel)
    rw [whileInfo] at h ⊢
    cases hcall : dag.timetable.nextDagrunInfo lib (now k) (some info.dataInterval)
        restriction with
    | error err =>
      rw [hcall] at h
      exact h
    | ok returned =>
      rw [hcall] at h
      cases returned with
      | none => exact h
      | some next =>
        obtain ⟨rest, hrest, rfl⟩ := Option.map_eq_some_iff.mp h
        exact Option.map_eq_some_iff.mpr ⟨rest, ih (Nat.le_of_succ_le_succ hfuel) hrest, rfl⟩

/-- **The loop** walks the schedule to `latest`, and is over when it has no more rounds than there
are microseconds left. -/
theorem HasSchedule.whileInfo_spec {dag : DatedDag DateTime}
    (h : HasSchedule clock dag.timetable schedule) {earliest latest : DateTime} {first : Int}
    (hrange : WithinRange clock dag.timetable latest) (now : Nat → DateTime)
    (hfirst : schedule.First (clock.instant earliest) first) (fuel : Nat) :
    ∀ (k : Nat) (info : DagRunInfo DateTime) (start : Int), IsInfo clock schedule start info →
      start ∈ schedule.dates (clock.instant earliest) → first ≤ start →
      start ≤ clock.instant latest → clock.instant latest - start < fuel →
      ∃ infos, dag.whileInfo lib now (between earliest latest) fuel k info = some infos ∧
        Covers clock schedule (schedule.dates (clock.instant earliest)) start
          (clock.instant latest) infos := by
  induction fuel with
  | zero =>
    intro k info start _ _ _ hle hfuel
    push_cast at hfuel
    omega
  | succ fuel ih =>
    intro k info start hinfo hmem hge hle hfuel
    push_cast at hfuel
    obtain ⟨methods, hmethods, -⟩ := h.exists_methods (now k)
    have hnext := hmethods.next_dates _ _ _ hmem hinfo.2.1
    have hlast : Continues clock schedule first (some info.dataInterval) := by
      rintro _ ⟨⟩
      obtain ⟨rfl, hinterval, -⟩ := hinfo
      exact ⟨hge, hinterval⟩
    rw [DatedDag.whileInfo]
    rcases h.nextDagrunInfo_between hrange (now k) hfirst hlast nofun
      (fun _ hsome => congrArg (fun i => clock.instant i.end) (Option.some.inj hsome)) with
      ⟨hlt, hcall⟩ | ⟨hnextle, info', hcall, hinfo'⟩
    · rw [hcall]
      refine ⟨[info], rfl, .cons hinfo hmem hle hnext (.nil fun t _ ht => ?_)⟩
      exact hlt.trans_le ht
    · have hlt := hnext.1.2
      obtain ⟨infos, hinfos, hcovers⟩ := ih (k + 1) info' _ hinfo' hnext.1.1 (by omega) hnextle
        (by omega)
      rw [hcall]
      refine ⟨info :: infos, ?_, .cons hinfo hmem hle hnext hcovers⟩
      simp only [hinfos, Option.map_some]

/-- Nothing has to be made up: the first date falls on the schedule, or the DAG is no sub-DAG and
`align` is on. -/
def Aligned (clock : Clock lib Int) (schedule : Schedule) (dag : DatedDag DateTime)
    (earliest : DateTime) (align : Bool) : Prop :=
  (align && !dag.isSubdag) = true ∨
    clock.instant earliest ∈ schedule.dates (clock.instant earliest)

/-- The infos of the schedule, and the one that is made up before them. -/
structure Yields (clock : Clock lib Int) (schedule : Schedule) (dag : DatedDag DateTime)
    (earliest latest : DateTime) (align : Bool)
    (invented scheduled : List (DagRunInfo DateTime)) : Prop where
  covers : Covers clock schedule (schedule.dates (clock.instant earliest))
    (clock.instant earliest) (clock.instant latest) scheduled
  aligned : Aligned clock schedule dag earliest align → invented = []
  unaligned : ¬ Aligned clock schedule dag earliest align →
    ∃ «end», invented = [.interval earliest «end»]

section
variable {dag : DatedDag DateTime} {earliest latest n : DateTime} {align : Bool}

theorem Yields.append {invented scheduled : List (DagRunInfo DateTime)}
    (h : Yields clock schedule dag earliest latest align invented scheduled)
    (hle : clock.instant earliest ≤ clock.instant latest) :
    (invented ++ scheduled).Pairwise (fun a b =>
      clock.instant a.logicalDate < clock.instant b.logicalDate) ∧
    ∀ info ∈ invented ++ scheduled, clock.instant earliest ≤ clock.instant info.logicalDate ∧
      clock.instant info.logicalDate ≤ clock.instant latest := by
  apply h.covers.append hle
  by_cases ha : Aligned clock schedule dag earliest align
  · exact .inl (h.aligned ha)
  · obtain ⟨«end», hinvented⟩ := h.unaligned ha
    exact .inr ⟨_, hinvented, rfl, fun hmem => ha (.inr hmem)⟩

/-- No date of the schedule is in the range. -/
theorem yields_none (hfirst : schedule.First (clock.instant earliest) (clock.instant n))
    (hlt : clock.instant latest < clock.instant n)
    (hle : clock.instant earliest ≤ clock.instant latest) :
    Yields clock schedule dag earliest latest align
      (if !(align && !dag.isSubdag) then [.interval earliest latest] else []) [] where
  covers := .nil fun t ht hstart => hlt.trans_le (hfirst.2 ⟨ht, hstart⟩)
  aligned := by
    rintro (ha | hmem)
    · rw [ha]
      rfl
    · have hge := hfirst.2 ⟨hmem, le_refl _⟩
      omega
  unaligned ha := by
    refine ⟨latest, if_pos ?_⟩
    rw [Bool.not_eq_true', ← Bool.not_eq_true]
    exact fun halign => ha (.inl halign)

/-- The loop starts at the first date. -/
theorem yields_some {info : DagRunInfo DateTime} {infos : List (DagRunInfo DateTime)}
    (hfirst : schedule.First (clock.instant earliest) (clock.instant n))
    (hinfo : clock.instant info.logicalDate = clock.instant n)
    (hcovers : Covers clock schedule (schedule.dates (clock.instant earliest)) (clock.instant n)
      (clock.instant latest) infos) :
    Yields clock schedule dag earliest latest align
      (if !(align && !dag.isSubdag) && !lib.eq info.logicalDate earliest then
        [.interval earliest info.dataInterval.start] else []) infos := by
  have heq : lib.eq info.logicalDate earliest = true ↔
      clock.instant earliest ∈ schedule.dates (clock.instant earliest) := by
    rw [clock.eq_iff, hinfo]
    constructor
    · intro hsame
      have hmem := hfirst.1.1
      rwa [hsame] at hmem
    · exact fun hmem => le_antisymm (hfirst.2 ⟨hmem, le_refl _⟩) hfirst.1.2
  refine ⟨hcovers.of_first hfirst, ?_, fun ha => ⟨info.dataInterval.start, if_pos ?_⟩⟩
  · rintro (ha | hmem)
    · rw [ha]
      rfl
    · rw [heq.mpr hmem, Bool.not_true, Bool.and_false]
      rfl
  · rw [Bool.and_eq_true, Bool.not_eq_true', Bool.not_eq_true', ← Bool.not_eq_true,
      ← Bool.not_eq_true, heq]
    exact ⟨fun halign => ha (.inl halign), fun hmem => ha (.inr hmem)⟩

end

/-- A DAG that runs every second. -/
def everySecondDag : DatedDag Int where
  timetable := .cronDataInterval ⟨"* * * * * *", .named "UTC", ""⟩
  tasks := []
  startDate := none
  endDate := none
  catchup := true
  isSubdag := false

end Airflow.Timetables
