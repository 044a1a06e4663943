import Airflow.Lib.Transition
import Airflow.Scheduler.NextDagrun

/-!
# Scheduled runs have no gap and no duplicate

`scheduled_runs_prefix`: whatever the order in which runs are created, started, finished, cleared
and throttled, the logical dates of the created runs are the first ones of the timetable's sequence,
each once, and `next_dagrun` is never beyond the date that follows them (`NextInSequence`). A run is
only created at `next_dagrun` when no run has that date, and a `next_dagrun` without a run is the
one right after the last run, since all the earlier dates have theirs.

With `max_active_runs` reached `next_dagrun` stays at the run just created
(`throttled_creation_keeps_next`), and a run that finishes late moves it back.
-/

namespace Airflow.NextDagrun

variable {timetable : Timetable} {maxActiveRuns : Nat}

/-! ## The timetable's sequence -/

theorem Timetable.nth_succ {i : Nat} {info : DagRunInfo} (h : timetable.nth i = some info) :
    timetable.nth (i + 1) = timetable.nextDagrunInfo (some info.dataInterval) := by
  unfold Timetable.nth at h ⊢
  rw [nthInfo, h, Option.bind_some]

theorem Timetable.nth_of_succ {i : Nat} {info : DagRunInfo}
    (h : timetable.nth (i + 1) = some info) : ∃ prev, timetable.nth i = some prev := by
  unfold Timetable.nth at h ⊢
  rw [nthInfo, Option.bind_eq_some_iff] at h
  exact ⟨h.choose, h.choose_spec.1⟩

theorem Timetable.nth_lt {i j : Nat} {a b : DagRunInfo} (hij : i < j)
    (ha : timetable.nth i = some a) (hb : timetable.nth j = some b) :
    a.logicalDate < b.logicalDate := by
  induction j generalizing b with
  | zero => exact absurd hij (Nat.not_lt_zero i)
  | succ j ih =>
    obtain ⟨prev, hprev⟩ := Timetable.nth_of_succ hb
    have hlt := timetable.increasing j prev b hprev hb
    rcases Nat.lt_succ_iff_lt_or_eq.1 hij with h | rfl
    · exact Int.lt_trans (ih h hprev) hlt
    · cases ha.symm.trans hprev
      exact hlt

/-- The logical dates of the sequence are distinct. -/
theorem Timetable.nth_injective {i j : Nat} {a b : DagRunInfo} (ha : timetable.nth i = some a)
    (hb : timetable.nth j = some b) (h : a.logicalDate = b.logicalDate) : i = j := by
  rcases Nat.lt_trichotomy i j with hij | hij | hij
  · have := Timetable.nth_lt hij ha hb
    omega
  · exact hij
  · have := Timetable.nth_lt hij hb ha
    omega

/-! ## The invariant -/

/-- The runs are the first ones of the sequence, in order. -/
def RunsPrefix (timetable : Timetable) (runs : List DagRun) : Prop :=
  ∀ i r, runs[i]? = some r → ∃ info, timetable.nth i = some info ∧
    r.executionDate = info.logicalDate ∧ r.dataInterval = some info.dataInterval

/-- `next_dagrun` and its interval are those of the `i`th info. -/
def NextAt (timetable : Timetable) (dagModel : DagModel) (i : Nat) : Prop :=
  ∃ info, timetable.nth i = some info ∧ dagModel.nextDagrun = some info.logicalDate ∧
    dagModel.nextDagrunDataInterval = some info.dataInterval

/-- With `n` runs created `next_dagrun` is the date of one of them or the next one, or there is none:
the sequence has ended, or the DAG is new and admits no run. -/
def NextInSequence (timetable : Timetable) (maxActiveRuns : Nat) (dagModel : DagModel) (n : Nat) :
    Prop :=
  (∃ i ≤ n, NextAt timetable dagModel i) ∨
    dagModel.nextDagrun = none ∧ (timetable.nth n = none ∨ maxActiveRuns = 0 ∧ n = 0)

structure Inv (timetable : Timetable) (maxActiveRuns : Nat) (db : Database) : Prop where
  runs : RunsPrefix timetable db.runs
  next : NextInSequence timetable maxActiveRuns db.dagModel db.runs.length

theorem RunsPrefix.nodup {runs : List DagRun} (h : RunsPrefix timetable runs) :
    (runs.map (·.executionDate)).Nodup := by
  rw [List.nodup_iff_pairwise_ne, List.pairwise_iff_getElem]
  intro i j hi hj hij he
  rw [List.length_map] at hi hj
  rw [List.getElem_map, List.getElem_map] at he
  obtain ⟨a, ha, hda, -⟩ := h i _ (List.getElem?_eq_getElem hi)
  obtain ⟨b, hb, hdb, -⟩ := h j _ (List.getElem?_eq_getElem hj)
  have hij' := Timetable.nth_injective ha hb (hda.symm.trans (he.trans hdb))
  omega

theorem RunsPrefix.append {runs : List DagRun} {r : DagRun} {info : DagRunInfo}
    (h : RunsPrefix timetable runs) (hn : timetable.nth runs.length = some info)
    (hd : r.executionDate = info.logicalDate) (hi : r.dataInterval = some info.dataInterval) :
    RunsPrefix timetable (runs ++ [r]) := by
  intro i r' hr'
  rw [List.getElem?_append] at hr'
  split at hr'
  · exact h i r' hr'
  · rename_i hge
    obtain ⟨hlt, he⟩ := List.getElem?_eq_some_iff.1 hr'
    have hi0 : i = runs.length := by
      simp only [List.length_singleton] at hlt
      omega
    subst hi0
    simp only [Nat.sub_self, List.getElem_cons_zero] at he
    subst he
    exact ⟨info, hn, hd, hi⟩

/-- Changing the state of a run keeps the runs a prefix. -/
theorem RunsPrefix.set_state {runs : List DagRun} (h : RunsPrefix timetable runs) {k : Nat}
    {r : DagRun} (hr : runs[k]? = some r) (state : DagRunState) :
    RunsPrefix timetable (runs.set k { r with state }) := by
  intro i r' hr'
  rw [List.getElem?_set] at hr'
  split at hr'
  · rename_i hki
    subst hki
    rw [if_pos (List.getElem?_eq_some_iff.1 hr).1, Option.some.injEq] at hr'
    subst hr'
    exact h k r hr
  · exact h i r' hr'

/-! ## The updates of `next_dagrun` -/

/-- Calculated from the `i`th interval, `next_dagrun` is the date after it. -/
theorem calculate_next {i : Nat} {info : DagRunInfo} (hi : timetable.nth i = some info)
    (dagModel : DagModel) :
    (dagModel.calculateDagrunDateFields timetable (some info.dataInterval)).nextDagrun =
      (timetable.nth (i + 1)).map (·.logicalDate) := by
  unfold DagModel.calculateDagrunDateFields
  rw [← Timetable.nth_succ hi]
  cases timetable.nth (i + 1) <;> rfl

theorem calculate_inSequence {runs : List DagRun} (hruns : RunsPrefix timetable runs) {i : Nat}
    {info : DagRunInfo} (hi : timetable.nth i = some info) (hlt : i < runs.length)
    (dagModel : DagModel) :
    NextInSequence timetable maxActiveRuns
      (dagModel.calculateDagrunDateFields timetable (some info.dataInterval)) runs.length := by
  unfold DagModel.calculateDagrunDateFields
  rw [← Timetable.nth_succ hi]
  split
  · rename_i hnone
    refine .inr ⟨rfl, .inl ?_⟩
    rcases Nat.lt_or_ge (i + 1) runs.length with hlt' | hge
    · obtain ⟨info', hinfo', -⟩ := hruns (i + 1) _ (List.getElem?_eq_getElem hlt')
      rw [hnone] at hinfo'
      cases hinfo'
    · have heq : runs.length = i + 1 := by omega
      rw [heq]
      exact hnone
  · rename_i info' hinfo'
    exact .inl ⟨i + 1, hlt, info', hinfo', rfl, rfl⟩

theorem updateDagModel_inSequence {dagModel : DagModel} {runs : List DagRun}
    {last : Option DataInterval} (hkeep : NextInSequence timetable maxActiveRuns dagModel runs.length)
    (hcalc : NextInSequence timetable maxActiveRuns
      (dagModel.calculateDagrunDateFields timetable last) runs.length)
    (lastDagRun : Option DagRun) :
    NextInSequence timetable maxActiveRuns
      (updateDagModel timetable maxActiveRuns dagModel lastDagRun runs last) runs.length := by
  unfold updateDagModel shouldUpdateDagNextDagruns
  by_cases hfin : lastDagRun.any (¬State.isFinishedDr ·.state) = true
  · rw [if_pos hfin]
    exact hkeep
  · rw [if_neg hfin]
    by_cases hmax : numActiveRuns runs ≠ 0 ∧ numActiveRuns runs ≥ maxActiveRuns
    · rw [if_pos hmax]
      exact hkeep
    · rw [if_neg hmax]
      exact hcalc

/-- The last run is the one with the maximal date. -/
theorem lastAutomatedRun_eq {runs : List DagRun} (h : RunsPrefix timetable runs)
    (hne : runs ≠ []) :
    ∃ info, timetable.nth (runs.length - 1) = some info ∧
      (lastAutomatedRun runs).bind (·.dataInterval) = some info.dataInterval := by
  have hpos : runs.length - 1 < runs.length := by
    have := List.length_pos_iff.2 hne
    omega
  obtain ⟨info, hinfo, hdate, -⟩ := h _ _ (List.getElem?_eq_getElem hpos)
  have hmax : ∀ i (hi : i < runs.length), runs[i].executionDate ≤ info.logicalDate := by
    intro i hi
    obtain ⟨a, ha, hda, -⟩ := h i _ (List.getElem?_eq_getElem hi)
    rw [hda]
    rcases Nat.lt_or_ge i (runs.length - 1) with hlt | hge
    · exact Int.le_of_lt (Timetable.nth_lt hlt ha hinfo)
    · obtain rfl : i = runs.length - 1 := by omega
      cases ha.symm.trans hinfo
      exact Int.le_refl _
  rcases hfind : lastAutomatedRun runs with _ | r
  · have hnone := List.find?_eq_none.1 hfind _ (List.getElem_mem hpos)
    refine absurd (List.all_eq_true.2 fun r hr => ?_) hnone
    obtain ⟨i, hi, rfl⟩ := List.getElem_of_mem hr
    rw [decide_eq_true_eq, hdate]
    exact hmax i hi
  · obtain ⟨k, hk, rfl⟩ := List.getElem_of_mem (List.mem_of_find?_eq_some hfind)
    obtain ⟨a, ha, hda, hia⟩ := h k _ (List.getElem?_eq_getElem hk)
    have hsome : runs.all (·.executionDate ≤ runs[k].executionDate) = true :=
      List.find?_some (p := fun r : DagRun => runs.all (·.executionDate ≤ r.executionDate)) hfind
    have hall := List.all_eq_true.1 hsome _ (List.getElem_mem hpos)
    rw [decide_eq_true_eq, hdate] at hall
    have hsame : k = runs.length - 1 :=
      Timetable.nth_injective ha hinfo (by rw [← hda]; exact Int.le_antisymm (hmax k hk) hall)
    subst hsame
    cases ha.symm.trans hinfo
    exact ⟨info, hinfo, hia⟩

/-! ## The operations -/

/-- An operation that creates a run does so at the first date without one. -/
theorem mem_dates_iff {db : Database} (hi : Inv timetable maxActiveRuns db) {i : Nat}
    {info : DagRunInfo} (hinfo : timetable.nth i = some info) :
    info.logicalDate ∈ db.runs.map (·.executionDate) ↔ i < db.runs.length := by
  constructor
  · intro hmem
    obtain ⟨r, hr, hdate⟩ := List.mem_map.1 hmem
    obtain ⟨j, hj, rfl⟩ := List.getElem_of_mem hr
    obtain ⟨b, hb, hdb, -⟩ := hi.runs j _ (List.getElem?_eq_getElem hj)
    have hij := Timetable.nth_injective hinfo hb (hdate.symm.trans hdb)
    omega
  · intro hlt
    obtain ⟨b, hb, hdb, -⟩ := hi.runs i _ (List.getElem?_eq_getElem hlt)
    cases hinfo.symm.trans hb
    exact List.mem_map.2 ⟨_, List.getElem_mem hlt, hdb⟩

/-- What `_create_dag_runs` does to a DAG it selects: with `next_dagrun` at the `i`th date, it
creates the run if it is the first one without a run, and updates the DAG model. -/
theorem createDagRuns_cases {db : Database} (hi : Inv timetable maxActiveRuns db) (now : Int) :
    createDagRuns timetable maxActiveRuns db now = db ∨
      ∃ i info runs, timetable.nth i = some info ∧ i < runs.length ∧
        RunsPrefix timetable runs ∧
        (runs = db.runs ∨ i = db.runs.length ∧ runs.length = db.runs.length + 1) ∧
        NextAt timetable db.dagModel i ∧
        createDagRuns timetable maxActiveRuns db now =
          ⟨updateDagModel timetable maxActiveRuns db.dagModel none runs (some info.dataInterval),
            runs⟩ := by
  rcases hi.next with ⟨i, hle, info, hinfo, hnext, hint⟩ | ⟨hnone, -⟩
  · unfold createDagRuns
    dsimp only
    rw [hnext, hint]
    dsimp only
    split
    · right
      split
      · rename_i hnew
        rw [mem_dates_iff hi hinfo] at hnew
        obtain rfl : i = db.runs.length := by omega
        exact ⟨_, info, _, hinfo, by simp, hi.runs.append hinfo rfl rfl,
          .inr ⟨rfl, List.length_append⟩, ⟨info, hinfo, hnext, hint⟩, rfl⟩
      · rename_i hold
        rw [mem_dates_iff hi hinfo, Classical.not_not] at hold
        exact ⟨i, info, _, hinfo, hold, hi.runs, .inl rfl, ⟨info, hinfo, hnext, hint⟩, rfl⟩
    · exact .inl rfl
  · left
    unfold createDagRuns
    dsimp only
    rw [hnone]

theorem Inv.createDagRuns {db : Database} (hi : Inv timetable maxActiveRuns db) (now : Int) :
    Inv timetable maxActiveRuns (createDagRuns timetable maxActiveRuns db now) := by
  rcases createDagRuns_cases hi now with h | ⟨i, info, runs, hinfo, hlt, hruns, -, hat, h⟩
  · rw [h]
    exact hi
  · rw [h]
    exact ⟨hruns, updateDagModel_inSequence (.inl ⟨i, Nat.le_of_lt hlt, hat⟩)
      (calculate_inSequence hruns hinfo hlt _) none⟩

theorem Inv.scheduleDagRun {db : Database} (hi : Inv timetable maxActiveRuns db) (run : Nat)
    (state : DagRunState) :
    Inv timetable maxActiveRuns (scheduleDagRun timetable maxActiveRuns db run state) := by
  unfold NextDagrun.scheduleDagRun
  split
  · exact hi
  · rename_i r hr
    split
    · have hruns := hi.runs.set_state hr state
      obtain ⟨info, hinfo, -, hint⟩ := hi.runs run r hr
      have hlt : run < (db.runs.set run { r with state }).length := by
        rw [List.length_set]
        exact (List.getElem?_eq_some_iff.1 hr).1
      refine ⟨hruns, updateDagModel_inSequence ?_ ?_ _⟩
      · rw [List.length_set]
        exact hi.next
      · dsimp only
        have hcalc : NextInSequence timetable maxActiveRuns _ _ :=
          calculate_inSequence hruns hinfo hlt db.dagModel
        rw [← hint] at hcalc
        exact hcalc
    · exact hi

/-- A sync that is not throttled sets `next_dagrun` to the date after the last run. -/
theorem bulkWriteToDb_next {db : Database} (hruns : RunsPrefix timetable db.runs)
    (h : numActiveRuns db.runs < maxActiveRuns) :
    (bulkWriteToDb timetable maxActiveRuns db).dagModel.nextDagrun =
      (timetable.nth db.runs.length).map (·.logicalDate) := by
  unfold bulkWriteToDb
  dsimp only
  rw [if_neg (Nat.not_le_of_lt h)]
  rcases hnil : db.runs with _ | ⟨r, rest⟩
  · simp only [lastAutomatedRun, List.find?_nil, Option.bind_none, List.length_nil]
    unfold DagModel.calculateDagrunDateFields Timetable.nth
    rw [nthInfo]
    cases timetable.nextDagrunInfo none <;> rfl
  · rw [← hnil]
    have hne : db.runs ≠ [] := by simp [hnil]
    obtain ⟨info, hinfo, hlast⟩ := lastAutomatedRun_eq hruns hne
    rw [hlast, calculate_next hinfo, Nat.sub_add_cancel (List.length_pos_iff.2 hne)]

theorem bulkWriteToDb_inv {db : Database} (hruns : RunsPrefix timetable db.runs)
    (hnext : maxActiveRuns ≤ numActiveRuns db.runs →
      NextInSequence timetable maxActiveRuns db.dagModel db.runs.length) :
    Inv timetable maxActiveRuns (bulkWriteToDb timetable maxActiveRuns db) := by
  refine ⟨hruns, ?_⟩
  unfold bulkWriteToDb
  dsimp only
  split
  · rename_i hmax
    exact hnext hmax
  · rcases hnil : db.runs with _ | ⟨r, rest⟩
    · simp only [lastAutomatedRun, List.find?_nil, Option.bind_none, List.length_nil]
      unfold DagModel.calculateDagrunDateFields
      split
      · rename_i hnone
        exact .inr ⟨rfl, .inl hnone⟩
      · rename_i info hinfo
        exact .inl ⟨0, Nat.le_refl 0, info, hinfo, rfl, rfl⟩
    · rw [← hnil]
      have hne : db.runs ≠ [] := by simp [hnil]
      obtain ⟨info, hinfo, hlast⟩ := lastAutomatedRun_eq hruns hne
      have hpos := List.length_pos_iff.2 hne
      rw [hlast]
      exact calculate_inSequence hruns hinfo (by omega) _

theorem Inv.step {db : Database} (hi : Inv timetable maxActiveRuns db) (e : Event) :
    Inv timetable maxActiveRuns (step timetable maxActiveRuns db e) := by
  cases e with
  | createDagRuns now => exact hi.createDagRuns now
  | scheduleDagRun run state => exact hi.scheduleDagRun run state
  | bulkWriteToDb => exact bulkWriteToDb_inv hi.runs fun _ => hi.next
  | setState run state =>
    simp only [NextDagrun.step]
    split
    · rename_i r hr
      refine ⟨hi.runs.set_state hr state, ?_⟩
      rw [List.length_set]
      exact hi.next
    · exact hi

theorem Inv.init (timetable : Timetable) (maxActiveRuns : Nat) :
    Inv timetable maxActiveRuns (.init timetable maxActiveRuns) := by
  refine bulkWriteToDb_inv (fun i r hr => by simp at hr) fun hmax => .inr ⟨rfl, .inr ⟨?_, rfl⟩⟩
  exact Nat.le_zero.1 hmax

/-! ## The claim -/

/-- The created runs have the first dates of the sequence, each once. -/
structure NoGapNoDuplicate (timetable : Timetable) (db : Database) : Prop where
  prefixed : ∀ i r, db.runs[i]? = some r →
    (timetable.nth i).map (·.logicalDate) = some r.executionDate
  once : (db.runs.map (·.executionDate)).Nodup

/-- `next_dagrun` is the date after the last created run. -/
def NextIsAfterLast (timetable : Timetable) (db : Database) : Prop :=
  db.dagModel.nextDagrun = (timetable.nth db.runs.length).map (·.logicalDate)

/-- `next_dagrun` is the date of a created run or the one after the last, and the latter after every
sync and creation that is not throttled. -/
structure NextNotBeyond (timetable : Timetable) (maxActiveRuns : Nat) (db : Database) : Prop where
  inSequence : NextInSequence timetable maxActiveRuns db.dagModel db.runs.length
  synced : numActiveRuns db.runs < maxActiveRuns →
    NextIsAfterLast timetable (bulkWriteToDb timetable maxActiveRuns db)
  created : ∀ now, (createDagRuns timetable maxActiveRuns db now).runs ≠ db.runs →
    numActiveRuns (createDagRuns timetable maxActiveRuns db now).runs < maxActiveRuns →
      NextIsAfterLast timetable (createDagRuns timetable maxActiveRuns db now)

theorem Inv.noGapNoDuplicate {db : Database} (hi : Inv timetable maxActiveRuns db) :
    NoGapNoDuplicate timetable db := by
  refine ⟨fun i r hr => ?_, hi.runs.nodup⟩
  obtain ⟨info, hinfo, hdate, -⟩ := hi.runs i r hr
  rw [hinfo, hdate, Option.map_some]

theorem Inv.nextNotBeyond {db : Database} (hi : Inv timetable maxActiveRuns db) :
    NextNotBeyond timetable maxActiveRuns db := by
  refine ⟨hi.next, bulkWriteToDb_next hi.runs, fun now hne hlt => ?_⟩
  rcases createDagRuns_cases hi now with h | ⟨i, info, runs, hinfo, -, -, hnew, -, h⟩
  · rw [h] at hne
    exact absurd rfl hne
  · rw [h] at hne hlt ⊢
    obtain ⟨rfl, hlen⟩ := hnew.resolve_left hne
    unfold NextIsAfterLast updateDagModel shouldUpdateDagNextDagruns
    have hmax : ¬(numActiveRuns runs ≠ 0 ∧ numActiveRuns runs ≥ maxActiveRuns) :=
      fun hmax => Nat.not_le_of_lt hlt hmax.2
    simp only [Option.any_none, Bool.false_eq_true, if_false, hmax, if_true]
    rw [calculate_next hinfo, hlen]

/-- **Scheduled runs have no gap and no duplicate**, and `next_dagrun` never skips a date. -/
theorem scheduled_runs_prefix (timetable : Timetable) (maxActiveRuns : Nat) (events : List Event) :
    ∀ db ∈ Transition.states (step timetable maxActiveRuns) (.init timetable maxActiveRuns) events,
      NoGapNoDuplicate timetable db ∧ NextNotBeyond timetable maxActiveRuns db := by
  intro db hdb
  have hi : Inv timetable maxActiveRuns db :=
    Transition.states_invariant (fun _ e hi => hi.step e) (.init timetable maxActiveRuns) db hdb
  exact ⟨hi.noGapNoDuplicate, hi.nextNotBeyond⟩

/-! ## Throttled creation -/

/-- `next_dagrun_info` of one interval a day from day 0 on. -/
def dailyInfo : Option DataInterval → Option DagRunInfo
  | none => some ⟨1, 0, 1⟩
  | some interval => some ⟨interval.end + 1, interval.end, interval.end + 1⟩

theorem nthInfo_daily (i : Nat) : nthInfo dailyInfo i = some ⟨i + 1, i, i + 1⟩ := by
  induction i with
  | zero => rfl
  | succ i ih =>
    rw [nthInfo, ih]
    simp [dailyInfo]

def daily : Timetable where
  nextDagrunInfo := dailyInfo
  increasing i a b ha hb := by
    rw [nthInfo_daily, Option.some.injEq] at ha hb
    subst ha hb
    exact Int.lt_succ i

/-- The database after the daily DAG has its first run. -/
theorem daily_first_run :
    NoGapNoDuplicate daily (step daily 1 (.init daily 1) (.createDagRuns 1)) ∧
      NextNotBeyond daily 1 (step daily 1 (.init daily 1) (.createDagRuns 1)) :=
  scheduled_runs_prefix daily 1 [.createDagRuns 1] _ (List.mem_of_getElem? (i := 1) rfl)

/-- With one active run allowed, `next_dagrun` stays at the run just created. -/
theorem throttled_creation_keeps_next : ¬∀ (timetable : Timetable) (maxActiveRuns : Nat)
    (events : List Event),
    ∀ db ∈ Transition.states (step timetable maxActiveRuns) (.init timetable maxActiveRuns) events,
      NoGapNoDuplicate timetable db ∧ NextIsAfterLast timetable db := by
  intro h
  have hnext := (h daily 1 [.createDagRuns 1] _ (List.mem_of_getElem? (i := 1) rfl)).2
  exact absurd hnext (by unfold NextIsAfterLast; decide)

end Airflow.NextDagrun
