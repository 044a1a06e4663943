import Airflow.Sensors.Proof.Reschedule
import Airflow.Sensors.Waits
import Mathlib.Data.List.Induction
import Mathlib.Data.Set.Lattice

/-!
# When poke and reschedule mode wait alike

In poke mode the backoff grows with the pokes of the execution; in reschedule mode each execution
computes the one of a first poke. Below the cap the two are the same only while the first backoff is
still the least one.
-/

namespace Airflow.Sensors

variable {sensor : BaseSensorOperator} {mysql : Bool} {runHash : ℚ → Int → Nat}

/-! ## The backoff -/

theorem truncate_of_nonneg {x : ℚ} (hx : 0 ≤ x) : truncate x = ⌊x⌋ := if_pos hx

theorem one_le_minBackoff (sensor : BaseSensorOperator) (n : Int) : 1 ≤ sensor.minBackoff n :=
  le_max_right _ _

theorem scaled_nonneg (sensor : BaseSensorOperator) (n : Int) :
    0 ≤ sensor.pokeInterval * 2 ^ (n - 2) :=
  mul_nonneg sensor.pokeInterval_nonneg (zpow_nonneg (by decide) _)

theorem scaled_mono (sensor : BaseSensorOperator) {k m : Int} (h : k ≤ m) :
    sensor.pokeInterval * 2 ^ (k - 2) ≤ sensor.pokeInterval * 2 ^ (m - 2) :=
  mul_le_mul_of_nonneg_left (zpow_le_zpow_right₀ (by decide) (sub_le_sub_right h 2))
    sensor.pokeInterval_nonneg

theorem minBackoff_mono (sensor : BaseSensorOperator) {k m : Int} (h : k ≤ m) :
    sensor.minBackoff k ≤ sensor.minBackoff m := by
  unfold BaseSensorOperator.minBackoff
  rw [truncate_of_nonneg (scaled_nonneg sensor k), truncate_of_nonneg (scaled_nonneg sensor m)]
  exact max_le_max_right 1 (Int.floor_mono (scaled_mono sensor h))

/-- From the second poke on the backoff is computed from twice as much at least. -/
theorem two_mul_scaled_le (sensor : BaseSensorOperator) {n : Int} (hn : 2 ≤ n) :
    2 * (sensor.pokeInterval * 2 ^ ((1 : Int) - 2)) ≤ sensor.pokeInterval * 2 ^ (n - 2) := by
  have hhalf : 2 * (sensor.pokeInterval * 2 ^ ((1 : Int) - 2)) =
      sensor.pokeInterval * 2 ^ ((2 : Int) - 2) := by
    have htwo : (2 : ℚ) ^ ((1 : Int) - 2) = 1 / 2 := by norm_num
    rw [htwo, sub_self, zpow_zero]
    ring
  rw [hhalf]
  exact scaled_mono sensor hn

/-- The backoff after a poke is that after the first one only for the first one, or while both are
the least one. -/
theorem minBackoff_eq_iff (sensor : BaseSensorOperator) {n : Nat} (hn : 0 < n) :
    sensor.minBackoff n = sensor.minBackoff 1 ↔
      n = 1 ∨ sensor.pokeInterval * 2 ^ ((n : Int) - 2) < 2 := by
  have hmono : sensor.pokeInterval * 2 ^ ((1 : Int) - 2) ≤
      sensor.pokeInterval * 2 ^ ((n : Int) - 2) := scaled_mono sensor (by omega)
  unfold BaseSensorOperator.minBackoff
  rw [truncate_of_nonneg (scaled_nonneg sensor n), truncate_of_nonneg (scaled_nonneg sensor 1)]
  constructor
  · intro h
    by_contra hne
    rw [not_or, not_lt] at hne
    obtain ⟨hn1, htwo⟩ := hne
    have hfloor : 2 ≤ ⌊sensor.pokeInterval * 2 ^ ((n : Int) - 2)⌋ := Int.le_floor.mpr htwo
    have hdouble : 2 * ⌊sensor.pokeInterval * 2 ^ ((1 : Int) - 2)⌋ ≤
        ⌊sensor.pokeInterval * 2 ^ ((n : Int) - 2)⌋ := by
      rw [Int.le_floor, Int.cast_mul, Int.cast_ofNat]
      have hle := Int.floor_le (sensor.pokeInterval * 2 ^ ((1 : Int) - 2))
      have htwice := two_mul_scaled_le sensor (n := n) (by omega)
      linarith
    omega
  · rintro (rfl | hlt)
    · rfl
    · have hfloor : ⌊sensor.pokeInterval * 2 ^ ((n : Int) - 2)⌋ < 2 := Int.floor_lt.mpr hlt
      have hfloor' := Int.floor_mono hmono
      omega

/-- The wait after a poke, under the cap. -/
theorem getNextPokeInterval_eq (hexp : sensor.exponentialBackoff = true) (hash : Nat)
    (runDuration : ℚ) (n : Int) :
    sensor.getNextPokeInterval hash runDuration n =
      min (sensor.cap runDuration)
        ((sensor.minBackoff n + hash % sensor.minBackoff n : Int) : ℚ) := by
  unfold BaseSensorOperator.getNextPokeInterval BaseSensorOperator.cap
  rw [hexp]
  dsimp only [Bool.not_true]
  rw [if_neg (by decide)]
  cases sensor.maxWait with
  | none =>
    dsimp only
    rw [min_assoc, min_comm (timedeltaMaxSeconds - 1)]
  | some maxWait =>
    dsimp only
    split_ifs with hzero
    · rw [min_assoc, min_comm (timedeltaMaxSeconds - 1)]
    · rw [min_assoc, min_assoc, min_comm (timedeltaMaxSeconds - 1)]

/-- Without backoff the interval is fixed. -/
theorem getNextPokeInterval_fixed (hexp : sensor.exponentialBackoff = false) (hash : Nat)
    (runDuration : ℚ) (n : Int) :
    sensor.getNextPokeInterval hash runDuration n = sensor.pokeInterval := by
  unfold BaseSensorOperator.getNextPokeInterval
  rw [hexp]
  rfl

/-! ## Their bounds -/

/-- The intervals that the hashes give. -/
def intervals (sensor : BaseSensorOperator) (runDuration : ℚ) (n : Int) : Set ℚ :=
  Set.range fun hash => sensor.getNextPokeInterval hash runDuration n

theorem intervals_fixed (hexp : sensor.exponentialBackoff = false) (runDuration : ℚ) (n : Int) :
    intervals sensor runDuration n = {sensor.pokeInterval} := by
  unfold intervals
  simp only [getNextPokeInterval_fixed hexp, Set.range_const]

theorem isLeast_intervals (hexp : sensor.exponentialBackoff = true) (runDuration : ℚ) (n : Int) :
    IsLeast (intervals sensor runDuration n)
      (min (sensor.cap runDuration) (sensor.minBackoff n : ℚ)) := by
  refine ⟨⟨0, ?_⟩, ?_⟩
  · dsimp only
    rw [getNextPokeInterval_eq hexp, Nat.cast_zero, Int.zero_emod, add_zero]
  · rintro w ⟨hash, rfl⟩
    dsimp only
    rw [getNextPokeInterval_eq hexp]
    have hnonneg : 0 ≤ (hash : Int) % sensor.minBackoff n :=
      Int.emod_nonneg _ (by have := one_le_minBackoff sensor n; omega)
    exact min_le_min_left _ (Int.cast_le.mpr (by omega))

theorem isGreatest_intervals (hexp : sensor.exponentialBackoff = true) (runDuration : ℚ)
    (n : Int) :
    IsGreatest (intervals sensor runDuration n)
      (min (sensor.cap runDuration) ((2 * sensor.minBackoff n - 1 : Int) : ℚ)) := by
  have hone := one_le_minBackoff sensor n
  refine ⟨⟨(sensor.minBackoff n - 1).toNat, ?_⟩, ?_⟩
  · dsimp only
    rw [getNextPokeInterval_eq hexp, Int.toNat_of_nonneg (by omega),
      Int.emod_eq_of_lt (by omega) (by omega)]
    congr 2
    omega
  · rintro w ⟨hash, rfl⟩
    dsimp only
    rw [getNextPokeInterval_eq hexp]
    have hlt : (hash : Int) % sensor.minBackoff n < sensor.minBackoff n :=
      Int.emod_lt_of_pos _ (by omega)
    exact min_le_min_left _ (Int.cast_le.mpr (by omega))

theorem SameBounds.refl (A : Set ℚ) : SameBounds A A := ⟨fun _ => Iff.rfl, fun _ => Iff.rfl⟩

theorem sameBounds_of {A B : Set ℚ} {l u : ℚ} (hA : IsLeast A l) (hB : IsLeast B l)
    (hA' : IsGreatest A u) (hB' : IsGreatest B u) : SameBounds A B where
  least _ := ⟨fun h => h.unique hA ▸ hB, fun h => h.unique hB ▸ hA⟩
  greatest _ := ⟨fun h => h.unique hA' ▸ hB', fun h => h.unique hB' ▸ hA'⟩

/-- The intervals after a poke are within the same bounds as those after the first one exactly when
the backoff is the same, or the cap is not above it. -/
theorem sameBounds_intervals_iff (hexp : sensor.exponentialBackoff = true) (runDuration : ℚ)
    {n : Int} (hn : 1 ≤ n) :
    SameBounds (intervals sensor runDuration n) (intervals sensor runDuration 1) ↔
      sensor.minBackoff n = sensor.minBackoff 1 ∨
        sensor.cap runDuration ≤ (sensor.minBackoff 1 : ℚ) := by
  have hmono : (sensor.minBackoff 1 : ℚ) ≤ (sensor.minBackoff n : ℚ) :=
    Int.cast_le.mpr (minBackoff_mono sensor hn)
  have hleast := isLeast_intervals hexp runDuration n
  have hgreatest := isGreatest_intervals hexp runDuration n
  constructor
  · intro h
    have heq := ((h.least _).mp hleast).unique (isLeast_intervals hexp runDuration 1)
    by_contra hne
    rw [not_or, not_le] at hne
    obtain ⟨hbackoff, hcap⟩ := hne
    rw [min_eq_right hcap.le] at heq
    rcases min_choice (sensor.cap runDuration) (sensor.minBackoff n : ℚ) with hmin | hmin
    · rw [hmin] at heq
      exact hcap.ne' heq
    · rw [hmin] at heq
      exact hbackoff (Int.cast_injective heq)
  · rintro (hbackoff | hcap)
    · rw [hbackoff] at hleast hgreatest
      exact sameBounds_of hleast (isLeast_intervals hexp runDuration 1) hgreatest
        (isGreatest_intervals hexp runDuration 1)
    · have hgreater (m : Int) :
          ((sensor.minBackoff m : Int) : ℚ) ≤ ((2 * sensor.minBackoff m - 1 : Int) : ℚ) := by
        have hone := one_le_minBackoff sensor m
        exact Int.cast_le.mpr (by omega)
      have hleast' := isLeast_intervals hexp runDuration 1
      have hgreatest' := isGreatest_intervals hexp runDuration 1
      rw [min_eq_left (hcap.trans hmono)] at hleast
      rw [min_eq_left ((hcap.trans hmono).trans (hgreater n))] at hgreatest
      rw [min_eq_left hcap] at hleast'
      rw [min_eq_left (hcap.trans (hgreater 1))] at hgreatest'
      exact sameBounds_of hleast hleast' hgreatest hgreatest'

/-! ## One poke -/

/-- After a poke that comes to nothing the sensor sleeps in poke mode, and reschedules otherwise. -/
theorem iteration_waits {startedAt : ℚ} {poke : Poke} {clock : Clock}
    (h : WaitsAfter sensor mysql startedAt poke clock) {tryNumber : Int}
    (hfirst : sensor.reschedule = true → tryNumber = 1) (hash : Nat) :
    sensor.iteration mysql hash startedAt tryNumber poke clock =
      if sensor.reschedule then
        .inl (.raises (.airflowRescheduleException (clock.rescheduled +
          sensor.getNextPokeInterval hash (clock.waited - startedAt) tryNumber)))
      else .inr (sensor.getNextPokeInterval hash (clock.waited - startedAt) tryNumber) := by
  have hgoOn : sensor.iteration mysql hash startedAt tryNumber (.returns false none) clock =
      if sensor.reschedule then
        .inl (.raises (.airflowRescheduleException (clock.rescheduled +
          sensor.getNextPokeInterval hash (clock.waited - startedAt) tryNumber)))
      else .inr (sensor.getNextPokeInterval hash (clock.waited - startedAt) tryNumber) := by
    unfold BaseSensorOperator.iteration
    dsimp only
    rw [if_neg (not_lt.mpr h.inTime)]
    by_cases hmode : sensor.reschedule = true
    · have hlimit : ¬(mysql && decide (clock.rescheduled +
          sensor.getNextPokeInterval hash (clock.waited - startedAt) tryNumber >
            mysqlTimestampMax)) = true := by
        rw [Bool.and_eq_true, decide_eq_true_iff, not_and, not_lt, hfirst hmode]
        exact fun hmysql => h.inLimit hmode hmysql hash
      rw [if_pos hmode, if_pos hmode, if_neg hlimit]
    · rw [if_neg hmode, if_neg hmode]
  rw [← hgoOn]
  cases poke with
  | returns isDone xcomValue =>
    cases isDone with
    | true => cases h.isFalse
    | false => rfl
  | raises e =>
    have hnone : sensor.handlePokeException e = none := Option.isNone_iff_eq_none.mp h.isFalse
    unfold BaseSensorOperator.iteration
    dsimp only
    rw [hnone]

/-! ## The modes -/

/-- The hash is arbitrary. -/
theorem range_runHash {α : Type*} (f : Nat → α) (startedAt : ℚ) (n : Int) :
    { w | ∃ runHash : ℚ → Int → Nat, w = f (runHash startedAt n) } = Set.range f := by
  ext w
  constructor
  · rintro ⟨runHash, rfl⟩
    exact ⟨_, rfl⟩
  · rintro ⟨hash, rfl⟩
    exact ⟨fun _ _ => hash, rfl⟩

/-- In poke mode the sensor sleeps after each poke, by the number of pokes so far. -/
theorem executeLoop_waits (hmode : sensor.reschedule = false) (runHash : ℚ → Int → Nat)
    {startedAt : ℚ} {last : Poke × Clock} (hlast : WaitsAfter sensor mysql startedAt last.1 last.2) {pokes : List (Poke × Clock)}
    (h : ∀ x ∈ pokes, WaitsAfter sensor mysql startedAt x.1 x.2) (n : Int) :
    ∃ slept, sensor.executeLoop mysql runHash startedAt n (pokes ++ [last]) =
      (slept ++ [sensor.getNextPokeInterval (runHash startedAt (n + pokes.length))
        (last.2.waited - startedAt) (n + pokes.length)], none) := by
  have hsleeps {poke : Poke} {clock : Clock} (hwaits : WaitsAfter sensor mysql startedAt poke clock)
      (n : Int) : sensor.iteration mysql (runHash startedAt n) startedAt n poke clock =
        .inr (sensor.getNextPokeInterval (runHash startedAt n) (clock.waited - startedAt) n) := by
    have hnot : ¬sensor.reschedule = true := by
      rw [hmode]
      decide
    rw [iteration_waits hwaits (fun htrue => absurd htrue hnot), if_neg hnot]
  induction pokes generalizing n with
  | nil =>
    refine ⟨[], ?_⟩
    obtain ⟨poke, clock⟩ := last
    rw [List.length_nil, Nat.cast_zero, add_zero, List.nil_append, List.nil_append]
    unfold BaseSensorOperator.executeLoop
    rw [hsleeps hlast n]
    rfl
  | cons x pokes ih =>
    obtain ⟨poke, clock⟩ := x
    obtain ⟨slept, hloop⟩ := ih (fun y hy => h y (List.mem_cons_of_mem _ hy)) (n + 1)
    refine ⟨sensor.getNextPokeInterval (runHash startedAt n) (clock.waited - startedAt) n :: slept,
      ?_⟩
    rw [List.cons_append, BaseSensorOperator.executeLoop, hsleeps (h _ (List.mem_cons_self ..)) n,
      hloop, List.length_cons, Nat.cast_succ, add_right_comm, ← add_assoc]
    rfl

/-- The waits of poke mode are the intervals of the last poke. -/
theorem pokeModeWaits_eq (hmode : sensor.reschedule = false) {now : ℚ} {last : Poke × Clock}
    {pokes : List (Poke × Clock)}
    (h : ∀ x ∈ pokes ++ [last], WaitsAfter sensor mysql now x.1 x.2) :
    pokeModeWaits sensor mysql now (pokes ++ [last]) =
      intervals sensor (last.2.waited - now) (pokes.length + 1 : Nat) := by
  have hnow : sensor.startedAt sensor.retries [] now = now := by
    unfold BaseSensorOperator.startedAt
    rw [if_neg (by rw [hmode]; decide)]
  have hlast := h last (List.mem_append_right _ (List.mem_singleton_self _))
  have hpokes := fun x hx => h x (List.mem_append_left [last] hx)
  have hexecute (runHash : ℚ → Int → Nat) : ∃ slept,
      sensor.execute mysql runHash sensor.retries [] now (pokes ++ [last]) =
        (slept ++ [sensor.getNextPokeInterval (runHash now (pokes.length + 1 : Nat))
          (last.2.waited - now) (pokes.length + 1 : Nat)], none) := by
    unfold BaseSensorOperator.execute
    rw [hnow, Nat.cast_succ, add_comm (pokes.length : Int)]
    exact executeLoop_waits hmode runHash hlast hpokes 1
  ext w
  constructor
  · rintro ⟨runHash, slept, h, hw⟩
    obtain ⟨slept', h'⟩ := hexecute runHash
    obtain ⟨rfl, -⟩ := Prod.mk.inj (h.symm.trans h')
    rw [List.getLast?_concat, Option.some_inj] at hw
    exact ⟨_, hw⟩
  · rintro ⟨hash, rfl⟩
    obtain ⟨slept, h⟩ := hexecute fun _ _ => hash
    exact ⟨_, _, h, List.getLast?_concat⟩

/-! ## The rounds -/

/-- The task instance between two rounds. -/
structure Between (sensor : BaseSensorOperator) (now : ℚ) (rs : List Round) (s : State) : Prop where
  idle : s.execution = none
  scheduleable : State.isScheduleable s.ti.state = true
  maxTries : s.ti.maxTries = sensor.retries
  tryNumber : s.ti._tryNumber = 0
  noRow : rs = [] → s.now = now ∧ s.rows = []
  row : ∀ r, rs.head? = some r → ∃ row, firstRow s.rows 1 = some row ∧
    row.startDate = now + r.after

/-- A scheduleable instance is started by a round. -/
theorem step_started {s : State} (hscheduleable : State.isScheduleable s.ti.state = true)
    (r : Round) :
    (r.events.take 3).foldl (step sensor mysql runHash) s = started sensor s r.after r.setup := by
  have hschedule : step sensor mysql runHash s .schedule =
      { s with ti := { s.ti with state := some .scheduled } } := if_pos hscheduleable
  change step sensor mysql runHash (step sensor mysql runHash (step sensor mysql runHash s
    .schedule) .queue) (.start true true r.after r.setup) = _
  rw [hschedule]
  rfl

/-- A round that waits adds a row and an execution that rescheduled. -/
theorem foldl_round (hmode : sensor.reschedule = true) {s : State}
    (hscheduleable : State.isScheduleable s.ti.state = true) {r : Round}
    (hwaits : WaitsAfter sensor mysql (s.start sensor r.after r.setup).startedAt r.poke r.clock) :
    r.events.foldl (step sensor mysql runHash) s =
      (started sensor s r.after r.setup).finish sensor (s.start sensor r.after r.setup)
        (.raises (.airflowRescheduleException (r.clock.rescheduled +
          sensor.getNextPokeInterval (runHash (s.start sensor r.after r.setup).startedAt 1)
            (r.clock.waited - (s.start sensor r.after r.setup).startedAt) 1))) := by
  have hiter := iteration_waits hwaits (fun _ => rfl)
    (runHash (s.start sensor r.after r.setup).startedAt 1)
  rw [if_pos hmode] at hiter
  have hevents : r.events = r.events.take 3 ++ [.poke r.poke r.clock] := rfl
  rw [hevents, List.foldl_append, step_started hscheduleable]
  have he : (started sensor s r.after r.setup).execution = some (s.start sensor r.after r.setup) :=
    rfl
  exact step_poke he (Execution.result_eq hiter)

theorem Between.start_startedAt {now : ℚ} {before : List Round} {s : State}
    (h : Between sensor now before s) (hmode : sensor.reschedule = true) (r : Round) :
    (s.start sensor r.after r.setup).startedAt = measuredFrom now (before ++ [r]) := by
  have hfirst : sensor.firstTryNumber s.ti.maxTries = 1 := by
    unfold BaseSensorOperator.firstTryNumber
    rw [h.maxTries]
    omega
  cases before with
  | nil =>
    obtain ⟨hnow, hrows⟩ := h.noRow rfl
    rw [Sensors.start_startedAt (by rw [hrows]; rfl)]
    unfold State.start
    rw [hnow]
    rfl
  | cons r' before =>
    obtain ⟨row, hrow, hdate⟩ := h.row r' rfl
    have hmeasured : measuredFrom now (r' :: before ++ [r]) = now + r'.after := by
      cases before <;> rfl
    rw [hmeasured, ← hdate]
    exact startedAt_of_row hmode (by rw [hfirst]; exact hrow) _

/-- A round leads from one state between rounds to the next. -/
theorem Between.round (hmode : sensor.reschedule = true) (runHash : ℚ → Int → Nat) {now : ℚ}
    {before : List Round} {s : State}
    (h : Between sensor now before s) {r : Round}
    (hwaits : WaitsAfter sensor mysql (measuredFrom now (before ++ [r])) r.poke r.clock) :
    Between sensor now (before ++ [r]) (r.events.foldl (step sensor mysql runHash) s) ∧
      ∃ e, (r.events.foldl (step sensor mysql runHash) s).ended.getLast? =
        some (e, .raises (.airflowRescheduleException (r.clock.rescheduled +
          sensor.getNextPokeInterval (runHash (measuredFrom now (before ++ [r])) 1)
            (r.clock.waited - measuredFrom now (before ++ [r])) 1))) := by
  rw [← h.start_startedAt hmode r] at hwaits ⊢
  rw [foldl_round hmode h.scheduleable hwaits]
  refine ⟨?_, s.start sensor r.after r.setup, ?_⟩
  · constructor
    case idle => rfl
    case scheduleable => rfl
    case maxTries => exact h.maxTries
    case tryNumber =>
      change s.ti._tryNumber + 1 - 1 = 0
      rw [h.tryNumber]
      rfl
    case noRow => exact fun hnil => absurd hnil (List.append_ne_nil_of_right_ne_nil _ (by simp))
    case row =>
      intro first hfirst
      have hrows : ∀ date, ((started sensor s r.after r.setup).finish sensor
          (s.start sensor r.after r.setup) (.raises (.airflowRescheduleException date))).rows =
            s.rows ++ [⟨1, s.now + r.after, date⟩] := by
        intro date
        change s.rows ++ [⟨s.ti._tryNumber + 1, s.now + r.after, date⟩] = _
        rw [h.tryNumber]
        rfl
      rw [hrows]
      cases before with
      | nil =>
        obtain rfl := Option.some.inj hfirst
        obtain ⟨hnow, hnone⟩ := h.noRow rfl
        rw [hnone, hnow]
        exact ⟨_, rfl, rfl⟩
      | cons r' before =>
        obtain ⟨row, hrow, hdate⟩ := h.row first hfirst
        exact ⟨row, firstRow_append hrow _, hdate⟩
  · rw [finish_ended, List.getLast?_concat]

theorem RoundsWait.before {now : ℚ} {rs rs' : List Round} (h : RoundsWait sensor mysql now rs)
    (hrs : rs' <+: rs) : RoundsWait sensor mysql now rs' :=
  fun before r hbefore => h before r (hbefore.trans hrs)

/-- The task instance after rounds that wait. -/
theorem between_rounds (hmode : sensor.reschedule = true) (runHash : ℚ → Int → Nat) {now : ℚ}
    {rs : List Round} (h : RoundsWait sensor mysql now rs) :
    Between sensor now rs (rounds sensor mysql now runHash rs) := by
  induction rs using List.reverseRecOn with
  | nil =>
    constructor
    case row => exact fun r hr => by cases hr
    case noRow => exact fun _ => ⟨rfl, rfl⟩
    all_goals rfl
  | append_singleton rs r ih =>
    have hround := ((ih (h.before (List.prefix_append rs [r]))).round hmode runHash
      (h rs r List.prefix_rfl)).1
    unfold rounds
    rw [List.flatMap_append, List.foldl_append, List.flatMap_singleton]
    exact hround

/-- The waits of reschedule mode are the intervals of a first poke. -/
theorem rescheduleModeWaits_eq (hmode : sensor.reschedule = true) {now : ℚ} {rs : List Round}
    {last : Round} (h : RoundsWait sensor mysql now (rs ++ [last])) :
    rescheduleModeWaits sensor mysql now (rs ++ [last]) =
      intervals sensor (last.clock.waited - measuredFrom now (rs ++ [last])) 1 := by
  have hlast (runHash : ℚ → Int → Nat) : ∃ e,
      (rounds sensor mysql now runHash (rs ++ [last])).ended.getLast? =
        some (e, .raises (.airflowRescheduleException (last.clock.rescheduled +
          sensor.getNextPokeInterval (runHash (measuredFrom now (rs ++ [last])) 1)
            (last.clock.waited - measuredFrom now (rs ++ [last])) 1))) := by
    unfold rounds
    rw [List.flatMap_append, List.foldl_append, List.flatMap_singleton]
    exact ((between_rounds hmode runHash (h.before (List.prefix_append rs [last]))).round hmode
      runHash (h rs last List.prefix_rfl)).2
  ext w
  constructor
  · rintro ⟨runHash, e, date, r, hended, hr, hdate⟩
    obtain ⟨e', hended'⟩ := hlast runHash
    rw [List.getLast?_concat, Option.some_inj] at hr
    rw [hended', Option.some_inj, Prod.mk.injEq] at hended
    obtain ⟨-, hended⟩ := hended
    injection hended with hended
    injection hended with hended
    rw [← hr, ← hended] at hdate
    exact ⟨_, add_left_cancel hdate⟩
  · rintro ⟨hash, rfl⟩
    obtain ⟨e, hended⟩ := hlast fun _ _ => hash
    exact ⟨_, e, _, last, hended, List.getLast?_concat, rfl⟩

/-! ## Alike -/

theorem lastDuration_concat (startedAt : ℚ) (clocks : List Clock) (last : Clock) :
    lastDuration startedAt (clocks ++ [last]) = last.waited - startedAt := by
  unfold lastDuration
  rw [List.getLast?_concat]
  rfl

/-- The waits of poke mode, by the number of pokes. -/
theorem pokeModeWaits_eq_intervals (sensor : BaseSensorOperator) {now : ℚ}
    {pokes : List (Poke × Clock)} (hne : pokes ≠ [])
    (h : ∀ x ∈ pokes, WaitsAfter (sensor.inMode false) mysql now x.1 x.2) :
    pokeModeWaits (sensor.inMode false) mysql now pokes =
      intervals sensor (lastDuration now (pokes.map (·.2))) pokes.length := by
  obtain ⟨before, last, rfl⟩ := (List.eq_nil_or_concat' pokes).resolve_left hne
  rw [pokeModeWaits_eq rfl h, List.map_append, List.map_singleton, lastDuration_concat,
    List.length_append, List.length_singleton]
  rfl

/-- The waits of reschedule mode, those of a first poke. -/
theorem rescheduleModeWaits_eq_intervals (sensor : BaseSensorOperator) {now : ℚ} {rs : List Round}
    (hne : rs ≠ []) (h : RoundsWait (sensor.inMode true) mysql now rs) :
    rescheduleModeWaits (sensor.inMode true) mysql now rs =
      intervals sensor (lastDuration (measuredFrom now rs) (rs.map (·.clock))) 1 := by
  obtain ⟨before, last, rfl⟩ := (List.eq_nil_or_concat' rs).resolve_left hne
  rw [rescheduleModeWaits_eq rfl h, List.map_append, List.map_singleton, lastDuration_concat]
  rfl

/-- The least interval after a later poke is no less, unless it is the cap. -/
theorem least_le_of_backoff (hexp : sensor.exponentialBackoff = true) {d d' : ℚ} {k m : Int}
    (hkm : k ≤ m) {w w' : ℚ} (hw : IsLeast (intervals sensor d k) w)
    (hw' : IsLeast (intervals sensor d' m) w') : w ≤ w' ∨ w' = sensor.cap d' := by
  rw [hw.unique (isLeast_intervals hexp d k), hw'.unique (isLeast_intervals hexp d' m)]
  rcases min_choice (sensor.cap d') (sensor.minBackoff m : ℚ) with hmin | hmin
  · exact .inr hmin
  · left
    calc min (sensor.cap d) (sensor.minBackoff k : ℚ)
        ≤ sensor.minBackoff k := min_le_right _ _
      _ ≤ sensor.minBackoff m := Int.cast_le.mpr (minBackoff_mono sensor hkm)
      _ = min (sensor.cap d') (sensor.minBackoff m : ℚ) := hmin.symm

theorem nonDecreasing_pokeModeWaits (hexp : sensor.exponentialBackoff = true) {now : ℚ}
    {pokes : List (Poke × Clock)}
    (h : ∀ x ∈ pokes, WaitsAfter (sensor.inMode false) mysql now x.1 x.2) :
    NonDecreasing (fun k => pokeModeWaits (sensor.inMode false) mysql now (pokes.take k))
      (fun k => sensor.cap (lastDuration now ((pokes.take k).map (·.2)))) pokes.length := by
  intro k m hk hkm hm w w' hw hw'
  have hwaits {j : Nat} (hj : 0 < j) (hjm : j ≤ pokes.length) :
      pokeModeWaits (sensor.inMode false) mysql now (pokes.take j) =
        intervals sensor (lastDuration now ((pokes.take j).map (·.2))) j := by
    have hne : pokes.take j ≠ [] := List.ne_nil_of_length_pos (by rw [List.length_take]; omega)
    rw [pokeModeWaits_eq_intervals sensor hne fun x hx => h x (List.mem_of_mem_take hx),
      List.length_take_of_le hjm]
  dsimp only at hw hw' ⊢
  rw [hwaits hk (hkm.trans hm)] at hw
  rw [hwaits (hk.trans_le hkm) hm] at hw'
  exact least_le_of_backoff hexp (Int.ofNat_le.mpr hkm) hw hw'

theorem nonDecreasing_rescheduleModeWaits (hexp : sensor.exponentialBackoff = true) {now : ℚ}
    {rs : List Round} (h : RoundsWait (sensor.inMode true) mysql now rs) :
    NonDecreasing (fun k => rescheduleModeWaits (sensor.inMode true) mysql now (rs.take k))
      (fun k => sensor.cap (lastDuration (measuredFrom now (rs.take k))
        ((rs.take k).map (·.clock)))) rs.length := by
  intro k m hk hkm hm w w' hw hw'
  have hwaits {j : Nat} (hj : 0 < j) (hjm : j ≤ rs.length) :
      rescheduleModeWaits (sensor.inMode true) mysql now (rs.take j) =
        intervals sensor (lastDuration (measuredFrom now (rs.take j))
          ((rs.take j).map (·.clock))) 1 := by
    have hne : rs.take j ≠ [] := List.ne_nil_of_length_pos (by rw [List.length_take]; omega)
    exact rescheduleModeWaits_eq_intervals sensor hne (h.before (List.take_prefix j rs))
  dsimp only at hw hw' ⊢
  rw [hwaits hk (hkm.trans hm)] at hw
  rw [hwaits (hk.trans_le hkm) hm] at hw'
  exact least_le_of_backoff hexp le_rfl hw hw'

/-- **Poke mode and reschedule mode wait alike exactly without backoff, after the first poke, while
the backoff is the least one, and under a cap that is not above the first backoff.** -/
theorem waitAlike_iff (sensor : BaseSensorOperator) (mysql : Bool) {now now' : ℚ}
    {pokes : List (Poke × Clock)} {rs : List Round} (hne : pokes ≠ [])
    (hlength : rs.length = pokes.length)
    (hpokes : ∀ x ∈ pokes, WaitsAfter (sensor.inMode false) mysql now x.1 x.2)
    (hrounds : RoundsWait (sensor.inMode true) mysql now' rs)
    (hduration : lastDuration (measuredFrom now' rs) (rs.map (·.clock)) =
      lastDuration now (pokes.map (·.2))) :
    WaitAlike sensor mysql now now' pokes rs ↔
      sensor.exponentialBackoff = false ∨ pokes.length = 1 ∨
        sensor.pokeInterval * 2 ^ ((pokes.length : Int) - 2) < 2 ∨
          sensor.cap (lastDuration now (pokes.map (·.2))) ≤ (sensor.minBackoff 1 : ℚ) := by
  have hpos : 0 < pokes.length := List.length_pos_of_ne_nil hne
  have hpoke := pokeModeWaits_eq_intervals sensor hne hpokes
  have hreschedule := rescheduleModeWaits_eq_intervals sensor
    (List.ne_nil_of_length_pos (hlength ▸ hpos)) hrounds
  rw [hduration] at hreschedule
  cases hexp : sensor.exponentialBackoff with
  | false =>
    refine ⟨fun _ => .inl rfl, fun _ => ?_⟩
    rw [intervals_fixed hexp] at hpoke hreschedule
    constructor
    · rw [hpoke, hreschedule]
      exact .refl _
    · exact fun h => absurd (hexp.symm.trans h) (by decide)
    · exact fun h => absurd (hexp.symm.trans h) (by decide)
  | true =>
    have hiff := sameBounds_intervals_iff hexp (lastDuration now (pokes.map (·.2)))
      (n := pokes.length) (by omega)
    rw [minBackoff_eq_iff sensor hpos, ← hpoke, ← hreschedule, or_assoc] at hiff
    constructor
    · exact fun h => .inr (hiff.mp h.same)
    · rintro (h | h)
      · cases h
      · exact ⟨hiff.mpr h, fun _ => nonDecreasing_pokeModeWaits hexp hpokes,
          fun _ => nonDecreasing_rescheduleModeWaits hexp hrounds⟩

/-! ### Two pokes -/

/-- A sensor with backoff. -/
def backoffSensor (pokeInterval : ℚ) (h : 0 ≤ pokeInterval) : BaseSensorOperator where
  pokeInterval
  timeout := hourSensor.timeout
  reschedule := false
  exponentialBackoff := true
  pokeInterval_nonneg := h
  timeout_nonneg := hourSensor.timeout_nonneg

/-- Its interval is a second. -/
def secondSensor : BaseSensorOperator := backoffSensor 1 (by decide)

/-- Its interval is a minute. -/
def minuteSensor : BaseSensorOperator :=
  backoffSensor hourSensor.pokeInterval hourSensor.pokeInterval_nonneg

/-- Two pokes of an execution that starts at `0`, the last one after two seconds. -/
def twoPokes : List (Poke × Clock) :=
  [(.returns false none, clockAt 1), (.returns false none, clockAt 2)]

/-- Two executions, the last one two seconds after the first. -/
def twoRounds : List Round :=
  [⟨oneSecond, noTime, .returns false none, clockAt 1⟩,
    ⟨oneSecond, noTime, .returns false none, clockAt 3⟩]

section
variable {pokeInterval : ℚ} (h : 0 ≤ pokeInterval)

theorem waitsAfter_backoffSensor (reschedule : Bool) {startedAt t : ℚ}
    (htime : t - startedAt ≤ 3600) :
    WaitsAfter ((backoffSensor pokeInterval h).inMode reschedule) false startedAt
      (.returns false none) (clockAt t) where
  isFalse := rfl
  inTime := htime
  inLimit _ hmysql := by cases hmysql

theorem twoPokes_wait : ∀ x ∈ twoPokes,
    WaitsAfter ((backoffSensor pokeInterval h).inMode false) false 0 x.1 x.2 := by
  intro x hx
  rcases List.mem_cons.mp hx with rfl | hx
  · exact waitsAfter_backoffSensor h false (by norm_num)
  · rw [List.mem_singleton.mp hx]
    exact waitsAfter_backoffSensor h false (by norm_num)

theorem twoRounds_wait :
    RoundsWait ((backoffSensor pokeInterval h).inMode true) false 0 twoRounds := by
  have hfirst : ¬(3600 : ℚ) < 1 - (0 + 1 + 0) := by norm_num
  have hsecond : ¬(3600 : ℚ) < 3 - (0 + 1) := by norm_num
  intro before r hbefore
  cases before with
  | nil =>
    obtain rfl := List.singleton_prefix_cons_iff.mp hbefore
    exact waitsAfter_backoffSensor h true (not_lt.mp hfirst)
  | cons r' before =>
    rw [List.cons_append] at hbefore
    obtain ⟨rfl, hrest⟩ := List.cons_prefix_cons.mp hbefore
    cases before with
    | nil =>
      obtain rfl := List.singleton_prefix_cons_iff.mp hrest
      exact waitsAfter_backoffSensor h true (not_lt.mp hsecond)
    | cons r'' before =>
      rw [List.cons_append] at hrest
      obtain ⟨-, hnil⟩ := List.cons_prefix_cons.mp hrest
      rw [List.prefix_nil] at hnil
      exact absurd hnil (List.append_ne_nil_of_right_ne_nil _ (List.cons_ne_nil _ _))

end

theorem waitAlike_oneSecond : WaitAlike secondSensor false 0 0 twoPokes twoRounds :=
  (waitAlike_iff secondSensor false (by decide) rfl (twoPokes_wait _) (twoRounds_wait _)
    (by decide +kernel)).mpr (.inr (.inr (.inl (by decide +kernel))))

/-- With an interval of a minute the second wait is a minute or half of one. -/
theorem bounds_sixtySeconds :
    IsLeast (pokeModeWaits (minuteSensor.inMode false) false 0 twoPokes) 60 ∧
      IsLeast (rescheduleModeWaits (minuteSensor.inMode true) false 0 twoRounds) 30 ∧
      ¬WaitAlike minuteSensor false 0 0 twoPokes twoRounds := by
  have hleast (n : Int) {w : ℚ}
      (hw : min (minuteSensor.cap 2) (minuteSensor.minBackoff n : ℚ) = w) :
      IsLeast (intervals minuteSensor 2 n) w := hw ▸ isLeast_intervals rfl 2 n
  have hpoke : IsLeast (pokeModeWaits (minuteSensor.inMode false) false 0 twoPokes) 60 := by
    have hduration : lastDuration 0 (twoPokes.map (·.2)) = 2 := by decide +kernel
    rw [pokeModeWaits_eq_intervals minuteSensor (by decide) (twoPokes_wait _), hduration]
    exact hleast 2 (by decide +kernel)
  have hreschedule :
      IsLeast (rescheduleModeWaits (minuteSensor.inMode true) false 0 twoRounds) 30 := by
    have hduration : lastDuration (measuredFrom 0 twoRounds) (twoRounds.map (·.clock)) = 2 := by
      decide +kernel
    rw [rescheduleModeWaits_eq_intervals minuteSensor (by decide) (twoRounds_wait _),
      hduration]
    exact hleast 1 (by decide +kernel)
  refine ⟨hpoke, hreschedule, fun h => ?_⟩
  have heq := ((h.same.least 60).mp hpoke).unique hreschedule
  exact absurd heq (by norm_num)

end Airflow.Sensors
