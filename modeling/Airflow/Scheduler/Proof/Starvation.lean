import Airflow.Scheduler.Proof.Queueing
import Mathlib.Algebra.Order.BigOperators.Group.List

/-!
# What an empty selection says (`Queueing.queued_empty`)

The critical section returns nothing only if no candidate fits, up to those of which a task's other
candidate asks for more slots than its pool has open: that one starves the task, and the query of
the next iteration leaves out the whole task. As long as nothing is selected the counters stay the
initial ones (`Idle`), and each starved entry is justified by what they say (`Justified`).
-/

namespace Airflow.Queueing

/-- What the tables promise: pools have different names, every DAG is serialized, and a task uses
at least one slot, which `BaseOperator` checks. -/
structure Regular (db : Database) : Prop where
  pools : (db.pools.map Pool.pool).Nodup
  serialized : ∀ dag ∈ db.dagModels, (db.getDag dag.dagId).isSome
  slots : ∀ ti ∈ db.taskInstances, 1 ≤ ti.poolSlots

/-- Scheduled instances of running runs, other than backfills, of DAGs that are not paused. -/
def Database.candidates (db : Database) : List Candidate :=
  (db.taskInstances.filterMap db.join).filter Candidate.ready

/-- The instance fits into the open slots of its pool and under each limit. -/
structure Fits (db : Database) (r : Candidate) : Prop where
  pool : ∃ stats, getPool (slotsStats db) r.ti.pool = some stats ∧
    stats.open.lt r.ti.poolSlots = false
  dag : (db.active.countP (·.dagId = r.ti.dagId) : Int) < r.dagModel.maxActiveTasks
  task : ∀ dag limit, db.getDag r.ti.dagId = some dag → (dag.limits r.ti.taskId).1 = some limit →
    (db.active.countP (·.task = r.ti.task) : Int) < limit
  taskDagrun : ∀ dag limit, db.getDag r.ti.dagId = some dag →
    (dag.limits r.ti.taskId).2 = some limit →
      (db.active.countP (·.taskDagrun = r.ti.taskDagrun) : Int) < limit

/-- The instance asks for more slots than its pool has open. -/
def Oversized (db : Database) (r : Candidate) : Prop :=
  ∃ stats, getPool (slotsStats db) r.ti.pool = some stats ∧ stats.open.lt r.ti.poolSlots = true

/-- The instance does not fit, or a candidate of its task is oversized. -/
def Excused (db : Database) (r : Candidate) : Prop :=
  Fits db r → ∃ other ∈ db.candidates, other.ti.task = r.ti.task ∧ Oversized db other

/-- The entry covers excused candidates only. -/
def Justified (db : Database) (s : Starved) : Prop :=
  ∀ r ∈ db.candidates, s.covers r.ti = true → Excused db r

/-- Nothing is selected yet. -/
structure Idle (db : Database) (c : Critical) : Prop where
  pools : c.pools = slotsStats db
  concurrencyMap : c.concurrencyMap = db.getConcurrencyMaps
  taskInstances : c.taskInstances = db.taskInstances
  executableTis : c.executableTis = []
  starved : ∀ s ∈ c.starved, Justified db s

variable {db : Database} {c : Critical} {r : Candidate}

/-! ## Pools -/

theorem sumPoolSlots_nonneg (h : Regular db) (pool : String) (state : TaskInstanceState) :
    0 ≤ sumPoolSlots db.taskInstances pool state := by
  refine List.sum_nonneg fun n hn => ?_
  obtain ⟨ti, hti, rfl⟩ := List.mem_map.mp hn
  have := h.slots ti (List.mem_filter.mp hti).1
  omega

theorem Slots.lt_less {slots : Slots} {m n : Int} (hm : 0 ≤ m) (h : slots.lt n = true) :
    (slots.less m).lt n = true := by
  cases slots with
  | infinite => cases h
  | finite k =>
    simp only [Slots.less, Slots.lt, decide_eq_true_iff] at h ⊢
    omega

theorem Slots.lt_of_le_zero {slots : Slots} {n : Int} (h : slots.le 0 = true) (hn : 1 ≤ n) :
    slots.lt n = true := by
  cases slots with
  | infinite => cases h
  | finite k =>
    simp only [Slots.le, Slots.lt, decide_eq_true_iff] at h ⊢
    omega

/-- A pool has no more slots open than in total. -/
theorem open_lt_of_total_lt (h : Regular db) {stats : PoolStats} {name : String} {n : Int}
    (hstats : getPool (slotsStats db) name = some stats) (hlt : stats.total.lt n = true) :
    stats.open.lt n = true := by
  obtain ⟨p, hp, rfl⟩ := List.mem_map.mp (List.mem_of_find?_eq_some hstats)
  have hopen := Slots.lt_less (sumPoolSlots_nonneg h p.pool .queued)
    (Slots.lt_less (sumPoolSlots_nonneg h p.pool .running) hlt)
  dsimp only at hlt ⊢
  split
  · exact Slots.lt_less (sumPoolSlots_nonneg h p.pool .deferred) hopen
  · exact hopen

theorem getPool_of_mem (h : Regular db) {stats : PoolStats} (hmem : stats ∈ slotsStats db) :
    getPool (slotsStats db) stats.pool = some stats := by
  have hnodup : ((slotsStats db).map PoolStats.pool).Nodup := by
    rw [slotsStats, List.map_map]
    exact h.pools
  cases hfind : getPool (slotsStats db) stats.pool with
  | none => exact absurd (decide_eq_true rfl) (List.find?_eq_none.mp hfind stats hmem)
  | some other =>
    have hname : other.pool = stats.pool := by simpa using List.find?_some hfind
    rw [List.inj_on_of_nodup_map hnodup (List.mem_of_find?_eq_some hfind) hmem hname]

/-! ## Candidates -/

theorem mem_candidates (hmem : r ∈ db.candidates) :
    r.ti ∈ db.taskInstances ∧ db.dagModel r.ti.dagId = some r.dagModel := by
  obtain ⟨hjoin, -⟩ := List.mem_filter.mp hmem
  obtain ⟨ti, hti, hj⟩ := List.mem_filterMap.mp hjoin
  obtain ⟨rfl, hdag⟩ := join_spec hj
  exact ⟨hti, hdag⟩

theorem getDag_of_candidate (h : Regular db) (hmem : r ∈ db.candidates) :
    ∃ dag, db.getDag r.ti.dagId = some dag := by
  have hdag := (mem_candidates hmem).2
  have hid : r.dagModel.dagId = r.ti.dagId := by simpa using List.find?_some hdag
  have hsome := h.serialized _ (List.mem_of_find?_eq_some hdag)
  rw [hid] at hsome
  exact Option.isSome_iff_exists.mp hsome

theorem task_eq_iff {a b : TaskInstance} :
    a.task = b.task ↔ a.dagId = b.dagId ∧ a.taskId = b.taskId := by
  rw [TaskInstance.task, TaskInstance.task, Prod.mk.injEq]

theorem taskDagrun_eq_iff {a b : TaskInstance} :
    a.taskDagrun = b.taskDagrun ↔ a.dagId = b.dagId ∧ a.runId = b.runId ∧ a.taskId = b.taskId := by
  rw [TaskInstance.taskDagrun, TaskInstance.taskDagrun, Prod.mk.injEq, Prod.mk.injEq]

/-! ## Starved entries -/

theorem justified_pool {name : String}
    (h : ∀ stats, getPool (slotsStats db) name = some stats → ∀ n, 1 ≤ n → stats.open.lt n = true)
    (hslots : Regular db) : Justified db (.pool name) := by
  intro r hr hcovers hfits
  have hname : r.ti.pool = name := of_decide_eq_true hcovers
  obtain ⟨stats, hstats, hlt⟩ := hfits.pool
  rw [h stats (hname ▸ hstats) _ (hslots.slots _ (mem_candidates hr).1)] at hlt
  cases hlt

theorem justified_oversized (hr : r ∈ db.candidates) (h : Oversized db r) :
    Justified db (.task r.ti.task) := by
  intro other _ hcovers _
  exact ⟨r, hr, (of_decide_eq_true hcovers).symm, h⟩

theorem justified_dag (hr : r ∈ db.candidates)
    (h : (db.active.countP (·.dagId = r.ti.dagId) : Int) ≥ r.dagModel.maxActiveTasks) :
    Justified db (.dag r.ti.dagId) := by
  intro other hother hcovers hfits
  have hid : other.ti.dagId = r.ti.dagId := of_decide_eq_true hcovers
  have hmodel := (mem_candidates hother).2
  rw [hid, (mem_candidates hr).2, Option.some.injEq] at hmodel
  have hdag := hfits.dag
  rw [hid, ← hmodel] at hdag
  exact absurd hdag (by omega)

theorem le_of_limitReached {limit : Option Int} {current : Nat}
    (h : limitReached limit current = true) : ∃ n, limit = some n ∧ n ≤ (current : Int) := by
  cases limit with
  | none => cases h
  | some n => exact ⟨n, rfl, of_decide_eq_true h⟩

theorem justified_task {dag : SerializedDag} (hdag : db.getDag r.ti.dagId = some dag)
    (h : limitReached (dag.limits r.ti.taskId).1 (db.active.countP (·.task = r.ti.task)) = true) :
    Justified db (.task r.ti.task) := by
  intro other _ hcovers hfits
  have htask : other.ti.task = r.ti.task := of_decide_eq_true hcovers
  obtain ⟨hid, htaskId⟩ := task_eq_iff.mp htask
  obtain ⟨n, hn, hle⟩ := le_of_limitReached h
  have hlt := hfits.task dag n (hid ▸ hdag) (htaskId ▸ hn)
  rw [htask] at hlt
  exact absurd hlt (by omega)

theorem justified_taskDagrun {dag : SerializedDag} (hdag : db.getDag r.ti.dagId = some dag)
    (h : limitReached (dag.limits r.ti.taskId).2
      (db.active.countP (·.taskDagrun = r.ti.taskDagrun)) = true) :
    Justified db (.taskDagrun r.ti.taskDagrun) := by
  intro other _ hcovers hfits
  have htask : other.ti.taskDagrun = r.ti.taskDagrun := of_decide_eq_true hcovers
  obtain ⟨hid, -, htaskId⟩ := taskDagrun_eq_iff.mp htask
  obtain ⟨n, hn, hle⟩ := le_of_limitReached h
  have hlt := hfits.taskDagrun dag n (hid ▸ hdag) (htaskId ▸ hn)
  rw [htask] at hlt
  exact absurd hlt (by omega)

/-! ## The inner loop -/

theorem Idle.starve (hi : Idle db c) {s : Starved} (hs : Justified db s) :
    Idle db (c.starve s) := by
  refine ⟨hi.pools, hi.concurrencyMap, hi.taskInstances, hi.executableTis, fun s' hs' => ?_⟩
  rcases List.mem_insert_iff.mp hs' with rfl | hs'
  · exact hs
  · exact hi.starved s' hs'

/-- While nothing is selected, an iteration selects its candidate or starves a justified entry that
covers it. -/
theorem Idle.examine (h : Regular db) (hi : Idle db c) (hr : r ∈ db.candidates) :
    (∃ s, s.covers r.ti = true ∧ Justified db s ∧ c.examine db r = c.starve s) ∨
      ∃ slots, c.examine db r = c.select r.ti slots := by
  unfold Critical.examine
  rw [hi.pools, hi.concurrencyMap]
  simp only [getConcurrencyMaps_dag, getConcurrencyMaps_task, getConcurrencyMaps_taskDagrun]
  cases hpool : getPool (slotsStats db) r.ti.pool with
  | none =>
    refine .inl ⟨.pool r.ti.pool, decide_eq_true rfl, justified_pool (fun stats hstats => ?_) h, rfl⟩
    rw [hpool] at hstats
    cases hstats
  | some stats =>
    dsimp only
    split
    · next hopen =>
      refine .inl ⟨.pool r.ti.pool, decide_eq_true rfl,
        justified_pool (fun stats' hstats n hn => ?_) h, rfl⟩
      rw [hpool, Option.some.injEq] at hstats
      exact hstats ▸ Slots.lt_of_le_zero hopen hn
    split
    · next htotal =>
      have hover : Oversized db r := ⟨stats, hpool, open_lt_of_total_lt h hpool htotal⟩
      exact .inl ⟨.task r.ti.task, decide_eq_true rfl, justified_oversized hr hover, rfl⟩
    split
    · next hlt =>
      have hover : Oversized db r := ⟨stats, hpool, hlt⟩
      exact .inl ⟨.task r.ti.task, decide_eq_true rfl, justified_oversized hr hover, rfl⟩
    split
    · next hdag => exact .inl ⟨.dag r.ti.dagId, decide_eq_true rfl, justified_dag hr hdag, rfl⟩
    split
    · obtain ⟨dag, hget⟩ := getDag_of_candidate h hr
      rw [hget]
      dsimp only
      split
      · next hlimit =>
        exact .inl ⟨.task r.ti.task, decide_eq_true rfl, justified_task hget hlimit, rfl⟩
      split
      · next hlimit =>
        exact .inl ⟨.taskDagrun r.ti.taskDagrun, decide_eq_true rfl,
          justified_taskDagrun hget hlimit, rfl⟩
      · exact .inr ⟨_, rfl⟩
    · exact .inr ⟨_, rfl⟩

/-- The inner loop selects something, or starves justified entries that cover all it examines. -/
theorem Idle.foldl (h : Regular db) (hi : Idle db c) {rs : List Candidate}
    (hrs : ∀ r ∈ rs, r ∈ db.candidates) :
    (rs.foldl (Critical.examine db) c).executableTis ≠ [] ∨
      (Idle db (rs.foldl (Critical.examine db) c) ∧
        c.starved.length ≤ (rs.foldl (Critical.examine db) c).starved.length ∧
        ((rs.foldl (Critical.examine db) c).starved.length = c.starved.length →
          (rs.foldl (Critical.examine db) c).starved = c.starved) ∧
        ∀ r ∈ rs, (rs.foldl (Critical.examine db) c).starved.any (·.covers r.ti) = true) := by
  induction rs generalizing c with
  | nil => exact .inr ⟨hi, Nat.le_refl _, fun _ => rfl, fun r hr => absurd hr List.not_mem_nil⟩
  | cons r rs ih =>
    have hrs' : ∀ r' ∈ rs, r' ∈ db.candidates := fun r' hr' => hrs r' (List.mem_cons_of_mem _ hr')
    rw [List.foldl_cons]
    rcases hi.examine h (hrs r List.mem_cons_self) with ⟨s, hcovers, hs, heq⟩ | ⟨slots, heq⟩
    · rw [heq]
      refine (ih (hi.starve hs) hrs').imp_right fun ⟨hidle, hle, hsame, hall⟩ => ?_
      have hlen : c.starved.length ≤ (c.starve s).starved.length := List.length_le_length_insert
      refine ⟨hidle, hlen.trans hle, fun hlength => ?_, fun r' hr' => ?_⟩
      · rw [hsame (by omega)]
        refine List.insert_of_mem (Classical.byContradiction fun hnot => ?_)
        have hgrow : (c.starve s).starved.length = c.starved.length + 1 :=
          List.length_insert_of_not_mem hnot
        omega
      · rcases List.mem_cons.mp hr' with rfl | hr'
        · have hsub := (foldl_examined db rs (c.starve s)).starved
          exact List.any_eq_true.mpr ⟨s, hsub List.mem_insert_self, hcovers⟩
        · exact hall r' hr'
    · left
      obtain ⟨⟨sel, -, hsel⟩, -, -⟩ := foldl_examined db rs (c.examine db r)
      rw [hsel, heq]
      simp [Critical.select]

/-! ## The outer loop -/

theorem Idle.matching_eq (hi : Idle db c) :
    c.matching db = db.candidates.filter fun r => ¬c.starved.any (·.covers r.ti) := by
  rw [Critical.matching, hi.taskInstances, Database.candidates, List.filter_filter]
  refine List.filter_congr fun r _ => ?_
  simp only [Bool.decide_and, Bool.decide_eq_true, Bool.and_comm]

theorem Idle.mem_query (hi : Idle db c) {locked : TaskInstance → Bool} {maxTis : Nat}
    (hmem : r ∈ c.query db locked maxTis) :
    r ∈ db.candidates ∧ c.starved.any (·.covers r.ti) = false := by
  have hmatch := (List.mem_filter.mp (List.mem_mergeSort.mp (List.mem_of_mem_take hmem))).1
  rw [hi.matching_eq] at hmatch
  obtain ⟨hcand, hnot⟩ := List.mem_filter.mp hmatch
  simp only [decide_eq_true_iff, Bool.not_eq_true] at hnot
  exact ⟨hcand, hnot⟩

/-- A query with less than `max_tis` rows returns all candidates that are not covered. -/
theorem Idle.mem_query_of_length (hi : Idle db c) {maxTis : Nat}
    (hlen : (c.query db (fun _ => false) maxTis).length < maxTis) (hr : r ∈ db.candidates)
    (hnot : c.starved.any (·.covers r.ti) = false) : r ∈ c.query db (fun _ => false) maxTis := by
  have hmatch : r ∈ (c.matching db).filter fun _ => ¬false = true := by
    rw [hi.matching_eq, List.mem_filter, List.mem_filter]
    exact ⟨⟨hr, by rw [hnot]; rfl⟩, rfl⟩
  unfold Critical.query at hlen ⊢
  rw [List.length_take] at hlen
  rw [List.take_of_length_le (by omega)]
  exact List.mem_mergeSort.mpr hmatch

/-- All candidates are excused where each is covered or examined without being selected. -/
theorem Idle.excused (hi : Idle db c) (hr : r ∈ db.candidates)
    (hcovers : c.starved.any (·.covers r.ti) = true) : Excused db r := by
  obtain ⟨s, hs, hcov⟩ := List.any_eq_true.mp hcovers
  exact hi.starved s hs r hr hcov

/-- The loop selects something or all candidates are excused. -/
theorem Idle.loop (h : Regular db) {maxTis : Nat} (hmax : 1 ≤ maxTis) {fuel loopCount : Nat}
    {c' : Critical} (hi : Idle db c)
    (hloop : c.loop db (fun _ _ => false) maxTis fuel loopCount = some c')
    (hempty : c'.executableTis = []) : ∀ r ∈ db.candidates, Excused db r := by
  induction fuel generalizing loopCount c with
  | zero => cases hloop
  | succ fuel ih =>
    unfold Critical.loop at hloop
    dsimp only at hloop
    have hquery : ∀ r ∈ c.query db (fun _ => false) maxTis, r ∈ db.candidates :=
      fun r hr => (hi.mem_query hr).1
    split at hloop
    · next hnil =>
      intro r hr
      cases hcovers : c.starved.any (·.covers r.ti) with
      | true => exact hi.excused hr hcovers
      | false =>
        have hmem := hi.mem_query_of_length (by rw [hnil]; exact hmax) hr hcovers
        rw [hnil] at hmem
        cases hmem
    · next hne =>
      rcases hi.foldl h hquery with hselected | ⟨hidle, hle, hsame, hall⟩
      · rw [if_pos (.inl (.inl hselected)), Option.some.injEq] at hloop
        rw [hloop] at hselected
        exact absurd hempty hselected
      · split at hloop
        · next hdone =>
          cases hloop
          intro r hr
          refine hidle.excused hr ?_
          cases hcovers : c.starved.any (·.covers r.ti) with
          | true =>
            obtain ⟨s, hs, hcov⟩ := List.any_eq_true.mp hcovers
            exact List.any_eq_true.mpr ⟨s, (foldl_examined db _ c).starved hs, hcov⟩
          | false =>
            rcases hdone with (hselected | hlen) | hfound
            · exact absurd hempty hselected
            · exact hall r (hi.mem_query_of_length hlen hr hcovers)
            · -- the first row examined is covered by an entry that was not there before
              obtain ⟨first, hfirst⟩ := List.exists_mem_of_ne_nil _ hne
              have hsame' := hsame (by omega)
              have hcovered := hall first hfirst
              rw [hsame', (hi.mem_query hfirst).2] at hcovered
              cases hcovered
        · exact ih hidle hloop

/-! ## The critical section -/

theorem Idle.init (h : Regular db) : Idle db db.critical := by
  refine ⟨rfl, rfl, rfl, rfl, fun s hs => ?_⟩
  obtain ⟨stats, hstats, rfl⟩ := List.mem_map.mp hs
  obtain ⟨hmem, hopen⟩ := List.mem_filter.mp hstats
  refine justified_pool (fun stats' hstats' n hn => ?_) h
  rw [getPool_of_mem h hmem, Option.some.injEq] at hstats'
  exact hstats' ▸ Slots.lt_of_le_zero hopen hn

/-- What the pools' free slots add for one of them. -/
def freeSlots : Slots → Slots
  | .finite n => .finite (maxZero n)
  | .infinite => .infinite

theorem poolSlotsFree_eq (pools : List PoolStats) :
    poolSlotsFree pools =
      pools.foldl (fun (free : Slots) p => free.add (freeSlots p.open)) (.finite 0) := rfl

/-- A sum of free slots is at least what it started with, and the same only if nothing is free. -/
theorem foldl_freeSlots {pools : List PoolStats} {m n : Int}
    (h : pools.foldl (fun (free : Slots) p => free.add (freeSlots p.open)) (.finite m) =
      .finite n) :
    m ≤ n ∧ (n = m → ∀ p ∈ pools, p.open.le 0 = true) := by
  induction pools generalizing m with
  | nil =>
    cases h
    exact ⟨Int.le_refl _, fun _ p hp => absurd hp List.not_mem_nil⟩
  | cons p pools ih =>
    rw [List.foldl_cons] at h
    cases hopen : p.open with
    | infinite =>
      have hinfinite : ∀ ps : List PoolStats,
          ps.foldl (fun (free : Slots) p => free.add (freeSlots p.open)) .infinite = .infinite := by
        intro ps
        induction ps with
        | nil => rfl
        | cons q qs ih => exact ih
      rw [hopen] at h
      have hadd : (Slots.finite m).add (freeSlots .infinite) = .infinite := rfl
      rw [hadd, hinfinite] at h
      cases h
    | finite k =>
      rw [hopen] at h
      obtain ⟨hle, hall⟩ := ih h
      have hk := maxZero_nonneg k
      refine ⟨by omega, fun heq q hq => ?_⟩
      rcases List.mem_cons.mp hq with rfl | hq
      · have hzero : maxZero k ≤ 0 := by omega
        have hk' := le_maxZero k
        rw [hopen]
        exact decide_eq_true (by omega)
      · exact hall (by omega) q hq

theorem poolSlotsFree_eq_zero {pools : List PoolStats} (h : poolSlotsFree pools = .finite 0) :
    ∀ p ∈ pools, p.open.le 0 = true :=
  (foldl_freeSlots (poolSlotsFree_eq pools ▸ h)).2 rfl

theorem one_le_capMaxTis {maxTis : Nat} (hmax : 1 ≤ maxTis) {pools : List PoolStats}
    (h : poolSlotsFree pools ≠ .finite 0) : 1 ≤ capMaxTis maxTis (poolSlotsFree pools) := by
  cases hfree : poolSlotsFree pools with
  | infinite => exact hmax
  | finite n =>
    have hle := (foldl_freeSlots (poolSlotsFree_eq pools ▸ hfree)).1
    have hne : n ≠ 0 := fun heq => h (heq ▸ hfree)
    simp only [capMaxTis]
    split <;> omega

/-- **The critical section returns, and if it returns nothing then no candidate fits, unless its
task has one that asks for more slots than its pool has open.** -/
theorem queued_empty (h : Regular db) {maxTis : Nat} (hmax : 1 ≤ maxTis) :
    ∃ q, executableTaskInstancesToQueued db (fun _ _ => false) maxTis = some q ∧
      (q.executableTis = [] → ∀ r ∈ db.candidates, Fits db r →
        ∃ other ∈ db.candidates, other.ti.task = r.ti.task ∧ Oversized db other) := by
  obtain ⟨q, hq, -⟩ := queued_within_limits db (fun _ _ => false) maxTis
  refine ⟨q, hq, fun hempty r hr => ?_⟩
  unfold executableTaskInstancesToQueued at hq
  dsimp only at hq
  split at hq
  · next hfree =>
    intro hfits
    obtain ⟨stats, hstats, hlt⟩ := hfits.pool
    have hopen := poolSlotsFree_eq_zero hfree stats (List.mem_of_find?_eq_some hstats)
    rw [Slots.lt_of_le_zero hopen (h.slots _ (mem_candidates hr).1)] at hlt
    cases hlt
  · next hfree =>
    rw [Option.bind_eq_bind, Option.bind_eq_some_iff] at hq
    obtain ⟨c, hloop, hc⟩ := hq
    cases hc
    exact (Idle.init h).loop h (one_le_capMaxTis hmax hfree) hloop hempty r hr

/-! ## Selections that leave something that fits -/

/-- The candidates with those of backfills. -/
def Database.allCandidates (db : Database) : List Candidate :=
  (db.taskInstances.filterMap db.join).filter fun r =>
    r.dagRun.state = .running ∧ ¬r.dagModel.isPaused ∧ r.ti.state = some .scheduled

/-- A scheduled instance of a backfill. -/
def backfillRun : Database where
  taskInstances := [{
    dagId := "d", taskId := "t", runId := "b", state := some .scheduled, pool := "p"
    poolSlots := 1 }]
  dagRuns := [⟨"d", "b", .backfillJob, .running, 1⟩]
  dagModels := [⟨"d", false, 16, false⟩]
  serializedDags := [⟨"d", [⟨"t", none, none⟩]⟩]
  pools := [⟨"p", 2, false⟩]
  key_unique := List.nodup_singleton _
  limits_flagged := by simp

/-- Two scheduled instances of a task, of which the first asks for more slots than the pool has. -/
def largeSibling : Database where
  taskInstances := [
    { dagId := "d", taskId := "t", runId := "r1", state := some .scheduled, pool := "p"
      poolSlots := 3 },
    { dagId := "d", taskId := "t", runId := "r2", state := some .scheduled, pool := "p"
      poolSlots := 1 }]
  dagRuns := [⟨"d", "r1", .scheduled, .running, 1⟩, ⟨"d", "r2", .scheduled, .running, 2⟩]
  dagModels := [⟨"d", false, 16, false⟩]
  serializedDags := [⟨"d", [⟨"t", none, none⟩]⟩]
  pools := [⟨"p", 2, false⟩]
  key_unique := by simp [TaskInstance.key]
  limits_flagged := by simp

theorem query_of_sorted (rows : List Candidate) {maxTis : Nat}
    (hmatch : c.matching db = rows) (hsorted : rows.Pairwise fun a b => Candidate.le a b = true) :
    c.query db (fun _ => false) maxTis = rows.take maxTis := by
  have hfilter : (rows.filter fun _ => ¬false = true) = rows :=
    List.filter_eq_self.mpr fun _ _ => rfl
  rw [Critical.query, hmatch, hfilter, List.mergeSort_of_pairwise hsorted]

theorem backfillRun_queued : executableTaskInstancesToQueued backfillRun (fun _ _ => false) 1 =
    some ⟨[], backfillRun.taskInstances⟩ := by
  have hquery : backfillRun.critical.query backfillRun (fun _ => false) 1 = [] :=
    query_of_sorted [] rfl .nil
  have hloop : backfillRun.critical.loop backfillRun (fun _ _ => false) 1 2 1 =
      some backfillRun.critical := by
    rw [Critical.loop, hquery]
    rfl
  have hunfold : executableTaskInstancesToQueued backfillRun (fun _ _ => false) 1 =
      (backfillRun.critical.loop backfillRun (fun _ _ => false) 1 2 1).bind fun c =>
        some ⟨c.executableTis, setQueued c.executableTis c.taskInstances⟩ := rfl
  rw [hunfold, hloop]
  rfl

theorem largeSibling_queued : executableTaskInstancesToQueued largeSibling (fun _ _ => false) 1 =
    some ⟨[], largeSibling.taskInstances⟩ := by
  have hquery : largeSibling.critical.query largeSibling (fun _ => false) 1 =
      largeSibling.candidates.take 1 :=
    query_of_sorted largeSibling.candidates rfl (by decide)
  have hquery' : (largeSibling.critical.starve (.task ("d", "t"))).query largeSibling
      (fun _ => false) 1 = [] :=
    query_of_sorted [] rfl .nil
  have hloop : largeSibling.critical.loop largeSibling (fun _ _ => false) 1 3 1 =
      some (largeSibling.critical.starve (.task ("d", "t"))) := by
    rw [Critical.loop, hquery]
    have hloop' : (largeSibling.critical.starve (.task ("d", "t"))).loop largeSibling
        (fun _ _ => false) 1 2 2 = some (largeSibling.critical.starve (.task ("d", "t"))) := by
      rw [Critical.loop, hquery']
      rfl
    exact hloop'
  have hunfold : executableTaskInstancesToQueued largeSibling (fun _ _ => false) 1 =
      (largeSibling.critical.loop largeSibling (fun _ _ => false) 1 3 1).bind fun c =>
        some ⟨c.executableTis, setQueued c.executableTis c.taskInstances⟩ := rfl
  rw [hunfold, hloop]
  rfl

theorem backfillRun_regular : Regular backfillRun where
  pools := List.nodup_singleton _
  serialized dag hdag := by
    rw [List.mem_singleton.mp hdag]
    rfl
  slots := by decide

theorem largeSibling_regular : Regular largeSibling where
  pools := List.nodup_singleton _
  serialized dag hdag := by
    rw [List.mem_singleton.mp hdag]
    rfl
  slots := by decide

/-- The instance of the backfill. -/
def backfillInstance : Candidate where
  ti := {
    dagId := "d", taskId := "t", runId := "b", state := some .scheduled, pool := "p"
    poolSlots := 1 }
  dagRun := ⟨"d", "b", .backfillJob, .running, 1⟩
  dagModel := ⟨"d", false, 16, false⟩

/-- The second instance, which fits. -/
def smallSibling : Candidate where
  ti := {
    dagId := "d", taskId := "t", runId := "r2", state := some .scheduled, pool := "p"
    poolSlots := 1 }
  dagRun := ⟨"d", "r2", .scheduled, .running, 2⟩
  dagModel := ⟨"d", false, 16, false⟩

theorem backfillInstance_fits : Fits backfillRun backfillInstance where
  pool := ⟨_, rfl, rfl⟩
  dag := by decide
  task dag limit hget hlimit := by
    cases hget
    cases hlimit
  taskDagrun dag limit hget hlimit := by
    cases hget
    cases hlimit

theorem smallSibling_fits : Fits largeSibling smallSibling where
  pool := ⟨_, rfl, rfl⟩
  dag := by decide
  task dag limit hget hlimit := by
    cases hget
    cases hlimit
  taskDagrun dag limit hget hlimit := by
    cases hget
    cases hlimit

/-- Nothing is selected although an instance fits: it belongs to a backfill, or another instance of
its task has starved the task. -/
theorem queued_empty_leaves :
    (¬∀ (db : Database) (maxTis : Nat), Regular db → 1 ≤ maxTis →
      ∃ q, executableTaskInstancesToQueued db (fun _ _ => false) maxTis = some q ∧
        (q.executableTis = [] → ∀ r ∈ db.allCandidates, ¬Fits db r)) ∧
    ¬∀ (db : Database) (maxTis : Nat), Regular db → 1 ≤ maxTis →
      ∃ q, executableTaskInstancesToQueued db (fun _ _ => false) maxTis = some q ∧
        (q.executableTis = [] → ∀ r ∈ db.candidates, ¬Fits db r) := by
  constructor
  · intro h
    obtain ⟨q, hq, hnone⟩ := h backfillRun 1 backfillRun_regular (Nat.le_refl 1)
    rw [backfillRun_queued] at hq
    cases hq
    exact hnone rfl backfillInstance List.mem_cons_self backfillInstance_fits
  · intro h
    obtain ⟨q, hq, hnone⟩ := h largeSibling 1 largeSibling_regular (Nat.le_refl 1)
    rw [largeSibling_queued] at hq
    cases hq
    exact hnone rfl smallSibling (List.mem_cons_of_mem _ List.mem_cons_self) smallSibling_fits

theorem queued_empty_largeSibling : Regular largeSibling ∧ 1 ≤ 1 ∧
    ∃ q, executableTaskInstancesToQueued largeSibling (fun _ _ => false) 1 = some q ∧
      (q.executableTis = [] → ∀ r ∈ largeSibling.candidates, Fits largeSibling r →
        ∃ other ∈ largeSibling.candidates,
          other.ti.task = r.ti.task ∧ Oversized largeSibling other) :=
  ⟨largeSibling_regular, Nat.le_refl 1, queued_empty largeSibling_regular (Nat.le_refl 1)⟩

end Airflow.Queueing
