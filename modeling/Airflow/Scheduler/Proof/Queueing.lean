import Airflow.Lib.Quota
import Airflow.Scheduler.Queueing

/-!
# Queueing respects every limit

`queued_within_limits`: the critical section returns, and what it returns is within every limit
(`WithinLimits`) of the tables it started from: no instance twice, at most `max_tis` of them, and
within the open slots of each pool and the task limits of each run, task and task of a run. The
counters that the loop carries are the initial ones plus the load of the selected instances
(`Inv.pools`, `Inv.dagActive`, …), so each guard of the inner loop is the premise of
`Quota.Fits.concat`.

An overfull pool has a negative number of open slots, which the critical section reads as none
(`overfull_pool`).
-/

namespace Airflow.Queueing

/-! ## The limits -/

/-- The returned instances are within the limits of the tables; `cap` reads the open slots of a
finite pool. -/
structure WithinLimits (cap : Int → Int) (db : Database) (maxTis : Nat)
    (tis : List TaskInstance) : Prop where
  nodup : (tis.map TaskInstance.key).Nodup
  length : tis.length ≤ maxTis
  pool : ∀ name stats (slots : Int), getPool (slotsStats db) name = some stats →
    stats.open = .finite slots → ((tis.filter (·.pool = name)).map (·.poolSlots)).sum ≤ cap slots
  dagRun : ∀ dagId runId dag, db.dagModel dagId = some dag →
    (∀ ti ∈ tis, (ti.dagId, ti.runId) ≠ (dagId, runId)) ∨
      (db.active.countP (fun ti => (ti.dagId, ti.runId) = (dagId, runId)) : Int) +
        tis.countP (fun ti => (ti.dagId, ti.runId) = (dagId, runId)) ≤ dag.maxActiveTasks
  task : ∀ dagId taskId dag limit, db.getDag dagId = some dag → (dag.limits taskId).1 = some limit →
    (∀ ti ∈ tis, ti.task ≠ (dagId, taskId)) ∨
      (db.active.countP (·.task = (dagId, taskId)) : Int) +
        tis.countP (·.task = (dagId, taskId)) ≤ limit
  taskDagrun : ∀ dagId runId taskId dag limit, db.getDag dagId = some dag →
    (dag.limits taskId).2 = some limit →
    (∀ ti ∈ tis, ti.taskDagrun ≠ (dagId, runId, taskId)) ∨
      (db.active.countP (·.taskDagrun = (dagId, runId, taskId)) : Int) +
        tis.countP (·.taskDagrun = (dagId, runId, taskId)) ≤ limit

/-- The quota of a pool: its open slots. -/
def poolQuota (db : Database) (name : String) (n : Int) : Prop :=
  ∀ stats, getPool (slotsStats db) name = some stats → stats.open.lt n = false

/-- The quota of a DAG: what its active instances leave of `max_active_tasks`. -/
def dagQuota (db : Database) (dagId : String) (n : Int) : Prop :=
  ∀ dag, db.dagModel dagId = some dag →
    (db.active.countP (·.dagId = dagId) : Int) + n ≤ dag.maxActiveTasks

def taskQuota (db : Database) (task : String × String) (n : Int) : Prop :=
  ∀ dag limit, db.getDag task.1 = some dag → (dag.limits task.2).1 = some limit →
    (db.active.countP (·.task = task) : Int) + n ≤ limit

def taskDagrunQuota (db : Database) (task : String × String × String) (n : Int) : Prop :=
  ∀ dag limit, db.getDag task.1 = some dag → (dag.limits task.2.2).2 = some limit →
    (db.active.countP (·.taskDagrun = task) : Int) + n ≤ limit

/-! ## Counters -/

theorem sum_map_count_filter {κ : Type*} [DecidableEq κ] [BEq κ] [LawfulBEq κ] (keys : List κ)
    (p : κ → Bool) :
    (((keys.dedup.map fun k => (k, keys.count k)).filter (p ·.1)).map (·.2)).sum =
      keys.countP p := by
  obtain rfl : ‹BEq κ› = instBEqOfDecidableEq := lawful_beq_subsingleton _ _
  rw [List.filter_map, List.map_map]
  exact List.sum_map_count_dedup_filter_eq_countP p keys

theorem getConcurrencyMaps_dag (db : Database) (dagId : String) :
    db.getConcurrencyMaps.dagActiveTasksMap dagId = db.active.countP (·.dagId = dagId) := by
  have h := sum_map_count_filter (db.active.map TaskInstance.taskDagrun) (·.1 = dagId)
  rw [List.countP_map] at h
  exact h

theorem getConcurrencyMaps_task (db : Database) (task : String × String) :
    db.getConcurrencyMaps.taskConcurrencyMap task = db.active.countP (·.task = task) := by
  have h := sum_map_count_filter (db.active.map TaskInstance.taskDagrun)
    fun k => (k.1, k.2.2) = task
  rw [List.countP_map] at h
  exact h

theorem getConcurrencyMaps_taskDagrun (db : Database) (task : String × String × String) :
    db.getConcurrencyMaps.taskDagrunConcurrencyMap task =
      db.active.countP (·.taskDagrun = task) := by
  have h := sum_map_count_filter (db.active.map TaskInstance.taskDagrun) (· = task)
  rw [List.countP_map] at h
  exact h

/-! ## Pools -/

theorem Slots.less_zero (slots : Slots) : slots.less 0 = slots := by
  cases slots with
  | finite s => exact congrArg _ (Int.sub_zero s)
  | infinite => rfl

theorem Slots.less_less (slots : Slots) (m n : Int) :
    (slots.less m).less n = slots.less (m + n) := by
  cases slots with
  | finite s => exact congrArg _ (Int.sub_sub s m n)
  | infinite => rfl

theorem Slots.not_lt_add {slots : Slots} {m n : Int} (h : (slots.less m).lt n = false) :
    slots.lt (m + n) = false := by
  cases slots with
  | finite s =>
    simp only [Slots.less, Slots.lt, decide_eq_false_iff_not] at h ⊢
    omega
  | infinite => rfl

theorem getPool_setOpen (pools : List PoolStats) (name : String) (slots : Slots)
    (other : String) :
    (getPool (setOpen pools name slots) other).map (·.open) =
      (getPool pools other).map fun stats => if other = name then slots else stats.open := by
  unfold getPool setOpen
  induction pools with
  | nil => rfl
  | cons p pools ih =>
    rw [List.map_cons, List.find?_cons, List.find?_cons]
    by_cases hp : p.pool = name
    · by_cases ho : p.pool = other
      · subst ho
        simp [hp]
      · rw [hp] at ho
        simpa [hp, ho] using ih
    · by_cases ho : p.pool = other
      · subst ho
        simp [hp]
      · simpa [hp, ho] using ih

/-! ## What one iteration of the inner loop does -/

/-- The guards that an instance passed before it is selected. -/
structure Admits (db : Database) (c : Critical) (r : Candidate) (stats : PoolStats) : Prop where
  pool : getPool c.pools r.ti.pool = some stats
  slots : stats.open.lt r.ti.poolSlots = false
  dag : (c.concurrencyMap.dagActiveTasksMap r.ti.dagId : Int) < r.dagModel.maxActiveTasks
  task : r.dagModel.hasTaskConcurrencyLimits = true → ∃ dag, db.getDag r.ti.dagId = some dag ∧
    limitReached (dag.limits r.ti.taskId).1
      (c.concurrencyMap.taskConcurrencyMap r.ti.task) = false ∧
    limitReached (dag.limits r.ti.taskId).2
      (c.concurrencyMap.taskDagrunConcurrencyMap r.ti.taskDagrun) = false

/-- An iteration starves an entry that covers the instance, fails the DAG's scheduled instances, or
selects the instance. -/
theorem examine_cases (db : Database) (c : Critical) (r : Candidate) :
    (∃ s : Starved, s.covers r.ti = true ∧ c.examine db r = c.starve s) ∨
      c.examine db r = c.failScheduled r.ti.dagId ∨
      ∃ stats, Admits db c r stats ∧ c.examine db r = c.select r.ti stats.open := by
  unfold Critical.examine
  dsimp only
  split
  · exact .inl ⟨_, by simp [Starved.covers], rfl⟩
  rename_i stats hpool
  split
  · exact .inl ⟨_, by simp [Starved.covers], rfl⟩
  split
  · exact .inl ⟨_, by simp [Starved.covers], rfl⟩
  split
  · exact .inl ⟨_, by simp [Starved.covers], rfl⟩
  rename_i hslots
  split
  · exact .inl ⟨_, by simp [Starved.covers], rfl⟩
  rename_i hdag
  split
  · rename_i hflag
    split
    · exact .inr (.inl rfl)
    rename_i dag hget
    split
    · exact .inl ⟨_, by simp [Starved.covers], rfl⟩
    rename_i htask
    split
    · exact .inl ⟨_, by simp [Starved.covers], rfl⟩
    rename_i hrun
    refine .inr (.inr ⟨stats, ⟨hpool, Bool.eq_false_iff.2 hslots, Int.not_le.1 hdag, fun _ => ?_⟩, rfl⟩)
    exact ⟨dag, hget, Bool.eq_false_iff.2 htask, Bool.eq_false_iff.2 hrun⟩
  · rename_i hflag
    exact .inr (.inr ⟨stats, ⟨hpool, Bool.eq_false_iff.2 hslots, Int.not_le.1 hdag,
      fun h => absurd h hflag⟩, rfl⟩)

/-- A candidate is a row joined with its DAG. -/
theorem join_spec {db : Database} {ti : TaskInstance} {r : Candidate} (h : db.join ti = some r) :
    r.ti = ti ∧ db.dagModel ti.dagId = some r.dagModel := by
  unfold Database.join at h
  simp only [Option.bind_eq_bind, Option.bind_eq_some_iff, Option.pure_def,
    Option.some.injEq] at h
  obtain ⟨dagRun, -, dagModel, hdag, rfl⟩ := h
  exact ⟨rfl, hdag⟩

/-- A DAG that is not flagged limits none of its tasks. -/
theorem limits_of_not_flagged {db : Database} {dag : DagModel} {serialized : SerializedDag}
    {dagId : String} (hdag : db.dagModel dagId = some dag)
    (hser : db.getDag dagId = some serialized) (hflag : dag.hasTaskConcurrencyLimits = false)
    (taskId : String) : serialized.limits taskId = (none, none) := by
  unfold SerializedDag.limits
  split
  · rename_i task htask
    have hid : dag.dagId = dagId := by simpa using List.find?_some hdag
    have hsid : serialized.dagId = dagId := by simpa using List.find?_some hser
    have hnone := db.limits_flagged dag (List.mem_of_find?_eq_some hdag) serialized
      (List.mem_of_find?_eq_some hser) (hsid.trans hid.symm) task
      (List.mem_of_find?_eq_some htask)
    rw [hflag] at hnone
    rcases htis : task.maxActiveTisPerDag with _ | n
    · rcases hrun : task.maxActiveTisPerDagrun with _ | m
      · rfl
      · simp [hrun] at hnone
    · simp [htis] at hnone
  · rfl

/-! ## The invariant of the counters -/

/-- The counters are the initial ones plus the load of the selected instances, which fits every
quota. -/
structure Inv (db : Database) (c : Critical) : Prop where
  pools : ∀ name, (getPool c.pools name).map (·.open) = (getPool (slotsStats db) name).map
    fun stats => stats.open.less (Quota.load (·.pool) (·.poolSlots) c.executableTis name)
  dagActive : ∀ dagId, (c.concurrencyMap.dagActiveTasksMap dagId : Int) =
    db.active.countP (·.dagId = dagId) + Quota.load (·.dagId) (fun _ => 1) c.executableTis dagId
  taskActive : ∀ task, (c.concurrencyMap.taskConcurrencyMap task : Int) =
    db.active.countP (·.task = task) +
      Quota.load TaskInstance.task (fun _ => 1) c.executableTis task
  taskDagrunActive : ∀ task, (c.concurrencyMap.taskDagrunConcurrencyMap task : Int) =
    db.active.countP (·.taskDagrun = task) +
      Quota.load TaskInstance.taskDagrun (fun _ => 1) c.executableTis task
  fitsPool : Quota.Fits (·.pool) (·.poolSlots) (poolQuota db) c.executableTis
  fitsDag : Quota.Fits (·.dagId) (fun _ => 1) (dagQuota db) c.executableTis
  fitsTask : Quota.Fits TaskInstance.task (fun _ => 1) (taskQuota db) c.executableTis
  fitsTaskDagrun :
    Quota.Fits TaskInstance.taskDagrun (fun _ => 1) (taskDagrunQuota db) c.executableTis

theorem Inv.init (db : Database) : Inv db db.critical := by
  refine ⟨fun name => ?_, fun d => ?_, fun t => ?_, fun t => ?_, .nil, .nil, .nil, .nil⟩
  · simp [Database.critical, Slots.less_zero]
  · simp [Database.critical, getConcurrencyMaps_dag]
  · simp [Database.critical, getConcurrencyMaps_task]
  · simp [Database.critical, getConcurrencyMaps_taskDagrun]

theorem Inv.starve {db : Database} {c : Critical} (hi : Inv db c) (s : Starved) :
    Inv db (c.starve s) :=
  ⟨hi.pools, hi.dagActive, hi.taskActive, hi.taskDagrunActive, hi.fitsPool, hi.fitsDag,
    hi.fitsTask, hi.fitsTaskDagrun⟩

theorem Inv.failScheduled {db : Database} {c : Critical} (hi : Inv db c) (dagId : String) :
    Inv db (c.failScheduled dagId) :=
  ⟨hi.pools, hi.dagActive, hi.taskActive, hi.taskDagrunActive, hi.fitsPool, hi.fitsDag,
    hi.fitsTask, hi.fitsTaskDagrun⟩

theorem lt_of_not_limitReached {limit : Option Int} {current : Nat} {n : Int}
    (h : limitReached limit current = false) (hl : limit = some n) : (current : Int) < n := by
  rw [hl] at h
  simpa [limitReached] using h

theorem Inv.select {db : Database} {c : Critical} {r : Candidate} {stats : PoolStats}
    (hi : Inv db c) (ha : Admits db c r stats)
    (hdag : db.dagModel r.ti.dagId = some r.dagModel) : Inv db (c.select r.ti stats.open) := by
  have hopen := hi.pools r.ti.pool
  rw [ha.pool] at hopen
  -- the limits that were looked up, and those that the flag says are not there
  have hlimits : ∀ dag, db.getDag r.ti.dagId = some dag →
      (∀ n, (dag.limits r.ti.taskId).1 = some n →
        (c.concurrencyMap.taskConcurrencyMap r.ti.task : Int) < n) ∧
      (∀ n, (dag.limits r.ti.taskId).2 = some n →
        (c.concurrencyMap.taskDagrunConcurrencyMap r.ti.taskDagrun : Int) < n) := by
    intro dag hget
    cases hflag : r.dagModel.hasTaskConcurrencyLimits with
    | false =>
      rw [limits_of_not_flagged hdag hget hflag]
      exact ⟨fun n hn => absurd hn (by simp), fun n hn => absurd hn (by simp)⟩
    | true =>
      obtain ⟨dag', hget', htask, hrun⟩ := ha.task hflag
      cases hget.symm.trans hget'
      exact ⟨fun n hn => lt_of_not_limitReached htask hn,
        fun n hn => lt_of_not_limitReached hrun hn⟩
  refine ⟨fun name => ?_, fun d => ?_, fun t => ?_, fun t => ?_, ?_, ?_, ?_, ?_⟩
  · simp only [Critical.select, getPool_setOpen, Quota.load_concat]
    by_cases hn : name = r.ti.pool
    · subst hn
      rw [ha.pool]
      rcases hstats : getPool (slotsStats db) r.ti.pool with _ | stats₀
      · rw [hstats] at hopen
        exact nomatch hopen
      · rw [hstats, Option.map_some, Option.map_some, Option.some.injEq] at hopen
        simp [hopen, Slots.less_less]
    · simpa [hn, Ne.symm hn] using hi.pools name
  · have hcount := hi.dagActive d
    simp only [Critical.select, ConcurrencyMap.add, Quota.load_concat]
    split <;> omega
  · have hcount := hi.taskActive t
    simp only [Critical.select, ConcurrencyMap.add, Quota.load_concat]
    split <;> omega
  · have hcount := hi.taskDagrunActive t
    simp only [Critical.select, ConcurrencyMap.add, Quota.load_concat]
    split <;> omega
  · refine hi.fitsPool.concat fun stats₀ hstats => ?_
    rw [hstats, Option.map_some, Option.map_some, Option.some.injEq] at hopen
    exact Slots.not_lt_add (hopen ▸ ha.slots)
  · refine hi.fitsDag.concat fun dag hd => ?_
    cases hdag.symm.trans hd
    have hlt := ha.dag
    rw [hi.dagActive] at hlt
    omega
  · refine hi.fitsTask.concat fun dag n hget hn => ?_
    have hlt := (hlimits dag hget).1 n hn
    rw [hi.taskActive] at hlt
    omega
  · refine hi.fitsTaskDagrun.concat fun dag n hget hn => ?_
    have hlt := (hlimits dag hget).2 n hn
    rw [hi.taskDagrunActive] at hlt
    omega

theorem Inv.examine {db : Database} {c : Critical} {r : Candidate} (hi : Inv db c)
    (hdag : db.dagModel r.ti.dagId = some r.dagModel) : Inv db (c.examine db r) := by
  rcases examine_cases db c r with ⟨s, -, h⟩ | h | ⟨stats, ha, h⟩
  · rw [h]
    exact hi.starve s
  · rw [h]
    exact hi.failScheduled _
  · rw [h]
    exact hi.select ha hdag

/-! ## Rows and the query -/

/-- The updates of the critical section keep the keys and only take rows out of `SCHEDULED`. -/
structure Rows (db : Database) (c : Critical) : Prop where
  keys : c.taskInstances.map TaskInstance.key = db.taskInstances.map TaskInstance.key
  scheduled : ∀ ti ∈ c.taskInstances, ti.state = some .scheduled → ti ∈ db.taskInstances

theorem Rows.failScheduled {db : Database} {c : Critical} (hr : Rows db c) (dagId : String) :
    Rows db (c.failScheduled dagId) := by
  refine ⟨?_, fun ti hti hs => ?_⟩
  · rw [← hr.keys]
    simp only [Critical.failScheduled, List.map_map]
    refine List.map_congr_left fun ti _ => ?_
    simp only [Function.comp_apply]
    split <;> rfl
  · obtain ⟨ti₀, hti₀, rfl⟩ := List.mem_map.1 hti
    split at hs
    · simp at hs
    · rename_i hn
      rw [if_neg hn]
      exact hr.scheduled ti₀ hti₀ hs

theorem Rows.examine {db : Database} {c : Critical} (hr : Rows db c) (r : Candidate) :
    Rows db (c.examine db r) := by
  rcases examine_cases db c r with ⟨s, -, h⟩ | h | ⟨stats, -, h⟩
  · rw [h]
    exact ⟨hr.keys, hr.scheduled⟩
  · rw [h]
    exact hr.failScheduled _
  · rw [h]
    exact ⟨hr.keys, hr.scheduled⟩

theorem map_join_sublist (db : Database) (tis : List TaskInstance) :
    ((tis.filterMap db.join).map (·.ti)).Sublist tis := by
  induction tis with
  | nil => exact .slnil
  | cons ti tis ih =>
    rw [List.filterMap_cons]
    split
    · exact ih.cons ti
    · rename_i r hr
      rw [List.map_cons, (join_spec hr).1]
      exact ih.cons_cons ti

section
variable {db : Database} {c : Critical} {locked : TaskInstance → Bool} {maxTis : Nat}

theorem query_length : (c.query db locked maxTis).length ≤ maxTis := List.length_take_le _ _

theorem query_nodup (hr : Rows db c) :
    (((c.query db locked maxTis).map (·.ti)).map TaskInstance.key).Nodup := by
  have hrows : (c.taskInstances.map TaskInstance.key).Nodup := hr.keys ▸ db.key_unique
  have hjoin := hrows.sublist ((map_join_sublist db c.taskInstances).map TaskInstance.key)
  have hfilter : ((c.matching db).filter (¬locked ·.ti)).Sublist
      (c.taskInstances.filterMap db.join) := List.filter_sublist.trans List.filter_sublist
  have hmatch := hjoin.sublist ((hfilter.map (·.ti)).map TaskInstance.key)
  have hsort := ((List.mergeSort_perm ((c.matching db).filter (¬locked ·.ti))
    Candidate.le).map (·.ti)).map TaskInstance.key
  exact (hsort.nodup_iff.2 hmatch).sublist (((List.take_sublist _ _).map _).map _)

/-- An instance to examine is a scheduled row of the tables, joined with its DAG, that no starved
entry covers. -/
theorem mem_query (hr : Rows db c) {r : Candidate} (h : r ∈ c.query db locked maxTis) :
    r.ti ∈ db.taskInstances ∧ db.dagModel r.ti.dagId = some r.dagModel ∧
      c.starved.any (·.covers r.ti) = false := by
  have hmem := List.mem_filter.1 (List.mem_mergeSort.1 (List.mem_of_mem_take h))
  obtain ⟨hjoin, hready⟩ := List.mem_filter.1 hmem.1
  obtain ⟨ti, hti, hj⟩ := List.mem_filterMap.1 hjoin
  obtain ⟨rfl, hdag⟩ := join_spec hj
  simp only [Candidate.ready, decide_eq_true_eq, Bool.not_eq_true] at hready
  exact ⟨hr.scheduled _ hti hready.1.2.2.2, hdag, hready.2⟩

end

/-! ## The inner loop -/

/-- What examining `rs` adds: selected instances in order, and starved entries, each new one
covering some instance of `rs`. -/
structure Examined (rs : List Candidate) (c c' : Critical) : Prop where
  selected : ∃ sel, sel.Sublist (rs.map (·.ti)) ∧ c'.executableTis = c.executableTis ++ sel
  starved : c.starved ⊆ c'.starved
  grows : c'.starved = c.starved ∨ ∃ r ∈ rs, ∃ s ∈ c'.starved, s.covers r.ti = true

theorem examine_examined (db : Database) (c : Critical) (r : Candidate) :
    Examined [r] c (c.examine db r) := by
  rcases examine_cases db c r with ⟨s, hs, h⟩ | h | ⟨stats, -, h⟩
  · rw [h]
    exact ⟨⟨[], List.nil_sublist _, (List.append_nil _).symm⟩,
      fun _ h => List.mem_insert_of_mem h,
      .inr ⟨r, List.mem_singleton_self r, s, List.mem_insert_self, hs⟩⟩
  · rw [h]
    exact ⟨⟨[], List.nil_sublist _, (List.append_nil _).symm⟩, fun _ h => h, .inl rfl⟩
  · rw [h]
    exact ⟨⟨[r.ti], .refl _, rfl⟩, fun _ h => h, .inl rfl⟩

theorem foldl_examined (db : Database) (rs : List Candidate) (c : Critical) :
    Examined rs c (rs.foldl (Critical.examine db) c) := by
  induction rs generalizing c with
  | nil => exact ⟨⟨[], .slnil, (List.append_nil _).symm⟩, fun _ h => h, .inl rfl⟩
  | cons r rs ih =>
    obtain ⟨⟨sel₁, hsub₁, hsel₁⟩, hst₁, hg₁⟩ := examine_examined db c r
    obtain ⟨⟨sel₂, hsub₂, hsel₂⟩, hst₂, hg₂⟩ := ih (c.examine db r)
    refine ⟨⟨sel₁ ++ sel₂, hsub₁.append hsub₂, ?_⟩, fun _ h => hst₂ (hst₁ h), ?_⟩
    · rw [List.foldl_cons, hsel₂, hsel₁, List.append_assoc]
    · rw [List.foldl_cons]
      rcases hg₁ with hg₁ | ⟨r', hr', s, hs, hcov⟩
      · rcases hg₂ with hg₂ | ⟨r', hr', s, hs, hcov⟩
        · exact .inl (hg₂.trans hg₁)
        · exact .inr ⟨r', List.mem_cons_of_mem _ hr', s, hs, hcov⟩
      · rw [List.mem_singleton.1 hr'] at hcov
        exact .inr ⟨r, List.mem_cons_self, s, hst₂ hs, hcov⟩

theorem foldl_inv {db : Database} {rs : List Candidate} {c : Critical}
    (hrs : ∀ r ∈ rs, db.dagModel r.ti.dagId = some r.dagModel) (hi : Inv db c) (hr : Rows db c) :
    Inv db (rs.foldl (Critical.examine db) c) ∧ Rows db (rs.foldl (Critical.examine db) c) := by
  induction rs generalizing c with
  | nil => exact ⟨hi, hr⟩
  | cons r rs ih =>
    exact ih (fun r' hr' => hrs r' (List.mem_cons_of_mem _ hr'))
      (hi.examine (hrs r List.mem_cons_self)) (hr.examine r)

/-! ## The outer loop -/

/-- The rows that no starved entry covers: each restart has fewer of them. -/
def Critical.uncovered (db : Database) (c : Critical) : Nat :=
  db.taskInstances.countP fun ti => !c.starved.any (·.covers ti)

theorem Examined.uncovered_lt {db : Database} {c c' : Critical} {rs : List Candidate}
    (h : Examined rs c c') (hlen : c'.starved.length > c.starved.length)
    (hrs : ∀ r ∈ rs, r.ti ∈ db.taskInstances ∧ c.starved.any (·.covers r.ti) = false) :
    c'.uncovered db < c.uncovered db := by
  rcases h.grows with hg | ⟨r, hr, s, hs, hcov⟩
  · rw [hg] at hlen
    exact absurd hlen (Nat.lt_irrefl _)
  · obtain ⟨hti, hany⟩ := hrs r hr
    refine Quota.countP_lt (fun ti _ hti => ?_) hti ?_ (by rw [hany]; rfl)
    · rw [Bool.not_eq_true', List.any_eq_false] at hti ⊢
      exact fun s hs => hti s (h.starved hs)
    · rw [Bool.not_eq_false', List.any_eq_true]
      exact ⟨s, hs, hcov⟩

/-- The loop ends, with counters that are right for what it selected in a single pass over a
query. -/
theorem loop_spec {db : Database} {locked : Nat → TaskInstance → Bool} {maxTis : Nat}
    {fuel loopCount : Nat} {c : Critical} (hi : Inv db c) (hr : Rows db c)
    (hfresh : c.executableTis = []) (hfuel : c.uncovered db < fuel) :
    ∃ c', c.loop db locked maxTis fuel loopCount = some c' ∧ Inv db c' ∧
      (c'.executableTis.map TaskInstance.key).Nodup ∧ c'.executableTis.length ≤ maxTis := by
  induction fuel generalizing loopCount c with
  | zero => exact absurd hfuel (Nat.not_lt_zero _)
  | succ fuel ih =>
    unfold Critical.loop
    dsimp only
    split
    · exact ⟨c, rfl, hi, by simp [hfresh], by simp [hfresh]⟩
    · have hmem : ∀ r ∈ c.query db (locked loopCount) maxTis, _ := fun r => mem_query hr
      obtain ⟨hi', hr'⟩ := foldl_inv (fun r h => (hmem r h).2.1) hi hr
      have hex := foldl_examined db (c.query db (locked loopCount) maxTis) c
      obtain ⟨sel, hsub, hsel⟩ := hex.selected
      rw [hfresh, List.nil_append] at hsel
      split
      · refine ⟨_, rfl, hi', ?_, ?_⟩
        · rw [hsel]
          exact (query_nodup hr).sublist (hsub.map _)
        · rw [hsel]
          exact (hsub.length_le.trans_eq (List.length_map _)).trans query_length
      · rename_i hcont
        simp only [not_or, not_not] at hcont
        have hlt := hex.uncovered_lt hcont.2 fun r h => ⟨(hmem r h).1, (hmem r h).2.2⟩
        exact ih hi' hr' hcont.1.1 (by omega)

/-! ## The critical section -/

theorem capMaxTis_le (maxTis : Nat) (free : Slots) : capMaxTis maxTis free ≤ maxTis := by
  cases free with
  | infinite => exact Nat.le_refl _
  | finite n =>
    simp only [capMaxTis]
    split <;> omega

theorem maxZero_nonneg (n : Int) : 0 ≤ maxZero n := by
  unfold maxZero
  split <;> omega

theorem le_maxZero (n : Int) : n ≤ maxZero n := by
  unfold maxZero
  split <;> omega

/-- Loads that fit the quotas are within the limits. -/
theorem Inv.withinLimits {db : Database} {c : Critical} {maxTis : Nat} (hi : Inv db c)
    (hn : (c.executableTis.map TaskInstance.key).Nodup) (hl : c.executableTis.length ≤ maxTis) :
    WithinLimits maxZero db maxTis c.executableTis := by
  refine ⟨hn, hl, fun name stats slots hstats hopen => ?_, fun dagId runId dag hdag => ?_,
    fun dagId taskId dag n hget hlim => ?_, fun dagId runId taskId dag n hget hlim => ?_⟩
  · by_cases hex : ∃ ti ∈ c.executableTis, ti.pool = name
    · have hfit := hi.fitsPool name hex stats hstats
      rw [hopen, Slots.lt, decide_eq_false_iff_not, Int.not_lt] at hfit
      exact Int.le_trans hfit (le_maxZero slots)
    · have hnil : c.executableTis.filter (·.pool = name) = [] := by
        simpa [List.filter_eq_nil_iff] using hex
      rw [hnil]
      exact maxZero_nonneg slots
  · by_cases hex : ∃ ti ∈ c.executableTis, (ti.dagId, ti.runId) = (dagId, runId)
    · right
      obtain ⟨ti, hti, hkey⟩ := hex
      have hfit := hi.fitsDag dagId ⟨ti, hti, congrArg Prod.fst hkey⟩ dag hdag
      rw [Quota.load_one] at hfit
      -- the limit is checked for the whole DAG, and a run has no more instances than its DAG
      have hrun : ∀ tis : List TaskInstance,
          tis.countP (fun ti => (ti.dagId, ti.runId) = (dagId, runId)) ≤
            tis.countP (·.dagId = dagId) := fun tis =>
        List.countP_mono_left fun ti _ h => by
          simp only [decide_eq_true_eq] at h ⊢
          exact congrArg Prod.fst h
      have h₁ := hrun db.active
      have h₂ := hrun c.executableTis
      omega
    · exact .inl fun ti hti h => hex ⟨ti, hti, h⟩
  · by_cases hex : ∃ ti ∈ c.executableTis, ti.task = (dagId, taskId)
    · have hfit := hi.fitsTask _ hex dag n hget hlim
      rw [Quota.load_one] at hfit
      exact .inr hfit
    · exact .inl fun ti hti h => hex ⟨ti, hti, h⟩
  · by_cases hex : ∃ ti ∈ c.executableTis, ti.taskDagrun = (dagId, runId, taskId)
    · have hfit := hi.fitsTaskDagrun _ hex dag n hget hlim
      rw [Quota.load_one] at hfit
      exact .inr hfit
    · exact .inl fun ti hti h => hex ⟨ti, hti, h⟩

theorem WithinLimits.nil (db : Database) (maxTis : Nat) : WithinLimits maxZero db maxTis [] := by
  refine ⟨List.nodup_nil, Nat.zero_le _, fun _ _ slots _ _ => ?_, fun _ _ _ _ => .inl ?_,
    fun _ _ _ _ _ _ => .inl ?_, fun _ _ _ _ _ _ _ => .inl ?_⟩
  · exact maxZero_nonneg slots
  all_goals exact fun ti hti => absurd hti List.not_mem_nil

/-- **Queueing never exceeds a limit**: the critical section returns, and the instances it returns
are within every limit of the tables, a pool with no open slot being one that has zero of them. -/
theorem queued_within_limits (db : Database) (locked : Nat → TaskInstance → Bool) (maxTis : Nat) :
    ∃ q, executableTaskInstancesToQueued db locked maxTis = some q ∧
      WithinLimits maxZero db maxTis q.executableTis := by
  unfold executableTaskInstancesToQueued
  dsimp only
  split
  · exact ⟨_, rfl, .nil db maxTis⟩
  · have hfuel : db.critical.uncovered db < db.taskInstances.length + 1 :=
      Nat.lt_succ_of_le List.countP_le_length
    obtain ⟨c, hc, hi, hn, hl⟩ := loop_spec (Inv.init db) ⟨rfl, fun _ h _ => h⟩ rfl hfuel
    rw [hc]
    exact ⟨_, rfl, hi.withinLimits hn (hl.trans (capMaxTis_le _ _))⟩

/-- A pool of one slot that a running instance overfills. -/
def overfullPool : Database where
  taskInstances := [{
    dagId := "etl", taskId := "load", runId := "r1", state := some .running, pool := "small"
    poolSlots := 2 }]
  dagRuns := []
  dagModels := []
  serializedDags := []
  pools := [⟨"small", 1, false⟩]
  key_unique := by decide
  limits_flagged := by simp

/-- The pool has minus one open slots, so even an empty selection is more than it has open. -/
theorem overfull_pool_not_within : ¬∀ (db : Database) (locked : Nat → TaskInstance → Bool)
    (maxTis : Nat), ∃ q, executableTaskInstancesToQueued db locked maxTis = some q ∧
      WithinLimits id db maxTis q.executableTis := by
  intro h
  obtain ⟨q, hq, hw⟩ := h overfullPool (fun _ _ => false) 1
  have hempty : executableTaskInstancesToQueued overfullPool (fun _ _ => false) 1 =
      some ⟨[], overfullPool.taskInstances⟩ := rfl
  rw [hempty, Option.some.injEq] at hq
  subst hq
  exact absurd (hw.pool "small" _ (-1) rfl rfl) (by decide)

end Airflow.Queueing
