import Airflow.Lib.Transition
import Airflow.Scheduler.Proof.Queueing
import Mathlib.Data.List.Forall2

/-!
# Limits over whole runs

Any number of schedulers run the critical section one after the other (it locks the pools), while
workers, triggers, users and the schedulers themselves change task instances (`Step`). Nobody but
the critical section queues an instance; the backfill job, which queues without the lock, is left
out. Then pools, DAGs, tasks and tasks of a run never hold more than their limits (`within_of_run`).

All the limits bound a total over the instances in some states (`total`), so a step is looked at
once, for any such total.
-/

namespace Airflow.Queueing

/-! ## Limits -/

/-- The states in which an instance holds its slots of the pool. -/
def Pool.holds (p : Pool) : TIState → Bool
  | some .running | some .queued => true
  | some .deferred => p.includeDeferred
  | _ => false

/-- The weight of the instances in some states. -/
def total (holds : TIState → Bool) (weight : TaskInstance → Int) (tis : List TaskInstance) : Int :=
  (tis.map fun ti => if holds ti.state then weight ti else 0).sum

/-- The slots of the pool that are occupied. -/
def Pool.occupied (p : Pool) (tis : List TaskInstance) : Int :=
  total p.holds (fun ti => if ti.pool = p.pool then ti.poolSlots else 0) tis

/-- The active instances of a kind. -/
def activeCount (kind : TaskInstance → Bool) (tis : List TaskInstance) : Int :=
  total State.isExecution (fun ti => if kind ti then 1 else 0) tis

/-- No limit of the tables is exceeded; `BaseOperator` refuses fewer than one slot. -/
structure Within (db : Database) : Prop where
  slots : ∀ ti ∈ db.taskInstances, 0 ≤ ti.poolSlots
  pool : ∀ name p, db.pools.find? (·.pool = name) = some p → p.slots ≠ -1 →
    p.occupied db.taskInstances ≤ p.slots
  dag : ∀ dagId dag, db.dagModel dagId = some dag →
    activeCount (·.dagId = dagId) db.taskInstances ≤ dag.maxActiveTasks
  task : ∀ dagId taskId dag limit, db.getDag dagId = some dag → (dag.limits taskId).1 = some limit →
    activeCount (·.task = (dagId, taskId)) db.taskInstances ≤ limit
  taskDagrun : ∀ dagId runId taskId dag limit, db.getDag dagId = some dag →
    (dag.limits taskId).2 = some limit →
    activeCount (·.taskDagrun = (dagId, runId, taskId)) db.taskInstances ≤ limit

/-! ## Steps -/

/-- The states an instance is taken to outside the critical section: a worker runs what is queued,
and what runs can defer itself. Any other change leaves the pool. -/
def mayBecome : TIState → TIState → Bool
  | some .queued, some .running | some .running, some .deferred => true
  | _, some .queued | _, some .running | _, some .deferred => false
  | _, _ => true

/-- What happens to a row outside the critical section. -/
inductive RowStep : List TaskInstance → List TaskInstance → Prop
  | move (before after : List TaskInstance) (ti : TaskInstance) (state : TIState) :
    mayBecome ti.state state = true →
      RowStep (before ++ ti :: after) (before ++ { ti with state } :: after)
  /-- `refresh_from_task` of an instance that is not active. -/
  | refresh (before after : List TaskInstance) (ti ti' : TaskInstance) :
    mayBecome none ti.state = true → ti'.state = ti.state → 0 ≤ ti'.poolSlots →
      RowStep (before ++ ti :: after) (before ++ ti' :: after)
  | insert (before after : List TaskInstance) (ti : TaskInstance) :
    mayBecome none ti.state = true → 0 ≤ ti.poolSlots →
      RowStep (before ++ after) (before ++ ti :: after)
  | delete (before after : List TaskInstance) (ti : TaskInstance) :
    RowStep (before ++ ti :: after) (before ++ after)

/-- The limits stay as they are. -/
structure SameLimits (db db' : Database) : Prop where
  pools : db'.pools = db.pools
  serializedDags : db'.serializedDags = db.serializedDags
  maxActiveTasks : ∀ dagId,
    (db'.dagModel dagId).map (·.maxActiveTasks) = (db.dagModel dagId).map (·.maxActiveTasks)

/-- The critical section of some scheduler, or a change of a row. -/
inductive Step : Database → Database → Prop
  | critical {db db' : Database} (locked : Nat → TaskInstance → Bool) (maxTis : Nat) (q : Queued) :
    executableTaskInstancesToQueued db locked maxTis = some q →
      db'.taskInstances = q.taskInstances → SameLimits db db' → Step db db'
  | row {db db' : Database} : RowStep db.taskInstances db'.taskInstances → SameLimits db db' →
      Step db db'

/-! ## Totals -/

variable {holds : TIState → Bool} {weight : TaskInstance → Int}
  {tis rows rows' sel : List TaskInstance} {db db' : Database} {c : Critical}

theorem total_cons (ti : TaskInstance) (tis : List TaskInstance) : total holds weight (ti :: tis) =
    (if holds ti.state then weight ti else 0) + total holds weight tis := by
  rw [total, List.map_cons, List.sum_cons, total]

theorem total_append (a b : List TaskInstance) :
    total holds weight (a ++ b) = total holds weight a + total holds weight b := by
  rw [total, List.map_append, List.sum_append, total, total]

/-- The active instances of a kind are counted. -/
theorem activeCount_eq (kind : TaskInstance → Bool) (tis : List TaskInstance) :
    activeCount kind tis = (tis.filter (State.isExecution ·.state)).countP kind := by
  induction tis with
  | nil => rfl
  | cons ti tis ih =>
    rw [activeCount, total_cons, ← activeCount, ih]
    rw [List.filter_cons]
    by_cases hstate : State.isExecution ti.state = true
    · rw [if_pos hstate, if_pos hstate, List.countP_cons]
      push_cast
      omega
    · rw [if_neg hstate, if_neg hstate, Int.zero_add]

/-- The states in which an instance counts for a limit are those of the pools. -/
structure Counts (holds : TIState → Bool) : Prop where
  queued : holds (some .queued) = true
  deferred : holds (some .deferred) = true → holds (some .running) = true
  others : ∀ s, mayBecome none s = true → holds s = false

/-- Only two changes lead to one of the states. -/
theorem mayBecome_active {s s' : TIState} (hmove : mayBecome s s' = true)
    (hnew : mayBecome none s' = false) :
    s = some .queued ∧ s' = some .running ∨ s = some .running ∧ s' = some .deferred := by
  obtain rfl | rfl | rfl : s' = some .queued ∨ s' = some .running ∨ s' = some .deferred := by
    cases s' with
    | none => cases hnew
    | some s' => cases s' <;> first | exact absurd hnew (by decide) | simp
  · cases s with
    | none => cases hmove
    | some s => cases s <;> cases hmove
  · cases s with
    | none => cases hmove
    | some s => cases s <;> first | exact .inl ⟨rfl, rfl⟩ | cases hmove
  · cases s with
    | none => cases hmove
    | some s => cases s <;> first | exact .inr ⟨rfl, rfl⟩ | cases hmove

/-- A state that counts is only taken by an instance that counts already. -/
theorem Counts.of_move (h : Counts holds) {s s' : TIState} (hmove : mayBecome s s' = true)
    (hs' : holds s' = true) : holds s = true := by
  cases hnew : mayBecome none s' with
  | true =>
    rw [h.others s' hnew] at hs'
    cases hs'
  | false =>
    obtain ⟨rfl, rfl⟩ | ⟨rfl, rfl⟩ := mayBecome_active hmove hnew
    · exact h.queued
    · exact h.deferred hs'

theorem Pool.counts (p : Pool) : Counts p.holds where
  queued := rfl
  deferred _ := rfl
  others s h := by
    cases s with
    | none => rfl
    | some s => cases s <;> first | rfl | cases h

theorem counts_isExecution : Counts State.isExecution where
  queued := rfl
  deferred _ := rfl
  others s h := by
    cases s with
    | none => rfl
    | some s => cases s <;> first | rfl | cases h

/-! ## A change of a row -/

/-- No total grows. -/
theorem RowStep.total_le (h : RowStep rows rows') (hcounts : Counts holds)
    (weight : TaskInstance → Int) (hweight : ∀ ti ∈ rows, 0 ≤ weight ti)
    (hsame : ∀ ti state, weight { ti with state } = weight ti) :
    total holds weight rows' ≤ total holds weight rows := by
  cases h with
  | move before after ti state hmove =>
    have hti : 0 ≤ weight ti := hweight ti (List.mem_append_right _ List.mem_cons_self)
    have hone : (if holds state then weight ti else 0) ≤
        if holds ti.state then weight ti else 0 := by
      by_cases hstate : holds state = true
      · apply Int.le_of_eq
        rw [if_pos hstate, if_pos (hcounts.of_move hmove hstate)]
      · rw [if_neg hstate]
        split
        · exact hti
        · exact Int.le_refl 0
    rw [total_append, total_cons, total_append, total_cons, hsame]
    exact Int.add_le_add_left (Int.add_le_add_right hone _) _
  | refresh before after ti ti' hstate hsame' =>
    apply Int.le_of_eq
    rw [total_append, total_cons, total_append, total_cons, hsame', hcounts.others _ hstate]
    rfl
  | insert before after ti hstate =>
    rw [total_append, total_append, total_cons, hcounts.others _ hstate]
    exact Int.le_of_eq (by simp)
  | delete before after ti =>
    have hti : 0 ≤ weight ti := hweight ti (List.mem_append_right _ List.mem_cons_self)
    rw [total_append, total_append, total_cons]
    split <;> omega

theorem RowStep.slots (h : RowStep rows rows') (hslots : ∀ ti ∈ rows, 0 ≤ ti.poolSlots) :
    ∀ ti ∈ rows', 0 ≤ ti.poolSlots := by
  intro x hx
  cases h with
  | move before after ti state =>
    obtain hx | rfl | hx := by simpa using hx
    · exact hslots x (List.mem_append_left _ hx)
    · exact hslots ti (List.mem_append_right _ List.mem_cons_self)
    · exact hslots x (List.mem_append_right _ (List.mem_cons_of_mem _ hx))
  | refresh before after ti ti' _ _ hti' =>
    obtain hx | rfl | hx := by simpa using hx
    · exact hslots x (List.mem_append_left _ hx)
    · exact hti'
    · exact hslots x (List.mem_append_right _ (List.mem_cons_of_mem _ hx))
  | insert before after ti _ hti =>
    obtain hx | rfl | hx := by simpa using hx
    · exact hslots x (List.mem_append_left _ hx)
    · exact hti
    · exact hslots x (List.mem_append_right _ hx)
  | delete before after ti =>
    obtain hx | hx := List.mem_append.mp hx
    · exact hslots x (List.mem_append_left _ hx)
    · exact hslots x (List.mem_append_right _ (List.mem_cons_of_mem _ hx))

/-! ## The critical section -/

/-- The rows that the loop leaves: some scheduled ones are failed. -/
def SomeFailed (rows rows' : List TaskInstance) : Prop :=
  List.Forall₂ (fun ti ti' => ti' = ti ∨
    ti.state = some .scheduled ∧ ti' = { ti with state := some .failed }) rows rows'

theorem SomeFailed.failScheduled (h : SomeFailed rows c.taskInstances) (dagId : String) :
    SomeFailed rows (c.failScheduled dagId).taskInstances := by
  have hmap : (c.failScheduled dagId).taskInstances = c.taskInstances.map fun ti =>
      if ti.dagId = dagId ∧ ti.state = some .scheduled then { ti with state := some .failed }
      else ti := rfl
  rw [SomeFailed, hmap, List.forall₂_map_right_iff]
  refine h.imp fun ti ti' hti => ?_
  split
  · next hfailed =>
    obtain rfl | ⟨hstate, rfl⟩ := hti
    · exact .inr ⟨hfailed.2, rfl⟩
    · exact .inr ⟨hstate, rfl⟩
  · exact hti

/-- What the loop keeps: it selects rows, and fails some. -/
structure Selects (db : Database) (c : Critical) : Prop where
  selected : ∀ ti ∈ c.executableTis, ti ∈ db.taskInstances
  rows : SomeFailed db.taskInstances c.taskInstances

theorem Selects.examine (h : Selects db c) {r : Candidate} (hr : r.ti ∈ db.taskInstances) :
    Selects db (c.examine db r) := by
  rcases examine_cases db c r with ⟨s, -, h'⟩ | h' | ⟨stats, -, h'⟩
  · rw [h']
    exact ⟨h.selected, h.rows⟩
  · rw [h']
    exact ⟨h.selected, h.rows.failScheduled _⟩
  · rw [h']
    refine ⟨fun ti hti => ?_, h.rows⟩
    obtain hti | hti := List.mem_append.mp hti
    · exact h.selected ti hti
    · rw [List.mem_singleton.mp hti]
      exact hr

theorem Selects.foldl (h : Selects db c) {rs : List Candidate}
    (hrs : ∀ r ∈ rs, r.ti ∈ db.taskInstances) :
    Selects db (rs.foldl (Critical.examine db) c) := by
  induction rs generalizing c with
  | nil => exact h
  | cons r rs ih =>
    exact ih (h.examine (hrs r List.mem_cons_self))
      fun r' hr' => hrs r' (List.mem_cons_of_mem r hr')

theorem Selects.loop (h : Selects db c) (hi : Inv db c) (hr : Rows db c)
    {locked : Nat → TaskInstance → Bool} {maxTis fuel loopCount : Nat} {c' : Critical}
    (hloop : c.loop db locked maxTis fuel loopCount = some c') : Selects db c' := by
  induction fuel generalizing loopCount c with
  | zero => cases hloop
  | succ fuel ih =>
    unfold Critical.loop at hloop
    dsimp only at hloop
    have hmem : ∀ r ∈ c.query db (locked loopCount) maxTis, _ := fun r => mem_query hr
    have hfold := h.foldl fun r hr' => (hmem r hr').1
    obtain ⟨hi', hr'⟩ := foldl_inv (fun r hr' => (hmem r hr').2.1) hi hr
    split at hloop
    · obtain rfl := Option.some.inj hloop
      exact h
    · split at hloop
      · obtain rfl := Option.some.inj hloop
        exact hfold
      · exact ih hfold hi' hr' hloop

/-- Selected rows are those with a selected key. -/
theorem filter_selected_perm (hkeys : (rows.map TaskInstance.key).Nodup)
    (hsel : ∀ ti ∈ sel, ti ∈ rows) (hnodup : (sel.map TaskInstance.key).Nodup) :
    (rows.filter (·.key ∈ sel.map TaskInstance.key)).Perm sel := by
  refine (List.perm_ext_iff_of_nodup (hkeys.of_map.filter _) hnodup.of_map).mpr fun ti => ?_
  rw [List.mem_filter, decide_eq_true_eq]
  constructor
  · rintro ⟨hti, hkey⟩
    obtain ⟨ti', hti', hsame⟩ := List.mem_map.mp hkey
    rwa [← List.inj_on_of_nodup_map hkeys (hsel ti' hti') hti hsame]
  · exact fun hti => ⟨hsel ti hti, List.mem_map_of_mem hti⟩

/-- **The critical section adds the weight of what it selects**, at most. -/
theorem total_setQueued_le (hcounts : Counts holds) (hrows : SomeFailed rows rows')
    (weight : TaskInstance → Int) (hweight : ∀ ti ∈ rows, 0 ≤ weight ti)
    (hsame : ∀ ti state, weight { ti with state } = weight ti)
    (hkeys : (rows.map TaskInstance.key).Nodup) (hsel : ∀ ti ∈ sel, ti ∈ rows)
    (hnodup : (sel.map TaskInstance.key).Nodup) :
    total holds weight (setQueued sel rows') ≤
      total holds weight rows + (sel.map weight).sum := by
  rw [← ((filter_selected_perm hkeys hsel hnodup).map weight).sum_eq]
  clear hkeys hsel hnodup
  induction hrows with
  | nil => exact Int.le_refl 0
  | @cons ti ti' rows rows' hti _ ih =>
    have hw : 0 ≤ weight ti := hweight ti List.mem_cons_self
    have hrest := ih fun x hx => hweight x (List.mem_cons_of_mem ti hx)
    have hkey : ti'.key = ti.key := by
      obtain rfl | ⟨-, rfl⟩ := hti
      · rfl
      · rfl
    have hone : total holds weight (setQueued sel (ti' :: rows')) =
        (if ti.key ∈ sel.map TaskInstance.key then weight ti
          else if holds ti'.state then weight ti' else 0) +
            total holds weight (setQueued sel rows') := by
      rw [setQueued, List.map_cons, total_cons, ← setQueued, hkey]
      split
      · rw [if_pos hcounts.queued]
        obtain rfl | ⟨-, rfl⟩ := hti
        · rw [hsame]
        · rw [hsame, hsame]
      · rfl
    rw [hone, total_cons, List.filter_cons]
    by_cases hmem : ti.key ∈ sel.map TaskInstance.key
    · simp only [hmem, decide_true, if_true, List.map_cons, List.sum_cons]
      split <;> omega
    · simp only [hmem, decide_false, if_false, Bool.false_eq_true]
      obtain rfl | ⟨hstate, rfl⟩ := hti
      · omega
      · have hfailed := hcounts.others (some .failed) rfl
        have hscheduled := hcounts.others (some .scheduled) rfl
        simp only [hfailed, hstate, hscheduled, Bool.false_eq_true, if_false]
        omega

/-- What the critical section selects, and the rows that it leaves. -/
theorem critical_spec {locked : Nat → TaskInstance → Bool} {maxTis : Nat} {q : Queued}
    (h : executableTaskInstancesToQueued db locked maxTis = some q) :
    ∃ c, Inv db c ∧ Selects db c ∧ (c.executableTis.map TaskInstance.key).Nodup ∧
      q.executableTis = c.executableTis ∧
      q.taskInstances = setQueued c.executableTis c.taskInstances := by
  have hstart : Selects db db.critical :=
    ⟨fun ti hti => absurd hti List.not_mem_nil, List.forall₂_same.mpr fun _ _ => .inl rfl⟩
  unfold executableTaskInstancesToQueued at h
  dsimp only at h
  split at h
  · obtain rfl := Option.some.inj h
    refine ⟨db.critical, Inv.init db, hstart, List.nodup_nil, rfl, ?_⟩
    simp [setQueued, Database.critical]
  · have hfuel : db.critical.uncovered db < db.taskInstances.length + 1 :=
      Nat.lt_succ_of_le List.countP_le_length
    obtain ⟨c, hc, hi, hn, -⟩ := loop_spec (Inv.init db) ⟨rfl, fun _ h _ => h⟩ rfl hfuel
    rw [hc] at h
    obtain rfl := Option.some.inj h
    exact ⟨c, hi, hstart.loop (Inv.init db) ⟨rfl, fun _ h _ => h⟩ hc, hn, rfl, rfl⟩

/-! ## Limits are kept -/

theorem sum_map_ite_eq_load {κ : Type} [DecidableEq κ] (key : TaskInstance → κ)
    (w : TaskInstance → Int) (k : κ) (tis : List TaskInstance) :
    (tis.map fun ti => if key ti = k then w ti else 0).sum = Quota.load key w tis k := by
  induction tis with
  | nil => rfl
  | cons ti tis ih =>
    rw [List.map_cons, List.sum_cons, ih, Quota.load, Quota.load, List.filter_cons]
    by_cases hkey : key ti = k
    · simp [hkey]
    · simp [hkey]

/-- A load that its quota allows, where the key has one. -/
theorem load_le {κ : Type} [DecidableEq κ] {key : TaskInstance → κ} {w : TaskInstance → Int}
    {within : κ → Int → Prop} (h : Quota.Fits key w within sel) (k : κ) {bound : Int}
    (hzero : 0 ≤ bound) (hquota : ∀ n, within k n → n ≤ bound) :
    Quota.load key w sel k ≤ bound := by
  by_cases hex : ∃ ti ∈ sel, key ti = k
  · exact hquota _ (h k hex)
  · have hnil : sel.filter (key · = k) = [] := by
      simpa [List.filter_eq_nil_iff] using hex
    rw [Quota.load, hnil]
    exact hzero

theorem sumPoolSlots_cons (ti : TaskInstance) (tis : List TaskInstance) (pool : String)
    (state : TaskInstanceState) : sumPoolSlots (ti :: tis) pool state =
      (if ti.pool = pool ∧ ti.state = some state then ti.poolSlots else 0) +
        sumPoolSlots tis pool state := by
  rw [sumPoolSlots, List.filter_cons]
  by_cases h : ti.pool = pool ∧ ti.state = some state
  · simp [h, sumPoolSlots]
  · simp [h, sumPoolSlots]

/-- The occupied slots, by state. -/
theorem Pool.occupied_eq (p : Pool) (tis : List TaskInstance) : p.occupied tis =
    sumPoolSlots tis p.pool .running + sumPoolSlots tis p.pool .queued +
      if p.includeDeferred then sumPoolSlots tis p.pool .deferred else 0 := by
  induction tis with
  | nil =>
    change (0 : Int) = 0 + 0 + if p.includeDeferred then 0 else 0
    split <;> rfl
  | cons ti tis ih =>
    rw [occupied, total_cons, ← occupied, ih, sumPoolSlots_cons, sumPoolSlots_cons,
      sumPoolSlots_cons]
    by_cases hpool : ti.pool = p.pool
    · simp only [hpool, true_and, if_true]
      cases hdeferred : p.includeDeferred with
      | true =>
        cases hstate : ti.state with
        | none => simp [holds]
        | some state => cases state <;> simp [holds, hdeferred] <;> omega
      | false =>
        cases hstate : ti.state with
        | none => simp [holds]
        | some state => cases state <;> simp [holds, hdeferred] <;> omega
    · simp [hpool]

/-- The open slots of a finite pool. -/
theorem open_of_pool {name : String} {p : Pool} (h : db.pools.find? (·.pool = name) = some p)
    (hslots : p.slots ≠ -1) : ∃ stats, getPool (slotsStats db) name = some stats ∧
      stats.open = .finite (p.slots - p.occupied db.taskInstances) := by
  simp only [getPool, slotsStats, List.find?_map, Function.comp_def, h, Option.map_some]
  refine ⟨_, rfl, ?_⟩
  rw [Pool.occupied_eq]
  simp only [if_neg hslots]
  split
  · simp only [Slots.less, Slots.finite.injEq]
    omega
  · simp only [Slots.less, Slots.finite.injEq]
    omega

/-- Rows keep their slots. -/
theorem SomeFailed.slots (h : SomeFailed rows rows') (hslots : ∀ ti ∈ rows, 0 ≤ ti.poolSlots) :
    ∀ ti ∈ setQueued sel rows', 0 ≤ ti.poolSlots := by
  intro ti hti
  obtain ⟨ti', hti', rfl⟩ := List.mem_map.mp hti
  obtain ⟨n, hn, rfl⟩ := List.mem_iff_getElem.mp hti'
  have hlength : n < rows.length := h.length_eq ▸ hn
  have hrow := List.forall₂_iff_get.mp h |>.2 n hlength hn
  have hold := hslots _ (List.getElem_mem hlength)
  have hkeep : (rows'[n]).poolSlots = (rows[n]).poolSlots := by
    simp only [List.get_eq_getElem] at hrow
    obtain hrow | ⟨-, hrow⟩ := hrow
    · rw [hrow]
    · rw [hrow]
  split
  · exact hkeep ▸ hold
  · exact hkeep ▸ hold

theorem SameLimits.getDag (h : SameLimits db db') (dagId : String) :
    db'.getDag dagId = db.getDag dagId := by
  rw [Database.getDag, h.serializedDags]
  rfl

theorem SameLimits.dagModel (h : SameLimits db db') {dagId : String} {dag : DagModel}
    (hdag : db'.dagModel dagId = some dag) :
    ∃ dag₀, db.dagModel dagId = some dag₀ ∧ dag₀.maxActiveTasks = dag.maxActiveTasks := by
  have hlimit := h.maxActiveTasks dagId
  rw [hdag] at hlimit
  exact Option.map_eq_some_iff.mp hlimit.symm

/-- **The critical section keeps every limit.** -/
theorem within_critical {locked : Nat → TaskInstance → Bool} {maxTis : Nat} {q : Queued}
    (h : executableTaskInstancesToQueued db locked maxTis = some q) (hw : Within db)
    (htis : db'.taskInstances = q.taskInstances) (hsame : SameLimits db db') : Within db' := by
  obtain ⟨c, hi, hselects, hnodup, -, hrows⟩ := critical_spec h
  rw [hrows] at htis
  have hcount : ∀ {κ : Type} [DecidableEq κ] (key : TaskInstance → κ) (k : κ),
      (∀ ti state, key { ti with state } = key ti) →
      activeCount (key · = k) db'.taskInstances ≤ activeCount (key · = k) db.taskInstances +
        Quota.load key (fun _ => 1) c.executableTis k := by
    intro κ _ key k hkey
    rw [htis, ← sum_map_ite_eq_load]
    have hle := total_setQueued_le counts_isExecution hselects.rows
      (fun ti => if key ti = k then 1 else 0) (fun ti _ => by split <;> decide)
      (fun ti state => by rw [hkey]) db.key_unique hselects.selected hnodup
    simpa only [activeCount, decide_eq_true_eq] using hle
  have hactive : ∀ kind, activeCount kind db.taskInstances = db.active.countP kind :=
    fun kind => activeCount_eq kind db.taskInstances
  constructor
  · rw [htis]
    exact hselects.rows.slots hw.slots
  · intro name p hp hslots
    rw [hsame.pools] at hp
    obtain ⟨stats, hstats, hopen⟩ := open_of_pool hp hslots
    have hname : p.pool = name := by simpa using List.find?_some hp
    have hle := total_setQueued_le p.counts hselects.rows
      (fun ti => if ti.pool = p.pool then ti.poolSlots else 0)
      (fun ti hti => by split; exacts [hw.slots ti hti, Int.le_refl 0]) (fun ti state => rfl)
      db.key_unique hselects.selected hnodup
    rw [← htis, sum_map_ite_eq_load (fun ti => ti.pool)] at hle
    have hload := load_le hi.fitsPool p.pool (Int.sub_nonneg_of_le (hw.pool name p hp hslots))
      fun n hn => by
        have hlt := hn stats (hname ▸ hstats)
        rw [hopen, Slots.lt, decide_eq_false_iff_not, Int.not_lt] at hlt
        exact hlt
    have htotal : p.occupied db'.taskInstances ≤ p.occupied db.taskInstances +
        Quota.load (·.pool) (·.poolSlots) c.executableTis p.pool := hle
    omega
  · intro dagId dag hdag
    obtain ⟨dag₀, hdag₀, hlimit⟩ := hsame.dagModel hdag
    have hload := load_le hi.fitsDag dagId (Int.sub_nonneg_of_le (hw.dag dagId dag₀ hdag₀))
      fun n hn => by
        have hle := hn dag₀ hdag₀
        rw [hactive]
        omega
    have hle := hcount (·.dagId) dagId fun _ _ => rfl
    omega
  · intro dagId taskId dag limit hdag hlimit
    rw [hsame.getDag] at hdag
    have hload := load_le hi.fitsTask (dagId, taskId)
      (Int.sub_nonneg_of_le (hw.task dagId taskId dag limit hdag hlimit)) fun n hn => by
        have hle := hn dag limit hdag hlimit
        rw [hactive]
        omega
    have hle := hcount TaskInstance.task (dagId, taskId) fun _ _ => rfl
    omega
  · intro dagId runId taskId dag limit hdag hlimit
    rw [hsame.getDag] at hdag
    have hload := load_le hi.fitsTaskDagrun (dagId, runId, taskId)
      (Int.sub_nonneg_of_le (hw.taskDagrun dagId runId taskId dag limit hdag hlimit)) fun n hn => by
        have hle := hn dag limit hdag hlimit
        rw [hactive]
        omega
    have hle := hcount TaskInstance.taskDagrun (dagId, runId, taskId) fun _ _ => rfl
    omega

/-- Nobody else exceeds a limit. -/
theorem within_row (h : RowStep db.taskInstances db'.taskInstances) (hw : Within db)
    (hsame : SameLimits db db') : Within db' := by
  have hcount : ∀ {κ : Type} [DecidableEq κ] (key : TaskInstance → κ) (k : κ),
      (∀ ti state, key { ti with state } = key ti) →
      activeCount (key · = k) db'.taskInstances ≤ activeCount (key · = k) db.taskInstances := by
    intro κ _ key k hkey
    exact h.total_le counts_isExecution _ (fun ti _ => by split <;> decide)
      fun ti state => by simp only [hkey]
  constructor
  · exact h.slots hw.slots
  · intro name p hp hslots
    rw [hsame.pools] at hp
    have hle := h.total_le p.counts (fun ti => if ti.pool = p.pool then ti.poolSlots else 0)
      (fun ti hti => by split; exacts [hw.slots ti hti, Int.le_refl 0]) fun _ _ => rfl
    exact Int.le_trans hle (hw.pool name p hp hslots)
  · intro dagId dag hdag
    obtain ⟨dag₀, hdag₀, hlimit⟩ := hsame.dagModel hdag
    rw [← hlimit]
    exact Int.le_trans (hcount (·.dagId) dagId fun _ _ => rfl) (hw.dag dagId dag₀ hdag₀)
  · intro dagId taskId dag limit hdag hlimit
    rw [hsame.getDag] at hdag
    exact Int.le_trans (hcount TaskInstance.task (dagId, taskId) fun _ _ => rfl)
      (hw.task dagId taskId dag limit hdag hlimit)
  · intro dagId runId taskId dag limit hdag hlimit
    rw [hsame.getDag] at hdag
    exact Int.le_trans (hcount TaskInstance.taskDagrun (dagId, runId, taskId) fun _ _ => rfl)
      (hw.taskDagrun dagId runId taskId dag limit hdag hlimit)

/-- **No limit is ever exceeded.** -/
theorem within_of_run (h : Relation.ReflTransGen Step db db') (hw : Within db) : Within db' := by
  refine Transition.invariant (fun s t hstep hs => ?_) h hw
  cases hstep with
  | critical locked maxTis q hq htis hsame => exact within_critical hq hs htis hsame
  | row hrow hsame => exact within_row hrow hs hsame

/-- A pool that a running instance fills. -/
def fullPool (state : TIState) : Database where
  taskInstances := [{
    dagId := "etl", taskId := "load", runId := "r1", state, pool := "small", poolSlots := 2 }]
  dagRuns := []
  dagModels := [⟨"etl", false, 1, false⟩]
  serializedDags := []
  pools := [⟨"small", 2, false⟩]
  key_unique := List.nodup_singleton _
  limits_flagged := by simp

/-- A critical section that finds no open slot, and the end of the instance. -/
theorem fullPool_within : Within (fullPool (some .success)) := by
  have hwithin : Within (fullPool (some .running)) := by
    constructor
    · decide
    · intro name p hp hslots
      obtain rfl : p = ⟨"small", 2, false⟩ := by
        simpa [fullPool] using List.mem_of_find?_eq_some hp
      decide
    · intro dagId dag hdag
      obtain rfl : dag = ⟨"etl", false, 1, false⟩ := by
        simpa [fullPool] using List.mem_of_find?_eq_some hdag
      obtain rfl : "etl" = dagId := by simpa using List.find?_some hdag
      decide
    · intro dagId taskId dag limit hdag
      cases hdag
    · intro dagId runId taskId dag limit hdag
      cases hdag
  have hsame : ∀ s s', SameLimits (fullPool s) (fullPool s') := fun _ _ => ⟨rfl, rfl, fun _ => rfl⟩
  have hcritical : Step (fullPool (some .running)) (fullPool (some .running)) :=
    .critical (fun _ _ => false) 1 ⟨[], (fullPool (some .running)).taskInstances⟩ rfl rfl
      (hsame _ _)
  have hend : Step (fullPool (some .running)) (fullPool (some .success)) :=
    .row (.move [] [] _ (some .success) rfl) (hsame _ _)
  exact within_of_run (.tail (.single hcritical) hend) hwithin

end Airflow.Queueing
