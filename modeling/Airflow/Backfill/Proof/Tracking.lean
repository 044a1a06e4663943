import Airflow.Backfill.Runner
import Mathlib.Data.List.Perm.Subperm

/-!
# What the backfill job tracks

The keys in `to_run` and `running` stand for distinct task instances (`Inv`). Looking at a candidate
and refreshing a running instance only move keys or drop them (`Shrinks`), and an expansion adds
instances that were not there before.
-/

namespace Airflow.Backfill

/-! ## Tracked instances -/

/-- The primary keys of what is in `to_run` and `running`. -/
def State.tracked (σ : State) : List PrimaryKey :=
  (σ.status.toRun ++ σ.status.running).map TaskInstanceKey.primary

/-- No instance with a map index is deleted. Unmapped ones are, when they are expanded. -/
def Database.Keeps (db db' : Database) : Prop :=
  ∀ p : PrimaryKey, 0 ≤ p.mapIndex → (db.tis.get? p).isSome → (db'.tis.get? p).isSome

theorem Database.Keeps.refl (db : Database) : db.Keeps db := fun _ _ h => h

theorem Database.Keeps.trans {db₁ db₂ db₃ : Database} (h : db₁.Keeps db₂) (h' : db₂.Keeps db₃) :
    db₁.Keeps db₃ := fun p hp hrow => h' p hp (h p hp hrow)

/-- What others do to the database keeps the mapped instances. -/
structure Environment.Keeps (env : Environment) : Prop where
  beforeLimits : ∀ key (db : Database), db.Keeps (env.beforeLimits key db)
  beforeProcess : ∀ key (db : Database), db.Keeps (env.beforeProcess key db)
  afterHeartbeat : ∀ db : Database, db.Keeps (env.afterHeartbeat db)
  beforeEvent : ∀ key (db : Database), db.Keeps (env.beforeEvent key db)
  beforeUpdate : ∀ db : Database, db.Keeps (env.beforeUpdate db)

variable {runner : BackfillJobRunner} {env : Environment} {σ σ' σ'' : State}
  {key k : TaskInstanceKey} {p : PrimaryKey} {ti : TaskInstance} {db : Database}

/-- The tracked instances are distinct and instances of tasks of the DAG, and the mapped ones have a
row. -/
structure Inv (runner : BackfillJobRunner) (σ : State) : Prop where
  nodup : σ.tracked.Nodup
  known : ∀ p ∈ σ.tracked, ∃ task ∈ runner.tasks, task.taskId = p.taskId
  rows : ∀ p ∈ σ.tracked, 0 ≤ p.mapIndex → (σ.db.tis.get? p).isSome

/-- No instance is tracked that was not, and none twice. -/
structure Shrinks (σ σ' : State) : Prop where
  tracked : σ'.tracked.Subperm σ.tracked
  keeps : σ.db.Keeps σ'.db

theorem Shrinks.refl (σ : State) : Shrinks σ σ := ⟨List.Subperm.refl _, .refl _⟩

theorem Shrinks.trans (h : Shrinks σ σ') (h' : Shrinks σ' σ'') : Shrinks σ σ'' :=
  ⟨h'.tracked.trans h.tracked, h.keeps.trans h'.keeps⟩

theorem Inv.shrinks (h : Inv runner σ) (hs : Shrinks σ σ') : Inv runner σ' where
  nodup := by
    obtain ⟨l, hperm, hsub⟩ := hs.tracked
    exact hperm.nodup_iff.mp (h.nodup.sublist hsub)
  known := fun p hp => h.known p (hs.tracked.subset hp)
  rows := fun p hp hindex => hs.keeps p hindex (h.rows p (hs.tracked.subset hp) hindex)

theorem Inv.eq_of_primary (h : Inv runner σ) {k : TaskInstanceKey}
    (hkey : key ∈ σ.status.toRun ++ σ.status.running)
    (hk : k ∈ σ.status.toRun ++ σ.status.running) (heq : key.primary = k.primary) : key = k :=
  List.inj_on_of_nodup_map h.nodup hkey hk heq

theorem Inv.apart (h : Inv runner σ) (hkey : key ∈ σ.status.toRun) : key ∉ σ.status.running := by
  have hnodup := h.nodup
  rw [State.tracked, List.map_append, List.nodup_append] at hnodup
  intro hrunning
  exact hnodup.2.2 _ (List.mem_map_of_mem hkey) _ (List.mem_map_of_mem hrunning) rfl

/-! ## One operation -/

theorem Database.keeps_setTi : db.Keeps (db.setTi p ti) := by
  intro q _ hq
  rw [Database.setTi, Dict.get?_set]
  split
  · rfl
  · exact hq

@[simp] theorem State.setTi_db : (σ.setTi p ti).db = σ.db.setTi p ti := rfl

theorem shrinks_db (h : σ.db.Keeps db) : Shrinks σ { σ with db } := ⟨List.Subperm.refl _, h⟩

theorem shrinks_setTi : Shrinks σ (σ.setTi p ti) := shrinks_db Database.keeps_setTi

theorem shrinks_popKey : Shrinks σ (σ.popKey key) :=
  ⟨((List.erase_sublist.append List.erase_sublist).map _).subperm, .refl _⟩

theorem shrinks_popRunning : Shrinks σ (σ.popRunning key) :=
  ⟨(((List.Sublist.refl _).append List.erase_sublist).map _).subperm, .refl _⟩

theorem shrinks_addSucceeded : Shrinks σ (σ.addSucceeded key) := ⟨List.Subperm.refl _, .refl _⟩

theorem shrinks_addSkipped : Shrinks σ (σ.addSkipped key) := ⟨List.Subperm.refl _, .refl _⟩

theorem shrinks_addFailed : Shrinks σ (σ.addFailed key) := ⟨List.Subperm.refl _, .refl _⟩

theorem shrinks_addNotReady : Shrinks σ (σ.addNotReady key) := ⟨List.Subperm.refl _, .refl _⟩

theorem mem_addKey {keys : List TaskInstanceKey} : k ∈ addKey keys key ↔ k ∈ keys ∨ k = key := by
  rw [addKey]
  split
  · rename_i hmem
    exact ⟨.inl, fun h => h.elim id fun heq => heq ▸ hmem⟩
  · simp

theorem addKey_of_mem {keys : List TaskInstanceKey} (h : key ∈ keys) : addKey keys key = keys :=
  if_pos h

theorem shrinks_addToRun (h : key ∈ σ.status.toRun) : Shrinks σ (σ.addToRun key) := by
  rw [State.addToRun, addKey_of_mem h]
  exact .refl _

/-- A key moves from `to_run` to `running`. -/
theorem subperm_queue {toRun running : List TaskInstanceKey} (h : key ∈ toRun) :
    ((toRun.erase key ++ addKey running key).map TaskInstanceKey.primary).Subperm
      ((toRun ++ running).map TaskInstanceKey.primary) := by
  by_cases hmem : key ∈ running
  · rw [addKey_of_mem hmem]
    exact ((List.erase_sublist.append (List.Sublist.refl _)).map _).subperm
  · rw [addKey, if_neg hmem, ← List.append_assoc]
    have hperm : (toRun.erase key ++ running ++ [key]).Perm (toRun ++ running) :=
      (List.perm_append_singleton key _).trans ((List.perm_cons_erase h).symm.append_right running)
    exact (hperm.map _).subperm

/-! ## A candidate -/

theorem checked_status : (BackfillJobRunner.checked env key ti σ).status = σ.status := by
  rw [BackfillJobRunner.checked]
  split <;> rfl

theorem checked_shrinks : Shrinks σ (BackfillJobRunner.checked env key ti σ) := by
  rw [BackfillJobRunner.checked]
  split
  · exact shrinks_setTi
  · exact .refl _

theorem queueTaskInstance_shrinks (h : key ∈ σ.status.toRun) :
    Shrinks σ (BackfillJobRunner.queueTaskInstance key ti σ) :=
  ⟨subperm_queue h, Database.keeps_setTi⟩

theorem notMet_shrinks (h : key ∈ σ.status.toRun) :
    Shrinks σ (BackfillJobRunner.notMet key ti σ) := by
  rw [BackfillJobRunner.notMet]
  split
  · exact shrinks_addFailed.trans shrinks_popKey
  · split
    · exact shrinks_popRunning.trans (shrinks_addToRun h)
    · exact shrinks_addNotReady

theorem processDependencies_shrinks (h : key ∈ σ.status.toRun) :
    Shrinks σ (BackfillJobRunner.processDependencies env key ti σ) := by
  have hkey : key ∈ (BackfillJobRunner.checked env key ti σ).status.toRun := by
    rwa [checked_status]
  rw [BackfillJobRunner.processDependencies]
  split
  · split
    · exact checked_shrinks
    · exact checked_shrinks.trans (queueTaskInstance_shrinks hkey)
  · exact checked_shrinks.trans (notMet_shrinks hkey)

theorem perTaskProcess_shrinks (h : key ∈ σ.status.toRun) :
    Shrinks σ (runner.perTaskProcess env key σ) := by
  simp only [BackfillJobRunner.perTaskProcess]
  split
  · exact shrinks_addSucceeded.trans shrinks_popKey
  · split
    · exact shrinks_addSkipped.trans shrinks_popKey
    · split
      · split
        · exact (shrinks_popRunning.trans shrinks_setTi).trans (processDependencies_shrinks h)
        · exact shrinks_addFailed.trans shrinks_popKey
      · exact processDependencies_shrinks h

theorem notMet_toRun (hne : k ≠ key) (h : k ∈ σ.status.toRun) :
    k ∈ (BackfillJobRunner.notMet key ti σ).status.toRun := by
  rw [BackfillJobRunner.notMet]
  split
  · exact (List.mem_erase_of_ne hne).mpr h
  · split
    · exact mem_addKey.mpr (.inl h)
    · exact h

theorem processDependencies_toRun (hne : k ≠ key) (h : k ∈ σ.status.toRun) :
    k ∈ (BackfillJobRunner.processDependencies env key ti σ).status.toRun := by
  have hkey : k ∈ (BackfillJobRunner.checked env key ti σ).status.toRun := by
    rwa [checked_status]
  rw [BackfillJobRunner.processDependencies]
  split
  · split
    · exact hkey
    · exact (List.mem_erase_of_ne hne).mpr hkey
  · exact notMet_toRun hne hkey

/-- A candidate stays in `to_run` while another one is processed. -/
theorem perTaskProcess_toRun (hne : k ≠ key) (h : k ∈ σ.status.toRun) :
    k ∈ (runner.perTaskProcess env key σ).status.toRun := by
  have herase := (List.mem_erase_of_ne hne).mpr h
  simp only [BackfillJobRunner.perTaskProcess]
  split
  · exact herase
  · split
    · exact herase
    · split
      · split
        · exact processDependencies_toRun hne h
        · exact herase
      · exact processDependencies_toRun hne h

/-! ## The candidates of an iteration -/

theorem lookAtKeys_shrinks (henv : env.Keeps) {task : Task} {keys : List TaskInstanceKey}
    (hnodup : keys.Nodup) (hkeys : ∀ key ∈ keys, key ∈ σ.status.toRun) :
    Shrinks σ (runner.lookAtKeys env task keys σ).1 := by
  induction keys generalizing σ with
  | nil => exact .refl _
  | cons key keys ih =>
    rw [List.nodup_cons] at hnodup
    rw [BackfillJobRunner.lookAtKeys]
    have hlimits := shrinks_db (σ := σ) (henv.beforeLimits key σ.db)
    split
    · exact hlimits
    · have hprocess := shrinks_db (σ := σ)
        ((henv.beforeLimits key σ.db).trans (henv.beforeProcess key _))
      have hkey := hkeys key List.mem_cons_self
      refine (hprocess.trans (perTaskProcess_shrinks hkey)).trans (ih hnodup.2 fun k hk => ?_)
      have hne : k ≠ key := fun heq => hnodup.1 (heq ▸ hk)
      exact perTaskProcess_toRun hne (hkeys k (List.mem_cons_of_mem _ hk))

theorem Inv.toRun_nodup (h : Inv runner σ) : σ.status.toRun.Nodup := by
  have hnodup := List.Nodup.of_map _ h.nodup
  exact (List.nodup_append.mp hnodup).1

theorem lookAtTasks_shrinks (henv : env.Keeps) {tasks : List Task} (h : Inv runner σ) :
    Shrinks σ (runner.lookAtTasks env tasks σ).1 := by
  induction tasks generalizing σ with
  | nil => exact .refl _
  | cons task tasks ih =>
    have hkeys : Shrinks σ (runner.lookAtKeys env task
        (σ.status.toRun.filter (·.taskId = task.taskId)) σ).1 :=
      lookAtKeys_shrinks henv (h.toRun_nodup.filter _) fun key hkey => (List.mem_filter.mp hkey).1
    rw [BackfillJobRunner.lookAtTasks]
    generalize runner.lookAtKeys env task _ σ = result at hkeys
    obtain ⟨σ', raised⟩ := result
    cases raised with
    | some e => exact hkeys
    | none => exact hkeys.trans (ih (h.shrinks hkeys))

theorem findDeadlock_shrinks : Shrinks σ (BackfillJobRunner.findDeadlock σ) := by
  simp only [BackfillJobRunner.findDeadlock]
  split
  · exact ⟨((List.nil_sublist _).append (List.Sublist.refl _)).map _ |>.subperm, .refl _⟩
  · exact .refl _

/-! ## Expansion -/

section Expand

variable {node : Task} {runId : String} {totalLength : Option Nat} {partialDag : Bool}
  {db' : Database} {new : List PrimaryKey} {state : TIState} {maxMapIndex : Int}

@[simp] theorem Database.get?_setTi {q : PrimaryKey} :
    (db.setTi p ti).tis.get? q = if q = p then some ti else db.tis.get? q := Dict.get?_set

/-- What an expansion does to the database, and the instances that it reports. -/
structure Expands (node : Task) (runId : String) (db db' : Database) (new : List PrimaryKey) :
    Prop where
  keeps : db.Keeps db'
  nodup : new.Nodup
  fresh : ∀ p ∈ new, db.tis.get? p = none
  mapped : ∀ p ∈ new, 0 ≤ p.mapIndex
  node : ∀ p ∈ new, p = node.instanceKey runId p.mapIndex
  rows : ∀ p ∈ new, (db'.tis.get? p).isSome

theorem Expands.nothing (h : db.Keeps db') : Expands node runId db db' [] :=
  ⟨h, List.nodup_nil, by simp, by simp, by simp, by simp⟩

theorem Database.keeps_erase_unmapped :
    db.Keeps { db with tis := db.tis.erase (node.instanceKey runId (-1)) } := by
  intro q hq hrow
  have hne : q ≠ node.instanceKey runId (-1) := by
    intro heq
    simp [heq, Task.instanceKey] at hq
  rwa [Dict.get?_erase, if_neg hne]

theorem expandUnmapped_expands (h : expandUnmapped node runId totalLength partialDag db =
    (db', new, state)) : Expands node runId db db' new := by
  simp only [expandUnmapped] at h
  split at h
  · cases h
    exact .nothing (.refl _)
  · split at h
    · cases h
      exact .nothing (.refl _)
    · split at h
      · cases h
        apply Expands.nothing
        split
        · exact .refl _
        · exact Database.keeps_setTi
      · cases h
        exact .nothing Database.keeps_setTi
      · split at h
        · cases h
          exact .nothing Database.keeps_erase_unmapped
        · rename_i hzero
          cases h
          refine ⟨Database.keeps_erase_unmapped.trans Database.keeps_setTi,
            List.nodup_singleton _, ?_, ?_, ?_, ?_⟩
          · simpa using hzero
          · simp [Task.instanceKey]
          · simp [Task.instanceKey]
          · simp

theorem keeps_removeInapplicable : db.Keeps (removeInapplicable node runId totalLength db) := by
  rw [removeInapplicable]
  generalize db.tis.keys.filter _ = keys
  induction keys generalizing db with
  | nil => exact .refl _
  | cons key keys ih =>
    rw [List.foldl_cons]
    refine Database.Keeps.trans ?_ ih
    split
    · exact Database.keeps_setTi
    · exact .refl _

/-- The rows that are created. -/
theorem get?_foldl_setTi {ti : TaskInstance} {q : PrimaryKey} :
    (new.foldl (fun db primary => db.setTi primary ti) db).tis.get? q =
      if q ∈ new then some ti else db.tis.get? q := by
  induction new generalizing db with
  | nil => simp
  | cons p new ih =>
    rw [List.foldl_cons, ih, Database.get?_setTi]
    by_cases hmem : q ∈ new
    · simp [hmem]
    · simp [hmem]

theorem keeps_foldl_setTi {ti : TaskInstance} :
    db.Keeps (new.foldl (fun db primary => db.setTi primary ti) db) := by
  intro q _ hrow
  rw [get?_foldl_setTi]
  split
  · rfl
  · exact hrow

/-- The indexes above the greatest one are new. -/
theorem get?_of_currentMax_lt {currentMax index : Int}
    (hmax : currentMaxMapping node runId db = some currentMax) (h : currentMax < index) :
    db.tis.get? (node.instanceKey runId index) = none := by
  rw [Dict.get?_eq_none]
  intro hmem
  have hindex : index ∈ (db.tis.keys.filter (node.isInstance runId)).map PrimaryKey.mapIndex :=
    List.mem_map.mpr ⟨_, List.mem_filter.mpr ⟨hmem, by simp [Task.isInstance, Task.instanceKey]⟩,
      rfl⟩
  have hle := (List.max?_eq_some_iff.mp hmax).2 index hindex
  omega

/-- More instances are created, with indexes above all that are there. -/
theorem Expands.create {db₁ : Database} {expanded : List PrimaryKey} {currentMax : Int} {n : Nat}
    (h : Expands node runId db db₁ expanded)
    (hmax : currentMaxMapping node runId db₁ = some currentMax)
    (hnew : new = ((List.range n).filter fun (index : Nat) => currentMax < (index : Int)).map
      fun (index : Nat) => node.instanceKey runId (index : Int)) :
    Expands node runId db (new.foldl (fun db primary => db.setTi primary ti) db₁)
      (expanded ++ new) := by
  have hfresh : ∀ p ∈ new, db₁.tis.get? p = none := by
    intro p hp
    rw [hnew] at hp
    obtain ⟨index, hindex, rfl⟩ := List.mem_map.mp hp
    exact get?_of_currentMax_lt hmax (by simpa using (List.mem_filter.mp hindex).2)
  have hmapped : ∀ p ∈ new, 0 ≤ p.mapIndex ∧ p = node.instanceKey runId p.mapIndex := by
    intro p hp
    rw [hnew] at hp
    obtain ⟨index, -, rfl⟩ := List.mem_map.mp hp
    exact ⟨Int.natCast_nonneg index, rfl⟩
  have hnodup : new.Nodup := by
    rw [hnew]
    refine (List.nodup_range.filter _).map ?_
    intro i j hij
    exact Int.ofNat_inj.mp (congrArg PrimaryKey.mapIndex hij)
  refine ⟨h.keeps.trans keeps_foldl_setTi, ?_, ?_, ?_, ?_, ?_⟩
  · refine List.nodup_append.mpr ⟨h.nodup, hnodup, ?_⟩
    intro p hp q hq heq
    have hrow := h.rows p hp
    rw [heq, hfresh q hq] at hrow
    cases hrow
  · intro p hp
    rcases List.mem_append.mp hp with hp | hp
    · exact h.fresh p hp
    · cases hget : db.tis.get? p with
      | none => rfl
      | some ti =>
        have hrow := h.keeps p (hmapped p hp).1 (by rw [hget]; rfl)
        rw [hfresh p hp] at hrow
        cases hrow
  · intro p hp
    rcases List.mem_append.mp hp with hp | hp
    · exact h.mapped p hp
    · exact (hmapped p hp).1
  · intro p hp
    rcases List.mem_append.mp hp with hp | hp
    · exact h.node p hp
    · exact (hmapped p hp).2
  · intro p hp
    rw [get?_foldl_setTi]
    split
    · rfl
    · rename_i hout
      exact h.rows p ((List.mem_append.mp hp).resolve_right hout)

theorem Expands.removeInapplicable {total : Option Nat} (h : Expands node runId db db' new) :
    Expands node runId db (removeInapplicable node runId total db') new where
  keeps := h.keeps.trans keeps_removeInapplicable
  nodup := h.nodup
  fresh := h.fresh
  mapped := h.mapped
  node := h.node
  rows := fun p hp => keeps_removeInapplicable p (h.mapped p hp) (h.rows p hp)

theorem expandMappedTask_expands
    (h : expandMappedTask node runId totalLength partialDag db = some (db', new, maxMapIndex)) :
    Expands node runId db db' new := by
  simp only [expandMappedTask] at h
  cases hun : expandUnmapped node runId totalLength partialDag db with
  | mk db₁ rest =>
    obtain ⟨expanded, state⟩ := rest
    have hexp := expandUnmapped_expands hun
    rw [hun] at h
    simp only at h
    split at h
    · cases h
      exact hexp.removeInapplicable
    · cases h
      exact hexp.removeInapplicable
    · obtain ⟨currentMax, hmax, heq⟩ := Option.map_eq_some_iff.mp h
      cases heq
      exact (hexp.create hmax rfl).removeInapplicable

/-! ### What the loop does about it -/

theorem foldl_addKey {keys added : List TaskInstanceKey} (h : (keys ++ added).Nodup) :
    added.foldl addKey keys = keys ++ added := by
  induction added generalizing keys with
  | nil => simp
  | cons key added ih =>
    have hnot : key ∉ keys := by
      intro hmem
      exact (List.nodup_append.mp h).2.2 key hmem key List.mem_cons_self rfl
    rw [List.foldl_cons, addKey, if_neg hnot, ih (by simpa using h)]
    simp

theorem primary_newKeys {db : Database} :
    (((new.filterMap fun primary => (db.tis.get? primary).map (primary, ·)).map
      fun e => e.2.key e.1).map TaskInstanceKey.primary).Sublist new := by
  induction new with
  | nil => simp
  | cons p new ih =>
    cases hget : db.tis.get? p with
    | none => simpa [hget] using ih.cons p
    | some ti =>
      simpa [hget, TaskInstance.key] using ih.cons_cons p

theorem keeps_foldl_setState {db : Database} {tis : List (PrimaryKey × TaskInstance)}
    {state : TIState} :
    db.Keeps (tis.foldl (fun db e => db.setTi e.1 (e.2.withState state)) db) := by
  induction tis generalizing db with
  | nil => exact .refl _
  | cons e tis ih => exact Database.keeps_setTi.trans ih

/-- The instances of an expansion were not tracked. -/
theorem Expands.not_tracked (hexp : Expands node runId σ.db db' new) (h : Inv runner σ) :
    ∀ p ∈ σ.tracked, p ∉ new := by
  intro p hp hnew
  have hrow := h.rows p hp (hexp.mapped p hnew)
  rw [hexp.fresh p hnew] at hrow
  cases hrow

/-- Dropping keys from `to_run` and adding those of an expansion keeps the invariant. -/
theorem Inv.expand (hnode : node ∈ runner.tasks) (h : Inv runner σ)
    (hexp : Expands node runId σ.db db' new) {newKeys : List TaskInstanceKey}
    (hsub : (newKeys.map TaskInstanceKey.primary).Sublist new) (hkeeps : db'.Keeps db)
    (keep : TaskInstanceKey → Bool) :
    Inv runner { σ with
      status := { σ.status with toRun := newKeys.foldl addKey (σ.status.toRun.filter keep) }
      db } := by
  have hold : ((σ.status.toRun.filter keep ++ σ.status.running).map
      TaskInstanceKey.primary).Sublist σ.tracked :=
    (List.filter_sublist.append (List.Sublist.refl _)).map _
  have hperm : (σ.status.toRun.filter keep ++ newKeys ++ σ.status.running).Perm
      (σ.status.toRun.filter keep ++ σ.status.running ++ newKeys) := by
    rw [List.append_assoc, List.append_assoc]
    exact List.perm_append_comm.append_left _
  have hnodup : ((σ.status.toRun.filter keep ++ newKeys ++ σ.status.running).map
      TaskInstanceKey.primary).Nodup := by
    rw [(hperm.map _).nodup_iff, List.map_append, List.nodup_append]
    refine ⟨h.nodup.sublist hold, hexp.nodup.sublist hsub, ?_⟩
    intro p hp q hq heq
    exact hexp.not_tracked h p (hold.subset hp) (heq ▸ hsub.subset hq)
  have htoRun : newKeys.foldl addKey (σ.status.toRun.filter keep) =
      σ.status.toRun.filter keep ++ newKeys := by
    apply foldl_addKey
    exact (List.nodup_append.mp (List.Nodup.of_map _ hnodup)).1
  rw [htoRun]
  have hcases : ∀ p ∈ ((σ.status.toRun.filter keep ++ newKeys ++ σ.status.running).map
      TaskInstanceKey.primary), p ∈ σ.tracked ∨ p ∈ new := by
    intro p hp
    rw [(hperm.map _).mem_iff, List.map_append, List.mem_append] at hp
    exact hp.imp (fun hp => hold.subset hp) fun hp => hsub.subset hp
  refine ⟨hnodup, ?_, ?_⟩
  · intro p hp
    rcases hcases p hp with hp | hp
    · exact h.known p hp
    · exact ⟨node, hnode, by rw [hexp.node p hp]; rfl⟩
  · intro p hp hindex
    rcases hcases p hp with hp | hp
    · exact hkeeps p hindex (hexp.keeps p hindex (h.rows p hp hindex))
    · exact hkeeps p hindex (hexp.rows p hp)

theorem replaceMapped_inv (hnode : node ∈ runner.tasks) (h : Inv runner σ)
    (hexp : Expands node runId σ.db db' new) :
    Inv runner
      (BackfillJobRunner.replaceMapped node runId new maxMapIndex { σ with db := db' }) :=
  h.expand hnode hexp primary_newKeys keeps_foldl_setState _

end Expand

/-! ## The executor's events -/

/-- The nodes that are expanded are tasks of the DAG. -/
def BackfillJobRunner.NodesKnown (runner : BackfillJobRunner) : Prop :=
  ∀ taskId, ∀ node ∈ runner.mappedDependants taskId, node ∈ runner.tasks

theorem expandDependants_inv {nodes : List Task} (hnodes : ∀ node ∈ nodes, node ∈ runner.tasks)
    (h : Inv runner σ) (hrun : runner.expandDependants env key nodes σ = some σ') :
    Inv runner σ' := by
  induction nodes generalizing σ with
  | nil =>
    cases hrun
    exact h
  | cons node nodes ih =>
    rw [BackfillJobRunner.expandDependants] at hrun
    obtain ⟨⟨db', new, maxMapIndex⟩, hexpand, hrest⟩ := Option.bind_eq_some_iff.mp hrun
    exact ih (fun n hn => hnodes n (List.mem_cons_of_mem _ hn))
      (replaceMapped_inv (hnodes node List.mem_cons_self) h (expandMappedTask_expands hexpand))
      hrest

theorem manageExecutorState_inv (henv : env.Keeps) (hnodes : runner.NodesKnown)
    {events : List (TaskInstanceKey × TaskInstanceState)} {dict : Dict PrimaryKey TaskInstance}
    (h : Inv runner σ) (hrun : runner.manageExecutorState env events dict σ = some σ') :
    Inv runner σ' := by
  induction events generalizing σ dict with
  | nil =>
    cases hrun
    exact h
  | cons event events ih =>
    obtain ⟨key, state⟩ := event
    rw [BackfillJobRunner.manageExecutorState] at hrun
    split at hrun
    · exact ih h hrun
    · have hevent := h.shrinks (shrinks_db (henv.beforeEvent key σ.db))
      simp only at hrun
      split at hrun
      · exact ih (hevent.shrinks shrinks_setTi) hrun
      · split at hrun
        · obtain ⟨σ₁, hexpand, hrest⟩ := Option.bind_eq_some_iff.mp hrun
          exact ih (expandDependants_inv (hnodes _) hevent hexpand) hrest
        · exact ih hevent hrun

theorem disableRetries_shrinks {keys : List TaskInstanceKey} :
    Shrinks σ (runner.disableRetries env keys σ) := by
  induction keys generalizing σ with
  | nil => exact .refl _
  | cons key keys ih =>
    rw [BackfillJobRunner.disableRetries]
    refine Shrinks.trans ?_ ih
    split
    · exact shrinks_setTi
    · exact .refl _

/-- **An iteration keeps the invariant up to `_update_counters`.** -/
theorem beforeUpdateCounters_inv (henv : env.Keeps) (hnodes : runner.NodesKnown)
    (h : Inv runner σ) (hrun : runner.beforeUpdateCounters env σ = some σ') : Inv runner σ' := by
  have hcleared : Inv runner σ.clearNotReady := h.shrinks ⟨List.Subperm.refl _, .refl _⟩
  have hlooked : Inv runner (runner.lookAtTasks env runner.tasks σ.clearNotReady).1 :=
    hcleared.shrinks (lookAtTasks_shrinks henv hcleared)
  simp only [BackfillJobRunner.beforeUpdateCounters] at hrun
  split at hrun
  · cases hrun
  · obtain ⟨σ₁, hmanage, rfl⟩ := Option.map_eq_some_iff.mp hrun
    have hdeadlock := (hlooked.shrinks (shrinks_db (henv.afterHeartbeat _))).shrinks
      findDeadlock_shrinks
    have hmanaged := manageExecutorState_inv henv hnodes hdeadlock hmanage
    exact (hmanaged.shrinks disableRetries_shrinks).shrinks (shrinks_db (henv.beforeUpdate _))

end Airflow.Backfill
