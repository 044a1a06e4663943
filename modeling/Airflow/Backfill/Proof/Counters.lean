import Airflow.Backfill.Proof.Tracking

/-!
# When the backfill job loses no task

`_update_counters` takes an instance out of `running` in every state for which it has a branch; an
instance that it finds `UPSTREAM_FAILED` or `REMOVED` stays there (`bookkeepingOk_iff`). Over whole
runs, nothing finished stays in `running` exactly if no refresh finds such an instance, and then the
loop ends once every instance is finished (`losesNoTask_iff`).
-/

namespace Airflow.Backfill

open BackfillJobRunner

variable {runner : BackfillJobRunner} {env : Environment} {σ σ' : State}
  {key k : TaskInstanceKey} {p : PrimaryKey} {ti : TaskInstance}
  {refreshed : List (PrimaryKey × TaskInstance)} {running : List TaskInstanceKey}

/-! ## One refreshed instance -/

/-- The states for which `_update_counters` has a branch. -/
def leavesRunning : TIState → Bool
  | some .success | some .skipped | some .failed | some .upForRetry | some .upForReschedule | none
  | some .scheduled => true
  | _ => false

theorem mem_of_tiKeyOf (h : tiKeyOf running p = some key) : key ∈ running ∧ key.primary = p := by
  have hmem := List.mem_filter.mp (List.mem_of_getLast? h)
  simpa using hmem

theorem tiKeyOf_eq_some (hunique : ∀ k ∈ running, k.primary = key.primary → k = key)
    (hkey : key ∈ running) : tiKeyOf running key.primary = some key := by
  have hne : running.filter (·.primary = key.primary) ≠ [] :=
    List.ne_nil_of_mem (List.mem_filter.mpr ⟨hkey, by simp⟩)
  obtain ⟨last, hlast⟩ := Option.isSome_iff_exists.mp (List.getLast?_isSome.mpr hne)
  have hmem := mem_of_tiKeyOf hlast
  rw [tiKeyOf, hlast, hunique last hmem.1 hmem.2]

theorem updateCounter_db {e : PrimaryKey × TaskInstance} :
    (updateCounter running σ e).db = σ.db := by
  rw [updateCounter]
  split
  · rfl
  · split <;> rfl

theorem updateCounter_running {e : PrimaryKey × TaskInstance} :
    (updateCounter running σ e).status.running =
      if leavesRunning e.2.state then
        (tiKeyOf running e.1).elim σ.status.running (σ.status.running.erase ·)
      else σ.status.running := by
  obtain ⟨p, ti⟩ := e
  cases hkey : tiKeyOf running p with
  | none => simp [updateCounter, hkey]
  | some key =>
    simp only [updateCounter, hkey, Option.elim]
    cases hstate : ti.state with
    | none => rfl
    | some s => cases s <;> rfl

/-- A key moves from `running` to `to_run` with the number of another try. -/
theorem subperm_requeue {toRun : List TaskInstanceKey} (hkey : key ∈ running)
    (hprimary : k.primary = key.primary) :
    ((addKey toRun k ++ running.erase key).map TaskInstanceKey.primary).Subperm
      ((toRun ++ running).map TaskInstanceKey.primary) := by
  by_cases hmem : k ∈ toRun
  · rw [addKey_of_mem hmem]
    exact (((List.Sublist.refl _).append List.erase_sublist).map _).subperm
  · rw [addKey, if_neg hmem]
    have hperm : (toRun ++ (key :: running.erase key)).Perm (toRun ++ running) :=
      (List.perm_cons_erase hkey).symm.append_left _
    have hmap := hperm.map TaskInstanceKey.primary
    simp only [List.map_append, List.map_cons, ← hprimary] at hmap
    simpa using hmap.subperm

theorem updateCounter_shrinks {e : PrimaryKey × TaskInstance}
    (h : ∀ k, tiKeyOf running e.1 = some k → k ∈ σ.status.running) :
    Shrinks σ (updateCounter running σ e) := by
  obtain ⟨p, ti⟩ := e
  rw [updateCounter]
  split
  · exact .refl _
  · rename_i key hkey
    have hrequeue : Shrinks σ ((σ.popRunning key).addToRun (ti.key p)) :=
      ⟨subperm_requeue (h key hkey) (mem_of_tiKeyOf hkey).2.symm, .refl _⟩
    split
    · exact shrinks_addSucceeded.trans shrinks_popRunning
    · exact shrinks_addSkipped.trans shrinks_popRunning
    · exact shrinks_addFailed.trans shrinks_popRunning
    · exact hrequeue
    · exact hrequeue
    · exact hrequeue
    · exact hrequeue
    · exact .refl _

/-- Another key stays in `running`. -/
theorem mem_updateCounter_running {e : PrimaryKey × TaskInstance} (hne : k.primary ≠ e.1) :
    k ∈ (updateCounter running σ e).status.running ↔ k ∈ σ.status.running := by
  rw [updateCounter_running]
  split
  · cases hkey : tiKeyOf running e.1 with
    | none => exact Iff.rfl
    | some key =>
      have hkne : k ≠ key := by
        intro heq
        apply hne
        rw [heq, (mem_of_tiKeyOf hkey).2]
      exact List.mem_erase_of_ne hkne
  · exact Iff.rfl

/-! ## All refreshed instances -/

theorem foldl_updateCounter_db : (refreshed.foldl (updateCounter running) σ).db = σ.db := by
  induction refreshed generalizing σ with
  | nil => rfl
  | cons e refreshed ih => rw [List.foldl_cons, ih, updateCounter_db]

theorem foldl_updateCounter_running_sub :
    (refreshed.foldl (updateCounter running) σ).status.running ⊆ σ.status.running := by
  induction refreshed generalizing σ with
  | nil => exact List.Subset.refl _
  | cons e refreshed ih =>
    refine List.Subset.trans ih ?_
    rw [updateCounter_running]
    split
    · cases tiKeyOf running e.1 with
      | none => exact List.Subset.refl _
      | some key => exact List.erase_subset
    · exact List.Subset.refl _

theorem foldl_updateCounter_shrinks (hnodup : (refreshed.map Prod.fst).Nodup)
    (h : ∀ e ∈ refreshed, ∀ k, tiKeyOf running e.1 = some k → k ∈ σ.status.running) :
    Shrinks σ (refreshed.foldl (updateCounter running) σ) := by
  induction refreshed generalizing σ with
  | nil => exact .refl _
  | cons e refreshed ih =>
    rw [List.map_cons, List.nodup_cons] at hnodup
    rw [List.foldl_cons]
    refine (updateCounter_shrinks (h e List.mem_cons_self)).trans (ih hnodup.2 ?_)
    intro e' he' k hk
    have hne : k.primary ≠ e.1 := by
      rw [(mem_of_tiKeyOf hk).2]
      intro heq
      exact hnodup.1 (heq ▸ List.mem_map_of_mem he')
    exact (mem_updateCounter_running hne).mpr (h e' (List.mem_cons_of_mem _ he') k hk)

/-- A key stays in `running` exactly if there is no branch for the state of its instance. -/
theorem mem_foldl_updateCounter_running (hnodup : (refreshed.map Prod.fst).Nodup)
    (hrunning : σ.status.running.Nodup) (hkey : tiKeyOf running k.primary = some k) :
    k ∈ (refreshed.foldl (updateCounter running) σ).status.running ↔
      k ∈ σ.status.running ∧
        ∀ ti, (k.primary, ti) ∈ refreshed → leavesRunning ti.state = false := by
  induction refreshed generalizing σ with
  | nil => simp
  | cons e refreshed ih =>
    rw [List.map_cons, List.nodup_cons] at hnodup
    obtain ⟨p, ti⟩ := e
    have hrunning' : (updateCounter running σ (p, ti)).status.running.Nodup := by
      rw [updateCounter_running]
      split
      · cases tiKeyOf running (p, ti).1 with
        | none => exact hrunning
        | some key => exact hrunning.erase key
      · exact hrunning
    rw [List.foldl_cons, ih hnodup.2 hrunning']
    by_cases hp : k.primary = p
    · subst hp
      rw [updateCounter_running, hkey]
      cases hleaves : leavesRunning ti.state with
      | true =>
        simp only [if_true, Option.elim, hrunning.mem_erase_iff, List.mem_cons, Prod.mk.injEq,
          true_and, forall_eq_or_imp, hleaves]
        simp
      | false =>
        simp only [Bool.false_eq_true, if_false, List.mem_cons, Prod.mk.injEq, true_and,
          forall_eq_or_imp, hleaves]
    · rw [mem_updateCounter_running hp]
      simp [List.mem_cons, hp]

/-! ## `_update_counters` -/

theorem mem_refreshedTis : (p, ti) ∈ refreshedTis σ ↔
    σ.db.tis.get? p = some ti ∧ p ∈ σ.status.running.map TaskInstanceKey.primary := by
  rw [refreshedTis, List.mem_filter, decide_eq_true_iff, Dict.get?_eq_some]

theorem refreshedTis_nodup : ((refreshedTis σ).map Prod.fst).Nodup :=
  σ.db.tis.keys_nodup.sublist (List.filter_sublist.map _)

theorem Inv.running_nodup (h : Inv runner σ) : σ.status.running.Nodup :=
  (List.nodup_append.mp (List.Nodup.of_map _ h.nodup)).2.1

theorem Inv.tiKeyOf (h : Inv runner σ) (hkey : key ∈ σ.status.running) :
    tiKeyOf σ.status.running key.primary = some key :=
  tiKeyOf_eq_some (fun _ hk heq => h.eq_of_primary (List.mem_append_right _ hk)
    (List.mem_append_right _ hkey) heq) hkey

/-- The batch that is scheduled at the end. -/
theorem setScheduled_status {tis : List (PrimaryKey × TaskInstance)} {s : TIState} :
    (tis.foldl (fun σ e => σ.setTi e.1 (e.2.withState s)) σ).status = σ.status := by
  induction tis generalizing σ with
  | nil => rfl
  | cons e tis ih => exact ih

theorem setScheduled_get? {tis : List (PrimaryKey × TaskInstance)} {s : TIState}
    (h : (tis.foldl (fun σ e => σ.setTi e.1 (e.2.withState s)) σ).db.tis.get? p = some ti) :
    ti.state = s ∨ σ.db.tis.get? p = some ti := by
  induction tis generalizing σ with
  | nil => exact .inr h
  | cons e tis ih =>
    rcases ih h with hs | hget
    · exact .inl hs
    · rw [State.setTi_db, Database.get?_setTi] at hget
      split at hget
      · cases hget
        exact .inl rfl
      · exact .inr hget

theorem setScheduled_get?_of_not_mem {tis : List (PrimaryKey × TaskInstance)} {s : TIState}
    (h : ∀ e ∈ tis, e.1 ≠ p) :
    (tis.foldl (fun σ e => σ.setTi e.1 (e.2.withState s)) σ).db.tis.get? p =
      σ.db.tis.get? p := by
  induction tis generalizing σ with
  | nil => rfl
  | cons e tis ih =>
    rw [List.foldl_cons, ih fun e he => h e (List.mem_cons_of_mem _ he), State.setTi_db,
      Database.get?_setTi, if_neg (Ne.symm (h e List.mem_cons_self))]

theorem setScheduled_shrinks {tis : List (PrimaryKey × TaskInstance)} {s : TIState} :
    Shrinks σ (tis.foldl (fun σ e => σ.setTi e.1 (e.2.withState s)) σ) := by
  induction tis generalizing σ with
  | nil => exact .refl _
  | cons e tis ih => exact shrinks_setTi.trans ih

theorem updateCounters_inv (h : Inv runner σ) : Inv runner (updateCounters σ) := by
  refine h.shrinks ((foldl_updateCounter_shrinks refreshedTis_nodup ?_).trans setScheduled_shrinks)
  intro e _ k hk
  exact (mem_of_tiKeyOf hk).1

/-- What stays in `running`. -/
theorem mem_updateCounters_running (h : Inv runner σ) :
    key ∈ (updateCounters σ).status.running ↔ key ∈ σ.status.running ∧
      ∀ ti, σ.db.tis.get? key.primary = some ti → leavesRunning ti.state = false := by
  rw [updateCounters, setScheduled_status]
  constructor
  · intro hmem
    have hsub := foldl_updateCounter_running_sub hmem
    have hstays := (mem_foldl_updateCounter_running refreshedTis_nodup h.running_nodup
      (h.tiKeyOf hsub)).mp hmem
    exact ⟨hsub, fun ti hget => hstays.2 ti
      (mem_refreshedTis.mpr ⟨hget, List.mem_map_of_mem hsub⟩)⟩
  · rintro ⟨hkey, hstate⟩
    refine (mem_foldl_updateCounter_running refreshedTis_nodup h.running_nodup
      (h.tiKeyOf hkey)).mpr ⟨hkey, fun ti hmem => hstate ti (mem_refreshedTis.mp hmem).1⟩

theorem updateCounters_get? (h : (updateCounters σ).db.tis.get? p = some ti) :
    ti.state = some .scheduled ∨ σ.db.tis.get? p = some ti := by
  rcases setScheduled_get? h with hs | hget
  · exact .inl hs
  · rw [foldl_updateCounter_db] at hget
    exact .inr hget

theorem updateCounters_get?_of_state (hget : σ.db.tis.get? p = some ti) (hstate : ti.state ≠ none) :
    (updateCounters σ).db.tis.get? p = some ti := by
  rw [updateCounters, setScheduled_get?_of_not_mem, foldl_updateCounter_db, hget]
  intro e he heq
  obtain ⟨hmem, hnone⟩ := List.mem_filter.mp he
  have hrow := (mem_refreshedTis.mp hmem).1
  rw [heq, hget] at hrow
  cases hrow
  exact hstate (by simpa using hnone)

/-! ## The end of an iteration -/

/-- No key is in both dicts, and nothing that is finished stays in `running`. -/
structure BookkeepingOk (σ : State) : Prop where
  apart : ∀ key ∈ σ.status.toRun, key ∉ σ.status.running
  noneStays : ∀ key ∈ σ.status.running, ∀ ti, σ.db.tis.get? key.primary = some ti →
    State.isFinished ti.state = false

/-- No running instance is in one of the two finished states that `_update_counters` has no branch
for. -/
def NoneOutsideBranches (σ : State) : Prop :=
  ∀ key ∈ σ.status.running, ∀ ti, σ.db.tis.get? key.primary = some ti →
    ti.state ≠ some .upstreamFailed ∧ ti.state ≠ some .removed

/-- **The bookkeeping is right at the end of an iteration exactly if `_update_counters` finds no
running instance that is `UPSTREAM_FAILED` or `REMOVED`.** -/
theorem bookkeepingOk_iff (h : Inv runner σ) :
    BookkeepingOk (updateCounters σ) ↔ NoneOutsideBranches σ := by
  constructor
  · intro hok key hkey ti hget
    refine ⟨fun hstate => ?_, fun hstate => ?_⟩ <;>
    · have hstays : key ∈ (updateCounters σ).status.running := by
        refine (mem_updateCounters_running h).mpr ⟨hkey, fun ti' hget' => ?_⟩
        rw [hget] at hget'
        cases hget'
        rw [hstate]
        rfl
      have hrow := updateCounters_get?_of_state hget (by rw [hstate]; simp)
      have hfinished := hok.noneStays key hstays ti hrow
      rw [hstate] at hfinished
      cases hfinished
  · intro hnone
    refine ⟨fun key hkey => (updateCounters_inv h).apart hkey, fun key hkey ti hget => ?_⟩
    obtain ⟨hrunning, hleaves⟩ := (mem_updateCounters_running h).mp hkey
    rcases updateCounters_get? hget with hstate | hrow
    · rw [hstate]
      rfl
    · have hstate := hleaves ti hrow
      obtain ⟨hupstream, hremoved⟩ := hnone key hrunning ti hrow
      cases hti : ti.state with
      | none => rfl
      | some s =>
        rw [hti] at hstate hupstream hremoved
        cases s <;> first | rfl | exact absurd rfl hupstream | exact absurd rfl hremoved | cases hstate

/-! ## The exit -/

/-- Every tracked instance is finished. -/
def AllFinished (σ : State) : Prop :=
  ∀ key ∈ σ.status.toRun ++ σ.status.running, ∃ ti, σ.db.tis.get? key.primary = some ti ∧
    State.isFinished ti.state = true

/-- The others leave what is finished as it is. -/
structure Environment.LeavesFinished (env : Environment) : Prop where
  beforeLimits : ∀ key (db : Database) p ti, db.tis.get? p = some ti →
    State.isFinished ti.state = true → (env.beforeLimits key db).tis.get? p = some ti
  beforeProcess : ∀ key (db : Database) p ti, db.tis.get? p = some ti →
    State.isFinished ti.state = true → (env.beforeProcess key db).tis.get? p = some ti

/-- The instance is finished, and not so that it is run again. -/
def IsFinal (runner : BackfillJobRunner) (ti : TaskInstance) : Prop :=
  State.isFinished ti.state = true ∧
    (runner.rerunFailedTasks = true → State.isFailed ti.state = false)

/-- Nothing is running, and every instance in `to_run` is final. -/
structure Exiting (runner : BackfillJobRunner) (σ : State) : Prop where
  nodup : (σ.status.toRun.map TaskInstanceKey.primary).Nodup
  running : σ.status.running = []
  final : ∀ key ∈ σ.status.toRun, ∃ ti, σ.db.tis.get? key.primary = some ti ∧ IsFinal runner ti
  notReady : ∀ key ∈ σ.status.notReady, key ∈ σ.status.toRun

/-- Candidates only leave `to_run`, or become not ready. -/
structure Settles (runner : BackfillJobRunner) (σ σ' : State) : Prop where
  exiting : Exiting runner σ'
  deadlocked : σ'.status.deadlocked = σ.status.deadlocked
  toRun : σ'.status.toRun ⊆ σ.status.toRun
  notReady : ∀ key ∈ σ.status.notReady, key ∈ σ'.status.toRun → key ∈ σ'.status.notReady

/-- The candidate has been looked at: it left, or it is not ready. -/
def Looked (key : TaskInstanceKey) (σ : State) : Prop :=
  key ∈ σ.status.toRun → key ∈ σ.status.notReady

theorem Settles.trans {σ'' : State} (h : Settles runner σ σ') (h' : Settles runner σ' σ'') :
    Settles runner σ σ'' :=
  ⟨h'.exiting, h'.deadlocked.trans h.deadlocked, List.Subset.trans h'.toRun h.toRun,
    fun key hkey hrun => h'.notReady key (h.notReady key hkey (h'.toRun hrun)) hrun⟩

theorem Exiting.settles (h : Exiting runner σ) : Settles runner σ σ :=
  ⟨h, rfl, List.Subset.refl _, fun _ hkey _ => hkey⟩

theorem Looked.settles (h : Looked key σ) (hs : Settles runner σ σ') : Looked key σ' :=
  fun hrun => hs.notReady key (h (hs.toRun hrun)) hrun

theorem Exiting.db (h : Exiting runner σ) {db : Database}
    (hdb : ∀ p ti, σ.db.tis.get? p = some ti → State.isFinished ti.state = true →
      db.tis.get? p = some ti) : Settles runner σ { σ with db } := by
  refine ⟨⟨h.nodup, h.running, fun key hkey => ?_, h.notReady⟩, rfl, List.Subset.refl _,
    fun key hkey _ => hkey⟩
  obtain ⟨ti, hget, hfinal⟩ := h.final key hkey
  exact ⟨ti, hdb _ _ hget hfinal.1, hfinal⟩

theorem Exiting.toRun_nodup (h : Exiting runner σ) : σ.status.toRun.Nodup :=
  List.Nodup.of_map _ h.nodup

/-- Only the row of `key` and the sets of finished keys may differ. -/
structure SameBut (key : TaskInstanceKey) (σ σ' : State) : Prop where
  toRun : σ'.status.toRun = σ.status.toRun
  running : σ'.status.running = σ.status.running
  notReady : σ'.status.notReady = σ.status.notReady
  deadlocked : σ'.status.deadlocked = σ.status.deadlocked
  db : ∀ p, p ≠ key.primary → σ'.db.tis.get? p = σ.db.tis.get? p

theorem SameBut.rfl : SameBut key σ σ :=
  ⟨Eq.refl _, Eq.refl _, Eq.refl _, Eq.refl _, fun _ _ => Eq.refl _⟩

theorem sameBut_checked : SameBut key σ (checked env key ti σ) := by
  refine ⟨?_, ?_, ?_, ?_, ?_⟩
  · rw [checked_status]
  · rw [checked_status]
  · rw [checked_status]
  · rw [checked_status]
  · intro p hp
    rw [checked]
    split
    · rw [State.setTi_db, Database.get?_setTi, if_neg hp]
    · rfl

/-- Another candidate is still final. -/
theorem Exiting.final_other (h : Exiting runner σ) (hsame : SameBut key σ σ')
    (hkey : key ∈ σ.status.toRun) (hk : k ∈ σ.status.toRun) (hne : k ≠ key) :
    ∃ ti, σ'.db.tis.get? k.primary = some ti ∧ IsFinal runner ti := by
  rw [hsame.db k.primary fun heq => hne (List.inj_on_of_nodup_map h.nodup hk hkey heq)]
  exact h.final k hk

/-- A finished candidate is popped. -/
theorem Exiting.popKey (h : Exiting runner σ) (hkey : key ∈ σ.status.toRun)
    (hnot : key ∉ σ.status.notReady) (hsame : SameBut key σ σ') :
    Settles runner σ (σ'.popKey key) ∧ Looked key (σ'.popKey key) := by
  have htoRun : (σ'.popKey key).status.toRun = σ.status.toRun.erase key := by
    rw [← hsame.toRun]
    rfl
  have hnotReady : (σ'.popKey key).status.notReady = σ.status.notReady := hsame.notReady
  have hmem : ∀ k, k ∈ (σ'.popKey key).status.toRun ↔ k ≠ key ∧ k ∈ σ.status.toRun := by
    intro k
    rw [htoRun]
    exact h.toRun_nodup.mem_erase_iff
  refine ⟨⟨⟨?_, ?_, ?_, ?_⟩, hsame.deadlocked, ?_, ?_⟩, ?_⟩
  · rw [htoRun]
    exact h.nodup.sublist (List.erase_sublist.map _)
  · show σ'.status.running.erase key = []
    rw [hsame.running, h.running]
    rfl
  · intro k hk
    have hother := h.final_other hsame hkey ((hmem k).mp hk).2 ((hmem k).mp hk).1
    exact hother
  · intro k hk
    rw [hnotReady] at hk
    exact (hmem k).mpr ⟨fun heq => hnot (heq ▸ hk), h.notReady k hk⟩
  · intro k hk
    exact ((hmem k).mp hk).2
  · intro k hk _
    rwa [hnotReady]
  · intro hrun
    exact absurd rfl ((hmem key).mp hrun).1

/-- A candidate that is removed becomes not ready. -/
theorem Exiting.addNotReady (h : Exiting runner σ) (hkey : key ∈ σ.status.toRun)
    (hsame : SameBut key σ σ')
    (hfinal : ∃ ti, σ'.db.tis.get? key.primary = some ti ∧ IsFinal runner ti) :
    Settles runner σ (σ'.addNotReady key) ∧ Looked key (σ'.addNotReady key) := by
  have hnotReady : ∀ k, k ∈ (σ'.addNotReady key).status.notReady ↔
      k ∈ σ.status.notReady ∨ k = key := by
    intro k
    rw [← hsame.notReady]
    exact mem_addKey
  refine ⟨⟨⟨?_, hsame.running.trans h.running, ?_, ?_⟩, hsame.deadlocked, ?_, ?_⟩, ?_⟩
  · show (σ'.status.toRun.map TaskInstanceKey.primary).Nodup
    rw [hsame.toRun]
    exact h.nodup
  · intro k hk
    have hk' : k ∈ σ.status.toRun := hsame.toRun ▸ hk
    by_cases hne : k = key
    · rw [hne]
      exact hfinal
    · have hother := h.final_other hsame hkey hk' hne
      exact hother
  · intro k hk
    show k ∈ σ'.status.toRun
    rw [hsame.toRun]
    rcases (hnotReady k).mp hk with hk | rfl
    · exact h.notReady k hk
    · exact hkey
  · intro k hk
    exact hsame.toRun ▸ hk
  · intro k hk _
    exact (hnotReady k).mpr (.inl hk)
  · intro _
    exact (hnotReady key).mpr (.inr rfl)

theorem refresh_state (hget : σ.db.tis.get? key.primary = some ti) :
    (σ.db.refresh key.primary (env.inMemory key)).state = ti.state := by
  rw [Database.refresh, hget]

/-- A removed candidate is not queued. -/
theorem Exiting.processRemoved (h : Exiting runner σ) (hkey : key ∈ σ.status.toRun)
    (hnot : key ∉ σ.status.notReady) {row : TaskInstance}
    (hrow : σ.db.tis.get? key.primary = some row) (hfinal : IsFinal runner row)
    (hremoved : ti.state = some .removed) :
    Settles runner σ (processDependencies env key ti σ) ∧
      Looked key (processDependencies env key ti σ) := by
  have hsame : SameBut key σ (checked env key ti σ) := sameBut_checked
  have hmet : isBackfillQueueable ti.state = false := by rw [hremoved]; rfl
  simp only [processDependencies, hmet, Bool.false_and, Bool.false_eq_true, if_false, notMet]
  cases hnew : (env.dependencies key).newState with
  | none =>
    have hti : checkedTi env key ti = ti := by rw [checkedTi, hnew]
    have hσ : checked env key ti σ = σ := by rw [checked, hnew]
    rw [hti, hremoved, if_neg (by simp), if_neg (by simp), hσ]
    exact h.addNotReady hkey .rfl ⟨row, hrow, hfinal⟩
  | some state =>
    have hti : checkedTi env key ti = ti.withState (some state.toState) := by
      rw [checkedTi, hnew]
    have hset : (checked env key ti σ).db.tis.get? key.primary =
        some (ti.withState (some state.toState)) := by
      rw [checked, hnew, State.setTi_db, Database.get?_setTi, if_pos rfl, hti]
    rw [hti]
    cases state with
    | upstreamFailed =>
      rw [if_pos (by simp [TaskInstance.withState, AssignedState.toState])]
      exact h.popKey hkey hnot
        ⟨hsame.toRun, hsame.running, hsame.notReady, hsame.deadlocked, hsame.db⟩
    | skipped =>
      rw [if_neg (by simp [TaskInstance.withState, AssignedState.toState]),
        if_neg (by simp [TaskInstance.withState, AssignedState.toState])]
      exact h.addNotReady hkey hsame ⟨_, hset, rfl, fun _ => rfl⟩
    | removed =>
      rw [if_neg (by simp [TaskInstance.withState, AssignedState.toState]),
        if_neg (by simp [TaskInstance.withState, AssignedState.toState])]
      exact h.addNotReady hkey hsame ⟨_, hset, rfl, fun _ => rfl⟩

/-- **A finished candidate leaves `to_run` or becomes not ready.** -/
theorem Exiting.perTaskProcess (h : Exiting runner σ) (hkey : key ∈ σ.status.toRun)
    (hnot : key ∉ σ.status.notReady) :
    Settles runner σ (runner.perTaskProcess env key σ) ∧
      Looked key (runner.perTaskProcess env key σ) := by
  obtain ⟨row, hrow, hfinal⟩ := h.final key hkey
  have hstate : (σ.db.refresh key.primary (env.inMemory key)).state = row.state :=
    refresh_state hrow
  have hpop : ∀ σ', SameBut key σ σ' →
      Settles runner σ (σ'.popKey key) ∧ Looked key (σ'.popKey key) :=
    fun σ' hsame => h.popKey hkey hnot hsame
  simp only [BackfillJobRunner.perTaskProcess, hstate]
  split
  · exact hpop _ ⟨rfl, rfl, rfl, rfl, fun _ _ => rfl⟩
  · rename_i hsuccess
    split
    · exact hpop _ ⟨rfl, rfl, rfl, rfl, fun _ _ => rfl⟩
    · rename_i hskipped
      split
      · rename_i hfailed
        split
        · rename_i hrerun
          have := hfinal.2 hrerun
          rcases hfailed with hf | hf <;> simp [hf, State.isFailed] at this
        · exact hpop _ ⟨rfl, rfl, rfl, rfl, fun _ _ => rfl⟩
      · rename_i hfailed
        have hremoved : row.state = some .removed := by
          have hfin := hfinal.1
          cases hs : row.state with
          | none => simp [hs, State.isFinished] at hfin
          | some s => cases s <;> simp_all [State.isFinished]
        exact h.processRemoved hkey hnot hrow hfinal (hstate.trans hremoved)

theorem processDependencies_notReady
    (h : k ∈ (processDependencies env key ti σ).status.notReady) :
    k ∈ σ.status.notReady ∨ k = key := by
  have hchecked : (checked env key ti σ).status = σ.status := checked_status
  rw [processDependencies] at h
  split at h
  · split at h
    · exact .inl (hchecked ▸ h)
    · exact .inl (hchecked ▸ h)
  · rw [notMet] at h
    split at h
    · exact .inl (hchecked ▸ h)
    · split at h
      · exact .inl (hchecked ▸ h)
      · exact (mem_addKey.mp h).imp_left fun h => hchecked ▸ h

theorem perTaskProcess_notReady (h : k ∈ (runner.perTaskProcess env key σ).status.notReady) :
    k ∈ σ.status.notReady ∨ k = key := by
  simp only [BackfillJobRunner.perTaskProcess] at h
  split at h
  · exact .inl h
  · split at h
    · exact .inl h
    · split at h
      · split at h
        · have hprocess := processDependencies_notReady h
          exact hprocess
        · exact .inl h
      · exact processDependencies_notReady h

/-- **Final candidates of a task**: when no limit is reached each has been looked at, and otherwise
one has not. -/
theorem Exiting.lookAtKeys (henv : env.LeavesFinished) (task : Task)
    {keys : List TaskInstanceKey} (h : Exiting runner σ) (hnodup : keys.Nodup)
    (hkeys : ∀ key ∈ keys, key ∈ σ.status.toRun ∧ key ∉ σ.status.notReady)
    {raised : Option LoopException} (hrun : runner.lookAtKeys env task keys σ = (σ', raised)) :
    Settles runner σ σ' ∧ (raised = none → ∀ key ∈ keys, Looked key σ') ∧
      (raised ≠ none → ∃ key ∈ σ'.status.toRun, key ∉ σ'.status.notReady) ∧
      ∀ key ∈ σ'.status.notReady, key ∈ σ.status.notReady ∨ key ∈ keys := by
  induction keys generalizing σ with
  | nil =>
    cases hrun
    exact ⟨h.settles, fun _ key hkey => absurd hkey List.not_mem_nil, fun hne => absurd rfl hne,
      fun _ hk => .inl hk⟩
  | cons key keys ih =>
    rw [List.nodup_cons] at hnodup
    rw [BackfillJobRunner.lookAtKeys] at hrun
    obtain ⟨hkey, hnot⟩ := hkeys key List.mem_cons_self
    split at hrun
    · cases hrun
      refine ⟨h.db (henv.beforeLimits key σ.db), fun hnone => ?_, fun _ => ⟨key, hkey, hnot⟩,
        fun _ hk => .inl hk⟩
      cases hnone
    · have hothers : Settles runner σ { σ with
          db := env.beforeProcess key (env.beforeLimits key σ.db) } :=
        h.db fun p ti hget hfinished =>
          henv.beforeProcess key _ p ti (henv.beforeLimits key _ p ti hget hfinished) hfinished
      obtain ⟨hstep, hlooked⟩ := @Exiting.perTaskProcess runner env _ key hothers.exiting hkey hnot
      have hrest : ∀ k ∈ keys,
          k ∈ (runner.perTaskProcess env key { σ with
            db := env.beforeProcess key (env.beforeLimits key σ.db) }).status.toRun ∧
          k ∉ (runner.perTaskProcess env key { σ with
            db := env.beforeProcess key (env.beforeLimits key σ.db) }).status.notReady := by
        intro k hk
        have hne : k ≠ key := fun heq => hnodup.1 (heq ▸ hk)
        obtain ⟨htoRun, hkeep⟩ := hkeys k (List.mem_cons_of_mem _ hk)
        refine ⟨perTaskProcess_toRun hne htoRun, fun hmem => ?_⟩
        rcases perTaskProcess_notReady hmem with hmem | heq
        · exact hkeep hmem
        · exact hne heq
      obtain ⟨hsettles, hall, hraised, hnotReady⟩ := ih hstep.exiting hnodup.2 hrest hrun
      refine ⟨(hothers.trans hstep).trans hsettles, fun hnone k hk => ?_, hraised, fun k hk => ?_⟩
      · rcases List.mem_cons.mp hk with rfl | hk
        · exact hlooked.settles hsettles
        · exact hall hnone k hk
      · rcases hnotReady k hk with hk | hk
        · rcases perTaskProcess_notReady hk with hk | rfl
          · exact .inl hk
          · exact .inr List.mem_cons_self
        · exact .inr (List.mem_cons_of_mem _ hk)

/-- Final candidates of all tasks. -/
theorem Exiting.lookAtTasks (henv : env.LeavesFinished) {tasks : List Task}
    (h : Exiting runner σ) (hnodup : (tasks.map Task.taskId).Nodup)
    (hnotReady : ∀ key ∈ σ.status.notReady, key.taskId ∉ tasks.map Task.taskId)
    {raised : Option LoopException} (hrun : runner.lookAtTasks env tasks σ = (σ', raised)) :
    Settles runner σ σ' ∧
      (raised = none → ∀ key ∈ σ.status.toRun, key.taskId ∈ tasks.map Task.taskId →
        Looked key σ') ∧
      (raised ≠ none → ∃ key ∈ σ'.status.toRun, key ∉ σ'.status.notReady) := by
  induction tasks generalizing σ with
  | nil =>
    cases hrun
    exact ⟨h.settles, fun _ key _ htask => absurd htask List.not_mem_nil, fun hne => absurd rfl hne⟩
  | cons task tasks ih =>
    rw [List.map_cons, List.nodup_cons] at hnodup
    rw [BackfillJobRunner.lookAtTasks] at hrun
    have hkeys : ∀ key ∈ σ.status.toRun.filter (·.taskId = task.taskId),
        key ∈ σ.status.toRun ∧ key ∉ σ.status.notReady := by
      intro key hkey
      obtain ⟨htoRun, htask⟩ := List.mem_filter.mp hkey
      refine ⟨htoRun, fun hmem => hnotReady key hmem ?_⟩
      rw [of_decide_eq_true htask]
      exact List.mem_cons_self
    cases hfirst : runner.lookAtKeys env task
        (σ.status.toRun.filter (·.taskId = task.taskId)) σ with
    | mk σ₁ raised₁ =>
      obtain ⟨hsettles, hlooked, hraised, hmem⟩ :=
        h.lookAtKeys henv task (h.toRun_nodup.filter _) hkeys hfirst
      rw [hfirst] at hrun
      cases raised₁ with
      | some e =>
        cases hrun
        exact ⟨hsettles, fun hnone => absurd hnone (by simp), fun _ => hraised (by simp)⟩
      | none =>
        have hrest : ∀ key ∈ σ₁.status.notReady, key.taskId ∉ tasks.map Task.taskId := by
          intro key hkey htask
          rcases hmem key hkey with hkey | hkey
          · exact hnotReady key hkey (List.mem_cons_of_mem _ htask)
          · rw [of_decide_eq_true (List.mem_filter.mp hkey).2] at htask
            exact hnodup.1 htask
        obtain ⟨hsettles', hlooked', hraised'⟩ := ih hsettles.exiting hnodup.2 hrest hrun
        refine ⟨hsettles.trans hsettles', fun hnone key hkey htask => ?_, hraised'⟩
        by_cases htoRun : key ∈ σ₁.status.toRun
        · rcases List.mem_cons.mp htask with heq | htask
          · have hfiltered : key ∈ σ.status.toRun.filter (·.taskId = task.taskId) :=
              List.mem_filter.mpr ⟨hkey, decide_eq_true heq⟩
            exact (hlooked rfl key hfiltered).settles hsettles'
          · exact hlooked' hnone key htoRun htask
        · intro htoRun'
          exact absurd (hsettles'.toRun htoRun') htoRun

/-- Without a running instance nothing happens after the candidates. -/
theorem manageExecutorState_empty {events : List (TaskInstanceKey × TaskInstanceState)}
    {dict : Dict PrimaryKey TaskInstance} (h : ∀ p, dict.get? p = none) :
    runner.manageExecutorState env events dict σ = some σ := by
  induction events with
  | nil => rfl
  | cons event events ih =>
    obtain ⟨key, state⟩ := event
    simp only [manageExecutorState, h key.primary, ih]

theorem runningDict_empty (h : σ.status.running = []) : (runningDict env σ).get? p = none := by
  rw [runningDict, Dict.get?_keep, if_neg]
  simp [h]

theorem updateCounters_empty (h : σ.status.running = []) : updateCounters σ = σ := by
  have hrefreshed : refreshedTis σ = [] := by simp [refreshedTis, h]
  simp only [updateCounters, hrefreshed, List.filter_nil, List.foldl_nil]

/-- The loop ends, deadlocked or with nothing left, exactly if all candidates were looked at. -/
theorem findDeadlock_ends (hrunning : σ.status.running = []) (hdeadlocked : σ.status.deadlocked = [])
    (hnotReady : ∀ key ∈ σ.status.notReady, key ∈ σ.status.toRun) :
    (findDeadlock σ).status.running = [] ∧
      ((findDeadlock σ).continues = false ↔ ∀ key, Looked key σ) := by
  simp only [findDeadlock]
  split
  · rename_i hdead
    refine ⟨hrunning, iff_of_true (by simp [State.continues, hrunning]) ?_⟩
    intro key hkey
    exact hdead.2.2.1 key hkey
  · rename_i hdead
    refine ⟨hrunning, ?_⟩
    cases hrun : σ.status.toRun with
    | nil => simp [State.continues, hrun, hrunning, Looked]
    | cons key keys =>
      have hkey : key ∈ σ.status.toRun := by
        rw [hrun]
        exact List.mem_cons_self
      refine iff_of_false (by simp [State.continues, hrun, hdeadlocked]) fun hlooked => hdead ?_
      exact ⟨List.ne_nil_of_mem (hlooked key hkey), hnotReady, hlooked, hrunning⟩

/-- **An iteration that starts with final instances only is the last one exactly if no limit ends
its loop over the candidates.** -/
theorem Exiting.ends_iff (h : Exiting runner σ) (hdeadlocked : σ.status.deadlocked = [])
    (henv : env.LeavesFinished) (hnodup : (runner.tasks.map Task.taskId).Nodup)
    (hknown : ∀ key ∈ σ.status.toRun, key.taskId ∈ runner.tasks.map Task.taskId)
    (hrun : runner.beforeUpdateCounters env σ = some σ') :
    (updateCounters σ').continues = false ↔
      (runner.lookAtTasks env runner.tasks σ.clearNotReady).2 = none := by
  have hcleared : Exiting runner σ.clearNotReady :=
    ⟨h.nodup, h.running, h.final, fun _ hk => absurd hk List.not_mem_nil⟩
  cases hlook : runner.lookAtTasks env runner.tasks σ.clearNotReady with
  | mk σ₁ raised =>
    obtain ⟨hsettles, hnone, hsome⟩ := hcleared.lookAtTasks henv hnodup
      (fun _ hk => absurd hk List.not_mem_nil) hlook
    have hlooked : (∀ key, Looked key { σ₁ with db := env.afterHeartbeat σ₁.db }) ↔
        raised = none := by
      constructor
      · intro hall
        refine Decidable.byContradiction fun hne => ?_
        obtain ⟨key, hkey, hnot⟩ := hsome hne
        exact hnot (hall key hkey)
      · intro hraised key hkey
        exact hnone hraised key (hsettles.toRun hkey) (hknown key (hsettles.toRun hkey)) hkey
    have hends := @findDeadlock_ends { σ₁ with db := env.afterHeartbeat σ₁.db }
      hsettles.exiting.running (hsettles.deadlocked.trans hdeadlocked) hsettles.exiting.notReady
    rw [hlooked] at hends
    simp only [beforeUpdateCounters, hlook] at hrun
    split at hrun
    · cases hrun
    · generalize findDeadlock { σ₁ with db := env.afterHeartbeat σ₁.db } = σ₂ at hrun hends
      obtain ⟨hrunning, hiff⟩ := hends
      rw [manageExecutorState_empty fun p => runningDict_empty hrunning, Option.map_some,
        Option.some_inj, hrunning, disableRetries] at hrun
      have hempty : updateCounters σ' = σ' := by
        rw [← hrun]
        exact updateCounters_empty hrunning
      rw [hempty, ← hiff, ← hrun]
      rfl

/-! ## Runs -/

/-- Before the first iteration nothing is running, and `to_run` holds the task instances of the dag
runs. -/
structure Initial (runner : BackfillJobRunner) (σ : State) : Prop where
  running : σ.status.running = []
  inv : Inv runner σ

theorem IsRun.inv (hnodes : runner.NodesKnown) {its : List Iteration} (h : Inv runner σ)
    (hrun : runner.IsRun σ its) (hkeeps : ∀ it ∈ its, it.env.Keeps) :
    ∀ it ∈ its, Inv runner it.refreshed := by
  induction its generalizing σ with
  | nil => simp
  | cons it its ih =>
    obtain ⟨-, hbefore, hrest⟩ := hrun
    have hinv := beforeUpdateCounters_inv (hkeeps it List.mem_cons_self) hnodes h hbefore
    intro it' hit'
    rcases List.mem_cons.mp hit' with rfl | hit'
    · exact hinv
    · exact ih (updateCounters_inv hinv) hrest
        (fun it hit => hkeeps it (List.mem_cons_of_mem _ hit)) it' hit'

/-- A run goes on from the end of each of its iterations. -/
theorem IsRun.next {before after : List Iteration} {it it' : Iteration}
    (hrun : runner.IsRun σ (before ++ it :: it' :: after)) :
    it.ended.continues ∧
      runner.beforeUpdateCounters it'.env it.ended = some it'.refreshed := by
  induction before generalizing σ with
  | nil => exact ⟨hrun.2.2.1, hrun.2.2.2.1⟩
  | cons first before ih => exact ih hrun.2.2

/-- Every instance is finished at the end of `it`, for good: the others leave them so in `it'`, and
none of them is to be run again. -/
structure FinishedForGood (runner : BackfillJobRunner) (it it' : Iteration) : Prop where
  finished : AllFinished it.ended
  others : it'.env.LeavesFinished
  rerun : runner.rerunFailedTasks = true → ∀ key ∈ it.ended.status.toRun, ∀ ti,
    it.ended.db.tis.get? key.primary = some ti → State.isFailed ti.state = false

/-- Once every instance is finished the loop exits. -/
def ExitsWhenFinished (runner : BackfillJobRunner) (its : List Iteration) : Prop :=
  ∀ before it it' after, its = before ++ it :: it' :: after →
    FinishedForGood runner it it' → it'.ended.continues = false

/-- No limit (a pool without open slots, or as many running instances as the DAG or the task may
have) keeps the loop from looking at instances that are all finished. -/
def LimitsLetFinishedPass (runner : BackfillJobRunner) (its : List Iteration) : Prop :=
  ∀ before it it' after, its = before ++ it :: it' :: after → FinishedForGood runner it it' →
    (runner.lookAtTasks it'.env runner.tasks it.ended.clearNotReady).2 = none

theorem FinishedForGood.ends_iff {it it' : Iteration} (h : FinishedForGood runner it it')
    (hnodup : (runner.tasks.map Task.taskId).Nodup) (hended : Inv runner it.ended)
    (hok : BookkeepingOk it.ended) (hcontinues : it.ended.continues)
    (hrun : runner.beforeUpdateCounters it'.env it.ended = some it'.refreshed) :
    it'.ended.continues = false ↔
      (runner.lookAtTasks it'.env runner.tasks it.ended.clearNotReady).2 = none := by
  have hrunning : it.ended.status.running = [] := by
    refine List.eq_nil_iff_forall_not_mem.mpr fun key hkey => ?_
    obtain ⟨ti, hget, hfin⟩ := h.finished key (List.mem_append_right _ hkey)
    have hunfinished := hok.noneStays key hkey ti hget
    rw [hfin] at hunfinished
    cases hunfinished
  have hdeadlocked : it.ended.status.deadlocked = [] := by
    simp only [State.continues, Bool.and_eq_true, List.isEmpty_iff] at hcontinues
    exact hcontinues.2
  have hnotReady : Exiting runner it.ended.clearNotReady := by
    refine ⟨?_, hrunning, fun key hkey => ?_, fun _ hk => absurd hk List.not_mem_nil⟩
    · have hnodup := hended.nodup
      rw [State.tracked, List.map_append] at hnodup
      exact (List.nodup_append.mp hnodup).1
    · obtain ⟨ti, hget, hfin⟩ := h.finished key (List.mem_append_left _ hkey)
      exact ⟨ti, hget, hfin, fun hflag => h.rerun hflag key hkey ti hget⟩
  have hknown : ∀ key ∈ it.ended.status.toRun, key.taskId ∈ runner.tasks.map Task.taskId := by
    intro key hkey
    obtain ⟨task, htask, heq⟩ := hended.known key.primary
      (List.mem_map_of_mem (List.mem_append_left _ hkey))
    exact List.mem_map.mpr ⟨task, htask, heq⟩
  exact hnotReady.ends_iff hdeadlocked h.others hnodup hknown hrun

/-- **The bookkeeping of a backfill loses no task exactly if no refresh finds a running instance
`UPSTREAM_FAILED` or `REMOVED`, and no limit keeps the loop from the instances when all are
finished.** -/
theorem losesNoTask_iff (hnodes : runner.NodesKnown)
    (hnodup : (runner.tasks.map Task.taskId).Nodup) (its : List Iteration)
    (hinit : Initial runner σ) (hrun : runner.IsRun σ its)
    (hkeeps : ∀ it ∈ its, it.env.Keeps) :
    ((∀ it ∈ its, BookkeepingOk it.ended) ∧ ExitsWhenFinished runner its) ↔
      (∀ it ∈ its, NoneOutsideBranches it.refreshed) ∧ LimitsLetFinishedPass runner its := by
  have hinv := IsRun.inv hnodes hinit.inv hrun hkeeps
  have hok : (∀ it ∈ its, BookkeepingOk it.ended) ↔
      ∀ it ∈ its, NoneOutsideBranches it.refreshed :=
    forall₂_congr fun it hit => bookkeepingOk_iff (hinv it hit)
  rw [← hok]
  refine and_congr_right fun hall => ?_
  have hends : ∀ before it it' after, its = before ++ it :: it' :: after →
      FinishedForGood runner it it' → (it'.ended.continues = false ↔
        (runner.lookAtTasks it'.env runner.tasks it.ended.clearNotReady).2 = none) := by
    rintro before it it' after rfl hgood
    have hmem : it ∈ before ++ it :: it' :: after := by simp
    obtain ⟨hcontinues, hbefore⟩ := IsRun.next hrun
    exact hgood.ends_iff hnodup (updateCounters_inv (hinv it hmem)) (hall it hmem) hcontinues
      hbefore
  constructor
  · intro hexits before it it' after hits hgood
    exact (hends before it it' after hits hgood).mp (hexits before it it' after hits hgood)
  · intro hlimits before it it' after hits hgood
    exact (hends before it it' after hits hgood).mpr (hlimits before it it' after hits hgood)

/-! ## One task -/

/-- A backfill of one task. -/
def oneTask : BackfillJobRunner where
  dagId := "dag"
  tasks := [{ dagId := "dag", taskId := "task", retries := 0 }]

def oneTaskKey : TaskInstanceKey where
  dagId := "dag"
  taskId := "task"
  runId := "run"

/-- Its instance with a state in the database. -/
def oneTaskDatabase (state : TaskInstanceState) : Database where
  tis := Dict.set {} oneTaskKey.primary { state := some state, maxTries := 0 }
  pools := Dict.set {} "default_pool" { slots := 128 }

def oneTaskStart : State where
  status := { toRun := [oneTaskKey] }
  db := oneTaskDatabase .scheduled

/-- The iteration that queues the instance, which then gets a state before the refresh. -/
def oneTaskIteration (state : TaskInstanceState) : Iteration where
  env := {
    dependencies := fun _ => ⟨true, none⟩
    beforeUpdate := fun db => db.setTi oneTaskKey.primary { state := some state, maxTries := 0 } }
  refreshed := {
    status := { running := [oneTaskKey] }
    db := oneTaskDatabase state
    queueings := [⟨oneTaskKey, { state := some .scheduled, maxTries := 0 },
      oneTaskDatabase .scheduled, oneTaskDatabase .queued⟩] }

theorem oneTask_isRun (state : TaskInstanceState) :
    oneTask.IsRun oneTaskStart [oneTaskIteration state] := by
  refine ⟨rfl, ?_, trivial⟩
  rfl

theorem oneTask_inv : Inv oneTask oneTaskStart where
  nodup := by decide
  known := by decide
  rows := by decide

/-- A worker ends the task before the refresh. -/
theorem oneTask_succeeds :
    (∀ it ∈ [oneTaskIteration .success], BookkeepingOk it.ended) ∧
      ExitsWhenFinished oneTask [oneTaskIteration .success] := by
  have hkeeps : ∀ it ∈ [oneTaskIteration .success], it.env.Keeps := by
    intro it hit
    rw [List.mem_singleton.mp hit]
    exact ⟨fun _ db => .refl db, fun _ db => .refl db, fun db => .refl db, fun _ db => .refl db,
      fun db => Database.keeps_setTi⟩
  refine (losesNoTask_iff (fun _ _ h => absurd h List.not_mem_nil) (by decide) _
    ⟨rfl, oneTask_inv⟩ (oneTask_isRun .success) hkeeps).mpr ⟨?_, ?_⟩
  · intro it hit key hkey ti hget
    rw [List.mem_singleton.mp hit] at hkey hget
    rw [List.mem_singleton.mp hkey] at hget
    cases hget
    exact ⟨by decide, by decide⟩
  · intro before it it' after hits
    have hlength := congrArg List.length hits
    simp only [List.length_append, List.length_cons, List.length_nil] at hlength
    omega

/-- **A running instance whose upstream is found to have failed stays in `running`.** -/
theorem upstreamFailed_stays :
    Initial oneTask oneTaskStart ∧
      oneTask.IsRun oneTaskStart [oneTaskIteration .upstreamFailed] ∧
      ¬BookkeepingOk (oneTaskIteration .upstreamFailed).ended := by
  refine ⟨⟨rfl, oneTask_inv⟩, oneTask_isRun _, fun hok => ?_⟩
  have hfinished := hok.noneStays oneTaskKey (by decide)
    { state := some .upstreamFailed, maxTries := 0 } rfl
  cases hfinished

end Airflow.Backfill
