import Airflow.Backfill.Runner
import Mathlib.Algebra.Order.BigOperators.Group.List
import Mathlib.Algebra.Order.Group.Nat

/-!
# The pool slots of a backfill

The loop queues an instance when its task's pool has an open slot, however many slots the instance
needs. Queueing adds its `pool_slots` to what its own pool uses (`Queues.usedSlots`), so the pool
stays within its size exactly if the instance fits (`poolsKept_iff`).
-/

namespace Airflow.Backfill

open BackfillJobRunner

variable {runner : BackfillJobRunner} {env : Environment} {σ σ' : State}
  {key : TaskInstanceKey} {p : PrimaryKey} {ti : TaskInstance} {db : Database}

/-! ## Used slots -/

/-- The slots that the queued and running instances of a pool use. -/
def Database.usedSlots (db : Database) (pool : String) : Nat := db.poolSlots pool countsAsRunning

/-- What an instance uses of a pool. -/
def TaskInstance.usedSlots (pool : String) (ti : TaskInstance) : Nat :=
  if ti.pool = pool ∧ countsAsRunning ti.state then ti.poolSlots else 0

theorem sum_filter_map {α : Type} (l : List α) (q : α → Bool) (g : α → Nat) :
    ((l.filter q).map g).sum = (l.map fun a => if q a then g a else 0).sum := by
  induction l with
  | nil => rfl
  | cons a l ih =>
    by_cases hq : q a
    · rw [List.filter_cons_of_pos hq, List.map_cons, List.sum_cons, ih]
      simp [hq]
    · rw [List.filter_cons_of_neg hq, ih]
      simp [hq]

theorem Database.usedSlots_eq (pool : String) :
    db.usedSlots pool = (db.tis.values.map (TaskInstance.usedSlots pool)).sum := by
  rw [Database.usedSlots, Database.poolSlots, sum_filter_map]
  refine congrArg List.sum (List.map_congr_left fun ti _ => ?_)
  simp [TaskInstance.usedSlots]

/-- Writing a row replaces what it uses. -/
theorem Database.usedSlots_setTi (pool : String) :
    (db.setTi p ti).usedSlots pool + (db.tis.get? p).elim 0 (TaskInstance.usedSlots pool) =
      db.usedSlots pool + ti.usedSlots pool := by
  rw [Database.usedSlots_eq, Database.usedSlots_eq]
  exact Dict.sum_values_set _

/-! ## What is queued -/

/-- An instance that was not counted is set to `QUEUED`. -/
structure Queues (q : Queueing) : Prop where
  after : q.after = q.before.setTi q.key.primary (q.ti.withState (some .queued))
  notCounted : ∀ old, q.before.tis.get? q.key.primary = some old →
    countsAsRunning old.state = false

/-- **Queueing adds the slots of the instance to what its pool uses.** -/
theorem Queues.usedSlots {q : Queueing} (h : Queues q) :
    q.after.usedSlots q.ti.pool = q.before.usedSlots q.ti.pool + q.ti.poolSlots := by
  have hset := @Database.usedSlots_setTi q.key.primary (q.ti.withState (some .queued)) q.before
    q.ti.pool
  have hnew : (q.ti.withState (some .queued)).usedSlots q.ti.pool = q.ti.poolSlots := by
    simp [TaskInstance.usedSlots, TaskInstance.withState, countsAsRunning]
  have hold : (q.before.tis.get? q.key.primary).elim 0 (TaskInstance.usedSlots q.ti.pool) = 0 := by
    cases hget : q.before.tis.get? q.key.primary with
    | none => rfl
    | some old => simp [TaskInstance.usedSlots, h.notCounted old hget]
  rw [hnew, hold] at hset
  rw [h.after]
  omega

/-- Everything in the log was queued so. -/
def LogOk (σ : State) : Prop := ∀ q ∈ σ.queueings, Queues q

theorem LogOk.congr (h : LogOk σ) (heq : σ'.queueings = σ.queueings) : LogOk σ' := by
  rw [LogOk, heq]
  exact h

/-- The row of a candidate after the dependency check. -/
theorem checked_notCounted
    (hrow : ∀ old, σ.db.tis.get? key.primary = some old → countsAsRunning old.state = false) :
    ∀ old, (checked env key ti σ).db.tis.get? key.primary = some old →
      countsAsRunning old.state = false := by
  rw [checked]
  cases hnew : (env.dependencies key).newState with
  | none => exact hrow
  | some state =>
    intro old hold
    have heq : checkedTi env key ti = old := by
      simpa [State.setTi, Database.setTi, Dict.get?_set] using hold
    rw [← heq, checkedTi, hnew]
    cases state <;> rfl

theorem queueable_not_counted {s : TIState} (h : isBackfillQueueable s = true) :
    countsAsRunning s = false := by
  cases s with
  | none => rfl
  | some s => cases s <;> first | rfl | cases h

theorem checked_queueings : (checked env key ti σ).queueings = σ.queueings := by
  rw [checked]
  split <;> rfl

theorem notMet_queueings : (notMet key ti σ).queueings = σ.queueings := by
  rw [notMet]
  split
  · rfl
  · split <;> rfl

theorem processDependencies_logOk (h : LogOk σ)
    (hrow : ∀ old, σ.db.tis.get? key.primary = some old → old.state = ti.state) :
    LogOk (processDependencies env key ti σ) := by
  rw [processDependencies]
  split
  · rename_i hmet
    have hcounted : countsAsRunning ti.state = false :=
      queueable_not_counted (Bool.and_eq_true_iff.mp hmet).1
    have hnot := @checked_notCounted env σ key ti fun old hold => by
      rw [hrow old hold]
      exact hcounted
    split
    · exact h.congr checked_queueings
    · intro q hq
      rcases List.mem_append.mp hq with hq | hq
      · rw [checked_queueings] at hq
        exact h q hq
      · rw [List.mem_singleton.mp hq]
        exact ⟨rfl, hnot⟩
  · exact h.congr (notMet_queueings.trans checked_queueings)

theorem perTaskProcess_logOk (h : LogOk σ) : LogOk (runner.perTaskProcess env key σ) := by
  simp only [BackfillJobRunner.perTaskProcess]
  split
  · exact h
  · split
    · exact h
    · split
      · split
        · refine processDependencies_logOk h fun old hold => ?_
          have heq := hold
          simp only [State.setTi, Database.setTi, Dict.get?_set, if_true, Option.some_inj] at heq
          rw [← heq]
        · exact h
      · refine processDependencies_logOk h fun old hold => ?_
        rw [Database.refresh, hold]

theorem lookAtKeys_logOk {task : Task} {keys : List TaskInstanceKey} (h : LogOk σ) :
    LogOk (runner.lookAtKeys env task keys σ).1 := by
  induction keys generalizing σ with
  | nil => exact h
  | cons key keys ih =>
    rw [BackfillJobRunner.lookAtKeys]
    split
    · exact h
    · exact ih (perTaskProcess_logOk h)

theorem lookAtTasks_logOk {tasks : List Task} (h : LogOk σ) :
    LogOk (runner.lookAtTasks env tasks σ).1 := by
  induction tasks generalizing σ with
  | nil => exact h
  | cons task tasks ih =>
    have hkeys := @lookAtKeys_logOk runner env σ task
      (σ.status.toRun.filter (·.taskId = task.taskId)) h
    rw [BackfillJobRunner.lookAtTasks]
    generalize runner.lookAtKeys env task _ σ = result at hkeys
    obtain ⟨σ', raised⟩ := result
    cases raised with
    | some e => exact hkeys
    | none => exact ih hkeys

/-! ## The rest of an iteration queues nothing -/

theorem findDeadlock_logOk (h : LogOk σ) : LogOk (findDeadlock σ) := by
  simp only [findDeadlock]
  split
  · exact h
  · exact h

theorem expandDependants_logOk {nodes : List Task}
    (hrun : runner.expandDependants env key nodes σ = some σ') (h : LogOk σ) : LogOk σ' := by
  induction nodes generalizing σ with
  | nil =>
    cases hrun
    exact h
  | cons node nodes ih =>
    rw [BackfillJobRunner.expandDependants] at hrun
    obtain ⟨⟨db, new, maxMapIndex⟩, -, hrest⟩ := Option.bind_eq_some_iff.mp hrun
    exact ih hrest h

theorem manageExecutorState_logOk {events : List (TaskInstanceKey × TaskInstanceState)}
    {dict : Dict PrimaryKey TaskInstance}
    (hrun : runner.manageExecutorState env events dict σ = some σ') (h : LogOk σ) : LogOk σ' := by
  induction events generalizing σ dict with
  | nil =>
    cases hrun
    exact h
  | cons event events ih =>
    obtain ⟨key, state⟩ := event
    rw [BackfillJobRunner.manageExecutorState] at hrun
    split at hrun
    · exact ih hrun h
    · simp only at hrun
      split at hrun
      · exact ih hrun h
      · split at hrun
        · obtain ⟨σ₁, hexpand, hrest⟩ := Option.bind_eq_some_iff.mp hrun
          exact ih hrest (expandDependants_logOk hexpand h)
        · exact ih hrun h

theorem disableRetries_logOk {keys : List TaskInstanceKey} (h : LogOk σ) :
    LogOk (runner.disableRetries env keys σ) := by
  induction keys generalizing σ with
  | nil => exact h
  | cons key keys ih =>
    rw [BackfillJobRunner.disableRetries]
    apply ih
    split
    · exact h
    · exact h

theorem updateCounter_logOk {running : List TaskInstanceKey} {e : PrimaryKey × TaskInstance}
    (h : LogOk σ) : LogOk (updateCounter running σ e) := by
  rw [updateCounter]
  split
  · exact h
  · split <;> exact h

theorem foldl_logOk {α : Type} {f : State → α → State} (hf : ∀ τ a, LogOk τ → LogOk (f τ a))
    {l : List α} (h : LogOk σ) : LogOk (l.foldl f σ) := by
  induction l generalizing σ with
  | nil => exact h
  | cons a l ih => exact ih (hf σ a h)

theorem updateCounters_logOk (h : LogOk σ) : LogOk (updateCounters σ) := by
  rw [updateCounters]
  apply foldl_logOk
  · exact fun τ e hτ => hτ
  · exact foldl_logOk (fun τ e hτ => updateCounter_logOk hτ) h

/-- **An iteration only queues instances that were not counted.** -/
theorem iteration_logOk (h : LogOk σ) (hrun : runner.beforeUpdateCounters env σ = some σ') :
    LogOk (updateCounters σ') := by
  have hlook : LogOk (runner.lookAtTasks env runner.tasks σ.clearNotReady).1 :=
    lookAtTasks_logOk h
  simp only [beforeUpdateCounters] at hrun
  split at hrun
  · cases hrun
  · obtain ⟨σ₁, hmanage, rfl⟩ := Option.map_eq_some_iff.mp hrun
    have hmanaged := manageExecutorState_logOk hmanage (findDeadlock_logOk hlook)
    exact updateCounters_logOk (disableRetries_logOk hmanaged)

/-! ## Runs -/

/-- The state after the iterations of a run from `σ`. -/
def lastState (σ : State) : List Iteration → State
  | [] => σ
  | it :: its => lastState it.ended its

theorem IsRun.logOk {its : List Iteration} (h : LogOk σ) (hrun : runner.IsRun σ its) :
    LogOk (lastState σ its) := by
  induction its generalizing σ with
  | nil => exact h
  | cons it its ih => exact ih (iteration_logOk h hrun.2.1) hrun.2.2

/-- The pool of an instance that was queued is within its size, if it was so before. -/
def Queueing.KeepsPool (q : Queueing) : Prop :=
  ∀ pool, q.before.pools.get? q.ti.pool = some pool → pool.slots ≠ -1 →
    (q.before.usedSlots q.ti.pool : Int) ≤ pool.slots →
      (q.after.usedSlots q.ti.pool : Int) ≤ pool.slots

/-- The instance needs at most the slots that its pool, if it is finite and within its size, has
left. -/
def Queueing.Fits (q : Queueing) : Prop :=
  ∀ pool, q.before.pools.get? q.ti.pool = some pool → pool.slots ≠ -1 →
    (q.before.usedSlots q.ti.pool : Int) ≤ pool.slots →
      (q.ti.poolSlots : Int) ≤ pool.slots - q.before.usedSlots q.ti.pool

theorem Queues.keepsPool_iff {q : Queueing} (h : Queues q) : q.KeepsPool ↔ q.Fits := by
  rw [Queueing.KeepsPool, Queueing.Fits, h.usedSlots]
  refine forall_congr' fun pool => forall_congr' fun hpool => forall_congr' fun hfinite =>
    forall_congr' fun hused => ?_
  omega

/-- The check before a candidate is processed leaves one slot of its task's pool. -/
theorem one_slot_of_checkLimits {task : Task} {pool : Pool}
    (hcheck : runner.checkLimits task key db = none)
    (hpool : db.pools.get? task.pool = some pool) (hfinite : pool.slots ≠ -1) :
    (db.usedSlots task.pool : Int) + 1 ≤ pool.slots := by
  have hopen : ¬(db.openSlots task.pool pool).any (· ≤ 0) = true := by
    intro hclosed
    simp [BackfillJobRunner.checkLimits, hpool, hclosed] at hcheck
  have hoccupied : db.usedSlots task.pool ≤ db.poolSlots task.pool pool.occupiedStates := by
    refine List.Sublist.sum_le_sum (List.Sublist.map _ ?_) (by simp)
    refine List.monotone_filter_right _ fun ti hti => ?_
    simp only [Bool.and_eq_true, Pool.occupiedStates, Bool.or_eq_true] at hti ⊢
    exact ⟨hti.1, .inl hti.2⟩
  simp only [Database.openSlots, if_neg hfinite, Option.any_some, decide_eq_true_eq] at hopen
  omega

/-- A backfill of one task that needs `poolSlots` slots. -/
def slotsTask (poolSlots : Nat) : BackfillJobRunner where
  dagId := "dag"
  tasks := [{ dagId := "dag", taskId := "task", retries := 0, poolSlots }]

def slotsTaskKey : TaskInstanceKey where
  dagId := "dag"
  taskId := "task"
  runId := "run"

/-- Its instance is scheduled, and the pool is empty. -/
def slotsTaskStart (poolSlots : Nat) : State where
  status := { toRun := [slotsTaskKey] }
  db := {
    tis := Dict.set {} slotsTaskKey.primary { state := some .scheduled, maxTries := 0, poolSlots }
    pools := Dict.set {} "default_pool" { slots := 2 } }

def dependenciesMet : Environment where
  dependencies _ := ⟨true, none⟩

end Airflow.Backfill
