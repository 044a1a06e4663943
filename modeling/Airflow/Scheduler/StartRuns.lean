import Airflow.State
import Airflow.Lib.Transition
import Mathlib.Data.List.Sort

/-!
# `_start_queued_dagruns` by concurrent schedulers

Each scheduler runs `_start_queued_dagruns` in a transaction of three statements that other
transactions may come between: it selects and locks queued runs (`examine`), reads the number of
running runs of their DAGs (`count`), and sets the runs it chooses running and commits (`commit`).
A statement sees what is committed when it runs. Only rows of `dag_run` are locked, and the query
skips the locked ones.

Runs finish and are created in between. A run is named by its index in the table.
-/

namespace Airflow.StartRuns

/-- A row of `dag_run`. `startedByScheduler` records that a scheduler set it running; nothing reads
it. -/
structure DagRun where
  dagId : String
  runType : DagRunType := .scheduled
  state : DagRunState
  executionDate : Int
  lastSchedulingDecision : Option Int := none
  startedByScheduler : Bool := false
  deriving DecidableEq, Repr

/-- A DAG: its `DagModel`, and whether it has a serialized DAG. Both have the same
`max_active_runs`. -/
structure Dag where
  isPaused : Bool := false
  isActive : Bool := true
  maxActiveRuns : Nat
  serialized : Bool := true

/-- Where a scheduler is in its transaction. -/
inductive Transaction where
  | idle
  /-- It holds the locks of these queued runs. -/
  | examined (dagRuns : List Nat)
  /-- It has also read `active_runs_of_dags`. -/
  | counted (dagRuns : List Nat) (activeRunsOfDags : String → Nat)

def Transaction.locked : Transaction → List Nat
  | .idle => []
  | .examined dagRuns | .counted dagRuns _ => dagRuns

/-- The committed runs, and one transaction for each scheduler. -/
structure Database where
  runs : List DagRun
  transactions : List Transaction

/-- `active_runs_of_dags` with `only_running`. -/
def activeRuns (runs : List DagRun) (dagId : String) : Nat :=
  runs.countP fun r => r.dagId = dagId ∧ r.state = .running

/-- `nulls_first(last_scheduling_decision), execution_date`. -/
def examineBefore (a b : DagRun) : Prop :=
  match a.lastSchedulingDecision, b.lastSchedulingDecision with
  | none, some _ => True
  | some _, none => False
  | none, none => a.executionDate ≤ b.executionDate
  | some x, some y => x < y ∨ x = y ∧ a.executionDate ≤ b.executionDate

instance (a b : DagRun) : Decidable (examineBefore a b) := by
  unfold examineBefore
  split <;> infer_instance

section
variable (dags : String → Option Dag)

/-- The conditions of the query for queued runs. -/
def examinable (runs : List DagRun) (latest : Option Int) (run : DagRun) : Bool :=
  run.state = .queued ∧ run.runType ≠ .backfillJob ∧
    (dags run.dagId).any (fun dag => ¬dag.isPaused ∧ dag.isActive ∧
      activeRuns runs run.dagId < dag.maxActiveRuns) ∧
    latest.all (run.executionDate ≤ ·)

/-- `next_dagruns_to_examine(QUEUED)`: up to `maxNumber` runs that are not locked, none later than
`latest` unless future dates are allowed. -/
def nextDagrunsToExamine (runs : List DagRun) (locked : List Nat) (latest : Option Int)
    (maxNumber : Nat) : List Nat :=
  (((runs.zipIdx.filter fun r => examinable dags runs latest r.1 ∧ r.2 ∉ locked).insertionSort
    fun a b => examineBefore a.1 b.1).take maxNumber).map (·.2)

/-- One iteration of the loop of `_start_queued_dagruns`. -/
def startRun (acc : List DagRun × (String → Nat)) (run : Nat) : List DagRun × (String → Nat) :=
  let (runs, activeRunsOfDags) := acc
  match runs[run]? with
  | none => acc
  | some dagRun =>
    match dags dagRun.dagId with
    | none => acc
    | some dag =>
      if ¬dag.serialized then acc
      else if dag.maxActiveRuns ≠ 0 ∧ activeRunsOfDags dagRun.dagId ≥ dag.maxActiveRuns then acc
      else
        (runs.set run { dagRun with state := .running, startedByScheduler := true },
          Function.update activeRunsOfDags dagRun.dagId (activeRunsOfDags dagRun.dagId + 1))

/-- What happens to the database. -/
inductive Event where
  | examine (scheduler : Nat) (latest : Option Int) (maxNumber : Nat)
  | count (scheduler : Nat)
  | commit (scheduler : Nat)
  /-- A running run ends. -/
  | finish (run : Nat) (failed : Bool)
  /-- A queued run is created. -/
  | create (dagId : String) (runType : DagRunType) (executionDate : Int)

/-- The rows that some transaction has locked. -/
def Database.locked (db : Database) : List Nat := db.transactions.flatMap Transaction.locked

/-- The database after an event; an event that its scheduler or run is not ready for does
nothing. -/
def step (db : Database) : Event → Database
  | .examine i latest maxNumber =>
    match db.transactions[i]? with
    | some .idle =>
      let dagRuns := nextDagrunsToExamine dags db.runs db.locked latest maxNumber
      { db with transactions := db.transactions.set i (.examined dagRuns) }
    | _ => db
  | .count i =>
    match db.transactions[i]? with
    | some (.examined dagRuns) =>
      { db with transactions := db.transactions.set i (.counted dagRuns (activeRuns db.runs)) }
    | _ => db
  | .commit i =>
    match db.transactions[i]? with
    | some (.counted dagRuns activeRunsOfDags) =>
      { runs := (dagRuns.foldl (startRun dags) (db.runs, activeRunsOfDags)).1
        transactions := db.transactions.set i .idle }
    | _ => db
  | .finish run failed =>
    match db.runs[run]? with
    | some dagRun =>
      if dagRun.state = .running then
        let finished := { dagRun with state := if failed then .failed else .success }
        { db with runs := db.runs.set run finished }
      else db
    | none => db
  | .create dagId runType executionDate =>
    { db with runs := db.runs ++ [{ dagId, runType, state := .queued, executionDate }] }

end

/-- Any table of runs that no scheduler has started, and any number of idle schedulers. -/
def Database.init (runs : List DagRun) (schedulers : Nat) : Database where
  runs := runs.map fun r => { r with startedByScheduler := false }
  transactions := List.replicate schedulers .idle

/-!
## `max_active_runs` under concurrent schedulers

`max_active_runs_respected`: in a run of the database in which no transaction commits with a count
that other transactions have made out of date (`CountsCurrent`), the schedulers never have more than
`max_active_runs` of their started runs running. The rows that a transaction locks are the queued
runs it may start, so two transactions that lock different runs of one DAG read the same count and
both start theirs (`two_schedulers_exceed`).
-/

/-- The running runs of the DAG that the schedulers started. -/
def startedRuns (runs : List DagRun) (dagId : String) : Nat :=
  runs.countP fun r => r.dagId = dagId ∧ r.state = .running ∧ r.startedByScheduler

/-- No DAG has more started runs running than its `max_active_runs`. -/
def Respected (dags : String → Option Dag) (runs : List DagRun) : Prop :=
  ∀ dagId dag, dags dagId = some dag → startedRuns runs dagId ≤ dag.maxActiveRuns

/-- The DAG of a run. -/
def dagOf (runs : List DagRun) (run : Nat) : Option String := runs[run]?.map (·.dagId)

/-- A transaction that commits has read, for the DAGs of the runs it has locked, at least as many
running runs as there are. -/
def CountsCurrent (db : Database) : Event → Prop
  | .commit i => ∀ dagRuns activeRunsOfDags,
    db.transactions[i]? = some (.counted dagRuns activeRunsOfDags) →
      ∀ run ∈ dagRuns, ∀ dagId, dagOf db.runs run = some dagId →
        activeRuns db.runs dagId ≤ activeRunsOfDags dagId
  | _ => True

/-- The run's DAG is known and admits running runs. -/
def Startable (dags : String → Option Dag) (runs : List DagRun) (run : Nat) : Prop :=
  ∃ dagId dag, dagOf runs run = some dagId ∧ dags dagId = some dag ∧ dag.maxActiveRuns ≠ 0

/-- The bound, and what locked runs are. -/
structure Inv (dags : String → Option Dag) (db : Database) : Prop where
  respected : Respected dags db.runs
  startable : ∀ t ∈ db.transactions, ∀ run ∈ t.locked, Startable dags db.runs run

/-! ## Updates of one row -/

theorem startedRuns_le (runs : List DagRun) (dagId : String) :
    startedRuns runs dagId ≤ activeRuns runs dagId := by
  refine List.countP_mono_left fun r _ h => ?_
  simp only [decide_eq_true_eq] at h ⊢
  exact ⟨h.1, h.2.1⟩

theorem countP_set_le {α : Type*} {p : α → Bool} {l : List α} {i : Nat} {a : α} :
    (l.set i a).countP p ≤ l.countP p + if p a = true then 1 else 0 := by
  by_cases h : i < l.length
  · rw [List.countP_set h]
    omega
  · rw [List.set_eq_of_length_le (Nat.le_of_not_lt h)]
    omega

theorem activeRuns_set_le (runs : List DagRun) (run : Nat) (r : DagRun) (dagId : String) :
    activeRuns (runs.set run r) dagId ≤ activeRuns runs dagId + if r.dagId = dagId then 1 else 0 := by
  refine countP_set_le.trans (Nat.add_le_add_left ?_ _)
  by_cases h : r.dagId = dagId
  · rw [if_pos h]
    split <;> omega
  · simp [h]

theorem startedRuns_set_le {runs : List DagRun} {run : Nat} {r : DagRun} {dagId : String}
    (h : r.dagId = dagId → r.state ≠ .running) :
    startedRuns (runs.set run r) dagId ≤ startedRuns runs dagId := by
  refine countP_set_le.trans ?_
  rw [if_neg, Nat.add_zero]
  · exact Nat.le_refl _
  · rw [decide_eq_true_eq]
    exact fun hr => h hr.1 hr.2.1

theorem dagOf_set {runs : List DagRun} {run : Nat} {r : DagRun}
    (h : dagOf runs run = some r.dagId) : dagOf (runs.set run r) = dagOf runs := by
  funext k
  unfold dagOf at h ⊢
  rw [List.getElem?_set]
  split
  · rename_i hk
    subst hk
    split
    · exact h.symm
    · rename_i hlt
      rw [List.getElem?_eq_none (Nat.le_of_not_lt hlt)]
  · rfl

theorem dagOf_append {runs : List DagRun} {run : Nat} {dagId : String}
    (h : dagOf runs run = some dagId) (new : List DagRun) : dagOf (runs ++ new) run = some dagId := by
  unfold dagOf at h ⊢
  obtain ⟨r, hr, rfl⟩ := Option.map_eq_some_iff.1 h
  rw [List.getElem?_append_left (List.getElem?_eq_some_iff.1 hr).1, hr]
  rfl

/-! ## The loop of a transaction -/

theorem startRun_cases (dags : String → Option Dag) (runs : List DagRun)
    (counts : String → Nat) (run : Nat) :
    startRun dags (runs, counts) run = (runs, counts) ∨
      ∃ r dag, dagOf runs run = some r.dagId ∧ dags r.dagId = some dag ∧
        (dag.maxActiveRuns = 0 ∨ counts r.dagId < dag.maxActiveRuns) ∧
        startRun dags (runs, counts) run =
          (runs.set run r, Function.update counts r.dagId (counts r.dagId + 1)) := by
  unfold startRun
  dsimp only
  split
  · exact .inl rfl
  rename_i r hr
  split
  · exact .inl rfl
  rename_i dag hdag
  split
  · exact .inl rfl
  split
  · exact .inl rfl
  · rename_i hmax
    refine .inr ⟨{ r with state := .running, startedByScheduler := true }, dag, ?_, hdag, ?_, rfl⟩
    · simp [dagOf, hr]
    · rw [not_and_or, not_not, not_le] at hmax
      exact hmax

/-- With counts that are not too low the loop keeps the bound. -/
theorem foldl_startRun {dags : String → Option Dag} {dagRuns : List Nat} {runs : List DagRun}
    {counts : String → Nat}
    (hcounts : ∀ run ∈ dagRuns, ∀ dagId, dagOf runs run = some dagId →
      activeRuns runs dagId ≤ counts dagId)
    (hstart : ∀ run ∈ dagRuns, Startable dags runs run) (hresp : Respected dags runs) :
    Respected dags (dagRuns.foldl (startRun dags) (runs, counts)).1 ∧
      dagOf (dagRuns.foldl (startRun dags) (runs, counts)).1 = dagOf runs := by
  induction dagRuns generalizing runs counts with
  | nil => exact ⟨hresp, rfl⟩
  | cons run dagRuns ih =>
    rw [List.foldl_cons]
    rcases startRun_cases dags runs counts run with h | ⟨r, dag, hr, hdag, hmax, h⟩
    · rw [h]
      exact ih (fun k hk => hcounts k (List.mem_cons_of_mem _ hk))
        (fun k hk => hstart k (List.mem_cons_of_mem _ hk)) hresp
    · rw [h]
      have hactive := hcounts run List.mem_cons_self r.dagId hr
      have hlt : counts r.dagId < dag.maxActiveRuns := by
        obtain ⟨dagId, dag', hr', hdag', hne⟩ := hstart run List.mem_cons_self
        cases hr.symm.trans hr'
        cases hdag.symm.trans hdag'
        exact hmax.resolve_left hne
      have hcounts' : ∀ k ∈ dagRuns, ∀ dagId, dagOf (runs.set run r) k = some dagId →
          activeRuns (runs.set run r) dagId ≤
            Function.update counts r.dagId (counts r.dagId + 1) dagId := by
        intro k hk dagId hk'
        rw [dagOf_set hr] at hk'
        have hle := hcounts k (List.mem_cons_of_mem _ hk) dagId hk'
        refine (activeRuns_set_le runs run r dagId).trans ?_
        by_cases hd : r.dagId = dagId
        · subst hd
          rw [if_pos rfl, Function.update_self]
          omega
        · rw [if_neg hd, Function.update_of_ne (Ne.symm hd)]
          exact hle
      have hstart' : ∀ k ∈ dagRuns, Startable dags (runs.set run r) k := by
        intro k hk
        unfold Startable
        rw [dagOf_set hr]
        exact hstart k (List.mem_cons_of_mem _ hk)
      have hresp' : Respected dags (runs.set run r) := by
        intro dagId dag' hdag'
        by_cases hd : r.dagId = dagId
        · subst hd
          cases hdag.symm.trans hdag'
          have hset := activeRuns_set_le runs run r r.dagId
          rw [if_pos rfl] at hset
          exact (startedRuns_le _ _).trans (by omega)
        · exact (startedRuns_set_le fun he => absurd he hd).trans (hresp dagId dag' hdag')
      obtain ⟨hr₁, hr₂⟩ := ih hcounts' hstart' hresp'
      exact ⟨hr₁, hr₂.trans (dagOf_set hr)⟩

/-! ## Runs of the database -/

theorem mem_nextDagrunsToExamine {dags : String → Option Dag} {runs : List DagRun}
    {locked : List Nat} {latest : Option Int} {maxNumber run : Nat}
    (h : run ∈ nextDagrunsToExamine dags runs locked latest maxNumber) :
    Startable dags runs run := by
  obtain ⟨⟨r, i⟩, hr, rfl⟩ := List.mem_map.1 h
  have hmem := (List.mem_insertionSort _).1 (List.mem_of_mem_take hr)
  obtain ⟨hzip, hex⟩ := List.mem_filter.1 hmem
  have hget : runs[i]? = some r := List.mem_zipIdx_iff_getElem?.1 hzip
  simp only [examinable, decide_eq_true_eq, Option.any_eq_true] at hex
  obtain ⟨⟨-, -, ⟨dag, hdag, -, -, hlt⟩, -⟩, -⟩ := hex
  exact ⟨r.dagId, dag, by simp [dagOf, hget], hdag, by omega⟩

theorem Startable.congr {dags : String → Option Dag} {runs runs' : List DagRun} {run : Nat}
    (h : Startable dags runs run)
    (heq : ∀ dagId, dagOf runs run = some dagId → dagOf runs' run = some dagId) :
    Startable dags runs' run := by
  obtain ⟨dagId, dag, hrun, hdag, hne⟩ := h
  exact ⟨dagId, dag, heq dagId hrun, hdag, hne⟩

theorem Inv.init (dags : String → Option Dag) (runs : List DagRun) (schedulers : Nat) :
    Inv dags (.init runs schedulers) := by
  refine ⟨fun dagId dag _ => ?_, fun t ht run hrun => ?_⟩
  · have hzero : startedRuns (Database.init runs schedulers).runs dagId = 0 := by
      simp [startedRuns, Database.init, List.countP_eq_zero]
    omega
  · rw [List.eq_of_mem_replicate ht] at hrun
    exact absurd hrun List.not_mem_nil

/-- A transaction that changes to `t` keeps what the locked runs are if `t`'s are so. -/
theorem startable_set {dags : String → Option Dag} {db : Database} {i : Nat} {t : Transaction}
    (hi : Inv dags db) (ht : ∀ run ∈ t.locked, Startable dags db.runs run) :
    ∀ t' ∈ db.transactions.set i t, ∀ run ∈ t'.locked, Startable dags db.runs run := by
  intro t' ht' run hrun
  rcases List.mem_or_eq_of_mem_set ht' with ht' | rfl
  · exact hi.startable t' ht' run hrun
  · exact ht run hrun

theorem Inv.step {dags : String → Option Dag} {db : Database} {e : Event} (hi : Inv dags db)
    (hc : CountsCurrent db e) : Inv dags (step dags db e) := by
  cases e with
  | examine i latest maxNumber =>
    simp only [StartRuns.step]
    split
    · exact ⟨hi.respected, startable_set hi fun run hrun => mem_nextDagrunsToExamine hrun⟩
    · exact hi
  | count i =>
    simp only [StartRuns.step]
    split
    · rename_i dagRuns ht
      exact ⟨hi.respected,
        startable_set hi fun run hrun => hi.startable _ (List.mem_of_getElem? ht) run hrun⟩
    · exact hi
  | commit i =>
    simp only [StartRuns.step]
    split
    · rename_i dagRuns counts ht
      obtain ⟨hresp, hdags⟩ := foldl_startRun (hc dagRuns counts ht)
        (fun run hrun => hi.startable _ (List.mem_of_getElem? ht) run hrun) hi.respected
      refine ⟨hresp, fun t' ht' run hrun => ?_⟩
      refine (startable_set hi (t := .idle) (fun _ h => absurd h List.not_mem_nil) t' ht' run
        hrun).congr fun dagId h => ?_
      dsimp only
      rw [hdags]
      exact h
    · exact hi
  | finish run failed =>
    simp only [StartRuns.step]
    split
    · rename_i r hr
      split
      · have hdag : dagOf db.runs run = some r.dagId := by simp [dagOf, hr]
        refine ⟨fun dagId dag hd => ?_, fun t ht k hk => ?_⟩
        · refine (startedRuns_set_le fun _ => ?_).trans (hi.respected dagId dag hd)
          cases failed <;> simp
        · refine (hi.startable t ht k hk).congr fun dagId h => ?_
          dsimp only
          rw [dagOf_set (by exact hdag)]
          exact h
      · exact hi
    · exact hi
  | create dagId runType executionDate =>
    refine ⟨fun d dag hd => ?_, fun t ht k hk => ?_⟩
    · have hle := hi.respected d dag hd
      simpa [StartRuns.step, startedRuns, List.countP_append] using hle
    · exact (hi.startable t ht k hk).congr fun _ h => dagOf_append h _

/-- **`max_active_runs` is respected by concurrent schedulers** in every run of the database in
which each transaction commits with a count that is still current. -/
theorem max_active_runs_respected (dags : String → Option Dag) (runs : List DagRun)
    (schedulers : Nat) (events : List Event)
    (h : Transition.AllSteps (step dags) CountsCurrent (.init runs schedulers) events) :
    ∀ db ∈ Transition.states (step dags) (.init runs schedulers) events,
      Respected dags db.runs := fun db hdb =>
  (h.states (I := Inv dags) (fun _ _ hi hc => hi.step hc) (.init dags runs schedulers) db
    hdb).respected

/-- Every DAG allows one active run. -/
def singleRunDags : String → Option Dag := fun _ => some { maxActiveRuns := 1 }

/-- Two queued runs of a DAG. -/
def twoQueuedRuns : List DagRun :=
  [{ dagId := "etl", state := .queued, executionDate := 1 },
    { dagId := "etl", state := .queued, executionDate := 2 }]

/-- Two schedulers lock one queued run each, read that none is running, and start both. -/
theorem two_schedulers_exceed : ¬∀ (dags : String → Option Dag) (runs : List DagRun)
    (schedulers : Nat) (events : List Event),
    ∀ db ∈ Transition.states (step dags) (.init runs schedulers) events,
      Respected dags db.runs := by
  intro h
  have hexceed := h singleRunDags twoQueuedRuns 2
    [.examine 0 none 1, .examine 1 none 1, .count 0, .count 1, .commit 0, .commit 1] _
    (List.mem_of_getElem? (i := 6) rfl) "etl" _ rfl
  exact absurd hexceed (by decide)

/-- One scheduler alone starts one of the two runs. -/
theorem one_scheduler_respects :
    Transition.AllSteps (step singleRunDags) CountsCurrent (.init twoQueuedRuns 1)
      [.examine 0 none 20, .count 0, .commit 0] ∧
    ∀ db ∈ Transition.states (step singleRunDags) (.init twoQueuedRuns 1)
      [.examine 0 none 20, .count 0, .commit 0], Respected singleRunDags db.runs := by
  have hsteps : Transition.AllSteps (step singleRunDags) CountsCurrent (.init twoQueuedRuns 1)
      [.examine 0 none 20, .count 0, .commit 0] := by
    refine ⟨trivial, trivial, fun dagRuns counts ht run _ dagId _ => ?_, trivial⟩
    obtain ⟨-, rfl⟩ := Transaction.counted.inj (Option.some.inj ht)
    exact Nat.le_refl _
  exact ⟨hsteps, max_active_runs_respected _ _ _ _ hsteps⟩

end Airflow.StartRuns
