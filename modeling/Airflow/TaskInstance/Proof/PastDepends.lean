import Airflow.TaskInstance.PastDepends
import Mathlib.Algebra.Ring.Nat

/-!
# When the past lets a task instance run

`are_dependents_done` compares a number of rows with a number of tasks, which is right unless the
instances that a task has beyond one make up for the ones that are missing or unsuccessful
(`areDependentsDone_exact_iff`). `PrevDagrunDep` looks at every row of the previous run, in which
only `SUCCESS` and `SKIPPED` are successful (`isMet_iff`).
-/

namespace Airflow.PastDepends

/-! ## Counting rows by key -/

section
variable {α κ : Type} [DecidableEq κ] {p q : α → Bool} {key : α → κ} {rows : List α}

theorem countP_or_disjoint (h : ∀ a, p a = true → q a = false) :
    rows.countP (fun a => p a || q a) = rows.countP p + rows.countP q := by
  induction rows with
  | nil => rfl
  | cons a rows ih =>
    rw [List.countP_cons, List.countP_cons, List.countP_cons, ih]
    cases hp : p a with
    | false => simp [Nat.add_assoc]
    | true =>
      simp [h a hp]
      omega

/-- The rows of some keys are those of each key. -/
theorem countP_keys {keys : List κ} (hnodup : keys.Nodup) :
    rows.countP (fun a => keys.contains (key a) && p a) =
      (keys.map fun k => (rows.filter (key · = k)).countP p).sum := by
  induction keys with
  | nil => simp
  | cons k keys ih =>
    obtain ⟨hk, hnodup⟩ := List.nodup_cons.mp hnodup
    rw [List.map_cons, List.sum_cons, ← ih hnodup, List.countP_filter]
    rw [← countP_or_disjoint]
    · congr 1
      funext a
      by_cases hkey : key a = k <;> simp [hkey]
    · intro a ha
      simp only [Bool.and_eq_true, decide_eq_true_iff] at ha
      simp [ha.2, hk]

/-- Of lists of rows, those that are right and wrong, and one for each empty list, are as many as
the lists and the rows that are there beyond one. -/
theorem countP_add_surplus (lists : List (List α)) :
    (lists.map (·.countP p)).sum + (lists.countP (·.isEmpty) +
      (lists.map (·.countP fun a => !p a)).sum) =
      lists.length + (lists.map fun l => l.length - 1).sum := by
  induction lists with
  | nil => rfl
  | cons l lists ih =>
    have hlength : l.length = l.countP p + l.countP fun a => !p a := by
      rw [List.length_eq_countP_add_countP p]
      simp
    cases l with
    | nil =>
      simp only [List.map_cons, List.countP_cons, List.sum_cons, List.length_cons] at ih ⊢
      simp
      omega
    | cons a l =>
      have hempty : ((a :: l) :: lists).countP (·.isEmpty) = lists.countP (·.isEmpty) := by simp
      simp only [List.map_cons, List.sum_cons, List.length_cons, hempty] at ih hlength ⊢
      omega

end

/-! ## `are_dependents_done` -/

theorem isUnsuccessful_eq (row : TaskInstance) : row.isUnsuccessful = !row.isSuccessful := by
  rw [TaskInstance.isUnsuccessful, TaskInstance.isSuccessful]
  cases row.state <;> simp

theorem isSuccessful_iff {row : TaskInstance} :
    row.isSuccessful = true ↔ row.state = some .success ∨ row.state = some .skipped := by
  rw [TaskInstance.isSuccessful]
  rcases row.state with _ | state
  · simp
  · cases state <;> decide

section
variable (db : Database) (ti : TaskInstance) (task : Operator)

/-- The rows of each direct downstream task in the run. -/
def dependents : List (List TaskInstance) :=
  task.downstreamTaskIds.map (db.rowsOf ti.dagId ti.runId)

/-- Every direct downstream task has instances, and all of them succeeded or were skipped. -/
def DependentsDone : Prop :=
  ∀ rows ∈ dependents db ti task, rows ≠ [] ∧
    ∀ row ∈ rows, row.state = some .success ∨ row.state = some .skipped

/-- The instances of the downstream tasks beyond one of each. -/
def surplus : Nat := ((dependents db ti task).map fun rows => rows.length - 1).sum

/-- The downstream tasks without an instance, and the instances in other states. -/
def outstanding : Nat :=
  (dependents db ti task).countP (·.isEmpty) +
    ((dependents db ti task).map (·.countP TaskInstance.isUnsuccessful)).sum

variable {db ti task}

theorem rowsOf_eq_filter (dagId runId : String) (t : TaskId) :
    db.rowsOf dagId runId t =
      (db.taskInstances.filter fun row => row.dagId = dagId ∧ row.runId = runId).filter
        (·.taskId = t) := by
  rw [List.filter_filter]
  apply List.filter_congr
  intro row _
  simp only [Bool.decide_and]
  rw [← Bool.and_assoc, Bool.and_comm]

theorem count_successful : db.taskInstances.countP (fun row =>
      row.dagId = ti.dagId ∧ task.downstreamTaskIds.contains row.taskId ∧
        row.runId = ti.runId ∧ row.isSuccessful) =
      ((dependents db ti task).map (·.countP TaskInstance.isSuccessful)).sum := by
  rw [dependents, List.map_map]
  have hrows : (fun rows : List TaskInstance => rows.countP TaskInstance.isSuccessful) ∘
      db.rowsOf ti.dagId ti.runId = fun t =>
        ((db.taskInstances.filter fun row => row.dagId = ti.dagId ∧ row.runId = ti.runId).filter
          (·.taskId = t)).countP TaskInstance.isSuccessful := by
    funext t
    rw [Function.comp_apply, rowsOf_eq_filter]
  rw [hrows, ← countP_keys task.downstreamTaskIds_nodup, List.countP_filter]
  congr 1
  funext row
  simp only [Bool.decide_and, Bool.decide_eq_true]
  grind

/-- **The instances beyond one of a task count for the outstanding ones.** -/
theorem areDependentsDone_iff :
    db.areDependentsDone ti task = true ↔ surplus db ti task = outstanding db ti task := by
  have hsum := countP_add_surplus (p := TaskInstance.isSuccessful) (dependents db ti task)
  have hlength : (dependents db ti task).length = task.downstreamTaskIds.length :=
    List.length_map _
  have hunsuccessful : (fun row : TaskInstance => !row.isSuccessful) =
      TaskInstance.isUnsuccessful := funext fun row => (isUnsuccessful_eq row).symm
  rw [hlength, hunsuccessful] at hsum
  rw [surplus, outstanding, Database.areDependentsDone, count_successful]
  split
  case isTrue hnone =>
    have hnil : dependents db ti task = [] := by rw [dependents, hnone, List.map_nil]
    simp [hnil]
  case isFalse hsome =>
    rw [decide_eq_true_iff]
    omega

theorem dependentsDone_iff : DependentsDone db ti task ↔ outstanding db ti task = 0 := by
  rw [outstanding, Nat.add_eq_zero_iff, List.countP_eq_zero, List.sum_eq_zero_iff_forall_eq_nat,
    List.forall_mem_map]
  constructor
  · intro h
    refine ⟨fun rows hrows => ?_, fun rows hrows => ?_⟩
    · simpa using (h rows hrows).1
    · rw [List.countP_eq_zero]
      intro row hrow
      simp [isUnsuccessful_eq, isSuccessful_iff.mpr ((h rows hrows).2 row hrow)]
  · rintro ⟨hempty, hunsuccessful⟩ rows hrows
    refine ⟨by simpa using hempty rows hrows, fun row hrow => ?_⟩
    have hnot := List.countP_eq_zero.mp (hunsuccessful rows hrows) row hrow
    rw [isUnsuccessful_eq] at hnot
    exact isSuccessful_iff.mp (by simpa using hnot)

/-- **`are_dependents_done` is exact if no downstream task has more than one instance, or if
something is outstanding and not as much as there are instances beyond one.** -/
theorem areDependentsDone_exact_iff :
    (db.areDependentsDone ti task = true ↔ DependentsDone db ti task) ↔
      surplus db ti task = 0 ∨
        outstanding db ti task ≠ 0 ∧ outstanding db ti task ≠ surplus db ti task := by
  rw [areDependentsDone_iff, dependentsDone_iff]
  omega

end

/-- A mapped task of two instances that is downstream of the task `0`. -/
def mappedDownstream : Database where
  dagRuns := [⟨1, "dag", "run", 0, .scheduled⟩]
  taskInstances := [⟨"dag", 0, "run", -1, some .success⟩, ⟨"dag", 1, "run", 0, some .success⟩,
    ⟨"dag", 1, "run", 1, some .success⟩]

/-- Two successful instances of one downstream task are not one. -/
theorem mappedDownstream_not_done :
    DependentsDone mappedDownstream ⟨"dag", 0, "run", -1, some .success⟩
        { taskId := 0, downstreamTaskIds := [1] } ∧
      mappedDownstream.areDependentsDone ⟨"dag", 0, "run", -1, some .success⟩
        { taskId := 0, downstreamTaskIds := [1] } = false := by
  refine ⟨?_, by decide⟩
  rw [dependentsDone_iff]
  decide

/-! ## The previous run -/

/-- The run before `dr`: the latest earlier one of the DAG, of those not started by hand if the
DAG catches up. -/
structure IsPrevious (db : Database) (task : Operator) (dr last : DagRun) : Prop where
  mem : last ∈ db.dagRuns
  dagId : last.dagId = dr.dagId
  earlier : last.executionDate < dr.executionDate
  scheduled : task.catchesUp = true → last.runType ≠ .manual
  latest : ∀ run ∈ db.dagRuns, run.dagId = dr.dagId → run.executionDate < dr.executionDate →
    (task.catchesUp = true → run.runType ≠ .manual) → run.executionDate ≤ last.executionDate

section
variable {db : Database} {ti : TaskInstance} {task : Operator} {dr last : DagRun}

theorem latest_spec {runs : List DagRun} :
    match Database.latest runs with
    | none => runs = []
    | some last => last ∈ runs ∧ ∀ run ∈ runs, run.executionDate ≤ last.executionDate := by
  induction runs with
  | nil => rfl
  | cons run runs ih =>
    rw [Database.latest]
    cases hlatest : Database.latest runs with
    | none =>
      simp only [hlatest] at ih
      simp [ih]
    | some other =>
      simp only [hlatest] at ih
      obtain ⟨hmem, hle⟩ := ih
      by_cases hlt : run.executionDate < other.executionDate
      · simp only [if_pos hlt]
        exact ⟨List.mem_cons_of_mem _ hmem, List.forall_mem_cons.mpr ⟨Int.le_of_lt hlt, hle⟩⟩
      · simp only [if_neg hlt]
        refine ⟨List.mem_cons_self, List.forall_mem_cons.mpr ⟨Int.le_refl _, fun r hr => ?_⟩⟩
        exact Int.le_trans (hle r hr) (Int.not_lt.mp hlt)

/-- The latest of some runs of a DAG is the one that a query ordered by their dates returns. -/
theorem latest_eq_some_iff {dagId : String} {runs : List DagRun} (hsub : runs.Sublist db.dagRuns)
    (hdag : ∀ run ∈ runs, run.dagId = dagId) :
    Database.latest runs = some last ↔
      last ∈ runs ∧ ∀ run ∈ runs, run.executionDate ≤ last.executionDate := by
  have hspec := @latest_spec runs
  constructor
  · intro h
    rwa [h] at hspec
  · rintro ⟨hmem, hlatest⟩
    cases hmax : Database.latest runs with
    | none =>
      rw [hmax] at hspec
      rw [hspec] at hmem
      cases hmem
    | some other =>
      rw [hmax] at hspec
      obtain ⟨hother, hle⟩ := hspec
      have hdate : other.executionDate = last.executionDate :=
        Int.le_antisymm (hlatest other hother) (hle last hmem)
      have heq : other = last := by
        apply List.inj_on_of_nodup_map db.executionDate_nodup (hsub.subset hother)
          (hsub.subset hmem)
        rw [hdag other hother, hdag last hmem, hdate]
      rw [heq]

theorem lastDagrun_eq_some_iff (hdr : dr ∈ db.dagRuns) :
    lastDagrun db task dr = some last ↔ IsPrevious db task dr last := by
  rw [lastDagrun]
  cases hcatchup : task.catchesUp with
  | false =>
    rw [if_neg (by simp), Database.getPreviousDagrun, latest_eq_some_iff List.filter_sublist]
    · simp only [List.mem_filter, decide_eq_true_iff]
      constructor
      · rintro ⟨⟨hmem, hdag, hlt⟩, hlatest⟩
        exact ⟨hmem, hdag, hlt, by simp [hcatchup],
          fun run hrun hdag' hlt' _ => hlatest run ⟨hrun, hdag', hlt'⟩⟩
      · intro h
        exact ⟨⟨h.mem, h.dagId, h.earlier⟩,
          fun run hrun => h.latest run hrun.1 hrun.2.1 hrun.2.2 (by simp [hcatchup])⟩
    · intro run hrun
      simp only [List.mem_filter, decide_eq_true_iff] at hrun
      exact hrun.2.1
  | true =>
    have hfind : db.dagRuns.find? (·.id = dr.id) = some dr := by
      cases hfind : db.dagRuns.find? (·.id = dr.id) with
      | none => exact absurd (List.find?_eq_none.mp hfind dr hdr) (by simp)
      | some other =>
        have hid := List.find?_some hfind
        rw [decide_eq_true_iff] at hid
        rw [List.inj_on_of_nodup_map db.id_nodup (List.mem_of_find?_eq_some hfind) hdr hid]
    simp only [if_true, Database.getPreviousScheduledDagrun, hfind]
    rw [latest_eq_some_iff List.filter_sublist]
    · simp only [List.mem_filter, decide_eq_true_iff]
      constructor
      · rintro ⟨⟨hmem, hdag, hlt, htype⟩, hlatest⟩
        exact ⟨hmem, hdag, hlt, fun _ => htype,
          fun run hrun hdag' hlt' htype' => hlatest run ⟨hrun, hdag', hlt', htype' hcatchup⟩⟩
      · intro h
        exact ⟨⟨h.mem, h.dagId, h.earlier, h.scheduled hcatchup⟩,
          fun run hrun => h.latest run hrun.1 hrun.2.1 hrun.2.2.1 fun _ => hrun.2.2.2⟩
    · intro run hrun
      simp only [List.mem_filter, decide_eq_true_iff] at hrun
      exact hrun.2.1

theorem dagRunOf_eq (hdr : dr ∈ db.dagRuns) (hdag : dr.dagId = ti.dagId)
    (hrun : dr.runId = ti.runId) : db.dagRunOf ti = some dr := by
  cases hfind : db.dagRunOf ti with
  | none => exact absurd (List.find?_eq_none.mp hfind dr hdr) (by simp [hdag, hrun])
  | some other =>
    have hkey := List.find?_some hfind
    rw [decide_eq_true_iff] at hkey
    have heq : other = dr := by
      apply List.inj_on_of_nodup_map db.runId_nodup (List.mem_of_find?_eq_some hfind) hdr
      rw [hkey.1, hkey.2, hdag, hrun]
    rw [heq]

/-! ## What counts there -/

/-- All rows of a task in a run succeeded or were skipped. -/
def Succeeded (db : Database) (run : DagRun) (t : TaskId) : Prop :=
  ∀ row ∈ db.rowsOf run.dagId run.runId t, row.state = some .success ∨ row.state = some .skipped

theorem mem_rowsOf {dagId runId : String} {t : TaskId} {row : TaskInstance} :
    row ∈ db.rowsOf dagId runId t ↔ row ∈ db.taskInstances ∧ row.dagId = dagId ∧
      row.runId = runId ∧ row.taskId = t := by
  rw [Database.rowsOf, List.mem_filter, decide_eq_true_iff]

theorem hasTis_eq_true {t : TaskId} :
    db.hasTis last t = true ↔ db.rowsOf last.dagId last.runId t ≠ [] := by
  rw [Database.hasTis, List.any_eq_true]
  constructor
  · rintro ⟨row, hrow, hkey⟩
    rw [decide_eq_true_iff] at hkey
    exact List.ne_nil_of_mem (mem_rowsOf.mpr ⟨hrow, hkey.1, hkey.2.2, hkey.2.1⟩)
  · intro hne
    obtain ⟨row, rows, hrows⟩ := List.exists_cons_of_ne_nil hne
    have hmem : row ∈ db.rowsOf last.dagId last.runId t := by simp [hrows]
    obtain ⟨hrow, hdag, hrun, htask⟩ := mem_rowsOf.mp hmem
    exact ⟨row, hrow, by simp [hdag, hrun, htask]⟩

theorem countUnsuccessfulTis_eq_zero {t : TaskId} :
    db.countUnsuccessfulTis last t = 0 ↔ Succeeded db last t := by
  rw [Database.countUnsuccessfulTis, List.countP_eq_zero]
  constructor
  · intro h row hrow
    obtain ⟨hmem, hdag, hrun, htask⟩ := mem_rowsOf.mp hrow
    have hnot := h row hmem
    rw [isUnsuccessful_eq] at hnot
    exact isSuccessful_iff.mp (by simpa [hdag, hrun, htask] using hnot)
  · intro h row hmem hkey
    simp only [decide_eq_true_iff] at hkey
    obtain ⟨hdag, htask, hrun, hunsuccessful⟩ := hkey
    have hsuccess := isSuccessful_iff.mpr (h row (mem_rowsOf.mpr ⟨hmem, hdag, hrun, htask⟩))
    simp [isUnsuccessful_eq, hsuccess] at hunsuccessful

theorem hasUnsuccessfulDependants_eq_false :
    db.hasUnsuccessfulDependants last task = false ↔
      ∀ t ∈ task.downstreamTaskIds, Succeeded db last t := by
  rw [Database.hasUnsuccessfulDependants]
  split
  case isTrue hnone => simp [hnone]
  case isFalse hsome =>
    rw [List.any_eq_false]
    constructor
    · intro h t ht row hrow
      obtain ⟨hmem, hdag, hrun, htask⟩ := mem_rowsOf.mp hrow
      have hnot := h row hmem
      rw [isUnsuccessful_eq] at hnot
      exact isSuccessful_iff.mp (by simpa [hdag, hrun, htask, ht] using hnot)
    · intro h row hmem hkey
      simp only [decide_eq_true_iff, List.contains_iff_mem] at hkey
      obtain ⟨hdag, htask, hrun, hunsuccessful⟩ := hkey
      have hsuccess := isSuccessful_iff.mpr
        (h row.taskId htask row (mem_rowsOf.mpr ⟨hmem, hdag, hrun, rfl⟩))
      simp [isUnsuccessful_eq, hsuccess] at hunsuccessful

/-- Where the task has rows in the previous run, all statuses pass if all that counts succeeded. -/
theorem statusesOf_passed (depContext : DepContext)
    (hrows : db.rowsOf last.dagId last.runId ti.taskId ≠ []) :
    (statusesOf db ti task depContext last).statuses.all (·.passed) = true ↔
      Succeeded db last ti.taskId ∧ (task.waitForDownstream = true →
        ∀ t ∈ task.downstreamTaskIds, Succeeded db last t) := by
  rw [statusesOf, if_neg (by simp [hasTis_eq_true.mpr hrows])]
  rw [← countUnsuccessfulTis_eq_zero, ← hasUnsuccessfulDependants_eq_false]
  by_cases hcount : db.countUnsuccessfulTis last ti.taskId = 0
  · cases hwait : task.waitForDownstream <;>
      cases hdependants : db.hasUnsuccessfulDependants last task <;>
        simp [hcount, passing, failingStatus]
  · have hpos : db.countUnsuccessfulTis last ti.taskId > 0 := Nat.pos_of_ne_zero hcount
    simp [hcount, hpos, failingStatus]

/-- The context lets the dependency be ignored. -/
def DepContext.ignoresPast (depContext : DepContext) : Bool :=
  depContext.ignoreAllDeps || depContext.ignoreTaskDeps || depContext.ignoreDependsOnPast

/-- The DAG catches up, and the previous run is before the task's start date. -/
def StartedLater (task : Operator) (last : DagRun) : Prop :=
  task.catchesUp = true ∧ ∃ startDate, task.startDate = some startDate ∧
    last.executionDate < startDate

theorem getDepStatuses_ignored {depContext : DepContext} (h : depContext.ignoresPast = true) :
    isMet db ti task depContext = .ok true := by
  rw [DepContext.ignoresPast, Bool.or_eq_true, Bool.or_eq_true] at h
  rw [isMet, getDepStatuses, prevDagrunStatuses]
  by_cases hall : depContext.ignoreAllDeps = true
  · simp [hall, passingStatus]
  by_cases htask : depContext.ignoreTaskDeps = true
  · simp [hall, htask, passingStatus]
  have hpast : depContext.ignoreDependsOnPast = true := by simpa [hall, htask] using h
  simp [hall, htask, hpast, passing, passingStatus]

/-- **With a row of the task in the previous run, the dependency is met if the context ignores it,
if the task started later, or if every row there, removed ones included, succeeded or was
skipped.** -/
theorem isMet_iff (depContext : DepContext) (hpast : task.dependsOnPast = true)
    (hdr : dr ∈ db.dagRuns) (hdag : dr.dagId = ti.dagId) (hrun : dr.runId = ti.runId)
    (hlast : IsPrevious db task dr last)
    (hrows : db.rowsOf last.dagId last.runId ti.taskId ≠ []) :
    isMet db ti task depContext = .ok true ↔
      depContext.ignoresPast = true ∨ StartedLater task last ∨
        ((task.catchesUp = true → task.startDate.isSome) ∧ Succeeded db last ti.taskId ∧
          (task.waitForDownstream = true →
            ∀ t ∈ task.downstreamTaskIds, Succeeded db last t)) := by
  by_cases hignores : depContext.ignoresPast = true
  · simp [getDepStatuses_ignored hignores, hignores]
  have hheeds : depContext.ignoreAllDeps = false ∧ depContext.ignoreTaskDeps = false ∧
      depContext.ignoreDependsOnPast = false := by
    simpa [DepContext.ignoresPast, Bool.or_eq_true, not_or, and_assoc] using hignores
  obtain ⟨hall, htask, hdepends⟩ := hheeds
  rw [← statusesOf_passed depContext hrows]
  simp only [isMet, getDepStatuses, hall, htask, prevDagrunStatuses, hdepends, hpast,
    dagRunOf_eq hdr hdag hrun, (lastDagrun_eq_some_iff hdr).mpr hlast, startsAfter, hignores,
    StartedLater, Bool.false_eq_true, not_true_eq_false, if_false, false_or]
  cases hcatchup : task.catchesUp with
  | false => simp
  | true =>
    cases hstart : task.startDate with
    | none => simp
    | some startDate =>
      by_cases hlater : last.executionDate < startDate
      · simp [hlater, passing, passingStatus]
      · simp [hlater]

end

/-! ## A mapped task that shrank -/

/-- Two runs; in the first one an instance of the task `0` was removed. -/
def shrank : Database where
  dagRuns := [⟨1, "dag", "first", 0, .scheduled⟩, ⟨2, "dag", "second", 1, .scheduled⟩]
  taskInstances := [⟨"dag", 0, "first", 0, some .success⟩, ⟨"dag", 0, "first", 1, some .removed⟩,
    ⟨"dag", 0, "second", 0, none⟩]

/-- The task `0`, which depends on its past. -/
def sequential : Operator where
  taskId := 0
  dependsOnPast := true
  startDate := some 0
  catchup := some true

theorem shrank_isPrevious : IsPrevious shrank sequential ⟨2, "dag", "second", 1, .scheduled⟩
    ⟨1, "dag", "first", 0, .scheduled⟩ :=
  (lastDagrun_eq_some_iff (by decide)).mp (by decide)

/-- The instance of the next run is not let run, though all rows that are not removed succeeded. -/
theorem shrank_blocks :
    IsPrevious shrank sequential ⟨2, "dag", "second", 1, .scheduled⟩
        ⟨1, "dag", "first", 0, .scheduled⟩ ∧
      ¬ (isMet shrank ⟨"dag", 0, "second", 0, none⟩ sequential {} = .ok true ↔
        ∀ row ∈ shrank.rowsOf "dag" "first" 0, row.state ≠ some .removed →
          row.state = some .success ∨ row.state = some .skipped) := by
  refine ⟨shrank_isPrevious, ?_⟩
  have hmet : isMet shrank ⟨"dag", 0, "second", 0, none⟩ sequential {} = .ok false := by decide
  have hrows : ∀ row ∈ shrank.rowsOf "dag" "first" 0, row.state ≠ some .removed →
      row.state = some .success ∨ row.state = some .skipped := by decide
  rw [hmet]
  exact fun h => nomatch h.mpr hrows

theorem shrank_isMet_iff : isMet shrank ⟨"dag", 0, "second", 0, none⟩ sequential {} = .ok true ↔
    DepContext.ignoresPast {} = true ∨
      StartedLater sequential ⟨1, "dag", "first", 0, .scheduled⟩ ∨
      ((sequential.catchesUp = true → sequential.startDate.isSome) ∧
        Succeeded shrank ⟨1, "dag", "first", 0, .scheduled⟩ 0 ∧
        (sequential.waitForDownstream = true → ∀ t ∈ sequential.downstreamTaskIds,
          Succeeded shrank ⟨1, "dag", "first", 0, .scheduled⟩ t)) := by
  have hdr : ⟨2, "dag", "second", 1, .scheduled⟩ ∈ shrank.dagRuns := by decide
  exact isMet_iff {} rfl hdr rfl rfl shrank_isPrevious (by decide)

end Airflow.PastDepends
