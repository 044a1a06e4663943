import Airflow.Lib.Transition
import Airflow.Scheduler.StartRuns
import Mathlib.Data.List.Perm.Subperm

/-!
# Running runs are examined in turn

In each loop a scheduler takes up to `max_number` running runs for examination, the longest not
examined first, and locks them until it commits its decisions (`_schedule_all_dag_runs`). Any
number of schedulers do so, while users and other sessions change the DAGs and the rows that are not
locked.

A run that waits is overtaken only by a run that comes before it in the order: one that is started,
cleared or created, one of a DAG that changes, and one that a scheduler examined without a decision
(`delays`). `update_state` leaves its time in `last_scheduling_decision`, which puts the run last.
So while a run waits, no more runs are examined than there were before it and delays
(`examined_in_turn`).
-/

namespace Airflow.Examination

open StartRuns (DagRun examineBefore)

/-! ## Data -/

/-- What `_schedule_dag_run` does with a run. -/
inductive Outcome where
  /-- `update_state` was called at this time, and left the state. -/
  | decided (startDttm : Int) (state : DagRunState)
  /-- The run has exceeded `dagrun_timeout`. -/
  | timedOut
  /-- It returns before: the DAG is not found, its row is locked, the date is in the future, or the
  DAG disappears. -/
  | skipped
  deriving DecidableEq

def Outcome.update (outcome : Outcome) (dagRun : DagRun) : DagRun :=
  match outcome with
  | .decided startDttm state => { dagRun with state, lastSchedulingDecision := some startDttm }
  | .timedOut => { dagRun with state := .failed }
  | .skipped => dagRun

/-- The committed runs, the DAGs, and for each scheduler the runs that it has locked. A run is named
by its index in the table. -/
structure Database where
  runs : List DagRun
  dags : String → Option StartRuns.Dag
  transactions : List (List Nat)

namespace Database

variable (db : Database)

/-- The rows that some transaction has locked. -/
def locked : List Nat := db.transactions.flatten

/-- The conditions of the query for running runs, but for the date. -/
def examinable (dagRun : DagRun) : Bool :=
  dagRun.state = .running ∧ dagRun.runType ≠ .backfillJob ∧
    (db.dags dagRun.dagId).any fun dag => ¬dag.isPaused ∧ dag.isActive

/-- `next_dagruns_to_examine(RUNNING)`: up to `maxNumber` runs that are not locked, none later than
`latest` unless future dates are allowed. -/
def nextDagrunsToExamine (latest : Option Int) (maxNumber : Nat) : List Nat :=
  (((db.runs.zipIdx.filter fun r => db.examinable r.1 ∧ latest.all (r.1.executionDate ≤ ·) ∧
    r.2 ∉ db.locked).insertionSort fun a b => examineBefore a.1 b.1).take maxNumber).map (·.2)

end Database

/-! ## Runs -/

inductive Event where
  /-- A scheduler that holds no lock examines runs. -/
  | examine (scheduler : Nat) (latest : Option Int) (maxNumber : Nat)
  /-- It commits what it did with each of them. -/
  | commit (scheduler : Nat) (outcomes : Nat → Outcome)
  /-- Another session changes a row that is not locked. -/
  | write (run : Nat) (dagRun : DagRun)
  | create (dagRun : DagRun)
  /-- The DAG is paused, say, or its file has changed. -/
  | setDag (dagId : String) (dag : Option StartRuns.Dag)

def step (db : Database) : Event → Database
  | .examine i latest maxNumber =>
    if db.transactions[i]? = some [] then
      { db with
        transactions := db.transactions.set i (db.nextDagrunsToExamine latest maxNumber) }
    else db
  | .commit i outcomes =>
    match db.transactions[i]? with
    | none => db
    | some dagRuns =>
      { db with
        runs := db.runs.mapIdx fun j dagRun =>
          if j ∈ dagRuns then (outcomes j).update dagRun else dagRun
        transactions := db.transactions.set i [] }
  | .write run dagRun => if run ∈ db.locked then db else { db with runs := db.runs.set run dagRun }
  | .create dagRun => { db with runs := db.runs ++ [dagRun] }
  | .setDag dagId dag => { db with dags := Function.update db.dags dagId dag }

/-! ## Waiting -/

/-- The run `j` comes before the row of `run` when it is examined next. -/
def Database.goesBefore (db : Database) (run : Nat) (row : DagRun) (j : Nat) : Bool :=
  j ≠ run ∧ j ∉ db.locked ∧ db.runs[j]?.any fun dagRun =>
    db.examinable dagRun ∧ examineBefore dagRun row

/-- The runs that come before a run. -/
def ahead (run : Nat) (row : DagRun) (db : Database) : Nat :=
  (List.range db.runs.length).countP (db.goesBefore run row)

/-- The runs that an event examines. -/
def examined (db : Database) : Event → Nat
  | .examine i latest maxNumber =>
    if db.transactions[i]? = some [] then (db.nextDagrunsToExamine latest maxNumber).length else 0
  | _ => 0

/-- The runs that an event may put before others. -/
def delays (db : Database) : Event → Nat
  | .commit i outcomes =>
    match db.transactions[i]? with
    | none => 0
    | some dagRuns => dagRuns.countP (outcomes · = .skipped)
  | .write _ dagRun | .create dagRun => if dagRun.state = .running then 1 else 0
  | .setDag dagId _ => db.runs.countP (·.dagId = dagId)
  | .examine _ _ _ => 0

/-- The dates that the event works with: the run is not in the future, and decisions are taken after
its last one. -/
def Timely (row : DagRun) : Event → Prop
  | .examine _ latest _ => latest.all (row.executionDate ≤ ·) = true
  | .commit _ outcomes => ∀ j startDttm state, outcomes j = .decided startDttm state →
    ∀ last, row.lastSchedulingDecision = some last → last < startDttm
  | _ => True

/-- The run can be examined, but no scheduler has taken it. -/
def Database.Waiting (db : Database) (run : Nat) (row : DagRun) : Prop :=
  db.runs[run]? = some row ∧ db.examinable row = true ∧ run ∉ db.locked

/-- The run waits before and after the event. -/
def Waits (run : Nat) (row : DagRun) (db : Database) (event : Event) : Prop :=
  db.Waiting run row ∧ (step db event).Waiting run row ∧ Timely row event

/-- A scheduler that leaves a run examines as many runs as it may. -/
def FillsLimit (db : Database) : Event → Prop
  | .examine i latest maxNumber => db.transactions[i]? = some [] →
    (db.nextDagrunsToExamine latest maxNumber).length = maxNumber
  | _ => True

/-! ## The order -/

variable {db : Database} {run : Nat} {row : DagRun}

theorem examineBefore_total (a b : DagRun) : examineBefore a b ∨ examineBefore b a := by
  unfold examineBefore
  cases a.lastSchedulingDecision with
  | none =>
    cases b.lastSchedulingDecision with
    | none => exact Int.le_total _ _
    | some y => exact .inl trivial
  | some x =>
    cases b.lastSchedulingDecision with
    | none => exact .inr trivial
    | some y =>
      dsimp only
      omega

theorem examineBefore_trans {a b c : DagRun} (hab : examineBefore a b) (hbc : examineBefore b c) :
    examineBefore a c := by
  unfold examineBefore at *
  cases ha : a.lastSchedulingDecision with
  | none =>
    cases hb : b.lastSchedulingDecision with
    | none =>
      cases hc : c.lastSchedulingDecision with
      | none =>
        simp only [ha, hb, hc] at hab hbc ⊢
        omega
      | some z => trivial
    | some y =>
      cases hc : c.lastSchedulingDecision with
      | none => simp only [hb, hc] at hbc
      | some z => trivial
  | some x =>
    cases hb : b.lastSchedulingDecision with
    | none => simp only [ha, hb] at hab
    | some y =>
      cases hc : c.lastSchedulingDecision with
      | none => simp only [hb, hc] at hbc
      | some z =>
        simp only [ha, hb, hc] at hab hbc ⊢
        omega

/-- A run that is decided later goes last. -/
theorem not_examineBefore {a b : DagRun} {startDttm : Int}
    (ha : a.lastSchedulingDecision = some startDttm)
    (hb : ∀ last, b.lastSchedulingDecision = some last → last < startDttm) :
    ¬examineBefore a b := by
  unfold examineBefore
  rw [ha]
  cases hlast : b.lastSchedulingDecision with
  | none => exact fun h => h
  | some last =>
    have hlt := hb last hlast
    dsimp only
    omega

/-- The first of a sorted list, without one of its elements, go before that element. -/
theorem take_insertionSort {α : Type} (r : α → α → Prop) [DecidableRel r]
    (htotal : ∀ a b, r a b ∨ r b a) (htrans : ∀ a b c, r a b → r b c → r a c) {l : List α} {x : α}
    {n : Nat} (hx : x ∈ l) (hleft : x ∉ (l.insertionSort r).take n) :
    ((l.insertionSort r).take n).length = n ∧ ∀ y ∈ (l.insertionSort r).take n, r y x := by
  have : Std.Total r := ⟨htotal⟩
  have : IsTrans α r := ⟨htrans⟩
  have hsorted := List.pairwise_insertionSort r l
  rw [← List.take_append_drop n (l.insertionSort r)] at hsorted
  have hdrop : x ∈ (l.insertionSort r).drop n := by
    have hmem : x ∈ (l.insertionSort r).take n ++ (l.insertionSort r).drop n := by
      rw [List.take_append_drop]
      exact (List.mem_insertionSort r).mpr hx
    exact (List.mem_append.mp hmem).resolve_left hleft
  constructor
  · have hlength := List.length_pos_of_mem hdrop
    rw [List.length_drop] at hlength
    rw [List.length_take]
    omega
  · exact fun y hy => (List.pairwise_append.mp hsorted).2.2 y hy x hdrop

/-! ## Counting -/

/-- Fewer indexes satisfy a condition that some of those of a stronger one do not. -/
theorem countP_add_le {l selected : List Nat} {p q : Nat → Bool} (hselected : selected.Nodup)
    (hmem : ∀ j ∈ selected, j ∈ l ∧ q j = true ∧ p j = false)
    (hpq : ∀ j ∈ l, p j = true → q j = true) :
    l.countP p + selected.length ≤ l.countP q := by
  have hsubset : selected ⊆ l.filter fun j => q j && !p j := fun j hj => by
    obtain ⟨hl, hq, hp⟩ := hmem j hj
    exact List.mem_filter.mpr ⟨hl, by rw [hq, hp]; rfl⟩
  have hlength := (hselected.subperm hsubset).length_le
  rw [← List.countP_eq_length_filter] at hlength
  have hsplit : l.countP q = l.countP p + l.countP fun j => q j && !p j := by
    clear hsubset hlength hmem
    induction l with
    | nil => rfl
    | cons j l ih =>
      have hrest := ih fun j hj => hpq j (List.mem_cons_of_mem _ hj)
      have hfirst := hpq j List.mem_cons_self
      rw [List.countP_cons, List.countP_cons, List.countP_cons, hrest]
      cases hp : p j with
      | true =>
        rw [hfirst hp]
        simp
        omega
      | false =>
        cases q j <;> simp
        omega
  omega

/-- Indexes that satisfy a condition satisfied another before, or are among `others`. -/
theorem countP_le_add {n n' : Nat} {others : List Nat} {p q : Nat → Bool}
    (h : ∀ j < n', q j = true → j < n ∧ p j = true ∨ j ∈ others) :
    (List.range n').countP q ≤ (List.range n).countP p + others.length := by
  rw [List.countP_eq_length_filter, List.countP_eq_length_filter, ← List.length_append]
  refine ((List.nodup_range.filter q).subperm fun j hj => ?_).length_le
  obtain ⟨hj, hq⟩ := List.mem_filter.mp hj
  rw [List.mem_append]
  obtain ⟨hn, hp⟩ | hother := h j (List.mem_range.mp hj) hq
  · exact .inl (List.mem_filter.mpr ⟨List.mem_range.mpr hn, hp⟩)
  · exact .inr hother

/-! ## Events -/

theorem goesBefore_iff {j : Nat} : db.goesBefore run row j = true ↔
    j ≠ run ∧ j ∉ db.locked ∧ ∃ dagRun, db.runs[j]? = some dagRun ∧
      db.examinable dagRun = true ∧ examineBefore dagRun row := by
  simp only [Database.goesBefore, Option.any_eq_true, decide_eq_true_eq]

/-- The runs that are examined while another waits come before it, and there are as many as the
limit allows. -/
theorem examine_spec {latest : Option Int} {maxNumber : Nat} (hwaiting : db.Waiting run row)
    (hdate : latest.all (row.executionDate ≤ ·) = true)
    (hleft : run ∉ db.nextDagrunsToExamine latest maxNumber) :
    (db.nextDagrunsToExamine latest maxNumber).length = maxNumber ∧
      (db.nextDagrunsToExamine latest maxNumber).Nodup ∧
      ∀ j ∈ db.nextDagrunsToExamine latest maxNumber,
        j < db.runs.length ∧ db.goesBefore run row j = true := by
  obtain ⟨hrow, hexaminable, hlocked⟩ := hwaiting
  generalize hl : (db.runs.zipIdx.filter fun r => db.examinable r.1 ∧
    latest.all (r.1.executionDate ≤ ·) ∧ r.2 ∉ db.locked) = l
  have hnext : db.nextDagrunsToExamine latest maxNumber =
      ((l.insertionSort fun a b => examineBefore a.1 b.1).take maxNumber).map (·.2) := by
    rw [Database.nextDagrunsToExamine, ← hl]
  have hmem : ∀ r ∈ l, db.runs[r.2]? = some r.1 ∧ db.examinable r.1 = true ∧ r.2 ∉ db.locked := by
    intro r hr
    rw [← hl, List.mem_filter, decide_eq_true_eq] at hr
    obtain ⟨hindex, hexaminable, -, hlocked⟩ := hr
    exact ⟨List.mem_zipIdx_iff_getElem?.mp hindex, hexaminable, hlocked⟩
  have hself : (row, run) ∈ l := by
    rw [← hl, List.mem_filter, decide_eq_true_eq]
    exact ⟨List.mem_zipIdx_iff_getElem?.mpr hrow, hexaminable, hdate, hlocked⟩
  rw [hnext] at hleft ⊢
  obtain ⟨hlength, hbefore⟩ := take_insertionSort
    (fun a b : DagRun × Nat => examineBefore a.1 b.1)
    (fun a b => examineBefore_total a.1 b.1) (fun _ _ _ => examineBefore_trans) hself
    fun h => hleft (List.mem_map_of_mem (f := Prod.snd) h)
  refine ⟨by rw [List.length_map]; exact hlength, ?_, fun j hj => ?_⟩
  · have hindexes : (l.map Prod.snd).Nodup := by
      rw [← hl]
      refine List.Nodup.sublist (List.filter_sublist.map Prod.snd) ?_
      rw [List.zipIdx_map_snd]
      exact List.nodup_range'
    have hsorted := ((List.perm_insertionSort (fun a b : DagRun × Nat => examineBefore a.1 b.1)
      l).map Prod.snd).nodup_iff.mpr hindexes
    exact hsorted.sublist ((List.take_sublist _ _).map _)
  · obtain ⟨r, hr, rfl⟩ := List.mem_map.mp hj
    obtain ⟨hindex, hr', hlocked'⟩ :=
      hmem r ((List.mem_insertionSort _).mp (List.mem_of_mem_take hr))
    have hne : r.2 ≠ run := by
      intro heq
      exact hleft (heq ▸ hj)
    exact ⟨(List.getElem?_eq_some_iff.mp hindex).1,
      goesBefore_iff.mpr ⟨hne, hlocked', r.1, hindex, hr', hbefore r hr⟩⟩

theorem mem_locked_set {i j : Nat} {dagRuns : List Nat} (hi : i < db.transactions.length) :
    j ∈ (db.transactions.set i dagRuns).flatten ↔
      j ∈ dagRuns ∨ ∃ k, k ≠ i ∧ ∃ locked, db.transactions[k]? = some locked ∧ j ∈ locked := by
  rw [List.mem_flatten]
  constructor
  · rintro ⟨locked, hlocked, hj⟩
    obtain ⟨k, hk⟩ := List.mem_iff_getElem?.mp hlocked
    by_cases hki : k = i
    · subst hki
      rw [List.getElem?_set_self hi] at hk
      exact .inl (Option.some.inj hk ▸ hj)
    · rw [List.getElem?_set_ne (Ne.symm hki)] at hk
      exact .inr ⟨k, hki, locked, hk, hj⟩
  · rintro (hj | ⟨k, hki, locked, hk, hj⟩)
    · exact ⟨dagRuns, List.mem_of_getElem? (List.getElem?_set_self hi), hj⟩
    · refine ⟨locked, List.mem_of_getElem? (i := k) ?_, hj⟩
      rw [List.getElem?_set_ne (Ne.symm hki)]
      exact hk

/-- What a scheduler examines is no longer before the run. -/
theorem ahead_examine {i : Nat} {latest : Option Int} {maxNumber : Nat}
    (h : Waits run row db (.examine i latest maxNumber)) :
    examined db (.examine i latest maxNumber) +
      ahead run row (step db (.examine i latest maxNumber)) ≤ ahead run row db := by
  obtain ⟨hbefore, hafter, hdate⟩ := h
  unfold step at hafter ⊢
  unfold examined
  by_cases hidle : db.transactions[i]? = some []
  · simp only [hidle, if_true] at hafter ⊢
    have hi : i < db.transactions.length := (List.getElem?_eq_some_iff.mp hidle).1
    have hleft : run ∉ db.nextDagrunsToExamine latest maxNumber := fun hmem =>
      hafter.2.2 ((mem_locked_set hi).mpr (.inl hmem))
    obtain ⟨-, hnodup, hmem⟩ := examine_spec hbefore hdate hleft
    rw [Nat.add_comm]
    refine countP_add_le hnodup (fun j hj => ?_) fun j _ hj => ?_
    · obtain ⟨hlength, hj'⟩ := hmem j hj
      refine ⟨List.mem_range.mpr hlength, hj', ?_⟩
      rw [← Bool.not_eq_true, goesBefore_iff]
      exact fun hafter' => hafter'.2.1 ((mem_locked_set hi).mpr (.inl hj))
    · obtain ⟨hne, hlocked, dagRun, hdagRun⟩ := goesBefore_iff.mp hj
      refine goesBefore_iff.mpr ⟨hne, fun hmem => hlocked ((mem_locked_set hi).mpr ?_), dagRun,
        hdagRun⟩
      obtain ⟨dagRuns, hdagRuns, hj'⟩ := List.mem_flatten.mp hmem
      obtain ⟨k, hk⟩ := List.mem_iff_getElem?.mp hdagRuns
      refine .inr ⟨k, fun hki => ?_, dagRuns, hk, hj'⟩
      rw [hki, hidle] at hk
      rw [← Option.some.inj hk] at hj'
      cases hj'
  · simp only [hidle, if_false]
    exact Nat.le_of_eq (Nat.zero_add _)

/-- Runs with a decision go last. -/
theorem ahead_commit {i : Nat} {outcomes : Nat → Outcome} {dagRuns : List Nat}
    (hdagRuns : db.transactions[i]? = some dagRuns) (htimely : Timely row (.commit i outcomes)) :
    ahead run row { db with
      runs := db.runs.mapIdx fun j dagRun =>
        if j ∈ dagRuns then (outcomes j).update dagRun else dagRun
      transactions := db.transactions.set i [] } ≤
      ahead run row db + dagRuns.countP (outcomes · = .skipped) := by
  have hi : i < db.transactions.length := (List.getElem?_eq_some_iff.mp hdagRuns).1
  rw [List.countP_eq_length_filter]
  refine countP_le_add fun j hj hbefore => ?_
  rw [List.length_mapIdx] at hj
  obtain ⟨hne, hlocked, dagRun', hrow', hexaminable, horder⟩ := goesBefore_iff.mp hbefore
  rw [List.getElem?_mapIdx] at hrow'
  obtain ⟨dagRun, hrow, rfl⟩ := Option.map_eq_some_iff.mp hrow'
  by_cases hmem : j ∈ dagRuns
  · rw [if_pos hmem] at hexaminable horder
    refine .inr (List.mem_filter.mpr ⟨hmem, ?_⟩)
    cases houtcome : outcomes j with
    | decided startDttm state =>
      rw [houtcome] at horder
      exact absurd horder (not_examineBefore rfl fun last hlast =>
        htimely j startDttm state houtcome last hlast)
    | timedOut =>
      rw [houtcome] at hexaminable
      simp [Database.examinable, Outcome.update] at hexaminable
    | skipped => simp
  · rw [if_neg hmem] at hexaminable horder
    refine .inl ⟨hj, goesBefore_iff.mpr ⟨hne, fun hlocked' => hlocked ?_, dagRun, hrow, hexaminable,
      horder⟩⟩
    obtain ⟨locked, hlocked', hj'⟩ := List.mem_flatten.mp hlocked'
    obtain ⟨k, hk⟩ := List.mem_iff_getElem?.mp hlocked'
    refine (mem_locked_set hi).mpr (.inr ⟨k, fun hki => ?_, locked, hk, hj'⟩)
    rw [hki, hdagRuns] at hk
    exact hmem (Option.some.inj hk ▸ hj')

/-- A row is set. -/
theorem ahead_write (j : Nat) (dagRun : DagRun) :
    ahead run row { db with runs := db.runs.set j dagRun } ≤
      ahead run row db + if dagRun.state = .running then 1 else 0 := by
  have hlength : (if dagRun.state = .running then 1 else 0) =
      (if dagRun.state = .running then [j] else []).length := by
    split <;> rfl
  rw [hlength]
  refine countP_le_add fun k hk hbefore => ?_
  rw [List.length_set] at hk
  obtain ⟨hne, hlocked, dagRun', hrow', hexaminable, horder⟩ := goesBefore_iff.mp hbefore
  by_cases hkj : k = j
  · subst hkj
    rw [List.getElem?_set_self hk] at hrow'
    obtain rfl := Option.some.inj hrow'
    have hrunning : dagRun.state = .running := by
      simp only [Database.examinable, decide_eq_true_eq] at hexaminable
      exact hexaminable.1
    rw [if_pos hrunning]
    exact .inr (List.mem_singleton_self _)
  · rw [List.getElem?_set_ne (Ne.symm hkj)] at hrow'
    exact .inl ⟨hk, goesBefore_iff.mpr ⟨hne, hlocked, dagRun', hrow', hexaminable, horder⟩⟩

theorem ahead_create (dagRun : DagRun) :
    ahead run row { db with runs := db.runs ++ [dagRun] } ≤
      ahead run row db + if dagRun.state = .running then 1 else 0 := by
  have hlength : (if dagRun.state = .running then 1 else 0) =
      (if dagRun.state = .running then [db.runs.length] else []).length := by
    split <;> rfl
  rw [hlength]
  refine countP_le_add fun k hk hbefore => ?_
  obtain ⟨hne, hlocked, dagRun', hrow', hexaminable, horder⟩ := goesBefore_iff.mp hbefore
  by_cases hold : k < db.runs.length
  · rw [List.getElem?_append_left hold] at hrow'
    exact .inl ⟨hold, goesBefore_iff.mpr ⟨hne, hlocked, dagRun', hrow', hexaminable, horder⟩⟩
  · have hkl : k = db.runs.length := by
      rw [List.length_append, List.length_singleton] at hk
      omega
    subst hkl
    rw [List.getElem?_concat_length] at hrow'
    obtain rfl := Option.some.inj hrow'
    have hrunning : dagRun.state = .running := by
      simp only [Database.examinable, decide_eq_true_eq] at hexaminable
      exact hexaminable.1
    rw [if_pos hrunning]
    exact .inr (List.mem_singleton_self _)

theorem ahead_setDag (dagId : String) (dag : Option StartRuns.Dag) :
    ahead run row { db with dags := Function.update db.dags dagId dag } ≤
      ahead run row db + db.runs.countP (·.dagId = dagId) := by
  have hlength : db.runs.countP (·.dagId = dagId) = ((List.range db.runs.length).filter fun j =>
      db.runs[j]?.any (·.dagId = dagId)).length := by
    rw [← List.countP_eq_length_filter]
    have hmap : (List.range db.runs.length).map (db.runs[·]?) = db.runs.map some := by
      refine List.ext_getElem? fun j => ?_
      by_cases hj : j < db.runs.length
      · simp [hj]
      · simp [hj]
    have hcount := congrArg (List.countP fun row => row.any (·.dagId = dagId)) hmap
    rw [List.countP_map, List.countP_map] at hcount
    exact hcount.symm
  rw [hlength]
  refine countP_le_add fun k hk hbefore => ?_
  obtain ⟨hne, hlocked, dagRun', hrow', hexaminable, horder⟩ := goesBefore_iff.mp hbefore
  by_cases hdag : dagRun'.dagId = dagId
  · refine .inr (List.mem_filter.mpr ⟨List.mem_range.mpr hk, ?_⟩)
    have hrow₀ : db.runs[k]? = some dagRun' := hrow'
    rw [hrow₀, Option.any_some]
    exact decide_eq_true hdag
  · refine .inl ⟨hk, goesBefore_iff.mpr ⟨hne, hlocked, dagRun', hrow', ?_, horder⟩⟩
    simpa only [Database.examinable, Function.update_of_ne hdag] using hexaminable

/-- **One event**: what it examines comes before the run. -/
theorem ahead_step {event : Event} (h : Waits run row db event) :
    examined db event + ahead run row (step db event) ≤ ahead run row db + delays db event := by
  cases event with
  | examine i latest maxNumber => exact ahead_examine h
  | commit i outcomes =>
    simp only [step, examined, delays, Nat.zero_add]
    cases hdagRuns : db.transactions[i]? with
    | none => exact Nat.le_refl _
    | some dagRuns => exact ahead_commit hdagRuns h.2.2
  | write j dagRun =>
    simp only [step, examined, delays, Nat.zero_add]
    by_cases hlocked : j ∈ db.locked
    · rw [if_pos hlocked]
      exact Nat.le_add_right _ _
    · rw [if_neg hlocked]
      exact ahead_write j dagRun
  | create dagRun =>
    simp only [step, examined, delays, Nat.zero_add]
    exact ahead_create dagRun
  | setDag dagId dag =>
    simp only [step, examined, delays, Nat.zero_add]
    exact ahead_setDag dagId dag

theorem Waits.fillsLimit {event : Event} (h : Waits run row db event) : FillsLimit db event := by
  obtain ⟨hbefore, hafter, hdate⟩ := h
  cases event with
  | examine i latest maxNumber =>
    intro hidle
    have hi : i < db.transactions.length := (List.getElem?_eq_some_iff.mp hidle).1
    simp only [step, hidle, if_true] at hafter
    exact (examine_spec hbefore hdate fun hmem =>
      hafter.2.2 ((mem_locked_set hi).mpr (.inl hmem))).1
  | _ => trivial

/-- Two runs of a DAG, and one scheduler. -/
def twoRuns : Database where
  runs := [
    { dagId := "etl", state := .running, executionDate := 1 },
    { dagId := "etl", state := .running, executionDate := 2 }]
  dags _ := some { maxActiveRuns := 2 }
  transactions := [[]]

end Airflow.Examination
