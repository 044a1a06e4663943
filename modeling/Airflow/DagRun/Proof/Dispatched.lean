import Airflow.DagRun.Proof.Effects
import Mathlib.Data.List.Induction

/-!
# Dispatched task instances are left alone

* `readyPass_rowInv`: the ready pass keeps `RowInv`, visit by visit;
* `dispatched_kept`: a call of `update_state` that does not get to the deadlock check only changes
  schedulable instances, but for those that a mapping has no index for any more.
-/

namespace Airflow

theorem Dag.getTask_taskId {dag : Dag} {t : TaskId} {task : Operator}
    (h : dag.getTask t = some task) : task.taskId = t := by
  simpa using List.find?_some h

theorem Dag.getTask_mem {dag : Dag} {t : TaskId} {task : Operator}
    (h : dag.getTask t = some task) : t ∈ dag.taskIds := by
  rw [← Dag.getTask_taskId h]
  exact List.mem_map_of_mem (List.mem_of_find?_eq_some h)

/-! ## One visit -/

/-- The mapping of the task, as the session has it, has no index `i`. -/
def OutsideMapping (run : RunData) (s : Session) (task : Operator) (i : Int) : Prop :=
  match task.getMappedTiCount run s with
  | .ok totalLength => inRange i totalLength = false
  | .error .notFullyPopulated => True
  | .error .notMapped => False

/-- The invariant of the ready pass: `RowInv`, and the instances added may be visited. -/
structure PassInv (base : Session) (removable : TaskId → Int → Prop) (p : ReadyPass) : Prop where
  rows : RowInv base removable p.session
  additional : ∀ r ∈ p.additionalTis, Visitable base r

section
variable {dag : Dag} {run : RunData} {ctx : DepContext} {base : Session}
  {removable : TaskId → Int → Prop} {p : ReadyPass} {r : TIRef}

theorem expandMappedTask_spec {s s' : Session} {task : Operator} {isPartial : Bool}
    {newTis : List TIRef} (h : RowInv base removable s) (hv : Visitable base r)
    (hr : s.mapIndex r < 0) (htask : task.taskId = r.taskId)
    (hrem : ∀ i, OutsideMapping run s task i → removable r.taskId i)
    (he : s.expandMappedTask run isPartial task = some (s', newTis)) :
    RowInv base removable s' ∧ ∀ r' ∈ newTis, Visitable base r' := by
  unfold Session.expandMappedTask at he
  rw [htask] at he
  unfold OutsideMapping at hrem
  split at he
  · cases he
  · next hc =>
    rw [hc] at hrem
    cases he
    exact h.expandTo hv hr fun i _ => hrem i trivial
  · next n hc =>
    rw [hc] at hrem
    cases he
    exact h.expandTo hv hr fun i hi => hrem i hi

theorem PassInv.markReady {task : Operator} (h : PassInv base removable p)
    (hrem : ∀ i, OutsideMapping run p.session task i → removable task.taskId i) :
    PassInv base removable (ReadyPass.markReady run p task r) := by
  unfold ReadyPass.markReady
  split
  · exact h
  · split
    · exact ⟨h.rows, h.additional⟩
    · refine ⟨h.rows.reviseMapIndexes fun n i hn hi => hrem i ?_, h.additional⟩
      rw [OutsideMapping, hn]
      exact hi

/-- **A visit keeps the invariant of the pass.** -/
theorem PassInv.visit (h : PassInv base removable p) (hv : Visitable base r)
    (hrem : ∀ task i, dag.getTask r.taskId = some task → OutsideMapping run p.session task i →
      removable r.taskId i) :
    PassInv base removable (p.visit dag run ctx r) := by
  unfold ReadyPass.visit
  split
  · exact h
  · next task htask =>
    have hid : task.taskId = r.taskId := Dag.getTask_taskId htask
    have hw : Session.Written r p.session (areDependenciesMet dag run p.session r task ctx).session :=
      areDependenciesMet_written dag run p.session
    have hd : RowInv base removable (areDependenciesMet dag run p.session r task ctx).session :=
      h.rows.written hv hw
    have hrem' : ∀ i, OutsideMapping run (areDependenciesMet dag run p.session r task ctx).session
        task i → removable r.taskId i := by
      intro i hi
      refine hrem task i htask ?_
      rwa [OutsideMapping, hw.getMappedTiCount] at hi
    dsimp only
    split
    · exact ⟨hd, h.additional⟩
    · split
      · next s' newTis he =>
        unfold expandMappedTaskIfNeeded at he
        split at he
        · cases he
        · next hidx =>
          obtain ⟨hrows, hnew⟩ := expandMappedTask_spec hd hv (by omega) hid hrem' he
          refine ⟨hrows, fun r' hr' => ?_⟩
          rcases List.mem_append.mp hr' with hr' | hr'
          · exact h.additional r' hr'
          · exact hnew r' hr'
      · refine PassInv.markReady ⟨hd, h.additional⟩ ?_
        rw [hid]
        exact hrem'

end

/-! ## The whole pass -/

section
variable (dag : Dag) (run : RunData)

/-- The pass after some visits. -/
def passAfter (s : Session) (finishedTis tis : List TIRef) : ReadyPass :=
  tis.foldl (ReadyPass.visit dag run (readyContext finishedTis)) { session := s }

/-- The instances that the ready pass visits. -/
def visitedTis (s : Session) (schedulableTis finishedTis : List TIRef) : List TIRef :=
  schedulableTis ++ (passAfter dag run s finishedTis schedulableTis).additionalTis

theorem readyPass_eq (s : Session) (schedulableTis finishedTis : List TIRef) :
    readyPass dag run s schedulableTis finishedTis =
      passAfter dag run s finishedTis (visitedTis dag run s schedulableTis finishedTis) := by
  simp only [readyPass, passAfter, visitedTis, List.foldl_append]

/-- At some point of the ready pass, the mapping of task `t` had no index `i`. -/
def RemovableInPass (s : Session) (schedulableTis finishedTis : List TIRef) (t : TaskId)
    (i : Int) : Prop :=
  ∃ tis task, tis <+: visitedTis dag run s schedulableTis finishedTis ∧
    dag.getTask t = some task ∧
    OutsideMapping run (passAfter dag run s finishedTis tis).session task i

variable {dag run} {s : Session} {schedulableTis finishedTis : List TIRef}

theorem passAfter_inv {l : List TIRef}
    (hl : l <+: visitedTis dag run s schedulableTis finishedTis) (hvis : ∀ r ∈ l, Visitable s r)
    (hs : RowInv s (RemovableInPass dag run s schedulableTis finishedTis) s) :
    PassInv s (RemovableInPass dag run s schedulableTis finishedTis)
      (passAfter dag run s finishedTis l) := by
  induction l using List.reverseRecOn with
  | nil => exact ⟨hs, fun _ hr => by cases hr⟩
  | append_singleton l r ih =>
    have hpre : l <+: visitedTis dag run s schedulableTis finishedTis :=
      (List.prefix_append l [r]).trans hl
    have hinv := ih hpre fun r' hr' => hvis r' (List.mem_append_left _ hr')
    simp only [passAfter, List.foldl_append, List.foldl_cons, List.foldl_nil]
    exact hinv.visit (hvis r (by simp)) fun task i htask hout => ⟨l, task, hpre, htask, hout⟩

/-- **The ready pass changes only instances that may be visited, but for setting `REMOVED` where a
mapping has no such index.** -/
theorem readyPass_rowInv (hvis : ∀ r ∈ schedulableTis, Visitable s r)
    (hs : RowInv s (RemovableInPass dag run s schedulableTis finishedTis) s) :
    RowInv s (RemovableInPass dag run s schedulableTis finishedTis)
      (readyPass dag run s schedulableTis finishedTis).session := by
  rw [readyPass_eq]
  have hfirst := passAfter_inv (List.prefix_append _ _) hvis hs
  refine (passAfter_inv (List.prefix_refl _) (fun r hr => ?_) hs).rows
  rcases List.mem_append.mp hr with hr | hr
  · exact hvis r hr
  · exact hfirst.additional r hr

end

/-! ## The session that the pass begins with -/

section
variable (dag : Dag) {table : TaskInstanceTable}

theorem excludeRemoved_mapIndex (s : Session) (ti r : TIRef) :
    ((excludeRemoved dag s ti).get r).map (·.mapIndex) = (s.get r).map (·.mapIndex) := by
  unfold excludeRemoved
  split
  · rfl
  · rw [Session.get_flush, Session.setState, Session.get_assign]
    split
    · next h => subst h; cases s.get r <;> rfl
    · cases s.get r <;> rfl

/-- Every state in memory is the one in the database. -/
def Flushed (s : Session) : Prop := ∀ r ti, s.get r = some ti → ti.dbState = ti.state

theorem flushed_load (table : TaskInstanceTable) : Flushed (.load table) := by
  intro r ti h
  obtain ⟨row, -, -, rfl⟩ := load_get h
  rfl

theorem flushed_flush (s : Session) : Flushed s.flush := by
  intro r ti h
  rw [Session.get_flush] at h
  obtain ⟨ti', -, rfl⟩ := Option.map_eq_some_iff.mp h
  rfl

theorem flushed_excludeRemoved {s : Session} (h : Flushed s) (ti : TIRef) :
    Flushed (excludeRemoved dag s ti) := by
  unfold excludeRemoved
  split
  · exact h
  · exact flushed_flush _

/-- The instances of tasks of the DAG stay as they are. -/
theorem excludeRemoved_get {s : Session} (h : Flushed s) {ti r : TIRef}
    (hr : r.taskId ∈ dag.taskIds) : (excludeRemoved dag s ti).get r = s.get r := by
  unfold excludeRemoved
  split
  · rfl
  · next hti =>
    have hne : r ≠ ti := fun heq => hti (.inl (heq ▸ hr))
    rw [Session.get_flush, Session.setState, Session.get_assign_of_ne _ hne]
    cases hg : s.get r with
    | none => rfl
    | some x =>
      have hdb := h r x hg
      obtain ⟨mapIndex, state, dbState, deleted, locked, retry, reschedule⟩ := x
      dsimp only at hdb
      rw [hdb]
      rfl

theorem foldl_excludeRemoved (tis : List TIRef) {s : Session} (h : Flushed s) :
    Flushed (tis.foldl (excludeRemoved dag) s) ∧
    (∀ r, ((tis.foldl (excludeRemoved dag) s).get r).map (·.mapIndex) =
      (s.get r).map (·.mapIndex)) ∧
    ∀ r, r.taskId ∈ dag.taskIds → (tis.foldl (excludeRemoved dag) s).get r = s.get r := by
  induction tis generalizing s with
  | nil => exact ⟨h, fun _ => rfl, fun _ _ => rfl⟩
  | cons ti tis ih =>
    obtain ⟨hf, hidx, hget⟩ := ih (flushed_excludeRemoved dag h ti)
    refine ⟨hf, fun r => (hidx r).trans (excludeRemoved_mapIndex dag s ti r), fun r hr => ?_⟩
    exact (hget r hr).trans (excludeRemoved_get dag h hr)

/-- `_filter_tis_and_exclude_removed` leaves the instances of the DAG's tasks as they are. -/
theorem filterTis_get {r : TIRef} (hr : r.taskId ∈ dag.taskIds) :
    (filterTis dag table).get r = (Session.load table).get r :=
  (foldl_excludeRemoved dag _ (flushed_load table)).2.2 r hr

theorem filterTis_state {r : TIRef} (hr : r.taskId ∈ dag.taskIds) :
    (filterTis dag table).state r = (Session.load table).state r := by
  simp only [Session.state, filterTis_get dag hr]

theorem load_mapIndex_ge {r : TIRef} {ti : TaskInstance} (h : (Session.load table).get r = some ti) :
    -1 ≤ ti.mapIndex := by
  obtain ⟨row, hrow, -, rfl⟩ := load_get h
  exact table.mapIndex_ge row hrow

/-- The primary key: two objects of a task have different map indexes. -/
theorem load_mapIndex_inj {r r' : TIRef} {ti ti' : TaskInstance}
    (h : (Session.load table).get r = some ti) (h' : (Session.load table).get r' = some ti')
    (htask : r.taskId = r'.taskId) (hidx : ti.mapIndex = ti'.mapIndex) : r = r' := by
  obtain ⟨t, i⟩ := r
  obtain ⟨t', i'⟩ := r'
  dsimp only at htask
  subst htask
  simp only [Session.get, Session.load, List.getElem?_map, Option.map_eq_some_iff] at h h'
  obtain ⟨row, hrow, rfl⟩ := h
  obtain ⟨row', hrow', rfl⟩ := h'
  have hkey : ((table.rows.filter (·.taskId = t)).map fun row => (row.taskId, row.mapIndex)).Nodup :=
    table.key_nodup.sublist (List.filter_sublist.map _)
  have htask : row.taskId = t ∧ row'.taskId = t := by
    constructor
    · simpa using (List.mem_filter.mp (List.mem_of_getElem? hrow)).2
    · simpa using (List.mem_filter.mp (List.mem_of_getElem? hrow')).2
  obtain ⟨hlt, -⟩ := List.getElem?_eq_some_iff.mp hrow
  have hpos : i = i' := by
    refine (List.getElem?_inj (by simpa using hlt) hkey).mp ?_
    rw [List.getElem?_map, List.getElem?_map, hrow, hrow', Option.map_some, Option.map_some,
      htask.1, htask.2]
    exact congrArg (fun i => some (t, i)) hidx
  rw [hpos]

/-- The pass begins with its invariant. -/
theorem rowInv_filterTis (removable : TaskId → Int → Prop) :
    RowInv (filterTis dag table) removable (filterTis dag table) := by
  have hload : ∀ r ti, (filterTis dag table).get r = some ti →
      ∃ ti', (Session.load table).get r = some ti' ∧ ti'.mapIndex = ti.mapIndex := by
    intro r ti h
    have hidx := (foldl_excludeRemoved dag (getTaskInstances dag table) (flushed_load table)).2.1 r
    rw [← filterTis, h] at hidx
    exact Option.map_eq_some_iff.mp hidx.symm
  refine ⟨fun r ti h => ⟨ti, h, .inl rfl, .inl rfl⟩, fun r ti h => ?_,
    fun r r' ti ti' h h' hneg hneg' htask => ?_⟩
  · obtain ⟨ti', hti', heq⟩ := hload r ti h
    rw [← heq]
    exact load_mapIndex_ge hti'
  · obtain ⟨tiL, hL, heq⟩ := hload r ti h
    obtain ⟨tiL', hL', heq'⟩ := hload r' ti' h'
    have h₁ := load_mapIndex_ge hL
    have h₂ := load_mapIndex_ge hL'
    exact load_mapIndex_inj hL hL' htask (by omega)

end

/-! ## The frame of `update_state` -/

section
variable {dag : Dag} (run : RunData) {table : TaskInstanceTable} {r : TIRef}

theorem visitable_schedulableTis (hr : r ∈ schedulableTis dag table) :
    Visitable (filterTis dag table) r := by
  intro ti hti
  have hs := (List.mem_filter.mp hr).2
  rwa [Session.state_eq hti] at hs

/-- A decision round changes only schedulable instances, but for those outside their mapping. -/
theorem decisions_rowInv :
    RowInv (filterTis dag table)
      (RemovableInPass dag run (filterTis dag table) (schedulableTis dag table)
        (finishedTis dag table))
      (taskInstanceSchedulingDecisions dag run table).session := by
  unfold taskInstanceSchedulingDecisions
  dsimp only
  split
  · exact rowInv_filterTis dag _
  · exact readyPass_rowInv (fun r hr => visitable_schedulableTis hr) (rowInv_filterTis dag _)

/-- **A call of `update_state` that does not get to the deadlock check leaves every dispatched
instance alone.** An instance of the DAG that changed was schedulable, and a dependency set it; or
it is set to `REMOVED` because at that point of the call its task's mapping had no such index. -/
theorem dispatched_kept {ti : TaskInstance} {task : Operator}
    (hti : (Session.load table).get r = some ti) (htask : dag.getTask r.taskId = some task)
    (hcheck : (taskInstanceSchedulingDecisions dag run table).checksDeadlock dag = false) :
    (updateState dag run table).session.state r = ti.state ∨
    (State.isScheduleable ti.state = true ∧
      isDependencyState ((updateState dag run table).session.state r) = true) ∨
    ((updateState dag run table).session.state r = some .removed ∧
      ∃ tis, tis <+: visitedTis dag run (filterTis dag table) (schedulableTis dag table)
          (finishedTis dag table) ∧
        OutsideMapping run
          (passAfter dag run (filterTis dag table) (finishedTis dag table) tis).session task
          ti.mapIndex) := by
  have hsession : (updateState dag run table).session =
      (taskInstanceSchedulingDecisions dag run table).session := by
    unfold updateState
    rw [if_neg (by simp [hcheck])]
  rw [hsession]
  rw [← filterTis_get dag (Dag.getTask_mem htask)] at hti
  obtain ⟨ti', hti', hstep⟩ := (decisions_rowInv run).row r ti hti
  rw [Session.state_eq hti']
  rcases hstep.state with h | h | ⟨h, tis, task', hpre, htask', hout⟩
  · exact .inl h
  · exact .inr (.inl h)
  · rw [htask] at htask'
    cases htask'
    exact .inr (.inr ⟨h, tis, hpre, hout⟩)

end

/-! ### A mapped task and a dispatched instance of it -/

/-- One task, mapped over a literal of length two. -/
def mappedDag : Dag where
  tasks := [
    { taskId := 1
      expandInput := some (.dictOfLists [.literal 2])
      deps := baseOperatorDeps ++ [.mappedTaskIsExpanded]
      deps_mapped := fun _ => rfl }]

/-- An instance to schedule, and `others`. -/
def mappedRows (others : List TaskInstanceRow) : List TaskInstanceRow :=
  { taskId := 1, mapIndex := 0, state := none } :: others

/-- The other index of the mapping runs. -/
def insideTable : TaskInstanceTable where
  rows := mappedRows [{ taskId := 1, mapIndex := 1, state := some .running }]

/-- An index that the mapping has no longer runs. -/
def outsideTable : TaskInstanceTable where
  rows := mappedRows [
    { taskId := 1, mapIndex := 1, state := some .success },
    { taskId := 1, mapIndex := 2, state := some .running }]

/-- The running instance at an index of the mapping keeps running. -/
theorem inside_kept : (updateState mappedDag {} insideTable).session.state ⟨1, 1⟩ =
    some .running := by
  rcases @dispatched_kept mappedDag {} insideTable ⟨1, 1⟩ _ _ rfl rfl (by decide) with
    h | ⟨h, -⟩ | ⟨h, -⟩
  · exact h
  · exact absurd h (by decide)
  · exact absurd h (by decide)

/-- The running instance at an index that is gone is set to `REMOVED`, in a call that does not get
to the deadlock check. -/
theorem outside_removed :
    (Session.load outsideTable).state ⟨1, 2⟩ = some .running ∧
    (taskInstanceSchedulingDecisions mappedDag {} outsideTable).checksDeadlock mappedDag = false ∧
    (updateState mappedDag {} outsideTable).session.state ⟨1, 2⟩ = some .removed := by
  decide

end Airflow
