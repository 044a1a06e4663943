import Airflow.DagRun.Proof.Deadlock
import Airflow.Lib.Lockstep
import Mathlib.Data.List.TakeWhile

/-!
# What a ready pass leaves apart

* `ReadyPass.visit_other`: a visit touches the objects of its own task only, but for flushes;
* `passFrame`: in a whole pass, the tasks that are not visited stay as they are, and an instance of
  a task that needs no expansion gets what its dependencies give it in the session the pass began
  with.
-/

namespace Airflow

/-! ## Flushes -/

theorem Session.flush_tis (s : Session) (t : TaskId) :
    s.flush.tis t = (s.tis t).map fun ti => { ti with dbState := ti.state } := rfl

/-- The objects of `t` are as they were, but for flushes. -/
def SameOrFlushed (s s' : Session) (t : TaskId) : Prop :=
  s'.tis t = s.tis t ∨ s'.tis t = s.flush.tis t

namespace SameOrFlushed

variable {s s' s'' : Session} {t t' : TaskId}

theorem refl (s : Session) (t : TaskId) : SameOrFlushed s s t := .inl rfl

theorem flush (s : Session) (t : TaskId) : SameOrFlushed s s.flush t := .inr rfl

theorem trans (h : SameOrFlushed s s' t) (h' : SameOrFlushed s' s'' t) : SameOrFlushed s s'' t := by
  simp only [SameOrFlushed, Session.flush_tis] at h h' ⊢
  rcases h with h | h
  · rwa [h] at h'
  · rw [h, List.map_map] at h'
    exact .inr (h'.elim id id)

theorem assign {r : TIRef} (f : TaskInstance → TaskInstance) (hne : t ≠ r.taskId) :
    SameOrFlushed s (s.assign r f) t := .inl (Function.update_of_ne hne ..)

theorem assignAll (f : TaskInstance → TaskInstance) (hne : t ≠ t') :
    SameOrFlushed s (s.assignAll t' f) t := .inl (Function.update_of_ne hne ..)

theorem add (ti : TaskInstance) (hne : t ≠ t') : SameOrFlushed s (s.add t' ti) t :=
  .inl (Function.update_of_ne hne ..)

theorem of_written {r : TIRef} (h : Session.Written r s s') (hne : t ≠ r.taskId) :
    SameOrFlushed s s' t := by
  rcases h with rfl | ⟨state, -, rfl⟩
  · exact .refl _ _
  · exact .assign _ hne

theorem get (h : SameOrFlushed s s' t) {r : TIRef} (hr : r.taskId = t) :
    s'.get r = s.get r ∨ s'.get r = s.flush.get r := by
  subst hr
  exact h.imp (fun heq => by rw [Session.get, heq, Session.get])
    fun heq => by rw [Session.get, heq, Session.get]

theorem fixed (h : SameOrFlushed s s' t) : SameFixed s s' t := by
  rcases h with h | h
  · rw [SameFixed, SameUnder, h]
  · rw [SameFixed, SameUnder, h, Session.flush_tis, List.map_map]
    rfl

theorem state (h : SameOrFlushed s s' t) {r : TIRef} (hr : r.taskId = t) :
    s'.state r = s.state r := by
  rcases h.get hr with h | h
  · rw [Session.state, h, Session.state]
  · rw [Session.state, h, Session.get_flush, Session.state]
    cases s.get r <;> rfl

/-- A flush changes nothing where the database has the states in memory. -/
theorem tis_eq (h : SameOrFlushed s s' t) (hclean : ∀ ti ∈ s.tis t, ti.dbState = ti.state) :
    s'.tis t = s.tis t := by
  refine h.elim id fun h => ?_
  rw [h, Session.flush_tis]
  refine (List.map_congr_left fun ti hti => ?_).trans (List.map_id _)
  have heq := hclean ti hti
  obtain ⟨mapIndex, state, dbState, deleted, locked, retry, reschedule⟩ := ti
  cases heq
  rfl

end SameOrFlushed

/-! ## A visit and the other tasks -/

section
variable {s : Session} {t t' : TaskId}

theorem expandUnmapped_other (isPartial : Bool) (total : Option Nat) (hne : t ≠ t') :
    SameOrFlushed s (s.expandUnmapped isPartial t' total).1 t := by
  unfold Session.expandUnmapped
  split
  · exact .refl _ _
  · next u hu =>
    have hne' : t ≠ u.taskId := (RowInv.findTi_spec hu).1 ▸ hne
    match total with
    | none =>
      dsimp only
      split
      · exact .refl _ _
      · exact .assign _ hne'
    | some 0 => exact .assign _ hne'
    | some (n + 1) =>
      dsimp only
      split
      · exact .assign _ hne'
      · exact (SameOrFlushed.assign _ hne').trans (.flush _ _)

theorem addTis_other (state : TIState) (start : Int) (n : Nat) (hne : t ≠ t') :
    SameOrFlushed s (s.addTis t' state start n).1 t := by
  induction n with
  | zero => exact .refl _ _
  | succ n ih => exact ih.trans (.add _ hne)

theorem addMissing_other (existing : List Int) (n : Nat) (hne : t ≠ t') :
    SameOrFlushed s (s.addMissing t' existing n).1 t := by
  induction n with
  | zero => exact .refl _ _
  | succ n ih =>
    simp only [Session.addMissing]
    split
    · exact ih
    · exact (ih.trans (.add _ hne)).trans (.flush _ _)

theorem expandTo_other (isPartial : Bool) (total : Option Nat) (hne : t ≠ t') :
    SameOrFlushed s (s.expandTo isPartial t' total).1 t :=
  (((expandUnmapped_other isPartial total hne).trans (addTis_other _ _ _ hne)).trans
    (.assignAll _ hne)).trans (.flush _ _)

theorem reviseMapIndexes_other {run : RunData} {task : Operator} (hne : t ≠ task.taskId) :
    SameOrFlushed s (s.reviseMapIndexesIfMapped run task).1 t := by
  unfold Session.reviseMapIndexesIfMapped
  split
  · exact .refl _ _
  · dsimp only
    split
    · exact addMissing_other _ _ hne
    · exact ((SameOrFlushed.assignAll _ hne).trans (.flush _ _)).trans (addMissing_other _ _ hne)

/-! ### The instances that expansion and revision return -/

theorem expandUnmapped_taskId {isPartial : Bool} {total : Option Nat} {r : TIRef}
    (h : r ∈ (s.expandUnmapped isPartial t total).2.1) : r.taskId = t := by
  unfold Session.expandUnmapped at h
  split at h
  · cases h
  · next u hu =>
    match total with
    | none => cases h
    | some 0 => cases h
    | some (n + 1) =>
      dsimp only at h
      split at h
      · cases h
      · rw [List.mem_singleton.mp h]
        exact (RowInv.findTi_spec hu).1

theorem addTis_taskId {state : TIState} {start : Int} {n : Nat} {r : TIRef}
    (h : r ∈ (s.addTis t state start n).2) : r.taskId = t := by
  induction n with
  | zero => cases h
  | succ n ih =>
    rcases List.mem_append.mp h with h | h
    · exact ih h
    · rw [List.mem_singleton.mp h]

theorem addMissing_taskId {existing : List Int} {n : Nat} {r : TIRef}
    (h : r ∈ (s.addMissing t existing n).2) : r.taskId = t := by
  induction n with
  | zero => cases h
  | succ n ih =>
    simp only [Session.addMissing] at h
    split at h
    · exact ih h
    · rcases List.mem_append.mp h with h | h
      · exact ih h
      · rw [List.mem_singleton.mp h]

theorem expandTo_taskId {isPartial : Bool} {total : Option Nat} {r : TIRef}
    (h : r ∈ (s.expandTo isPartial t total).2) : r.taskId = t :=
  (List.mem_append.mp h).elim expandUnmapped_taskId addTis_taskId

theorem reviseMapIndexes_taskId {run : RunData} {task : Operator} {r : TIRef}
    (h : r ∈ (s.reviseMapIndexesIfMapped run task).2) : r.taskId = task.taskId := by
  unfold Session.reviseMapIndexesIfMapped at h
  split at h
  · cases h
  · exact addMissing_taskId h

end

/-! ### Map indexes -/

/-- The object has a map index. -/
def Indexed (s : Session) (r : TIRef) : Prop := ∃ ti, s.get r = some ti ∧ 0 ≤ ti.mapIndex

section
variable {s : Session} {r : TIRef} {t : TaskId}

theorem Indexed.of_map {s' : Session} {g : TaskInstance → TaskInstance} (h : Indexed s r)
    (hget : s'.get r = (s.get r).map g) (hg : ∀ ti, 0 ≤ ti.mapIndex → 0 ≤ (g ti).mapIndex) :
    Indexed s' r := by
  obtain ⟨ti, hti, hidx⟩ := h
  exact ⟨g ti, by rw [hget, hti]; rfl, hg ti hidx⟩

theorem Indexed.assign {r' : TIRef} {f : TaskInstance → TaskInstance} (h : Indexed s r)
    (hf : ∀ ti, 0 ≤ ti.mapIndex → 0 ≤ (f ti).mapIndex) : Indexed (s.assign r' f) r := by
  by_cases hr : r = r'
  · subst hr
    exact h.of_map (Session.get_assign_self s r f) hf
  · rwa [Indexed, Session.get_assign_of_ne f hr]

theorem Indexed.assignAll {f : TaskInstance → TaskInstance} (h : Indexed s r)
    (hf : ∀ ti, (f ti).mapIndex = ti.mapIndex) : Indexed (s.assignAll t f) r := by
  by_cases hr : r.taskId = t
  · exact h.of_map (by rw [Session.get_assignAll, if_pos hr]) fun ti hti => (hf ti).symm ▸ hti
  · rwa [Indexed, Session.get_assignAll, if_neg hr]

theorem Indexed.flush (h : Indexed s r) : Indexed s.flush r :=
  h.of_map (s.get_flush r) fun _ hti => hti

theorem Indexed.add {ti : TaskInstance} (h : Indexed s r) : Indexed (s.add t ti) r := by
  obtain ⟨ti', hti', hidx⟩ := h
  exact ⟨ti', Session.get_add_of_some hti', hidx⟩

theorem indexed_new {ti : TaskInstance} (hti : 0 ≤ ti.mapIndex) :
    Indexed (s.add t ti) ⟨t, (s.tis t).length⟩ :=
  ⟨ti, by rw [Session.get_add, if_pos rfl], hti⟩

theorem Indexed.written {s' : Session} {r' : TIRef} (h : Indexed s r)
    (hw : Session.Written r' s s') : Indexed s' r := by
  rcases hw with rfl | ⟨state, -, rfl⟩
  · exact h
  · exact h.assign fun _ hti => hti

theorem Indexed.expandUnmapped {isPartial : Bool} {total : Option Nat} (h : Indexed s r) :
    Indexed (s.expandUnmapped isPartial t total).1 r := by
  unfold Session.expandUnmapped
  split
  · exact h
  · match total with
    | none =>
      dsimp only
      split
      · exact h
      · exact h.assign fun _ hti => hti
    | some 0 => exact h.assign fun _ hti => hti
    | some (n + 1) =>
      dsimp only
      split
      · exact h.assign fun _ hti => hti
      · exact (h.assign fun _ _ => Int.le_refl 0).flush

theorem Indexed.addTis {state : TIState} {start : Int} {n : Nat} (h : Indexed s r) :
    Indexed (s.addTis t state start n).1 r := by
  induction n with
  | zero => exact h
  | succ n ih => exact ih.add

theorem Indexed.addMissing {existing : List Int} {n : Nat} (h : Indexed s r) :
    Indexed (s.addMissing t existing n).1 r := by
  induction n with
  | zero => exact h
  | succ n ih =>
    simp only [Session.addMissing]
    split
    · exact ih
    · exact ih.add.flush

theorem Indexed.removeFrom {n : Nat} (h : Indexed s r) : Indexed (s.removeFrom t n) r :=
  h.assignAll fun ti => by split <;> rfl

theorem Indexed.expandTo {isPartial : Bool} {total : Option Nat} (h : Indexed s r) :
    Indexed (s.expandTo isPartial t total).1 r :=
  h.expandUnmapped.addTis.removeFrom.flush

theorem Indexed.reviseMapIndexes {run : RunData} {task : Operator} (h : Indexed s r) :
    Indexed (s.reviseMapIndexesIfMapped run task).1 r := by
  unfold Session.reviseMapIndexesIfMapped
  split
  · exact h
  · dsimp only
    split
    · exact h.addMissing
    · refine Indexed.addMissing (Indexed.flush (h.assignAll fun ti => ?_))
      split <;> rfl

theorem indexed_expandUnmapped {isPartial : Bool} {total : Option Nat}
    (h : r ∈ (s.expandUnmapped isPartial t total).2.1) :
    Indexed (s.expandUnmapped isPartial t total).1 r := by
  unfold Session.expandUnmapped at h ⊢
  split at h
  · cases h
  · next u hu =>
    match total with
    | none => cases h
    | some 0 => cases h
    | some (n + 1) =>
      dsimp only at h ⊢
      split at h
      · cases h
      · next hzero =>
        rw [if_neg hzero, List.mem_singleton.mp h]
        obtain ⟨-, ti, hti, -⟩ := RowInv.findTi_spec hu
        refine Indexed.flush ⟨{ ti with mapIndex := 0 }, ?_, Int.le_refl 0⟩
        rw [Session.get_assign_self, hti]
        rfl

theorem indexed_addTis {state : TIState} {start : Int} {n : Nat} (hstart : 0 ≤ start)
    (h : r ∈ (s.addTis t state start n).2) : Indexed (s.addTis t state start n).1 r := by
  induction n with
  | zero => cases h
  | succ n ih =>
    rcases List.mem_append.mp h with h | h
    · exact (ih h).add
    · rw [List.mem_singleton.mp h]
      exact indexed_new (by dsimp only; omega)

theorem indexed_expandTo {isPartial : Bool} {total : Option Nat}
    (h : r ∈ (s.expandTo isPartial t total).2) : Indexed (s.expandTo isPartial t total).1 r := by
  simp only [Session.expandTo] at h ⊢
  have hun : r ∈ (s.expandUnmapped isPartial t total).2.1 →
      Indexed (s.expandUnmapped isPartial t total).1 r := indexed_expandUnmapped
  generalize s.expandUnmapped isPartial t total = e at h hun ⊢
  have hstart := RowInv.currentMaxMapping_ge e.1 t
  rcases List.mem_append.mp h with h | h
  · exact (hun h).addTis.removeFrom.flush
  · exact (indexed_addTis (by omega) h).removeFrom.flush

end

/-- Only an operator that needs expansion has a length. -/
theorem getMappedTiCount_plain {task : Operator} (h : task.needsExpansion = false)
    (run : RunData) (s : Session) : task.getMappedTiCount run s = .error .notMapped := by
  simp only [Operator.needsExpansion, Operator.isMapped, Bool.or_eq_false_iff,
    Option.isSome_eq_false_iff, Option.isNone_iff_eq_none, Bool.not_eq_false',
    List.isEmpty_iff] at h
  simp [Operator.getMappedTiCount, h.1, groupsMappedTiCount, h.2]

section
variable {dag : Dag} {run : RunData} {ctx : DepContext} {p : ReadyPass} {r : TIRef}
  {task : Operator}

theorem expandMappedTaskIfNeeded_some {s : Session} {e : Session × List TIRef}
    (h : expandMappedTaskIfNeeded dag run s task r = some e) :
    s.mapIndex r < 0 ∧ ∃ total, e = s.expandTo dag.partialDag task.taskId total := by
  unfold expandMappedTaskIfNeeded Session.expandMappedTask at h
  split at h
  · cases h
  · refine ⟨by omega, ?_⟩
    split at h
    · cases h
    · exact ⟨_, (Option.some.inj h).symm⟩
    · exact ⟨_, (Option.some.inj h).symm⟩

/-- What a visit to `r` leaves of the other tasks, and which instances it adds. -/
structure VisitFrame (p p' : ReadyPass) (r : TIRef) : Prop where
  other : ∀ t, t ≠ r.taskId → SameOrFlushed p.session p'.session t
  ready : ∀ r', r'.taskId ≠ r.taskId → (r' ∈ p'.readyTis ↔ r' ∈ p.readyTis)
  revised : ∀ t, t ≠ r.taskId → (t ∈ p'.revisedMapIndexTaskIds ↔ t ∈ p.revisedMapIndexTaskIds)
  indexed : ∀ r', Indexed p.session r' → Indexed p'.session r'
  additional : ∃ new, p'.additionalTis = p.additionalTis ++ new ∧
    ∀ r' ∈ new, r'.taskId = r.taskId ∧ Indexed p'.session r'

/-- **A visit touches the objects of its own task only, but for flushes.** -/
theorem ReadyPass.visit_frame : VisitFrame p (p.visit dag run ctx r) r := by
  unfold ReadyPass.visit
  split
  · exact ⟨fun _ _ => .refl _ _, fun _ _ => .rfl, fun _ _ => .rfl, fun _ h => h, [], by simp,
      fun _ hr => by cases hr⟩
  · next task htask =>
    have hid : task.taskId = r.taskId := Dag.getTask_taskId htask
    have hw : Session.Written r p.session (areDependenciesMet dag run p.session r task ctx).session :=
      areDependenciesMet_written dag run p.session
    have hd : ∀ t, t ≠ r.taskId → SameOrFlushed p.session
        (areDependenciesMet dag run p.session r task ctx).session t :=
      fun t ht => .of_written hw ht
    have hidx : ∀ r', Indexed p.session r' →
        Indexed (areDependenciesMet dag run p.session r task ctx).session r' :=
      fun _ h => h.written hw
    dsimp only
    split
    · exact ⟨hd, fun _ _ => .rfl, fun _ _ => .rfl, hidx, [], by simp, fun _ hr => by cases hr⟩
    · split
      · next s' newTis he =>
        obtain ⟨-, total, heq⟩ := expandMappedTaskIfNeeded_some he
        rw [hid] at heq
        have hs : s' = _ := congrArg Prod.fst heq
        have hnew : newTis = _ := congrArg Prod.snd heq
        rw [hs, hnew]
        exact ⟨fun t ht => (hd t ht).trans (expandTo_other _ _ ht), fun _ _ => .rfl,
          fun _ _ => .rfl, fun r' h => (hidx r' h).expandTo, _, rfl,
          fun _ hr => ⟨expandTo_taskId hr, indexed_expandTo hr⟩⟩
      · unfold ReadyPass.markReady
        split
        · exact ⟨hd, fun _ _ => .rfl, fun _ _ => .rfl, hidx, [], by simp,
            fun _ hr => by cases hr⟩
        · have hready : ∀ r' : TIRef, r'.taskId ≠ r.taskId → r' ≠ r :=
            fun r' hne heq => hne (heq ▸ rfl)
          split
          · exact ⟨hd, fun r' hr' => by simp [hready r' hr'], fun _ _ => .rfl, hidx, [], by simp,
              fun _ hr => by cases hr⟩
          · refine ⟨fun t ht => (hd t ht).trans (reviseMapIndexes_other (hid ▸ ht)),
              fun r' hr' => ?_, fun t ht => ?_, fun r' h => (hidx r' h).reviseMapIndexes, [],
              by simp, fun _ hr => by cases hr⟩
            · simp only [List.mem_append, List.mem_singleton, hready r' hr', or_false]
              exact or_iff_left fun hmem => hr' ((reviseMapIndexes_taskId hmem).trans hid)
            · rw [← hid] at ht
              simp [ht]

/-! ## Tasks that need no expansion -/

variable (run ctx p) in
/-- A visit to an instance of a task that needs no expansion. -/
theorem ReadyPass.visit_plain (htask : dag.getTask r.taskId = some task)
    (hplain : task.needsExpansion = false) :
    let e := evaluate dag run ctx p.session r
    (p.visit dag run ctx r).session = e.session ∧
    (p.visit dag run ctx r).additionalTis = p.additionalTis ∧
    (p.visit dag run ctx r).readyTis =
      if e.met && State.isScheduleable (e.session.state r) then p.readyTis ++ [r]
      else p.readyTis := by
  have hcount := getMappedTiCount_plain hplain run
    (areDependenciesMet dag run p.session r task ctx).session
  have hnone : expandMappedTaskIfNeeded dag run
      (areDependenciesMet dag run p.session r task ctx).session task r = none := by
    simp [expandMappedTaskIfNeeded, Session.expandMappedTask, hcount]
  have hrevise : (areDependenciesMet dag run p.session r task ctx).session.reviseMapIndexesIfMapped
      run task = ((areDependenciesMet dag run p.session r task ctx).session, []) := by
    simp [Session.reviseMapIndexesIfMapped, hcount]
  dsimp only
  rw [evaluate_eq run htask]
  unfold ReadyPass.visit ReadyPass.markReady
  rw [htask]
  dsimp only
  rw [hnone]
  cases (areDependenciesMet dag run p.session r task ctx).met with
  | false => exact ⟨rfl, rfl, rfl⟩
  | true =>
    dsimp only
    rw [hrevise]
    cases State.isScheduleable
        ((areDependenciesMet dag run p.session r task ctx).session.state r) with
    | false => exact ⟨rfl, rfl, rfl⟩
    | true =>
      simp only [Bool.not_true, Bool.false_eq_true, if_false, Bool.and_self, if_true]
      split
      · exact ⟨rfl, rfl, rfl⟩
      · exact ⟨rfl, rfl, by simp⟩

end

/-- A task of the DAG that needs no expansion. -/
def IsPlain (dag : Dag) (t : TaskId) : Prop :=
  ∃ task, dag.getTask t = some task ∧ task.needsExpansion = false

/-- The instances `l` are of no task that needs expansion and that `task` has as an upstream task
or a relevant setup. -/
def UpstreamSettled (dag : Dag) (l : List TIRef) (task : Operator) : Prop :=
  ∀ u ∈ dag.tasks, u.taskId ∈ task.upstreamTaskIds ∨ u.taskId ∈ dag.getUpstreamsOnlySetups task →
    u.needsExpansion = true → ∀ r ∈ l, r.taskId ≠ u.taskId

theorem mappingReads_plain {dag : Dag} {task : Operator} (h : task.needsExpansion = false) :
    mappingReads dag task = [] := by
  simp only [Operator.needsExpansion, Operator.isMapped, Bool.or_eq_false_iff,
    Option.isSome_eq_false_iff, Option.isNone_iff_eq_none, Bool.not_eq_false',
    List.isEmpty_iff] at h
  have hcommon : ∀ up : Operator, findCommonAncestorMappedGroup task up = [] := by
    intro up
    rw [findCommonAncestorMappedGroup, List.dropWhile_eq_nil_iff]
    simp [h.2]
  simp [mappingReads, Operator.mappedReferences, h.1, h.2, hcommon]

theorem Dag.mem_taskIds_of_setup {dag : Dag} {task : Operator} {t : TaskId}
    (h : t ∈ dag.getUpstreamsOnlySetups task) : t ∈ dag.taskIds := by
  simp only [getUpstreamsOnlySetups, List.mem_dedup, List.mem_map, List.mem_filter,
    getUpstreamsOnlySetupsAndTeardowns, List.mem_flatMap] at h
  obtain ⟨x, ⟨⟨y, hy, hx⟩, -⟩, rfl⟩ := h
  have hmem : ∀ {z l p}, z ∈ List.filter p l → l = dag.tasks → z.taskId ∈ dag.taskIds :=
    fun hz hl => List.mem_map_of_mem (hl ▸ (List.mem_filter.mp hz).1)
  split at hx
  · rcases List.mem_cons.mp hx with rfl | hx
    · exact hmem hy rfl
    · exact hmem (List.mem_filter.mp hx).1 rfl
  · cases hx

theorem Dag.getTask_of_mem {dag : Dag} {t : TaskId} (h : t ∈ dag.taskIds) :
    ∃ task ∈ dag.tasks, task.taskId = t ∧ dag.getTask t = some task := by
  obtain ⟨x, hx, rfl⟩ := List.mem_map.mp h
  have hsome : (dag.getTask x.taskId).isSome := by
    rw [Dag.getTask, List.find?_isSome]
    exact ⟨x, hx, by simp⟩
  obtain ⟨task, htask⟩ := Option.isSome_iff_exists.mp hsome
  exact ⟨task, List.mem_of_find?_eq_some htask, Dag.getTask_taskId htask, htask⟩

/-! ## The frame of a pass -/

/-- What a pass that began with `s` over the instances `l` has left apart when it has visited
`visited`. -/
structure PassFrame (dag : Dag) (run : RunData) (s : Session) (finishedTis l visited : List TIRef)
    (p : ReadyPass) : Prop where
  outside : ∀ t, (∀ r ∈ l, r.taskId ≠ t) → p.session.tis t = s.tis t
  additional : ∀ r ∈ p.additionalTis,
    ¬IsPlain dag r.taskId ∧ Indexed p.session r ∧ ∃ r' ∈ l, r'.taskId = r.taskId
  ready : ∀ r ∈ p.readyTis, ∃ r' ∈ l, r'.taskId = r.taskId
  fixed : ∀ t, IsPlain dag t → SameFixed s p.session t
  unvisited : ∀ r, IsPlain dag r.taskId → r ∉ visited →
    p.session.state r = s.state r ∧ r ∉ p.readyTis
  visited : ∀ r ∈ visited, ∀ task, dag.getTask r.taskId = some task →
    task.needsExpansion = false → UpstreamSettled dag l task →
    p.session.state r = (evaluate dag run (readyContext finishedTis) s r).session.state r ∧
    (r ∈ p.readyTis ↔ (evaluate dag run (readyContext finishedTis) s r).met = true ∧
      State.isScheduleable
        ((evaluate dag run (readyContext finishedTis) s r).session.state r) = true)

section
variable {dag : Dag} {run : RunData} {s : Session} {finishedTis l visited : List TIRef}
  {p : ReadyPass} {r : TIRef} {task : Operator}

theorem IsPlain.of_getTask {t : TaskId} (h : IsPlain dag t) (htask : dag.getTask t = some task) :
    task.needsExpansion = false := by
  obtain ⟨task', htask', hplain⟩ := h
  rw [htask] at htask'
  cases htask'
  exact hplain

/-- The pass has not changed what the dependencies of an instance read, but for its own object and
map lengths. -/
theorem PassFrame.evalAgree (h : PassFrame dag run s finishedTis l visited p)
    (hvisited : ∀ r ∈ visited, IsPlain dag r.taskId → r ∉ finishedTis)
    (htask : dag.getTask r.taskId = some task) (hsettled : UpstreamSettled dag l task)
    (hself : SameObject s p.session r) (hstate : s.state r = p.session.state r)
    (hmapping : ∀ t ∈ mappingReads dag task,
      s.unfinishedTiExists t = p.session.unfinishedTiExists t) :
    EvalAgree dag (readyContext finishedTis) r task s p.session := by
  have hread : ∀ t, t ∈ task.upstreamTaskIds ∨ t ∈ dag.getUpstreamsOnlySetups task →
      IsPlain dag t ∨ p.session.tis t = s.tis t := by
    intro t ht
    have hmem : t ∈ dag.taskIds := by
      rcases ht with hu | hs
      · exact dag.upstream_mem task (List.mem_of_find?_eq_some htask) t hu
      · exact Dag.mem_taskIds_of_setup hs
    obtain ⟨u, hu, rfl, hget⟩ := Dag.getTask_of_mem hmem
    cases hexp : u.needsExpansion with
    | false => exact .inl ⟨u, hget, hexp⟩
    | true => exact .inr (h.outside _ (hsettled u hu ht hexp))
  have hfixed : ∀ t, t ∈ task.upstreamTaskIds ∨ t ∈ dag.getUpstreamsOnlySetups task →
      SameFixed s p.session t := by
    intro t ht
    rcases hread t ht with hp | heq
    · exact h.fixed t hp
    · rw [SameFixed, SameUnder, heq]
  refine ⟨⟨hself, fun t ht => hfixed t (.inl ht), fun t ht => hfixed t (.inr ht),
    fun r' hr' ht => ?_, hmapping⟩, hstate⟩
  rcases hread _ ht with hp | heq
  · exact (h.unvisited r' hp fun hv => hvisited r' hv hp hr').1.symm
  · rw [Session.state, Session.get, ← heq, Session.state, Session.get]

/-- The pass has not changed what the dependencies of an unvisited instance of a plain task read. -/
theorem PassFrame.evalAgree_plain (h : PassFrame dag run s finishedTis l visited p)
    (hvisited : ∀ r ∈ visited, IsPlain dag r.taskId → r ∉ finishedTis)
    (htask : dag.getTask r.taskId = some task) (hplain : task.needsExpansion = false)
    (hr : r ∉ visited) (hsettled : UpstreamSettled dag l task) :
    EvalAgree dag (readyContext finishedTis) r task s p.session := by
  refine h.evalAgree hvisited htask hsettled ((h.fixed _ ⟨task, htask, hplain⟩).get rfl)
    (h.unvisited r ⟨task, htask, hplain⟩ hr).1.symm fun t ht => ?_
  rw [mappingReads_plain hplain] at ht
  cases ht

theorem PassFrame.init : PassFrame dag run s finishedTis l [] { session := s } :=
  ⟨fun _ _ => rfl, fun _ hr => (List.not_mem_nil hr).elim, fun _ hr => (List.not_mem_nil hr).elim,
    fun _ _ => .refl _ _, fun _ _ _ => ⟨rfl, List.not_mem_nil⟩,
    fun _ hr => (List.not_mem_nil hr).elim⟩

/-- **A visit keeps the frame of a pass.** -/
theorem PassFrame.visit (h : PassFrame dag run s finishedTis l visited p)
    (hclean : ∀ t, ∀ ti ∈ s.tis t, ti.dbState = ti.state)
    (hvisited : ∀ r ∈ visited, IsPlain dag r.taskId → r ∉ finishedTis)
    (hr : ∃ r' ∈ l, r'.taskId = r.taskId)
    (hnew : IsPlain dag r.taskId → r ∉ visited ∧ (s.get r).isSome) :
    PassFrame dag run s finishedTis l (visited ++ [r])
      (p.visit dag run (readyContext finishedTis) r) := by
  have hframe : VisitFrame p (p.visit dag run (readyContext finishedTis) r) r := p.visit_frame
  have hother : ∀ r', r' ∉ visited ++ [r] → r' ∉ visited ∧ r' ≠ r := by
    intro r' hr'
    rw [List.mem_append, List.mem_singleton, not_or] at hr'
    exact hr'
  have hready : ∀ r' ∈ (p.visit dag run (readyContext finishedTis) r).readyTis,
      ∃ r₂ ∈ l, r₂.taskId = r'.taskId := by
    intro r' hr'
    by_cases hid : r'.taskId = r.taskId
    · rw [hid]
      exact hr
    · exact h.ready r' ((hframe.ready r' hid).mp hr')
  by_cases hplain : IsPlain dag r.taskId
  · -- only the state of `r` changes
    obtain ⟨task, htask, hexp⟩ := hplain
    obtain ⟨hnv, hsome⟩ := hnew ⟨task, htask, hexp⟩
    obtain ⟨hsession, hadd, hnow⟩ := p.visit_plain run (readyContext finishedTis) htask hexp
    have hw := WrittenOn.of_written
      (evaluate_written run dag (readyContext finishedTis) p.session r)
    rw [← hsession] at hw
    have hmem : ∀ r', r' ≠ r → (r' ∈ (p.visit dag run (readyContext finishedTis) r).readyTis ↔
        r' ∈ p.readyTis) := by
      intro r' hne
      rw [hnow]
      split
      · simp [hne]
      · exact .rfl
    refine ⟨fun t ht => ?_, fun r' hr' => ?_, hready, fun t hp => ?_,
      fun r' hp hr' => ?_, fun r' hr' task' htask' hexp' hsettled => ?_⟩
    · have hout := h.outside t ht
      obtain ⟨r', hr', heq⟩ := hr
      have hne : t ≠ r.taskId := fun h' => ht r' hr' (heq.trans h'.symm)
      rw [← hout]
      exact (hframe.other t hne).tis_eq (by rw [hout]; exact hclean t)
    · rw [hadd] at hr'
      obtain ⟨hnp, hidx, htask'⟩ := h.additional r' hr'
      exact ⟨hnp, hframe.indexed r' hidx, htask'⟩
    · exact (h.fixed t hp).trans (hw.stored t).fixed
    · obtain ⟨hv', hne⟩ := hother r' hr'
      rw [hw.state hne, hmem r' hne]
      exact h.unvisited r' hp hv'
    · by_cases hne : r' = r
      · subst hne
        rw [htask] at htask'
        cases htask'
        have hagree := areDependenciesMet_agree run
          (h.evalAgree_plain hvisited htask hexp hnv hsettled) hsome
        rw [hnow, hsession, evaluate_eq run htask, evaluate_eq run htask, ← hagree.met,
          ← hagree.session.state]
        refine ⟨rfl, ?_⟩
        rw [← Bool.and_eq_true]
        split
        · next hc => simp [hc]
        · next hc => simp [hc, (h.unvisited r' ⟨task, htask, hexp⟩ hnv).2]
      · rw [hw.state hne, hmem r' hne]
        refine h.visited r' ?_ task' htask' hexp' hsettled
        simpa [hne] using hr'
  · -- plain tasks are other tasks
    have hne : ∀ t, IsPlain dag t → t ≠ r.taskId := fun t hp heq => hplain (heq ▸ hp)
    obtain ⟨new, hadd, hnewIds⟩ := hframe.additional
    refine ⟨fun t ht => ?_, fun r' hr' => ?_, hready, fun t hp => ?_, fun r' hp hr' => ?_,
      fun r' hr' task' htask' hexp' hsettled => ?_⟩
    · have hout := h.outside t ht
      obtain ⟨r', hr', heq⟩ := hr
      have hne : t ≠ r.taskId := fun h' => ht r' hr' (heq.trans h'.symm)
      rw [← hout]
      exact (hframe.other t hne).tis_eq (by rw [hout]; exact hclean t)
    · rw [hadd] at hr'
      rcases List.mem_append.mp hr' with hr' | hr'
      · obtain ⟨hnp, hidx, htask'⟩ := h.additional r' hr'
        exact ⟨hnp, hframe.indexed r' hidx, htask'⟩
      · obtain ⟨hid, hidx⟩ := hnewIds r' hr'
        rw [hid]
        exact ⟨hplain, hidx, hr⟩
    · exact (h.fixed t hp).trans (hframe.other t (hne t hp)).fixed
    · rw [(hframe.other _ (hne _ hp)).state rfl, hframe.ready r' (hne _ hp)]
      exact h.unvisited r' hp (hother r' hr').1
    · have hp : IsPlain dag r'.taskId := ⟨task', htask', hexp'⟩
      rw [(hframe.other _ (hne _ hp)).state rfl, hframe.ready r' (hne _ hp)]
      refine h.visited r' ?_ task' htask' hexp' hsettled
      rcases List.mem_append.mp hr' with hr' | hr'
      · exact hr'
      · exact absurd (congrArg TIRef.taskId (List.mem_singleton.mp hr')) (hne _ hp)

/-- The frame of the loop over the instances that the pass began with. -/
theorem passAfter_frame (run : RunData) (hclean : ∀ t, ∀ ti ∈ s.tis t, ti.dbState = ti.state)
    (hv : Visited dag s finishedTis l) :
    PassFrame dag run s finishedTis l l (passAfter dag run s finishedTis l) := by
  refine Lockstep.foldl_history PassFrame.init fun v r p hpre h => ?_
  have hsub : ∀ r' ∈ v, r' ∈ l := fun r' hr' => hpre.subset (List.mem_append_left _ hr')
  have hr : r ∈ l := hpre.subset (by simp)
  refine h.visit hclean (fun r' hr' _ => hv.unfinished r' (hsub r' hr')) ⟨r, hr, rfl⟩
    fun _ => ⟨fun hmem => ?_, hv.get r hr⟩
  exact (List.nodup_append.mp (hv.nodup.sublist hpre.sublist)).2.2 r hmem r (by simp) rfl

/-- A pass adds no instances of tasks that need no expansion. -/
theorem mem_of_visitedTis (run : RunData) (hclean : ∀ t, ∀ ti ∈ s.tis t, ti.dbState = ti.state)
    (hv : Visited dag s finishedTis l) (hplain : IsPlain dag r.taskId)
    (hr : r ∈ visitedTis dag run s l finishedTis) : r ∈ l := by
  rcases List.mem_append.mp hr with hr | hr
  · exact hr
  · exact absurd hplain ((passAfter_frame run hclean hv).additional r hr).1

/-- **The frame of a whole ready pass.** -/
theorem passFrame (hclean : ∀ t, ∀ ti ∈ s.tis t, ti.dbState = ti.state)
    (hv : Visited dag s finishedTis l) :
    PassFrame dag run s finishedTis l (visitedTis dag run s l finishedTis)
      (readyPass dag run s l finishedTis) := by
  have hfirst := passAfter_frame run hclean hv
  unfold visitedTis readyPass
  dsimp only
  rw [← passAfter]
  have hadd := hfirst.additional
  refine Lockstep.foldl_history (M := fun v p => PassFrame dag run s finishedTis l (l ++ v) p)
    (by simpa using hfirst) fun v r p hpre h => ?_
  have hsub : ∀ r' ∈ v, ¬IsPlain dag r'.taskId :=
    fun r' hr' => (hadd r' (hpre.subset (List.mem_append_left _ hr'))).1
  obtain ⟨hplain, -, htask⟩ := hadd r (hpre.subset (by simp))
  rw [← List.append_assoc]
  refine h.visit hclean (fun r' hr' hp => ?_) htask fun hp => absurd hp hplain
  rcases List.mem_append.mp hr' with hr' | hr'
  · exact hv.unfinished r' hr'
  · exact absurd hp (hsub r' hr')

end

end Airflow
