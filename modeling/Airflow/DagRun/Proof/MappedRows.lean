import Airflow.DagRun.Proof.MiniScheduler

/-!
# The rows of a mapped task in a ready pass

The objects of one task are seen as a list of rows with the states that they have in memory
(`Session.view`). On it a visit is one of few operations:

* `view_written`: the evaluation of the dependencies sets the state of the instance visited;
* `view_expandTo`: an expansion is `expandRows`;
* `view_revise`: a revision is `reviseRows`.

`visit_mapped` says which of them a visit is, for a task whose length is known.
-/

namespace Airflow

/-! ## Rows with the states in memory -/

/-- The object with the state that it has in memory. -/
def TaskInstance.flushed (ti : TaskInstance) : TaskInstance := { ti with dbState := ti.state }

/-- The objects of a task with the states that they have in memory. -/
def Session.view (s : Session) (t : TaskId) : List TaskInstance :=
  (s.tis t).map TaskInstance.flushed

/-- A row gets a state. -/
def TaskInstance.setState (state : TIState) (ti : TaskInstance) : TaskInstance :=
  { ti with state, dbState := state }

section
variable {s s' : Session} {r : TIRef} {t : TaskId}

theorem view_flush (s : Session) (t : TaskId) : s.flush.view t = s.view t := by
  rw [Session.view, Session.flush_tis, List.map_map]
  rfl

theorem SameOrFlushed.view (h : SameOrFlushed s s' t) : s'.view t = s.view t := by
  rcases h with h | h
  · rw [Session.view, h, Session.view]
  · rw [Session.view, h, ← Session.view, view_flush]

theorem view_getElem? (s : Session) (r : TIRef) :
    (s.view r.taskId)[r.pos]? = (s.get r).map TaskInstance.flushed := by
  rw [Session.view, List.getElem?_map, Session.get]

theorem state_view (s : Session) (r : TIRef) :
    s.state r = ((s.view r.taskId)[r.pos]?).bind (·.state) := by
  rw [view_getElem?, Session.state]
  cases s.get r <;> rfl

theorem mapIndex_view (s : Session) (r : TIRef) :
    s.mapIndex r = (((s.view r.taskId)[r.pos]?).map (·.mapIndex)).getD 0 := by
  rw [view_getElem?, Session.mapIndex]
  cases s.get r <;> rfl

theorem live_view (s : Session) (r : TIRef) :
    s.live r = ((s.view r.taskId)[r.pos]?).any fun ti => !ti.deleted := by
  rw [view_getElem?, Session.live]
  cases s.get r <;> rfl

theorem view_assign (f g : TaskInstance → TaskInstance)
    (hfg : ∀ ti, (f ti).flushed = g ti.flushed) :
    (s.assign r f).view r.taskId = (s.view r.taskId).modify r.pos g := by
  simp only [Session.view, Session.assign, Function.update_self]
  apply List.ext_getElem?
  intro i
  simp only [List.getElem?_map, List.getElem?_modify]
  cases (s.tis r.taskId)[i]? with
  | none => rfl
  | some ti =>
    by_cases hi : r.pos = i
    · simp [hi, hfg]
    · simp [hi]

/-- The evaluation of the dependencies of an instance sets its state. -/
theorem view_written (h : Session.Written r s s') :
    s'.view r.taskId = (s.view r.taskId).modify r.pos (.setState (s'.state r)) := by
  rcases h with rfl | ⟨state, -, rfl⟩
  · apply List.ext_getElem?
    intro i
    rw [List.getElem?_modify]
    by_cases hi : r.pos = i
    · subst hi
      rw [view_getElem?, Session.state]
      cases s'.get r <;> simp [TaskInstance.flushed, TaskInstance.setState]
    · simp [hi]
  · cases hget : s.get r with
    | none =>
      have hlen : (s.view r.taskId).length ≤ r.pos := by
        rw [← List.getElem?_eq_none_iff, view_getElem?, hget]
        rfl
      rw [Session.setState, view_assign _ (.setState state) fun _ => rfl,
        List.modify_eq_self hlen, List.modify_eq_self hlen]
    | some ti =>
      have hstate : (s.setState r state).state r = state := by
        rw [Session.state, Session.setState, Session.get_assign_self, hget]
        rfl
      rw [hstate, Session.setState, view_assign _ (.setState state) fun _ => rfl]

/-! ## Revision -/

/-- A new row. -/
def newRow (state : TIState) (mapIndex : Int) : TaskInstance where
  mapIndex
  state
  dbState := state

/-- The objects that get `n` new rows, of which there were `len`. -/
def newRefs (t : TaskId) (len n : Nat) : List TIRef := (List.range n).map fun j => ⟨t, len + j⟩

/-- The map indexes below `n` that no row has. -/
def missingIndexes (n : Nat) (rows : List TaskInstance) : List Nat :=
  (List.range n).filter fun i => !rows.any fun ti => !ti.deleted ∧ ti.mapIndex = i

/-- A row outside a mapping of length `n` is removed. -/
def removeOutsideRow (n : Nat) (ti : TaskInstance) : TaskInstance :=
  if !ti.deleted ∧ ¬inRange ti.mapIndex n then ti.setState (some .removed) else ti

/-- `_revise_map_indexes_if_mapped` on the rows of a task of length `n`. -/
def reviseRows (n : Nat) (rows : List TaskInstance) : List TaskInstance :=
  rows.map (removeOutsideRow n) ++
    (missingIndexes n rows).map fun i : Nat => newRow none i

theorem length_view (s : Session) (t : TaskId) : (s.view t).length = (s.tis t).length := by
  rw [Session.view, List.length_map]

theorem view_add (s : Session) (t : TaskId) (ti : TaskInstance) :
    (s.add t ti).view t = s.view t ++ [ti.flushed] := by
  simp only [Session.view, Session.add, Function.update_self, List.map_append, List.map_singleton]

theorem view_assignAll (f g : TaskInstance → TaskInstance)
    (hfg : ∀ ti, (f ti).flushed = g ti.flushed) (s : Session) (t : TaskId) :
    (s.assignAll t f).view t = (s.view t).map g := by
  simp only [Session.view, Session.assignAll, Function.update_self, List.map_map]
  exact List.map_congr_left fun ti _ => hfg ti

theorem addMissing_spec (s : Session) (t : TaskId) (existing : List Int) (n : Nat) :
    let new := (List.range n).filter fun i : Nat => decide ((i : Int) ∉ existing)
    (s.addMissing t existing n).1.view t = s.view t ++ new.map (fun i : Nat => newRow none i) ∧
      (s.addMissing t existing n).2 = newRefs t (s.tis t).length new.length := by
  induction n with
  | zero => simp [Session.addMissing, newRefs]
  | succ n ih =>
    obtain ⟨hview, hrefs⟩ := ih
    dsimp only at hview hrefs ⊢
    rw [List.range_succ, List.filter_append, List.filter_singleton]
    simp only [Session.addMissing]
    by_cases hmem : (n : Int) ∈ existing
    · simp only [hmem, if_true, not_true_eq_false, decide_false, cond_false, List.append_nil]
      exact ⟨hview, hrefs⟩
    · have hlen : ((s.addMissing t existing n).1.tis t).length = (s.tis t).length +
          ((List.range n).filter fun i : Nat => decide ((i : Int) ∉ existing)).length := by
        rw [← length_view, hview, List.length_append, List.length_map, length_view]
      simp only [hmem, if_false, not_false_eq_true, decide_true, view_flush, view_add, hview, hrefs,
        hlen]
      refine ⟨by simp [TaskInstance.flushed, newRow], ?_⟩
      simp [newRefs, List.range_succ]

theorem any_view (s : Session) (t : TaskId) (p : TaskInstance → Bool)
    (hp : ∀ ti, p ti.flushed = p ti) : (s.view t).any p = (s.tis t).any p := by
  rw [Session.view, List.any_map]
  congr 1
  exact funext hp

theorem mem_mapIndexes {i : Int} :
    i ∈ (s.rowsOf t).map (·.mapIndex) ↔
      (s.view t).any (fun ti => !ti.deleted ∧ ti.mapIndex = i) = true := by
  rw [any_view s t _ fun _ => rfl]
  simp [Session.rowsOf, List.any_eq_true, and_assoc]

theorem filter_notMem (s : Session) (t : TaskId) (n : Nat) :
    ((List.range n).filter fun i : Nat => decide ((i : Int) ∉ (s.rowsOf t).map (·.mapIndex))) =
      missingIndexes n (s.view t) := by
  refine List.filter_congr fun i _ => ?_
  rw [Bool.eq_iff_iff, decide_eq_true_eq, mem_mapIndexes, Bool.not_eq_true', Bool.not_eq_true]

/-- Where every row is in the mapping, a revision removes none. -/
theorem map_removeOutsideRow {n : Nat}
    (hall : ((s.rowsOf t).map (·.mapIndex)).all (inRange · n) = true) :
    (s.view t).map (removeOutsideRow n) = s.view t := by
  refine (List.map_congr_left fun ti hti => ?_).trans (List.map_id _)
  refine if_neg ?_
  rintro ⟨hlive, hout⟩
  refine hout (List.all_eq_true.mp hall _ (mem_mapIndexes.mpr ?_))
  exact List.any_eq_true.mpr ⟨ti, hti, by simp [hlive]⟩

/-- **The revision of a task whose length is known.** -/
theorem view_revise {run : RunData} {task : Operator} {n : Nat}
    (hcount : task.getMappedTiCount run s = .ok n) :
    (s.reviseMapIndexesIfMapped run task).1.view task.taskId =
        reviseRows n (s.view task.taskId) ∧
      (s.reviseMapIndexesIfMapped run task).2 = newRefs task.taskId (s.tis task.taskId).length
        (missingIndexes n (s.view task.taskId)).length := by
  simp only [Session.reviseMapIndexesIfMapped, hcount]
  split
  · next hall =>
    obtain ⟨hview, hrefs⟩ := addMissing_spec s task.taskId
      ((s.rowsOf task.taskId).map (·.mapIndex)) n
    rw [filter_notMem] at hview hrefs
    rw [hview, reviseRows, map_removeOutsideRow hall]
    exact ⟨rfl, hrefs⟩
  · next hall =>
    obtain ⟨hview, hrefs⟩ := addMissing_spec (s.removeOutside task.taskId n).flush task.taskId
      ((s.rowsOf task.taskId).map (·.mapIndex)) n
    rw [filter_notMem] at hview hrefs
    have hremove : (s.removeOutside task.taskId n).flush.view task.taskId =
        (s.view task.taskId).map (removeOutsideRow n) := by
      rw [view_flush]
      refine view_assignAll _ _ (fun ti => ?_) s task.taskId
      by_cases hout : !ti.deleted ∧ ¬inRange ti.mapIndex n
      · rw [if_pos hout, removeOutsideRow, if_pos (by exact hout)]
        rfl
      · rw [if_neg hout, removeOutsideRow, if_neg (by exact hout)]
    rw [hview, hremove]
    refine ⟨rfl, ?_⟩
    rw [hrefs, ← length_view, hremove, List.length_map, length_view]

/-! ## Expansion -/

/-- A row that no other transaction holds is removed where its index is too high. -/
def removeFromRow (n : Nat) (ti : TaskInstance) : TaskInstance :=
  if !ti.deleted ∧ ti.mapIndex ≥ n ∧ !ti.locked then ti.setState (some .removed) else ti

/-- The highest map index of a row. -/
def maxIndex (rows : List TaskInstance) : Int :=
  (rows.filter fun ti => !ti.deleted).foldl
    (fun m ti => if ti.mapIndex > m then ti.mapIndex else m) (-1)

/-- What becomes of the unexpanded row of a task of length `n`. -/
def expandRow (n : Nat) (rows : List TaskInstance) (ti : TaskInstance) : TaskInstance :=
  if n = 0 then ti.setState (some .skipped)
  else if rows.any fun ti => !ti.deleted ∧ ti.mapIndex = 0 then { ti with deleted := true }
  else { ti with mapIndex := 0 }

/-- `expand_mapped_task` on the rows of a task of length `n`, of which `rows` are left when the
unexpanded one has been dealt with. -/
def fillRows (n : Nat) (state : TIState) (rows : List TaskInstance) : List TaskInstance :=
  (rows ++ (List.range (n - (maxIndex rows + 1)).toNat).map fun j : Nat =>
    newRow state (maxIndex rows + 1 + j)).map (removeFromRow n)

theorem foldl_max_ge (rows : List TaskInstance) (m : Int) :
    m ≤ rows.foldl (fun m ti => if ti.mapIndex > m then ti.mapIndex else m) m ∧
      ∀ ti ∈ rows, ti.mapIndex ≤
        rows.foldl (fun m ti => if ti.mapIndex > m then ti.mapIndex else m) m := by
  induction rows generalizing m with
  | nil => exact ⟨Int.le_refl m, fun ti hti => (List.not_mem_nil hti).elim⟩
  | cons a rows ih =>
    obtain ⟨hstart, hmem⟩ := ih (if a.mapIndex > m then a.mapIndex else m)
    rw [List.foldl_cons]
    generalize rows.foldl _ _ = k at hstart hmem ⊢
    refine ⟨by split at hstart <;> omega, fun ti hti => ?_⟩
    rcases List.mem_cons.mp hti with rfl | hti
    · split at hstart <;> omega
    · exact hmem ti hti

theorem maxIndex_ge (rows : List TaskInstance) : -1 ≤ maxIndex rows := (foldl_max_ge _ _).1

theorem le_maxIndex {rows : List TaskInstance} {a : TaskInstance} (ha : a ∈ rows)
    (hlive : a.deleted = false) : a.mapIndex ≤ maxIndex rows :=
  (foldl_max_ge _ _).2 a (List.mem_filter.mpr ⟨ha, by simp [hlive]⟩)

theorem currentMaxMapping_view (s : Session) (t : TaskId) :
    s.currentMaxMapping t = maxIndex (s.view t) := by
  rw [Session.currentMaxMapping, maxIndex, Session.view, List.filter_map, List.foldl_map]
  rfl

theorem addTis_spec (s : Session) (t : TaskId) (state : TIState) (start : Int) (n : Nat) :
    (s.addTis t state start n).1.view t =
        s.view t ++ (List.range n).map (fun j : Nat => newRow state (start + j)) ∧
      (s.addTis t state start n).2 = newRefs t (s.tis t).length n := by
  induction n with
  | zero => simp [Session.addTis, newRefs]
  | succ n ih =>
    obtain ⟨hview, hrefs⟩ := ih
    have hlen : ((s.addTis t state start n).1.tis t).length = (s.tis t).length + n := by
      rw [← length_view, hview, List.length_append, List.length_map, List.length_range,
        length_view]
    simp only [Session.addTis, view_add, hview, hrefs, hlen]
    refine ⟨by simp [List.range_succ, TaskInstance.flushed, newRow], ?_⟩
    simp [newRefs, List.range_succ]

/-- What is left of the rows when the unexpanded one, `found`, has been dealt with. -/
def unmappedRows (n : Nat) (found : Option TIRef) (rows : List TaskInstance) :
    List TaskInstance :=
  match found with
  | none => rows
  | some u => rows.modify u.pos (expandRow n rows)

theorem length_unmappedRows (n : Nat) (found : Option TIRef) (rows : List TaskInstance) :
    (unmappedRows n found rows).length = rows.length := by
  cases found with
  | none => rfl
  | some u => exact List.length_modify ..

/-- The unexpanded instance that an expansion finds. -/
def Session.findUnmapped (s : Session) (t : TaskId) : Option TIRef :=
  s.findTi t fun ti => !ti.deleted ∧ ti.mapIndex = -1 ∧ State.isUnfinished ti.dbState

theorem expandUnmapped_spec (s : Session) (isPartial : Bool) (t : TaskId) (n : Nat) :
    (s.expandUnmapped isPartial t (some n)).1.view t =
        unmappedRows n (s.findUnmapped t) (s.view t) ∧
      (∀ r ∈ (s.expandUnmapped isPartial t (some n)).2.1, some r = s.findUnmapped t) ∧
      (s.expandUnmapped isPartial t (some n)).2.1.Nodup ∧
      ∀ u, s.findUnmapped t = some u → n ≠ 0 →
        ((s.view t).any fun ti => !ti.deleted ∧ ti.mapIndex = 0) = false →
        u ∈ (s.expandUnmapped isPartial t (some n)).2.1 := by
  unfold Session.expandUnmapped
  rw [← Session.findUnmapped]
  cases hfound : s.findUnmapped t with
  | none =>
    exact ⟨rfl, fun r hr => (List.not_mem_nil hr).elim, List.nodup_nil, fun u hu => by cases hu⟩
  | some u =>
    have hid : u.taskId = t := (RowInv.findTi_spec hfound).1
    subst hid
    have hzero : (s.rowsOf u.taskId).any (fun ti => decide (ti.mapIndex = 0)) =
        (s.view u.taskId).any (fun ti => !ti.deleted ∧ ti.mapIndex = 0) := by
      rw [any_view s _ _ fun _ => rfl, Session.rowsOf, List.any_filter]
      simp only [Bool.decide_and, Bool.decide_eq_true]
    cases n with
    | zero =>
      refine ⟨?_, fun r hr => (List.not_mem_nil hr).elim, List.nodup_nil,
        fun _ _ hn => absurd rfl hn⟩
      exact view_assign _ (expandRow 0 (s.view u.taskId)) fun _ => rfl
    | succ n =>
      dsimp only
      rw [hzero]
      split
      · next h =>
        refine ⟨?_, fun r hr => (List.not_mem_nil hr).elim, List.nodup_nil, fun _ _ _ hno => ?_⟩
        · refine view_assign _ (expandRow (n + 1) (s.view u.taskId)) fun ti => ?_
          rw [expandRow, if_neg (Nat.succ_ne_zero n), if_pos h]
          rfl
        · rw [h] at hno
          cases hno
      · next h =>
        refine ⟨?_, fun r hr => by rw [List.mem_singleton.mp hr], List.nodup_singleton u,
          fun _ hu _ _ => by cases hu; exact List.mem_singleton_self u⟩
        rw [view_flush]
        refine view_assign _ (expandRow (n + 1) (s.view u.taskId)) fun ti => ?_
        rw [expandRow, if_neg (Nat.succ_ne_zero n), if_neg h]
        rfl

/-- **The expansion of a task to a known length.** -/
theorem view_expandTo (s : Session) (isPartial : Bool) (t : TaskId) (n : Nat) :
    ∃ state unmapped len k,
      (s.expandTo isPartial t (some n)).1.view t =
        fillRows n state (unmappedRows n (s.findUnmapped t) (s.view t)) ∧
      (s.expandTo isPartial t (some n)).2 = unmapped ++ newRefs t len k ∧
      (∀ r ∈ unmapped, some r = s.findUnmapped t) ∧ unmapped.Nodup ∧
      len = (s.tis t).length ∧
      ((s.expandTo isPartial t (some n)).1.view t).length = len + k ∧
      ∀ u, s.findUnmapped t = some u → n ≠ 0 →
        ((s.view t).any fun ti => !ti.deleted ∧ ti.mapIndex = 0) = false → u ∈ unmapped := by
  obtain ⟨hview, hmem, hnodup, hconv⟩ := expandUnmapped_spec s isPartial t n
  simp only [Session.expandTo]
  generalize s.expandUnmapped isPartial t (some n) = e at hview hmem hnodup hconv ⊢
  obtain ⟨s₁, unmapped, state⟩ := e
  dsimp only at hview hmem hnodup hconv ⊢
  have hcount : (if (some n).getD 0 < 1 then 0
      else (((some n).getD 0 : Nat) - (s₁.currentMaxMapping t + 1) : Int).toNat) =
        ((n : Int) - (maxIndex (s₁.view t) + 1)).toNat := by
    have hge := RowInv.currentMaxMapping_ge s₁ t
    rw [currentMaxMapping_view] at hge ⊢
    simp only [Option.getD_some]
    split <;> omega
  rw [hcount]
  obtain ⟨hadd, hrefs⟩ := addTis_spec s₁ t state (s₁.currentMaxMapping t + 1)
    ((n : Int) - (maxIndex (s₁.view t) + 1)).toNat
  have hfinal : ((((s₁.addTis t state (s₁.currentMaxMapping t + 1)
      ((n : Int) - (maxIndex (s₁.view t) + 1)).toNat).1).removeFrom t ((some n).getD 0)).flush).view t =
      fillRows n state (unmappedRows n (s.findUnmapped t) (s.view t)) := by
    rw [view_flush, Session.removeFrom, view_assignAll _ (removeFromRow n) fun ti => ?_, hadd,
      currentMaxMapping_view, hview]
    · rfl
    · by_cases hout : !ti.deleted ∧ ti.mapIndex ≥ n ∧ !ti.locked
      · rw [Option.getD_some, if_pos hout, removeFromRow, if_pos (by exact hout)]
        rfl
      · rw [Option.getD_some, if_neg hout, removeFromRow, if_neg (by exact hout)]
  have hlen : (s₁.tis t).length = (s.tis t).length := by
    rw [← length_view, hview, length_unmappedRows, length_view]
  refine ⟨state, unmapped, _, _, hfinal, by rw [hrefs], hmem, hnodup, hlen, ?_, hconv⟩
  rw [hfinal, fillRows, List.length_map, List.length_append, List.length_map, List.length_range,
    length_unmappedRows, length_view, hlen, hview]

end

/-! ## A visit -/

/-- What a visit to an instance `r` of a task `t` of length `n` does, when the instance has the
state `e` after its dependencies were evaluated. -/
inductive MappedVisit (n : Nat) (p : ReadyPass) (d : DepState) (r : TIRef) (p' : ReadyPass) : Prop
  /-- Not ready. -/
  | quiet (h : d.met = false ∨ 0 ≤ p.session.mapIndex r ∧
        State.isScheduleable (d.session.state r) = false)
      (view : p'.session.view r.taskId =
        (p.session.view r.taskId).modify r.pos (.setState (d.session.state r)))
      (ready : p'.readyTis = p.readyTis) (additional : p'.additionalTis = p.additionalTis)
      (revised : p'.revisedMapIndexTaskIds = p.revisedMapIndexTaskIds)
  /-- Not expanded yet. -/
  | expand (hmet : d.met = true) (hidx : p.session.mapIndex r < 0) (state : TIState)
      (unmapped : List TIRef) (k : Nat)
      (view : p'.session.view r.taskId = fillRows n state
        (unmappedRows n (d.session.findUnmapped r.taskId)
          ((p.session.view r.taskId).modify r.pos (.setState (d.session.state r)))))
      (hunmapped : ∀ r' ∈ unmapped, some r' = d.session.findUnmapped r.taskId)
      (hnodup : unmapped.Nodup)
      (ready : p'.readyTis = p.readyTis)
      (additional : p'.additionalTis = p.additionalTis ++
        (unmapped ++ newRefs r.taskId (p.session.view r.taskId).length k))
      (revised : p'.revisedMapIndexTaskIds = p.revisedMapIndexTaskIds)
      (length : (p'.session.view r.taskId).length = (p.session.view r.taskId).length + k)
      (converted : ∀ u, d.session.findUnmapped r.taskId = some u → n ≠ 0 →
        ((d.session.view r.taskId).any fun ti => !ti.deleted ∧ ti.mapIndex = 0) = false →
        u ∈ unmapped)
  /-- The first instance of the task that is ready. -/
  | revise (hmet : d.met = true) (hidx : 0 ≤ p.session.mapIndex r)
      (hsched : State.isScheduleable (d.session.state r) = true)
      (hnew : r.taskId ∉ p.revisedMapIndexTaskIds)
      (view : p'.session.view r.taskId = reviseRows n
        ((p.session.view r.taskId).modify r.pos (.setState (d.session.state r))))
      (ready : p'.readyTis = p.readyTis ++ newRefs r.taskId (p.session.view r.taskId).length
        (missingIndexes n
          ((p.session.view r.taskId).modify r.pos (.setState (d.session.state r)))).length ++ [r])
      (additional : p'.additionalTis = p.additionalTis)
      (revised : p'.revisedMapIndexTaskIds = r.taskId :: p.revisedMapIndexTaskIds)
  /-- Another instance that is ready. -/
  | append (hmet : d.met = true) (hidx : 0 ≤ p.session.mapIndex r)
      (hsched : State.isScheduleable (d.session.state r) = true)
      (hold : r.taskId ∈ p.revisedMapIndexTaskIds)
      (view : p'.session.view r.taskId =
        (p.session.view r.taskId).modify r.pos (.setState (d.session.state r)))
      (ready : p'.readyTis = p.readyTis ++ [r])
      (additional : p'.additionalTis = p.additionalTis)
      (revised : p'.revisedMapIndexTaskIds = p.revisedMapIndexTaskIds)

theorem Session.Written.mapIndex {s s' : Session} {r : TIRef} (h : Session.Written r s s') :
    s'.mapIndex r = s.mapIndex r :=
  ((h.sameStored r.taskId).mapIndex rfl fun _ => rfl).symm

/-- **What a visit to an instance of a task of known length does.** -/
theorem visit_mapped {dag : Dag} {run : RunData} {ctx : DepContext} {p : ReadyPass} {r : TIRef}
    {task : Operator} {n : Nat} (htask : dag.getTask r.taskId = some task)
    (hcount : task.getMappedTiCount run p.session = .ok n) :
    MappedVisit n p (evaluate dag run ctx p.session r) r (p.visit dag run ctx r) := by
  have hid : task.taskId = r.taskId := Dag.getTask_taskId htask
  have hw : Session.Written r p.session (evaluate dag run ctx p.session r).session :=
    evaluate_written run dag ctx p.session r
  have hview := view_written hw
  have hidx := hw.mapIndex
  have hcount' : task.getMappedTiCount run (evaluate dag run ctx p.session r).session = .ok n := by
    rw [hw.getMappedTiCount, hcount]
  unfold ReadyPass.visit
  rw [htask]
  dsimp only
  rw [← evaluate_eq run htask]
  generalize evaluate dag run ctx p.session r = d at hw hview hidx hcount' ⊢
  have hlen : (d.session.tis r.taskId).length = (p.session.view r.taskId).length := by
    rw [← length_view, hview, List.length_modify]
  cases hmet : d.met with
  | false => exact .quiet (.inl hmet) hview rfl rfl rfl
  | true =>
    simp only [Bool.not_true, Bool.false_eq_true, if_false]
    by_cases hneg : p.session.mapIndex r < 0
    · have hexpand : expandMappedTaskIfNeeded dag run d.session task r =
          some (d.session.expandTo dag.partialDag r.taskId (some n)) := by
        rw [expandMappedTaskIfNeeded, if_neg (by omega), Session.expandMappedTask, hcount', hid]
      obtain ⟨state, unmapped, len, k, hexp, hrefs, hmem, hnodup, rfl, hcreated, hconv⟩ :=
        view_expandTo d.session dag.partialDag r.taskId n
      simp only [hexpand]
      exact .expand hmet hneg state unmapped k (by rw [hexp, hview]) hmem hnodup rfl
        (by rw [hrefs, hlen]) rfl (by rw [hcreated, hlen]) hconv
    · have hexpand : expandMappedTaskIfNeeded dag run d.session task r = none := by
        rw [expandMappedTaskIfNeeded, if_pos (by omega)]
      simp only [hexpand, ReadyPass.markReady]
      cases hsched : State.isScheduleable (d.session.state r) with
      | false => exact .quiet (.inr ⟨by omega, hsched⟩) hview rfl rfl rfl
      | true =>
        simp only [Bool.not_true, Bool.false_eq_true, if_false, hid]
        by_cases hrev : r.taskId ∈ p.revisedMapIndexTaskIds
        · rw [if_pos hrev]
          exact .append hmet (by omega) hsched hrev hview rfl rfl rfl
        · rw [if_neg hrev]
          obtain ⟨hrevise, hrefs⟩ := view_revise hcount'
          rw [hid] at hrevise hrefs
          exact .revise hmet (by omega) hsched hrev (by rw [hrevise, hview])
            (by rw [hrefs, hlen, hview]) rfl rfl

/-! ## Single rows -/

/-- The row is outside a mapping of length `n`: its index is too high. -/
def TooHigh (n : Nat) (ti : TaskInstance) : Prop := ti.deleted = false ∧ n ≤ ti.mapIndex

section
variable {n j : Nat} {state : TIState} {rows : List TaskInstance} {a a' : TaskInstance}

theorem not_inRange_of_tooHigh (h : TooHigh n a) : ¬inRange a.mapIndex n := by
  have := h.2
  simp only [inRange, decide_eq_true_eq]
  omega

theorem reviseRows_old (ha : rows[j]? = some a) :
    (reviseRows n rows)[j]? = some (removeOutsideRow n a) := by
  obtain ⟨hj, -⟩ := List.getElem?_eq_some_iff.mp ha
  rw [reviseRows, List.getElem?_append_left (by simpa using hj), List.getElem?_map, ha]
  rfl

theorem reviseRows_new (ha : (reviseRows n rows)[j]? = some a) (hnone : rows[j]? = none) :
    ∃ i ∈ missingIndexes n rows, a = newRow none (i : Nat) := by
  rw [List.getElem?_eq_none_iff] at hnone
  rw [reviseRows, List.getElem?_append_right (by simpa using hnone), List.getElem?_map,
    Option.map_eq_some_iff] at ha
  obtain ⟨i, hi, rfl⟩ := ha
  exact ⟨i, List.mem_of_getElem? hi, rfl⟩

theorem mem_missingIndexes {i : Nat} :
    i ∈ missingIndexes n rows ↔ i < n ∧ ∀ a ∈ rows, a.deleted = false → a.mapIndex ≠ i := by
  rw [missingIndexes, List.mem_filter, List.mem_range, Bool.not_eq_true', List.any_eq_false]
  simp

theorem fillRows_old (ha : rows[j]? = some a) :
    (fillRows n state rows)[j]? = some (removeFromRow n a) := by
  obtain ⟨hj, -⟩ := List.getElem?_eq_some_iff.mp ha
  rw [fillRows, List.getElem?_map, List.getElem?_append_left hj, ha]
  rfl

theorem fillRows_new (ha : (fillRows n state rows)[j]? = some a) (hnone : rows[j]? = none) :
    ∃ i : Int, maxIndex rows < i ∧ i < n ∧ a = newRow state i := by
  rw [List.getElem?_eq_none_iff] at hnone
  rw [fillRows, List.getElem?_map, List.getElem?_append_right hnone, List.getElem?_map,
    Option.map_eq_some_iff] at ha
  obtain ⟨b, hb, rfl⟩ := ha
  obtain ⟨i, hi, rfl⟩ := Option.map_eq_some_iff.mp hb
  have hlt := List.mem_range.mp (List.mem_of_getElem? hi)
  refine ⟨maxIndex rows + 1 + i, by omega, by omega, if_neg ?_⟩
  rintro ⟨-, hge, -⟩
  dsimp only [newRow] at hge
  omega

theorem unmappedRows_getElem? (found : Option TIRef) (ha : rows[j]? = some a) :
    (unmappedRows n found rows)[j]? =
      some (if found.any (·.pos = j) then expandRow n rows a else a) := by
  cases found with
  | none => exact ha
  | some u =>
    rw [unmappedRows, List.getElem?_modify, ha]
    by_cases hu : u.pos = j <;> simp [hu]

theorem unmappedRows_none (found : Option TIRef) (ha : rows[j]? = none) :
    (unmappedRows n found rows)[j]? = none := by
  rw [List.getElem?_eq_none_iff] at ha ⊢
  rwa [length_unmappedRows]

theorem modify_setState_getElem? (i : Nat) (e : TIState) (ha : rows[j]? = some a) :
    (rows.modify i (.setState e))[j]? = some (if i = j then a.setState e else a) := by
  rw [List.getElem?_modify, ha]
  by_cases hi : i = j <;> simp [hi]

theorem modify_none (i : Nat) (f : TaskInstance → TaskInstance) (ha : rows[j]? = none) :
    (rows.modify i f)[j]? = none := by
  rw [List.getElem?_eq_none_iff] at ha ⊢
  rwa [List.length_modify]

end

/-- The unexpanded instance that is found: unfinished in the database. -/
theorem findUnmapped_spec {s : Session} {t : TaskId} {u : TIRef}
    (h : s.findUnmapped t = some u) :
    u.taskId = t ∧ ∃ ti, s.get u = some ti ∧ ti.deleted = false ∧ ti.mapIndex = -1 ∧
      State.isUnfinished ti.dbState = true := by
  obtain ⟨hid, ti, hti, hp⟩ := RowInv.findTi_spec h
  rw [decide_eq_true_eq, Bool.not_eq_true'] at hp
  exact ⟨hid, ti, hti, hp⟩

/-- What a visit to `r` may make of a row of its task at position `j`. -/
structure RowVisit (n : Nat) (r : TIRef) (e : TIState) (j : Nat) (a a' : TaskInstance) : Prop where
  locked : a'.locked = a.locked
  kept : 0 ≤ a.mapIndex → a'.mapIndex = a.mapIndex ∧ a'.deleted = a.deleted
  unmapped : a.mapIndex < 0 → a'.mapIndex < 0 ∨ a'.mapIndex = 0 ∧ a'.deleted = false ∧ 0 < n
  undeleted : a'.deleted = false → a.deleted = false
  state : a'.state = (if r.pos = j then e else a.state) ∨
    a'.state = some .removed ∧ ¬inRange a.mapIndex n ∨ a'.state = some .skipped ∧ a.mapIndex < 0

section
variable {n j : Nat} {p p' : ReadyPass} {d : DepState} {r : TIRef} {e : TIState}
  {a b : TaskInstance} {rows : List TaskInstance}

theorem RowVisit.evaluated (n : Nat) (r : TIRef) (e : TIState) (j : Nat) (a : TaskInstance) :
    RowVisit n r e j a (if r.pos = j then a.setState e else a) := by
  by_cases hj : r.pos = j
  · rw [if_pos hj]
    exact ⟨rfl, fun _ => ⟨rfl, rfl⟩, fun h => .inl h, id, .inl (by rw [if_pos hj]; rfl)⟩
  · rw [if_neg hj]
    exact ⟨rfl, fun _ => ⟨rfl, rfl⟩, fun h => .inl h, id, .inl (by rw [if_neg hj])⟩

/-- A row that is outside the mapping after the visit was so before. -/
theorem RowVisit.outside (h : RowVisit n r e j a b) (hb : ¬inRange b.mapIndex n) :
    ¬inRange a.mapIndex n := by
  rcases Int.lt_or_le a.mapIndex 0 with hneg | hge
  · simp only [inRange, decide_eq_true_eq]
    omega
  · rwa [← (h.kept hge).1]

theorem RowVisit.remove (h : RowVisit n r e j a b) (hb : ¬inRange b.mapIndex n) :
    RowVisit n r e j a (b.setState (some .removed)) :=
  ⟨h.locked, h.kept, h.unmapped, h.undeleted, .inr (.inl ⟨rfl, h.outside hb⟩)⟩

theorem RowVisit.removeOutside (h : RowVisit n r e j a b) :
    RowVisit n r e j a (removeOutsideRow n b) := by
  unfold removeOutsideRow
  split
  · next hout => exact h.remove hout.2
  · exact h

theorem RowVisit.removeFrom (h : RowVisit n r e j a b) :
    RowVisit n r e j a (removeFromRow n b) := by
  unfold removeFromRow
  split
  · next hout =>
    refine h.remove ?_
    have := hout.2.1
    simp only [inRange, decide_eq_true_eq]
    omega
  · exact h

theorem RowVisit.expandRow (h : RowVisit n r e j a b) (hneg : a.mapIndex < 0)
    (hsame : b.mapIndex = a.mapIndex) (hlive : b.deleted = false) :
    RowVisit n r e j a (expandRow n rows b) := by
  have hkept : 0 ≤ a.mapIndex → False := by omega
  unfold Airflow.expandRow
  split
  · exact ⟨h.locked, fun hge => (hkept hge).elim, h.unmapped, h.undeleted, .inr (.inr ⟨rfl, hneg⟩)⟩
  · next hn =>
    split
    · exact ⟨h.locked, fun hge => (hkept hge).elim, fun _ => .inl (hsame ▸ hneg),
        fun _ => h.undeleted hlive, h.state⟩
    · exact ⟨h.locked, fun hge => (hkept hge).elim, fun _ => .inr ⟨rfl, hlive, by omega⟩,
        h.undeleted, h.state⟩

/-- The row that an expansion finds. -/
theorem found_row (hw : Session.Written r p.session d.session)
    (hfound : (d.session.findUnmapped r.taskId).any (·.pos = j) = true)
    (ha : (p.session.view r.taskId)[j]? = some a) : a.deleted = false ∧ a.mapIndex = -1 := by
  obtain ⟨u, hu⟩ : ∃ u, d.session.findUnmapped r.taskId = some u := by
    cases h : d.session.findUnmapped r.taskId with
    | none => simp [h] at hfound
    | some u => exact ⟨u, rfl⟩
  have hpos : decide (u.pos = j) = true := by rwa [hu] at hfound
  obtain ⟨hid, ti, hti, hlive, hidx, -⟩ := findUnmapped_spec hu
  have hview := view_getElem? d.session u
  rw [hid, hti, of_decide_eq_true hpos, view_written hw, modify_setState_getElem? _ _ ha] at hview
  have heq := Option.some.inj hview
  have hdel := congrArg TaskInstance.deleted heq
  have hmap := congrArg TaskInstance.mapIndex heq
  constructor
  · rw [← hlive]
    refine Eq.trans ?_ hdel
    split <;> rfl
  · rw [← hidx]
    refine Eq.trans ?_ hmap
    split <;> rfl

/-- **What a visit may make of a row of the task visited.** -/
theorem MappedVisit.row (h : MappedVisit n p d r p') (hw : Session.Written r p.session d.session)
    (ha : (p.session.view r.taskId)[j]? = some a) :
    ∃ b, (p'.session.view r.taskId)[j]? = some b ∧
      RowVisit n r (d.session.state r) j a b := by
  have hset := modify_setState_getElem? r.pos (d.session.state r) ha
  have hrow := RowVisit.evaluated n r (d.session.state r) j a
  cases h with
  | quiet h view ready additional revised => exact ⟨_, by rw [view, hset], hrow⟩
  | append hmet hidx hsched hold view ready additional revised =>
    exact ⟨_, by rw [view, hset], hrow⟩
  | revise hmet hidx' hsched hnew view ready additional revised =>
    exact ⟨_, by rw [view, reviseRows_old hset], hrow.removeOutside⟩
  | expand hmet hneg state unmapped k view hunmapped hnodup ready additional revised =>
    refine ⟨_, by rw [view, fillRows_old (unmappedRows_getElem? _ hset)], ?_⟩
    split
    · next hfound =>
      obtain ⟨hlive, hidx⟩ := found_row hw hfound ha
      refine RowVisit.removeFrom (hrow.expandRow (by omega) ?_ ?_)
      · split <;> rfl
      · split <;> exact hlive
    · exact hrow.removeFrom

/-- **The rows that a visit adds are in the mapping.** -/
theorem MappedVisit.new_row (h : MappedVisit n p d r p')
    (hnone : (p.session.view r.taskId)[j]? = none)
    (hb : (p'.session.view r.taskId)[j]? = some b) :
    ∃ state, ∃ i : Int, b = newRow state i ∧ inRange i n := by
  have hset := modify_none r.pos (.setState (d.session.state r)) hnone
  cases h with
  | quiet h view ready additional revised =>
    rw [view, hset] at hb
    cases hb
  | append hmet hidx hsched hold view ready additional revised =>
    rw [view, hset] at hb
    cases hb
  | revise hmet hidx' hsched hnew view ready additional revised =>
    rw [view] at hb
    obtain ⟨i, hi, rfl⟩ := reviseRows_new hb hset
    refine ⟨none, i, rfl, ?_⟩
    have := (mem_missingIndexes.mp hi).1
    simp only [inRange, decide_eq_true_eq]
    omega
  | expand hmet hneg state unmapped k view hunmapped hnodup ready additional revised =>
    rw [view] at hb
    obtain ⟨i, hmax, hlt, rfl⟩ := fillRows_new hb (unmappedRows_none _ hset)
    refine ⟨state, i, rfl, ?_⟩
    have hge := maxIndex_ge (unmappedRows n (d.session.findUnmapped r.taskId)
      ((p.session.view r.taskId).modify r.pos (.setState (d.session.state r))))
    simp only [inRange, decide_eq_true_eq]
    omega

end

/-! ## The primary key -/

/-- The rows in the table have different map indexes. -/
def DistinctIndexes (rows : List TaskInstance) : Prop :=
  rows.Pairwise fun a b => a.deleted = false → b.deleted = false → a.mapIndex ≠ b.mapIndex

section
variable {n i j : Nat} {rows : List TaskInstance} {a b : TaskInstance}

theorem DistinctIndexes.eq_of_live (h : DistinctIndexes rows) (ha : rows[i]? = some a)
    (hb : rows[j]? = some b) (hla : a.deleted = false) (hlb : b.deleted = false)
    (hidx : a.mapIndex = b.mapIndex) : i = j := by
  obtain ⟨hi, rfl⟩ := List.getElem?_eq_some_iff.mp ha
  obtain ⟨hj, rfl⟩ := List.getElem?_eq_some_iff.mp hb
  rcases Nat.lt_trichotomy i j with hlt | heq | hgt
  · exact absurd hidx (List.pairwise_iff_getElem.mp h i j hi hj hlt hla hlb)
  · exact heq
  · exact absurd hidx.symm (List.pairwise_iff_getElem.mp h j i hj hi hgt hlb hla)

theorem DistinctIndexes.map {f : TaskInstance → TaskInstance} (h : DistinctIndexes rows)
    (hidx : ∀ a, (f a).mapIndex = a.mapIndex) (hdel : ∀ a, (f a).deleted = a.deleted) :
    DistinctIndexes (rows.map f) := by
  refine List.pairwise_map.mpr (h.imp fun {a b} hab hla hlb => ?_)
  rw [hidx, hidx]
  exact hab (by rwa [← hdel]) (by rwa [← hdel])

/-- Changing one row keeps the key if the row goes or gets an index of its own. -/
theorem DistinctIndexes.modify {f : TaskInstance → TaskInstance} (h : DistinctIndexes rows)
    (hf : ∀ a, rows[i]? = some a → (f a).deleted = false →
      a.deleted = false ∧ ((f a).mapIndex = a.mapIndex ∨
        ∀ b ∈ rows, b.deleted = false → b.mapIndex ≠ (f a).mapIndex)) :
    DistinctIndexes (rows.modify i f) := by
  have hget : ∀ {j b}, (rows.modify i f)[j]? = some b →
      ∃ a, rows[j]? = some a ∧ b = if i = j then f a else a := by
    intro j b hb
    rw [List.getElem?_modify] at hb
    obtain ⟨a, ha, rfl⟩ := Option.map_eq_some_iff.mp hb
    exact ⟨a, ha, by split <;> rfl⟩
  refine List.pairwise_iff_getElem.mpr fun j k hj hk hlt hlj hlk hidx => ?_
  obtain ⟨a, ha, haj⟩ := hget (List.getElem?_eq_getElem hj)
  obtain ⟨b, hb, hbk⟩ := hget (List.getElem?_eq_getElem hk)
  rw [haj] at hlj hidx
  rw [hbk] at hlk hidx
  have hne : ∀ hla : a.deleted = false, ∀ hlb : b.deleted = false, a.mapIndex ≠ b.mapIndex :=
    fun hla hlb heq => (Nat.ne_of_lt hlt) (h.eq_of_live ha hb hla hlb heq)
  by_cases hij : i = j
  · have hik : i ≠ k := by omega
    rw [if_pos hij] at hlj hidx
    rw [if_neg hik] at hlk hidx
    obtain ⟨hla, hsame | hother⟩ := hf a (hij ▸ ha) hlj
    · exact hne hla hlk (hsame.symm.trans hidx)
    · exact hother b (List.mem_of_getElem? hb) hlk hidx.symm
  · rw [if_neg hij] at hlj hidx
    by_cases hik : i = k
    · rw [if_pos hik] at hlk hidx
      obtain ⟨hlb, hsame | hother⟩ := hf b (hik ▸ hb) hlk
      · exact hne hlj hlb (hidx.trans hsame)
      · exact hother a (List.mem_of_getElem? ha) hlj hidx
    · rw [if_neg hik] at hlk hidx
      exact hne hlj hlk hidx

theorem DistinctIndexes.setState (h : DistinctIndexes rows) (i : Nat) (e : TIState) :
    DistinctIndexes (rows.modify i (.setState e)) :=
  h.modify fun _ _ hlive => ⟨hlive, .inl rfl⟩

theorem removeOutsideRow_fields (n : Nat) (a : TaskInstance) :
    (removeOutsideRow n a).mapIndex = a.mapIndex ∧
      (removeOutsideRow n a).deleted = a.deleted := by
  unfold removeOutsideRow
  split <;> exact ⟨rfl, rfl⟩

theorem removeFromRow_fields (n : Nat) (a : TaskInstance) :
    (removeFromRow n a).mapIndex = a.mapIndex ∧ (removeFromRow n a).deleted = a.deleted := by
  unfold removeFromRow
  split <;> exact ⟨rfl, rfl⟩

theorem DistinctIndexes.revise (h : DistinctIndexes rows) (n : Nat) :
    DistinctIndexes (reviseRows n rows) := by
  refine List.pairwise_append.mpr ⟨h.map (fun a => (removeOutsideRow_fields n a).1)
    fun a => (removeOutsideRow_fields n a).2, ?_, ?_⟩
  · refine List.pairwise_map.mpr ?_
    refine ((List.nodup_range.filter _).imp ?_)
    intro i j hne _ _ heq
    exact hne (Int.ofNat.inj heq)
  · intro b hb c hc hlb _
    obtain ⟨a, ha, rfl⟩ := List.mem_map.mp hb
    obtain ⟨i, hi, rfl⟩ := List.mem_map.mp hc
    rw [(removeOutsideRow_fields n a).1]
    exact (mem_missingIndexes.mp hi).2 a ha (by rwa [← (removeOutsideRow_fields n a).2])

theorem DistinctIndexes.fill (h : DistinctIndexes rows) (n : Nat) (state : TIState) :
    DistinctIndexes (fillRows n state rows) := by
  refine DistinctIndexes.map ?_ (fun a => (removeFromRow_fields n a).1)
    fun a => (removeFromRow_fields n a).2
  refine List.pairwise_append.mpr ⟨h, ?_, ?_⟩
  · refine List.pairwise_map.mpr (List.nodup_range.imp ?_)
    intro i j hne _ _ heq
    dsimp only [newRow] at heq
    omega
  · intro a ha b hb hla _
    obtain ⟨i, -, rfl⟩ := List.mem_map.mp hb
    have := le_maxIndex ha hla
    dsimp only [newRow]
    omega

/-- The unexpanded row goes, keeps its index or gets one that no row has. -/
theorem DistinctIndexes.unmapped (h : DistinctIndexes rows) (n : Nat) {found : Option TIRef}
    (hfound : ∀ u, found = some u → ∀ a, rows[u.pos]? = some a → a.deleted = false) :
    DistinctIndexes (unmappedRows n found rows) := by
  cases found with
  | none => exact h
  | some u =>
    refine h.modify fun a ha hlive => ⟨hfound u rfl a ha, ?_⟩
    unfold expandRow
    split
    · exact .inl rfl
    · split
      · exact .inl rfl
      · next hzero =>
        refine .inr fun b hb hlb hidx => hzero ?_
        exact List.any_eq_true.mpr ⟨b, hb, decide_eq_true ⟨by simp [hlb], hidx⟩⟩

/-- **A visit keeps the key.** -/
theorem MappedVisit.distinct {p p' : ReadyPass} {d : DepState} {r : TIRef}
    (h : MappedVisit n p d r p') (hw : Session.Written r p.session d.session)
    (hkey : DistinctIndexes (p.session.view r.taskId)) :
    DistinctIndexes (p'.session.view r.taskId) := by
  cases h with
  | quiet h view ready additional revised => exact view ▸ hkey.setState _ _
  | append hmet hidx hsched hold view ready additional revised => exact view ▸ hkey.setState _ _
  | revise hmet hidx hsched hnew view ready additional revised =>
    exact view ▸ (hkey.setState _ _).revise n
  | expand hmet hneg state unmapped k view hunmapped hnodup ready additional revised =>
    rw [view]
    refine ((hkey.setState _ _).unmapped n fun u hu a ha => ?_).fill n state
    obtain ⟨hid, ti, hti, hlive, -⟩ := findUnmapped_spec hu
    rw [← view_written hw, ← hid, view_getElem?, hti] at ha
    cases ha
    exact hlive

end

end Airflow
