import Airflow.DagRun.Decision

/-!
# Sessions: objects, stored attributes and map lengths

* `Session.get_assign`, `get_assignAll`, `get_add`, `get_flush`: the objects after each update;
* `SameStored`, `SameFixed`: two sessions agree on the objects of a task but for their states in
  memory, or for all their states;
* `Operator.getMappedTiCount_congr`: the length of a mapped task depends on the stored attributes
  of the mapped tasks it maps over (`mappedReferences`) and on nothing else;
* `mem_refs`: the objects loaded from a table.
-/

namespace Airflow

/-! ## Objects after an update -/

namespace Session

variable {s s' : Session} {r r' : TIRef}

theorem get_assign (s : Session) (r r' : TIRef) (f : TaskInstance → TaskInstance) :
    (s.assign r f).get r' = if r' = r then (s.get r).map f else s.get r' := by
  obtain ⟨t, i⟩ := r
  obtain ⟨t', i'⟩ := r'
  simp only [get, assign]
  by_cases ht : t' = t
  · subst ht
    simp only [Function.update_self, List.getElem?_modify, TIRef.mk.injEq, true_and]
    by_cases hi : i = i'
    · subst hi; simp
    · simp only [if_neg hi, if_neg (Ne.symm hi)]
      cases (s.tis t')[i']? <;> rfl
  · rw [Function.update_of_ne ht, if_neg fun h => ht (congrArg TIRef.taskId h)]

theorem get_assign_self (s : Session) (r : TIRef) (f : TaskInstance → TaskInstance) :
    (s.assign r f).get r = (s.get r).map f := by rw [get_assign, if_pos rfl]

theorem get_assign_of_ne (f : TaskInstance → TaskInstance) (h : r' ≠ r) :
    (s.assign r f).get r' = s.get r' := by rw [get_assign, if_neg h]

theorem get_assignAll (s : Session) (t : TaskId) (r : TIRef) (f : TaskInstance → TaskInstance) :
    (s.assignAll t f).get r = if r.taskId = t then (s.get r).map f else s.get r := by
  simp only [get, assignAll]
  split
  · next h => rw [← h, Function.update_self, List.getElem?_map]
  · next h => rw [Function.update_of_ne h]

theorem get_flush (s : Session) (r : TIRef) :
    s.flush.get r = (s.get r).map fun ti => { ti with dbState := ti.state } := by
  simp only [get, flush, List.getElem?_map]

theorem get_add (s : Session) (t : TaskId) (ti : TaskInstance) (r : TIRef) :
    (s.add t ti).get r = if r = ⟨t, (s.tis t).length⟩ then some ti else s.get r := by
  obtain ⟨t', i⟩ := r
  simp only [get, add, TIRef.mk.injEq]
  by_cases ht : t' = t
  · subst ht
    simp only [Function.update_self, true_and]
    split
    · next h => subst h; simp
    · next h =>
      rcases Nat.lt_or_ge i (s.tis t').length with hi | hi
      · rw [List.getElem?_append_left hi]
      · rw [List.getElem?_append_right hi, List.getElem?_eq_none hi, List.getElem?_eq_none]
        simp only [List.length_singleton]
        omega
  · rw [Function.update_of_ne ht, if_neg fun h => ht h.1]

theorem get_new (s : Session) (t : TaskId) : s.get ⟨t, (s.tis t).length⟩ = none := by
  simp only [get, Nat.le_refl, List.getElem?_eq_none]

theorem get_add_of_some {t : TaskId} {ti ti' : TaskInstance} (h : s.get r = some ti) :
    (s.add t ti').get r = some ti := by
  rw [get_add, if_neg, h]
  rintro rfl
  rw [get_new] at h
  cases h

/-- The state an object has after `assign` to it. -/
theorem setState_setState (s : Session) (r : TIRef) (a b : TIState) :
    (s.setState r a).setState r b = s.setState r b := by
  simp only [setState, assign, Function.update_self, Function.update_idem, List.modify_modify_eq,
    mk.injEq]
  rfl

theorem state_eq {ti : TaskInstance} (h : s.get r = some ti) : s.state r = ti.state := by
  simp [state, h]

theorem mapIndex_eq {ti : TaskInstance} (h : s.get r = some ti) : s.mapIndex r = ti.mapIndex := by
  simp [mapIndex, h]

end Session

/-! ## Stored attributes -/

/-- The object but for its state in memory. -/
def TaskInstance.stored (ti : TaskInstance) : TaskInstance := { ti with state := none }

/-- The object but for its states in memory and in the database. -/
def TaskInstance.fixed (ti : TaskInstance) : TaskInstance :=
  { ti with state := none, dbState := none }

/-- The sessions agree on what `view` shows of the objects of `t`. -/
def SameUnder (view : TaskInstance → TaskInstance) (s s' : Session) (t : TaskId) : Prop :=
  (s.tis t).map view = (s'.tis t).map view

/-- The sessions agree on the objects of `t` but for their states in memory. -/
abbrev SameStored : Session → Session → TaskId → Prop := SameUnder TaskInstance.stored

/-- The sessions agree on the objects of `t` but for their states. -/
abbrev SameFixed : Session → Session → TaskId → Prop := SameUnder TaskInstance.fixed

/-- What can be read of an object through a view is the same where the view is. -/
theorem map_congr_view {α : Type} {view : TaskInstance → TaskInstance} {f : TaskInstance → α}
    {o o' : Option TaskInstance} (h : o.map view = o'.map view) (hf : ∀ ti, f (view ti) = f ti) :
    o.map f = o'.map f := by
  have hcomp : f = f ∘ view := funext fun ti => (hf ti).symm
  rw [hcomp, ← Option.map_map, ← Option.map_map, h]

/-- The sessions agree on the object but for its states. -/
def SameObject (s s' : Session) (r : TIRef) : Prop :=
  (s.get r).map TaskInstance.fixed = (s'.get r).map TaskInstance.fixed

theorem SameObject.map_get {α : Type} {f : TaskInstance → α} {s s' : Session} {r : TIRef}
    (h : SameObject s s' r) (hf : ∀ ti, f ti.fixed = f ti) : (s.get r).map f = (s'.get r).map f :=
  map_congr_view h hf

theorem SameObject.mapIndex {s s' : Session} {r : TIRef} (h : SameObject s s' r) :
    s.mapIndex r = s'.mapIndex r := by
  simp only [Session.mapIndex]
  rw [h.map_get fun _ => rfl]

theorem SameObject.isSome {s s' : Session} {r : TIRef} (h : SameObject s s' r) :
    (s.get r).isSome = (s'.get r).isSome := by
  rw [← Option.isSome_map, h.map_get (f := fun _ => ()) fun _ => rfl, Option.isSome_map]

namespace SameUnder

variable {view : TaskInstance → TaskInstance} {s s' s'' : Session} {t : TaskId}

theorem refl (s : Session) (t : TaskId) : SameUnder view s s t := rfl

theorem symm (h : SameUnder view s s' t) : SameUnder view s' s t := Eq.symm h

theorem trans (h : SameUnder view s s' t) (h' : SameUnder view s' s'' t) :
    SameUnder view s s'' t := Eq.trans h h'

theorem get (h : SameUnder view s s' t) {r : TIRef} (hr : r.taskId = t) :
    (s.get r).map view = (s'.get r).map view := by
  subst hr
  simp only [Session.get, ← List.getElem?_map]
  rw [h]

/-- What can be read of an object through the view is the same in both. -/
theorem map_get {α : Type} {f : TaskInstance → α} (h : SameUnder view s s' t) {r : TIRef}
    (hr : r.taskId = t) (hf : ∀ ti, f (view ti) = f ti) :
    (s.get r).map f = (s'.get r).map f := map_congr_view (h.get hr) hf

theorem mapIndex (h : SameUnder view s s' t) {r : TIRef} (hr : r.taskId = t)
    (hf : ∀ ti, (view ti).mapIndex = ti.mapIndex) : s.mapIndex r = s'.mapIndex r := by
  simp only [Session.mapIndex]
  rw [h.map_get hr hf]

/-- What can be read of the rows of a task through the view is the same in both. -/
theorem map_rowsOf {α : Type} {f : TaskInstance → α} (h : SameUnder view s s' t)
    (hdeleted : ∀ ti, (view ti).deleted = ti.deleted) (hf : ∀ ti, f (view ti) = f ti) :
    (s.rowsOf t).map f = (s'.rowsOf t).map f := by
  have hrows : ∀ s : Session, (s.rowsOf t).map f =
      (((s.tis t).map view).filter fun ti => !ti.deleted).map f := by
    intro s
    rw [Session.rowsOf, List.filter_map, List.map_map]
    have hcomp : (fun ti => !ti.deleted) ∘ view = fun ti : TaskInstance => !ti.deleted :=
      funext fun ti => by rw [Function.comp_apply, hdeleted]
    have hcomp' : f ∘ view = f := funext hf
    rw [hcomp, hcomp']
  rw [hrows, hrows, h]

/-- What is counted through the view over the rows of a task is the same in both. -/
theorem countP_rowsOf {p : TaskInstance → Bool} (h : SameUnder view s s' t)
    (hdeleted : ∀ ti, (view ti).deleted = ti.deleted) (hp : ∀ ti, p (view ti) = p ti) :
    (s.rowsOf t).countP p = (s'.rowsOf t).countP p := by
  have hcount : ∀ s : Session, (s.rowsOf t).countP p = ((s.rowsOf t).map p).countP id :=
    fun s => by rw [List.countP_map]; rfl
  rw [hcount, hcount, h.map_rowsOf hdeleted hp]

end SameUnder

namespace SameStored

variable {s s' : Session} {t : TaskId}

theorem setState (s : Session) (r : TIRef) (state : TIState) (t : TaskId) :
    SameStored s (s.setState r state) t := by
  simp only [SameStored, SameUnder, Session.setState, Session.assign]
  by_cases ht : t = r.taskId
  · subst ht
    rw [Function.update_self]
    apply List.ext_getElem?
    intro i
    simp only [List.getElem?_map, List.getElem?_modify]
    cases (s.tis r.taskId)[i]? with
    | none => rfl
    | some ti => simp only [Option.map_some]; split <;> rfl
  · rw [Function.update_of_ne ht]

theorem fixed (h : SameStored s s' t) : SameFixed s s' t := by
  have hmap := congrArg (List.map TaskInstance.fixed) h
  rwa [List.map_map, List.map_map] at hmap

theorem unfinishedTiExists (h : SameStored s s' t) :
    s.unfinishedTiExists t = s'.unfinishedTiExists t := by
  have hmap := h.map_rowsOf (f := fun ti => State.isUnfinished ti.dbState) (fun _ => rfl)
    fun _ => rfl
  have hany : ∀ s : Session, s.unfinishedTiExists t =
      ((s.rowsOf t).map fun ti => State.isUnfinished ti.dbState).any id :=
    fun s => by rw [List.any_map]; rfl
  rw [hany, hany, hmap]

end SameStored

/-! ## Map lengths -/

mutual

/-- The mapped tasks whose instances the length of the argument reads. -/
def XComArg.mappedReferences : XComArg → List TaskId
  | .plain operator isMapped => if isMapped then [operator] else []
  | .map arg => arg.mappedReferences
  | .zip args _ => XComArg.allMappedReferences args

/-- `mappedReferences` of the arguments of `zip()`. -/
def XComArg.allMappedReferences : List XComArg → List TaskId
  | [] => []
  | arg :: args => arg.mappedReferences ++ XComArg.allMappedReferences args

end

def ExpandArgument.mappedReferences : ExpandArgument → List TaskId
  | .literal _ => []
  | .xcomArg arg => arg.mappedReferences

def ExpandInput.mappedReferences : ExpandInput → List TaskId
  | .dictOfLists value => value.flatMap ExpandArgument.mappedReferences
  | .listOfDicts value => value.mappedReferences

/-- The mapped tasks that the task's own expansion and its mapped task groups map over. -/
def Operator.mappedReferences (task : Operator) : List TaskId :=
  (task.expandInput.map ExpandInput.mappedReferences).getD [] ++
    task.mappedTaskGroups.flatMap (·.expandInput.mappedReferences)

section
variable {run : RunData} {s s' : Session}

mutual

theorem XComArg.getTaskMapLength_congr : (arg : XComArg) →
    (∀ t ∈ arg.mappedReferences, s.unfinishedTiExists t = s'.unfinishedTiExists t) →
    arg.getTaskMapLength run s = arg.getTaskMapLength run s'
  | .plain operator isMapped, h => by
    cases isMapped with
    | false => simp [XComArg.getTaskMapLength]
    | true => simp [XComArg.getTaskMapLength, h operator (by simp [XComArg.mappedReferences])]
  | .map arg, h => by
    rw [XComArg.getTaskMapLength, XComArg.getTaskMapLength]
    exact XComArg.getTaskMapLength_congr arg (by simpa [XComArg.mappedReferences] using h)
  | .zip args fillvalue, h => by
    rw [XComArg.getTaskMapLength, XComArg.getTaskMapLength,
      XComArg.getTaskMapLengths_congr args (by simpa [XComArg.mappedReferences] using h)]

theorem XComArg.getTaskMapLengths_congr : (args : List XComArg) →
    (∀ t ∈ XComArg.allMappedReferences args, s.unfinishedTiExists t = s'.unfinishedTiExists t) →
    XComArg.getTaskMapLengths run s args = XComArg.getTaskMapLengths run s' args
  | [], _ => rfl
  | arg :: args, h => by
    rw [XComArg.getTaskMapLengths, XComArg.getTaskMapLengths,
      XComArg.getTaskMapLength_congr arg fun t ht => h t (by simp [XComArg.allMappedReferences, ht]),
      XComArg.getTaskMapLengths_congr args
        fun t ht => h t (by simp [XComArg.allMappedReferences, ht])]

end

theorem ExpandArgument.getLength_congr {v : ExpandArgument}
    (h : ∀ t ∈ v.mappedReferences, s.unfinishedTiExists t = s'.unfinishedTiExists t) :
    v.getLength run s = v.getLength run s' := by
  cases v with
  | literal length => rfl
  | xcomArg arg => exact XComArg.getTaskMapLength_congr arg h

theorem ExpandInput.getTotalMapLength_congr {e : ExpandInput}
    (h : ∀ t ∈ e.mappedReferences, s.unfinishedTiExists t = s'.unfinishedTiExists t) :
    e.getTotalMapLength run s = e.getTotalMapLength run s' := by
  match e with
  | .dictOfLists [] => rfl
  | .dictOfLists (v :: vs) =>
    simp only [ExpandInput.getTotalMapLength]
    congr 1
    refine List.map_congr_left fun v hv => ?_
    rw [ExpandArgument.getLength_congr fun t ht => h t (List.mem_flatMap_of_mem hv ht)]
  | .listOfDicts value =>
    simp only [ExpandInput.getTotalMapLength]
    rw [ExpandArgument.getLength_congr h]

theorem groupsMappedTiCount_congr {groups : List MappedTaskGroup}
    (h : ∀ t ∈ groups.flatMap (·.expandInput.mappedReferences),
      s.unfinishedTiExists t = s'.unfinishedTiExists t) :
    groupsMappedTiCount run s groups = groupsMappedTiCount run s' groups := by
  unfold groupsMappedTiCount
  split
  · rfl
  · congr 1
    refine List.map_congr_left fun g hg => ?_
    exact ExpandInput.getTotalMapLength_congr fun t ht => h t (List.mem_flatMap_of_mem hg ht)

/-- **The length of a mapped task depends on the instances of the mapped tasks it maps over.** -/
theorem Operator.getMappedTiCount_congr {task : Operator}
    (h : ∀ t ∈ task.mappedReferences, s.unfinishedTiExists t = s'.unfinishedTiExists t) :
    task.getMappedTiCount run s = task.getMappedTiCount run s' := by
  have hgroups : groupsMappedTiCount run s task.mappedTaskGroups =
      groupsMappedTiCount run s' task.mappedTaskGroups :=
    groupsMappedTiCount_congr fun t ht => h t (List.mem_append_right _ ht)
  unfold Operator.getMappedTiCount
  cases hexp : task.expandInput with
  | none => exact hgroups
  | some e =>
    have he : e.getTotalMapLength run s = e.getTotalMapLength run s' :=
      ExpandInput.getTotalMapLength_congr fun t ht =>
        h t (List.mem_append_left _ (by simpa [hexp] using ht))
    dsimp only
    rw [he, hgroups]

end

/-! ## Loaded objects -/

theorem mem_refsFrom {rows : List TaskInstanceRow} {seen : TaskId → Nat} {r : TIRef} :
    r ∈ refsFrom seen rows ↔ seen r.taskId ≤ r.pos ∧
      r.pos < seen r.taskId + rows.countP (·.taskId = r.taskId) := by
  induction rows generalizing seen with
  | nil => simp only [refsFrom, List.not_mem_nil, List.countP_nil, false_iff]; omega
  | cons row rows ih =>
    simp only [refsFrom, List.mem_cons, ih, List.countP_cons, decide_eq_true_eq]
    obtain ⟨t, i⟩ := r
    dsimp only
    by_cases ht : row.taskId = t
    · subst ht
      simp only [Function.update_self, TIRef.mk.injEq, true_and, if_true]
      omega
    · simp only [Function.update_of_ne (Ne.symm ht), TIRef.mk.injEq, Ne.symm ht, false_and,
        false_or, if_neg ht, Nat.add_zero]

theorem nodup_refsFrom {rows : List TaskInstanceRow} {seen : TaskId → Nat} :
    (refsFrom seen rows).Nodup := by
  induction rows generalizing seen with
  | nil => exact List.nodup_nil
  | cons row rows ih =>
    refine List.nodup_cons.mpr ⟨fun hmem => ?_, ih⟩
    have := (mem_refsFrom.mp hmem).1
    simp only [Function.update_self] at this
    omega

theorem nodup_refs (table : TaskInstanceTable) : table.refs.Nodup := nodup_refsFrom

/-- The query returns exactly the objects of the session. -/
theorem mem_refs {table : TaskInstanceTable} {r : TIRef} :
    r ∈ table.refs ↔ (Session.load table).get r ≠ none := by
  rw [TaskInstanceTable.refs, mem_refsFrom, ne_eq, Session.get, List.getElem?_eq_none_iff]
  simp only [Session.load, List.length_map, ← List.countP_eq_length_filter]
  omega

/-- An object of a loaded session stands for a row of the table. -/
theorem load_get {table : TaskInstanceTable} {r : TIRef} {ti : TaskInstance}
    (h : (Session.load table).get r = some ti) :
    ∃ row ∈ table.rows, row.taskId = r.taskId ∧ row.load = ti := by
  simp only [Session.get, Session.load, List.getElem?_map, Option.map_eq_some_iff] at h
  obtain ⟨row, hrow, rfl⟩ := h
  obtain ⟨hmem, htask⟩ := List.mem_filter.mp (List.mem_of_getElem? hrow)
  exact ⟨row, hmem, by simpa using htask, rfl⟩

end Airflow
