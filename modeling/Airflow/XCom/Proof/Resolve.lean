import Airflow.XCom.Resolve

/-!
# The length of a reference and the elements of its value

The scheduler counts what a mapped argument expands to (`getTaskMapLength`), the worker resolves
the argument and asks for one element. `sized_iff` says when both agree with what `map`, `zip` and
`zip_longest` make of the values that were pushed: unless a referenced task is in a mapped task
group, or a dict is asked for the element at a position.
-/

namespace Airflow.XCom

/-! ## What was pushed -/

/-- The task instances of an operator by their map index, with what each pushed. -/
def instances (pushes : TaskId → List Value) (operator : Operator) : List (Int × Value) :=
  if operator.needsExpansion then (pushes operator.taskId).mapIdx fun i value => ((i : Int), value)
  else (pushes operator.taskId).map fun value => (-1, value)

/-- The instances of a referenced task succeeded, and the tables have what they pushed. A
`MappedOperator` is not built in a mapped task group. -/
structure Pushed (tables : Tables) (s : Session) (maxMapLength : Nat)
    (pushes : TaskId → List Value) (operator : Operator) : Prop where
  outside : operator.isMapped = true → operator.mappedTaskGroups = []
  succeeded : ∀ row ∈ s.rowsOf operator.taskId, row.dbState = some .success
  nonempty : pushes operator.taskId ≠ []
  single : operator.needsExpansion = false → (pushes operator.taskId).length = 1
  recorded : ∀ ti ∈ instances pushes operator,
    ∃ row, recordTaskMapForDownstreams maxMapLength operator ti.1 ti.2 = .ok row
  xcoms : ((tables.xcoms.filter fun row =>
      row.taskId = operator.taskId ∧ row.key = XCOM_RETURN_KEY).map fun row =>
        (row.mapIndex, row.value)).Perm (instances pushes operator)
  taskMaps : (tables.taskMaps.filter (·.taskId = operator.taskId)).Perm
    ((instances pushes operator).filterMap fun ti =>
      (recordTaskMapForDownstreams maxMapLength operator ti.1 ti.2).toOption.join)

/-- What a reference to the operator is to: all values of an expanded one. -/
def contents (pushes : TaskId → List Value) (operator : Operator) : Value :=
  if operator.needsExpansion then .list (pushes operator.taskId)
  else (pushes operator.taskId).headD .none

section
variable {tables : Tables} {s : Session} {maxMapLength : Nat} {pushes : TaskId → List Value}
  {operator : Operator} {context : Context}

theorem record_ok {mapIndex : Int} {value : Value} {row : Option TaskMapRow}
    (hmapped : operator.isMapped = false)
    (h : recordTaskMapForDownstreams maxMapLength operator mapIndex value = .ok row) :
    value.isMappable = true ∧ row = some ⟨operator.taskId, mapIndex, value.len⟩ := by
  rw [recordTaskMapForDownstreams, if_neg (by simp [hmapped])] at h
  split at h
  · cases h
  · split at h
    · cases h
    · rename_i hmappable
      split at h
      · cases h
      · exact ⟨by simpa using hmappable, (Except.ok.inj h).symm⟩

/-! ### An unexpanded operator -/

theorem Pushed.value (h : Pushed tables s maxMapLength pushes operator)
    (hexpansion : operator.needsExpansion = false) :
    ∃ value, pushes operator.taskId = [value] ∧ value.isMappable = true ∧
      recordTaskMapForDownstreams maxMapLength operator (-1) value =
        .ok (some ⟨operator.taskId, -1, value.len⟩) := by
  obtain ⟨value, hvalue⟩ := List.length_eq_one_iff.mp (h.single hexpansion)
  have hinstances : instances pushes operator = [(-1, value)] := by
    rw [instances, if_neg (by simp [hexpansion]), hvalue]
    rfl
  have hmapped : operator.isMapped = false := by
    simp [Operator.needsExpansion] at hexpansion
    exact hexpansion.1
  obtain ⟨row, hrow⟩ := h.recorded (-1, value) (hinstances ▸ List.mem_singleton_self _)
  obtain ⟨hmappable, heq⟩ := record_ok hmapped hrow
  exact ⟨value, hvalue, hmappable, heq ▸ hrow⟩

/-! ### The order of the map indexes -/

theorem pairwise_byMapIndex (query : List XComRow) :
    (query.insertionSort (·.mapIndex ≤ ·.mapIndex)).Pairwise (·.mapIndex ≤ ·.mapIndex) := by
  have : Std.Total fun a b : XComRow => a.mapIndex ≤ b.mapIndex :=
    ⟨fun a b => Int.le_total a.mapIndex b.mapIndex⟩
  have : IsTrans XComRow fun a b => a.mapIndex ≤ b.mapIndex :=
    ⟨fun _ _ _ h h' => Int.le_trans h h'⟩
  exact List.pairwise_insertionSort _ query

theorem pairwise_mapIdx (values : List Value) :
    (values.mapIdx fun i value => ((i : Int), value)).Pairwise (·.1 < ·.1) := by
  rw [List.pairwise_iff_getElem]
  intro i j hi hj hij
  simp only [List.getElem_mapIdx]
  exact Int.ofNat_lt.mpr hij

theorem eq_of_mapIndex {values : List Value} {a b : Int × Value}
    (ha : a ∈ values.mapIdx fun i value => ((i : Int), value))
    (hb : b ∈ values.mapIdx fun i value => ((i : Int), value)) (h : a.1 = b.1) : a = b := by
  obtain ⟨i, hi, rfl⟩ := List.mem_mapIdx.mp ha
  obtain ⟨j, hj, rfl⟩ := List.mem_mapIdx.mp hb
  have hij : i = j := Int.ofNat.inj h
  subst hij
  rfl

theorem map_snd_mapIdx (values : List Value) :
    (values.mapIdx fun i value => ((i : Int), value)).map Prod.snd = values := by
  refine List.ext_getElem? fun i => ?_
  rw [List.getElem?_map, List.getElem?_mapIdx, Option.map_map]
  exact Option.map_id_apply

/-- The values in the order of the map indexes are the values that the instances pushed. -/
theorem lazy_values {query : List XComRow} {values : List Value}
    (h : (query.map fun row => (row.mapIndex, row.value)).Perm
      (values.mapIdx fun i value => ((i : Int), value))) :
    (query.insertionSort (·.mapIndex ≤ ·.mapIndex)).map (·.value) = values := by
  have hperm : ((query.insertionSort (·.mapIndex ≤ ·.mapIndex)).map fun row =>
      (row.mapIndex, row.value)).Perm (values.mapIdx fun i value => ((i : Int), value)) :=
    ((List.perm_insertionSort _ query).map _).trans h
  have hsorted : ((query.insertionSort (·.mapIndex ≤ ·.mapIndex)).map fun row =>
      (row.mapIndex, row.value)).Pairwise (·.1 ≤ ·.1) :=
    List.pairwise_map.mpr (pairwise_byMapIndex query)
  have heq : (query.insertionSort (·.mapIndex ≤ ·.mapIndex)).map (fun row =>
      (row.mapIndex, row.value)) = values.mapIdx fun i value => ((i : Int), value) := by
    refine List.Perm.eq_of_pairwise (fun a b ha hb hab hba => ?_) hsorted
      ((pairwise_mapIdx values).imp Int.le_of_lt) hperm
    exact eq_of_mapIndex (hperm.subset ha) hb (Int.le_antisymm hab hba)
  have hvalues := congrArg (List.map Prod.snd) heq
  rwa [List.map_map, map_snd_mapIdx] at hvalues

/-! ### What a reference resolves to -/

theorem getMany_return :
    tables.getMany operator.taskId XCOM_RETURN_KEY none = tables.xcoms.filter fun row =>
      row.taskId = operator.taskId ∧ row.key = XCOM_RETURN_KEY := by
  rw [Tables.getMany]
  refine List.filter_congr fun row _ => ?_
  have hkey : XCOM_RETURN_KEY ≠ "" := by decide
  simp [hkey]

/-- A resolved reference with the length and the elements of a value. -/
structure Resolved.Is {F : Type} (r : Resolved F) (value : Value) : Prop where
  isSequenceOrDict : r.isSequenceOrDict = true
  len : r.len = value.len
  getItem : ∀ call i, r.getItem call i = value.getItem i

theorem relevant_all {ti : TIRef} {task : Operator} {n : Nat}
    (hgroups : operator.mappedTaskGroups = []) :
    getRelevantUpstreamMapIndexes tables.runData s ti task operator n = none := by
  rw [getRelevantUpstreamMapIndexes, findCommonAncestorMappedGroup, hgroups, List.dropWhile_nil]
  split <;> rfl

theorem isMappable_isSequenceOrDict {value : Value} (h : value.isMappable = true) :
    value.isSequenceOrDict = true := by
  cases value <;> first | rfl | cases h

theorem xcomPull_value {taskId : TaskId} {key : String} {row : XComRow} {rest : List XComRow}
    (hquery : tables.getMany taskId key none = row :: rest) (hindex : row.mapIndex < 0) :
    tables.xcomPull taskId key none = .value row.value := by
  simp [Tables.xcomPull, hquery, hindex]

theorem xcomPull_lazy {taskId : TaskId} {key : String} {row : XComRow} {rest : List XComRow}
    (hquery : tables.getMany taskId key none = row :: rest) (hindex : 0 ≤ row.mapIndex) :
    tables.xcomPull taskId key none = lazyByMapIndex (row :: rest) := by
  simp [Tables.xcomPull, hquery, hindex]

/-- **A reference to a task outside the mapped task groups resolves to what was pushed.** -/
theorem Pushed.resolvePlain {F : Type} (h : Pushed tables s maxMapLength pushes operator)
    (hgroups : operator.mappedTaskGroups = []) :
    ∃ r : Resolved F, resolvePlain tables s context operator XCOM_RETURN_KEY = .ok r ∧
      r.Is (contents pushes operator) := by
  have hxcoms := h.xcoms
  rw [← getMany_return] at hxcoms
  rw [XCom.resolvePlain, relevant_all hgroups]
  cases hexpansion : operator.needsExpansion with
  | false =>
    obtain ⟨value, hvalue, hmappable, -⟩ := h.value hexpansion
    rw [instances, if_neg (by simp [hexpansion]), hvalue, List.map_singleton,
      List.perm_singleton] at hxcoms
    obtain ⟨row, hrow, hpair⟩ := List.map_eq_singleton_iff.mp hxcoms
    obtain ⟨hindex, rfl⟩ := Prod.mk.inj hpair
    rw [xcomPull_value hrow (by omega)]
    refine ⟨.value row.value, rfl, ?_⟩
    rw [contents, if_neg (by simp [hexpansion]), hvalue, List.headD_cons]
    exact ⟨isMappable_isSequenceOrDict hmappable, rfl, fun _ _ => rfl⟩
  | true =>
    rw [instances, if_pos hexpansion] at hxcoms
    have hvalues := lazy_values hxcoms
    cases hquery : tables.getMany operator.taskId XCOM_RETURN_KEY none with
    | nil =>
      rw [hquery] at hxcoms
      have hnil := List.nil_perm.mp hxcoms
      exact absurd (List.mapIdx_eq_nil_iff.mp hnil) h.nonempty
    | cons row rest =>
      have hmem : (row.mapIndex, row.value) ∈
          (pushes operator.taskId).mapIdx fun i value => ((i : Int), value) := by
        refine hxcoms.subset (List.mem_map.mpr ⟨row, ?_, rfl⟩)
        rw [hquery]
        exact List.mem_cons_self
      obtain ⟨i, _, hi⟩ := List.mem_mapIdx.mp hmem
      have hindex : (i : Int) = row.mapIndex := (Prod.mk.inj hi).1
      rw [hquery] at hvalues
      rw [xcomPull_lazy hquery (by omega), lazyByMapIndex, hvalues, contents, if_pos hexpansion]
      exact ⟨.lazyXComAccess (pushes operator.taskId), rfl, rfl, rfl, fun _ _ => rfl⟩

/-! ### What the scheduler counts -/

/-- **The scheduler counts a reference to a task outside the mapped task groups as long as what was
pushed.** -/
theorem Pushed.getTaskMapLength_plain {F : Type}
    (h : Pushed tables s maxMapLength pushes operator) (hgroups : operator.mappedTaskGroups = []) :
    (XComArg.plain operator XCOM_RETURN_KEY : XComArg F).getTaskMapLength tables s =
      some (contents pushes operator).len := by
  rw [XComArg.getTaskMapLength, XComArg.toArg, Airflow.XComArg.getTaskMapLength]
  cases hmapped : operator.isMapped with
  | true =>
    have hexpansion : operator.needsExpansion = true := by simp [Operator.needsExpansion, hmapped]
    have hfinished : s.unfinishedTiExists operator.taskId = false := by
      rw [Session.unfinishedTiExists, List.any_eq_false]
      intro row hrow
      rw [h.succeeded row hrow]
      decide
    have hxcoms := h.xcoms
    rw [instances, if_pos hexpansion] at hxcoms
    have hcount : tables.runData.xcomCount operator.taskId = (pushes operator.taskId).length := by
      have hall : ((pushes operator.taskId).mapIdx fun i value => ((i : Int), value)).countP
          (0 ≤ ·.1) = (pushes operator.taskId).length := by
        rw [List.countP_eq_length.mpr, List.length_mapIdx]
        intro ti hti
        obtain ⟨i, _, rfl⟩ := List.mem_mapIdx.mp hti
        exact decide_eq_true (Int.natCast_nonneg i)
      rw [← hall, ← hxcoms.countP_eq, List.countP_map, List.countP_filter]
      refine List.countP_congr fun row _ => ?_
      simp [and_comm, and_assoc]
    rw [hfinished, hcount, if_pos rfl, if_neg (by simp), contents, if_pos hexpansion]
    rfl
  | false =>
    have hexpansion : operator.needsExpansion = false := by
      simp [Operator.needsExpansion, hmapped, hgroups]
    obtain ⟨value, hvalue, -, hrecord⟩ := h.value hexpansion
    have htaskMaps := h.taskMaps
    rw [instances, if_neg (by simp [hexpansion]), hvalue, List.map_singleton] at htaskMaps
    simp only [List.filterMap_cons, hrecord, Except.toOption, Option.join_some, List.filterMap_nil]
      at htaskMaps
    have hfilter := List.perm_singleton.mp htaskMaps
    have hfind : tables.taskMaps.find? (fun row => row.taskId = operator.taskId ∧
        row.mapIndex < 0) = some ⟨operator.taskId, -1, value.len⟩ := by
      have hfind := @List.find?_filter _ tables.taskMaps (·.taskId = operator.taskId)
        (·.mapIndex < 0)
      rw [hfilter] at hfind
      simpa using hfind.symm
    rw [if_neg (by simp), Tables.runData]
    dsimp only
    rw [hfind, contents, if_neg (by simp [hexpansion]), hvalue]
    rfl

/-- A task in a mapped task group leaves no `TaskMap` row that is read. -/
theorem Pushed.getTaskMapLength_grouped {F : Type}
    (h : Pushed tables s maxMapLength pushes operator) (hgroups : operator.mappedTaskGroups ≠ []) :
    (XComArg.plain operator XCOM_RETURN_KEY : XComArg F).getTaskMapLength tables s = none := by
  have hmapped : operator.isMapped = false := by
    rw [← Bool.not_eq_true]
    exact fun hmapped => hgroups (h.outside hmapped)
  have hexpansion : operator.needsExpansion = true := by
    simp [Operator.needsExpansion, hgroups]
  rw [XComArg.getTaskMapLength, XComArg.toArg, Airflow.XComArg.getTaskMapLength, hmapped,
    if_neg (by simp), Tables.runData]
  dsimp only
  rw [Option.map_eq_none_iff, List.find?_eq_none]
  intro row hrow hp
  obtain ⟨htask, hindex⟩ := of_decide_eq_true hp
  have hmem := h.taskMaps.subset (List.mem_filter.mpr ⟨hrow, decide_eq_true htask⟩)
  obtain ⟨ti, hti, hrecord⟩ := List.mem_filterMap.mp hmem
  obtain ⟨row', hrow'⟩ := h.recorded ti hti
  obtain ⟨-, rfl⟩ := record_ok hmapped hrow'
  rw [hrow'] at hrecord
  cases hrecord
  rw [instances, if_pos hexpansion] at hti
  obtain ⟨i, _, rfl⟩ := List.mem_mapIdx.mp hti
  exact absurd hindex (Int.not_lt.mpr (Int.natCast_nonneg i))

end

end Airflow.XCom
