import Airflow.TaskInstance.ExternalMarkers
import Airflow.TaskInstance.Filter

/-!
# What the order of the marker rows decides

The traversal makes a depth-first pass over the marker rows (`visitMarker_visits`), with as many
levels as the first row's marker allows. So all orders that get to the end collect the same keys; a
row that is too far for every marker is too far in every order, and where no chain of distinct rows
is too long, none is stopped. In between it is the order that decides.
-/

namespace Airflow.Dependents

open DepthFirst Closure

variable {env : Environment} {shared : SharedArguments} {order : RowOrder}

/-- The traversal of the markers as a depth-first pass. -/
abbrev VisitsMarkers (env : Environment) (shared : SharedArguments) (levels : Nat)
    (visited targets : List PrimaryKey) (extra : PrimaryKey → Prop) (outcome : Outcome) : Prop :=
  Visits (dependentMarkers env shared) (dependentTis env shared) ClearError.IsRecursionDepth levels
    visited targets extra outcome

theorem not_excluded_of_dependentTis {ti k : PrimaryKey} (h : k ∈ dependentTis env shared ti) :
    (!excluded shared.excludeTaskIds k) = true := by
  obtain ⟨call, -, hk⟩ := List.mem_flatMap.mp h
  exact (List.mem_filter.mp hk).2

theorem mem_rows {order : RowOrder} {visited result : List PrimaryKey} {k : PrimaryKey} :
    k ∈ order.rows visited result ↔ k ∈ result := (order.perm visited result).mem_iff

/-- A loop over rows, whose body makes a pass over its row. -/
theorem loop_visits {visit : PrimaryKey → List PrimaryKey → Outcome} {levels : Nat}
    (hvisit : ∀ ti visited,
      VisitsMarkers env shared levels visited [ti] (fun _ => False) (visit ti visited))
    (rows visited : List PrimaryKey) :
    VisitsMarkers env shared levels visited rows (fun _ => False) (loop visit rows visited) := by
  have h : VisitsMarkers env shared levels visited (rows.flatMap fun ti => [ti])
      (fun _ => ∃ ti ∈ rows, False) (loop visit rows visited) := .loop fun ti _ => hvisit ti
  refine h.congr (fun k => ?_) fun k => ?_
  · simp only [List.mem_flatMap, List.mem_singleton, exists_eq_right']
  · simp only [and_false, exists_false]

theorem collect_visits {visit : PrimaryKey → List PrimaryKey → Outcome} {levels : Nat}
    (hvisit : ∀ ti visited,
      VisitsMarkers env shared levels visited [ti] (fun _ => False) (visit ti visited))
    (call : Call) (visited : List PrimaryKey) :
    VisitsMarkers env shared levels visited (call.externalTasks env shared true)
      (· ∈ call.adds env shared) (collect env shared order visit call visited) := by
  have h := loop_visits hvisit (order.rows visited (call.externalTasks env shared true)) visited
  have h' : VisitsMarkers env shared levels visited _
      (fun k => False ∨ k ∈ call.tis env shared ∧ !excluded shared.excludeTaskIds k)
      (collect env shared order visit call visited) :=
    h.filter (fun ti k hk => not_excluded_of_dependentTis hk) (fun k hk => hk.elim)
  refine h'.congr (fun k => mem_rows) fun k => ?_
  rw [false_or, Call.adds, List.mem_filter]

/-! ## The errors that are not about the depth -/

theorem getTask_error {self : DAG} {taskId : String} {e : ClearError}
    (h : self.getTask taskId = .error e) : ¬e.IsRecursionDepth := by
  unfold DAG.getTask at h
  split at h
  · obtain rfl := Except.error.inj h
    exact id
  · cases h

theorem externalTask_error {self : DAG} {task : Operator} {ti : PrimaryKey} {e : ClearError}
    (h : env.externalTask self task ti = .error e) : ¬e.IsRecursionDepth := by
  unfold Environment.externalTask at h
  split at h
  · obtain rfl := Except.error.inj h
    exact id
  · obtain rfl := Except.error.inj h
    exact id
  · cases h

theorem externalTask_ok {self : DAG} {task : Operator} {ti : PrimaryKey} {external : ExternalTask}
    (h : env.externalTask self task ti = .ok external) :
    env.renderTemplates ti = some external := by
  unfold Environment.externalTask at h
  split at h
  · cases h
  · cases h
  · rename_i hrender _
    rw [hrender, Except.ok.inj h]

theorem getDag_error {dagId : String} {e : ClearError} (h : env.getDag dagId = .error e) :
    ¬e.IsRecursionDepth := by
  unfold Environment.getDag at h
  split at h
  · obtain rfl := Except.error.inj h
    exact id
  · cases h

theorem dependentCalls_of_getDag {tii : PrimaryKey} {dag : DAG} (h : env.getDag tii.dagId = .ok dag) :
    dependentCalls env tii = [dependentCall dag tii] := by
  unfold Environment.getDag at h
  split at h
  · cases h
  · rename_i hfind
    rw [dependentCalls, hfind, Except.ok.inj h]
    rfl

/-! ## The traversal as a pass -/

/-- The loop over the task instances that a marker points at. -/
theorem externalTis_visits {ti : PrimaryKey} {external : ExternalTask} {levels : Nat}
    {visit : DAG → PrimaryKey → List PrimaryKey → Outcome}
    (hvisit : ∀ dag ti visited,
      VisitsMarkers env shared levels visited [ti] (fun _ => False) (visit dag ti visited))
    (hrender : env.renderTemplates ti = some external) (queried visited : List PrimaryKey) :
    VisitsMarkers env shared levels visited (dependentMarkers env shared ti)
      (· ∈ dependentTis env shared ti)
      (loop (fun tii visited => do
        let externalDag ← env.getDag tii.dagId
        let call := dependentCall externalDag tii
        collect env shared order (visit call.dag) call visited)
        (order.rows queried (env.externalTis external)) visited) := by
  have hcalls : callsOf env ti = (env.externalTis external).flatMap (dependentCalls env) := by
    rw [callsOf, hrender]
  have hbody : ∀ tii ∈ order.rows queried (env.externalTis external), ∀ visited,
      VisitsMarkers env shared levels visited
        ((dependentCalls env tii).flatMap (·.externalTasks env shared true))
        (· ∈ (dependentCalls env tii).flatMap (·.adds env shared)) (do
          let externalDag ← env.getDag tii.dagId
          let call := dependentCall externalDag tii
          collect env shared order (visit call.dag) call visited) := by
    intro tii _ visited
    cases hdag : env.getDag tii.dagId with
    | error e => exact .of_not_deep (getDag_error hdag)
    | ok dag =>
      rw [dependentCalls_of_getDag hdag, List.flatMap_singleton, List.flatMap_singleton]
      exact collect_visits (hvisit _) _ visited
  refine (Visits.loop hbody).congr (fun k => ?_) fun k => ?_
  · rw [dependentMarkers, hcalls, List.flatMap_assoc]
    simp only [List.mem_flatMap, mem_rows]
  · rw [dependentTis, hcalls, List.flatMap_assoc]
    simp only [List.mem_flatMap, mem_rows]

/-- **The traversal makes a depth-first pass over the marker rows.** -/
theorem visitMarker_visits (maxRecursionDepth levels : Nat) (self : DAG) (ti : PrimaryKey)
    (visited : List PrimaryKey) :
    VisitsMarkers env shared levels visited [ti] (fun _ => False)
      (visitMarker env shared order maxRecursionDepth levels self ti visited) := by
  induction levels generalizing self ti visited with
  | zero =>
    rw [visitMarker]
    split
    · rename_i hmem
      exact .skip (List.contains_iff_mem.mp hmem)
    · rename_i hmem
      cases htask : self.getTask ti.taskId with
      | error e => exact .of_not_deep (getTask_error htask)
      | ok task => exact .stop fun h => hmem (List.contains_iff_mem.mpr h)
  | succ levels ih =>
    rw [visitMarker]
    split
    · rename_i hmem
      exact .skip (List.contains_iff_mem.mp hmem)
    · rename_i hmem
      cases htask : self.getTask ti.taskId with
      | error e => exact .of_not_deep (getTask_error htask)
      | ok task =>
        change Visits _ _ _ _ _ _ _ (env.externalTask self task ti >>= _)
        cases hexternal : env.externalTask self task ti with
        | error e => exact .of_not_deep (externalTask_error hexternal)
        | ok external =>
          refine .enter (fun h => hmem (List.contains_iff_mem.mpr h)) ?_
          exact externalTis_visits ih (externalTask_ok hexternal) _ _

/-! ## The first call -/

theorem recursionDepth_error {call : Call} {ti : PrimaryKey} {e : ClearError}
    (h : call.recursionDepth ti = .error e) : ¬e.IsRecursionDepth := by
  unfold Call.recursionDepth at h
  cases htask : call.dag.getTask ti.taskId with
  | error e' =>
    rw [htask] at h
    obtain rfl := Except.error.inj h
    exact getTask_error htask
  | ok task =>
    rw [htask] at h
    change call.dag.recursionDepth task = .error e at h
    unfold DAG.recursionDepth at h
    split at h
    · obtain rfl := Except.error.inj h
      exact id
    · cases h

theorem visitMarkers_cons {call : Call} {ti : PrimaryKey} {rows : List PrimaryKey} :
    visitMarkers env shared order call.dag (ti :: rows) = (do
      let maxRecursionDepth ← call.recursionDepth ti
      loop (visitMarker env shared order maxRecursionDepth maxRecursionDepth call.dag)
        (ti :: rows) []) := by
  rw [visitMarkers, Call.recursionDepth]
  cases call.dag.getTask ti.taskId <;> rfl

/-- A maximum reached in the first call: beyond a chain from the first row, or from another one that
avoids what the first row leads to. -/
theorem visitMarkers_error {call : Call} {rows : List PrimaryKey} {e : ClearError}
    (h : visitMarkers env shared order call.dag rows = .error e) (hdeep : e.IsRecursionDepth) :
    ∃ first ∈ rows, ∃ depth, call.recursionDepth first = .ok depth ∧
      ∃ chain : List PrimaryKey, chain.Nodup ∧ depth < chain.length ∧
        (ChainFrom (dependentMarkers env shared) [first] chain ∨
          ChainFrom (dependentMarkers env shared) rows chain ∧
            ∀ m ∈ chain, ¬Reaches (dependentMarkers env shared) first m) := by
  cases rows with
  | nil => cases h
  | cons first rest =>
    rw [visitMarkers_cons] at h
    cases hdepth : call.recursionDepth first with
    | error e' =>
      rw [hdepth] at h
      obtain rfl := Except.error.inj h
      exact absurd hdeep (recursionDepth_error hdepth)
    | ok depth =>
      refine ⟨first, List.mem_cons_self, depth, hdepth, ?_⟩
      rw [hdepth] at h
      have hvisit := @visitMarker_visits env shared order depth depth call.dag
      change loop (visitMarker env shared order depth depth call.dag) (first :: rest) [] = _ at h
      have hfirst := hvisit first []
      rcases loop_error h with hrun | ⟨result, middle, hrun, hloop⟩
      · rw [hrun] at hfirst
        obtain ⟨chain, hfrom, hnodup, -, hlength⟩ := hfirst.chain_of_error hdeep
        exact ⟨chain, hnodup, by omega, .inl hfrom⟩
      · have hrest := loop_visits hvisit rest middle
        rw [hrun] at hfirst
        rw [hloop] at hrest
        obtain ⟨chain, hfrom, hnodup, havoid, hlength⟩ := hrest.chain_of_error hdeep
        refine ⟨chain, hnodup, by omega, .inr ⟨hfrom.mono (List.subset_cons_self _ _), ?_⟩⟩
        intro m hm hreach
        exact havoid m hm (hfirst.mem_visited.mpr ⟨first, List.mem_singleton_self first, hreach⟩)

/-- A first call that gets to the end of its markers. -/
theorem visitMarkers_ok {call : Call} {rows result visited : List PrimaryKey}
    (h : visitMarkers env shared order call.dag rows = .ok (result, visited)) :
    (∀ k, k ∈ result ↔ ∃ m, (∃ t ∈ rows, Reaches (dependentMarkers env shared) t m) ∧
      k ∈ dependentTis env shared m) ∧
    ∀ m, (∃ t ∈ rows, Reaches (dependentMarkers env shared) t m) →
      ∃ first ∈ rows, ∃ depth, call.recursionDepth first = .ok depth ∧
        ∃ chain, ChainFrom (dependentMarkers env shared) rows chain ∧ chain.getLast? = some m ∧
          chain.length ≤ depth := by
  cases rows with
  | nil =>
    obtain ⟨rfl, rfl⟩ := Prod.mk.inj (Except.ok.inj h)
    simp
  | cons first rest =>
    rw [visitMarkers_cons] at h
    cases hdepth : call.recursionDepth first with
    | error e =>
      rw [hdepth] at h
      cases h
    | ok depth =>
      rw [hdepth] at h
      have hvisits := loop_visits (@visitMarker_visits env shared order depth depth call.dag)
        (first :: rest) []
      change loop (visitMarker env shared order depth depth call.dag) (first :: rest) [] = _ at h
      rw [h] at hvisits
      refine ⟨fun k => by rw [hvisits.mem_iff k, false_or], fun m hm => ?_⟩
      exact ⟨first, List.mem_cons_self, depth, hdepth, hvisits.exists_chain hm⟩

/-! ## What is returned -/

theorem Call.result_congr {call : Call} {asPkTuple : Bool} {dependents dependents' : List PrimaryKey}
    (h : ∀ k, k ∈ dependents ↔ k ∈ dependents') (k : PrimaryKey) :
    k ∈ call.result env shared asPkTuple dependents ↔
      k ∈ call.result env shared asPkTuple dependents' := by
  have hempty : dependents.isEmpty = dependents'.isEmpty := by
    rw [Bool.eq_iff_iff, List.isEmpty_iff, List.isEmpty_iff, List.eq_nil_iff_forall_not_mem,
      List.eq_nil_iff_forall_not_mem]
    exact forall_congr' fun k => not_congr (h k)
  unfold Call.result
  rw [hempty]
  split
  · exact Iff.rfl
  · rw [List.mem_filter, List.mem_filter, List.mem_append, List.mem_append, h k]

/-- The query for a set selects its rows; the query for the empty set is another one. -/
theorem Call.mem_returned {call : Call} {dependents : List PrimaryKey} {k : PrimaryKey} :
    k ∈ call.returned env shared false dependents ↔
      (∃ row ∈ env.taskInstances, row.key = k ∧
        row.key ∈ call.result env shared false dependents) ∨
      (∀ k, k ∉ call.result env shared false dependents) ∧
        k ∈ (call.tis env shared).filter (notExcludedCondition shared.excludeTaskIds) := by
  unfold Call.returned
  cases hresult : call.result env shared false dependents with
  | nil => simp [filterForTis]
  | cons first rest =>
    obtain ⟨condition, hcondition, hholds⟩ := filterForTis_holds first rest
    have hnot : ¬∀ k, k ∉ first :: rest := fun h => h first List.mem_cons_self
    simp only [hcondition, Bool.false_eq_true, if_false, List.mem_map, List.mem_filter, hholds,
      hnot, false_and, or_false]
    exact exists_congr fun row => ⟨fun h => ⟨h.1.1, h.2, h.1.2⟩, fun h => ⟨⟨h.1, h.2.2⟩, h.2.1⟩⟩

theorem Call.returned_congr {call : Call} {asPkTuple : Bool}
    {dependents dependents' : List PrimaryKey} (h : ∀ k, k ∈ dependents ↔ k ∈ dependents')
    (k : PrimaryKey) :
    k ∈ call.returned env shared asPkTuple dependents ↔
      k ∈ call.returned env shared asPkTuple dependents' := by
  cases asPkTuple with
  | true => exact Call.result_congr h k
  | false =>
    rw [Call.mem_returned, Call.mem_returned]
    simp only [Call.result_congr h]

theorem getTaskInstances_ok {call : Call} {asPkTuple : Bool} {keys : List PrimaryKey}
    (h : getTaskInstances env shared order call asPkTuple = .ok keys) :
    ∃ dependents visited,
      visitMarkers env shared order call.dag
        (order.rows [] (call.externalTasks env shared asPkTuple)) = .ok (dependents, visited) ∧
      keys = call.returned env shared asPkTuple dependents := by
  unfold getTaskInstances at h
  match hrun : visitMarkers env shared order call.dag
      (order.rows [] (call.externalTasks env shared asPkTuple)) with
  | .error e =>
    simp only [hrun] at h
    cases h
  | .ok (dependents, visited) =>
    simp only [hrun] at h
    exact ⟨dependents, visited, rfl, (Except.ok.inj h).symm⟩

theorem getTaskInstances_error {call : Call} {asPkTuple : Bool} {e : ClearError}
    (h : getTaskInstances env shared order call asPkTuple = .error e) :
    visitMarkers env shared order call.dag
      (order.rows [] (call.externalTasks env shared asPkTuple)) = .error e := by
  unfold getTaskInstances at h
  match hrun : visitMarkers env shared order call.dag
      (order.rows [] (call.externalTasks env shared asPkTuple)) with
  | .error e' =>
    simp only [hrun] at h
    exact congrArg Except.error (Except.error.inj h)
  | .ok (dependents, visited) =>
    simp only [hrun] at h
    cases h

/-- **What the order of the rows decides.** The orders that return give the same keys. No order
reaches the maximum where, for each marker that may come first, the chains of distinct rows from it
and those from another one that avoid what it leads to are no longer than it allows. No order
returns where some row is further away than each marker that may come first allows. -/
theorem getTaskInstances_orders (env : Environment) (shared : SharedArguments) (call : Call)
    (asPkTuple : Bool) :
    (∀ order order' keys keys',
      getTaskInstances env shared order call asPkTuple = .ok keys →
      getTaskInstances env shared order' call asPkTuple = .ok keys' →
      ∀ k, k ∈ keys ↔ k ∈ keys') ∧
    ((∀ first ∈ call.externalTasks env shared asPkTuple, ∀ depth,
        call.recursionDepth first = .ok depth → ∀ chain : List PrimaryKey, chain.Nodup →
        (ChainFrom (dependentMarkers env shared) [first] chain ∨
          ChainFrom (dependentMarkers env shared) (call.externalTasks env shared asPkTuple) chain ∧
            ∀ m ∈ chain, ¬Reaches (dependentMarkers env shared) first m) →
        chain.length ≤ depth) →
      ∀ order e, getTaskInstances env shared order call asPkTuple = .error e →
        ¬e.IsRecursionDepth) ∧
    ((∃ m, (∃ t ∈ call.externalTasks env shared asPkTuple,
          Reaches (dependentMarkers env shared) t m) ∧
        ∀ first ∈ call.externalTasks env shared asPkTuple, ∀ depth,
          call.recursionDepth first = .ok depth → ∀ chain : List PrimaryKey,
          ChainFrom (dependentMarkers env shared) (call.externalTasks env shared asPkTuple) chain →
          chain.getLast? = some m → depth < chain.length) →
      ∀ order, ∃ e, getTaskInstances env shared order call asPkTuple = .error e) := by
  refine ⟨fun order order' keys keys' h h' => ?_, fun hshort order e h hdeep => ?_,
    fun ⟨m, hm, hfar⟩ order => ?_⟩
  · obtain ⟨dependents, visited, hrun, rfl⟩ := getTaskInstances_ok h
    obtain ⟨dependents', visited', hrun', rfl⟩ := getTaskInstances_ok h'
    refine Call.returned_congr fun k => ?_
    rw [(visitMarkers_ok hrun).1, (visitMarkers_ok hrun').1]
    simp only [mem_rows]
  · obtain ⟨first, hfirst, depth, hdepth, chain, hnodup, hlong, hchain⟩ :=
      visitMarkers_error (getTaskInstances_error h) hdeep
    have hbound := hshort first (mem_rows.mp hfirst) depth hdepth chain hnodup
      (hchain.imp_right fun hc => ⟨hc.1.mono fun k hk => mem_rows.mp hk, hc.2⟩)
    omega
  · match hrun : getTaskInstances env shared order call asPkTuple with
    | .error e => exact ⟨e, rfl⟩
    | .ok keys =>
      obtain ⟨dependents, visited, hvisit, -⟩ := getTaskInstances_ok hrun
      have hm' : ∃ t ∈ order.rows [] (call.externalTasks env shared asPkTuple),
          Reaches (dependentMarkers env shared) t m := by
        simpa only [mem_rows] using hm
      obtain ⟨first, hfirst, depth, hdepth, chain, hfrom, hlast, hlength⟩ :=
        (visitMarkers_ok hvisit).2 m hm'
      have hlong := hfar first (mem_rows.mp hfirst) depth hdepth chain
        (hfrom.mono fun k hk => mem_rows.mp hk) hlast
      omega

/-! ## An order that decides -/

/-- The text of a number, in strokes. -/
def strokes (id : TaskId) : String := String.ofList (List.replicate id '|')

theorem strokes_injective : Function.Injective strokes := by
  intro a b h
  simpa [strokes] using congrArg (·.toList.length) h

/-- Two markers, of which the second allows one more level. -/
def nearDag : DAG where
  dagId := "near"
  graph := { tasks := [
    { taskId := 3, deps_mapped := baseOperatorDeps_unmapped },
    { taskId := 4, deps_mapped := baseOperatorDeps_unmapped }] }
  taskIdText := strokes
  taskIdText_injective := strokes_injective
  marker id := if id = 4 then some { recursionDepth := 2 } else some { recursionDepth := 1 }

def farDag : DAG where
  dagId := "far"
  graph := { tasks := [{ taskId := 5, deps_mapped := baseOperatorDeps_unmapped }] }
  taskIdText := strokes
  taskIdText_injective := strokes_injective
  marker _ := some { recursionDepth := 1 }

def markerRow (dagId : String) (id : TaskId) : TaskInstance where
  key := ⟨dagId, strokes id, "run", -1⟩
  state := some .success
  operator := "ExternalTaskMarker"

/-- The second marker of the near DAG points at the marker of the far one. -/
def twoDags : Environment where
  taskInstances := [markerRow "near" 3, markerRow "near" 4, markerRow "far" 5]
  executionDate _ _ := 0
  dagBag := [nearDag, farDag]
  utcnow := 0
  renderTemplates ti :=
    if ti.taskId = strokes 4 then some ⟨"far", strokes 5, 0⟩ else some ⟨"gone", "", 0⟩

def asStored : RowOrder := ⟨fun _ result => result, fun _ _ => .refl _⟩

def backwards : RowOrder := ⟨fun _ result => result.reverse, fun _ result => result.reverse_perm⟩

theorem order_decides_maximum :
    (∃ e, getTaskInstances twoDags {} asStored { dag := nearDag } true = .error e ∧
      e.IsRecursionDepth) ∧
    ∃ keys, getTaskInstances twoDags {} backwards { dag := nearDag } true = .ok keys := by
  refine ⟨⟨.maximumRecursionDepth 1 (strokes 5), ?_, trivial⟩,
    ⟨[⟨"far", strokes 5, "run", -1⟩, ⟨"near", strokes 3, "run", -1⟩,
      ⟨"near", strokes 4, "run", -1⟩], ?_⟩⟩
  · decide +kernel
  · decide +kernel

end Airflow.Dependents
