import Airflow.Authoring.Proof.Leaves
import Airflow.Authoring.SetupTeardown

/-!
# When entering a setup or a teardown ends

The search around a setup goes back and forth between two tasks that depend on one another, until
it meets a teardown. `enter_ends_iff`: it ends if a teardown is connected to a direct downstream
task of the setup, or if these tasks are connected to nothing else; for a teardown likewise.
-/

namespace Airflow.Authoring

section
variable {dag : Dag} {e : Edges} {operator task a b : String}

theorem mem_neighbours : b ∈ neighbours e operator a ↔
    (b ∈ e.downstreamTaskIds a ∨ b ∈ e.upstreamTaskIds a) ∧ b ≠ operator := by
  rw [neighbours, List.mem_filter, List.mem_append, decide_eq_true_iff]

/-- Apart from the operator, neighbours are neighbours of each other. -/
theorem neighbours_symm (ha : a ≠ operator) (h : b ∈ neighbours e operator a) :
    b ≠ operator ∧ a ∈ neighbours e operator b := by
  obtain ⟨hdown | hup, hb⟩ := mem_neighbours.mp h
  · exact ⟨hb, mem_neighbours.mpr ⟨.inr ((e.mirror a b).mp hdown), ha⟩⟩
  · exact ⟨hb, mem_neighbours.mpr ⟨.inl ((e.mirror b a).mpr hup), ha⟩⟩

theorem Edges.Acyclic.downstream_ne (h : e.Acyclic) (hb : b ∈ e.downstreamTaskIds a) : b ≠ a := by
  rintro rfl
  exact h b (.single hb)

theorem Edges.Acyclic.upstream_ne (h : e.Acyclic) (hb : b ∈ e.upstreamTaskIds a) : b ≠ a :=
  (h.downstream_ne ((e.mirror b a).mpr hb)).symm

/-- The tasks that are connected to `a` without passing through the operator. -/
def Connected (e : Edges) (operator a b : String) : Prop :=
  Closure.Reaches (neighbours e operator) a b

/-- A search from some direct relatives of the operator ends. -/
theorem search_ends_iff {found : String → Bool} {relatives : List String}
    (hne : ∀ a ∈ relatives, a ≠ operator) :
    (∃ fuel result, Levels.search found (neighbours e operator) fuel relatives = some result) ↔
      (∃ a ∈ relatives, ∃ b, Connected e operator a b ∧ found b = true) ∨
        ∀ a ∈ relatives, neighbours e operator a = [] :=
  Levels.search_isSome_iff (fun _ _ ha hb => neighbours_symm ha hb) hne

/-- The direct relatives of the entered task from which the search starts. -/
def relativesOf (dag : Dag) (e : Edges) (task : String) : List String :=
  if dag.isTeardown task then e.upstreamTaskIds task else e.downstreamTaskIds task

/-- What is looked for around the entered task. -/
def isCounterpart (dag : Dag) (task : String) : String → Bool :=
  if dag.isTeardown task then dag.isSetup else dag.isTeardown

theorem Edges.Acyclic.relativesOf_ne (h : e.Acyclic) : ∀ a ∈ relativesOf dag e task, a ≠ task := by
  intro a ha
  rw [relativesOf] at ha
  split at ha
  · exact h.upstream_ne ha
  · exact h.downstream_ne ha

/-- What is found is remembered. -/
def remembered (dag : Dag) (task : String) (ctx : SetupTeardownContext) : List String :=
  if dag.isTeardown task then ctx.setupUpstreamOfTeardown else ctx.teardownDownstreamOfSetup

/-- One task is not of several kinds. -/
theorem pushTasks_one (ctx : SetupTeardownContext) (fuel : Nat) (setup : Bool) :
    ctx.pushTasks dag e fuel (.one task) setup =
      if setup then ((ctx.pushContextManagedSetupTask (.one task)).updateTeardownDownstream dag e
        fuel (.one task)).map .ok
      else ((ctx.pushContextManagedTeardownTask (.one task)).updateSetupUpstream dag e fuel
        (.one task)).map .ok := by
  simp [SetupTeardownContext.pushTasks, Operators.toList, Operators.first]

/-- Entering a task ends when its search does, and remembers what was found. -/
theorem enter_eq_ok_iff (ctx : SetupTeardownContext) (fuel : Nat)
    (htask : dag.isSetup task = true ∨ dag.isTeardown task = true) (found : List String) :
    (∃ ctx', ctx.enter dag e fuel task = some (.ok ctx') ∧ remembered dag task ctx' = found) ↔
      Levels.search (isCounterpart dag task) (neighbours e task) fuel (relativesOf dag e task) =
        some found := by
  have henter : (!dag.isSetup task && !dag.isTeardown task) = false := by
    rcases htask with h | h <;> simp [h]
  rw [SetupTeardownContext.enter, henter, SetupTeardownContext.pushSetupTeardownTask]
  simp only [pushTasks_one, Operators.first, Bool.false_eq_true, if_false]
  cases hteardown : dag.isTeardown task with
  | true =>
    simp only [if_true, SetupTeardownContext.updateSetupUpstream, Operators.first, getSetups,
      isCounterpart, relativesOf, remembered, hteardown]
    cases Levels.search dag.isSetup (neighbours e task) fuel (e.upstreamTaskIds task) <;>
      simp [Except.map]
  | false =>
    have hsetup : dag.isSetup task = true := by simpa [hteardown] using htask
    simp only [hsetup, if_true, Bool.false_eq_true, if_false,
      SetupTeardownContext.updateTeardownDownstream, Operators.first, getTeardowns, isCounterpart,
      relativesOf, remembered, hteardown]
    cases Levels.search dag.isTeardown (neighbours e task) fuel (e.downstreamTaskIds task) <;>
      simp [Except.map]

/-- What is remembered is connected to the entered task. -/
theorem connected_of_enter {ctx ctx' : SetupTeardownContext} {fuel : Nat}
    (htask : dag.isSetup task = true ∨ dag.isTeardown task = true)
    (h : ctx.enter dag e fuel task = some (.ok ctx')) :
    ∀ b ∈ remembered dag task ctx', isCounterpart dag task b = true ∧
      ∃ a ∈ relativesOf dag e task, Connected e task a b := by
  intro b hb
  have hsearch := (enter_eq_ok_iff ctx fuel htask _).mp ⟨ctx', h, rfl⟩
  exact Levels.mem_of_search hsearch hb

/-- **Entering a setup or teardown ends if and only if a counterpart is connected to one of its
direct relatives, or these are connected to no other task.** -/
theorem enter_ends_iff (hacyclic : e.Acyclic) (ctx : SetupTeardownContext)
    (htask : dag.isSetup task = true ∨ dag.isTeardown task = true) :
    (∃ fuel ctx', ctx.enter dag e fuel task = some (.ok ctx') ∧
      ∀ b ∈ remembered dag task ctx', isCounterpart dag task b = true ∧
        ∃ a ∈ relativesOf dag e task, Connected e task a b) ↔
      (∃ a ∈ relativesOf dag e task, ∃ b, Connected e task a b ∧
        isCounterpart dag task b = true) ∨
        ∀ a ∈ relativesOf dag e task, neighbours e task a = [] := by
  rw [← search_ends_iff hacyclic.relativesOf_ne]
  constructor
  · rintro ⟨fuel, ctx', h, -⟩
    exact ⟨fuel, _, (enter_eq_ok_iff ctx fuel htask _).mp ⟨ctx', h, rfl⟩⟩
  · rintro ⟨fuel, found, h⟩
    obtain ⟨ctx', henter, -⟩ := (enter_eq_ok_iff ctx fuel htask found).mpr h
    exact ⟨fuel, ctx', henter, connected_of_enter htask henter⟩

end

/-! ## A setup without a teardown -/

/-- The setup `create` and two tasks. -/
def setupDag : Dag where
  taskIds := ["create", "load", "report"]
  taskGroup _ := .root
  isSetup t := t == "create"
  isTeardown _ := false
  taskIds_nodup := by decide
  not_both := fun _ _ => rfl

/-- `create >> load >> report`. -/
def setupEdges : Edges := (Edges.empty.add "create" "load").add "load" "report"

theorem setupEdges_downstream {a b : String} (h : b ∈ setupEdges.downstreamTaskIds a) :
    a = "create" ∧ b = "load" ∨ a = "load" ∧ b = "report" := by
  simp only [setupEdges, Edges.add, Edges.empty, Function.update_apply] at h
  by_cases hload : a = "load"
  · simp_all
  · by_cases hcreate : a = "create" <;> simp_all

theorem setupEdges_acyclic : setupEdges.Acyclic := by
  refine Closure.Acyclic.of_rank
    (fun t => if t = "create" then 0 else if t = "load" then 1 else 2) fun a b hab => ?_
  rcases setupEdges_downstream hab with ⟨rfl, rfl⟩ | ⟨rfl, rfl⟩ <;> decide

/-- No teardown is near: entering the setup does not end. -/
theorem setup_never_entered : setupEdges.Acyclic ∧ setupDag.isSetup "create" = true ∧
    ¬∃ fuel ctx', SetupTeardownContext.enter setupDag setupEdges {} fuel "create" =
      some (.ok ctx') := by
  refine ⟨setupEdges_acyclic, rfl, ?_⟩
  rintro ⟨fuel, ctx', h⟩
  have hsearch := (enter_eq_ok_iff {} fuel (.inl rfl) _).mp ⟨ctx', h, rfl⟩
  rcases (search_ends_iff setupEdges_acyclic.relativesOf_ne).mp ⟨fuel, _, hsearch⟩ with
    ⟨a, -, b, -, hteardown⟩ | hisolated
  · cases hteardown
  · exact absurd (hisolated "load" (by decide)) (by decide)

/-- The same with `report` as a teardown. -/
def teardownDag : Dag where
  taskIds := ["create", "load", "report"]
  taskGroup _ := .root
  isSetup t := t == "create"
  isTeardown t := t == "report"
  taskIds_nodup := by decide
  not_both := by
    intro t ht
    rw [beq_iff_eq] at ht
    rw [ht]
    rfl

theorem teardown_entered : ∃ fuel ctx',
    SetupTeardownContext.enter teardownDag setupEdges {} fuel "create" = some (.ok ctx') ∧
      ∀ b ∈ remembered teardownDag "create" ctx', isCounterpart teardownDag "create" b = true ∧
        ∃ a ∈ relativesOf teardownDag setupEdges "create", Connected setupEdges "create" a b := by
  refine (enter_ends_iff setupEdges_acyclic {} (.inl rfl)).mpr (.inl ?_)
  refine ⟨"load", by decide, "report", .single ?_, by decide⟩
  exact mem_neighbours.mpr ⟨.inl (by decide), by decide⟩

end Airflow.Authoring
