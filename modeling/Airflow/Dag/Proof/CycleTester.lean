import Airflow.Dag.CycleTester
import Airflow.Dag.Proof.Relatives
import Mathlib.Algebra.Order.BigOperators.Group.List
import Mathlib.Algebra.Order.Group.Nat
import Mathlib.Algebra.Ring.Nat

/-!
# The cycle tester is exact

The stack of the search is a path whose tasks are the ones in progress, and no path leads from a
done task to one that is not (`SearchInv`). So an adjacent task in progress closes a cycle, and when
all tasks are done there is none (`checkCycle_exact`). Every turn of the loop lowers `measure`.
-/

namespace Airflow
namespace CycleTester

variable {dag : Dag} {visited visited' : Visited} {current child id a b : TaskId}
  {pathStack : List TaskId} {fuel : Nat}

theorem mem_adjacent : b ∈ adjacent dag a ↔ dag.Edge false a b := Iff.rfl

/-! ## The adjacent tasks -/

/-- What `_check_adjacent_tasks` says of the adjacent tasks. -/
theorem checkAdjacentTasks_spec (ids : List TaskId) :
    match checkAdjacentTasks visited id ids with
    | .error e => e = ⟨id⟩ ∧ ∃ b ∈ ids, visited b = .inProgress
    | .ok none => ∀ b ∈ ids, visited b = .done
    | .ok (some child) => child ∈ ids ∧ visited child = .new := by
  induction ids with
  | nil => exact fun b hb => absurd hb List.not_mem_nil
  | cons c rest ih =>
    cases hc : visited c with
    | new =>
      simp only [checkAdjacentTasks, hc]
      exact ⟨List.mem_cons_self, trivial⟩
    | inProgress =>
      simp only [checkAdjacentTasks, hc]
      exact ⟨trivial, c, List.mem_cons_self, hc⟩
    | done =>
      simp only [checkAdjacentTasks, hc]
      cases hrest : checkAdjacentTasks visited id rest with
      | error e =>
        rw [hrest] at ih
        obtain ⟨he, b, hb, hin⟩ := ih
        exact ⟨he, b, List.mem_cons_of_mem _ hb, hin⟩
      | ok found =>
        rw [hrest] at ih
        cases found with
        | none =>
          intro b hb
          rcases List.mem_cons.mp hb with rfl | hb
          · exact hc
          · exact ih b hb
        | some child => exact ⟨List.mem_cons_of_mem _ ih.1, ih.2⟩

theorem inProgress_of_error {ids : List TaskId} {e : AirflowDagCycleException}
    (h : checkAdjacentTasks visited id ids = .error e) :
    e = ⟨id⟩ ∧ ∃ b ∈ ids, visited b = .inProgress := by
  have hspec := @checkAdjacentTasks_spec visited id ids
  rw [h] at hspec
  exact hspec

theorem done_of_none {ids : List TaskId} (h : checkAdjacentTasks visited id ids = .ok none) :
    ∀ b ∈ ids, visited b = .done := by
  have hspec := @checkAdjacentTasks_spec visited id ids
  rw [h] at hspec
  exact hspec

theorem new_of_some {ids : List TaskId}
    (h : checkAdjacentTasks visited id ids = .ok (some child)) :
    child ∈ ids ∧ visited child = .new := by
  have hspec := @checkAdjacentTasks_spec visited id ids
  rw [h] at hspec
  exact hspec

/-! ## The invariant of the search -/

/-- What holds between two turns of the loop. -/
structure SearchInv (dag : Dag) (visited : Visited) (pathStack : List TaskId) : Prop where
  stack_sub : pathStack ⊆ dag.taskIds
  stack_nodup : pathStack.Nodup
  stack_path : pathStack.Pairwise fun b a => Relation.TransGen (dag.Edge false) a b
  stack_open : ∀ id ∈ pathStack, visited id ≠ .done
  below_inProgress : ∀ id ∈ pathStack.tail, visited id = .inProgress
  inProgress_mem : ∀ id, visited id = .inProgress → id ∈ pathStack
  done_closed : ∀ a b, visited a = .done → dag.Edge false a b → visited b = .done
  done_acyclic : ∀ a, visited a = .done → ¬Relation.TransGen (dag.Edge false) a a

theorem enter_self (h : visited id ≠ .done) : enter visited id id = .inProgress := by
  rw [enter]
  split
  · exact Function.update_self ..
  · cases hid : visited id with
    | new => contradiction
    | inProgress => rfl
    | done => contradiction

theorem enter_of_ne (h : b ≠ id) : enter visited id b = visited b := by
  rw [enter]
  split
  · exact Function.update_of_ne h ..
  · rfl

theorem enter_done (h : visited id ≠ .done) : enter visited id b = .done ↔ visited b = .done := by
  by_cases hb : b = id
  · subst hb
    rw [enter_self h]
    exact ⟨fun hdone => (nomatch hdone), fun hdone => absurd hdone h⟩
  · rw [enter_of_ne hb]

/-- With its top entered, the whole stack is in progress. -/
theorem SearchInv.enter (h : SearchInv dag visited (current :: pathStack)) :
    SearchInv dag (enter visited current) (current :: pathStack) ∧
      ∀ id ∈ current :: pathStack, CycleTester.enter visited current id = .inProgress := by
  have hcurrent := h.stack_open current List.mem_cons_self
  have hin : ∀ id ∈ current :: pathStack, CycleTester.enter visited current id = .inProgress := by
    intro id hid
    rcases List.mem_cons.mp hid with rfl | hid
    · exact enter_self hcurrent
    · have hne : id ≠ current := fun heq => (List.nodup_cons.mp h.stack_nodup).1 (heq ▸ hid)
      rw [enter_of_ne hne]
      exact h.below_inProgress id hid
  refine ⟨⟨h.stack_sub, h.stack_nodup, h.stack_path, ?_, ?_, ?_, ?_, ?_⟩, hin⟩
  · intro id hid
    rw [hin id hid]
    decide
  · exact fun id hid => hin id (List.mem_cons_of_mem _ hid)
  · intro id hid
    by_cases hne : id = current
    · exact hne ▸ List.mem_cons_self
    · rw [enter_of_ne hne] at hid
      exact h.inProgress_mem id hid
  · intro a b ha hab
    rw [enter_done hcurrent] at ha ⊢
    exact h.done_closed a b ha hab
  · intro a ha
    rw [enter_done hcurrent] at ha
    exact h.done_acyclic a ha

/-- An adjacent task in progress is on the stack, so that the faulty task is on a cycle. -/
theorem SearchInv.faulty (h : SearchInv dag visited (current :: pathStack))
    (hadj : dag.Edge false current b) (hb : visited b = .inProgress) :
    Relation.TransGen (dag.Edge false) current current := by
  rcases List.mem_cons.mp (h.inProgress_mem b hb) with rfl | hmem
  · exact .single hadj
  · exact .head hadj (List.rel_of_pairwise_cons h.stack_path hmem)

/-- A new child is pushed. -/
theorem SearchInv.push (h : SearchInv dag visited (current :: pathStack))
    (hin : ∀ id ∈ current :: pathStack, visited id = .inProgress)
    (hadj : dag.Edge false current child) (hchild : visited child = .new) :
    SearchInv dag visited (child :: current :: pathStack) where
  stack_sub := List.cons_subset.mpr ⟨(Dag.mem_taskIds_of_edge hadj).2, h.stack_sub⟩
  stack_nodup := by
    refine List.nodup_cons.mpr ⟨fun hmem => ?_, h.stack_nodup⟩
    rw [hin child hmem] at hchild
    cases hchild
  stack_path := by
    refine List.pairwise_cons.mpr ⟨fun a ha => ?_, h.stack_path⟩
    rcases List.mem_cons.mp ha with rfl | ha
    · exact .single hadj
    · exact (List.rel_of_pairwise_cons h.stack_path ha).tail hadj
  stack_open := by
    intro id hid
    rcases List.mem_cons.mp hid with rfl | hid
    · rw [hchild]
      decide
    · exact h.stack_open id hid
  below_inProgress := hin
  inProgress_mem := fun id hid => List.mem_cons_of_mem _ (h.inProgress_mem id hid)
  done_closed := h.done_closed
  done_acyclic := h.done_acyclic

/-- Along the edges from a done task all tasks are done. -/
theorem SearchInv.done_of_path (h : SearchInv dag visited pathStack) (ha : visited a = .done)
    (hab : Relation.ReflTransGen (dag.Edge false) a b) : visited b = .done := by
  induction hab with
  | refl => exact ha
  | tail _ hstep ih => exact h.done_closed _ _ ih hstep

/-- The top is done when all its adjacent tasks are. -/
theorem SearchInv.pop (h : SearchInv dag visited (current :: pathStack))
    (hin : ∀ id ∈ current :: pathStack, visited id = .inProgress)
    (hdone : ∀ b, dag.Edge false current b → visited b = .done) :
    SearchInv dag (Function.update visited current .done) pathStack := by
  have hcurrent := hin current List.mem_cons_self
  have hnot : current ∉ pathStack := (List.nodup_cons.mp h.stack_nodup).1
  have hother : ∀ id ∈ pathStack, Function.update visited current .done id = .inProgress := by
    intro id hid
    have hne : id ≠ current := fun heq => hnot (heq ▸ hid)
    rw [Function.update_of_ne hne]
    exact hin id (List.mem_cons_of_mem _ hid)
  -- no path leads from a done task back to the top, which was not done
  have hcycle : ¬Relation.TransGen (dag.Edge false) current current := by
    intro hpath
    obtain ⟨b, hb, hback⟩ := Relation.TransGen.head'_iff.mp hpath
    have := h.done_of_path (hdone b hb) hback
    rw [hcurrent] at this
    cases this
  refine ⟨fun id hid => h.stack_sub (List.mem_cons_of_mem _ hid), h.stack_nodup.of_cons,
    h.stack_path.of_cons, ?_, ?_, ?_, ?_, ?_⟩
  · intro id hid
    rw [hother id hid]
    decide
  · exact fun id hid => hother id (List.mem_of_mem_tail hid)
  · intro id hid
    by_cases hne : id = current
    · rw [hne, Function.update_self] at hid
      cases hid
    · rw [Function.update_of_ne hne] at hid
      exact (List.mem_cons.mp (h.inProgress_mem id hid)).resolve_left hne
  · intro a b ha hab
    by_cases hb : b = current
    · rw [hb, Function.update_self]
    · rw [Function.update_of_ne hb]
      by_cases hne : a = current
      · exact hdone b (hne ▸ hab)
      · rw [Function.update_of_ne hne] at ha
        exact h.done_closed a b ha hab
  · intro a ha
    by_cases hne : a = current
    · exact hne ▸ hcycle
    · rw [Function.update_of_ne hne] at ha
      exact h.done_acyclic a ha

/-! ## The measure of the search -/

/-- What is left to do for a task. -/
def Status.pending : Status → Nat
  | .new => 2
  | .inProgress => 1
  | .done => 0

/-- What is left to do for all tasks. -/
def pending (dag : Dag) (visited : Visited) : Nat :=
  (dag.taskIds.map fun id => (visited id).pending).sum

/-- A turn that enters the top lowers what is pending by two halves at least, and one that pushes
leaves a top that is still to be entered. -/
def measure (dag : Dag) (visited : Visited) (pathStack : List TaskId) : Nat :=
  2 * pending dag visited +
    match pathStack with
    | [] => 0
    | current :: _ => if visited current = .new then 0 else 1

theorem pending_le (hle : ∀ id, (visited' id).pending ≤ (visited id).pending) :
    pending dag visited' ≤ pending dag visited :=
  List.sum_le_sum fun id _ => hle id

theorem pending_lt (hle : ∀ id, (visited' id).pending ≤ (visited id).pending)
    (hid : id ∈ dag.taskIds) (hlt : (visited' id).pending < (visited id).pending) :
    pending dag visited' < pending dag visited :=
  List.sum_lt_sum _ _ (fun id _ => hle id) ⟨id, hid, hlt⟩

theorem pending_new : pending dag (fun _ => .new) = 2 * dag.taskIds.length := by
  rw [pending, List.map_const', List.sum_replicate_nat, Nat.mul_comm]
  rfl

theorem enter_pending_le : (enter visited current id).pending ≤ (visited id).pending := by
  by_cases hid : id = current
  · subst hid
    rw [enter]
    split
    · rename_i hnew
      rw [Function.update_self, hnew]
      decide
    · exact Nat.le_refl _
  · rw [enter_of_ne hid]

theorem done_pending_le : (Function.update visited current .done id).pending ≤
    (visited id).pending := by
  by_cases hid : id = current
  · subst hid
    rw [Function.update_self]
    exact Nat.zero_le _
  · rw [Function.update_of_ne hid]

theorem measure_le : measure dag visited pathStack ≤ 2 * pending dag visited + 1 := by
  cases pathStack with
  | nil => exact Nat.le_succ _
  | cons current rest =>
    simp only [measure]
    split <;> omega

theorem measure_enter (hcurrent : current ∈ dag.taskIds) (hopen : visited current ≠ .done) :
    2 * pending dag (enter visited current) < measure dag visited (current :: pathStack) := by
  simp only [measure]
  by_cases hnew : visited current = .new
  · have hlt : pending dag (enter visited current) < pending dag visited := by
      refine pending_lt (fun _ => enter_pending_le) hcurrent ?_
      rw [enter_self hopen, hnew]
      decide
    rw [if_pos hnew]
    omega
  · have hle : pending dag (enter visited current) ≤ pending dag visited :=
      pending_le fun _ => enter_pending_le
    rw [if_neg hnew]
    omega

theorem measure_push (hcurrent : current ∈ dag.taskIds) (hopen : visited current ≠ .done)
    (hnew : enter visited current child = .new) :
    measure dag (enter visited current) (child :: current :: pathStack) <
      measure dag visited (current :: pathStack) := by
  have htop : measure dag (enter visited current) (child :: current :: pathStack) =
      2 * pending dag (enter visited current) := by
    simp only [measure, hnew, if_true, Nat.add_zero]
  rw [htop]
  exact measure_enter hcurrent hopen

theorem measure_pop (hcurrent : current ∈ dag.taskIds) (hopen : visited current ≠ .done) :
    measure dag (Function.update (enter visited current) current .done) pathStack <
      measure dag visited (current :: pathStack) := by
  have hlt : pending dag (Function.update (enter visited current) current .done) <
      pending dag (enter visited current) := by
    refine pending_lt (fun _ => done_pending_le) hcurrent ?_
    rw [Function.update_self, enter_self hopen]
    decide
  calc measure dag (Function.update (enter visited current) current .done) pathStack
      ≤ 2 * pending dag (Function.update (enter visited current) current .done) + 1 := measure_le
    _ ≤ 2 * pending dag (enter visited current) := by omega
    _ < measure dag visited (current :: pathStack) := measure_enter hcurrent hopen

/-! ## The search -/

/-- What the loop leaves: no task in progress, and only acyclic tasks done. -/
def Settled (dag : Dag) (visited : Visited) : Prop := SearchInv dag visited []

theorem done_pop (h : visited id = .done) :
    Function.update (enter visited current) current .done id = .done := by
  by_cases hne : id = current
  · rw [hne, Function.update_self]
  · rw [Function.update_of_ne hne, enter_of_ne hne, h]

/-- How the search from a stack may end: with a faulty task on a cycle, or with all that was done
and all that was on the stack done. -/
inductive Ends (dag : Dag) (visited : Visited) (pathStack : List TaskId) :
    Except AirflowDagCycleException Visited → Prop where
  | raises (e : AirflowDagCycleException)
    (h : Relation.TransGen (dag.Edge false) e.faultyTask e.faultyTask) :
    Ends dag visited pathStack (.error e)
  | returns (last : Visited) (settled : Settled dag last)
    (kept : ∀ id, visited id = .done → last id = .done)
    (finished : ∀ id ∈ pathStack, last id = .done) : Ends dag visited pathStack (.ok last)

/-- The search may end as it does from a later state. -/
theorem Ends.mono {pathStack' : List TaskId} {result : Except AirflowDagCycleException Visited}
    (h : Ends dag visited' pathStack' result)
    (hkept : ∀ id, visited id = .done → visited' id = .done)
    (hstack : ∀ id ∈ pathStack, visited' id = .done ∨ id ∈ pathStack') :
    Ends dag visited pathStack result := by
  cases h with
  | raises e hcycle => exact .raises e hcycle
  | returns last settled kept finished =>
    refine .returns last settled (fun id hid => kept id (hkept id hid)) fun id hid => ?_
    rcases hstack id hid with hdone | hmem
    · exact kept id hdone
    · exact finished id hmem

/-- **The loop ends** when the fuel covers its measure. -/
theorem searchLoop_ends (h : SearchInv dag visited pathStack)
    (hfuel : measure dag visited pathStack ≤ fuel) :
    ∃ result, searchLoop dag fuel visited pathStack = some result ∧
      Ends dag visited pathStack result := by
  induction fuel generalizing visited pathStack with
  | zero =>
    cases pathStack with
    | nil => exact ⟨_, by rw [searchLoop], .returns visited h (fun _ => id) (by simp)⟩
    | cons current rest =>
      have hle := @measure_enter dag visited current rest (h.stack_sub List.mem_cons_self)
        (h.stack_open current List.mem_cons_self)
      omega
  | succ fuel ih =>
    cases pathStack with
    | nil => exact ⟨_, by rw [searchLoop], .returns visited h (fun _ => id) (by simp)⟩
    | cons current rest =>
      have hmem : current ∈ dag.taskIds := h.stack_sub List.mem_cons_self
      have hopen := h.stack_open current List.mem_cons_self
      obtain ⟨hent, hin⟩ := h.enter
      rw [searchLoop]
      cases hcheck : checkAdjacentTasks (enter visited current) current (adjacent dag current) with
      | error e =>
        obtain ⟨rfl, b, hb, hprog⟩ := inProgress_of_error hcheck
        exact ⟨_, rfl, .raises _ (hent.faulty (mem_adjacent.mp hb) hprog)⟩
      | ok found =>
        cases found with
        | none =>
          have hpop := hent.pop hin fun b hb => done_of_none hcheck b (mem_adjacent.mpr hb)
          have hlt := @measure_pop dag visited current rest hmem hopen
          obtain ⟨result, hloop, hends⟩ := ih hpop (by omega)
          refine ⟨result, hloop, hends.mono (fun id => done_pop) fun id hid => ?_⟩
          rcases List.mem_cons.mp hid with rfl | hid
          · exact .inl (Function.update_self ..)
          · exact .inr hid
        | some child =>
          obtain ⟨hadj, hnew⟩ := new_of_some hcheck
          have hlt := @measure_push dag visited current child rest hmem hopen hnew
          obtain ⟨result, hloop, hends⟩ := ih (hent.push hin (mem_adjacent.mp hadj) hnew) (by omega)
          refine ⟨result, hloop, hends.mono (fun id => (enter_done hopen).mpr) fun id hid => ?_⟩
          exact .inr (List.mem_cons_of_mem _ hid)

theorem Settled.root (h : Settled dag visited) (hid : id ∈ dag.taskIds)
    (hnot : visited id ≠ .done) : SearchInv dag visited [id] where
  stack_sub := List.cons_subset.mpr ⟨hid, List.nil_subset _⟩
  stack_nodup := List.nodup_singleton id
  stack_path := List.pairwise_singleton ..
  stack_open := by
    intro a ha
    rw [List.mem_singleton.mp ha]
    exact hnot
  below_inProgress := fun a ha => absurd ha List.not_mem_nil
  inProgress_mem := fun a ha => absurd (h.inProgress_mem a ha) List.not_mem_nil
  done_closed := h.done_closed
  done_acyclic := h.done_acyclic

theorem settled_new : Settled dag fun _ => .new where
  stack_sub := List.nil_subset _
  stack_nodup := List.nodup_nil
  stack_path := .nil
  stack_open := fun _ ha => absurd ha List.not_mem_nil
  below_inProgress := fun _ ha => absurd ha List.not_mem_nil
  inProgress_mem := fun _ ha => nomatch ha
  done_closed := fun _ _ ha => nomatch ha
  done_acyclic := fun _ ha => nomatch ha

theorem measure_root_le (h : pending dag visited ≤ 2 * dag.taskIds.length) :
    measure dag visited pathStack ≤ 4 * dag.taskIds.length + 1 := by
  have := @measure_le dag visited pathStack
  omega

theorem pending_bound : pending dag visited ≤ 2 * dag.taskIds.length := by
  have hle : pending dag visited ≤ pending dag fun _ => .new := by
    refine pending_le fun id => ?_
    cases visited id <;> decide
  rw [← pending_new]
  exact hle

/-- The search from one root after the other ends as one search from all of them. -/
theorem searchFrom_ends {ids : List TaskId} (h : Settled dag visited) (hids : ids ⊆ dag.taskIds)
    (hfuel : 4 * dag.taskIds.length + 1 ≤ fuel) :
    ∃ result, searchFrom dag fuel visited ids = some result ∧ Ends dag visited ids result := by
  induction ids generalizing visited with
  | nil => exact ⟨_, rfl, .returns visited h (fun _ => id) (by simp)⟩
  | cons root ids ih =>
    obtain ⟨hroot, hids⟩ := List.cons_subset.mp hids
    rw [searchFrom]
    split
    · rename_i hdone
      obtain ⟨result, hfrom, hends⟩ := ih h hids
      refine ⟨result, hfrom, hends.mono (fun _ => id) fun id hid => ?_⟩
      rcases List.mem_cons.mp hid with rfl | hid
      · exact .inl hdone
      · exact .inr hid
    · rename_i hnot
      have hmeasure := @measure_root_le dag visited [root] pending_bound
      obtain ⟨result, hloop, hends⟩ :=
        searchLoop_ends (h.root hroot hnot) (hmeasure.trans hfuel)
      rw [hloop]
      cases hends with
      | raises e hcycle => exact ⟨_, rfl, .raises e hcycle⟩
      | returns visited' settled kept finished =>
        obtain ⟨result, hfrom, hends⟩ := ih settled hids
        refine ⟨result, hfrom, hends.mono kept fun id hid => ?_⟩
        rcases List.mem_cons.mp hid with rfl | hid
        · exact .inl (finished id List.mem_cons_self)
        · exact .inr hid

/-! ## The cycle tester -/

/-- The task that the exception names is on a cycle. -/
theorem faultyTask_onCycle {e : AirflowDagCycleException}
    (hfuel : 4 * dag.taskIds.length + 1 ≤ fuel) (h : checkCycle dag fuel = some (.error e)) :
    Relation.TransGen (dag.Edge false) e.faultyTask e.faultyTask := by
  obtain ⟨result, hfrom, hends⟩ := searchFrom_ends settled_new (List.Subset.refl _) hfuel
  rw [checkCycle, hfrom] at h
  cases hends with
  | raises e' hcycle =>
    cases h
    exact hcycle
  | returns => cases h

/-- When all tasks are done there is no cycle. -/
theorem Settled.acyclic (h : Settled dag visited) (hdone : ∀ id ∈ dag.taskIds, visited id = .done) :
    dag.Acyclic := by
  intro a hcycle
  obtain ⟨b, hb, -⟩ := Relation.TransGen.head'_iff.mp hcycle
  exact h.done_acyclic a (hdone a (Dag.mem_taskIds_of_edge hb).1) hcycle

/-- **Cycle detection is exact.** -/
theorem checkCycle_exact (dag : Dag) : ∃ bound, ∀ fuel, bound ≤ fuel →
    ((∃ e, checkCycle dag fuel = some (.error e)) ↔ ¬dag.Acyclic) ∧
      (checkCycle dag fuel = some (.ok ()) ↔ dag.Acyclic) := by
  refine ⟨4 * dag.taskIds.length + 1, fun fuel hfuel => ?_⟩
  obtain ⟨result, hfrom, hends⟩ := searchFrom_ends settled_new (List.Subset.refl _) hfuel
  rw [checkCycle, hfrom]
  cases hends with
  | raises e hcycle =>
    have hnot : ¬dag.Acyclic := fun hac => hac _ hcycle
    exact ⟨⟨fun _ => hnot, fun _ => ⟨e, rfl⟩⟩, ⟨fun h => (nomatch h), fun h => absurd h hnot⟩⟩
  | returns visited' settled kept finished =>
    have hac := settled.acyclic finished
    exact ⟨⟨fun ⟨_, h⟩ => (nomatch h), fun h => absurd hac h⟩, ⟨fun _ => hac, fun _ => rfl⟩⟩

end CycleTester
end Airflow
