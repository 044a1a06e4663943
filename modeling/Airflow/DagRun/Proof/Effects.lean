import Airflow.DagRun.Proof.Session

/-!
# What a decision round does to the task instances

* `areDependenciesMet_written`: evaluating dependencies assigns at most one of the three dependency
  states, and only to the instance it is about;
* `RowInv`: what an object may become, kept by writes, expansion and revision, hence by a whole
  ready pass (`readyPass_rowInv`).
-/

namespace Airflow

/-! ## Dependency evaluation -/

/-- The states that dependencies assign. -/
def isDependencyState : TIState → Bool
  | some .skipped | some .upstreamFailed | some .removed => true
  | _ => false

theorem failureNewState_mem {mapIndex : Int} {u : UpstreamTIStates} {state : TaskInstanceState}
    (h : failureNewState mapIndex u = some state) : isDependencyState (some state) = true := by
  unfold failureNewState at h
  split_ifs at h <;> cases h <;> rfl

theorem directNewState_mem {rule : TriggerRule} {mapIndex : Int} {upstream upstreamSetup : Nat}
    {u : UpstreamTIStates} {state : TaskInstanceState}
    (h : directNewState rule mapIndex upstream upstreamSetup u = some state) :
    isDependencyState (some state) = true := by
  cases rule <;> simp only [directNewState] at h
  case allSuccess => exact failureNewState_mem h
  all_goals first | cases h | (split_ifs at h <;> cases h <;> rfl)

theorem applyNewState_mem {flags : TriggerFlags} {met : Bool} {newState : TIState} {passed : Bool}
    {state : TaskInstanceState} (h : (applyNewState flags met newState passed).newState = some state) :
    newState = some state := by
  unfold applyNewState at h
  dsimp only at h
  split_ifs at h
  exact h

/-- `s'` is `s`, or `s` with a dependency state assigned to `ti`. -/
def Session.Written (ti : TIRef) (s s' : Session) : Prop :=
  s' = s ∨ ∃ state, isDependencyState state = true ∧ s' = s.setState ti state

namespace Session.Written

variable {ti : TIRef} {s s' s'' : Session}

theorem refl (s : Session) : Written ti s s := .inl rfl

theorem sameStored (h : Written ti s s') (t : TaskId) : SameStored s s' t := by
  rcases h with rfl | ⟨state, -, rfl⟩
  · exact .refl _ _
  · exact .setState _ _ _ _

theorem getMappedTiCount (h : Written ti s s') (run : RunData) (task : Operator) :
    task.getMappedTiCount run s' = task.getMappedTiCount run s :=
  Operator.getMappedTiCount_congr fun t _ => (h.sameStored t).unfinishedTiExists.symm

theorem trans (h : Written ti s s') (h' : Written ti s' s'') : Written ti s s'' := by
  rcases h' with rfl | ⟨state', hs', rfl⟩
  · exact h
  · rcases h with rfl | ⟨state, -, rfl⟩
    · exact .inr ⟨state', hs', rfl⟩
    · exact .inr ⟨state', hs', setState_setState _ _ _ _⟩

theorem setTiState {state : TIState} (h : isDependencyState state = true) :
    Written ti s (s.setTiState ti state).1 := by
  unfold Session.setTiState
  split
  · exact .refl s
  · exact .inr ⟨state, h, rfl⟩

end Session.Written

section
variable (dag : Dag) (run : RunData) {ti : TIRef} {task : Operator} {ctx : DepContext} {d : DepState}

theorem applyEvaluation_written {e : Evaluation}
    (h : ∀ state, e.newState = some state → isDependencyState (some state) = true) :
    Session.Written ti d.session (applyEvaluation ti d e).1.session := by
  unfold applyEvaluation
  split
  · exact .refl _
  · next state hs => exact .setTiState (h state hs)

theorem directRelatives_mem {s : Session} {state : TaskInstanceState}
    (h : (directRelatives dag run s ti task ctx).newState = some state) :
    isDependencyState (some state) = true :=
  directNewState_mem (applyNewState_mem h)

theorem setupConstraint_mem {s : Session} {state : TaskInstanceState}
    (h : (setupConstraint dag run s ti task ctx).newState = some state) :
    isDependencyState (some state) = true :=
  failureNewState_mem (applyNewState_mem h)

theorem triggerRuleDep_written :
    Session.Written ti d.session (triggerRuleDep dag run ti task ctx d).session := by
  unfold triggerRuleDep evaluateTriggerRule
  have hset : Session.Written ti d.session
      (applyEvaluation ti d (setupConstraint dag run d.session ti task ctx)).1.session :=
    applyEvaluation_written fun _ => setupConstraint_mem dag run
  split
  · exact .refl _
  · split
    · exact applyEvaluation_written fun _ => directRelatives_mem dag run
    · dsimp only
      split
      · exact hset
      · exact hset.trans (applyEvaluation_written fun _ => directRelatives_mem dag run)

theorem getDepStatuses_written (dep : TIDep) :
    Session.Written ti d.session (getDepStatuses dag run ti task ctx d dep).session := by
  cases dep with
  | triggerRule => exact triggerRuleDep_written dag run
  | notPreviouslySkipped =>
    simp only [getDepStatuses, notPreviouslySkippedDep]
    split
    · exact .setTiState rfl
    · exact .refl _
  | _ => exact .refl _

theorem foldl_getDepStatuses_written (deps : List TIDep) (d : DepState) :
    Session.Written ti d.session (deps.foldl (getDepStatuses dag run ti task ctx) d).session := by
  induction deps generalizing d with
  | nil => exact .refl _
  | cons dep deps ih => exact (getDepStatuses_written dag run dep).trans (ih _)

/-- **Evaluating the dependencies of an instance writes to no other instance.** -/
theorem areDependenciesMet_written (s : Session) :
    Session.Written ti s (areDependenciesMet dag run s ti task ctx).session :=
  foldl_getDepStatuses_written dag run task.deps { session := s }

end

/-! ## What an object may become -/

/-- The instance may be visited: if the pass began with it, then in a schedulable state. -/
def Visitable (base : Session) (r : TIRef) : Prop :=
  ∀ ti, base.get r = some ti → State.isScheduleable ti.state = true

/-- `ti` became `ti'`: the unmapped instance may have got index 0, and the state may be one that a
dependency assigned to a schedulable instance, or `REMOVED`. -/
structure RowStep (removable : TaskId → Int → Prop) (r : TIRef) (ti ti' : TaskInstance) :
    Prop where
  mapIndex : ti'.mapIndex = ti.mapIndex ∨ ti.mapIndex = -1 ∧ ti'.mapIndex = 0
  state : ti'.state = ti.state ∨
    (State.isScheduleable ti.state = true ∧ isDependencyState ti'.state = true) ∨
    (ti'.state = some .removed ∧ removable r.taskId ti.mapIndex)

/-- The invariant of a pass that began with `base`. A task has at most one object without a map
index. -/
structure RowInv (base : Session) (removable : TaskId → Int → Prop) (s : Session) : Prop where
  row : ∀ r ti, base.get r = some ti → ∃ ti', s.get r = some ti' ∧ RowStep removable r ti ti'
  mapIndex_ge : ∀ r ti, s.get r = some ti → -1 ≤ ti.mapIndex
  unmapped : ∀ r r' ti ti', s.get r = some ti → s.get r' = some ti' → ti.mapIndex < 0 →
    ti'.mapIndex < 0 → r.taskId = r'.taskId → r = r'

namespace RowInv

variable {base s s' : Session} {removable : TaskId → Int → Prop} {t : TaskId}

/-- An update that only touches existing objects keeps the invariant if every single object stays
within what it may become. -/
theorem map {g : TIRef → TaskInstance → TaskInstance} (h : RowInv base removable s)
    (hget : ∀ r, s'.get r = (s.get r).map (g r))
    (hidx : ∀ r ti, s.get r = some ti →
      (g r ti).mapIndex = ti.mapIndex ∨ ti.mapIndex = -1 ∧ (g r ti).mapIndex = 0)
    (hstate : ∀ r ti₀ ti, base.get r = some ti₀ → s.get r = some ti → RowStep removable r ti₀ ti →
      (g r ti).state = ti.state ∨
      (State.isScheduleable ti₀.state = true ∧ isDependencyState (g r ti).state = true) ∨
      ((g r ti).state = some .removed ∧ removable r.taskId ti₀.mapIndex)) :
    RowInv base removable s' := by
  have hsome : ∀ r ti', s'.get r = some ti' → ∃ ti, s.get r = some ti ∧ g r ti = ti' := by
    intro r ti' h'
    rw [hget] at h'
    exact Option.map_eq_some_iff.mp h'
  refine ⟨?_, ?_, ?_⟩
  · intro r ti₀ h₀
    obtain ⟨ti, hti, hstep⟩ := h.row r ti₀ h₀
    refine ⟨g r ti, by rw [hget, hti]; rfl, ?_, ?_⟩
    · have h₁ := hstep.mapIndex
      have h₂ := hidx r ti hti
      omega
    · rcases hstate r ti₀ ti h₀ hti hstep with heq | h'
      · rw [heq]; exact hstep.state
      · exact .inr h'
  · intro r ti' hti'
    obtain ⟨ti, hti, rfl⟩ := hsome r ti' hti'
    have h₁ := h.mapIndex_ge r ti hti
    have h₂ := hidx r ti hti
    omega
  · intro r r' ti ti' hti hti' hneg hneg' htask
    obtain ⟨tiOld, hold, rfl⟩ := hsome r ti hti
    obtain ⟨tiOld', hold', rfl⟩ := hsome r' ti' hti'
    have h₁ := hidx r tiOld hold
    have h₂ := hidx r' tiOld' hold'
    exact h.unmapped r r' tiOld tiOld' hold hold' (by omega) (by omega) htask

theorem flush (h : RowInv base removable s) : RowInv base removable s.flush :=
  h.map (fun r => s.get_flush r) (fun _ _ _ => .inl rfl) (fun _ _ _ _ _ _ => .inl rfl)

/-- Assigning to an object that may be visited. -/
theorem assign {r : TIRef} {f : TaskInstance → TaskInstance} (h : RowInv base removable s)
    (hv : Visitable base r)
    (hidx : ∀ ti, s.get r = some ti →
      (f ti).mapIndex = ti.mapIndex ∨ ti.mapIndex = -1 ∧ (f ti).mapIndex = 0)
    (hstate : ∀ ti, (f ti).state = ti.state ∨ isDependencyState (f ti).state = true) :
    RowInv base removable (s.assign r f) := by
  refine h.map (g := fun r' ti => if r' = r then f ti else ti) (fun r' => ?_) ?_ ?_
  · rw [Session.get_assign]
    by_cases hr : r' = r
    · subst hr; simp
    · simp [hr]
  · intro r' ti hti
    split
    · next hr => subst hr; exact hidx ti hti
    · exact .inl rfl
  · intro r' ti₀ ti h₀ _ _
    split
    · next hr =>
      subst hr
      rcases hstate ti with h' | h'
      · exact .inl h'
      · exact .inr (.inl ⟨hv ti₀ h₀, h'⟩)
    · exact .inl rfl

theorem setState {r : TIRef} {state : TIState} (h : RowInv base removable s)
    (hv : Visitable base r) (hs : isDependencyState state = true) :
    RowInv base removable (s.setState r state) :=
  h.assign hv (fun _ _ => .inl rfl) (fun _ => .inr hs)

theorem written {r : TIRef} (h : RowInv base removable s) (hv : Visitable base r)
    (hw : Session.Written r s s') : RowInv base removable s' := by
  rcases hw with rfl | ⟨state, hs, rfl⟩
  · exact h
  · exact h.setState hv hs

/-- Setting `REMOVED` where the current map index allows it. -/
theorem removeWhere {f : TaskInstance → TaskInstance} (h : RowInv base removable s)
    (hidx : ∀ ti, (f ti).mapIndex = ti.mapIndex)
    (hstate : ∀ ti, (f ti).state = ti.state ∨
      ((f ti).state = some .removed ∧ removable t ti.mapIndex))
    (hneg : removable t (-1)) : RowInv base removable (s.assignAll t f) := by
  refine h.map (g := fun r ti => if r.taskId = t then f ti else ti) (fun r => ?_) ?_ ?_
  · rw [Session.get_assignAll]
    by_cases hr : r.taskId = t <;> simp [hr]
  · intro r ti _
    split
    · exact .inl (hidx ti)
    · exact .inl rfl
  · intro r ti₀ ti h₀ hti hstep
    split
    · next hr =>
      subst hr
      rcases hstate ti with h' | ⟨h', hrem⟩
      · exact .inl h'
      · refine .inr (.inr ⟨h', ?_⟩)
        rcases hstep.mapIndex with heq | ⟨heq, -⟩
        · rwa [← heq]
        · rwa [heq]
    · exact .inl rfl

theorem add {ti : TaskInstance} (h : RowInv base removable s) (hti : 0 ≤ ti.mapIndex) :
    RowInv base removable (s.add t ti) := by
  refine ⟨?_, ?_, ?_⟩
  · intro r ti₀ h₀
    obtain ⟨ti', hti', hstep⟩ := h.row r ti₀ h₀
    exact ⟨ti', Session.get_add_of_some hti', hstep⟩
  · intro r ti' hti'
    rw [Session.get_add] at hti'
    split at hti'
    · cases hti'; omega
    · exact h.mapIndex_ge r ti' hti'
  · intro r r' tiA tiB hA hB hnegA hnegB htask
    rw [Session.get_add] at hA hB
    split at hA
    · cases hA; omega
    split at hB
    · cases hB; omega
    · exact h.unmapped r r' tiA tiB hA hB hnegA hnegB htask

/-- A new object is none that the pass began with. -/
theorem visitable_new (h : RowInv base removable s) (t : TaskId) :
    Visitable base ⟨t, (s.tis t).length⟩ := by
  intro ti₀ h₀
  obtain ⟨ti, hti, -⟩ := h.row _ ti₀ h₀
  rw [Session.get_new] at hti
  cases hti

/-! ### Expansion and revision -/

theorem findTi_spec {s : Session} {t : TaskId} {p : TaskInstance → Bool} {r : TIRef}
    (h : s.findTi t p = some r) : r.taskId = t ∧ ∃ ti, s.get r = some ti ∧ p ti = true := by
  simp only [Session.findTi, Option.map_eq_some_iff] at h
  obtain ⟨i, hi, rfl⟩ := h
  obtain ⟨hlt, hp, -⟩ := List.findIdx?_eq_some_iff_getElem.mp hi
  exact ⟨rfl, _, List.getElem?_eq_getElem hlt, hp⟩

theorem currentMaxMapping_ge (s : Session) (t : TaskId) : -1 ≤ s.currentMaxMapping t := by
  have hfold : ∀ (tis : List TaskInstance) (m : Int), -1 ≤ m →
      -1 ≤ tis.foldl (fun m ti => if ti.mapIndex > m then ti.mapIndex else m) m := by
    intro tis
    induction tis with
    | nil => exact fun _ hm => hm
    | cons ti tis ih =>
      intro m hm
      refine ih _ ?_
      dsimp only
      split <;> omega
  exact hfold _ _ (by omega)

theorem addTis (state : TIState) {start : Int} (h : RowInv base removable s) (hs : 0 ≤ start)
    (n : Nat) : RowInv base removable (s.addTis t state start n).1 ∧
      ∀ r ∈ (s.addTis t state start n).2, Visitable base r := by
  induction n with
  | zero => exact ⟨h, fun _ hr => by cases hr⟩
  | succ n ih =>
    obtain ⟨hinv, hvis⟩ := ih
    refine ⟨hinv.add (by dsimp only; omega), fun r hr => ?_⟩
    rcases List.mem_append.mp hr with hr | hr
    · exact hvis r hr
    · rw [List.mem_singleton.mp hr]
      exact hinv.visitable_new t

theorem addMissing {existing : List Int} (h : RowInv base removable s) (n : Nat) :
    RowInv base removable (s.addMissing t existing n).1 := by
  induction n with
  | zero => exact h
  | succ n ih =>
    simp only [Session.addMissing]
    split
    · exact ih
    · exact (ih.add (by dsimp only; omega)).flush

/-- The unmapped instance that expansion finds is the one that was visited. -/
theorem findTi_unmapped {r u : TIRef} {p : TaskInstance → Bool} (h : RowInv base removable s)
    (hr : s.mapIndex r < 0) (hp : ∀ ti, p ti = true → ti.mapIndex = -1)
    (hu : s.findTi r.taskId p = some u) : u = r := by
  obtain ⟨htask, ti, hti, hpti⟩ := findTi_spec hu
  obtain ⟨tiR, hR⟩ : ∃ tiR, s.get r = some tiR := by
    cases hg : s.get r with
    | none => simp [Session.mapIndex, hg] at hr
    | some tiR => exact ⟨tiR, rfl⟩
  rw [Session.mapIndex_eq hR] at hr
  have hidx := hp ti hpti
  exact h.unmapped u r ti tiR hti hR (by omega) hr htask

theorem expandUnmapped {r : TIRef} (isPartial : Bool) (total : Option Nat)
    (h : RowInv base removable s) (hv : Visitable base r) (hr : s.mapIndex r < 0) :
    RowInv base removable (s.expandUnmapped isPartial r.taskId total).1 ∧
      ∀ r' ∈ (s.expandUnmapped isPartial r.taskId total).2.1, Visitable base r' := by
  unfold Session.expandUnmapped
  split
  · exact ⟨h, fun _ h' => by cases h'⟩
  · next u hu =>
    obtain rfl : u = r := h.findTi_unmapped hr (by simp +contextual) hu
    match total with
    | none =>
      refine ⟨?_, fun _ h' => by cases h'⟩
      dsimp only
      split
      · exact h
      · exact h.setState hv rfl
    | some 0 => exact ⟨h.setState hv rfl, fun _ h' => by cases h'⟩
    | some (n + 1) =>
      dsimp only
      split
      · exact ⟨h.assign hv (fun _ _ => .inl rfl) (fun _ => .inl rfl), fun _ h' => by cases h'⟩
      · refine ⟨RowInv.flush (h.assign hv (fun ti hti => ?_) (fun _ => .inl rfl)),
          fun r' h' => by rwa [List.mem_singleton.mp h']⟩
        refine .inr ⟨?_, rfl⟩
        obtain ⟨-, tiU, hU, hp⟩ := findTi_spec hu
        rw [hti] at hU
        cases hU
        simp only [decide_eq_true_eq] at hp
        exact hp.2.1

/-- **Expansion only touches the instance visited, but for setting `REMOVED` where the map index is
outside the new length.** -/
theorem expandTo {r : TIRef} {isPartial : Bool} {total : Option Nat}
    (h : RowInv base removable s) (hv : Visitable base r) (hr : s.mapIndex r < 0)
    (hrem : ∀ i, inRange i (total.getD 0) = false → removable r.taskId i) :
    RowInv base removable (s.expandTo isPartial r.taskId total).1 ∧
      ∀ r' ∈ (s.expandTo isPartial r.taskId total).2, Visitable base r' := by
  obtain ⟨hinv₁, hvis₁⟩ := h.expandUnmapped isPartial total hv hr
  simp only [Session.expandTo]
  generalize s.expandUnmapped isPartial r.taskId total = e at hinv₁ hvis₁ ⊢
  obtain ⟨s₁, unmapped, state⟩ := e
  dsimp only at hinv₁ hvis₁ ⊢
  have hstart : 0 ≤ s₁.currentMaxMapping r.taskId + 1 := by
    have := currentMaxMapping_ge s₁ r.taskId
    omega
  generalize (if total.getD 0 < 1 then 0
    else ((total.getD 0 : Int) - (s₁.currentMaxMapping r.taskId + 1)).toNat) = n
  obtain ⟨hinv₂, hvis₂⟩ := hinv₁.addTis (t := r.taskId) state hstart n
  refine ⟨(hinv₂.removeWhere (t := r.taskId) ?_ ?_ ?_).flush, fun r' hr' => ?_⟩
  · intro ti
    split <;> rfl
  · intro ti
    split
    · next hc =>
      refine .inr ⟨rfl, hrem _ ?_⟩
      simp only [inRange, decide_eq_false_iff_not, not_and]
      omega
    · exact .inl rfl
  · exact hrem _ (by simp [inRange])
  · rcases List.mem_append.mp hr' with h' | h'
    · exact hvis₁ r' h'
    · exact hvis₂ r' h'

theorem reviseMapIndexes {run : RunData} {task : Operator} (h : RowInv base removable s)
    (hrem : ∀ n i, task.getMappedTiCount run s = .ok n → inRange i n = false →
      removable task.taskId i) :
    RowInv base removable (s.reviseMapIndexesIfMapped run task).1 := by
  unfold Session.reviseMapIndexesIfMapped
  split
  · exact h
  · next n hn =>
    refine addMissing ?_ n
    split
    · exact h
    · refine (h.removeWhere (t := task.taskId) ?_ ?_ (hrem n _ hn (by simp [inRange]))).flush
      · intro ti
        split <;> rfl
      · intro ti
        split
        · next hc => exact .inr ⟨rfl, hrem n _ hn (by simpa using hc.2)⟩
        · exact .inl rfl

end RowInv

end Airflow
