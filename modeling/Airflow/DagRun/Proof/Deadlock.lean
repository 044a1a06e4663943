import Airflow.DagRun.Proof.Dispatched
import Airflow.DagRun.Proof.Locality

/-!
# The ready pass that finds nothing, and the deadlock check

As long as nothing is expanded and nothing is ready, the evaluations of a pass do not influence
each other: each comes out as in the session the pass began with.

* `quietPass`: the outcome of a ready pass that makes nothing ready and expands nothing;
* `anyDependenciesMet_spec`: the outcome of the deadlock check;
* `premature_met_of_ready_met`: an instance whose dependencies were met in the ready pass has them
  met in the deadlock check.
-/

namespace Airflow

/-- The dependencies of an instance, evaluated in the session given. -/
def evaluate (dag : Dag) (run : RunData) (ctx : DepContext) (s : Session) (r : TIRef) : DepState :=
  match dag.getTask r.taskId with
  | some task => areDependenciesMet dag run s r task ctx
  | none => { session := s, met := false }

/-! ## Sessions that differ in the states of some objects -/

/-- `s'` is `s` but for states, in memory, of objects in `S`. -/
structure WrittenOn (S : TIRef → Prop) (s s' : Session) : Prop where
  stored : ∀ t, SameStored s s' t
  get : ∀ r, ¬S r → s'.get r = s.get r

namespace WrittenOn

variable {S S' : TIRef → Prop} {s s' s'' : Session} {dag : Dag} {ctx : DepContext} {ti : TIRef}
  {task : Operator}

theorem refl (S : TIRef → Prop) (s : Session) : WrittenOn S s s :=
  ⟨fun _ => .refl _ _, fun _ _ => rfl⟩

theorem mono (h : WrittenOn S s s') (hS : ∀ r, S r → S' r) : WrittenOn S' s s' :=
  ⟨h.stored, fun r hr => h.get r fun hs => hr (hS r hs)⟩

theorem trans (h : WrittenOn S s s') (h' : WrittenOn S s' s'') : WrittenOn S s s'' :=
  ⟨fun t => (h.stored t).trans (h'.stored t), fun r hr => (h'.get r hr).trans (h.get r hr)⟩

theorem of_written (h : Session.Written ti s s') : WrittenOn (· = ti) s s' := by
  refine ⟨h.sameStored, fun r hr => ?_⟩
  rcases h with rfl | ⟨state, -, rfl⟩
  · rfl
  · exact Session.get_assign_of_ne _ hr

theorem state (h : WrittenOn S s s') {r : TIRef} (hr : ¬S r) : s'.state r = s.state r := by
  simp only [Session.state, h.get r hr]

theorem isSome (h : WrittenOn S s s') (r : TIRef) : (s'.get r).isSome = (s.get r).isSome := by
  have hmap := (h.stored r.taskId).get rfl
  rw [← Option.isSome_map, ← hmap, Option.isSome_map]

theorem readAgree (h : WrittenOn S s s') (hfin : ∀ r ∈ ctx.finishedTis, ¬S r) :
    ReadAgree dag ctx ti task s s' :=
  ⟨(h.stored _).fixed.get rfl, fun t _ => (h.stored t).fixed, fun t _ => (h.stored t).fixed,
    fun r hr _ => (h.state (hfin r hr)).symm, fun t _ => (h.stored t).unfinishedTiExists⟩

theorem evalAgree (h : WrittenOn S s s') (hfin : ∀ r ∈ ctx.finishedTis, ¬S r) (hti : ¬S ti) :
    EvalAgree dag ctx ti task s s' :=
  ⟨h.readAgree hfin, (h.state hti).symm⟩

/-- A session whose written states are the old ones is the old session. -/
theorem eq_of_state (h : WrittenOn S s s') (hstate : ∀ r, s'.state r = s.state r) : s' = s := by
  have hget : ∀ r, s'.get r = s.get r := by
    intro r
    have hmap := (h.stored r.taskId).get rfl
    have hst := hstate r
    simp only [Session.state] at hst
    cases hx : s.get r with
    | none => rw [hx] at hmap; exact Option.map_eq_none_iff.mp hmap.symm
    | some x =>
      rw [hx] at hmap hst
      obtain ⟨x', hx', heq⟩ := Option.map_eq_some_iff.mp hmap.symm
      rw [hx'] at hst ⊢
      obtain ⟨_, _, _, _, _, _, _⟩ := x
      obtain ⟨_, _, _, _, _, _, _⟩ := x'
      simp_all [TaskInstance.stored]
  obtain ⟨tis⟩ := s
  obtain ⟨tis'⟩ := s'
  congr 1
  funext t
  exact List.ext_getElem? fun i => hget ⟨t, i⟩

end WrittenOn

section
variable {dag : Dag} (run : RunData) {ctx : DepContext} {s s' : Session} {r : TIRef}
  {S : TIRef → Prop}

theorem evaluate_written (dag : Dag) (ctx : DepContext) (s : Session) (r : TIRef) :
    Session.Written r s (evaluate dag run ctx s r).session := by
  unfold evaluate
  split
  · exact areDependenciesMet_written dag run s
  · exact .refl s

theorem evaluate_eq {task : Operator} (htask : dag.getTask r.taskId = some task) :
    evaluate dag run ctx s r = areDependenciesMet dag run s r task ctx := by
  unfold evaluate
  rw [htask]

/-- Writes to other unfinished instances do not change an evaluation. -/
theorem evaluate_agree (dag : Dag) (h : WrittenOn S s s') (hfin : ∀ r ∈ ctx.finishedTis, ¬S r) (hr : ¬S r)
    (hget : (s.get r).isSome) :
    (evaluate dag run ctx s' r).met = (evaluate dag run ctx s r).met ∧
    (evaluate dag run ctx s' r).haveChangedTiStates =
      (evaluate dag run ctx s r).haveChangedTiStates ∧
    (evaluate dag run ctx s' r).session.state r = (evaluate dag run ctx s r).session.state r := by
  unfold evaluate
  split
  · next task _ =>
    have heval : EvalAgree dag ctx r task s s' := h.evalAgree hfin hr
    have hd := areDependenciesMet_agree run heval hget
    exact ⟨hd.met.symm, hd.changed.symm, hd.session.state.symm⟩
  · exact ⟨rfl, rfl, h.state hr⟩

end

/-! ## The cases of a visit -/

section
variable {dag : Dag} (run : RunData) (ctx : DepContext) (p : ReadyPass) {r : TIRef}

/-- What a visit does. -/
theorem ReadyPass.visit_cases {task : Operator} (htask : dag.getTask r.taskId = some task) :
    let e := evaluate dag run ctx p.session r
    (e.met = false ∧ p.visit dag run ctx r =
      { p with session := e.session, oldStates := p.oldStates ++ [(r, p.session.state r)] }) ∨
    (e.met = true ∧ expandMappedTaskIfNeeded dag run e.session task r = none ∧
      State.isScheduleable (e.session.state r) = false ∧
      p.visit dag run ctx r = { p with session := e.session }) ∨
    (e.met = true ∧ State.isScheduleable (e.session.state r) = true ∧
      (p.visit dag run ctx r).expansionHappened = p.expansionHappened ∧
      r ∈ (p.visit dag run ctx r).readyTis) ∨
    (p.visit dag run ctx r).expansionHappened = true := by
  dsimp only
  rw [evaluate_eq run htask]
  unfold ReadyPass.visit
  rw [htask]
  dsimp only
  cases hmet : (areDependenciesMet dag run p.session r task ctx).met with
  | false => exact .inl ⟨rfl, rfl⟩
  | true =>
    right
    simp only [Bool.not_true, Bool.false_eq_true, if_false]
    cases he : expandMappedTaskIfNeeded dag run
        (areDependenciesMet dag run p.session r task ctx).session task r with
    | some x => exact .inr (.inr rfl)
    | none =>
      dsimp only [ReadyPass.markReady]
      cases hs : State.isScheduleable
          ((areDependenciesMet dag run p.session r task ctx).session.state r) with
      | false => exact .inl ⟨trivial, rfl, rfl, rfl⟩
      | true =>
        refine .inr (.inl ⟨trivial, rfl, ?_⟩)
        simp only [Bool.not_true, Bool.false_eq_true, if_false]
        split
        · exact ⟨rfl, by simp⟩
        · exact ⟨rfl, by simp⟩

theorem ReadyPass.visit_readyTis (dag : Dag) (r : TIRef) :
    p.readyTis <+: (p.visit dag run ctx r).readyTis := by
  unfold ReadyPass.visit ReadyPass.markReady
  split
  · exact List.prefix_refl _
  · dsimp only
    split
    · exact List.prefix_refl _
    · split
      · exact List.prefix_refl _
      · split
        · exact List.prefix_refl _
        · split
          · exact List.prefix_append _ _
          · dsimp only
            rw [List.append_assoc]
            exact List.prefix_append _ _

theorem ReadyPass.visit_expansionHappened (dag : Dag) (r : TIRef)
    (h : p.expansionHappened = true) : (p.visit dag run ctx r).expansionHappened = true := by
  unfold ReadyPass.visit ReadyPass.markReady
  split
  · exact h
  · dsimp only
    split
    · exact h
    · split
      · rfl
      · split
        · exact h
        · split <;> exact h

end

/-! ## A length is never `NotMapped` for a mapped task -/

theorem mulCounts_ne {counts : List (Except MapError Nat)}
    (h : ∀ c ∈ counts, c ≠ .error .notMapped) : mulCounts counts ≠ .error .notMapped := by
  induction counts with
  | nil => exact fun heq => by cases heq
  | cons c counts ih =>
    have hc := h c (List.mem_cons_self ..)
    have hrest := ih fun c' hc' => h c' (List.mem_cons_of_mem _ hc')
    cases c with
    | error e => exact fun heq => hc (by simpa [mulCounts] using heq)
    | ok n =>
      simp only [mulCounts]
      cases hm : mulCounts counts with
      | error e => exact fun heq => hrest (by rw [hm]; simpa [Except.map] using heq)
      | ok m => exact fun heq => by cases heq

theorem ofLength_ne (length : Option Nat) : ofLength length ≠ .error .notMapped := by
  cases length <;> exact fun heq => by cases heq

theorem getTotalMapLength_ne (run : RunData) (s : Session) (e : ExpandInput) :
    e.getTotalMapLength run s ≠ .error .notMapped := by
  match e with
  | .dictOfLists [] => exact fun heq => by cases heq
  | .dictOfLists (v :: vs) =>
    refine mulCounts_ne fun c hc => ?_
    obtain ⟨v', -, rfl⟩ := List.mem_map.mp hc
    exact ofLength_ne _
  | .listOfDicts value => exact ofLength_ne _

/-- Only a task without an expand input of its own is not mapped. -/
theorem expandInput_of_notMapped {run : RunData} {s : Session} {task : Operator}
    (h : task.getMappedTiCount run s = .error .notMapped) : task.expandInput = none := by
  unfold Operator.getMappedTiCount at h
  cases he : task.expandInput with
  | none => rfl
  | some e =>
    rw [he] at h
    dsimp only at h
    cases hl : e.getTotalMapLength run s with
    | error err =>
      rw [hl] at h
      exact absurd (hl.trans (congrArg Except.error (by simpa using h))) (getTotalMapLength_ne run s e)
    | ok n =>
      rw [hl] at h
      dsimp only at h
      split at h <;> cases h

theorem expandMappedTaskIfNeeded_none {dag : Dag} {run : RunData} {s : Session} {task : Operator}
    {ti : TIRef} (h : expandMappedTaskIfNeeded dag run s task ti = none) :
    0 ≤ s.mapIndex ti ∨ task.expandInput = none := by
  unfold expandMappedTaskIfNeeded at h
  split at h
  · exact .inl (by omega)
  · right
    unfold Session.expandMappedTask at h
    split at h
    · next hc => exact expandInput_of_notMapped hc
    · cases h
    · cases h

/-! ## Which dependencies pass -/

section
variable (dag : Dag) (run : RunData) (s : Session) (ti : TIRef) (task : Operator) (ctx : DepContext)

/-- The statuses of `TriggerRuleDep` are passing. -/
def triggerRulePasses : Bool :=
  if task.upstreamTaskIds.isEmpty ∨ task.triggerRule = .always then true
  else if task.isTeardown ∨ dag.getUpstreamsOnlySetups task = [] then
    (directRelatives dag run s ti task ctx).passed
  else (setupConstraint dag run s ti task ctx).passed && (directRelatives dag run s ti task ctx).passed

/-- The statuses of a dependency are passing. -/
def depPasses : TIDep → Bool
  | .notInRetryPeriod => notInRetryPeriod s ti ctx
  | .prevDagrun => prevDagrun dag run task
  | .triggerRule => triggerRulePasses dag run s ti task ctx
  | .notPreviouslySkipped => !previouslySkipped dag run task ctx
  | .mappedTaskIsExpanded => mappedTaskIsExpanded s ti ctx
  | .readyToReschedule => readyToReschedule run s ti task ctx

end

section
variable {dag : Dag} {run : RunData} {s s' : Session} {ti : TIRef} {task : Operator}
  {ctx : DepContext}

theorem ReadAgree.directRelatives (h : ReadAgree dag ctx ti task s s') :
    directRelatives dag run s' ti task ctx = directRelatives dag run s ti task ctx := by
  have hv : KeepsView dag (fun _ => true) task := keepsView_true
  have hkeep := directRelatives_keep run hv h (by simp : ctx.finishedTis = _)
  rwa [Dag.keep_true, Dag.restrict_true] at hkeep

theorem ReadAgree.setupConstraint (h : ReadAgree dag ctx ti task s s') :
    setupConstraint dag run s' ti task ctx = setupConstraint dag run s ti task ctx := by
  have hv : KeepsView dag (fun _ => true) task := keepsView_true
  have hkeep := setupConstraint_keep run hv h (by simp : ctx.finishedTis = _)
  rwa [Dag.keep_true, Dag.restrict_true] at hkeep

theorem ReadAgree.triggerRulePasses (h : ReadAgree dag ctx ti task s s') :
    triggerRulePasses dag run s' ti task ctx = triggerRulePasses dag run s ti task ctx := by
  simp only [Airflow.triggerRulePasses, h.directRelatives, h.setupConstraint]

theorem applyEvaluation_met (d : DepState) (e : Evaluation) :
    (applyEvaluation ti d e).1.met = (d.met && e.passed) := by
  unfold applyEvaluation
  split <;> rfl

/-- A dependency passes or fails whatever states the others have assigned to `ti`. -/
theorem getDepStatuses_met (hti : ti ∉ ctx.finishedTis) (d : DepState) (dep : TIDep) :
    (getDepStatuses dag run ti task ctx d dep).met =
      (d.met && depPasses dag run d.session ti task ctx dep) := by
  cases dep with
  | triggerRule =>
    simp only [getDepStatuses, triggerRuleDep, evaluateTriggerRule, depPasses, triggerRulePasses]
    split
    · simp
    · split
      · exact applyEvaluation_met _ _
      · have hw : WrittenOn (· = ti) d.session
            (applyEvaluation ti d (setupConstraint dag run d.session ti task ctx)).1.session :=
          .of_written (applyEvaluation_written fun _ => setupConstraint_mem dag run)
        have hread : ReadAgree dag ctx ti task d.session
            (applyEvaluation ti d (setupConstraint dag run d.session ti task ctx)).1.session :=
          hw.readAgree fun r hr heq => hti (heq ▸ hr)
        rw [hread.directRelatives]
        split
        · next hstop =>
          have hfail : (setupConstraint dag run d.session ti task ctx).passed = false := by
            simpa using hstop.1
          rw [applyEvaluation_met, hfail]
          simp
        · rw [applyEvaluation_met, applyEvaluation_met, Bool.and_assoc]
  | notPreviouslySkipped =>
    simp only [getDepStatuses, notPreviouslySkippedDep, depPasses]
    split
    · next hskip => simp [hskip]
    · next hskip => simp [hskip]
  | _ => rfl

/-- A status that does not read the state of `ti`. -/
def TIDep.stateless : TIDep → Bool
  | .notInRetryPeriod | .readyToReschedule | .mappedTaskIsExpanded => false
  | _ => true

theorem depPasses_agree (h : ReadAgree dag ctx ti task s s') {dep : TIDep}
    (hdep : dep.stateless = true) :
    depPasses dag run s' ti task ctx dep = depPasses dag run s ti task ctx dep := by
  cases dep with
  | triggerRule => exact h.triggerRulePasses
  | prevDagrun => rfl
  | notPreviouslySkipped => rfl
  | _ => cases hdep

/-- Where all dependencies are met, each of them passes. -/
theorem depPasses_of_met (hti : ti ∉ ctx.finishedTis)
    (hmet : (areDependenciesMet dag run s ti task ctx).met = true) {dep : TIDep}
    (hdep : dep ∈ task.deps) (hless : dep.stateless = true) :
    depPasses dag run s ti task ctx dep = true := by
  have hfold : ∀ (deps : List TIDep) (d : DepState), WrittenOn (· = ti) s d.session →
      (deps.foldl (getDepStatuses dag run ti task ctx) d).met = true →
      d.met = true ∧ ∀ dep ∈ deps, dep.stateless = true →
        depPasses dag run s ti task ctx dep = true := by
    intro deps
    induction deps with
    | nil => exact fun d _ h => ⟨h, fun _ hdep => by cases hdep⟩
    | cons dep deps ih =>
      intro d hw hmet
      have hw' : WrittenOn (· = ti) s (getDepStatuses dag run ti task ctx d dep).session :=
        hw.trans (.of_written (getDepStatuses_written dag run dep))
      obtain ⟨hstep, hrest⟩ := ih _ hw' hmet
      rw [getDepStatuses_met hti, Bool.and_eq_true] at hstep
      refine ⟨hstep.1, fun dep' hdep' hless' => ?_⟩
      rcases List.mem_cons.mp hdep' with rfl | hdep'
      · have hread : ReadAgree dag ctx ti task s d.session :=
          hw.readAgree fun r hr heq => hti (heq ▸ hr)
        rw [← depPasses_agree hread hless']
        exact hstep.2
      · exact hrest dep' hdep' hless'
  exact (hfold task.deps _ (.refl _ s) hmet).2 dep hdep hless

/-- All dependencies that pass whatever the state of `ti` are met together. -/
theorem met_of_depPasses (hti : ti ∉ ctx.finishedTis)
    (hpass : ∀ s', WrittenOn (· = ti) s s' → ∀ dep ∈ task.deps,
      depPasses dag run s' ti task ctx dep = true) :
    (areDependenciesMet dag run s ti task ctx).met = true := by
  have hfold : ∀ (deps : List TIDep) (d : DepState), (∀ dep ∈ deps, dep ∈ task.deps) →
      WrittenOn (· = ti) s d.session → d.met = true →
      (deps.foldl (getDepStatuses dag run ti task ctx) d).met = true := by
    intro deps
    induction deps with
    | nil => exact fun d _ _ h => h
    | cons dep deps ih =>
      intro d hmem hw hmet
      refine ih _ (fun dep' h' => hmem dep' (List.mem_cons_of_mem _ h'))
        (hw.trans (.of_written (getDepStatuses_written dag run dep))) ?_
      rw [getDepStatuses_met hti, hmet, hpass _ hw dep (hmem dep (List.mem_cons_self ..))]
      rfl
  exact hfold task.deps { session := s } (fun _ h => h) (.refl _ s) rfl

/-- **An instance whose dependencies are met in the ready pass has them met in the deadlock check,
whatever states the pass assigned to unfinished instances.** -/
theorem premature_met_of_ready_met {finishedTis : List TIRef} {S : TIRef → Prop}
    (hw : WrittenOn S s s') (hfin : ∀ r ∈ finishedTis, ¬S r) (hti : ti ∉ finishedTis)
    (hmet : (areDependenciesMet dag run s ti task (readyContext finishedTis)).met = true)
    (hidx : 0 ≤ s.mapIndex ti ∨ task.expandInput = none) :
    (areDependenciesMet dag run s' ti task (prematureContext finishedTis)).met = true := by
  refine met_of_depPasses hti fun s'' hw'' dep hdep => ?_
  have hready : dep.stateless = true →
      depPasses dag run s ti task (readyContext finishedTis) dep = true :=
    depPasses_of_met hti hmet hdep
  have hboth : WrittenOn (fun r => S r ∨ r = ti) s s'' :=
    (hw.mono fun _ hr => .inl hr).trans (hw''.mono fun _ hr => .inr hr)
  have hread : ReadAgree dag (readyContext finishedTis) ti task s s'' :=
    hboth.readAgree fun r hr hor => hor.elim (hfin r hr) fun heq => hti (heq ▸ hr)
  cases dep with
  | notInRetryPeriod => rfl
  | readyToReschedule => simp [depPasses, readyToReschedule, prematureContext]
  | mappedTaskIsExpanded =>
    have hsome : task.expandInput ≠ none := fun heq => by
      simpa [heq] using task.deps_mapped hdep
    have hge : 0 ≤ s.mapIndex ti := hidx.resolve_right hsome
    rw [hread.self.mapIndex] at hge
    simp only [depPasses, mappedTaskIsExpanded, prematureContext, Bool.false_or,
      decide_eq_true_eq]
    omega
  | prevDagrun => exact hready rfl
  | triggerRule => exact hread.triggerRulePasses.trans (hready rfl)
  | notPreviouslySkipped => exact hready rfl

end

/-! ## The ready pass that finds nothing -/

/-- The instances of a pass: distinct, existing, of tasks of the DAG, and none of them among the
finished ones. -/
structure Visited (dag : Dag) (s : Session) (finishedTis l : List TIRef) : Prop where
  nodup : l.Nodup
  get : ∀ r ∈ l, (s.get r).isSome
  task : ∀ r ∈ l, (dag.getTask r.taskId).isSome
  unfinished : ∀ r ∈ l, r ∉ finishedTis

/-- The outcome of a pass over `l` that found nothing: every instance got the state that its
dependencies give it in the session the pass began with. -/
structure QuietPass (dag : Dag) (run : RunData) (s : Session) (finishedTis l : List TIRef)
    (p : ReadyPass) : Prop where
  additional : p.additionalTis = []
  written : WrittenOn (· ∈ l) s p.session
  state : ∀ r ∈ l,
    p.session.state r = (evaluate dag run (readyContext finishedTis) s r).session.state r
  unmet : ∀ r ∈ l, (evaluate dag run (readyContext finishedTis) s r).met = false →
    (r, s.state r) ∈ p.oldStates
  met : ∀ r ∈ l, (evaluate dag run (readyContext finishedTis) s r).met = true →
    ∃ task, dag.getTask r.taskId = some task ∧ (0 ≤ s.mapIndex r ∨ task.expandInput = none)

section
variable {dag : Dag} {run : RunData} {s : Session} {finishedTis l : List TIRef}

theorem Visited.of_append {l' : List TIRef} (h : Visited dag s finishedTis (l ++ l')) :
    Visited dag s finishedTis l :=
  ⟨h.nodup.sublist (List.sublist_append_left l l'), fun r hr => h.get r (List.mem_append_left _ hr),
    fun r hr => h.task r (List.mem_append_left _ hr),
    fun r hr => h.unfinished r (List.mem_append_left _ hr)⟩

theorem passAfter_append (l : List TIRef) (r : TIRef) :
    passAfter dag run s finishedTis (l ++ [r]) =
      (passAfter dag run s finishedTis l).visit dag run (readyContext finishedTis) r := by
  simp only [passAfter, List.foldl_append, List.foldl_cons, List.foldl_nil]

/-- One more instance that gets its state from its dependencies. -/
theorem QuietPass.snoc {p p' : ReadyPass} {r : TIRef}
    (h : QuietPass dag run s finishedTis l p) (hv : Visited dag s finishedTis (l ++ [r]))
    (hsession : p'.session = (evaluate dag run (readyContext finishedTis) p.session r).session)
    (hadd : p'.additionalTis = p.additionalTis) (hold : p.oldStates <+: p'.oldStates)
    (hunmet : (evaluate dag run (readyContext finishedTis) p.session r).met = false →
      (r, p.session.state r) ∈ p'.oldStates)
    (hmet : (evaluate dag run (readyContext finishedTis) p.session r).met = true →
      ∃ task, dag.getTask r.taskId = some task ∧ (0 ≤ s.mapIndex r ∨ task.expandInput = none)) :
    QuietPass dag run s finishedTis (l ++ [r]) p' := by
  have hrl : r ∉ l := fun hr =>
    (List.nodup_append.mp hv.nodup).2.2 r hr r (List.mem_singleton_self r) rfl
  have hfin : ∀ r' ∈ (readyContext finishedTis).finishedTis, ¬r' ∈ l :=
    fun r' hr' hl => hv.unfinished r' (List.mem_append_left _ hl) hr'
  obtain ⟨hm, -, hs⟩ := evaluate_agree run dag h.written hfin hrl (hv.get r (by simp))
  have hw := evaluate_written run dag (readyContext finishedTis) p.session r
  refine ⟨hadd.trans h.additional, ?_, ?_, ?_, ?_⟩
  · rw [hsession]
    refine (h.written.mono fun r' hr' => List.mem_append_left _ hr').trans
      ((WrittenOn.of_written hw).mono fun r' hr' => ?_)
    rw [hr']
    exact List.mem_append_right _ (List.mem_singleton_self r)
  · intro r' hr'
    rw [hsession]
    rcases List.mem_append.mp hr' with hr' | hr'
    · have hne : r' ≠ r := fun heq => hrl (heq ▸ hr')
      rw [(WrittenOn.of_written hw).state hne]
      exact h.state r' hr'
    · rw [List.mem_singleton.mp hr']
      exact hs
  · intro r' hr' hun
    rcases List.mem_append.mp hr' with hr' | hr'
    · exact hold.subset (h.unmet r' hr' hun)
    · rw [List.mem_singleton.mp hr'] at hun ⊢
      rw [← h.written.state hrl]
      exact hunmet (hm.trans hun)
  · intro r' hr' hme
    rcases List.mem_append.mp hr' with hr' | hr'
    · exact h.met r' hr' hme
    · rw [List.mem_singleton.mp hr'] at hme ⊢
      exact hmet (hm.trans hme)

/-- **A pass that makes nothing ready and expands nothing evaluates every instance as in the
session it began with.** -/
theorem quietPass (hv : Visited dag s finishedTis l)
    (hexp : (passAfter dag run s finishedTis l).expansionHappened = false)
    (hready : (passAfter dag run s finishedTis l).readyTis = []) :
    QuietPass dag run s finishedTis l (passAfter dag run s finishedTis l) := by
  induction l using List.reverseRecOn with
  | nil =>
    exact ⟨rfl, .refl _ s, fun _ hr => (List.not_mem_nil hr).elim,
      fun _ hr => (List.not_mem_nil hr).elim, fun _ hr => (List.not_mem_nil hr).elim⟩
  | append_singleton l r ih =>
    rw [passAfter_append] at hexp hready ⊢
    have hexp' : (passAfter dag run s finishedTis l).expansionHappened = false := by
      rw [Bool.eq_false_iff]
      intro h
      rw [ReadyPass.visit_expansionHappened run _ _ dag r h] at hexp
      cases hexp
    have hready' : (passAfter dag run s finishedTis l).readyTis = [] := by
      have hpre := ReadyPass.visit_readyTis run (readyContext finishedTis)
        (passAfter dag run s finishedTis l) dag r
      rw [hready] at hpre
      exact List.prefix_nil.mp hpre
    have hq := ih hv.of_append hexp' hready'
    obtain ⟨task, htask⟩ := Option.isSome_iff_exists.mp (hv.task r (by simp))
    generalize passAfter dag run s finishedTis l = p at hq hexp hready ⊢
    have hidx : (evaluate dag run (readyContext finishedTis) p.session r).session.mapIndex r =
        s.mapIndex r :=
      (((hq.written.stored r.taskId).trans ((evaluate_written run dag _ p.session r).sameStored
        r.taskId)).mapIndex rfl fun _ => rfl).symm
    rcases ReadyPass.visit_cases run (readyContext finishedTis) p htask with
      ⟨hmet, hvis⟩ | ⟨hmet, hnone, -, hvis⟩ | ⟨-, -, -, hmem⟩ | hexp''
    · rw [hvis]
      exact hq.snoc hv rfl rfl (List.prefix_append _ _) (fun _ => by simp)
        (fun h => by rw [hmet] at h; cases h)
    · rw [hvis]
      refine hq.snoc hv rfl rfl (List.prefix_refl _) (fun h => by rw [hmet] at h; cases h)
        (fun _ => ⟨task, htask, ?_⟩)
      rw [← hidx]
      exact expandMappedTaskIfNeeded_none hnone
    · rw [hready] at hmem
      cases hmem
    · rw [hexp] at hexp''
      cases hexp''

/-- The result of a pass that leaves every instance as it is. -/
def ReadyPass.unchanged (s : Session) (l : List TIRef) : ReadyPass where
  session := s
  oldStates := l.map fun r => (r, s.state r)

/-- A pass over instances whose dependencies are not met and assign nothing leaves everything as it
is. -/
theorem passAfter_of_quiet (htask : ∀ r ∈ l, (dag.getTask r.taskId).isSome)
    (hquiet : ∀ r ∈ l, (evaluate dag run (readyContext finishedTis) s r).met = false ∧
      (evaluate dag run (readyContext finishedTis) s r).session = s) :
    passAfter dag run s finishedTis l = .unchanged s l := by
  induction l using List.reverseRecOn with
  | nil => rfl
  | append_singleton l r ih =>
    rw [passAfter_append, ih (fun r' hr' => htask r' (List.mem_append_left _ hr'))
      fun r' hr' => hquiet r' (List.mem_append_left _ hr')]
    obtain ⟨task, ht⟩ := Option.isSome_iff_exists.mp (htask r (by simp))
    obtain ⟨hmet, hsession⟩ := hquiet r (by simp)
    rw [evaluate_eq run ht] at hmet hsession
    simp only [ReadyPass.visit, ReadyPass.unchanged, ht, hmet, hsession, List.map_append,
      List.map_cons, List.map_nil, Bool.not_false, if_true]

/-! ## The deadlock check -/

/-- The outcome of the deadlock check over `l`, when no dependencies are met. -/
structure CheckedUnmet (dag : Dag) (run : RunData) (ctx : DepContext) (s : Session)
    (l : List TIRef) (changed : Bool) (d : DepState) : Prop where
  unmet : ∀ r ∈ l, (evaluate dag run ctx s r).met = false
  written : WrittenOn (· ∈ l) s d.session
  state : ∀ r ∈ l, d.session.state r = (evaluate dag run ctx s r).session.state r
  changed : d.haveChangedTiStates =
    (changed || l.any fun r => (evaluate dag run ctx s r).haveChangedTiStates)

theorem anyDependenciesMet_cons (dag : Dag) (run : RunData) (ctx : DepContext) (d : DepState)
    (r : TIRef) (l : List TIRef) :
    anyDependenciesMet dag run ctx d (r :: l) =
      (let e := evaluate dag run ctx d.session r
       if e.met then ⟨e.session, d.haveChangedTiStates || e.haveChangedTiStates, true⟩
       else anyDependenciesMet dag run ctx
        ⟨e.session, d.haveChangedTiStates || e.haveChangedTiStates, false⟩ l) ∨
    dag.getTask r.taskId = none := by
  cases htask : dag.getTask r.taskId with
  | none => exact .inr rfl
  | some task =>
    left
    rw [evaluate_eq run htask, anyDependenciesMet, htask]

/-- The deadlock check writes to no instance but those it looks at. -/
theorem anyDependenciesMet_written (dag : Dag) (run : RunData) (ctx : DepContext) (l : List TIRef)
    (d : DepState) :
    WrittenOn (· ∈ l) d.session (anyDependenciesMet dag run ctx d l).session := by
  induction l generalizing d with
  | nil => exact .refl _ _
  | cons r l ih =>
    cases htask : dag.getTask r.taskId with
    | none =>
      rw [anyDependenciesMet, htask]
      exact (ih d).mono fun _ hr => List.mem_cons_of_mem _ hr
    | some task =>
      have hw : WrittenOn (· ∈ r :: l) d.session
          (areDependenciesMet dag run d.session r task ctx).session :=
        (WrittenOn.of_written (areDependenciesMet_written dag run d.session)).mono
          fun _ hr => hr ▸ List.mem_cons_self ..
      rw [anyDependenciesMet, htask]
      dsimp only
      split
      · exact hw
      · have hrest := ih ⟨(areDependenciesMet dag run d.session r task ctx).session,
          d.haveChangedTiStates ||
            (areDependenciesMet dag run d.session r task ctx).haveChangedTiStates, false⟩
        exact hw.trans (hrest.mono fun r' hr' => List.mem_cons_of_mem _ hr')

/-- **The deadlock check evaluates every instance as in the session it began with.** -/
theorem anyDependenciesMet_spec (run : RunData) {ctx : DepContext} {d : DepState} {S : TIRef → Prop}
    (hv : Visited dag s ctx.finishedTis l) (hw : WrittenOn S s d.session)
    (hS : ∀ r ∈ l, ¬S r) (hfin : ∀ r ∈ ctx.finishedTis, ¬S r) :
    ((anyDependenciesMet dag run ctx d l).met = true →
      ∃ r ∈ l, (evaluate dag run ctx s r).met = true) ∧
    ((anyDependenciesMet dag run ctx d l).met = false →
      (∀ r ∈ l, (evaluate dag run ctx s r).met = false) ∧
      WrittenOn (fun r => S r ∨ r ∈ l) s (anyDependenciesMet dag run ctx d l).session ∧
      (∀ r, r ∉ l → (anyDependenciesMet dag run ctx d l).session.state r = d.session.state r) ∧
      (∀ r ∈ l, (anyDependenciesMet dag run ctx d l).session.state r =
        (evaluate dag run ctx s r).session.state r) ∧
      (anyDependenciesMet dag run ctx d l).haveChangedTiStates = (d.haveChangedTiStates ||
        l.any fun r => (evaluate dag run ctx s r).haveChangedTiStates)) := by
  induction l generalizing d S with
  | nil =>
    refine ⟨fun h => by simp [anyDependenciesMet] at h, fun _ => ⟨fun _ hr => ?_, ?_,
      fun _ _ => rfl, fun _ hr => ?_, by simp [anyDependenciesMet]⟩⟩
    · cases hr
    · exact hw.mono fun r hr => .inl hr
    · cases hr
  | cons r l ih =>
    have hvl : Visited dag s ctx.finishedTis l :=
      ⟨(List.nodup_cons.mp hv.nodup).2, fun r' h' => hv.get r' (List.mem_cons_of_mem _ h'),
        fun r' h' => hv.task r' (List.mem_cons_of_mem _ h'),
        fun r' h' => hv.unfinished r' (List.mem_cons_of_mem _ h')⟩
    have hrl : r ∉ l := (List.nodup_cons.mp hv.nodup).1
    have hmem : r ∈ r :: l := List.mem_cons_self ..
    obtain ⟨hm, hc, hs⟩ := evaluate_agree run dag hw hfin (hS r hmem) (hv.get r hmem)
    have hwe := WrittenOn.of_written (evaluate_written run dag ctx d.session r)
    rcases anyDependenciesMet_cons dag run ctx d r l with heq | hnone
    · dsimp only at heq
      rw [heq]
      cases hmet : (evaluate dag run ctx d.session r).met with
      | true =>
        simp only [if_true]
        exact ⟨fun _ => ⟨r, hmem, hm.symm.trans hmet⟩, fun h => by cases h⟩
      | false =>
        simp only [Bool.false_eq_true, if_false]
        have hw' : WrittenOn (fun r' => S r' ∨ r' = r) s (evaluate dag run ctx d.session r).session :=
          (hw.mono fun _ h => .inl h).trans (hwe.mono fun _ h => .inr h)
        have hih := ih (S := fun r' => S r' ∨ r' = r)
          (d := ⟨(evaluate dag run ctx d.session r).session,
            d.haveChangedTiStates || (evaluate dag run ctx d.session r).haveChangedTiStates, false⟩)
          hvl hw'
          (fun r' hr' h => h.elim (hS r' (List.mem_cons_of_mem _ hr')) fun h => hrl (h ▸ hr'))
          (fun r' hr' h => h.elim (hfin r' hr') fun h => hv.unfinished r hmem (h ▸ hr'))
        refine ⟨fun h => ?_, fun h => ?_⟩
        · obtain ⟨r', hr', hmet'⟩ := hih.1 h
          exact ⟨r', List.mem_cons_of_mem _ hr', hmet'⟩
        · obtain ⟨hun, hwr, hout, hst, hch⟩ := hih.2 h
          refine ⟨?_, hwr.mono fun r' hr' => ?_, fun r' hr' => ?_, ?_, ?_⟩
          · intro r' hr'
            rcases List.mem_cons.mp hr' with rfl | hr'
            · exact hm.symm.trans hmet
            · exact hun r' hr'
          · rcases hr' with (h' | h') | h'
            · exact .inl h'
            · exact .inr (h' ▸ hmem)
            · exact .inr (List.mem_cons_of_mem _ h')
          · rw [hout r' fun h' => hr' (List.mem_cons_of_mem _ h')]
            exact hwe.state fun h' => hr' (h' ▸ hmem)
          · intro r' hr'
            rcases List.mem_cons.mp hr' with rfl | hr'
            · rw [hout r' hrl]
              exact hs
            · exact hst r' hr'
          · rw [hch, hc, List.any_cons, Bool.or_assoc]
    · have := hv.task r hmem
      rw [hnone] at this
      cases this

/-- The deadlock check of a whole list. -/
theorem arePrematureTis_spec (run : RunData) {s : Session} (hv : Visited dag s finishedTis l) :
    ((arePrematureTis dag run s l finishedTis).met = true →
      ∃ r ∈ l, (evaluate dag run (prematureContext finishedTis) s r).met = true) ∧
    ((arePrematureTis dag run s l finishedTis).met = false →
      CheckedUnmet dag run (prematureContext finishedTis) s l false
        (arePrematureTis dag run s l finishedTis)) := by
  have hv' : Visited dag s (prematureContext finishedTis).finishedTis l := hv
  obtain ⟨h₁, h₂⟩ := anyDependenciesMet_spec run (d := { session := s }) (S := fun _ => False) hv'
    (.refl _ s) (fun _ _ h => h) (fun _ _ h => h)
  refine ⟨h₁, fun h => ?_⟩
  obtain ⟨hun, hw, -, hst, hch⟩ := h₂ h
  exact ⟨hun, hw.mono fun r hr => hr.resolve_left id, hst, hch⟩

end

end Airflow
