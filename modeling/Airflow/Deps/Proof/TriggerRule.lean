import Airflow.Deps.TriggerRule
import Mathlib.Data.List.Forall2

/-!
# The trigger rule over a run's life: soundness of early decisions, and progress

The two directions in which the state-assigning cascade and the pass condition of a rule must
agree.

* `early_decision_sound_iff`: a decision taken while some upstream instance is unfinished is
  final, i.e. the pass condition is false however the others finish (`Completes`), except for the
  `REMOVED` decision of `ALL_SUCCESS`, which compares the map index with a success count that still
  grows (`RemovedEarly`).
* `decided_or_passes_iff`: once every upstream instance is finished the instance passes or is
  decided, except when a removed upstream counts against a rule that reacts to no state present
  (`Stuck`).

Both go through the counters: `countState_finished` reads them off the full list of relevant
upstream instances and `counts_sum` adds them up.
-/

namespace Airflow

open State

/-! ## Counters -/

theorem countState_finished {s : TaskInstanceState} (hs : isFinished (some s) = true)
    (ups : List UpstreamTI) :
    countState s (ups.filter (isFinished ·.state)) = countState s ups := by
  unfold countState
  rw [List.countP_filter]
  refine List.countP_congr fun u _ => ?_
  simp only [decide_eq_true_eq, Bool.and_eq_true]
  exact ⟨fun h => h.1, fun h => ⟨h, by rw [h]; exact hs⟩⟩

theorem countSetupState_finished {s : TaskInstanceState} (hs : isFinished (some s) = true)
    (ups : List UpstreamTI) :
    countSetupState s (ups.filter (isFinished ·.state)) = countSetupState s ups := by
  unfold countSetupState
  rw [List.countP_filter]
  refine List.countP_congr fun u _ => ?_
  simp only [decide_eq_true_eq, Bool.decide_and, Bool.and_eq_true]
  exact ⟨fun h => h.1, fun h => ⟨h, by rw [h.2]; exact hs⟩⟩

theorem countState_ne_zero {s : TaskInstanceState} {ups : List UpstreamTI} :
    countState s ups ≠ 0 ↔ ∃ u ∈ ups, u.state = some s := by
  simp [countState, List.countP_eq_zero]

theorem countState_eq_zero {s : TaskInstanceState} {ups : List UpstreamTI} :
    countState s ups = 0 ↔ ∀ u ∈ ups, u.state ≠ some s := by
  simp [countState, List.countP_eq_zero]

/-- The finished instances split into the five finished states. -/
theorem counts_sum (ups : List UpstreamTI) :
    countState .success ups + countState .skipped ups + countState .failed ups +
      countState .upstreamFailed ups + countState .removed ups =
      (ups.filter (isFinished ·.state)).length := by
  induction ups with
  | nil => rfl
  | cons u ups ih =>
    obtain ⟨s, b⟩ := u
    simp only [countState, List.countP_cons, List.filter_cons] at ih ⊢
    cases hf : isFinished s with
    | false =>
      rcases s with _ | s
      · simpa using ih
      · cases s <;> first | simpa using ih | simp [isFinished] at hf
    | true =>
      rw [if_pos rfl, List.length_cons, ← ih]
      rcases isFinished_cases hf with h | h | rfl
      · rcases s with _ | s
        · cases h
        · cases s <;> first | (simp; omega) | cases h
      · rcases s with _ | s
        · cases h
        · cases s <;> first | (simp; omega) | cases h
      · simp
        omega

theorem finished_length_le (ups : List UpstreamTI) :
    (ups.filter (isFinished ·.state)).length ≤ ups.length := List.length_filter_le _ _

theorem finished_length_lt {ups : List UpstreamTI} (h : ∃ u ∈ ups, isFinished u.state = false) :
    (ups.filter (isFinished ·.state)).length < ups.length := by
  obtain ⟨u, hu, hs⟩ := h
  refine Nat.lt_of_le_of_ne (finished_length_le ups) fun he => ?_
  have := List.length_filter_eq_length_iff.1 he u hu
  simp [hs] at this

theorem finished_length_eq {ups : List UpstreamTI} (h : ∀ u ∈ ups, isFinished u.state = true) :
    (ups.filter (isFinished ·.state)).length = ups.length :=
  List.length_filter_eq_length_iff.2 h

theorem successSetup_le (ups : List UpstreamTI) :
    countSetupState .success ups + countSetupState .skipped ups ≤ ups.countP (·.isSetup) := by
  induction ups with
  | nil => simp [countSetupState]
  | cons u ups ih =>
    obtain ⟨s, b⟩ := u
    simp only [countSetupState, List.countP_cons] at ih ⊢
    rcases b with _ | _
    · simpa using ih
    · rcases s with _ | s
      · simp at ih ⊢; omega
      · cases s <;> simp at ih ⊢ <;> omega

/-! ## Completions of a partial stage -/

/-- `ups'` is a way for the upstream instances `ups` to finish: the finished ones stay as they
are. -/
def Completes (ups ups' : List UpstreamTI) : Prop :=
  List.Forall₂ (fun u u' => u'.isSetup = u.isSetup ∧ isFinished u'.state = true ∧
    (isFinished u.state = true → u' = u)) ups ups'

theorem Completes.finished {ups ups' : List UpstreamTI} (h : Completes ups ups') :
    ∀ u ∈ ups', isFinished u.state = true := by
  induction h with
  | nil => simp
  | cons hu _ ih =>
    intro u hm
    rcases List.mem_cons.1 hm with rfl | hm
    · exact hu.2.1
    · exact ih u hm

theorem Completes.countState_le {ups ups' : List UpstreamTI} (h : Completes ups ups')
    {s : TaskInstanceState} (hs : isFinished (some s) = true) :
    countState s ups ≤ countState s ups' := by
  induction h with
  | nil => exact Nat.le_refl _
  | @cons u u' ups ups' hu _ ih =>
    simp only [countState, List.countP_cons, decide_eq_true_eq] at ih ⊢
    by_cases hst : u.state = some s
    · have hkeep : u' = u := hu.2.2 (by rw [hst]; exact hs)
      simp only [hkeep, hst, if_true]
      omega
    · simp only [hst, if_false]
      omega

/-- Every unfinished upstream instance succeeds. -/
def succeedRest (ups : List UpstreamTI) : List UpstreamTI :=
  ups.map fun u => if isFinished u.state then u else { u with state := some .success }

theorem succeedRest_completes (ups : List UpstreamTI) : Completes ups (succeedRest ups) := by
  induction ups with
  | nil => exact .nil
  | cons u ups ih =>
    refine .cons ?_ ih
    by_cases h : isFinished u.state = true
    · simp [h]
    · dsimp only
      rw [if_neg h]
      exact ⟨rfl, rfl, fun h' => absurd h' h⟩

theorem countState_succeedRest {s : TaskInstanceState} (hs : s ≠ .success)
    (hf : isFinished (some s) = true) (ups : List UpstreamTI) :
    countState s (succeedRest ups) = countState s ups := by
  unfold countState succeedRest
  rw [List.countP_map]
  refine List.countP_congr fun u _ => ?_
  simp only [Function.comp_apply, decide_eq_true_eq]
  by_cases h : isFinished u.state = true
  · simp [h]
  · simp only [h, Bool.false_eq_true, if_false, Option.some.injEq]
    exact ⟨fun he => absurd he.symm hs, fun he => absurd (he ▸ hf) h⟩

/-- The counters over the full list of relevant upstream instances. -/
theorem calculate_finished (ups : List UpstreamTI) :
    UpstreamTIStates.calculate (ups.filter (isFinished ·.state)) =
      { success := countState .success ups
        skipped := countState .skipped ups
        failed := countState .failed ups
        upstreamFailed := countState .upstreamFailed ups
        removed := countState .removed ups
        done := (ups.filter (isFinished ·.state)).length
        successSetup := countSetupState .success ups
        skippedSetup := countSetupState .skipped ups } := by
  simp (disch := decide) only [UpstreamTIStates.calculate, countState_finished,
    countSetupState_finished]

/-! ## Early decisions are final -/

/-- The `REMOVED` decision of `ALL_SUCCESS`: a mapped instance, no upstream instance failed or
skipped, some removed, and between one and `mapIndex` successes so far. -/
def RemovedEarly (rule : TriggerRule) (mapIndex : Int) (ups : List UpstreamTI) : Prop :=
  rule = .allSuccess ∧ mapIndex > -1 ∧
    (∀ u ∈ ups, u.state ≠ some .failed ∧ u.state ≠ some .upstreamFailed ∧
      u.state ≠ some .skipped) ∧
    (∃ u ∈ ups, u.state = some .removed) ∧
    0 < countState .success ups ∧ (countState .success ups : Int) ≤ mapIndex

/-- Whatever state the evaluation assigns at the stage `ups`, the evaluation does not pass once the
unfinished instances have finished, in whatever way. -/
def EarlyDecisionSound (rule : TriggerRule) (mapIndex : Int) (ups : List UpstreamTI) : Prop :=
  ∀ wait met, (evaluateUpstreams ⟨true, wait⟩ met rule mapIndex ups).newState ≠ none →
    ∀ ups', Completes ups ups' → ∀ wait' met',
      (evaluateUpstreams ⟨true, wait'⟩ met' rule mapIndex ups').passed = false

theorem applyNewState_newState {wait met : Bool} {s : TIState} {p : Bool}
    (h : (applyNewState ⟨true, wait⟩ met s p).newState ≠ none) : s ≠ none := by
  rintro rfl
  simp [applyNewState] at h

theorem applyNewState_passed {flags : TriggerFlags} {met : Bool} {s : TIState} {p : Bool}
    (h : (applyNewState flags met s p).passed = true) : p = true := by
  unfold applyNewState at h
  dsimp only at h
  generalize (if flags.flagUpstreamFailed = true then s else none) = s' at h
  split at h
  · exact absurd h Bool.false_ne_true
  · exact h

/-- The counters along a completion: no counter shrinks, and together they reach the total. -/
structure Grows (n : Nat) (u v : UpstreamTIStates) : Prop where
  success : u.success ≤ v.success
  skipped : u.skipped ≤ v.skipped
  failed : u.failed ≤ v.failed
  upstreamFailed : u.upstreamFailed ≤ v.upstreamFailed
  partly : u.done < n
  skippedDone : u.skipped ≤ u.done
  total : v.success + v.skipped + v.failed + v.upstreamFailed + v.removed = n

theorem Completes.grows {ups ups' : List UpstreamTI} (h : Completes ups ups')
    (hp : ∃ u ∈ ups, isFinished u.state = false) :
    Grows ups.length (UpstreamTIStates.calculate (ups.filter (isFinished ·.state)))
      (UpstreamTIStates.calculate (ups'.filter (isFinished ·.state))) := by
  have hlen : ups.length = ups'.length := h.length_eq
  have hsum := counts_sum ups
  have hsum' := counts_sum ups'
  rw [finished_length_eq h.finished] at hsum'
  rw [calculate_finished, calculate_finished]
  exact ⟨h.countState_le rfl, h.countState_le rfl, h.countState_le rfl, h.countState_le rfl,
    finished_length_lt hp, by dsimp only; omega, by dsimp only; omega⟩

/-- A state assigned before all upstream instances finished, other than the `REMOVED` of
`ALL_SUCCESS`, contradicts the pass condition at completion. -/
theorem Grows.not_passes {n k k' : Nat} {u v : UpstreamTIStates} (g : Grows n u v)
    {rule : TriggerRule} {mapIndex : Int} (hs : directNewState rule mapIndex n k u ≠ none)
    (hr : ¬(rule = .allSuccess ∧ mapIndex > -1 ∧ u.failed = 0 ∧ u.upstreamFailed = 0 ∧
      u.skipped = 0 ∧ u.removed ≠ 0 ∧ u.success ≠ 0 ∧ mapIndex ≥ u.success)) :
    directPasses rule mapIndex n k' v = false := by
  obtain ⟨h1, h2, h3, h4, h5, h6, h7⟩ := g
  cases rule with
  | allSuccess =>
    have hf : u.failed ≠ 0 ∨ u.upstreamFailed ≠ 0 ∨ u.skipped ≠ 0 := by
      by_contra hc
      simp only [directNewState, failureNewState] at hs
      grind
    simp only [directPasses, lessRemoved]
    grind
  | noneFailedMinOneSuccess =>
    have hf : u.failed ≠ 0 ∨ u.upstreamFailed ≠ 0 := by
      by_contra hc
      simp only [directNewState] at hs
      grind
    simp only [directPasses, lessRemoved]
    grind
  | allDone | noneFailedOrSkipped | dummy | always => exact absurd rfl hs
  | _ =>
    simp only [directNewState, directPasses, lessRemoved] at hs ⊢
    grind

theorem removedEarly_counters {rule : TriggerRule} {mapIndex : Int} {ups : List UpstreamTI} :
    RemovedEarly rule mapIndex ups ↔ rule = .allSuccess ∧ mapIndex > -1 ∧
      countState .failed ups = 0 ∧ countState .upstreamFailed ups = 0 ∧
      countState .skipped ups = 0 ∧ countState .removed ups ≠ 0 ∧ countState .success ups ≠ 0 ∧
      mapIndex ≥ countState .success ups := by
  unfold RemovedEarly
  rw [countState_ne_zero (s := .removed)]
  simp only [countState_eq_zero, forall_and, Nat.pos_iff_ne_zero, and_assoc]

/-- The `REMOVED` decision comes back as a pass when the unfinished instances succeed. -/
theorem succeedRest_passes {rule : TriggerRule} {mapIndex : Int} {ups : List UpstreamTI}
    (h : RemovedEarly rule mapIndex ups) (wait met : Bool) :
    (evaluateUpstreams ⟨true, wait⟩ met rule mapIndex (succeedRest ups)).passed = true := by
  obtain ⟨rfl, hm, hf, huf, hsk, -⟩ := removedEarly_counters.1 h
  have hsum := counts_sum (succeedRest ups)
  rw [finished_length_eq (succeedRest_completes ups).finished] at hsum
  simp (disch := decide) only [countState_succeedRest, hf, huf, hsk] at hsum
  simp only [evaluateUpstreams, reduceCtorEq, if_false, evaluateDirectRelatives, applyNewState,
    directNewState, directPasses, failureNewState, lessRemoved, calculate_finished, if_true]
  simp (disch := decide) only [countState_succeedRest, hf, huf, hsk]
  grind

/-- **Early decisions are sound exactly when the `REMOVED` decision of `ALL_SUCCESS` is not
taken.** -/
theorem early_decision_sound_iff {ups : List UpstreamTI}
    (hp : ∃ u ∈ ups, isFinished u.state = false) (rule : TriggerRule) (mapIndex : Int) :
    EarlyDecisionSound rule mapIndex ups ↔ ¬RemovedEarly rule mapIndex ups := by
  constructor
  · intro hs hr
    have hnew : (evaluateUpstreams ⟨true, false⟩ false rule mapIndex ups).newState ≠ none := by
      obtain ⟨rfl, h1, h2, h3, h4, h5, h6, h7⟩ := removedEarly_counters.1 hr
      simp [evaluateUpstreams, evaluateDirectRelatives, applyNewState, directNewState,
        failureNewState, calculate_finished, h1, h2, h3, h4, h5, h6, h7]
    have hfail := hs false false hnew _ (succeedRest_completes ups) false false
    rw [succeedRest_passes hr] at hfail
    cases hfail
  · intro hr wait met hnew ups' hc wait' met'
    unfold evaluateUpstreams at hnew ⊢
    split at hnew
    · exact absurd rfl hnew
    · rename_i hal
      rw [if_neg hal]
      have hdir := applyNewState_newState hnew
      refine Bool.eq_false_iff.2 fun hpass => ?_
      have hpass := applyNewState_passed hpass
      rw [← hc.length_eq] at hpass
      refine Bool.false_ne_true (((hc.grows hp).not_passes hdir fun hre => hr ?_).symm.trans hpass)
      rw [calculate_finished] at hre
      exact removedEarly_counters.2 hre

/-- A mapped instance with index 2 whose upstream task shrank from four instances to three: one
upstream success makes it `REMOVED`, although it passes once all three succeeded. -/
theorem removed_early_unsound : ¬∀ (rule : TriggerRule) (mapIndex : Int) (ups : List UpstreamTI),
    (∃ u ∈ ups, isFinished u.state = false) → EarlyDecisionSound rule mapIndex ups := by
  intro h
  have hs := h .allSuccess 2
    [⟨some .success, false⟩, ⟨some .running, false⟩, ⟨some .running, false⟩,
      ⟨some .removed, false⟩] ⟨⟨some .running, false⟩, by decide, rfl⟩
    false false (by decide) _ (succeedRest_completes _) false false
  exact absurd hs (by decide)

/-- A failed upstream decides an instance before the running one has finished. -/
theorem early_decision_sound_failed :
    (∃ u ∈ [UpstreamTI.mk (some .failed) false, ⟨some .running, false⟩],
      isFinished u.state = false) ∧
    (EarlyDecisionSound .allSuccess 0 [⟨some .failed, false⟩, ⟨some .running, false⟩] ↔
      ¬RemovedEarly .allSuccess 0 [⟨some .failed, false⟩, ⟨some .running, false⟩]) :=
  ⟨⟨⟨some .running, false⟩, by decide, rfl⟩,
    early_decision_sound_iff ⟨⟨some .running, false⟩, by decide, rfl⟩ .allSuccess 0⟩

/-! ## Progress -/

/-- The states on which the cascade of a rule decides before counting removed instances. -/
def TriggerRule.decidingStates : TriggerRule → List TaskInstanceState
  | .allSuccess => [.failed, .upstreamFailed, .skipped]
  | .allFailed => [.success, .skipped]
  | .noneFailed | .noneFailedMinOneSuccess => [.failed, .upstreamFailed]
  | .allSkipped => [.success, .failed, .upstreamFailed]
  | _ => []

/-- The pass condition of the rule counts a removed upstream instance as not (yet) good. -/
def TriggerRule.countsRemoved (mapIndex : Int) : TriggerRule → Bool
  | .allSuccess | .allFailed | .noneFailed | .noneFailedMinOneSuccess => ¬mapIndex > -1
  | .allSkipped => true
  | _ => false

/-- A removed upstream instance counts against the rule and no upstream instance is in a state on
which the rule decides. -/
def Stuck (rule : TriggerRule) (mapIndex : Int) (ups : List UpstreamTI) : Prop :=
  rule.countsRemoved mapIndex = true ∧ (∃ u ∈ ups, u.state = some .removed) ∧
    ∀ s ∈ rule.decidingStates, ∀ u ∈ ups, u.state ≠ some s

/-- The counter of a finished state. -/
def UpstreamTIStates.count (u : UpstreamTIStates) : TaskInstanceState → Nat
  | .success => u.success
  | .skipped => u.skipped
  | .failed => u.failed
  | .upstreamFailed => u.upstreamFailed
  | .removed => u.removed
  | _ => 0

theorem stuck_counters {rule : TriggerRule} {mapIndex : Int} {ups : List UpstreamTI} :
    Stuck rule mapIndex ups ↔ rule.countsRemoved mapIndex = true ∧
      (UpstreamTIStates.calculate (ups.filter (isFinished ·.state))).removed ≠ 0 ∧
      ∀ s ∈ rule.decidingStates,
        (UpstreamTIStates.calculate (ups.filter (isFinished ·.state))).count s = 0 := by
  rw [calculate_finished]
  simp only [Stuck, ← countState_ne_zero, ← countState_eq_zero]
  cases rule <;> simp [TriggerRule.decidingStates, UpstreamTIStates.count]

/-- With all `n` upstream instances counted, a rule that assigns no state passes unless removed
ones count against it. -/
theorem decided_or_passes_counters {n k : Nat} {u : UpstreamTIStates} (hdone : u.done = n)
    (htotal : u.success + u.skipped + u.failed + u.upstreamFailed + u.removed = n)
    {rule : TriggerRule} (hr : rule.handled = true) (hal : rule ≠ .always) (mapIndex : Int) :
    (directNewState rule mapIndex n k u ≠ none ∨ directPasses rule mapIndex n k u = true) ↔
      ¬(rule.countsRemoved mapIndex = true ∧ u.removed ≠ 0 ∧
        ∀ s ∈ rule.decidingStates, u.count s = 0) := by
  cases rule with
  | always => exact absurd rfl hal
  | noneFailedOrSkipped | dummy => cases hr
  | _ =>
    simp only [directNewState, directPasses, failureNewState, lessRemoved,
      TriggerRule.countsRemoved, TriggerRule.decidingStates, UpstreamTIStates.count,
      List.mem_cons, List.not_mem_nil, or_false, forall_eq_or_imp, forall_eq]
    grind

/-- **With every upstream instance finished, the instance passes or is decided unless it is
stuck.** -/
theorem decided_or_passes_iff {rule : TriggerRule} (hr : rule.handled = true)
    {ups : List UpstreamTI} (hf : ∀ u ∈ ups, isFinished u.state = true) (mapIndex : Int)
    (met : Bool) :
    ((evaluateUpstreams ⟨true, false⟩ met rule mapIndex ups).newState ≠ none ∨
      (evaluateUpstreams ⟨true, false⟩ met rule mapIndex ups).passed = true) ↔
      ¬Stuck rule mapIndex ups := by
  by_cases hal : rule = .always
  · subst hal
    simp [evaluateUpstreams, Stuck, TriggerRule.countsRemoved]
  · have hsum := counts_sum ups
    rw [finished_length_eq hf] at hsum
    rw [stuck_counters, ← decided_or_passes_counters (n := ups.length)
      (k := ups.countP (·.isSetup)) (finished_length_eq hf)
      (by rw [calculate_finished]; exact hsum) hr hal]
    simp [evaluateUpstreams, hal, evaluateDirectRelatives, applyNewState]

/-- An unmapped instance with the default rule and a removed instance among its successful
upstream instances neither runs nor is decided. -/
theorem removed_upstream_stuck : ¬∀ (rule : TriggerRule) (mapIndex : Int) (ups : List UpstreamTI)
    (met : Bool), rule.handled = true → ups ≠ [] → (∀ u ∈ ups, isFinished u.state = true) →
      (evaluateUpstreams ⟨true, false⟩ met rule mapIndex ups).newState ≠ none ∨
        (evaluateUpstreams ⟨true, false⟩ met rule mapIndex ups).passed = true := by
  intro h
  have hs := h .allSuccess (-1) [⟨some .success, false⟩, ⟨some .removed, false⟩] false
    (by decide) (by decide) (by decide)
  exact absurd hs (by decide)

theorem decided_or_passes_mapped : TriggerRule.allSuccess.handled = true ∧
    (∀ u ∈ [UpstreamTI.mk (some .success) false, ⟨some .removed, false⟩],
      isFinished u.state = true) ∧
    (((evaluateUpstreams ⟨true, false⟩ false .allSuccess 0
        [⟨some .success, false⟩, ⟨some .removed, false⟩]).newState ≠ none ∨
      (evaluateUpstreams ⟨true, false⟩ false .allSuccess 0
        [⟨some .success, false⟩, ⟨some .removed, false⟩]).passed = true) ↔
      ¬Stuck .allSuccess 0 [⟨some .success, false⟩, ⟨some .removed, false⟩]) :=
  ⟨by decide, by decide, decided_or_passes_iff (by decide) (by decide) 0 false⟩

/-!
## `NONE_FAILED_MIN_ONE_SUCCESS`

Once all upstream instances of an instance with this rule are finished, it runs without a
successful one exactly when it is mapped and they are all skipped or removed, some removed
(`OnlyRemovedOrSkipped`): the cascade compares the skipped ones with all of them, and the pass
condition leaves the removed ones out.
-/

open State

/-- The evaluation assigns no state and yields no failing status. -/
def Evaluation.Runs (e : Evaluation) : Prop := e.newState = none ∧ e.passed = true

instance (e : Evaluation) : Decidable e.Runs := inferInstanceAs (Decidable (_ ∧ _))

/-- What the rule promises of an instance that runs. -/
def MinOneSuccess (upstreams : List UpstreamTI) : Prop :=
  (∃ up ∈ upstreams, up.state = some .success) ∧
    ∀ up ∈ upstreams, up.state ≠ some .failed ∧ up.state ≠ some .upstreamFailed

/-- The upstream instances of a mapped instance are skipped or removed, and some removed. -/
def OnlyRemovedOrSkipped (mapIndex : Int) (upstreams : List UpstreamTI) : Prop :=
  mapIndex > -1 ∧ (∃ up ∈ upstreams, up.state = some .removed) ∧
    ∀ up ∈ upstreams, up.state = some .skipped ∨ up.state = some .removed

/-- The indirect setups let the instance run: they have succeeded, up to removed ones of a mapped
instance whose index is below the number of those that succeeded. -/
def SetupsLetRun (mapIndex : Int) (indirectSetups : List UpstreamTI) : Prop :=
  (∀ up ∈ indirectSetups,
    up.state = some .success ∨ (mapIndex > -1 ∧ up.state = some .removed)) ∧
    ((∃ up ∈ indirectSetups, up.state = some .success) →
      (∃ up ∈ indirectSetups, up.state = some .removed) →
        mapIndex < countState .success indirectSetups)

/-! ## Counters -/

/-- All instances are in one of two finished states exactly if the counts of these add up. -/
theorem countState_add_eq_length {s s' : TaskInstanceState} (hne : s ≠ s')
    (ups : List UpstreamTI) :
    countState s ups + countState s' ups = ups.length ↔
      ∀ up ∈ ups, up.state = some s ∨ up.state = some s' := by
  have hsum : countState s ups + countState s' ups =
      ups.countP fun up => up.state = some s ∨ up.state = some s' := by
    induction ups with
    | nil => rfl
    | cons up ups ih =>
      simp only [countState, List.countP_cons] at ih ⊢
      have hne' : ¬(some s : TIState) = some s' := fun h => hne (Option.some.inj h)
      have hne'' : ¬(some s' : TIState) = some s := fun h => hne' h.symm
      by_cases h : up.state = some s
      · simp only [h, hne', decide_true, decide_false, true_or, if_true, Bool.false_eq_true,
          if_false]
        omega
      · by_cases h' : up.state = some s'
        · simp only [h', hne'', decide_true, decide_false, or_true, if_true, Bool.false_eq_true,
            if_false]
          omega
        · simp only [h, h', decide_false, or_self, Bool.false_eq_true, if_false]
          omega
  rw [hsum, List.countP_eq_length]
  simp only [decide_eq_true_eq]

theorem countState_eq_length (s : TaskInstanceState) (ups : List UpstreamTI) :
    countState s ups = ups.length ↔ ∀ up ∈ ups, up.state = some s := by
  simp only [countState, List.countP_eq_length, decide_eq_true_eq]

theorem counts_le (ups : List UpstreamTI) :
    countState .success ups + countState .skipped ups + countState .failed ups +
      countState .upstreamFailed ups + countState .removed ups ≤ ups.length :=
  (counts_sum ups) ▸ finished_length_le ups

/-! ## The two evaluations -/

theorem applyNewState_runs {flags : TriggerFlags} {met : Bool} {newState : TIState}
    {passed : Bool} (h : flags.flagUpstreamFailed = true) :
    (applyNewState flags met newState passed).Runs ↔ newState = none ∧ passed = true := by
  simp only [applyNewState, h, if_true, Evaluation.Runs]
  split
  · next hskip => simp [hskip.1]
  · exact Iff.rfl

/-- The setup constraint lets the instance run exactly if the setups do. -/
theorem evaluateSetupConstraint_runs (wait met : Bool) (mapIndex : Int) (setups : List UpstreamTI) :
    (evaluateSetupConstraint ⟨true, wait⟩ met mapIndex setups.length
      (setups.filter (isFinished ·.state))).Runs ↔ SetupsLetRun mapIndex setups := by
  rw [evaluateSetupConstraint, applyNewState_runs rfl, calculate_finished]
  have hle := counts_le setups
  unfold SetupsLetRun
  rw [← countState_ne_zero, ← countState_ne_zero]
  simp only [setupNewState, setupPasses, failureNewState, lessRemoved, decide_eq_true_iff]
  by_cases hmap : mapIndex > -1
  · have hne : TaskInstanceState.success ≠ .removed := by decide
    simp only [hmap, true_and, ← countState_add_eq_length hne]
    grind
  · simp only [hmap, false_and, or_false, ← countState_eq_length]
    grind

/-- The rule itself lets the instance run exactly if no upstream failed and not all were skipped,
where an unmapped instance has no removed upstream. -/
theorem evaluateUpstreams_runs {ups : List UpstreamTI}
    (hfinished : ∀ up ∈ ups, isFinished up.state = true) (wait met : Bool) (mapIndex : Int) :
    (evaluateUpstreams ⟨true, wait⟩ met .noneFailedMinOneSuccess mapIndex ups).Runs ↔
      (countState .failed ups = 0 ∧ countState .upstreamFailed ups = 0) ∧
        countState .skipped ups ≠ ups.length ∧
        (mapIndex > -1 ∨ countState .removed ups = 0) := by
  have hsum := counts_sum ups
  rw [finished_length_eq hfinished] at hsum
  rw [evaluateUpstreams, if_neg (by decide), evaluateDirectRelatives, applyNewState_runs rfl,
    calculate_finished]
  simp only [directNewState, directPasses, lessRemoved, decide_eq_true_iff]
  grind

/-- Both evaluations let an instance run. -/
theorem evaluateWithSetups_runs (wait met : Bool) (state : TIState) (mapIndex : Int)
    (setups ups : List UpstreamTI) :
    (evaluateWithSetups ⟨true, wait⟩ met .noneFailedMinOneSuccess state mapIndex setups ups).Runs ↔
      SetupsLetRun mapIndex setups ∧
        (evaluateUpstreams ⟨true, wait⟩ met .noneFailedMinOneSuccess mapIndex ups).Runs := by
  rw [← evaluateSetupConstraint_runs wait met, evaluateWithSetups, if_neg (by decide)]
  dsimp only
  split
  · next h => simp [Evaluation.Runs, h.1]
  · simp only [Evaluation.Runs, Option.or_eq_none_iff, Bool.and_eq_true]
    tauto

/-- **An instance with the rule runs with a successful upstream and no failed one, unless it is
mapped and only removed and skipped ones are left.** -/
theorem minOneSuccess_iff {upstreams : List UpstreamTI}
    (hfinished : ∀ up ∈ upstreams, isFinished up.state = true) (wait met : Bool) (state : TIState)
    (mapIndex : Int) (indirectSetups : List UpstreamTI) :
    ((evaluateWithSetups ⟨true, wait⟩ met .noneFailedMinOneSuccess state mapIndex indirectSetups
      upstreams).Runs → MinOneSuccess upstreams) ↔
      ¬(SetupsLetRun mapIndex indirectSetups ∧ OnlyRemovedOrSkipped mapIndex upstreams) := by
  have hsum := counts_sum upstreams
  rw [finished_length_eq hfinished] at hsum
  rw [evaluateWithSetups_runs, evaluateUpstreams_runs hfinished]
  have hne : TaskInstanceState.skipped ≠ .removed := by decide
  unfold MinOneSuccess OnlyRemovedOrSkipped
  rw [← countState_ne_zero, ← countState_ne_zero, forall₂_and, ← countState_eq_zero,
    ← countState_eq_zero, ← countState_add_eq_length hne]
  grind

/-- A mapped instance whose only upstream instance is removed runs. -/
theorem removed_upstream_runs : ¬∀ (wait met : Bool) (state : TIState) (mapIndex : Int)
    (indirectSetups upstreams : List UpstreamTI),
    (∀ up ∈ upstreams, isFinished up.state = true) →
      (evaluateWithSetups ⟨true, wait⟩ met .noneFailedMinOneSuccess state mapIndex indirectSetups
        upstreams).Runs → MinOneSuccess upstreams := by
  intro h
  obtain ⟨⟨up, hmem, hstate⟩, -⟩ := h false false none 0 [] [⟨some .removed, false⟩] (by decide)
    (by decide)
  rw [List.mem_singleton.mp hmem] at hstate
  cases hstate

theorem minOneSuccess_skipped :
    (∀ up ∈ [UpstreamTI.mk (some .success) false, ⟨some .skipped, false⟩],
      isFinished up.state = true) ∧
    (((evaluateWithSetups ⟨true, false⟩ false .noneFailedMinOneSuccess none (-1) []
      [⟨some .success, false⟩, ⟨some .skipped, false⟩]).Runs →
        MinOneSuccess [⟨some .success, false⟩, ⟨some .skipped, false⟩]) ↔
      ¬(SetupsLetRun (-1) [] ∧
        OnlyRemovedOrSkipped (-1) [⟨some .success, false⟩, ⟨some .skipped, false⟩])) :=
  ⟨by decide, minOneSuccess_iff (by decide) false false none (-1) []⟩

end Airflow
