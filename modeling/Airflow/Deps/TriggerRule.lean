import Airflow.State

/-!
# The trigger-rule dependency: counters, cascade and pass condition

The part of `airflow/ti_deps/deps/trigger_rule_dep.py` that decides from counters.
`UpstreamTIStates.calculate` counts the finished upstream instances, `directNewState` and
`setupNewState` are the state-assigning cascades of `_evaluate_direct_relatives` and
`_evaluate_setup_constraint`, `directPasses` and `setupPasses` their pass conditions (no failing
status is yielded). `evaluateDirectRelatives` puts them together for an instance; where the
counters come from is `Airflow/DagRun/Dependencies.lean`.

The failing statuses carry reasons that are only logged; they are not modelled.
-/

namespace Airflow

/-- `TriggerRule` (`airflow/utils/trigger_rule.py`). -/
inductive TriggerRule where
  | allSuccess
  | allFailed
  | allDone
  | allDoneSetupSuccess
  | oneSuccess
  | oneFailed
  | oneDone
  | noneFailed
  | noneFailedOrSkipped
  | noneSkipped
  | dummy
  | always
  | noneFailedMinOneSuccess
  | allSkipped
  deriving DecidableEq, Repr

/-- The rules `TriggerRuleDep` handles: `always` passes before any counting, and
`_evaluate_direct_relatives` has a strategy for the others but the two deprecated names, which end
in its last branch ("No strategy to evaluate trigger rule") and which operators replace when they
are built. -/
def TriggerRule.handled : TriggerRule → Bool
  | .noneFailedOrSkipped | .dummy => false
  | _ => true

/-- What the counters read of an upstream task instance: its state and its task's `is_setup`. -/
structure UpstreamTI where
  state : TIState
  isSetup : Bool
  deriving DecidableEq, Repr

/-- `_UpstreamTIStates`. -/
structure UpstreamTIStates where
  success : Nat
  skipped : Nat
  failed : Nat
  upstreamFailed : Nat
  removed : Nat
  done : Nat
  successSetup : Nat
  skippedSetup : Nat
  deriving DecidableEq, Repr

/-- How many of the instances are in state `s` (`counter.get(s, 0)`). -/
def countState (s : TaskInstanceState) (tis : List UpstreamTI) : Nat :=
  tis.countP (·.state = some s)

/-- How many of the setup instances are in state `s` (`setup_counter.get(s, 0)`). -/
def countSetupState (s : TaskInstanceState) (tis : List UpstreamTI) : Nat :=
  tis.countP fun ti => ti.isSetup ∧ ti.state = some s

/-- `_UpstreamTIStates.calculate`. -/
def UpstreamTIStates.calculate (finishedUpstreams : List UpstreamTI) : UpstreamTIStates where
  success := countState .success finishedUpstreams
  skipped := countState .skipped finishedUpstreams
  failed := countState .failed finishedUpstreams
  upstreamFailed := countState .upstreamFailed finishedUpstreams
  removed := countState .removed finishedUpstreams
  done := finishedUpstreams.length
  successSetup := countSetupState .success finishedUpstreams
  skippedSetup := countSetupState .skipped finishedUpstreams

/-! ## The state-assigning cascades -/

/-- The cascade that a failure, a skip or a shrunk mapping triggers, shared by `ALL_SUCCESS` and
the setup constraint. -/
def failureNewState (mapIndex : Int) (u : UpstreamTIStates) : TIState :=
  if u.upstreamFailed ≠ 0 ∨ u.failed ≠ 0 then some .upstreamFailed
  else if u.skipped ≠ 0 then some .skipped
  else if u.removed ≠ 0 ∧ u.success ≠ 0 ∧ mapIndex > -1 then
    if mapIndex ≥ u.success then some .removed else none
  else none

/-- The new state `_evaluate_direct_relatives` chooses with `flag_upstream_failed`; `upstream` and
`upstreamSetup` are the numbers of expected upstream instances and setup instances. -/
def directNewState (rule : TriggerRule) (mapIndex : Int) (upstream upstreamSetup : Nat)
    (u : UpstreamTIStates) : TIState :=
  let upstreamDone := u.done ≥ upstream
  match rule with
  | .allSuccess => failureNewState mapIndex u
  | .allFailed => if u.success ≠ 0 ∨ u.skipped ≠ 0 then some .skipped else none
  | .oneSuccess =>
    if upstreamDone ∧ u.done = u.skipped then some .skipped
    else if upstreamDone ∧ u.success ≤ 0 then some .upstreamFailed
    else none
  | .oneFailed =>
    if upstreamDone ∧ ¬(u.failed ≠ 0 ∨ u.upstreamFailed ≠ 0) then some .skipped else none
  | .oneDone => if upstreamDone ∧ ¬(u.failed ≠ 0 ∨ u.success ≠ 0) then some .skipped else none
  | .noneFailed =>
    if u.upstreamFailed ≠ 0 ∨ u.failed ≠ 0 then some .upstreamFailed else none
  | .noneFailedMinOneSuccess =>
    if u.upstreamFailed ≠ 0 ∨ u.failed ≠ 0 then some .upstreamFailed
    else if u.skipped = upstream then some .skipped
    else none
  | .noneSkipped => if u.skipped ≠ 0 then some .skipped else none
  | .allSkipped =>
    if u.success ≠ 0 ∨ u.failed ≠ 0 ∨ u.upstreamFailed ≠ 0 then some .skipped else none
  | .allDoneSetupSuccess =>
    if upstreamDone ∧ upstreamSetup ≠ 0 ∧ u.skippedSetup ≥ upstreamSetup then some .skipped
    else if upstreamDone ∧ upstreamSetup ≠ 0 ∧ u.successSetup = 0 then some .upstreamFailed
    else none
  | .allDone | .noneFailedOrSkipped | .dummy | .always => none

/-- The new state `_evaluate_setup_constraint` chooses with `flag_upstream_failed`. -/
def setupNewState (mapIndex : Int) (u : UpstreamTIStates) : TIState := failureNewState mapIndex u

/-! ## The pass conditions -/

/-- `n`, less the removed upstream instances when the instance is mapped. -/
def lessRemoved (mapIndex : Int) (u : UpstreamTIStates) (n : Int) : Int :=
  if mapIndex > -1 then n - u.removed else n

/-- `_evaluate_direct_relatives` yields no failing status. -/
def directPasses (rule : TriggerRule) (mapIndex : Int) (upstream upstreamSetup : Nat)
    (u : UpstreamTIStates) : Bool :=
  let upstreamDone := u.done ≥ upstream
  match rule with
  | .oneSuccess => ¬u.success ≤ 0
  | .oneFailed => ¬(u.failed = 0 ∧ u.upstreamFailed = 0)
  | .oneDone => ¬u.success + u.failed ≤ 0
  | .allSuccess => ¬lessRemoved mapIndex u ((upstream : Int) - u.success) > 0
  | .allFailed => ¬lessRemoved mapIndex u ((upstream : Int) - u.failed - u.upstreamFailed) > 0
  | .allDone => upstreamDone
  | .noneFailed | .noneFailedMinOneSuccess =>
    ¬lessRemoved mapIndex u ((upstream : Int) - u.success - u.skipped) > 0
  | .noneSkipped => ¬(¬upstreamDone ∨ u.skipped > 0)
  | .allSkipped => ¬(upstream : Int) - u.skipped > 0
  | .allDoneSetupSuccess => upstreamDone ∧ ¬(upstreamSetup ≠ 0 ∧ u.successSetup = 0)
  | .noneFailedOrSkipped | .dummy | .always => false

/-- `_evaluate_setup_constraint` yields no failing status for a count of setups. -/
def setupPasses (mapIndex : Int) (upstream : Nat) (u : UpstreamTIStates) : Bool :=
  ¬lessRemoved mapIndex u ((upstream : Int) - u.success) > 0

/-! ## The evaluation for one instance -/

/-- The flags of `DepContext` that the trigger rule reads. -/
structure TriggerFlags where
  flagUpstreamFailed : Bool
  waitForPastDependsBeforeSkipping : Bool := false
  deriving DecidableEq, Repr

/-- What an evaluation does to the instance: the state it sets (if any), and whether the statuses
it yields are all passing. -/
structure Evaluation where
  newState : TIState
  passed : Bool
  deriving DecidableEq, Repr

/-- The common end of both evaluations: a skip that must wait for past depends is replaced by a
failing status and nothing is set. -/
def applyNewState (flags : TriggerFlags) (pastDependsMet : Bool) (newState : TIState)
    (passed : Bool) : Evaluation :=
  let newState := if flags.flagUpstreamFailed then newState else none
  if newState = some .skipped ∧ flags.waitForPastDependsBeforeSkipping ∧ ¬pastDependsMet then
    ⟨none, false⟩
  else ⟨newState, passed⟩

/-- `_evaluate_direct_relatives` once the upstream instances are fetched: `upstream` and
`upstreamSetup` expected ones, `finishedUpstreams` finished ones. -/
def evaluateDirectRelatives (flags : TriggerFlags) (pastDependsMet : Bool) (rule : TriggerRule)
    (mapIndex : Int) (upstream upstreamSetup : Nat) (finishedUpstreams : List UpstreamTI) :
    Evaluation :=
  let u := UpstreamTIStates.calculate finishedUpstreams
  applyNewState flags pastDependsMet (directNewState rule mapIndex upstream upstreamSetup u)
    (directPasses rule mapIndex upstream upstreamSetup u)

/-- `_evaluate_setup_constraint` once the indirect setup instances are fetched. -/
def evaluateSetupConstraint (flags : TriggerFlags) (pastDependsMet : Bool) (mapIndex : Int)
    (upstream : Nat) (finishedUpstreams : List UpstreamTI) : Evaluation :=
  let u := UpstreamTIStates.calculate finishedUpstreams
  applyNewState flags pastDependsMet (setupNewState mapIndex u) (setupPasses mapIndex upstream u)

/-- `TriggerRuleDep` over the list of all relevant upstream instances, finished or not, of an
instance that has upstream tasks and no indirect setups. -/
def evaluateUpstreams (flags : TriggerFlags) (pastDependsMet : Bool) (rule : TriggerRule)
    (mapIndex : Int) (upstreams : List UpstreamTI) : Evaluation :=
  if rule = .always then ⟨none, true⟩
  else evaluateDirectRelatives flags pastDependsMet rule mapIndex upstreams.length
    (upstreams.countP (·.isSetup)) (upstreams.filter (State.isFinished ·.state))

/-- `_evaluate_trigger_rule` over the lists of all relevant instances, for an instance that has
upstream tasks: its indirect setups (a teardown has none) and its upstreams. `state` is the state
the instance has before. -/
def evaluateWithSetups (flags : TriggerFlags) (pastDependsMet : Bool) (rule : TriggerRule)
    (state : TIState) (mapIndex : Int) (indirectSetups upstreams : List UpstreamTI) : Evaluation :=
  if rule = .always then ⟨none, true⟩
  else
    let setup := evaluateSetupConstraint flags pastDependsMet mapIndex indirectSetups.length
      (indirectSetups.filter (State.isFinished ·.state))
    let changed := setup.newState ≠ none ∧ setup.newState ≠ state
    if ¬setup.passed ∧ changed then setup
    else
      let direct := evaluateUpstreams flags pastDependsMet rule mapIndex upstreams
      ⟨direct.newState.or setup.newState, setup.passed && direct.passed⟩

end Airflow
