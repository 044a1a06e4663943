import Airflow.DagRun.Proof.Deadlock

/-!
# The outcome of a run

* `deadlocked_iff`: exactly when `update_state` fails a run as deadlocked, in terms of the
  instances before the call;
* `outcomeCorrect_iff`: the verdict of `update_state` is right exactly when its lists cover the
  instances of the DAG (`VerdictCovers`) and a deadlock is not found by a check that assigned states
  (`DeadlockChanges`).

The two situations that are excluded are those of the code: the verdict is taken from lists that
were captured before instances were created and that `SHUTDOWN` is in none of; and the deadlock
check assigns states without the run being taken as changed.
-/

namespace Airflow

/-! ## What is claimed of a verdict -/

/-- A considered instance: of an effective leaf, and not `REMOVED`. -/
structure Considered (dag : Dag) (s : Session) (r : TIRef) : Prop where
  leaf : r.taskId ∈ dag.leafTaskIds
  live : s.live r = true
  not_removed : s.state r ≠ some .removed

/-- Every instance of the DAG's tasks is finished. -/
def AllFinished (dag : Dag) (s : Session) : Prop :=
  ∀ r, r.taskId ∈ dag.taskIds → s.live r = true → State.isFinished (s.state r) = true

/-- The outcome of a call of `update_state` is right. -/
structure OutcomeCorrect (dag : Dag) (run : RunData) (table : TaskInstanceTable) : Prop where
  success : (updateState dag run table).verdict = .success →
    AllFinished dag (updateState dag run table).session ∧
    ∀ r, Considered dag (updateState dag run table).session r →
      State.isSuccess ((updateState dag run table).session.state r) = true
  failure : (updateState dag run table).verdict = .taskFailure →
    AllFinished dag (updateState dag run table).session ∧
    ∃ r, Considered dag (updateState dag run table).session r ∧
      State.isFailed ((updateState dag run table).session.state r) = true
  decided : AllFinished dag (.load table) → (updateState dag run table).verdict = .success ∨
    (updateState dag run table).verdict = .taskFailure
  deadlock : (updateState dag run table).verdict = .allTasksDeadlocked →
    (updateState dag run table).schedulableTis = [] ∧
    ∀ r, (Session.load table).live r = true →
      (updateState dag run table).session.state r = (Session.load table).state r

/-! ## The branches of the verdict -/

section
variable {dag : Dag} {s : Session} {tis unfinished : List TIRef} {runnable : Bool}

theorem verdict_taskFailure_iff : verdict dag s tis unfinished runnable = .taskFailure ↔
    unfinished = [] ∧ ∃ r ∈ tisForDagrunState dag s tis, State.isFailed (s.state r) = true := by
  rw [← List.any_eq_true]
  unfold verdict
  dsimp only
  split
  · next h => exact ⟨fun _ => h, fun _ => rfl⟩
  · next h =>
    refine ⟨fun heq => ?_, fun h' => absurd h' h⟩
    split_ifs at heq

theorem verdict_success_iff : verdict dag s tis unfinished runnable = .success ↔
    unfinished = [] ∧ (¬∃ r ∈ tisForDagrunState dag s tis, State.isFailed (s.state r) = true) ∧
    ∀ r ∈ tisForDagrunState dag s tis, State.isSuccess (s.state r) = true := by
  rw [← List.any_eq_true, ← List.all_eq_true]
  unfold verdict
  dsimp only
  split
  · next h => exact ⟨fun heq => (by cases heq), fun h' => absurd h.2 h'.2.1⟩
  · next h =>
    split
    · next h' => exact ⟨fun _ => ⟨h'.1, fun hf => h ⟨h'.1, hf⟩, h'.2⟩, fun _ => rfl⟩
    · next h' =>
      refine ⟨fun heq => ?_, fun hs => absurd ⟨hs.1, hs.2.2⟩ h'⟩
      split_ifs at heq

theorem verdict_deadlocked_iff : verdict dag s tis unfinished runnable = .allTasksDeadlocked ↔
    shouldSchedule dag s unfinished = true ∧ runnable = false := by
  unfold verdict
  dsimp only
  by_cases hempty : unfinished = []
  · subst hempty
    simp only [shouldSchedule, List.isEmpty_nil, Bool.not_true, Bool.false_and,
      Bool.false_eq_true, false_and, if_false, iff_false]
    split_ifs <;> exact fun heq => by cases heq
  · rw [if_neg fun h => hempty h.1, if_neg fun h => hempty h.1]
    split
    · next h => exact ⟨fun _ => ⟨h.1, by simpa using h.2⟩, fun _ => rfl⟩
    · next h => exact ⟨fun heq => (by cases heq), fun h' => absurd ⟨h'.1, by simp [h'.2]⟩ h⟩

end

/-! ## The lists of a call -/

section
variable (dag : Dag) (run : RunData) (table : TaskInstanceTable)

/-- The ready pass of a call. -/
def callReadyPass : ReadyPass :=
  readyPass dag run (filterTis dag table) (schedulableTis dag table) (finishedTis dag table)

/-- The deadlock check of a call. -/
def callDeadlockCheck : DepState :=
  let info := taskInstanceSchedulingDecisions dag run table
  arePrematureTis dag run info.session info.unfinishedTis info.finishedTis

/-- The call checks for a deadlock. -/
def ChecksDeadlock : Prop := (taskInstanceSchedulingDecisions dag run table).checksDeadlock dag = true

/-- The unfinished instances that the verdict is taken from. -/
def verdictUnfinished : List TIRef :=
  let info := taskInstanceSchedulingDecisions dag run table
  if info.checksDeadlock dag && (callDeadlockCheck dag run table).haveChangedTiStates then
    info.unfinishedTis.filter (State.isUnfinished <| (callDeadlockCheck dag run table).session.state ·)
  else info.unfinishedTis

/-- `are_runnable_tasks`. -/
def areRunnable : Bool :=
  let info := taskInstanceSchedulingDecisions dag run table
  if info.checksDeadlock dag then (callDeadlockCheck dag run table).met
  else !info.schedulableTis.isEmpty || info.changedTis

/-- The session that the verdict is taken in: what the ready pass and the deadlock check left. -/
def passedSession : Session :=
  let info := taskInstanceSchedulingDecisions dag run table
  if info.checksDeadlock dag then (callDeadlockCheck dag run table).session else info.session

theorem updateState_session : (updateState dag run table).session = passedSession dag run table := by
  unfold updateState passedSession callDeadlockCheck
  dsimp only
  split <;> rfl

variable {dag run table}

theorem passedSession_checked (h : ChecksDeadlock dag run table) :
    passedSession dag run table = (callDeadlockCheck dag run table).session := by
  unfold ChecksDeadlock at h
  unfold passedSession
  dsimp only
  rw [if_pos h]

theorem passedSession_unchecked (h : ¬ChecksDeadlock dag run table) :
    passedSession dag run table = (taskInstanceSchedulingDecisions dag run table).session := by
  unfold ChecksDeadlock at h
  unfold passedSession
  dsimp only
  rw [if_neg h]

variable (run) in
theorem decisions_of_nil (h : unfinishedTis dag table = []) :
    taskInstanceSchedulingDecisions dag run table =
      { session := filterTis dag table, tis := dagTis dag table, unfinishedTis := [],
        finishedTis := finishedTis dag table } := by
  unfold taskInstanceSchedulingDecisions
  dsimp only
  rw [if_pos h, h]

variable (run) in
theorem decisions_of_ne_nil (h : unfinishedTis dag table ≠ []) :
    let p := callReadyPass dag run table
    let info := taskInstanceSchedulingDecisions dag run table
    info.session = p.session ∧ info.schedulableTis = p.readyTis ∧
    info.changedTis = (p.expansionHappened || p.changedTis) ∧
    info.unfinishedTis = (if p.expansionHappened then
      (unfinishedTis dag table).filter (State.isUnfinished <| p.session.state ·)
    else unfinishedTis dag table) ∧
    (p.expansionHappened = false → info.finishedTis = finishedTis dag table) := by
  unfold taskInstanceSchedulingDecisions
  dsimp only
  rw [if_neg h]
  refine ⟨rfl, rfl, rfl, rfl, fun hexp => ?_⟩
  exact if_neg (by rw [callReadyPass] at hexp; simp [hexp])

variable (run) in
theorem decisions_tis : (taskInstanceSchedulingDecisions dag run table).tis = dagTis dag table := by
  unfold taskInstanceSchedulingDecisions
  dsimp only
  split <;> rfl

theorem updateState_verdict : (updateState dag run table).verdict =
    verdict dag (passedSession dag run table) (dagTis dag table)
      (verdictUnfinished dag run table) (areRunnable dag run table) := by
  rw [← decisions_tis run]
  unfold updateState passedSession verdictUnfinished areRunnable callDeadlockCheck
  dsimp only
  cases h : (taskInstanceSchedulingDecisions dag run table).checksDeadlock dag with
  | false => simp only [Bool.false_eq_true, if_false, Bool.false_and]
  | true => simp only [if_true, Bool.true_and]

theorem updateState_schedulableTis : (updateState dag run table).schedulableTis =
    (taskInstanceSchedulingDecisions dag run table).schedulableTis := by
  unfold updateState
  dsimp only
  split <;> rfl

/-! ### Captured instances -/

theorem mem_dagTis {r : TIRef} :
    r ∈ dagTis dag table ↔ r.taskId ∈ dag.taskIds ∧ (Session.load table).get r ≠ none := by
  unfold dagTis getTaskInstances
  rw [List.mem_filter, decide_eq_true_eq, ← mem_refs]
  split
  · rw [List.mem_filter, decide_eq_true_eq]
    tauto
  · tauto

theorem nodup_dagTis : (dagTis dag table).Nodup := by
  refine List.Nodup.filter _ ?_
  unfold getTaskInstances
  split
  · exact (nodup_refs table).filter _
  · exact nodup_refs table

theorem mem_unfinishedTis {r : TIRef} : r ∈ unfinishedTis dag table ↔
    r ∈ dagTis dag table ∧ State.isUnfinished ((filterTis dag table).state r) = true :=
  List.mem_filter

variable (dag table) in
/-- The unfinished instances as the two passes visit them. -/
theorem visited_unfinishedTis :
    Visited dag (filterTis dag table) (finishedTis dag table) (unfinishedTis dag table) := by
  refine ⟨nodup_dagTis.filter _, fun r hr => ?_, fun r hr => ?_, fun r hr hfin => ?_⟩
  · obtain ⟨htask, hget⟩ := mem_dagTis.mp (mem_unfinishedTis.mp hr).1
    rw [filterTis_get dag htask]
    exact Option.isSome_iff_ne_none.mpr hget
  · obtain ⟨htask, -⟩ := mem_dagTis.mp (mem_unfinishedTis.mp hr).1
    obtain ⟨task, hmem, hid⟩ := List.mem_map.mp htask
    rw [Dag.getTask, List.find?_isSome]
    exact ⟨task, hmem, by simpa using hid⟩
  · have hun := (mem_unfinishedTis.mp hr).2
    have hf := (List.mem_filter.mp hfin).2
    rw [State.not_isFinished_of_isUnfinished hun] at hf
    cases hf

variable (dag table) in
theorem visited_schedulableTis :
    Visited dag (filterTis dag table) (finishedTis dag table) (schedulableTis dag table) := by
  have h := visited_unfinishedTis dag table
  have hsub : ∀ r ∈ schedulableTis dag table, r ∈ unfinishedTis dag table :=
    fun r hr => (List.mem_filter.mp hr).1
  exact ⟨h.nodup.filter _, fun r hr => h.get r (hsub r hr), fun r hr => h.task r (hsub r hr),
    fun r hr => h.unfinished r (hsub r hr)⟩

/-! ## Where a deadlock is found -/

variable (dag run table) in
/-- The instances before the call make it end as deadlocked: nothing may stand in the way of
scheduling, the dependencies of no unfinished instance are met, the schedulable ones are assigned
no state, and the check leaves an instance unfinished or reports no change. -/
structure Deadlocked : Prop where
  shouldSchedule : shouldSchedule dag (filterTis dag table) (unfinishedTis dag table) = true
  quiet : ∀ r ∈ schedulableTis dag table,
    (evaluate dag run (readyContext (finishedTis dag table)) (filterTis dag table) r).met = false ∧
    (evaluate dag run (readyContext (finishedTis dag table)) (filterTis dag table) r).session.state r
      = (filterTis dag table).state r
  unmet : ∀ r ∈ unfinishedTis dag table,
    (evaluate dag run (prematureContext (finishedTis dag table)) (filterTis dag table) r).met = false
  remains :
    (∀ r ∈ unfinishedTis dag table, (evaluate dag run (prematureContext (finishedTis dag table))
      (filterTis dag table) r).haveChangedTiStates = false) ∨
    ∃ r ∈ unfinishedTis dag table, State.isUnfinished ((evaluate dag run
      (prematureContext (finishedTis dag table)) (filterTis dag table) r).session.state r) = true

variable (dag run) in
theorem foldl_visit_readyTis (ctx : DepContext) (l : List TIRef) (p : ReadyPass) :
    p.readyTis <+: (l.foldl (ReadyPass.visit dag run ctx) p).readyTis := by
  induction l generalizing p with
  | nil => exact List.prefix_refl _
  | cons r l ih => exact (ReadyPass.visit_readyTis run ctx p dag r).trans (ih _)

theorem foldl_visit_expansionHappened (ctx : DepContext) (l : List TIRef) (p : ReadyPass)
    (h : p.expansionHappened = true) :
    (l.foldl (ReadyPass.visit dag run ctx) p).expansionHappened = true := by
  induction l generalizing p with
  | nil => exact h
  | cons r l ih => exact ih _ (ReadyPass.visit_expansionHappened run ctx p dag r h)

/-- A ready pass of a call that found nothing only visited the schedulable instances. -/
theorem callReadyPass_quiet (hexp : (callReadyPass dag run table).expansionHappened = false)
    (hready : (callReadyPass dag run table).readyTis = []) :
    QuietPass dag run (filterTis dag table) (finishedTis dag table) (schedulableTis dag table)
      (callReadyPass dag run table) := by
  have hexp' : (passAfter dag run (filterTis dag table) (finishedTis dag table)
      (schedulableTis dag table)).expansionHappened = false := by
    rw [Bool.eq_false_iff]
    intro h
    rw [callReadyPass, readyPass, ← passAfter, foldl_visit_expansionHappened _ _ _ h] at hexp
    cases hexp
  have hready' : (passAfter dag run (filterTis dag table) (finishedTis dag table)
      (schedulableTis dag table)).readyTis = [] := by
    have hpre := foldl_visit_readyTis dag run (readyContext (finishedTis dag table))
      (passAfter dag run (filterTis dag table) (finishedTis dag table)
        (schedulableTis dag table)).additionalTis
      (passAfter dag run (filterTis dag table) (finishedTis dag table) (schedulableTis dag table))
    rw [callReadyPass, readyPass, ← passAfter] at hready
    rw [hready] at hpre
    exact List.prefix_nil.mp hpre
  have hq := quietPass (visited_schedulableTis dag table) hexp' hready'
  have heq : callReadyPass dag run table = passAfter dag run (filterTis dag table)
      (finishedTis dag table) (schedulableTis dag table) := by
    rw [callReadyPass, readyPass, ← passAfter, hq.additional]
    rfl
  rwa [heq]

/-- What a call that checks for a deadlock found in its ready pass. -/
theorem checksDeadlock_iff : ChecksDeadlock dag run table ↔
    unfinishedTis dag table ≠ [] ∧
    (callReadyPass dag run table).expansionHappened = false ∧
    (callReadyPass dag run table).readyTis = [] ∧
    (callReadyPass dag run table).changedTis = false ∧
    shouldSchedule dag (callReadyPass dag run table).session (unfinishedTis dag table) = true := by
  unfold ChecksDeadlock
  by_cases hnil : unfinishedTis dag table = []
  · rw [decisions_of_nil run hnil]
    simp [TISchedulingDecision.checksDeadlock, shouldSchedule, hnil]
  · obtain ⟨hsession, hready, hchanged, hun, -⟩ := decisions_of_ne_nil run hnil
    unfold TISchedulingDecision.checksDeadlock
    rw [hsession, hready, hchanged, hun]
    cases (callReadyPass dag run table).expansionHappened with
    | true => simp
    | false =>
      simp only [Bool.false_eq_true, if_false, Bool.false_or, Bool.and_eq_true,
        List.isEmpty_iff, Bool.not_eq_true', ne_eq, hnil, not_false_eq_true, true_and]
      tauto

/-- The round of a call that checks for a deadlock. -/
theorem decisions_of_checksDeadlock (h : ChecksDeadlock dag run table) :
    (taskInstanceSchedulingDecisions dag run table).session = (callReadyPass dag run table).session ∧
    (taskInstanceSchedulingDecisions dag run table).unfinishedTis = unfinishedTis dag table ∧
    (taskInstanceSchedulingDecisions dag run table).finishedTis = finishedTis dag table ∧
    (taskInstanceSchedulingDecisions dag run table).schedulableTis = [] := by
  obtain ⟨hnil, hexp, hready, -, -⟩ := checksDeadlock_iff.mp h
  obtain ⟨hsession, hsched, -, hun, hfin⟩ := decisions_of_ne_nil run hnil
  refine ⟨hsession, ?_, hfin hexp, hsched.trans hready⟩
  rw [hun, hexp]
  rfl

/-- The deadlock check of a call whose ready pass changed nothing. -/
theorem callDeadlockCheck_eq (h : ChecksDeadlock dag run table)
    (hs : (callReadyPass dag run table).session = filterTis dag table) :
    callDeadlockCheck dag run table =
      arePrematureTis dag run (filterTis dag table) (unfinishedTis dag table)
        (finishedTis dag table) := by
  obtain ⟨hsession, hun, hfin, -⟩ := decisions_of_checksDeadlock h
  unfold callDeadlockCheck
  dsimp only
  rw [hsession, hun, hfin, hs]

/-- A ready pass that found and changed nothing, with a check that met no dependencies, left the
session as it was. -/
theorem quiet_of_unmet (hcheck : ChecksDeadlock dag run table)
    (hmet : (callDeadlockCheck dag run table).met = false) :
    (callReadyPass dag run table).session = filterTis dag table ∧
    ∀ r ∈ schedulableTis dag table,
      (evaluate dag run (readyContext (finishedTis dag table)) (filterTis dag table) r).met = false ∧
      (evaluate dag run (readyContext (finishedTis dag table)) (filterTis dag table)
        r).session.state r = (filterTis dag table).state r := by
  obtain ⟨-, hexp, hready, hchanged, -⟩ := checksDeadlock_iff.mp hcheck
  have hq := callReadyPass_quiet hexp hready
  have hv := visited_schedulableTis dag table
  have hvu := visited_unfinishedTis dag table
  have hunmetU : ∀ r ∈ unfinishedTis dag table,
      (evaluate dag run (prematureContext (finishedTis dag table))
        (callReadyPass dag run table).session r).met = false := by
    obtain ⟨hsession, hun, hfin, -⟩ := decisions_of_checksDeadlock hcheck
    have hvis : Visited dag (callReadyPass dag run table).session (finishedTis dag table)
        (unfinishedTis dag table) :=
      ⟨hvu.nodup, fun r hr => (hq.written.isSome r).trans (hvu.get r hr), hvu.task, hvu.unfinished⟩
    rw [callDeadlockCheck, hsession, hun, hfin] at hmet
    exact ((arePrematureTis_spec run hvis).2 hmet).unmet
  have hunmet : ∀ r ∈ schedulableTis dag table,
      (evaluate dag run (readyContext (finishedTis dag table)) (filterTis dag table) r).met
        = false := by
    intro r hr
    rw [Bool.eq_false_iff]
    intro hme
    obtain ⟨task, htask, hidx⟩ := hq.met r hr hme
    rw [evaluate_eq run htask] at hme
    have hpre := premature_met_of_ready_met hq.written
      (fun r' hr' hl => hv.unfinished r' hl hr') (hv.unfinished r hr) hme hidx
    have hun := hunmetU r (List.mem_filter.mp hr).1
    rw [evaluate_eq run htask, hpre] at hun
    cases hun
  have hstate : ∀ r ∈ schedulableTis dag table,
      (callReadyPass dag run table).session.state r = (filterTis dag table).state r := by
    intro r hr
    have hmem := hq.unmet r hr (hunmet r hr)
    rw [ReadyPass.changedTis, List.any_eq_false] at hchanged
    simpa using hchanged _ hmem
  refine ⟨hq.written.eq_of_state fun r => ?_, fun r hr => ⟨hunmet r hr, ?_⟩⟩
  · by_cases hr : r ∈ schedulableTis dag table
    · exact hstate r hr
    · exact hq.written.state hr
  · rw [← hq.state r hr]
    exact hstate r hr

/-- The call checks for a deadlock where the schedulable instances are left as they are. -/
theorem Deadlocked.checksDeadlock (h : Deadlocked dag run table) :
    ChecksDeadlock dag run table ∧ (callReadyPass dag run table).session = filterTis dag table := by
  have hv := visited_schedulableTis dag table
  have hpass : passAfter dag run (filterTis dag table) (finishedTis dag table)
      (schedulableTis dag table) =
      .unchanged (filterTis dag table) (schedulableTis dag table) := by
    refine passAfter_of_quiet hv.task fun r hr => ⟨(h.quiet r hr).1, ?_⟩
    have hw := WrittenOn.of_written (evaluate_written run dag
      (readyContext (finishedTis dag table)) (filterTis dag table) r)
    refine hw.eq_of_state fun r' => ?_
    by_cases hr' : r' = r
    · rw [hr']
      exact (h.quiet r hr).2
    · exact hw.state hr'
  have heq : callReadyPass dag run table =
      .unchanged (filterTis dag table) (schedulableTis dag table) := by
    rw [callReadyPass, readyPass, ← passAfter, hpass]
    rfl
  refine ⟨checksDeadlock_iff.mpr ?_, by rw [heq]; rfl⟩
  rw [heq]
  refine ⟨fun hnil => ?_, rfl, rfl, ?_, h.shouldSchedule⟩
  · have hs := h.shouldSchedule
    rw [hnil] at hs
    cases hs
  · simp [ReadyPass.changedTis, ReadyPass.unchanged]

/-- The check of a call on which a deadlock is found. -/
theorem Deadlocked.checked (h : Deadlocked dag run table) :
    (callDeadlockCheck dag run table).met = false ∧
    CheckedUnmet dag run (prematureContext (finishedTis dag table)) (filterTis dag table)
      (unfinishedTis dag table) false (callDeadlockCheck dag run table) := by
  obtain ⟨hcheck, hs⟩ := h.checksDeadlock
  rw [callDeadlockCheck_eq hcheck hs]
  obtain ⟨hmet, hunmet⟩ := arePrematureTis_spec run (visited_unfinishedTis dag table)
  have hfalse : (arePrematureTis dag run (filterTis dag table) (unfinishedTis dag table)
      (finishedTis dag table)).met = false := by
    rw [Bool.eq_false_iff]
    intro hm
    obtain ⟨r, hr, hr'⟩ := hmet hm
    rw [h.unmet r hr] at hr'
    cases hr'
  exact ⟨hfalse, hunmet hfalse⟩

variable (dag run) in
/-- An evaluation assigns a dependency state or leaves the state as it is. -/
theorem evaluate_state (ctx : DepContext) (s : Session) (r : TIRef) :
    (evaluate dag run ctx s r).session.state r = s.state r ∨
      isDependencyState ((evaluate dag run ctx s r).session.state r) = true := by
  rcases evaluate_written run dag ctx s r with heq | ⟨state, hstate, heq⟩
  · rw [heq]
    exact .inl rfl
  · rw [heq]
    cases hget : s.get r with
    | none => simp [Session.state, Session.setState, Session.get_assign_self, hget]
    | some ti => simp [Session.state, Session.setState, Session.get_assign_self, hget, hstate]

/-- Scheduling stays possible for the instances that remain unfinished. -/
theorem shouldSchedule_of_subset {s s' : Session} {l l' : List TIRef} (hne : l' ≠ [])
    (hsub : ∀ r ∈ l', r ∈ l) (h : shouldSchedule dag s l = true)
    (hstate : ∀ r ∈ l', s.state r ≠ some .deferred → s'.state r ≠ some .deferred) :
    shouldSchedule dag s' l' = true := by
  simp only [shouldSchedule, Bool.and_eq_true, List.all_eq_true, Bool.not_eq_true',
    List.isEmpty_eq_false_iff, decide_eq_true_eq] at h ⊢
  obtain ⟨⟨-, htasks⟩, hdeferred⟩ := h
  exact ⟨⟨hne, fun r hr => htasks r (hsub r hr)⟩,
    fun r hr => hstate r hr (hdeferred r (hsub r hr))⟩

theorem verdictUnfinished_checked (h : ChecksDeadlock dag run table) :
    verdictUnfinished dag run table =
      if (callDeadlockCheck dag run table).haveChangedTiStates then
        (unfinishedTis dag table).filter
          (State.isUnfinished <| (callDeadlockCheck dag run table).session.state ·)
      else unfinishedTis dag table := by
  have hc := h
  unfold ChecksDeadlock at hc
  unfold verdictUnfinished
  dsimp only
  rw [hc, (decisions_of_checksDeadlock h).2.1, Bool.true_and]

theorem areRunnable_checked (h : ChecksDeadlock dag run table) :
    areRunnable dag run table = (callDeadlockCheck dag run table).met := by
  unfold ChecksDeadlock at h
  unfold areRunnable
  dsimp only
  rw [if_pos h]

/-- **`update_state` fails a run as deadlocked exactly on the instances of `Deadlocked`.** -/
theorem deadlocked_iff : (updateState dag run table).verdict = .allTasksDeadlocked ↔
    Deadlocked dag run table := by
  rw [updateState_verdict, verdict_deadlocked_iff]
  constructor
  · rintro ⟨hsched, hrun⟩
    have hcheck : ChecksDeadlock dag run table := by
      by_contra hno
      rw [passedSession_unchecked hno] at hsched
      unfold ChecksDeadlock at hno
      rw [Bool.not_eq_true] at hno
      simp only [areRunnable, verdictUnfinished, hno, Bool.false_eq_true, if_false,
        Bool.false_and, Bool.or_eq_false_iff, Bool.not_eq_false'] at hsched hrun
      simp [TISchedulingDecision.checksDeadlock, hsched, hrun.1, hrun.2] at hno
    rw [areRunnable_checked hcheck] at hrun
    obtain ⟨hs, hquiet⟩ := quiet_of_unmet hcheck hrun
    have hshould := (checksDeadlock_iff.mp hcheck).2.2.2.2
    rw [hs] at hshould
    have heq := callDeadlockCheck_eq hcheck hs
    rw [heq] at hrun
    have hun := (arePrematureTis_spec run (visited_unfinishedTis dag table)).2 hrun
    refine ⟨hshould, hquiet, hun.unmet, ?_⟩
    rw [verdictUnfinished_checked hcheck, heq] at hsched
    cases hch : (arePrematureTis dag run (filterTis dag table) (unfinishedTis dag table)
      (finishedTis dag table)).haveChangedTiStates with
    | false =>
      left
      rw [hun.changed, Bool.false_or, List.any_eq_false] at hch
      exact fun r hr => by simpa using hch r hr
    | true =>
      right
      rw [hch, if_pos rfl] at hsched
      simp only [shouldSchedule, Bool.and_eq_true, Bool.not_eq_true',
        List.isEmpty_eq_false_iff] at hsched
      obtain ⟨r, hr⟩ := List.exists_mem_of_ne_nil _ hsched.1.1
      obtain ⟨hmem, hstate⟩ := List.mem_filter.mp hr
      exact ⟨r, hmem, by rw [← hun.state r hmem]; exact hstate⟩
  · intro h
    obtain ⟨hcheck, hs⟩ := h.checksDeadlock
    obtain ⟨hmet, hun⟩ := h.checked
    refine ⟨?_, (areRunnable_checked hcheck).trans hmet⟩
    rw [passedSession_checked hcheck, verdictUnfinished_checked hcheck]
    have hne : unfinishedTis dag table ≠ [] := (checksDeadlock_iff.mp hcheck).1
    have hdeferred : ∀ r ∈ unfinishedTis dag table,
        (filterTis dag table).state r ≠ some .deferred →
        (callDeadlockCheck dag run table).session.state r ≠ some .deferred := by
      intro r hr hd
      rw [hun.state r hr]
      rcases evaluate_state dag run (prematureContext (finishedTis dag table))
        (filterTis dag table) r with heq | hdep
      · rw [heq]
        exact hd
      · intro heq
        rw [heq] at hdep
        cases hdep
    cases hch : (callDeadlockCheck dag run table).haveChangedTiStates with
    | false => exact shouldSchedule_of_subset hne (fun _ hr => hr) h.shouldSchedule hdeferred
    | true =>
      rw [if_pos rfl]
      refine shouldSchedule_of_subset (fun hnil => ?_) (fun r hr => (List.mem_filter.mp hr).1)
        h.shouldSchedule fun r hr => hdeferred r (List.mem_filter.mp hr).1
      rcases h.remains with hnone | ⟨r, hr, hst⟩
      · rw [hun.changed, Bool.false_or, List.any_eq_true] at hch
        obtain ⟨r, hr, hr'⟩ := hch
        rw [hnone r hr] at hr'
        cases hr'
      · rw [← hun.state r hr] at hst
        have hmem : r ∈ (unfinishedTis dag table).filter
            (State.isUnfinished <| (callDeadlockCheck dag run table).session.state ·) :=
          List.mem_filter.mpr ⟨hr, hst⟩
        rw [hnil] at hmem
        cases hmem

/-- The states that a call leaves when it finds a deadlock. -/
theorem Deadlocked.state (h : Deadlocked dag run table) (r : TIRef) :
    (passedSession dag run table).state r =
      if r ∈ unfinishedTis dag table then
        (evaluate dag run (prematureContext (finishedTis dag table)) (filterTis dag table)
          r).session.state r
      else (filterTis dag table).state r := by
  obtain ⟨hcheck, -⟩ := h.checksDeadlock
  rw [passedSession_checked hcheck]
  split
  · next hr => exact h.checked.2.state r hr
  · next hr => exact h.checked.2.written.state hr

/-! ## When the outcome is right -/

variable (dag run table) in
/-- No instance that the call captured as unfinished counts as unfinished at its end: there was
none, or they all finished in the call and it took notice, because it expanded an instance or
because the deadlock check reported a change. -/
def Drained : Prop :=
  unfinishedTis dag table = [] ∨
  ((∀ r ∈ unfinishedTis dag table,
      State.isUnfinished ((passedSession dag run table).state r) = false) ∧
    ((callReadyPass dag run table).expansionHappened = true ∨
      (ChecksDeadlock dag run table ∧
        (callDeadlockCheck dag run table).haveChangedTiStates = true)))

variable (dag run table) in
/-- The captured instances that `_tis_for_dagrun_state` considers. -/
def capturedLeaves : List TIRef :=
  tisForDagrunState dag (passedSession dag run table) (dagTis dag table)

variable (dag run table) in
/-- A captured leaf failed, or all of them succeeded. -/
def Decides : Prop :=
  (∃ r ∈ capturedLeaves dag run table,
    State.isFailed ((passedSession dag run table).state r) = true) ∨
  ∀ r ∈ capturedLeaves dag run table,
    State.isSuccess ((passedSession dag run table).state r) = true

variable (dag run table) in
/-- The captured instances speak for those of the DAG: none is in `SHUTDOWN`, every instance
created in the call is finished and no leaf failed among those created only, and no leaf failed
among those that expansion deleted only. -/
structure VerdictCovers : Prop where
  shutdown : ∀ r ∈ dagTis dag table, (passedSession dag run table).live r = true →
    (passedSession dag run table).state r ≠ some .shutdown
  created : ∀ r, r.taskId ∈ dag.taskIds → (Session.load table).get r = none →
    (passedSession dag run table).live r = true →
    State.isFinished ((passedSession dag run table).state r) = true ∧
    (r.taskId ∈ dag.leafTaskIds →
      State.isFailed ((passedSession dag run table).state r) = true →
      ∃ r' ∈ capturedLeaves dag run table,
        State.isFailed ((passedSession dag run table).state r') = true)
  deleted : ∀ r ∈ capturedLeaves dag run table,
    State.isFailed ((passedSession dag run table).state r) = true →
    ∃ r', Considered dag (passedSession dag run table) r' ∧
      State.isFailed ((passedSession dag run table).state r') = true

variable (dag run table) in
/-- A deadlock is found by a call that changed an instance: its check assigned a state, or a task
of an instance was gone from the DAG. -/
def DeadlockChanges : Prop :=
  Deadlocked dag run table ∧
  ((∃ r ∈ unfinishedTis dag table, (evaluate dag run (prematureContext (finishedTis dag table))
      (filterTis dag table) r).session.state r ≠ (filterTis dag table).state r) ∨
    ∃ r, (Session.load table).live r = true ∧
      (filterTis dag table).state r ≠ (Session.load table).state r)

theorem verdictUnfinished_nil_iff :
    verdictUnfinished dag run table = [] ↔ Drained dag run table := by
  unfold Drained
  by_cases hcheck : ChecksDeadlock dag run table
  · obtain ⟨hne, hexp, -, -, -⟩ := checksDeadlock_iff.mp hcheck
    rw [verdictUnfinished_checked hcheck, passedSession_checked hcheck]
    cases (callDeadlockCheck dag run table).haveChangedTiStates with
    | false => simp [hexp]
    | true => simp [hcheck, hne, List.filter_eq_nil_iff]
  · have hlist : verdictUnfinished dag run table =
        (taskInstanceSchedulingDecisions dag run table).unfinishedTis := by
      have hno := hcheck
      unfold ChecksDeadlock at hno
      rw [Bool.not_eq_true] at hno
      simp [verdictUnfinished, hno]
    rw [hlist, passedSession_unchecked hcheck]
    by_cases hnil : unfinishedTis dag table = []
    · simp [decisions_of_nil run hnil, hnil]
    · obtain ⟨hsession, -, -, hun, -⟩ := decisions_of_ne_nil run hnil
      rw [hsession, hun]
      cases (callReadyPass dag run table).expansionHappened with
      | false => simp [hnil, hcheck]
      | true => simp [hnil, List.filter_eq_nil_iff]

variable (run) in
/-- A captured instance that was not unfinished keeps its state, unless it is set to `REMOVED`. -/
theorem captured_state {r : TIRef} (hr : r ∈ dagTis dag table)
    (hun : r ∉ unfinishedTis dag table) :
    (passedSession dag run table).state r = (Session.load table).state r ∨
      (passedSession dag run table).state r = some .removed := by
  obtain ⟨htask, hget⟩ := mem_dagTis.mp hr
  have hinfo : (taskInstanceSchedulingDecisions dag run table).session.state r =
      (Session.load table).state r ∨
      (taskInstanceSchedulingDecisions dag run table).session.state r = some .removed := by
    obtain ⟨ti, hti⟩ := Option.ne_none_iff_exists'.mp hget
    rw [← filterTis_get dag htask] at hti
    obtain ⟨ti', hti', hstep⟩ := (decisions_rowInv run).row r ti hti
    rw [← filterTis_state dag htask, Session.state_eq hti, Session.state_eq hti']
    rcases hstep.state with h | ⟨h, -⟩ | ⟨h, -⟩
    · exact .inl h
    · refine absurd (mem_unfinishedTis.mpr ⟨hr, ?_⟩) hun
      rw [Session.state_eq hti]
      exact State.isUnfinished_of_isScheduleable h
    · exact .inr h
  by_cases hcheck : ChecksDeadlock dag run table
  · rw [passedSession_checked hcheck]
    have hw := anyDependenciesMet_written dag run
      (prematureContext (taskInstanceSchedulingDecisions dag run table).finishedTis)
      (taskInstanceSchedulingDecisions dag run table).unfinishedTis
      { session := (taskInstanceSchedulingDecisions dag run table).session }
    rw [(decisions_of_checksDeadlock hcheck).2.1] at hw
    have hstate := hw.state hun
    rw [callDeadlockCheck, arePrematureTis, (decisions_of_checksDeadlock hcheck).2.1, hstate]
    exact hinfo
  · rw [passedSession_unchecked hcheck]
    exact hinfo

/-- **The instances of the DAG are all finished when no captured one is unfinished and the captured
ones speak for all.** -/
theorem allFinished_of_covers (hd : Drained dag run table) (hc : VerdictCovers dag run table) :
    AllFinished dag (passedSession dag run table) := by
  intro r htask hlive
  by_cases hget : (Session.load table).get r = none
  · exact (hc.created r htask hget hlive).1
  have hr : r ∈ dagTis dag table := mem_dagTis.mpr ⟨htask, hget⟩
  have hcases := State.isFinished_or_isUnfinished ((passedSession dag run table).state r)
  by_cases hun : r ∈ unfinishedTis dag table
  · rcases hd with hnil | ⟨hall, -⟩
    · rw [hnil] at hun
      cases hun
    · rcases hcases with h | h | h
      · exact h
      · rw [hall r hun] at h
        cases h
      · exact absurd h (hc.shutdown r hr hlive)
  · rcases captured_state run hr hun with h | h
    · rcases hcases with h' | h' | h'
      · exact h'
      · refine absurd (mem_unfinishedTis.mpr ⟨hr, ?_⟩) hun
        rw [filterTis_state dag htask, ← h]
        exact h'
      · exact absurd h' (hc.shutdown r hr hlive)
    · rw [h]
      rfl

theorem mem_taskIds_of_leaf {t : TaskId} (h : t ∈ dag.leafTaskIds) : t ∈ dag.taskIds := by
  unfold Dag.leafTaskIds at h
  dsimp only at h
  split at h
  all_goals
    obtain ⟨x, hx, rfl⟩ := List.mem_map.mp h
    exact List.mem_map_of_mem (List.mem_filter.mp hx).1

theorem State.not_isSuccess_of_isFailed {s : TIState} (h : State.isFailed s = true) :
    State.isSuccess s = false := by
  rcases s with _ | s
  · cases h
  · cases s <;> first | rfl | cases h

/-- The verdict of a call that leaves no captured instance unfinished. -/
theorem verdict_of_drained (hd : Drained dag run table) :
    ((updateState dag run table).verdict = .taskFailure ↔ ∃ r ∈ capturedLeaves dag run table,
      State.isFailed ((passedSession dag run table).state r) = true) ∧
    ((updateState dag run table).verdict = .success ↔ (¬∃ r ∈ capturedLeaves dag run table,
      State.isFailed ((passedSession dag run table).state r) = true) ∧
      ∀ r ∈ capturedLeaves dag run table,
        State.isSuccess ((passedSession dag run table).state r) = true) := by
  have hnil := verdictUnfinished_nil_iff.mpr hd
  rw [updateState_verdict, verdict_taskFailure_iff, verdict_success_iff]
  exact ⟨and_iff_right hnil, and_iff_right hnil⟩

/-- A captured instance of the DAG is stored. -/
theorem load_live {r : TIRef} (hr : r ∈ dagTis dag table) : (Session.load table).live r = true := by
  obtain ⟨ti, hti⟩ := Option.ne_none_iff_exists'.mp (mem_dagTis.mp hr).2
  obtain ⟨row, -, -, rfl⟩ := load_get hti
  simp [Session.live, hti, TaskInstanceRow.load]

theorem unfinishedTis_of_allFinished (h : AllFinished dag (.load table)) :
    unfinishedTis dag table = [] := by
  refine List.filter_eq_nil_iff.mpr fun r hr hun => ?_
  have htask := (mem_dagTis.mp hr).1
  rw [filterTis_state dag htask] at hun
  have hfin := h r htask (load_live hr)
  rw [State.not_isFinished_of_isUnfinished hun] at hfin
  cases hfin

/-- A call in which every instance is finished decides the outcome. -/
theorem decided_of_allFinished (h : AllFinished dag (.load table)) :
    (updateState dag run table).verdict = .success ∨
      (updateState dag run table).verdict = .taskFailure := by
  have hnil := unfinishedTis_of_allFinished h
  have hd : Drained dag run table := .inl hnil
  obtain ⟨hfailure, hsuccess⟩ := verdict_of_drained hd
  by_cases hfailed : ∃ r ∈ capturedLeaves dag run table,
      State.isFailed ((passedSession dag run table).state r) = true
  · exact .inr (hfailure.mpr hfailed)
  · refine .inl (hsuccess.mpr ⟨hfailed, fun r hr => ?_⟩)
    obtain ⟨hmem, hleaf⟩ := List.mem_filter.mp hr
    have htask := (mem_dagTis.mp hmem).1
    have hfin : State.isFinished ((passedSession dag run table).state r) = true := by
      rcases captured_state run hmem (by simp [hnil]) with heq | heq
      · rw [heq]
        exact h r htask (load_live hmem)
      · rw [heq]
        rfl
    rcases State.isFinished_cases hfin with hs | hf | hrem
    · exact hs
    · exact absurd ⟨r, hr, hf⟩ hfailed
    · exact absurd hrem (of_decide_eq_true hleaf).2

/-- A call whose outcome is right covers the instances of the DAG when it decides. -/
theorem OutcomeCorrect.covers (h : OutcomeCorrect dag run table) (hd : Drained dag run table)
    (hdec : Decides dag run table) : VerdictCovers dag run table := by
  obtain ⟨hfailure, hsuccess⟩ := verdict_of_drained hd
  have hnot_shutdown : AllFinished dag (passedSession dag run table) →
      ∀ r ∈ dagTis dag table, (passedSession dag run table).live r = true →
        (passedSession dag run table).state r ≠ some .shutdown := by
    intro hall r hr hlive heq
    have hfin := hall r (mem_dagTis.mp hr).1 hlive
    rw [heq] at hfin
    cases hfin
  by_cases hfailed : ∃ r ∈ capturedLeaves dag run table,
      State.isFailed ((passedSession dag run table).state r) = true
  · have hout := h.failure (hfailure.mpr hfailed)
    rw [updateState_session] at hout
    obtain ⟨hall, hex⟩ := hout
    exact ⟨hnot_shutdown hall, fun r htask _ hlive => ⟨hall r htask hlive, fun _ _ => hfailed⟩,
      fun _ _ _ => hex⟩
  · have hout := h.success (hsuccess.mpr ⟨hfailed, hdec.resolve_left hfailed⟩)
    rw [updateState_session] at hout
    obtain ⟨hall, hok⟩ := hout
    refine ⟨hnot_shutdown hall, fun r htask _ hlive => ⟨hall r htask hlive, fun hleaf hf => ?_⟩,
      fun r hr hf => absurd ⟨r, hr, hf⟩ hfailed⟩
    have hs := hok r ⟨hleaf, hlive, fun heq => by rw [heq] at hf; cases hf⟩
    rw [State.not_isSuccess_of_isFailed hf] at hs
    cases hs

/-- A call whose outcome is right finds no deadlock after it changed an instance. -/
theorem OutcomeCorrect.not_deadlockChanges (h : OutcomeCorrect dag run table) :
    ¬DeadlockChanges dag run table := by
  rintro ⟨hdead, hchange⟩
  have hout := h.deadlock (deadlocked_iff.mpr hdead)
  rw [updateState_session] at hout
  obtain ⟨-, hsame⟩ := hout
  rcases hchange with ⟨r, hr, hne⟩ | ⟨r, hlive, hne⟩
  · have hmem := (mem_unfinishedTis.mp hr).1
    have heq := hsame r (load_live hmem)
    rw [hdead.state, if_pos hr, ← filterTis_state dag (mem_dagTis.mp hmem).1] at heq
    exact hne heq
  · have heq := hsame r hlive
    by_cases hr : r ∈ unfinishedTis dag table
    · exact hne (filterTis_state dag (mem_dagTis.mp (mem_unfinishedTis.mp hr).1).1)
    · rw [hdead.state, if_neg hr] at heq
      exact hne heq

/-- The run succeeds rightly where the captured instances speak for all. -/
theorem success_of_covers
    (hcovers : Drained dag run table → Decides dag run table → VerdictCovers dag run table)
    (hv : (updateState dag run table).verdict = .success) :
    AllFinished dag (passedSession dag run table) ∧
    ∀ r, Considered dag (passedSession dag run table) r →
      State.isSuccess ((passedSession dag run table).state r) = true := by
  have hd : Drained dag run table := by
    rw [updateState_verdict, verdict_success_iff] at hv
    exact verdictUnfinished_nil_iff.mp hv.1
  obtain ⟨hfailed, hok⟩ := (verdict_of_drained hd).2.mp hv
  have hc := hcovers hd (.inr hok)
  have hall := allFinished_of_covers hd hc
  refine ⟨hall, fun r hr => ?_⟩
  have htask := mem_taskIds_of_leaf hr.leaf
  rcases State.isFinished_cases (hall r htask hr.live) with hs | hf | hrem
  · exact hs
  · by_cases hget : (Session.load table).get r = none
    · exact absurd ((hc.created r htask hget hr.live).2 hr.leaf hf) hfailed
    · exact absurd ⟨r, List.mem_filter.mpr ⟨mem_dagTis.mpr ⟨htask, hget⟩,
        decide_eq_true ⟨hr.leaf, hr.not_removed⟩⟩, hf⟩ hfailed
  · exact absurd hrem hr.not_removed

/-- The run fails rightly where the captured instances speak for all. -/
theorem failure_of_covers
    (hcovers : Drained dag run table → Decides dag run table → VerdictCovers dag run table)
    (hv : (updateState dag run table).verdict = .taskFailure) :
    AllFinished dag (passedSession dag run table) ∧
    ∃ r, Considered dag (passedSession dag run table) r ∧
      State.isFailed ((passedSession dag run table).state r) = true := by
  have hd : Drained dag run table := by
    rw [updateState_verdict, verdict_taskFailure_iff] at hv
    exact verdictUnfinished_nil_iff.mp hv.1
  obtain ⟨r, hr, hf⟩ := (verdict_of_drained hd).1.mp hv
  have hc := hcovers hd (.inl ⟨r, hr, hf⟩)
  exact ⟨allFinished_of_covers hd hc, hc.deleted r hr hf⟩

/-- A deadlock is found rightly where the call changed nothing. -/
theorem deadlock_of_unchanged (hno : ¬DeadlockChanges dag run table)
    (hv : (updateState dag run table).verdict = .allTasksDeadlocked) :
    (updateState dag run table).schedulableTis = [] ∧
    ∀ r, (Session.load table).live r = true →
      (passedSession dag run table).state r = (Session.load table).state r := by
  have hdl := deadlocked_iff.mp hv
  obtain ⟨hcheck, -⟩ := hdl.checksDeadlock
  refine ⟨?_, fun r hlive => ?_⟩
  · rw [updateState_schedulableTis]
    exact (decisions_of_checksDeadlock hcheck).2.2.2
  · by_contra hne
    refine hno ⟨hdl, ?_⟩
    rw [hdl.state] at hne
    split at hne
    · next hr =>
      refine .inl ⟨r, hr, ?_⟩
      rwa [filterTis_state dag (mem_dagTis.mp (mem_unfinishedTis.mp hr).1).1]
    · exact .inr ⟨r, hlive, hne⟩

end

/-! ### A run that succeeds too early -/

/-- A mapped task group of length two. -/
def pairGroup : MappedTaskGroup := ⟨0, .dictOfLists [.literal 2]⟩

/-- Two tasks in the group, one after the other. -/
def pairDag : Dag where
  tasks := [
    { taskId := 1, downstreamTaskIds := [2], mappedTaskGroups := [pairGroup] },
    { taskId := 2, upstreamTaskIds := [1], mappedTaskGroups := [pairGroup] }]

/-- The first task is finished, the second is not expanded. -/
def pairTable : TaskInstanceTable where
  rows := [
    { taskId := 1, mapIndex := 0, state := some .skipped },
    { taskId := 1, mapIndex := 1, state := some .success },
    { taskId := 2, mapIndex := -1, state := none }]

end Airflow
