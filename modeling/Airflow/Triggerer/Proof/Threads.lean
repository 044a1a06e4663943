import Airflow.Lib.Transition
import Airflow.Triggerer.Proof.MainThread
import Airflow.Triggerer.Proof.AsyncThread

/-!
# Once per assignment

In a run whose steps are all safe no assigned id is put into `to_create` again and no second
coroutine is started for one (`startedOnce_of_safe`). Where `create_triggers` takes an id between the
read of `triggers` and that of `to_create`, both can happen (`missedTurn_restarts`).
-/

namespace Airflow.Triggerer

variable {Kwargs Class Obj Event : Type}

namespace Threads

section
variable {s : Threads Kwargs Class Obj Event} {jobId : Nat}

/-! ## Steps -/

theorem Inv.stepArun (h : s.Inv jobId) (hfiring : s.firing = none) (hawaiting : s.awaiting = false)
    (hsafe : s.Safe jobId (.async : ThreadStep Kwargs Event)) : (s.stepArun jobId).Inv jobId := by
  unfold Threads.stepArun
  split
  · next hasync =>
    split
    · exact h.setAsync rfl (fun _ => by rw [hasync]; trivial) fun _ _ => nofun
    · next triggerId trigger rest htoCreate =>
      exact h.takeCreate hfiring hawaiting hasync hsafe htoCreate
  · next triggerId trigger hasync => exact h.createTrigger hfiring hasync
  · next hasync =>
    split
    · exact h.setAsync rfl (fun _ => by rw [hasync]; trivial) fun _ _ => nofun
    · next triggerId rest htoCancel => exact h.takeCancel hasync htoCancel
  · next triggerId hasync => exact h.cancelTrigger hfiring hasync
  · next hasync => exact h.setAsync rfl (fun _ => by rw [hasync]; trivial) fun _ _ => nofun
  · next triggerId triggerIds hasync => exact h.cleanupTrigger hasync
  · next hasync =>
    split
    · exact h.setAsync rfl (fun halive => halive.elim) fun _ _ => nofun
    · exact h.setAsync rfl (fun _ => by rw [hasync]; trivial) fun _ _ => nofun
  · next triggerId expected triggerIds hasync => exact h.deleteTrigger hfiring hasync _
  · exact h

theorem Inv.stepAsync (h : s.Inv jobId) (hsafe : s.Safe jobId (.async : ThreadStep Kwargs Event)) :
    (s.stepAsync jobId).Inv jobId := by
  unfold Threads.stepAsync
  split
  · next triggerId event hfiring => exact h.queueEvent hfiring
  · next hfiring =>
    by_cases hawaiting : s.awaiting = true
    · rw [if_pos hawaiting]
      exact h.setRunner rfl rfl rfl rfl rfl
    · rw [if_neg hawaiting]
      exact h.stepArun hfiring (eq_false_of_ne_true hawaiting) hsafe

/-- **A safe step keeps the invariant.** -/
theorem Inv.step (h : s.Inv jobId) (code : TriggerCode Kwargs Class Obj)
    (a : ThreadStep Kwargs Event) (hsafe : s.Safe jobId a) : (step code jobId s a).Inv jobId := by
  cases a with
  | main => exact h.stepMain code hsafe
  | async => exact h.stepAsync hsafe
  | assignUnassigned triggerIds =>
    simp only [Threads.step]
    split
    · next hmain => exact h.assignUnassigned hmain triggerIds
    · exact h
  | bulkFetch table =>
    simp only [Threads.step]
    split
    · next reads hmain => exact h.bulkFetch hmain table
    · exact h
  | fire triggerId event =>
    simp only [Threads.step]
    split
    · next hcond => exact h.fire (Option.isNone_iff_eq_none.mp hcond.2) triggerId event
    · exact h
  | finish triggerId result =>
    simp only [Threads.step]
    split
    · next hcond => exact h.finish (Option.isNone_iff_eq_none.mp hcond.2) hsafe
    · exact h
  | elsewhere tables triggererId =>
    simp only [Threads.step]
    split
    · next helsewhere => exact h.elsewhere helsewhere
    · exact h

end

/-! ## Runs -/

section
variable (code : TriggerCode Kwargs Class Obj) (jobId : Nat)

/-- A triggerer that has just started. -/
structure Started (s : Threads Kwargs Class Obj Event) : Prop where
  runner : ∃ jobId, s.runner = { jobId := jobId }
  main : s.main = .cleanUnused
  async : s.async = .createTriggers
  firing : s.firing = none
  records : s.started = [] ∧ s.queued = [] ∧ s.handled = [] ∧ s.doublePuts = [] ∧ s.restarts = []

theorem Started.inv {s : Threads Kwargs Class Obj Event} (h : s.Started) : s.Inv jobId := by
  obtain ⟨⟨job, hrunner⟩, hmain, hasync, hfiring, hstarted, hqueued, hhandled, hdouble, hrestarts⟩ :=
    h
  have hpending : s.pending = [] := by
    rw [pending, held, hasync, hrunner]
    rfl
  have hempty {p : Nat → Prop} : ∀ id ∈ s.pending, p id := by
    rw [hpending]
    exact fun _ hid => absurd hid List.not_mem_nil
  refine ⟨⟨?_, hempty, hempty, hempty⟩, fun id _ hb => ?_, fun id hid => ?_,
    fun id _ hmem => ?_, ?_, hdouble, hrestarts⟩
  · rw [hpending]
    exact List.nodup_nil
  · rw [Begun, hstarted, hqueued] at hb
    exact hb.2.elim (fun hid => absurd hid List.not_mem_nil) fun hid => absurd hid List.not_mem_nil
  · rw [hfiring] at hid
    cases hid
  · rw [hhandled] at hmem
    exact absurd hmem List.not_mem_nil
  · rw [MainInv, hmain]
    trivial

/-- **A trigger is started at most once per assignment**, in every run of safe steps. -/
theorem startedOnce_of_safe {s : Threads Kwargs Class Obj Event} (hs : s.Started)
    {steps : List (ThreadStep Kwargs Event)}
    (hsafe : Transition.AllSteps (step code jobId) (Safe jobId) s steps) :
    ∀ t ∈ Transition.states (step code jobId) s steps, t.StartedOnce := by
  have hinv : ∀ t ∈ Transition.states (step code jobId) s steps, t.Inv jobId :=
    hsafe.states (fun _ a hinv ha => Inv.step hinv code a ha) (hs.inv jobId)
  exact fun t ht => (hinv t ht).once

end

/-! ## One trigger -/

/-- A deferred task instance with its trigger. -/
def oneTrigger : Threads Unit String Unit String where
  tables := ⟨[1], [⟨some .deferred, some 1⟩]⟩
  triggererId _ := none

/-- The row of the trigger. -/
def oneRow : TriggerTable Unit where
  rows := [⟨1, "Sleep", .ok (), some { dagId := "d", runId := "r", taskId := "t", tryNumber := 1 }⟩]
  id_nodup := by decide

def oneClass : TriggerCode Unit String Unit where
  importString classpath := .ok classpath
  construct _ _ _ := .ok ()

theorem oneTrigger_started : oneTrigger.Started :=
  ⟨⟨none, rfl⟩, rfl, rfl, rfl, rfl, rfl, rfl, rfl, rfl⟩

/-- The first turn of the main thread, which assigns the trigger and puts it into `to_create`. -/
def firstTurn : List (ThreadStep Unit String) :=
  [.main, .assignUnassigned [1], .main, .main, .main, .main, .main, .main, .bulkFetch oneRow, .main,
    .main, .main, .main]

/-- A turn in which `create_triggers` takes the trigger and stores it before the main thread reads
`triggers`, and it sends its event after the reads. -/
def laterTurn : List (ThreadStep Unit String) :=
  [.async, .async, .main, .assignUnassigned [], .main, .main, .main, .main, .main, .main,
    .fire 1 "done", .async, .bulkFetch oneRow, .main, .main, .main, .main, .main]

theorem laterTurn_startedOnce :
    ((firstTurn ++ laterTurn).foldl (step oneClass 7) oneTrigger).StartedOnce ∧
      ((firstTurn ++ laterTurn).foldl (step oneClass 7) oneTrigger).handled = [1] := by
  refine ⟨?_, by decide⟩
  exact startedOnce_of_safe oneClass 7 oneTrigger_started (by decide) _
    (Transition.foldl_mem_states _ _)

/-- A turn in which the trigger is taken and stored between the read of `triggers` and that of
`to_create`, and sends its event and ends before `cleanup_finished_triggers`. -/
def missedTurn : List (ThreadStep Unit String) :=
  [.main, .assignUnassigned [], .main, .main, .async, .async, .main, .main, .main, .main,
    .fire 1 "done", .async, .finish 1 (.returned false), .async, .async, .bulkFetch oneRow, .main,
    .async, .async, .async, .async, .async, .async, .async, .async, .async]

/-- The trigger is put into `to_create` while it is running, and a second coroutine is started after
its event has been queued. -/
theorem missedTurn_restarts :
    oneTrigger.Started ∧
      ((firstTurn ++ missedTurn).foldl (step oneClass 7) oneTrigger).doublePuts = [1] ∧
      ((firstTurn ++ missedTurn).foldl (step oneClass 7) oneTrigger).restarts = [1] ∧
      ¬∀ t ∈ Transition.states (step oneClass 7) oneTrigger (firstTurn ++ missedTurn),
        t.StartedOnce := by
  refine ⟨oneTrigger_started, by decide, by decide, fun h => ?_⟩
  exact absurd (h _ (Transition.foldl_mem_states _ _)) (by decide)

end Threads

end Airflow.Triggerer
