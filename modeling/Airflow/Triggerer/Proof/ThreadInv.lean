import Airflow.Triggerer.Threads

/-!
# The invariant of the two threads

The invariant `Threads.Inv` follows an id through the collections: it is pending, then running, and
once its coroutine has been started or its event or failure has been queued, it is running
undisturbed or is found in a deque or has been passed on. While `update_triggers` reads, the
requested ids that it has not found are `Unknown`: what has been read rules them out of the
collections.
-/

namespace Airflow.Triggerer

variable {Kwargs Class Obj Event : Type}

/-! ## The invariant -/

/-- The ids that `update_triggers` is going to cancel. -/
def MainThread.cancels : MainThread Kwargs Event → List Nat
  | .readKnown reads _ | .addTriggers reads _ _ => reads.cancelTriggerIds
  | _ => []

/-- The id that is being passed on. -/
def MainThread.submitting : MainThread Kwargs Event → Option Nat
  | .submitEvent triggerId _ | .submitFailure triggerId _ => some triggerId
  | _ => none

/-- The trigger that is being cancelled or deleted. -/
def AsyncThread.ending : AsyncThread Obj → Option Nat
  | .cancelTrigger triggerId | .deleteTrigger triggerId _ _ => some triggerId
  | _ => none

/-- The thread may go on. -/
def AsyncThread.Alive : AsyncThread Obj → Prop
  | .exited => False
  | _ => True

namespace Threads

/-- The ids of the running triggers. -/
def running (s : Threads Kwargs Class Obj Event) : List Nat := s.runner.triggers.keys

/-- The ids that are going to be created. -/
def pending (s : Threads Kwargs Class Obj Event) : List Nat :=
  s.held.toList ++ s.runner.toCreate.map Prod.fst

/-- A coroutine has been started since the row was assigned, or an event or failure queued. A thread
that has ended starts no other. -/
def Begun (s : Threads Kwargs Class Obj Event) (id : Nat) : Prop :=
  s.async.Alive ∧ (id ∈ s.started ∨ id ∈ s.queued)

/-- The trigger runs, and nothing ends it before its event or failure is queued. -/
structure Live (s : Threads Kwargs Class Obj Event) (id : Nat) : Prop where
  details : ∃ details, s.runner.triggers.get? id = some details ∧ details.events = 0 ∧
    details.task.cancelRequested = false ∧
    ∀ result, details.task.result = some result → ¬TriggerRunner.ExpectedExit result
  toCancel : id ∉ s.runner.toCancel
  cancels : id ∉ s.main.cancels
  ending : s.async.ending ≠ some id

/-- An event or a failure of the trigger is on its way or has been passed on. -/
def Found (s : Threads Kwargs Class Obj Event) (id : Nat) : Prop :=
  s.firing.map Prod.fst = some id ∨ id ∈ s.runner.events.map Prod.fst ∨
    id ∈ s.runner.failedTriggers.map Prod.fst ∨ s.main.submitting = some id ∨ id ∈ s.handled

/-- An id that `update_triggers` has not found in what it has read; `left` are the deques that it
has not read yet. -/
structure Unknown (s : Threads Kwargs Class Obj Event) (jobId : Nat) (left : List Collection)
    (id : Nat) : Prop where
  running : id ∉ s.running
  held : s.held ≠ some id
  toCreate : .toCreate ∈ left ∨ id ∉ s.runner.toCreate.map Prod.fst
  toCancel : .toCancel ∈ left ∨ id ∉ s.runner.toCancel
  begun : s.Assigned jobId id → s.Begun id →
    .events ∈ left ∧ id ∈ s.runner.events.map Prod.fst ∨
    .failedTriggers ∈ left ∧ id ∈ s.runner.failedTriggers.map Prod.fst

/-- What holds at the place where the main thread is. -/
def MainInv (s : Threads Kwargs Class Obj Event) (jobId : Nat) : Prop :=
  match s.main with
  | .assignUnassigned | .idsForTriggerer => ∀ id, s.Assigned jobId id → id ∉ s.handled
  | .readTriggers requested => ∀ id, s.Assigned jobId id → id ∈ requested ∧ id ∉ s.handled
  | .readKnown reads left =>
    (∀ id, s.Assigned jobId id → id ∈ reads.requested) ∧
    ∀ id ∈ reads.requested, id ∉ reads.known → s.Unknown jobId left id
  | .addTriggers reads _ newIds =>
    (∀ id, s.Assigned jobId id → id ∈ reads.requested) ∧ newIds.Nodup ∧
    ∀ id ∈ newIds, id ∈ reads.requested ∧ s.Unknown jobId [] id
  | _ => True

/-- What holds of the ids that are going to be created. -/
structure PendingInv (s : Threads Kwargs Class Obj Event) (jobId : Nat) : Prop where
  nodup : s.pending.Nodup
  fresh : ∀ id ∈ s.pending, id ∉ s.running
  notBegun : ∀ id ∈ s.pending, s.Assigned jobId id → ¬s.Begun id
  notCancelled : ∀ id ∈ s.pending, id ∉ s.runner.toCancel ∧ id ∉ s.main.cancels

/-- The invariant of the two threads. -/
structure Inv (s : Threads Kwargs Class Obj Event) (jobId : Nat) : Prop where
  pending : s.PendingInv jobId
  begun : ∀ id, s.Assigned jobId id → s.Begun id → s.Live id ∨ s.Found id
  firing : ∀ id, s.firing.map Prod.fst = some id → id ∈ s.running
  handled : ∀ id, s.Assigned jobId id → id ∈ s.handled →
    ∀ ti ∈ s.tables.taskInstances, ti.state = some .deferred → ti.triggerId ≠ some id
  main : s.MainInv jobId
  once : s.StartedOnce

/-! ## What a step leaves -/

section
variable {s t : Threads Kwargs Class Obj Event} {jobId : Nat}

theorem PendingInv.of_sublist (h : s.PendingInv jobId) (hpending : t.pending.Sublist s.pending)
    (hassigned : ∀ id, t.Assigned jobId id → s.Assigned jobId id)
    (hrunning : ∀ id ∈ t.pending, id ∈ t.running → id ∈ s.running)
    (hbegun : ∀ id ∈ t.pending, t.Begun id → s.Begun id)
    (hcancel : ∀ id ∈ t.pending, id ∈ t.runner.toCancel ∨ id ∈ t.main.cancels →
      id ∈ s.runner.toCancel ∨ id ∈ s.main.cancels) : t.PendingInv jobId where
  nodup := h.nodup.sublist hpending
  fresh id hid hmem := h.fresh id (hpending.subset hid) (hrunning id hid hmem)
  notBegun id hid hmem hb :=
    h.notBegun id (hpending.subset hid) (hassigned id hmem) (hbegun id hid hb)
  notCancelled id hid := by
    have hnot := h.notCancelled id (hpending.subset hid)
    rw [← not_or] at hnot ⊢
    exact fun hmem => hnot (hcancel id hid hmem)

theorem Unknown.keep {left : List Collection} {id : Nat} (h : s.Unknown jobId left id)
    (hassigned : t.Assigned jobId id → s.Assigned jobId id)
    (hrunning : id ∈ t.running → id ∈ s.running) (hheld : t.held = some id → s.held = some id)
    (htoCreate : id ∈ t.runner.toCreate.map Prod.fst → id ∈ s.runner.toCreate.map Prod.fst)
    (htoCancel : id ∈ t.runner.toCancel → id ∈ s.runner.toCancel)
    (hbegun : t.Begun id → s.Begun id)
    (hevents : id ∈ s.runner.events.map Prod.fst → id ∈ t.runner.events.map Prod.fst)
    (hfailed : id ∈ s.runner.failedTriggers.map Prod.fst →
      id ∈ t.runner.failedTriggers.map Prod.fst) : t.Unknown jobId left id where
  running hmem := h.running (hrunning hmem)
  held hmem := h.held (hheld hmem)
  toCreate := h.toCreate.imp_right fun hnot hmem => hnot (htoCreate hmem)
  toCancel := h.toCancel.imp_right fun hnot hmem => hnot (htoCancel hmem)
  begun hmem hb := (h.begun (hassigned hmem) (hbegun hb)).imp (And.imp_right hevents)
    (And.imp_right hfailed)

/-- The ids that are unknown to the main thread stay so while the other side acts. -/
theorem MainInv.keep (h : s.MainInv jobId) (hmain : t.main = s.main)
    (hassigned : ∀ id, t.Assigned jobId id → s.Assigned jobId id) (hhandled : t.handled = s.handled)
    (hunknown : ∀ reads left, s.main = .readKnown reads left → ∀ id ∈ reads.requested,
      s.Unknown jobId left id → t.Unknown jobId left id)
    (hadd : ∀ id, s.Unknown jobId [] id → t.Unknown jobId [] id) : t.MainInv jobId := by
  unfold MainInv at h ⊢
  rw [hmain, hhandled]
  cases hs : s.main with
  | assignUnassigned | idsForTriggerer =>
    rw [hs] at h
    exact fun id hid => h id (hassigned id hid)
  | readTriggers requested =>
    rw [hs] at h
    exact fun id hid => h id (hassigned id hid)
  | readKnown reads left =>
    rw [hs] at h
    exact ⟨fun id hid => h.1 id (hassigned id hid),
      fun id hid hknown => hunknown reads left hs id hid (h.2 id hid hknown)⟩
  | addTriggers reads newTriggers newIds =>
    rw [hs] at h
    exact ⟨fun id hid => h.1 id (hassigned id hid), h.2.1,
      fun id hid => ⟨(h.2.2 id hid).1, hadd id (h.2.2 id hid).2⟩⟩
  | _ => trivial

theorem Live.mono {id : Nat} (h : s.Live id)
    (hget : t.runner.triggers.get? id = s.runner.triggers.get? id)
    (htoCancel : id ∈ t.runner.toCancel → id ∈ s.runner.toCancel)
    (hcancels : id ∈ t.main.cancels → id ∈ s.main.cancels) (hending : t.async.ending ≠ some id) :
    t.Live id where
  details := hget ▸ h.details
  toCancel hmem := h.toCancel (htoCancel hmem)
  cancels hmem := h.cancels (hcancels hmem)
  ending := hending

theorem Found.mono {id : Nat} (h : s.Found id)
    (hfiring : s.firing.map Prod.fst = some id → t.firing.map Prod.fst = some id)
    (hevents : id ∈ s.runner.events.map Prod.fst → id ∈ t.runner.events.map Prod.fst)
    (hfailed : id ∈ s.runner.failedTriggers.map Prod.fst →
      id ∈ t.runner.failedTriggers.map Prod.fst)
    (hsubmitting : s.main.submitting = some id → t.main.submitting = some id)
    (hhandled : id ∈ s.handled → id ∈ t.handled) : t.Found id :=
  h.imp hfiring (.imp hevents (.imp hfailed (.imp hsubmitting hhandled)))

/-- The main thread goes on, and nothing else changes. -/
theorem Inv.setMain (h : s.Inv jobId) {main : MainThread Kwargs Event}
    (hsubmitting : s.main.submitting = none)
    (hcancels : ∀ id ∈ main.cancels, id ∈ s.main.cancels ∨ id ∉ s.pending ∧ ¬s.Assigned jobId id)
    (hmain : MainInv { s with main := main } jobId) : Inv { s with main := main } jobId where
  pending := by
    refine h.pending.of_sublist (.refl _) (fun _ hid => hid) (fun _ _ hmem => hmem)
      (fun _ _ hb => hb) fun id hid hmem => ?_
    rcases hmem with hmem | hmem
    · exact .inl hmem
    · exact .inr ((hcancels id hmem).resolve_right fun hnot => hnot.1 hid)
  begun id hid hb := by
    refine (h.begun id hid hb).imp (fun hlive => ?_) fun hfound => ?_
    · exact hlive.mono rfl (fun hmem => hmem)
        (fun hmem => (hcancels id hmem).resolve_right fun hnot => hnot.2 hid) hlive.ending
    · refine hfound.mono (fun hmem => hmem) (fun hmem => hmem) (fun hmem => hmem)
        (fun hsub => ?_) (fun hmem => hmem)
      rw [hsubmitting] at hsub
      cases hsub
  firing := h.firing
  handled := h.handled
  main := hmain
  once := h.once

/-- Only `triggers` and the four deques of the runner matter. -/
theorem Inv.setRunner (h : s.Inv jobId) {runner : TriggerRunner Class Obj Event} {awaiting : Bool}
    (htriggers : runner.triggers = s.runner.triggers)
    (htoCreate : runner.toCreate = s.runner.toCreate)
    (htoCancel : runner.toCancel = s.runner.toCancel) (hevents : runner.events = s.runner.events)
    (hfailed : runner.failedTriggers = s.runner.failedTriggers) :
    Inv { s with runner := runner, awaiting := awaiting } jobId := by
  obtain ⟨triggers, cache, toCreate, toCancel, events, failedTriggers, stop, job⟩ := runner
  subst htriggers htoCreate htoCancel hevents hfailed
  exact {
    pending := ⟨h.pending.nodup, h.pending.fresh, h.pending.notBegun, h.pending.notCancelled⟩
    begun := fun id hid hb => (h.begun id hid hb).imp_left fun hlive =>
      ⟨hlive.details, hlive.toCancel, hlive.cancels, hlive.ending⟩
    firing := h.firing
    handled := h.handled
    main := h.main.keep rfl (fun _ hid => hid) rfl
      (fun _ _ _ _ _ hu => ⟨hu.running, hu.held, hu.toCreate, hu.toCancel, hu.begun⟩)
      fun _ hu => ⟨hu.running, hu.held, hu.toCreate, hu.toCancel, hu.begun⟩
    once := h.once }

/-- An exception ends the main thread. -/
theorem Inv.exit (h : s.Inv jobId) (hsubmitting : s.main.submitting = none) :
    Inv ({ s with runner := { s.runner with stop := true }, main := .exited } :
      Threads Kwargs Class Obj Event) jobId := by
  have hexit : Inv ({ s with main := .exited } : Threads Kwargs Class Obj Event) jobId :=
    h.setMain hsubmitting (fun id hmem => absurd hmem List.not_mem_nil) trivial
  exact hexit.setRunner rfl rfl rfl rfl rfl

end

end Threads

end Airflow.Triggerer
