import Airflow.Triggerer.Proof.ThreadInv

/-!
# The async thread keeps the invariant

Each step of `arun` and of a coroutine concerns one trigger. What `create_triggers` starts was
pending, so it has not been started since the row was assigned, and what is dropped without a word
has been cancelled under an earlier assignment.
-/

namespace Airflow.Triggerer

variable {Kwargs Class Obj Event : Type}

namespace Threads

section
variable {s : Threads Kwargs Class Obj Event} {jobId : Nat}

/-! ## The async thread: `create_triggers` -/

theorem pending_of_held_none (h : s.held = none) :
    s.pending = s.runner.toCreate.map Prod.fst := by
  rw [pending, h]
  rfl

/-- The async thread goes on, and nothing that is shared changes. -/
theorem Inv.setAsync (h : s.Inv jobId) {async : AsyncThread Obj} {awaiting : Bool}
    (hheld : held { s with async := async, awaiting := awaiting } = none)
    (halive : async.Alive → s.async.Alive)
    (hending : ∀ id, s.Live id → async.ending ≠ some id) :
    Inv { s with async := async, awaiting := awaiting } jobId where
  pending := by
    refine h.pending.of_sublist ?_ (fun _ hid => hid) (fun _ _ hmem => hmem)
      (fun _ _ hb => ⟨halive hb.1, hb.2⟩) fun _ _ hmem => hmem
    rw [pending_of_held_none hheld]
    exact List.sublist_append_right ..
  begun id hid hb := by
    refine (h.begun id hid ⟨halive hb.1, hb.2⟩).imp (fun hlive => ?_) fun hfound => hfound
    exact hlive.mono rfl (fun hmem => hmem) (fun hmem => hmem) (hending id hlive)
  firing := h.firing
  handled := h.handled
  main := by
    refine h.main.keep rfl (fun _ hid => hid) rfl (fun _ left _ id _ hu => ?_) fun id hu => ?_
    all_goals
      refine hu.keep (fun hid => hid) (fun hmem => hmem) (fun hmem => ?_) (fun hmem => hmem)
        (fun hmem => hmem) (fun hb => ⟨halive hb.1, hb.2⟩) (fun hmem => hmem) fun hmem => hmem
      rw [hheld] at hmem
      cases hmem
  once := h.once

/-- An id is taken from `to_create`. While the main thread has not read `to_create` yet, it is none
that it looks for. -/
theorem Inv.takeCreate (h : s.Inv jobId) (hfiring : s.firing = none)
    (hawaiting : s.awaiting = false) (hasync : s.async = .createTriggers)
    (hsafe : s.Safe jobId (.async : ThreadStep Kwargs Event)) {triggerId : Nat}
    {trigger : TriggerInstance Obj} {rest : List (Nat × TriggerInstance Obj)}
    (htoCreate : s.runner.toCreate = (triggerId, trigger) :: rest) :
    Inv { s with
      runner := { s.runner with toCreate := rest }
      async := .createTrigger triggerId trigger } jobId := by
  have hheld : s.held = none := by rw [held, hasync]
  have htaken : s.taken = some triggerId := by
    rw [taken, hfiring, hawaiting, hasync, htoCreate]
    rfl
  have hpending : s.pending = triggerId :: rest.map Prod.fst := by
    rw [pending_of_held_none hheld, htoCreate, List.map_cons]
  have halive : s.async.Alive := by
    rw [hasync]
    trivial
  have hne : ∀ left id, s.Unknown jobId left id → (.toCreate ∈ left → triggerId ≠ id) →
      triggerId ≠ id := by
    intro left id hu hleft
    rcases hu.toCreate with hmem | hnot
    · exact hleft hmem
    · rintro rfl
      exact hnot (by rw [htoCreate]; exact List.mem_cons_self ..)
  have hkeep : ∀ left id, s.Unknown jobId left id → triggerId ≠ id →
      Unknown { s with
        runner := { s.runner with toCreate := rest }
        async := .createTrigger triggerId trigger } jobId left id := by
    intro left id hu hid
    refine hu.keep (fun hid => hid) (fun hmem => hmem) (fun hmem => ?_) (fun hmem => ?_)
      (fun hmem => hmem) (fun hb => ⟨halive, hb.2⟩) (fun hmem => hmem) fun hmem => hmem
    · exact absurd (Option.some.inj hmem) hid
    · rw [htoCreate]
      exact List.mem_cons_of_mem _ hmem
  refine ⟨?_, fun id hid hb => ?_, h.firing, h.handled, ?_, h.once⟩
  · refine h.pending.of_sublist ?_ (fun _ hid => hid) (fun _ _ hmem => hmem)
      (fun _ _ hb => ⟨halive, hb.2⟩) fun _ _ hmem => hmem
    rw [hpending]
    exact .refl _
  · refine (h.begun id hid ⟨halive, hb.2⟩).imp (fun hlive => ?_) fun hfound => hfound
    exact hlive.mono rfl (fun hmem => hmem) (fun hmem => hmem) nofun
  · refine h.main.keep rfl (fun _ hid => hid) rfl (fun reads left hmain id hid hu => ?_)
      fun id hu => ?_
    · refine hkeep left id hu (hne left id hu fun hleft => ?_)
      simp only [Safe, hmain] at hsafe
      rintro rfl
      exact hsafe hleft triggerId htaken hid
    · exact hkeep [] id hu (hne [] id hu fun hleft => absurd hleft List.not_mem_nil)

/-- The coroutine of a pending id is started: no other one has been since the row was assigned. -/
theorem Inv.store (h : s.Inv jobId) {triggerId : Nat} {trigger : TriggerInstance Obj}
    (hasync : s.async = .createTrigger triggerId trigger) (name : String) :
    Inv { s with
      runner := { s.runner with triggers := s.runner.triggers.set triggerId ⟨{}, name, 0⟩ }
      async := .createTriggers
      awaiting := true
      started := triggerId :: s.started } jobId := by
  have hheld : s.held = some triggerId := by rw [held, hasync]
  have hpending : s.pending = triggerId :: s.runner.toCreate.map Prod.fst := by
    rw [Threads.pending, hheld]
    rfl
  have halive : s.async.Alive := by
    rw [hasync]
    trivial
  have hmem : triggerId ∈ s.pending := by
    rw [hpending]
    exact List.mem_cons_self ..
  have hbegun : ∀ id, id ≠ triggerId → (id ∈ triggerId :: s.started ∨ id ∈ s.queued) →
      s.Begun id :=
    fun id hne hb => ⟨halive, hb.imp_left fun hid => (List.mem_cons.mp hid).resolve_left hne⟩
  have hrunning : ∀ id, id ≠ triggerId →
      id ∈ (s.runner.triggers.set triggerId ⟨{}, name, 0⟩).keys → id ∈ s.running :=
    fun id hne hid => (Dict.mem_keys_set.mp hid).resolve_right hne
  have hkeep : ∀ left id, s.Unknown jobId left id →
      Unknown { s with
        runner := { s.runner with triggers := s.runner.triggers.set triggerId ⟨{}, name, 0⟩ }
        async := .createTriggers
        awaiting := true
        started := triggerId :: s.started } jobId left id := by
    intro left id hu
    have hne : id ≠ triggerId := by
      rintro rfl
      exact hu.held hheld
    exact hu.keep (fun hid => hid) (hrunning id hne) nofun (fun hmem => hmem)
      (fun hmem => hmem) (fun hb => hbegun id hne hb.2) (fun hmem => hmem) fun hmem => hmem
  have htail : ∀ id ∈ s.runner.toCreate.map Prod.fst, id ≠ triggerId := by
    have hnodup := h.pending.nodup
    rw [hpending, List.nodup_cons] at hnodup
    rintro id hid rfl
    exact hnodup.1 hid
  refine ⟨?_, fun id hid hb => ?_, fun id hid => ?_, h.handled, ?_, h.once⟩
  · refine h.pending.of_sublist ?_ (fun _ hid => hid) (fun id hid => hrunning id (htail id hid))
      (fun id hid hb => hbegun id (htail id hid) hb.2) fun _ _ hmem => hmem
    rw [hpending]
    exact List.sublist_cons_self ..
  · by_cases hne : id = triggerId
    · subst hne
      have hnot := h.pending.notCancelled id hmem
      refine .inl ⟨⟨⟨{}, name, 0⟩, by rw [Dict.get?_set, if_pos rfl], rfl, rfl, ?_⟩, hnot.1, hnot.2,
        nofun⟩
      intro result hresult
      cases hresult
    · refine (h.begun id hid (hbegun id hne hb.2)).imp (fun hlive => ?_) fun hfound => hfound
      refine hlive.mono ?_ (fun hmem => hmem) (fun hmem => hmem) nofun
      rw [Dict.get?_set, if_neg hne]
  · exact Dict.mem_keys_set.mpr (.inl (h.firing id hid))
  · exact h.main.keep rfl (fun _ hid => hid) rfl (fun _ left _ id _ hu => hkeep left id hu)
      fun id hu => hkeep [] id hu

/-- A thread that has ended starts nothing. -/
theorem Inv.asyncExit (h : s.Inv jobId) (hfiring : s.firing = none) {triggerIds : List Nat} :
    Inv { s with
      runner := { s.runner with stop := true }
      async := .exited
      awaiting := true
      started := triggerIds } jobId := by
  refine ⟨?_, fun id _ hb => hb.1.elim, fun id hid => ?_, h.handled, ?_, h.once⟩
  · refine h.pending.of_sublist (List.sublist_append_right ..) (fun _ hid => hid)
      (fun _ _ hmem => hmem) (fun _ _ hb => hb.1.elim) fun _ _ hmem => hmem
  · rw [hfiring] at hid
    cases hid
  · refine h.main.keep rfl (fun _ hid => hid) rfl (fun _ left _ id _ hu => ?_) fun id hu => ?_
    all_goals
      exact hu.keep (fun hid => hid) (fun hmem => hmem) nofun (fun hmem => hmem)
        (fun hmem => hmem) (fun hb => hb.1.elim) (fun hmem => hmem) fun hmem => hmem

theorem Inv.createTrigger (h : s.Inv jobId) (hfiring : s.firing = none) {triggerId : Nat}
    {trigger : TriggerInstance Obj} (hasync : s.async = .createTrigger triggerId trigger) :
    (s.createTrigger jobId triggerId trigger).Inv jobId := by
  have halive : s.async.Alive := by
    rw [hasync]
    trivial
  have hmem : triggerId ∈ s.pending := by
    rw [Threads.pending, held, hasync]
    exact List.mem_cons_self ..
  have hnot : ¬(s.Assigned jobId triggerId ∧ (triggerId ∈ s.started ∨ triggerId ∈ s.queued)) :=
    fun hcond => h.pending.notBegun triggerId hmem hcond.1 ⟨halive, hcond.2⟩
  unfold Threads.createTrigger
  by_cases hrunning : triggerId ∈ s.runner.triggers.keys
  · rw [if_pos hrunning]
    exact h.setAsync rfl (fun _ => halive) fun _ _ => nofun
  · rw [if_neg hrunning, if_neg hnot, TriggerRunner.createTrigger, if_pos hrunning]
    cases trigger.taskInstance with
    | none => exact h.asyncExit hfiring
    | some ti => exact h.store hasync _

/-! ## The async thread: `cancel_triggers` and `cleanup_finished_triggers` -/

theorem Inv.takeCancel (h : s.Inv jobId) (hasync : s.async = .cancelTriggers) {triggerId : Nat}
    {rest : List Nat} (htoCancel : s.runner.toCancel = triggerId :: rest) :
    Inv { s with
      runner := { s.runner with toCancel := rest }
      async := .cancelTrigger triggerId } jobId := by
  have hheld : s.held = none := by rw [held, hasync]
  have halive : s.async.Alive := by
    rw [hasync]
    trivial
  have hmem : ∀ id ∈ rest, id ∈ s.runner.toCancel := by
    rw [htoCancel]
    exact fun _ => List.mem_cons_of_mem _
  refine ⟨?_, fun id hid hb => ?_, h.firing, h.handled, ?_, h.once⟩
  · refine h.pending.of_sublist ?_ (fun _ hid => hid) (fun _ _ hmem => hmem)
      (fun _ _ hb => ⟨halive, hb.2⟩) fun id _ hid => hid.imp_left (hmem id)
    rw [pending_of_held_none hheld]
    exact .refl _
  · refine (h.begun id hid ⟨halive, hb.2⟩).imp (fun hlive => ?_) fun hfound => hfound
    refine hlive.mono rfl (hmem id) (fun hmem => hmem) fun hending => ?_
    cases Option.some.inj hending
    exact hlive.toCancel (by rw [htoCancel]; exact List.mem_cons_self ..)
  · refine h.main.keep rfl (fun _ hid => hid) rfl (fun _ left _ id _ hu => ?_) fun id hu => ?_
    all_goals
      exact hu.keep (fun hid => hid) (fun hmem => hmem) nofun (fun hmem => hmem)
        (hmem id) (fun hb => ⟨halive, hb.2⟩) (fun hmem => hmem) fun hmem => hmem

/-- The entry of a running trigger changes, and no other one. -/
structure Updated (s : Threads Kwargs Class Obj Event) (triggerId : Nat)
    (triggers : Dict Nat TriggerDetails) : Prop where
  keys : ∀ id, id ∈ triggers.keys ↔ id ∈ s.running
  other : ∀ id, id ≠ triggerId → triggers.get? id = s.runner.triggers.get? id

theorem Updated.set {triggerId : Nat} {details : TriggerDetails} (details' : TriggerDetails)
    (hget : s.runner.triggers.get? triggerId = some details) :
    s.Updated triggerId (s.runner.triggers.set triggerId details') where
  keys id := by
    rw [Dict.mem_keys_set]
    refine ⟨fun h => h.elim (fun h => h) ?_, .inl⟩
    rintro rfl
    exact Dict.mem_keys.mpr ⟨details, hget⟩
  other id hne := by rw [Dict.get?_set, if_neg hne]

/-- A coroutine is changed; `firing` is the event that it has counted. -/
theorem Inv.update (h : s.Inv jobId) {triggerId : Nat} {triggers : Dict Nat TriggerDetails}
    {async : AsyncThread Obj} {awaiting : Bool} {firing : Option (Nat × Event)}
    (hupdated : s.Updated triggerId triggers) (hfiring : s.firing = none)
    (hcounted : ∀ id, firing.map Prod.fst = some id → id ∈ s.running)
    (hheld : held { s with async := async } = s.held)
    (halive : async.Alive → s.async.Alive)
    (hending : ∀ id, s.Live id → async.ending ≠ some id)
    (hlive : s.Assigned jobId triggerId → s.Live triggerId →
      Live { s with
        runner := { s.runner with triggers := triggers }
        async := async
        awaiting := awaiting
        firing := firing } triggerId ∨ firing.map Prod.fst = some triggerId) :
    Inv { s with
      runner := { s.runner with triggers := triggers }
      async := async
      awaiting := awaiting
      firing := firing } jobId := by
  have hrunning : ∀ id ∈ triggers.keys, id ∈ s.running := fun id => (hupdated.keys id).mp
  refine ⟨?_, fun id hid hb => ?_, fun id hid => ?_, h.handled, ?_, h.once⟩
  · refine h.pending.of_sublist ?_ (fun _ hid => hid) (fun id _ => hrunning id)
      (fun _ _ hb => ⟨halive hb.1, hb.2⟩) fun _ _ hmem => hmem
    rw [Threads.pending, Threads.pending, ← hheld]
    exact .refl _
  · rcases h.begun id hid ⟨halive hb.1, hb.2⟩ with hold | hfound
    · by_cases hne : id = triggerId
      · subst hne
        exact (hlive hid hold).imp_right .inl
      · exact .inl (hold.mono (hupdated.other id hne) (fun hmem => hmem) (fun hmem => hmem)
          (hending id hold))
    · refine .inr (hfound.mono (fun hmem => ?_) (fun hmem => hmem) (fun hmem => hmem)
        (fun hmem => hmem) fun hmem => hmem)
      rw [hfiring] at hmem
      cases hmem
  · exact (hupdated.keys id).mpr (hcounted id hid)
  · refine h.main.keep rfl (fun _ hid => hid) rfl (fun _ left _ id _ hu => ?_) fun id hu => ?_
    all_goals
      exact hu.keep (fun hid => hid) (hrunning id) (fun hmem => hheld ▸ hmem) (fun hmem => hmem)
        (fun hmem => hmem) (fun hb => ⟨halive hb.1, hb.2⟩) (fun hmem => hmem) fun hmem => hmem

theorem Inv.cancelTrigger (h : s.Inv jobId) (hfiring : s.firing = none) {triggerId : Nat}
    (hasync : s.async = .cancelTrigger triggerId) :
    Inv { s with
      runner := s.runner.cancelTrigger triggerId
      async := .cancelTriggers
      awaiting := true } jobId := by
  have hheld : s.held = none := by rw [held, hasync]
  have halive : s.async.Alive := by
    rw [hasync]
    trivial
  rw [TriggerRunner.cancelTrigger]
  cases hget : s.runner.triggers.get? triggerId with
  | none => exact h.setAsync rfl (fun _ => halive) fun _ _ => nofun
  | some details =>
    refine h.update (.set _ hget) hfiring h.firing (by rw [hheld]; rfl) (fun _ => halive)
      (fun _ _ => nofun) fun _ hlive => ?_
    exact absurd (by rw [hasync]; rfl) hlive.ending

/-- A finished trigger that has not sent an event fails. -/
theorem Inv.failTrigger (h : s.Inv jobId) {triggerId : Nat} {triggerIds ids : List Nat}
    (hasync : s.async = .cleanupTriggers ids)
    (hmem : triggerId ∈ s.running) (exc : Option PyException) :
    Inv { s with
      runner := s.runner.fail triggerId exc
      async := .deleteTrigger triggerId false triggerIds
      queued := triggerId :: s.queued } jobId := by
  have hheld : s.held = none := by rw [held, hasync]
  have halive : s.async.Alive := by
    rw [hasync]
    trivial
  have hbegun : ∀ id, id ≠ triggerId → (id ∈ s.started ∨ id ∈ triggerId :: s.queued) → s.Begun id :=
    fun id hne hb => ⟨halive, hb.imp_right fun hid => (List.mem_cons.mp hid).resolve_left hne⟩
  have hfailed : ∀ id ∈ s.runner.failedTriggers.map Prod.fst,
      id ∈ (s.runner.fail triggerId exc).failedTriggers.map Prod.fst := by
    intro id hid
    rw [TriggerRunner.fail, List.map_append]
    exact List.mem_append_left _ hid
  refine ⟨?_, fun id hid hb => ?_, fun id hid => ?_, h.handled, ?_, h.once⟩
  · refine h.pending.of_sublist ?_ (fun _ hid => hid) (fun _ _ hmem => hmem)
      (fun id hid hb => hbegun id ?_ hb.2) fun _ _ hmem => hmem
    · rw [pending_of_held_none hheld]
      exact .refl _
    · rintro rfl
      refine h.pending.fresh id ?_ hmem
      rw [pending_of_held_none hheld]
      exact hid
  · by_cases hne : id = triggerId
    · refine .inr (.inr (.inr (.inl ?_)))
      rw [hne, TriggerRunner.fail, List.map_append]
      exact List.mem_append_right _ (List.mem_singleton_self _)
    · refine (h.begun id hid (hbegun id hne hb.2)).imp (fun hlive => ?_) fun hfound => ?_
      · exact hlive.mono rfl (fun hmem => hmem) (fun hmem => hmem)
          fun hending => hne (Option.some.inj hending).symm
      · exact hfound.mono (fun hmem => hmem) (fun hmem => hmem) (hfailed id) (fun hmem => hmem)
          fun hmem => hmem
  · exact h.firing id hid
  · refine h.main.keep rfl (fun _ hid => hid) rfl (fun _ left _ id _ hu => ?_) fun id hu => ?_
    all_goals
      have hne : id ≠ triggerId := by
        rintro rfl
        exact hu.running hmem
      exact hu.keep (fun hid => hid) (fun hmem => hmem) nofun (fun hmem => hmem)
        (fun hmem => hmem) (fun hb => hbegun id hne hb.2) (fun hmem => hmem) (hfailed id)

theorem Inv.cleanupTrigger (h : s.Inv jobId) {triggerId : Nat} {triggerIds : List Nat}
    (hasync : s.async = .cleanupTriggers (triggerId :: triggerIds)) :
    (s.cleanupTrigger triggerId triggerIds).Inv jobId := by
  have halive : s.async.Alive := by
    rw [hasync]
    trivial
  unfold Threads.cleanupTrigger
  cases hget : s.runner.triggers.get? triggerId with
  | none => exact h.setAsync rfl (fun _ => halive) fun _ _ => nofun
  | some details =>
    cases hresult : details.task.result with
    | none =>
      simp only [Option.bind_some, hresult, Option.map_none]
      exact h.setAsync rfl (fun _ => halive) fun _ _ => nofun
    | some result =>
      simp only [Option.bind_some, hresult, Option.map_some]
      by_cases hfails : ¬TriggerRunner.ExpectedExit result ∧ details.events = 0
      · rw [if_pos hfails]
        exact h.failTrigger hasync (Dict.mem_keys.mpr ⟨details, hget⟩) _
      · rw [if_neg hfails]
        refine h.setAsync rfl (fun _ => halive) fun id hlive hending => ?_
        cases Option.some.inj hending
        obtain ⟨details', hget', hevents, -, hexit⟩ := hlive.details
        rw [hget] at hget'
        cases hget'
        exact hfails ⟨hexit result hresult, hevents⟩

theorem Inv.deleteTrigger (h : s.Inv jobId) (hfiring : s.firing = none) {triggerId : Nat}
    {expected : Bool} {triggerIds : List Nat}
    (hasync : s.async = .deleteTrigger triggerId expected triggerIds) (awaiting : Bool) :
    Inv { s with
      runner := { s.runner with triggers := s.runner.triggers.erase triggerId }
      async := .cleanupTriggers triggerIds
      awaiting := awaiting } jobId := by
  have hheld : s.held = none := by rw [held, hasync]
  have halive : s.async.Alive := by
    rw [hasync]
    trivial
  have hrunning : ∀ id ∈ (s.runner.triggers.erase triggerId).keys, id ∈ s.running :=
    fun id hid => (Dict.mem_keys_erase.mp hid).1
  refine ⟨?_, fun id hid hb => ?_, fun id hid => ?_, h.handled, ?_, h.once⟩
  · refine h.pending.of_sublist ?_ (fun _ hid => hid) (fun id _ => hrunning id)
      (fun _ _ hb => ⟨halive, hb.2⟩) fun _ _ hmem => hmem
    rw [pending_of_held_none hheld]
    exact .refl _
  · refine (h.begun id hid ⟨halive, hb.2⟩).imp (fun hlive => ?_) fun hfound => hfound
    have hne : id ≠ triggerId := by
      rintro rfl
      exact hlive.ending (by rw [hasync]; rfl)
    refine hlive.mono ?_ (fun hmem => hmem) (fun hmem => hmem) nofun
    rw [Dict.get?_erase, if_neg hne]
  · rw [hfiring] at hid
    cases hid
  · refine h.main.keep rfl (fun _ hid => hid) rfl (fun _ left _ id _ hu => ?_) fun id hu => ?_
    all_goals
      exact hu.keep (fun hid => hid) (hrunning id) nofun (fun hmem => hmem) (fun hmem => hmem)
        (fun hb => ⟨halive, hb.2⟩) (fun hmem => hmem) fun hmem => hmem

/-! ## Coroutines and the rest of Airflow -/

/-- A counted event is queued: its trigger runs, so its id is neither pending nor unknown. -/
theorem Inv.queueEvent (h : s.Inv jobId) {triggerId : Nat} {event : Event}
    (hfiring : s.firing = some (triggerId, event)) :
    Inv { s with
      runner := { s.runner with events := s.runner.events ++ [(triggerId, event)] }
      firing := none
      queued := triggerId :: s.queued } jobId := by
  have hmem : triggerId ∈ s.running := h.firing triggerId (by rw [hfiring]; rfl)
  have hbegun : ∀ id, id ≠ triggerId →
      (s.async.Alive ∧ (id ∈ s.started ∨ id ∈ triggerId :: s.queued)) → s.Begun id :=
    fun id hne hb => ⟨hb.1, hb.2.imp_right fun hid => (List.mem_cons.mp hid).resolve_left hne⟩
  have hevents : ∀ id ∈ s.runner.events.map Prod.fst,
      id ∈ (s.runner.events ++ [(triggerId, event)]).map Prod.fst := by
    intro id hid
    rw [List.map_append]
    exact List.mem_append_left _ hid
  refine ⟨?_, fun id hid hb => ?_, fun id hid => ?_, h.handled, ?_, h.once⟩
  · refine h.pending.of_sublist (.refl _) (fun _ hid => hid) (fun _ _ hmem => hmem)
      (fun id hid hb => hbegun id ?_ hb) fun _ _ hmem => hmem
    rintro rfl
    exact h.pending.fresh id hid hmem
  · by_cases hne : id = triggerId
    · refine .inr (.inr (.inl ?_))
      rw [hne, List.map_append]
      exact List.mem_append_right _ (List.mem_singleton_self _)
    · refine (h.begun id hid (hbegun id hne hb)).imp (fun hlive => ?_) fun hfound => ?_
      · exact hlive.mono rfl (fun hmem => hmem) (fun hmem => hmem) hlive.ending
      · refine hfound.mono (fun hcounted => ?_) (hevents id) (fun hmem => hmem) (fun hmem => hmem)
          fun hmem => hmem
        rw [hfiring] at hcounted
        exact absurd (Option.some.inj hcounted).symm hne
  · cases hid
  · refine h.main.keep rfl (fun _ hid => hid) rfl (fun _ left _ id _ hu => ?_) fun id hu => ?_
    all_goals
      have hne : id ≠ triggerId := by
        rintro rfl
        exact hu.running hmem
      exact hu.keep (fun hid => hid) (fun hmem => hmem) (fun hmem => hmem) (fun hmem => hmem)
        (fun hmem => hmem) (hbegun id hne) (hevents id) fun hmem => hmem

/-- A coroutine counts an event. -/
theorem Inv.fire (h : s.Inv jobId) (hfiring : s.firing = none) (triggerId : Nat) (event : Event) :
    (s.fire triggerId event).Inv jobId := by
  unfold Threads.fire
  cases hget : s.runner.triggers.get? triggerId with
  | none => exact h
  | some details =>
    dsimp only
    by_cases hdone : details.task.done = true
    · rw [if_pos hdone]
      exact h
    · rw [if_neg hdone]
      refine h.update (.set _ hget) hfiring (fun id hid => ?_) rfl (fun halive => halive)
        (fun _ hlive => hlive.ending) fun _ _ => .inr rfl
      cases Option.some.inj hid
      exact Dict.mem_keys.mpr ⟨details, hget⟩

/-- A coroutine ends. -/
theorem Inv.finish (h : s.Inv jobId) (hfiring : s.firing = none) {triggerId : Nat}
    {result : TaskResult}
    (hsafe : s.Safe jobId (.finish triggerId result : ThreadStep Kwargs Event)) :
    Inv { s with runner := s.runner.runCoroutine (.finish triggerId result) } jobId := by
  rw [TriggerRunner.runCoroutine]
  cases hget : s.runner.triggers.get? triggerId with
  | none => exact h
  | some details =>
    dsimp only
    by_cases hdone : details.task.done = true
    · rw [if_pos hdone]
      exact h
    · rw [if_neg hdone]
      refine h.update (.set _ hget) hfiring h.firing rfl (fun halive => halive)
        (fun _ hlive => hlive.ending) fun hassigned hlive => .inl ?_
      obtain ⟨details', hget', hevents, hcancel, -⟩ := hlive.details
      rw [hget] at hget'
      cases hget'
      refine ⟨⟨{ details with task := { details.task with result := some result } }, ?_, hevents,
        hcancel, fun result' hresult hexit => ?_⟩, hlive.toCancel, hlive.cancels, hlive.ending⟩
      · rw [Dict.get?_set, if_pos rfl]
      cases Option.some.inj hresult
      have hrequested := hsafe hexit hassigned details hget hevents
      rw [hcancel] at hrequested
      cases hrequested

/-- What happens elsewhere assigns nothing to the triggerer and defers no instance to its rows. -/
theorem Inv.elsewhere (h : s.Inv jobId) {tables : CleanUnused.Tables}
    {triggererId : Nat → Option Nat}
    (helsewhere : Elsewhere jobId s.tables tables s.triggererId triggererId) :
    Inv { s with tables := tables, triggererId := triggererId } jobId := by
  have hassigned : ∀ id, Assigned { s with tables := tables, triggererId := triggererId } jobId id →
      s.Assigned jobId id := fun id hid => (helsewhere id hid.1 hid.2).1
  refine ⟨?_, fun id hid hb => ?_, h.firing, fun id hid hmem ti hti hstate htrigger => ?_, ?_,
    h.once⟩
  · exact h.pending.of_sublist (.refl _) hassigned (fun _ _ hmem => hmem) (fun _ _ hb => hb)
      fun _ _ hmem => hmem
  · refine (h.begun id (hassigned id hid) hb).imp (fun hlive => ?_) fun hfound => hfound
    exact hlive.mono rfl (fun hmem => hmem) (fun hmem => hmem) hlive.ending
  · obtain ⟨row, hrow, hrowState, hrowTrigger⟩ :=
      (helsewhere id hid.1 hid.2).2 ti hti ⟨hstate, htrigger⟩
    exact h.handled id (hassigned id hid) hmem row hrow hrowState hrowTrigger
  · refine h.main.keep rfl hassigned rfl (fun _ left _ id _ hu => ?_) fun id hu => ?_
    all_goals
      exact hu.keep (hassigned id) (fun hmem => hmem) (fun hmem => hmem) (fun hmem => hmem)
        (fun hmem => hmem) (fun hb => hb) (fun hmem => hmem) fun hmem => hmem

end

end Threads

end Airflow.Triggerer
