import Airflow.Triggerer.Proof.ThreadInv
import Airflow.Triggerer.CleanUnused

/-!
# The main thread keeps the invariant

Up to the read of `triggers` no assigned row has been handled, since `clean_unused` has deleted those
whose event or failure was passed on. With the reads of `update_triggers` the unknown ids are ruled
out of one collection after the other, so that what it puts into `to_create` is nowhere else.
-/

namespace Airflow.Triggerer

variable {Kwargs Class Obj Event : Type}

namespace Threads

/-! ## The main thread: `clean_unused` and `load_triggers` -/

section
variable {s : Threads Kwargs Class Obj Event} {jobId : Nat}

theorem Assigned.of_cleanUnused {main : MainThread Kwargs Event} {id : Nat}
    (h : Assigned { s with tables := CleanUnused.cleanUnused s.tables, main := main } jobId id) :
    s.Assigned jobId id :=
  ⟨(CleanUnused.mem_cleanUnused.mp h.1).1, h.2⟩

/-- What a handled row has lost: after the clean-up it is gone. -/
theorem Inv.cleanUnused (h : s.Inv jobId) (hmain : s.main = .cleanUnused)
    (hsafe : s.Safe jobId (.main : ThreadStep Kwargs Event)) :
    Inv ({ s with
      tables := CleanUnused.cleanUnused s.tables
      main := .assignUnassigned } : Threads Kwargs Class Obj Event) jobId where
  pending := h.pending.of_sublist (.refl _) (fun _ => .of_cleanUnused) (fun _ _ hmem => hmem)
    (fun _ _ hb => hb) fun _ _ hmem => hmem.imp_right fun hmem => absurd hmem List.not_mem_nil
  begun id hid hb := by
    refine (h.begun id hid.of_cleanUnused hb).imp (fun hlive => ?_) fun hfound => ?_
    · exact hlive.mono rfl (fun hmem => hmem) (fun hmem => absurd hmem List.not_mem_nil)
        hlive.ending
    · refine hfound.mono (fun hmem => hmem) (fun hmem => hmem) (fun hmem => hmem)
        (fun hsub => ?_) (fun hmem => hmem)
      rw [hmain] at hsub
      cases hsub
  firing := h.firing
  handled id hid hmem ti hti hstate htrigger := by
    obtain ⟨row, hrow, hsame, hrowTrigger⟩ := CleanUnused.mem_removeReferences.mp hti
    rw [if_pos (.inr (hsame ▸ hstate)), htrigger] at hrowTrigger
    exact h.handled id hid.of_cleanUnused hmem row hrow (hsame ▸ hstate) hrowTrigger.symm
  main id hid hmem := by
    obtain ⟨-, ti, hti, htrigger⟩ := CleanUnused.mem_cleanUnused.mp hid.1
    obtain ⟨row, hrow, -, hrowTrigger⟩ := CleanUnused.mem_removeReferences.mp hti
    have hassigned : s.Assigned jobId id := hid.of_cleanUnused
    by_cases hcond : row.state = none ∨ row.state = some .deferred
    · rw [if_pos hcond, htrigger] at hrowTrigger
      rcases hcond with hnull | hdeferred
      · unfold Safe at hsafe
        rw [hmain] at hsafe
        exact hsafe row hrow hnull id hrowTrigger.symm hassigned hmem
      · exact h.handled id hassigned hmem row hrow hdeferred hrowTrigger.symm
    · rw [if_neg hcond, htrigger] at hrowTrigger
      cases hrowTrigger
  once := h.once

/-- A row is newly assigned, with clean records, or was assigned before. -/
theorem Assigned.of_assignUnassigned {triggerIds : List Nat} {id : Nat}
    (h : (s.assignUnassigned jobId triggerIds).Assigned jobId id) :
    s.Assigned jobId id ∨ ¬(s.assignUnassigned jobId triggerIds).Begun id ∧
      id ∉ (s.assignUnassigned jobId triggerIds).handled := by
  unfold Assigned assignUnassigned at h
  by_cases hnew : id ∈ triggerIds.filter fun id => id ∈ s.tables.triggers ∧ ¬s.Assigned jobId id
  · refine .inr ⟨fun hb => ?_, fun hmem => ?_⟩
    · rcases hb.2 with hmem | hmem
      · exact absurd hnew (of_decide_eq_true (List.mem_filter.mp hmem).2)
      · exact absurd hnew (of_decide_eq_true (List.mem_filter.mp hmem).2)
    · exact absurd hnew (of_decide_eq_true (List.mem_filter.mp hmem).2)
  · refine .inl ⟨h.1, ?_⟩
    have hid := h.2
    simp only [if_neg hnew] at hid
    exact hid

theorem Begun.of_assignUnassigned {triggerIds : List Nat} {id : Nat}
    (h : (s.assignUnassigned jobId triggerIds).Begun id) : s.Begun id :=
  ⟨h.1, h.2.imp (fun hmem => (List.mem_filter.mp hmem).1) fun hmem => (List.mem_filter.mp hmem).1⟩

theorem Inv.assignUnassigned (h : s.Inv jobId) (hmain : s.main = .assignUnassigned)
    (triggerIds : List Nat) : (s.assignUnassigned jobId triggerIds).Inv jobId where
  pending.nodup := h.pending.nodup
  pending.fresh := h.pending.fresh
  pending.notBegun id hid hmem := hmem.of_assignUnassigned.elim
    (fun hold hb => h.pending.notBegun id hid hold hb.of_assignUnassigned) And.left
  pending.notCancelled id hid := ⟨(h.pending.notCancelled id hid).1, List.not_mem_nil⟩
  begun id hid hb := by
    have hold := hid.of_assignUnassigned.resolve_right fun hnew => hnew.1 hb
    refine (h.begun id hold hb.of_assignUnassigned).imp (fun hlive => ?_) fun hfound => ?_
    · exact hlive.mono rfl (fun hmem => hmem) (fun hmem => absurd hmem List.not_mem_nil)
        hlive.ending
    · refine hfound.mono (fun hmem => hmem) (fun hmem => hmem) (fun hmem => hmem)
        (fun hsub => ?_) (fun hmem => ?_)
      · rw [hmain] at hsub
        cases hsub
      · have hnot := h.main
        simp only [MainInv, hmain] at hnot
        exact absurd hmem (hnot id hold)
  firing := h.firing
  handled id hid hmem := by
    have hold := hid.of_assignUnassigned.resolve_right fun hnew => hnew.2 hmem
    exact h.handled id hold (List.mem_filter.mp hmem).1
  main id hid hmem := by
    have hold := hid.of_assignUnassigned.resolve_right fun hnew => hnew.2 hmem
    have hnot := h.main
    simp only [MainInv, hmain] at hnot
    exact hnot id hold (List.mem_filter.mp hmem).1
  once := h.once

theorem Inv.idsForTriggerer (h : s.Inv jobId) (hmain : s.main = .idsForTriggerer) :
    Inv ({ s with
      main := .readTriggers (s.tables.triggers.filter fun id => s.triggererId id = some jobId) } :
      Threads Kwargs Class Obj Event) jobId := by
  have hnot := h.main
  simp only [MainInv, hmain] at hnot
  refine h.setMain (by rw [hmain]; rfl) (fun id hmem => absurd hmem List.not_mem_nil)
    fun id hid => ?_
  exact ⟨List.mem_filter.mpr ⟨hid.1, decide_eq_true hid.2⟩, hnot id hid⟩

/-! ## The reads of `update_triggers` -/

theorem Unknown.setMain {left : List Collection} {id : Nat} (h : s.Unknown jobId left id)
    (main : MainThread Kwargs Event) : Unknown { s with main := main } jobId left id :=
  ⟨h.running, h.held, h.toCreate, h.toCancel, h.begun⟩

/-- A requested id that is not running is unknown, unless `create_triggers` holds it. -/
theorem Inv.readTriggers (h : s.Inv jobId) {requested : List Nat}
    (hmain : s.main = .readTriggers requested)
    (hsafe : s.Safe jobId (.main : ThreadStep Kwargs Event)) :
    Inv ({ s with
      main := .readKnown ⟨requested, s.runner.triggers.keys, s.runner.triggers.keys⟩
        [.events, .toCancel, .toCreate, .failedTriggers] } :
      Threads Kwargs Class Obj Event) jobId := by
  have hnot := h.main
  simp only [MainInv, hmain] at hnot
  simp only [Safe, hmain] at hsafe
  refine h.setMain (by rw [hmain]; rfl) (fun id hmem => .inr ?_)
    ⟨fun id hid => (hnot id hid).1, fun id hid hknown => ?_⟩
  · obtain ⟨hrunning, hrequested⟩ := List.mem_filter.mp hmem
    exact ⟨fun hpending => h.pending.fresh id hpending hrunning,
      fun hid => of_decide_eq_true hrequested (hnot id hid).1⟩
  · refine ⟨hknown, fun hheld => hsafe id hheld hid, .inl (by decide), .inl (by decide),
      fun hassigned hb => ?_⟩
    rcases h.begun id hassigned hb with hlive | hfound
    · obtain ⟨details, hget, -⟩ := hlive.details
      exact absurd (Dict.mem_keys.mpr ⟨details, hget⟩) hknown
    · rcases hfound with hfiring | hevents | hfailed | hsub | hhandled
      · exact absurd (h.firing id hfiring) hknown
      · exact .inl ⟨by decide, hevents⟩
      · exact .inr ⟨by decide, hfailed⟩
      · rw [hmain] at hsub
        cases hsub
      · exact absurd hhandled (hnot id hassigned).2

/-- Reading a deque rules it out for the ids that stay unknown. -/
theorem Unknown.read {collection : Collection} {left : List Collection} {id : Nat}
    (h : s.Unknown jobId (collection :: left) id) (hnot : id ∉ collection.ids s.runner) :
    s.Unknown jobId left id where
  running := h.running
  held := h.held
  toCreate := by
    rcases h.toCreate with hmem | hmem
    · rcases List.mem_cons.mp hmem with rfl | hmem
      · exact .inr hnot
      · exact .inl hmem
    · exact .inr hmem
  toCancel := by
    rcases h.toCancel with hmem | hmem
    · rcases List.mem_cons.mp hmem with rfl | hmem
      · exact .inr hnot
      · exact .inl hmem
    · exact .inr hmem
  begun hassigned hb := by
    rcases h.begun hassigned hb with ⟨hmem, hid⟩ | ⟨hmem, hid⟩
    · rcases List.mem_cons.mp hmem with rfl | hmem
      · exact absurd hid hnot
      · exact .inl ⟨hmem, hid⟩
    · rcases List.mem_cons.mp hmem with rfl | hmem
      · exact absurd hid hnot
      · exact .inr ⟨hmem, hid⟩

theorem Inv.readKnown (h : s.Inv jobId) {reads : Reads} {collection : Collection}
    {left : List Collection} (hmain : s.main = .readKnown reads (collection :: left)) :
    Inv ({ s with
      main := .readKnown { reads with known := reads.known ++ collection.ids s.runner } left } :
      Threads Kwargs Class Obj Event) jobId := by
  have hknown := h.main
  simp only [MainInv, hmain] at hknown
  refine h.setMain (by rw [hmain]; rfl) (fun id hmem => .inl ?_) ⟨hknown.1, fun id hid hnot => ?_⟩
  · rw [hmain]
    exact hmem
  · rw [List.mem_append, not_or] at hnot
    exact ((hknown.2 id hid hnot.1).read hnot.2).setMain _

theorem Inv.bulkFetch (h : s.Inv jobId) {reads : Reads} (hmain : s.main = .readKnown reads [])
    (table : TriggerTable Kwargs) : (s.bulkFetch reads table).Inv jobId := by
  have hknown := h.main
  simp only [MainInv, hmain] at hknown
  have hsubmitting : s.main.submitting = none := by
    rw [hmain]
    rfl
  unfold Threads.bulkFetch
  split
  · exact h.exit hsubmitting
  · refine h.setMain hsubmitting (fun id hmem => .inl ?_)
      ⟨hknown.1, reads.requested.nodup_dedup.filter _, fun id hid => ?_⟩
    · rw [hmain]
      exact hmem
    · obtain ⟨hrequested, hnot⟩ := List.mem_filter.mp hid
      rw [List.mem_dedup] at hrequested
      exact ⟨hrequested, (hknown.2 id hrequested (of_decide_eq_true hnot)).setMain _⟩

/-! ## The writes of `update_triggers` -/

theorem addTrigger_cases (runner : TriggerRunner Class Obj Event)
    (code : TriggerCode Kwargs Class Obj) (newTriggers : List (TriggerRow Kwargs)) (newId : Nat) :
    ∃ cache, (∃ e, runner.addTrigger code newTriggers newId =
        ({ runner with triggerCache := cache }, some e)) ∨
      runner.addTrigger code newTriggers newId = ({ runner with triggerCache := cache }, none) ∨
      (∃ exc, runner.addTrigger code newTriggers newId =
        ({ runner with triggerCache := cache }.fail newId exc, none)) ∨
      ∃ trigger, runner.addTrigger code newTriggers newId =
        ({ runner with
            triggerCache := cache, toCreate := runner.toCreate ++ [(newId, trigger)] }, none) := by
  unfold TriggerRunner.addTrigger
  cases newTriggers.find? (·.id = newId) with
  | none => exact ⟨runner.triggerCache, .inr (.inl rfl)⟩
  | some row =>
    cases hget : runner.getTriggerByClasspath code row.classpath with
    | error e =>
      refine ⟨runner.triggerCache, .inr (.inr (.inl ⟨some e, ?_⟩))⟩
      simp only [hget]
    | ok found =>
      refine ⟨found.2, ?_⟩
      cases hconstruct : code.construct newId found.1 row.kwargs with
      | ok trigger =>
        refine .inr (.inr (.inr ⟨{ runner with triggerCache := found.2 }.setTriggerLoggingMetadata
          row.taskInstance newId trigger, ?_⟩))
        simp only [hget, hconstruct]
      | error e =>
        by_cases htype : e.cls = .typeError
        · refine .inr (.inr (.inl ⟨some e, ?_⟩))
          simp only [hget, hconstruct, if_pos htype]
        · refine .inl ⟨e, ?_⟩
          simp only [hget, hconstruct, if_neg htype]

section
variable {reads : Reads} {newTriggers : List (TriggerRow Kwargs)} {newId : Nat} {newIds : List Nat}

/-- The ids that are still to be added stay unknown while another one is added. -/
theorem unknown_of_addTriggers (h : s.Inv jobId)
    (hmain : s.main = .addTriggers reads newTriggers (newId :: newIds)) :
    (∀ id, s.Assigned jobId id → id ∈ reads.requested) ∧ newIds.Nodup ∧ newId ∈ reads.requested ∧
      s.Unknown jobId [] newId ∧
      ∀ id ∈ newIds, id ≠ newId ∧ id ∈ reads.requested ∧ s.Unknown jobId [] id := by
  have hnew := h.main
  simp only [MainInv, hmain] at hnew
  obtain ⟨hrequested, hnodup, hunknown⟩ := hnew
  rw [List.nodup_cons] at hnodup
  obtain ⟨hmem, hnewId⟩ := hunknown newId (List.mem_cons_self ..)
  refine ⟨hrequested, hnodup.2, hmem, hnewId, fun id hid => ⟨?_, hunknown id ?_⟩⟩
  · rintro rfl
    exact hnodup.1 hid
  · exact List.mem_cons_of_mem _ hid

theorem Inv.vanish (h : s.Inv jobId)
    (hmain : s.main = .addTriggers reads newTriggers (newId :: newIds)) :
    Inv { s with main := .addTriggers reads newTriggers newIds } jobId := by
  obtain ⟨hrequested, hnodup, -, -, hunknown⟩ := unknown_of_addTriggers h hmain
  refine h.setMain (by rw [hmain]; rfl) (fun id hmem => .inl ?_)
    ⟨hrequested, hnodup, fun id hid => ⟨(hunknown id hid).2.1, (hunknown id hid).2.2.setMain _⟩⟩
  rw [hmain]
  exact hmem

/-- An id that is unknown after all the reads is nowhere. -/
theorem Unknown.not_pending {id : Nat} (h : s.Unknown jobId [] id) : id ∉ s.pending := by
  intro hmem
  rcases List.mem_append.mp hmem with hheld | htoCreate
  · exact h.held (Option.mem_toList.mp hheld)
  · exact (h.toCreate.resolve_left List.not_mem_nil) htoCreate

theorem Unknown.not_begun {id : Nat} (h : s.Unknown jobId [] id) (hassigned : s.Assigned jobId id) :
    ¬s.Begun id := by
  intro hb
  rcases h.begun hassigned hb with ⟨hmem, -⟩ | ⟨hmem, -⟩
  · exact List.not_mem_nil hmem
  · exact List.not_mem_nil hmem

/-- A new id is put into `to_create`. -/
theorem Inv.put (h : s.Inv jobId)
    (hmain : s.main = .addTriggers reads newTriggers (newId :: newIds))
    (trigger : TriggerInstance Obj) :
    Inv { s with
      runner := { s.runner with toCreate := s.runner.toCreate ++ [(newId, trigger)] }
      main := .addTriggers reads newTriggers newIds } jobId := by
  obtain ⟨hrequested, hnodup, hmem, hnewId, hunknown⟩ := unknown_of_addTriggers h hmain
  have hnotCancelled : newId ∉ reads.cancelTriggerIds := fun hid =>
    of_decide_eq_true (List.mem_filter.mp hid).2 hmem
  have hcancels : s.main.cancels = reads.cancelTriggerIds := by rw [hmain]; rfl
  have hpending : Threads.pending ({ s with
      runner := { s.runner with toCreate := s.runner.toCreate ++ [(newId, trigger)] }
      main := .addTriggers reads newTriggers newIds } : Threads Kwargs Class Obj Event) =
      s.pending ++ [newId] := by
    simp only [Threads.pending, held, List.map_append, List.append_assoc, List.map_cons,
      List.map_nil]
  have hcases {p : Nat → Prop} (hold : ∀ id ∈ s.pending, p id) (hnew : p newId) :
      ∀ id ∈ s.pending ++ [newId], p id := by
    intro id hid
    rcases List.mem_append.mp hid with hid | hid
    · exact hold id hid
    · rw [List.mem_singleton.mp hid]
      exact hnew
  refine ⟨⟨?_, ?_, ?_, ?_⟩, fun id hid hb => ?_, h.firing, h.handled,
    ⟨hrequested, hnodup, fun id hid => ⟨(hunknown id hid).2.1, ?_⟩⟩, h.once⟩
  · rw [hpending]
    exact h.pending.nodup.append (List.nodup_singleton _) fun id hid hnew =>
      hnewId.not_pending (List.mem_singleton.mp hnew ▸ hid)
  · rw [hpending]
    exact hcases h.pending.fresh hnewId.running
  · rw [hpending]
    exact hcases h.pending.notBegun hnewId.not_begun
  · rw [hpending]
    refine hcases (fun id hid => ?_) ⟨hnewId.toCancel.resolve_left List.not_mem_nil, hnotCancelled⟩
    have hnot := h.pending.notCancelled id hid
    rw [hcancels] at hnot
    exact hnot
  · refine (h.begun id hid hb).imp (fun hlive => ?_) fun hfound => ?_
    · exact hlive.mono rfl (fun hmem => hmem) (fun hmem => hcancels.symm ▸ hmem) hlive.ending
    · refine hfound.mono (fun hmem => hmem) (fun hmem => hmem) (fun hmem => hmem)
        (fun hsub => ?_) (fun hmem => hmem)
      rw [hmain] at hsub
      cases hsub
  · obtain ⟨hne, -, hu⟩ := hunknown id hid
    refine ⟨hu.running, hu.held, .inr fun hmem => ?_, hu.toCancel, hu.begun⟩
    rw [List.map_append, List.mem_append] at hmem
    rcases hmem with hmem | hmem
    · exact (hu.toCreate.resolve_left List.not_mem_nil) hmem
    · exact hne (List.mem_singleton.mp hmem)

/-- A new id fails. -/
theorem Inv.failNew (h : s.Inv jobId)
    (hmain : s.main = .addTriggers reads newTriggers (newId :: newIds)) (exc : Option PyException) :
    Inv { s with
      runner := s.runner.fail newId exc
      main := .addTriggers reads newTriggers newIds
      queued := newId :: s.queued } jobId := by
  obtain ⟨hrequested, hnodup, -, hnewId, hunknown⟩ := unknown_of_addTriggers h hmain
  have hcancels : s.main.cancels = reads.cancelTriggerIds := by rw [hmain]; rfl
  have hbegun : ∀ id, id ≠ newId → (s.async.Alive ∧ (id ∈ s.started ∨ id ∈ newId :: s.queued)) →
      s.Begun id := by
    intro id hne hb
    exact ⟨hb.1, hb.2.imp_right fun hmem => (List.mem_cons.mp hmem).resolve_left hne⟩
  refine ⟨?_, fun id hid hb => ?_, h.firing, h.handled,
    ⟨hrequested, hnodup, fun id hid => ⟨(hunknown id hid).2.1, ?_⟩⟩, h.once⟩
  · refine h.pending.of_sublist (.refl _) (fun _ hid => hid) (fun _ _ hmem => hmem)
      (fun id hid hb => hbegun id ?_ hb) (fun id _ hmem => hcancels.symm ▸ hmem)
    rintro rfl
    exact hnewId.not_pending hid
  · by_cases hne : id = newId
    · refine .inr (.inr (.inr (.inl ?_)))
      rw [hne]
      simp [TriggerRunner.fail]
    · refine (h.begun id hid (hbegun id hne hb)).imp (fun hlive => ?_) fun hfound => ?_
      · exact hlive.mono rfl (fun hmem => hmem) (fun hmem => hcancels.symm ▸ hmem) hlive.ending
      · refine hfound.mono (fun hmem => hmem) (fun hmem => hmem) (fun hmem => ?_)
          (fun hsub => ?_) (fun hmem => hmem)
        · rw [TriggerRunner.fail, List.map_append, List.mem_append]
          exact .inl hmem
        · rw [hmain] at hsub
          cases hsub
  · obtain ⟨hne, -, hu⟩ := hunknown id hid
    refine ⟨hu.running, hu.held, hu.toCreate, hu.toCancel, fun hassigned hb => ?_⟩
    exact absurd (hbegun id hne hb) (hu.not_begun hassigned)

theorem Inv.addTrigger (h : s.Inv jobId)
    (hmain : s.main = .addTriggers reads newTriggers (newId :: newIds))
    (code : TriggerCode Kwargs Class Obj) :
    (s.addTrigger code jobId reads newTriggers newId newIds).Inv jobId := by
  have hunknown : s.Unknown jobId [] newId := by
    have hnew := h.main
    simp only [MainInv, hmain] at hnew
    exact (hnew.2.2 newId (List.mem_cons_self ..)).2
  have hnot : ¬(newId ∈ s.runner.toCreate.map Prod.fst ∨ newId ∈ s.runner.triggers.keys) := by
    rintro (hmem | hmem)
    · exact hunknown.toCreate.elim (fun h => absurd h List.not_mem_nil) fun hnot => hnot hmem
    · exact hunknown.running hmem
  obtain ⟨cache, hcases⟩ := addTrigger_cases s.runner code newTriggers newId
  have hcache : Inv { s with runner := { s.runner with triggerCache := cache } } jobId :=
    h.setRunner rfl rfl rfl rfl rfl
  unfold Threads.addTrigger
  rcases hcases with ⟨e, hadd⟩ | hadd | ⟨exc, hadd⟩ | ⟨trigger, hadd⟩
  · rw [hadd]
    exact hcache.exit (by rw [hmain]; rfl)
  · rw [hadd]
    dsimp only
    rw [if_neg (lt_irrefl _), if_neg fun hcond => hnot hcond.2.2]
    exact hcache.vanish hmain
  · rw [hadd]
    dsimp only [TriggerRunner.fail]
    rw [if_pos (by simp), if_neg fun hcond => hnot hcond.2.2]
    exact hcache.failNew hmain exc
  · rw [hadd]
    dsimp only
    rw [if_neg (lt_irrefl _), if_neg fun hcond => hnot hcond.2.2]
    exact hcache.put hmain trigger

/-- The cancelled ids are handed over. -/
theorem Inv.extendToCancel (h : s.Inv jobId) (hmain : s.main = .addTriggers reads newTriggers []) :
    Inv ({ s with
      runner := { s.runner with toCancel := s.runner.toCancel ++ reads.cancelTriggerIds }
      main := .handleEvents } : Threads Kwargs Class Obj Event) jobId := by
  have hcancels : s.main.cancels = reads.cancelTriggerIds := by rw [hmain]; rfl
  have hmem : ∀ id, id ∈ s.runner.toCancel ++ reads.cancelTriggerIds →
      id ∈ s.runner.toCancel ∨ id ∈ s.main.cancels := by
    intro id hid
    rw [hcancels]
    exact List.mem_append.mp hid
  refine ⟨?_, fun id hid hb => ?_, h.firing, h.handled, trivial, h.once⟩
  · refine h.pending.of_sublist (.refl _) (fun _ hid => hid) (fun _ _ hmem => hmem)
      (fun _ _ hb => hb) fun id _ hid => ?_
    exact hid.elim (hmem id) fun hid => absurd hid List.not_mem_nil
  · refine (h.begun id hid hb).imp (fun hlive => ?_) fun hfound => ?_
    · refine ⟨hlive.details, fun hid => ?_, List.not_mem_nil, hlive.ending⟩
      exact (hmem id hid).elim hlive.toCancel hlive.cancels
    · refine hfound.mono (fun hmem => hmem) (fun hmem => hmem) (fun hmem => hmem)
        (fun hsub => ?_) (fun hmem => hmem)
      rw [hmain] at hsub
      cases hsub

end

/-! ## `handle_events` and `handle_failed_triggers` -/

theorem mem_wakeUp {triggerId : Nat} {rows : List CleanUnused.TaskInstance}
    {ti : CleanUnused.TaskInstance} (h : ti ∈ wakeUp triggerId rows)
    (hstate : ti.state = some .deferred) : ti ∈ rows ∧ ti.triggerId ≠ some triggerId := by
  obtain ⟨row, hrow, rfl⟩ := List.mem_map.mp h
  by_cases hcond : row.triggerId = some triggerId ∧ row.state = some .deferred
  · rw [if_pos hcond] at hstate
    cases hstate
  · rw [if_neg hcond] at hstate ⊢
    exact ⟨hrow, fun htrigger => hcond ⟨htrigger, hstate⟩⟩

/-- After it has been passed on, no deferred task instance refers to the trigger. -/
theorem Inv.submit (h : s.Inv jobId) {triggerId : Nat} {main : MainThread Kwargs Event}
    (hsubmitting : s.main.submitting = some triggerId)
    (hmain : main = .handleEvents ∨ main = .handleFailedTriggers) :
    (s.submit triggerId main).Inv jobId := by
  have hcancels : main.cancels = [] := by rcases hmain with rfl | rfl <;> rfl
  have hassigned : ∀ id, (s.submit triggerId main).Assigned jobId id → s.Assigned jobId id :=
    fun _ hid => hid
  refine ⟨?_, fun id hid hb => ?_, h.firing, fun id hid hmem ti hti hstate => ?_, ?_, h.once⟩
  · refine h.pending.of_sublist (.refl _) hassigned (fun _ _ hmem => hmem) (fun _ _ hb => hb)
      fun id _ hid => hid.imp_right fun hid => ?_
    exact absurd (hcancels ▸ hid) List.not_mem_nil
  · refine (h.begun id hid hb).imp (fun hlive => ?_) fun hfound => ?_
    · exact hlive.mono rfl (fun hmem => hmem) (fun hid => absurd (hcancels ▸ hid) List.not_mem_nil)
        hlive.ending
    · rcases hfound with hfiring | hevents | hfailed | hsub | hhandled
      · exact .inl hfiring
      · exact .inr (.inl hevents)
      · exact .inr (.inr (.inl hfailed))
      · rw [hsubmitting] at hsub
        cases hsub
        exact .inr (.inr (.inr (.inr (List.mem_cons_self ..))))
      · exact .inr (.inr (.inr (.inr (List.mem_cons_of_mem _ hhandled))))
  · obtain ⟨hrow, hne⟩ := mem_wakeUp hti hstate
    rcases List.mem_cons.mp hmem with rfl | hmem
    · exact hne
    · exact h.handled id hid hmem ti hrow hstate
  · rcases hmain with rfl | rfl <;> trivial

/-- An event that is taken from the queue is being passed on. -/
theorem Inv.popEvent (h : s.Inv jobId) (hmain : s.main = .handleEvents) {triggerId : Nat}
    {event : Event} {rest : List (Nat × Event)}
    (hevents : s.runner.events = (triggerId, event) :: rest) :
    Inv ({ s with
      runner := { s.runner with events := rest }
      main := .submitEvent triggerId event } : Threads Kwargs Class Obj Event) jobId := by
  refine ⟨?_, fun id hid hb => ?_, h.firing, h.handled, trivial, h.once⟩
  · exact h.pending.of_sublist (.refl _) (fun _ hid => hid) (fun _ _ hmem => hmem)
      (fun _ _ hb => hb) fun id _ hid => hid.imp_right fun hid => absurd hid List.not_mem_nil
  · refine (h.begun id hid hb).imp (fun hlive => ?_) fun hfound => ?_
    · exact hlive.mono rfl (fun hmem => hmem) (fun hid => absurd hid List.not_mem_nil) hlive.ending
    · rcases hfound with hfiring | hmem | hfailed | hsub | hhandled
      · exact .inl hfiring
      · rw [hevents] at hmem
        rcases List.mem_cons.mp hmem with rfl | hmem
        · exact .inr (.inr (.inr (.inl rfl)))
        · exact .inr (.inl hmem)
      · exact .inr (.inr (.inl hfailed))
      · rw [hmain] at hsub
        cases hsub
      · exact .inr (.inr (.inr (.inr hhandled)))

/-- A failure that is taken from the queue is being passed on. -/
theorem Inv.popFailed (h : s.Inv jobId) (hmain : s.main = .handleFailedTriggers) {triggerId : Nat}
    {exc : Option PyException} {rest : List (Nat × Option PyException)}
    (hfailed : s.runner.failedTriggers = (triggerId, exc) :: rest) :
    Inv ({ s with
      runner := { s.runner with failedTriggers := rest }
      main := .submitFailure triggerId exc } : Threads Kwargs Class Obj Event) jobId := by
  refine ⟨?_, fun id hid hb => ?_, h.firing, h.handled, trivial, h.once⟩
  · exact h.pending.of_sublist (.refl _) (fun _ hid => hid) (fun _ _ hmem => hmem)
      (fun _ _ hb => hb) fun id _ hid => hid.imp_right fun hid => absurd hid List.not_mem_nil
  · refine (h.begun id hid hb).imp (fun hlive => ?_) fun hfound => ?_
    · exact hlive.mono rfl (fun hmem => hmem) (fun hid => absurd hid List.not_mem_nil) hlive.ending
    · rcases hfound with hfiring | hevents | hmem | hsub | hhandled
      · exact .inl hfiring
      · exact .inr (.inl hevents)
      · rw [hfailed] at hmem
        rcases List.mem_cons.mp hmem with rfl | hmem
        · exact .inr (.inr (.inr (.inl rfl)))
        · exact .inr (.inr (.inl hmem))
      · rw [hmain] at hsub
        cases hsub
      · exact .inr (.inr (.inr (.inr hhandled)))

/-- **A step of the main thread keeps the invariant.** -/
theorem Inv.stepMain (h : s.Inv jobId) (code : TriggerCode Kwargs Class Obj)
    (hsafe : s.Safe jobId (.main : ThreadStep Kwargs Event)) :
    (s.stepMain code jobId).Inv jobId := by
  unfold Threads.stepMain
  split
  · next hmain =>
    split
    · exact h.setMain (by rw [hmain]; rfl) (fun id hmem => absurd hmem List.not_mem_nil) trivial
    · exact h.cleanUnused hmain hsafe
  · next hmain => exact h.idsForTriggerer hmain
  · next requested hmain => exact h.readTriggers hmain hsafe
  · next reads collection left hmain => exact h.readKnown hmain
  · next reads newTriggers newId newIds hmain => exact h.addTrigger hmain code
  · next reads newTriggers hmain => exact h.extendToCancel hmain
  · next hmain =>
    split
    · exact h.setMain (by rw [hmain]; rfl) (fun id hmem => absurd hmem List.not_mem_nil) trivial
    · next triggerId event rest hevents => exact h.popEvent hmain hevents
  · next triggerId event hmain => exact h.submit (by rw [hmain]; rfl) (.inl rfl)
  · next hmain =>
    split
    · exact h.setMain (by rw [hmain]; rfl) (fun id hmem => absurd hmem List.not_mem_nil) trivial
    · next triggerId exc rest hfailed => exact h.popFailed hmain hfailed
  · next triggerId exc hmain => exact h.submit (by rw [hmain]; rfl) (.inr rfl)
  · exact h
  · exact h
  · exact h

end

end Threads

end Airflow.Triggerer
