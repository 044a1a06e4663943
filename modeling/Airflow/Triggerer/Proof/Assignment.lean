import Airflow.Lib.Transition
import Airflow.Triggerer.Assignment
import Mathlib.Data.List.Perm.Subperm

/-!
# Assignments to several triggerers

The row locks keep two calls from taking the same trigger, and no triggerer gets more triggers than
its capacity. The list of the alive triggerers is older than the locks, though: `safe_iff` says that
a run keeps the capacities and takes no trigger from another triggerer that is alive exactly when, at
every update, no selected trigger belongs to one that has started or sent a heartbeat since the list
was read and is still alive.
-/

namespace Airflow.Triggerer.Cluster

variable {settings : Settings}

/-! ## Counting -/

/-- The triggers of a triggerer. -/
def ownedIds (c : Cluster) (triggererId : Nat) : List Nat :=
  (c.triggers.entries.filter (·.2.triggererId = some triggererId)).map Prod.fst

theorem length_ownedIds (c : Cluster) (triggererId : Nat) :
    (c.ownedIds triggererId).length = c.count triggererId := by
  rw [ownedIds, List.length_map, count]

theorem nodup_ownedIds (c : Cluster) (triggererId : Nat) : (c.ownedIds triggererId).Nodup :=
  c.triggers.keys_nodup.sublist (List.filter_sublist.map _)

theorem mem_ownedIds {c : Cluster} {triggererId id : Nat} :
    id ∈ c.ownedIds triggererId ↔
      ∃ trigger, c.triggers.get? id = some trigger ∧ trigger.triggererId = some triggererId := by
  simp only [ownedIds, List.mem_map, List.mem_filter, decide_eq_true_eq, Dict.get?_eq_some]
  constructor
  · rintro ⟨⟨_, trigger⟩, ⟨hmem, howner⟩, rfl⟩
    exact ⟨trigger, hmem, howner⟩
  · rintro ⟨trigger, hmem, howner⟩
    exact ⟨(id, trigger), ⟨hmem, howner⟩, rfl⟩

/-- A triggerer owns at most what it owned and `ids`. -/
theorem count_le_of_subset {c c' : Cluster} {triggererId : Nat} {ids : List Nat}
    (h : c'.ownedIds triggererId ⊆ c.ownedIds triggererId ++ ids) :
    c'.count triggererId ≤ c.count triggererId + ids.length := by
  rw [← length_ownedIds, ← length_ownedIds, ← List.length_append]
  exact ((c'.nodup_ownedIds triggererId).subperm h).length_le

theorem count_mono {c c' : Cluster} {triggererId : Nat}
    (h : c'.ownedIds triggererId ⊆ c.ownedIds triggererId) :
    c'.count triggererId ≤ c.count triggererId := by
  rw [← length_ownedIds, ← length_ownedIds]
  exact ((c'.nodup_ownedIds triggererId).subperm h).length_le

theorem mem_aliveTriggererIds {c : Cluster} {threshold : Int} {jobId : Nat} :
    jobId ∈ c.aliveTriggererIds threshold ↔
      ∃ job, c.jobs.get? jobId = some job ∧ job.alive threshold c.now := by
  simp only [aliveTriggererIds, List.mem_map, List.mem_filter, decide_eq_true_eq,
    Dict.get?_eq_some]
  constructor
  · rintro ⟨⟨_, job⟩, ⟨hmem, halive⟩, rfl⟩
    exact ⟨job, hmem, halive⟩
  · rintro ⟨job, hmem, halive⟩
    exact ⟨(jobId, job), ⟨hmem, halive⟩, rfl⟩

/-! ## The invariant -/

/-- Who is alive was listed, or has started or sent a heartbeat since. -/
def Fresh (settings : Settings) (c : Cluster) (triggererId : Nat) (alive since : List Nat) : Prop :=
  ∀ jobId ∈ c.aliveTriggererIds (settings.healthCheckThreshold triggererId),
    jobId ∈ alive ∨ jobId ∈ since

/-- What a call of a triggerer may rely on. -/
def PhaseInv (settings : Settings) (c : Cluster) (triggererId : Nat) (since : List Nat) :
    Phase → Prop
  | .counted capacity =>
    0 < capacity ∧ c.count triggererId + capacity ≤ settings.capacity triggererId
  | .listed capacity alive =>
    (0 < capacity ∧ c.count triggererId + capacity ≤ settings.capacity triggererId) ∧
      Fresh settings c triggererId alive since
  | .selected alive ids =>
    c.count triggererId + ids.length ≤ settings.capacity triggererId ∧
      Fresh settings c triggererId alive since ∧
      ∀ id ∈ ids, ∀ trigger owner, c.triggers.get? id = some trigger →
        trigger.triggererId = some owner → owner ∉ alive
  | .updated ids => c.count triggererId + ids.length ≤ settings.capacity triggererId

/-- The invariant of the database. -/
structure Inv (settings : Settings) (c : Cluster) : Prop where
  capacity : ∀ triggererId, c.count triggererId ≤ (settings.capacity triggererId).toNat
  phases : ∀ triggererId transaction, c.transactions.get? triggererId = some transaction →
    PhaseInv settings c triggererId transaction.since transaction.phase
  locks : ∀ triggererId triggererId' transaction transaction', triggererId ≠ triggererId' →
    c.transactions.get? triggererId = some transaction →
    c.transactions.get? triggererId' = some transaction' →
    ∀ id ∈ transaction.locks, id ∉ transaction'.locks

/-- `PhaseInv` holds on when the triggerer owns no more, when who became alive is in `since`, and
when the locked rows keep their owners. -/
theorem PhaseInv.mono {c c' : Cluster} {triggererId : Nat} {since since' : List Nat}
    {phase : Phase} (h : PhaseInv settings c triggererId since phase)
    (hcount : c'.count triggererId ≤ c.count triggererId) (hsince : since ⊆ since')
    (halive : ∀ jobId ∈ c'.aliveTriggererIds (settings.healthCheckThreshold triggererId),
      jobId ∈ c.aliveTriggererIds (settings.healthCheckThreshold triggererId) ∨ jobId ∈ since')
    (hrows : ∀ id ∈ Transaction.locks ⟨phase, since⟩, ∀ trigger' owner,
      c'.triggers.get? id = some trigger' → trigger'.triggererId = some owner →
        ∃ trigger, c.triggers.get? id = some trigger ∧ trigger.triggererId = some owner) :
    PhaseInv settings c' triggererId since' phase := by
  have hfresh : ∀ alive, Fresh settings c triggererId alive since →
      Fresh settings c' triggererId alive since' := fun alive hf jobId hjob =>
    (halive jobId hjob).elim (fun hjob => (hf jobId hjob).imp_right fun h => hsince h) .inr
  cases phase with
  | counted capacity => exact ⟨h.1, by have := h.2; omega⟩
  | listed capacity alive => exact ⟨⟨h.1.1, by have := h.1.2; omega⟩, hfresh alive h.2⟩
  | selected alive ids =>
    obtain ⟨hcap, hf, howners⟩ := h
    refine ⟨by omega, hfresh alive hf, fun id hid trigger' owner hget howner => ?_⟩
    obtain ⟨trigger, hget₀, howner₀⟩ := hrows id hid trigger' owner hget howner
    exact howners id hid trigger owner hget₀ howner₀
  | updated ids =>
    have hcap : (c.count triggererId : Int) + ids.length ≤ settings.capacity triggererId := h
    change (c'.count triggererId : Int) + ids.length ≤ settings.capacity triggererId
    omega

/-! ## Steps outside the calls -/

/-- A step that leaves the calls where they are keeps the invariant when nobody gets a trigger, when
the locked rows keep their owners, and when who became alive is put down in `since`. -/
theorem Inv.outside {c c' : Cluster} (h : Inv settings c)
    (howned : ∀ id trigger' owner, c'.triggers.get? id = some trigger' →
      trigger'.triggererId = some owner →
        ∃ trigger, c.triggers.get? id = some trigger ∧ trigger.triggererId = some owner)
    (htransactions : ∀ triggererId transaction',
      c'.transactions.get? triggererId = some transaction' →
        ∃ transaction, c.transactions.get? triggererId = some transaction ∧
          transaction'.phase = transaction.phase ∧ transaction.since ⊆ transaction'.since ∧
          ∀ jobId ∈ c'.aliveTriggererIds (settings.healthCheckThreshold triggererId),
            jobId ∈ c.aliveTriggererIds (settings.healthCheckThreshold triggererId) ∨
              jobId ∈ transaction'.since) :
    Inv settings c' := by
  have hcount : ∀ triggererId, c'.count triggererId ≤ c.count triggererId := by
    intro triggererId
    refine count_mono fun id hid => ?_
    obtain ⟨trigger', hget, howner⟩ := mem_ownedIds.mp hid
    exact mem_ownedIds.mpr (howned id trigger' triggererId hget howner)
  have hlocks : ∀ triggererId transaction',
      c'.transactions.get? triggererId = some transaction' →
        ∃ transaction, c.transactions.get? triggererId = some transaction ∧
          transaction'.locks = transaction.locks := by
    intro triggererId transaction' hget
    obtain ⟨transaction, hget₀, hphase, -⟩ := htransactions triggererId transaction' hget
    exact ⟨transaction, hget₀, by simp only [Transaction.locks, hphase]⟩
  refine ⟨fun triggererId => (hcount triggererId).trans (h.capacity triggererId),
    fun triggererId transaction' hget => ?_,
    fun triggererId triggererId' transaction transaction' hne hget hget' id hid => ?_⟩
  · obtain ⟨transaction, hget₀, hphase, hsince, halive⟩ :=
      htransactions triggererId transaction' hget
    rw [hphase]
    exact (h.phases triggererId transaction hget₀).mono (hcount triggererId) hsince halive
      fun id _ trigger' owner => howned id trigger' owner
  · obtain ⟨transaction₀, hget₀, hl⟩ := hlocks triggererId transaction hget
    obtain ⟨transaction₀', hget₀', hl'⟩ := hlocks triggererId' transaction' hget'
    rw [hl] at hid
    rw [hl']
    exact h.locks triggererId triggererId' transaction₀ transaction₀' hne hget₀ hget₀' id hid

/-- A step that changes neither jobs nor calls and gives nobody a trigger. -/
theorem Inv.triggers {c : Cluster} (h : Inv settings c) {triggers : Dict Nat Trigger}
    (howned : ∀ id trigger' owner, triggers.get? id = some trigger' →
      trigger'.triggererId = some owner →
        ∃ trigger, c.triggers.get? id = some trigger ∧ trigger.triggererId = some owner) :
    Inv settings { c with triggers := triggers } :=
  h.outside howned fun _ transaction hget =>
    ⟨transaction, hget, rfl, List.Subset.refl _, fun _ hjob => .inl hjob⟩

/-- A step that changes only the jobs and the clock and makes nobody alive. -/
theorem Inv.jobs {c : Cluster} (h : Inv settings c) {jobs : Dict Nat Job} {now : Int}
    (halive : ∀ threshold,
      ∀ jobId ∈ { c with jobs := jobs, now := now }.aliveTriggererIds threshold,
        jobId ∈ c.aliveTriggererIds threshold) :
    Inv settings { c with jobs := jobs, now := now } :=
  h.outside (fun _ trigger _ hget howner => ⟨trigger, hget, howner⟩) fun _ transaction hget =>
    ⟨transaction, hget, rfl, List.Subset.refl _, fun jobId hjob => .inl (halive _ jobId hjob)⟩

theorem Inv.beat {c : Cluster} (h : Inv settings c) (jobId : Nat) (job : Job) :
    Inv settings (c.beat jobId job) := by
  refine h.outside (fun _ trigger _ hget howner => ⟨trigger, hget, howner⟩)
    fun triggererId transaction' hget => ?_
  rw [Cluster.beat, Dict.get?_mapValues, Option.map_eq_some_iff] at hget
  obtain ⟨transaction, hget, rfl⟩ := hget
  refine ⟨transaction, hget, rfl, List.subset_cons_self _ _, fun jobId' hjob => ?_⟩
  obtain ⟨job', hget', halive⟩ := mem_aliveTriggererIds.mp hjob
  rw [Cluster.beat, Dict.get?_set] at hget'
  by_cases hid : jobId' = jobId
  · exact .inr (hid ▸ List.mem_cons_self ..)
  · rw [if_neg hid] at hget'
    exact .inl (mem_aliveTriggererIds.mpr ⟨job', hget', halive⟩)

/-! ## Steps of the calls -/

/-- A call goes on to a phase for which `PhaseInv` holds, with locks that no other call has. -/
theorem Inv.setPhase {c : Cluster} (h : Inv settings c) {triggererId : Nat}
    {transaction : Transaction}
    (hphase : PhaseInv settings c triggererId transaction.since transaction.phase)
    (hlocks : ∀ triggererId' transaction', triggererId' ≠ triggererId →
      c.transactions.get? triggererId' = some transaction' →
        ∀ id ∈ transaction.locks, id ∉ transaction'.locks) :
    Inv settings (c.setPhase triggererId transaction) := by
  refine ⟨h.capacity, fun other t hget => ?_, fun a b t t' hne ha hb id hid hid' => ?_⟩
  · rw [Cluster.setPhase, Dict.get?_set] at hget
    by_cases hother : other = triggererId
    · rw [if_pos hother, Option.some.injEq] at hget
      subst hget hother
      exact hphase
    · rw [if_neg hother] at hget
      exact h.phases other t hget
  · rw [Cluster.setPhase, Dict.get?_set] at ha hb
    by_cases ha' : a = triggererId
    · have hb' : b ≠ triggererId := fun heq => hne (ha'.trans heq.symm)
      rw [if_pos ha', Option.some.injEq] at ha
      rw [if_neg hb'] at hb
      exact hlocks b t' hb' hb id (ha ▸ hid) hid'
    · rw [if_neg ha'] at ha
      by_cases hb' : b = triggererId
      · rw [if_pos hb', Option.some.injEq] at hb
        exact hlocks a t ha' ha id (hb ▸ hid') hid
      · rw [if_neg hb'] at hb
        exact h.locks a b t t' hne ha hb id hid hid'

theorem Inv.endTransaction {c : Cluster} (h : Inv settings c) (triggererId : Nat) :
    Inv settings (c.endTransaction triggererId) := by
  have hget₀ : ∀ other t, (c.endTransaction triggererId).transactions.get? other = some t →
      c.transactions.get? other = some t := by
    intro other t hget
    rw [Cluster.endTransaction, Dict.get?_erase] at hget
    split at hget
    · cases hget
    · exact hget
  exact ⟨h.capacity, fun other t hget => h.phases other t (hget₀ other t hget),
    fun a b t t' hne ha hb => h.locks a b t t' hne (hget₀ a t ha) (hget₀ b t' hb)⟩

theorem mem_getSortedTriggers {c : Cluster} {capacity : Int} {alive lockedElsewhere : List Nat}
    {id : Nat} (h : id ∈ c.getSortedTriggers capacity alive lockedElsewhere) :
    ¬c.Locked id ∧ ∃ trigger, c.triggers.get? id = some trigger ∧
      ∀ owner, trigger.triggererId = some owner → owner ∉ alive := by
  obtain ⟨candidate, hcandidate, rfl⟩ := List.mem_map.mp h
  have hmem := (List.mem_insertionSort _).mp (List.mem_of_mem_take hcandidate)
  obtain ⟨⟨id, trigger⟩, he, hrow⟩ := List.mem_flatMap.mp hmem
  obtain ⟨weight, -, rfl⟩ := List.mem_map.mp hrow
  rw [List.mem_filter, decide_eq_true_eq] at he
  obtain ⟨hentry, hall, hlocked, -⟩ := he
  refine ⟨hlocked, trigger, Dict.get?_eq_some.mpr hentry, fun owner howner => ?_⟩
  have hall' : (some owner).all (· ∉ alive) = true := howner ▸ hall
  exact of_decide_eq_true hall'

theorem length_getSortedTriggers_le (c : Cluster) (capacity : Int)
    (alive lockedElsewhere : List Nat) :
    (c.getSortedTriggers capacity alive lockedElsewhere).length ≤ capacity.toNat := by
  rw [getSortedTriggers, List.length_map]
  exact List.length_take_le _ _

/-- The owner of a row after a commit. -/
theorem get?_commit {c : Cluster} {triggererId id : Nat} {ids : List Nat} {trigger' : Trigger}
    (h : (c.triggers.mapValues fun id trigger =>
      if id ∈ ids then { trigger with triggererId := some triggererId } else trigger).get? id =
        some trigger') :
    ∃ trigger, c.triggers.get? id = some trigger ∧
      trigger'.triggererId = if id ∈ ids then some triggererId else trigger.triggererId := by
  rw [Dict.get?_mapValues, Option.map_eq_some_iff] at h
  obtain ⟨trigger, hget, rfl⟩ := h
  exact ⟨trigger, hget, by split <;> rfl⟩

theorem Inv.commit {c : Cluster} (h : Inv settings c) {triggererId : Nat} {ids since : List Nat}
    (hget : c.transactions.get? triggererId = some ⟨.updated ids, since⟩) :
    Inv settings { c.endTransaction triggererId with
      triggers := c.triggers.mapValues fun id trigger =>
        if id ∈ ids then { trigger with triggererId := some triggererId } else trigger } := by
  generalize hc' : { c.endTransaction triggererId with
      triggers := c.triggers.mapValues fun id trigger =>
        if id ∈ ids then { trigger with triggererId := some triggererId } else trigger } = c'
  have htriggers : c'.triggers = c.triggers.mapValues fun id trigger =>
      if id ∈ ids then { trigger with triggererId := some triggererId } else trigger := by
    rw [← hc']
  have htransactions : c'.transactions = (c.endTransaction triggererId).transactions := by
    rw [← hc']
  have halive : ∀ threshold, c'.aliveTriggererIds threshold = c.aliveTriggererIds threshold := by
    intro threshold
    rw [← hc']
    rfl
  have hown : c'.count triggererId ≤ c.count triggererId + ids.length := by
    refine count_le_of_subset fun id hid => ?_
    obtain ⟨trigger', hget', howner⟩ := mem_ownedIds.mp hid
    obtain ⟨trigger, hget, howner'⟩ := get?_commit (htriggers ▸ hget')
    by_cases hmem : id ∈ ids
    · exact List.mem_append_right _ hmem
    · rw [if_neg hmem, howner] at howner'
      exact List.mem_append_left _ (mem_ownedIds.mpr ⟨trigger, hget, howner'.symm⟩)
  have hother : ∀ other, other ≠ triggererId → c'.count other ≤ c.count other := by
    intro other hne
    refine count_mono fun id hid => ?_
    obtain ⟨trigger', hget', howner⟩ := mem_ownedIds.mp hid
    obtain ⟨trigger, hget, howner'⟩ := get?_commit (htriggers ▸ hget')
    by_cases hmem : id ∈ ids
    · rw [if_pos hmem, howner, Option.some.injEq] at howner'
      exact absurd howner' hne
    · rw [if_neg hmem, howner] at howner'
      exact mem_ownedIds.mpr ⟨trigger, hget, howner'.symm⟩
  have hcap : (c.count triggererId : Int) + ids.length ≤ settings.capacity triggererId :=
    h.phases triggererId _ hget
  have hended := h.endTransaction triggererId
  refine ⟨fun other => ?_, fun other transaction hget' => ?_,
    fun a b t t' hne ha hb => hended.locks a b t t' hne (htransactions ▸ ha) (htransactions ▸ hb)⟩
  · by_cases hne : other = triggererId
    · subst hne
      omega
    · exact (hother other hne).trans (h.capacity other)
  · rw [htransactions, Cluster.endTransaction, Dict.get?_erase] at hget'
    by_cases hne : other = triggererId
    · rw [if_pos hne] at hget'
      cases hget'
    · rw [if_neg hne] at hget'
      refine (h.phases other transaction hget').mono (hother other hne) (List.Subset.refl _)
        (fun jobId hjob => .inl (halive _ ▸ hjob)) fun id hid trigger' owner htrig howner => ?_
      obtain ⟨trigger, hget₀, howner'⟩ := get?_commit (htriggers ▸ htrig)
      have hnot : id ∉ ids := fun hmem =>
        h.locks triggererId other _ _ (Ne.symm hne) hget hget' id hmem hid
      rw [if_neg hnot, howner] at howner'
      exact ⟨trigger, hget₀, howner'.symm⟩

/-! ## Every step -/

theorem Inv.count {c : Cluster} (h : Inv settings c) {triggererId : Nat} {capacity : Int}
    (hcap : capacity = settings.capacity triggererId - c.count triggererId) (hpos : 0 < capacity) :
    Inv settings (c.setPhase triggererId { phase := .counted capacity }) :=
  h.setPhase ⟨hpos, by omega⟩ fun _ _ _ _ id hid => absurd hid (List.not_mem_nil)

theorem Inv.readAlive {c : Cluster} (h : Inv settings c) {triggererId : Nat} {capacity : Int}
    {since : List Nat} (hget : c.transactions.get? triggererId = some ⟨.counted capacity, since⟩) :
    Inv settings (c.setPhase triggererId
      ⟨.listed capacity (c.aliveTriggererIds (settings.healthCheckThreshold triggererId)), []⟩) := by
  have hphase : PhaseInv settings c triggererId since (.counted capacity) :=
    h.phases triggererId _ hget
  exact h.setPhase ⟨hphase, fun _ hjob => .inl hjob⟩ fun _ _ _ _ id hid =>
    absurd hid (List.not_mem_nil)

theorem Inv.select {c : Cluster} (h : Inv settings c) {triggererId : Nat} {capacity : Int}
    {alive since : List Nat} (lockedElsewhere : List Nat)
    (hget : c.transactions.get? triggererId = some ⟨.listed capacity alive, since⟩) :
    Inv settings (c.setPhase triggererId
      ⟨.selected alive (c.getSortedTriggers capacity alive lockedElsewhere), since⟩) := by
  obtain ⟨⟨hpos, hcap⟩, hfresh⟩ :
    PhaseInv settings c triggererId since (.listed capacity alive) := h.phases triggererId _ hget
  have hlength := c.length_getSortedTriggers_le capacity alive lockedElsewhere
  refine h.setPhase ⟨by omega, hfresh, fun id hid trigger owner hget' howner => ?_⟩
    fun other transaction' hne hget' id hid hlock => ?_
  · obtain ⟨-, trigger', hget₂, howners⟩ := mem_getSortedTriggers hid
    rw [hget', Option.some.injEq] at hget₂
    exact howners owner (hget₂ ▸ howner)
  · exact (mem_getSortedTriggers hid).1
      ⟨(other, transaction'), Dict.get?_eq_some.mp hget', hlock⟩

theorem Inv.update {c : Cluster} (h : Inv settings c) {triggererId : Nat}
    {alive ids since : List Nat}
    (hget : c.transactions.get? triggererId = some ⟨.selected alive ids, since⟩) :
    Inv settings (c.setPhase triggererId ⟨.updated ids, since⟩) := by
  obtain ⟨hcap, -⟩ :
    PhaseInv settings c triggererId since (.selected alive ids) := h.phases triggererId _ hget
  exact h.setPhase hcap fun other transaction' hne hget' id hid =>
    h.locks triggererId other ⟨.selected alive ids, since⟩ transaction' (Ne.symm hne) hget hget' id
      hid

theorem Inv.stolen {c : Cluster} (h : Inv settings c) (stolen : List (Nat × Nat)) :
    Inv settings { c with stolen := stolen } :=
  ⟨h.capacity, h.phases, h.locks⟩

/-- Every step keeps the invariant. -/
theorem Inv.step {c : Cluster} (h : Inv settings c) (label : Label) :
    Inv settings (c.step settings label) := by
  cases label with
  | tick seconds =>
    refine h.jobs fun threshold jobId hjob => ?_
    obtain ⟨job, hget, hend, hbeat, htype⟩ := mem_aliveTriggererIds.mp hjob
    refine mem_aliveTriggererIds.mpr ⟨job, hget, hend, ?_, htype⟩
    dsimp only at hbeat
    omega
  | startJob jobId jobType age =>
    simp only [Cluster.step]
    split
    · exact h
    · exact h.beat jobId _
  | heartbeat jobId age =>
    simp only [Cluster.step]
    split
    · exact h
    · exact h.beat jobId _
  | endJob jobId =>
    simp only [Cluster.step]
    split
    · exact h
    · next job hget =>
      refine h.jobs fun threshold jobId' hjob => ?_
      obtain ⟨job', hget', halive⟩ := mem_aliveTriggererIds.mp hjob
      rw [Dict.get?_set] at hget'
      split at hget'
      · cases hget'
        cases halive.1
      · exact mem_aliveTriggererIds.mpr ⟨job', hget', halive⟩
  | createTrigger triggerId createdDate =>
    simp only [Cluster.step]
    split
    · exact h
    · refine h.triggers fun id trigger' owner hget' howner => ?_
      rw [Dict.get?_set] at hget'
      split at hget'
      · cases hget'
        cases howner
      · exact ⟨trigger', hget', howner⟩
  | setTaskInstances triggerId priorityWeights =>
    simp only [Cluster.step]
    split
    · exact h
    · next trigger hget =>
      split
      · exact h
      · refine h.triggers fun id trigger' owner hget' howner => ?_
        rw [Dict.get?_set] at hget'
        split at hget'
        · next hid =>
          cases hget'
          exact ⟨trigger, hid ▸ hget, howner⟩
        · exact ⟨trigger', hget', howner⟩
  | deleteTrigger triggerId =>
    simp only [Cluster.step]
    split
    · exact h
    · refine h.triggers fun id trigger' owner hget' howner => ?_
      rw [Dict.get?_erase] at hget'
      split at hget'
      · cases hget'
      · exact ⟨trigger', hget', howner⟩
  | count triggererId =>
    simp only [Cluster.step]
    split
    · exact h
    · split
      · exact h
      · next hpos => exact h.count rfl (by omega)
  | readAlive triggererId =>
    simp only [Cluster.step]
    split
    · next capacity since hget => exact h.readAlive hget
    · exact h
  | select triggererId lockedElsewhere =>
    simp only [Cluster.step]
    split
    · next capacity alive since hget =>
      split
      · exact h.endTransaction triggererId
      · exact h.select lockedElsewhere hget
    · exact h
  | update triggererId =>
    simp only [Cluster.step]
    split
    · next alive ids since hget => exact (h.update hget).stolen _
    · exact h
  | commit triggererId =>
    simp only [Cluster.step]
    split
    · next ids since hget => exact h.commit hget
    · exact h
  | abort triggererId => exact h.endTransaction triggererId

/-! ## Runs -/

/-- What is asked of every state: the capacities are kept, and no trigger has been taken from another
triggerer that was alive. -/
structure Safe (settings : Settings) (c : Cluster) : Prop where
  capacity : ∀ triggererId, c.count triggererId ≤ (settings.capacity triggererId).toNat
  stolen : c.stolen = []

/-- At an update, a triggerer that owns a selected trigger and has started or sent a heartbeat since
the alive triggerers were read is not alive any more. -/
def NoneRevived (settings : Settings) (c : Cluster) : Label → Prop
  | .update triggererId =>
    ∀ alive ids since,
      c.transactions.get? triggererId = some ⟨.selected alive ids, since⟩ →
      ∀ id ∈ ids, ∀ trigger owner, c.triggers.get? id = some trigger →
        trigger.triggererId = some owner → owner ≠ triggererId → owner ∈ since →
          owner ∉ c.aliveTriggererIds (settings.healthCheckThreshold triggererId)
  | _ => True

theorem mem_aliveElsewhere {c : Cluster} {triggererId id owner : Nat} {ids : List Nat} :
    (id, owner) ∈ c.aliveElsewhere settings triggererId ids ↔ id ∈ ids ∧ owner ≠ triggererId ∧
      owner ∈ c.aliveTriggererIds (settings.healthCheckThreshold triggererId) ∧
      ∃ trigger, c.triggers.get? id = some trigger ∧ trigger.triggererId = some owner := by
  simp only [aliveElsewhere, List.mem_filterMap, List.mem_filter, decide_eq_true_eq]
  constructor
  · rintro ⟨⟨id', trigger⟩, ⟨hentry, hid⟩, hsome⟩
    split at hsome
    · cases hsome
    · next owner' howner =>
      split at hsome
      · next hcond =>
        cases hsome
        exact ⟨hid, hcond.1, hcond.2, trigger, Dict.get?_eq_some.mpr hentry, howner⟩
      · cases hsome
  · rintro ⟨hid, hne, halive, trigger, hget, howner⟩
    refine ⟨(id, trigger), ⟨Dict.get?_eq_some.mp hget, hid⟩, ?_⟩
    simp only [howner, if_pos (And.intro hne halive)]

/-- The selected triggers of others that are alive belong to those who became alive since the list
was read, so none is taken exactly when nobody revived. -/
theorem noneRevived_update {c : Cluster} (h : Inv settings c) {triggererId : Nat}
    {alive ids since : List Nat}
    (hget : c.transactions.get? triggererId = some ⟨.selected alive ids, since⟩) :
    NoneRevived settings c (.update triggererId) ↔
      c.aliveElsewhere settings triggererId ids = [] := by
  obtain ⟨-, hfresh, howners⟩ :
    PhaseInv settings c triggererId since (.selected alive ids) := h.phases triggererId _ hget
  rw [List.eq_nil_iff_forall_not_mem]
  constructor
  · rintro hnone ⟨id, owner⟩ hmem
    obtain ⟨hid, hne, halive, trigger, htrigger, howner⟩ := mem_aliveElsewhere.mp hmem
    have hsince : owner ∈ since :=
      (hfresh owner halive).resolve_left (howners id hid trigger owner htrigger howner)
    exact hnone alive ids since hget id hid trigger owner htrigger howner hne hsince halive
  · intro hnil alive' ids' since' hget' id hid trigger owner htrigger howner hne _ halive
    rw [hget] at hget'
    cases hget'
    exact hnil (id, owner) (mem_aliveElsewhere.mpr ⟨hid, hne, halive, trigger, htrigger, howner⟩)

/-- Only an update takes triggers. -/
theorem stolen_step {c : Cluster} (h : Inv settings c) (hstolen : c.stolen = []) (label : Label) :
    (c.step settings label).stolen = [] ↔ NoneRevived settings c label := by
  cases label with
  | update triggererId =>
    simp only [Cluster.step]
    split
    · next alive ids since hget =>
      rw [noneRevived_update h hget]
      dsimp only
      rw [hstolen, List.nil_append]
    · next hother =>
      refine iff_of_true hstolen fun alive ids since hget => ?_
      exact absurd hget (hother alive ids since)
  | tick | abort => exact iff_of_true hstolen trivial
  | startJob | heartbeat | endJob | createTrigger | deleteTrigger | commit | readAlive =>
    refine iff_of_true ?_ trivial
    simp only [Cluster.step]
    split <;> exact hstolen
  | setTaskInstances | count | select =>
    refine iff_of_true ?_ trivial
    simp only [Cluster.step]
    split
    · first
        | exact hstolen
        | (split <;> exact hstolen)
    · first
        | exact hstolen
        | (split <;> exact hstolen)

theorem inv_empty (settings : Settings) : Inv settings {} :=
  ⟨fun _ => Nat.zero_le _, fun _ _ h => (nomatch h), fun _ _ _ _ _ h => (nomatch h)⟩

/-- **Capacities and alive triggerers.** In a run from an empty database the capacities are kept and
no update takes a trigger from another triggerer that is alive, exactly when at every update the
owners of the selected triggers that have started or sent a heartbeat since the alive triggerers were
read are not alive any more. -/
theorem safe_iff (settings : Settings) (labels : List Label) :
    (∀ c ∈ Transition.states (Cluster.step settings) {} labels, Safe settings c) ↔
      Transition.AllSteps (Cluster.step settings) (NoneRevived settings) {} labels := by
  refine Transition.exact_condition (I := fun c => Inv settings c ∧ c.stolen = []) ?_ ?_ ?_ ?_
    labels
  · rintro c ⟨hinv, hstolen⟩
    exact ⟨hinv.capacity, hstolen⟩
  · rintro c label ⟨hinv, hstolen⟩ hok
    exact ⟨hinv.step label, (stolen_step hinv hstolen label).mpr hok⟩
  · rintro c label ⟨hinv, hstolen⟩ hbad hsafe
    exact hbad ((stolen_step hinv hstolen label).mp hsafe.stolen)
  · exact ⟨inv_empty settings, rfl⟩

/-- Triggerer 1 reads the alive triggerers; triggerer 2 starts and is given the trigger; triggerer 1
selects the trigger of a triggerer that is not on its list, and takes it. -/
def stealingRun : List Label :=
  [.startJob 1 "TriggererJob" 0, .createTrigger 7 0, .setTaskInstances 7 [some 1], .count 1,
    .readAlive 1, .startJob 2 "TriggererJob" 0, .count 2, .readAlive 2, .select 2 [], .update 2,
    .commit 2, .select 1 [], .update 1, .commit 1]

theorem safe_stealingRun :
    ¬∀ (settings : Settings) (labels : List Label),
      ∀ c ∈ Transition.states (Cluster.step settings) {} labels, Safe settings c := by
  intro h
  have hlast := h ⟨fun _ => 1000, fun _ => 30⟩ stealingRun _
    (Transition.foldl_mem_states ({} : Cluster) stealingRun)
  exact absurd hlast.stolen (by decide)

end Airflow.Triggerer.Cluster
