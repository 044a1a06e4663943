import Airflow.Executor.Celery
import Airflow.Executor.Proof.Slots
import Airflow.Lib.Transition
import Mathlib.Data.List.Induction

/-!
# When a message is abandoned (`CeleryExecutor.noneAbandoned_iff`)

A message sent or adopted stays in `tasks` until it is seen in a terminal state, except in two
places. `cleanup_stuck_queued_tasks` calls `fail`, whose `change_state` drops the message before it
can be revoked, so that no message is ever revoked (`cleanupStuckQueuedTasks_eq`); and an adoption
replaces the message that its key has. `CallSafe` excludes these two.
-/

namespace Airflow.Celery.CeleryExecutor

variable {Payload : Type} {self executor : CeleryExecutor Payload} {key : TaskInstanceKey}
  {taskId : String} {pending : List Message}

/-- The message is tracked under its key, was seen in a terminal state, or was revoked. -/
def IsAccounted (executor : CeleryExecutor Payload) (message : Message) : Prop :=
  executor.tasks.get? message.1 = some message.2 ∨ message ∈ executor.observed ∨
    message ∈ executor.revoked

/-- The keys of `tasks` are those in `running`, and all messages are accounted for. -/
structure NoneAbandoned (executor : CeleryExecutor Payload) : Prop where
  keys : ∀ key, key ∈ executor.tasks.keys ↔ key ∈ executor.running
  messages : ∀ message ∈ executor.messages, executor.IsAccounted message

/-- The invariant while the results of the messages `pending` are not looked at yet. -/
structure Inv (pending : List Message) (executor : CeleryExecutor Payload) : Prop where
  keys : ∀ key, key ∈ executor.tasks.keys ↔ key ∈ executor.running
  messages : ∀ message ∈ executor.messages, executor.IsAccounted message ∨ message ∈ pending
  tracked : ∀ key taskId, executor.tasks.get? key = some taskId →
    (key, taskId) ∈ executor.messages
  queued : (executor.queuedTasks.map (·.key)).Nodup

theorem Inv.noneAbandoned (h : Inv [] self) : NoneAbandoned self where
  keys := h.keys
  messages message hm := (h.messages message hm).resolve_right List.not_mem_nil

/-- A call that loses no message: nothing that `cleanup_stuck_queued_tasks` fails has a message
that may still run, and no adopted message takes the place of such a message. -/
def CallSafe (self : CeleryExecutor Payload) : Call Payload → Prop
  | .cleanupStuckQueuedTasks keys _ =>
    ∀ key ∈ keys, ∀ taskId, self.tasks.get? key = some taskId →
      (key, taskId) ∈ self.observed ∨ (key, taskId) ∈ self.revoked
  | .tryAdoptTaskInstances tis states =>
    ∀ entry ∈ (celeryTasks tis.tis).entries, (states entry.1).isSome →
      ∀ taskId, self.tasks.get? entry.2 = some taskId →
        taskId = entry.1 ∨ (entry.2, taskId) ∈ self.observed ∨ (entry.2, taskId) ∈ self.revoked
  | _ => True

/-! ## One key -/

/-- What an operation on other keys leaves as it is for this one. -/
structure SameAt (key : TaskInstanceKey) (earlier later : CeleryExecutor Payload) : Prop where
  tasks : later.tasks.get? key = earlier.tasks.get? key
  observed : ∀ taskId, (key, taskId) ∈ later.observed ↔ (key, taskId) ∈ earlier.observed
  revoked : later.revoked = earlier.revoked
  messages : ∀ message ∈ earlier.messages, message ∈ later.messages

theorem SameAt.refl (key : TaskInstanceKey) (self : CeleryExecutor Payload) :
    SameAt key self self :=
  ⟨rfl, fun _ => Iff.rfl, rfl, fun _ h => h⟩

theorem SameAt.trans {executor' : CeleryExecutor Payload} (h : SameAt key self executor)
    (h' : SameAt key executor executor') : SameAt key self executor' where
  tasks := h'.tasks.trans h.tasks
  observed taskId := (h'.observed taskId).trans (h.observed taskId)
  revoked := h'.revoked.trans h.revoked
  messages message hm := h'.messages message (h.messages message hm)

theorem SameAt.foldl {α : Type} {f : CeleryExecutor Payload → α → CeleryExecutor Payload}
    {l : List α} (h : ∀ executor, ∀ a ∈ l, SameAt key executor (f executor a))
    (self : CeleryExecutor Payload) : SameAt key self (l.foldl f self) := by
  induction l generalizing self with
  | nil => exact .refl key self
  | cons a l ih =>
    have hhead := h self a List.mem_cons_self
    exact hhead.trans (ih (fun executor b hb => h executor b (List.mem_cons_of_mem _ hb)) _)

/-! ## Operations -/

theorem get?_changeState (self : CeleryExecutor Payload) (key : TaskInstanceKey) (state : TIState)
    (key' : TaskInstanceKey) :
    (self.changeState key state).tasks.get? key' =
      if key' = key then none else self.tasks.get? key' :=
  Dict.get?_erase

theorem changeState_keys (h : ∀ key, key ∈ self.tasks.keys ↔ key ∈ self.running)
    (key : TaskInstanceKey) (state : TIState) (key' : TaskInstanceKey) :
    key' ∈ (self.changeState key state).tasks.keys ↔
      key' ∈ (self.changeState key state).running := by
  simp only [changeState, Executor.changeState, Dict.mem_keys_erase, List.mem_filter, h,
    decide_eq_true_iff]

/-- A message whose state is read ends up tracked, or seen in a terminal state. -/
theorem updateTaskState_cases (self : CeleryExecutor Payload) (key : TaskInstanceKey)
    (taskId : String) (state : CeleryState) :
    self.updateTaskState key taskId state = self ∨
      ∃ tiState, self.updateTaskState key taskId state =
        { self.changeState key tiState with observed := self.observed ++ [(key, taskId)] } := by
  cases state with
  | success => exact .inr ⟨_, rfl⟩
  | failure => exact .inr ⟨_, rfl⟩
  | revoked => exact .inr ⟨_, rfl⟩
  | started => exact .inl rfl
  | pending => exact .inl rfl
  | other => exact .inl rfl

theorem updateTaskState_sameAt {key' : TaskInstanceKey} (hne : key' ≠ key) (taskId : String)
    (state : CeleryState) (self : CeleryExecutor Payload) :
    SameAt key' self (self.updateTaskState key taskId state) := by
  rcases self.updateTaskState_cases key taskId state with h | ⟨tiState, h⟩
  · rw [h]
    exact .refl key' self
  · rw [h]
    refine ⟨(self.get?_changeState key tiState key').trans (if_neg hne), fun taskId' => ?_, rfl,
      fun _ hm => hm⟩
    simp [hne]

theorem Inv.updateTaskState (h : Inv pending self) (hget : self.tasks.get? key = some taskId)
    (state : CeleryState) : Inv pending (self.updateTaskState key taskId state) := by
  rcases self.updateTaskState_cases key taskId state with heq | ⟨tiState, heq⟩
  · rw [heq]
    exact h
  rw [heq]
  refine ⟨changeState_keys h.keys key tiState, fun message hm => ?_, fun key' taskId' hget' => ?_,
    h.queued⟩
  · refine (h.messages message hm).imp_left fun hacc => ?_
    rcases hacc with htracked | hobserved | hrevoked
    · by_cases hkey : message.1 = key
      · rw [hkey, hget] at htracked
        have hmessage : message = (key, taskId) := Prod.ext hkey (Option.some.inj htracked).symm
        exact .inr (.inl (List.mem_append_right _ (List.mem_singleton.mpr hmessage)))
      · exact .inl (((self.get?_changeState key tiState message.1).trans (if_neg hkey)).trans
          htracked)
    · exact .inr (.inl (List.mem_append_left _ hobserved))
    · exact .inr (.inr hrevoked)
  · have hget'' := (self.get?_changeState key tiState key').symm.trans hget'
    split at hget''
    · cases hget''
    · exact h.tracked key' taskId' hget''

theorem get?_track (self : CeleryExecutor Payload) (key : TaskInstanceKey) (taskId : String)
    (key' : TaskInstanceKey) :
    (self.track key taskId).tasks.get? key' =
      if key' = key then some taskId else self.tasks.get? key' :=
  Dict.get?_set

/-- A message is tracked from now on, and its key's former message is one that cannot run. -/
theorem Inv.track {pending' : List Message} (h : Inv pending self)
    (hmem : (key, taskId) ∈ self.messages)
    (hpending : ∀ message ∈ pending, message = (key, taskId) ∨ message ∈ pending')
    (hold : ∀ taskId', self.tasks.get? key = some taskId' →
      taskId' = taskId ∨ (key, taskId') ∈ self.observed ∨ (key, taskId') ∈ self.revoked) :
    Inv pending' (self.track key taskId) := by
  refine ⟨fun key' => ?_, fun message hm => ?_, fun key' taskId' hget => ?_, h.queued⟩
  · simp only [CeleryExecutor.track, Dict.mem_keys_set, h.keys]
    split
    · next hrunning => exact ⟨fun hor => hor.elim id fun heq => heq ▸ hrunning, .inl⟩
    · rw [List.mem_append, List.mem_singleton]
  · by_cases hkey : message = (key, taskId)
    · rw [hkey]
      exact .inl (.inl ((self.get?_track key taskId key).trans (if_pos rfl)))
    rcases h.messages message hm with (htracked | hended) | hpend
    · by_cases hkey' : message.1 = key
      · rw [hkey'] at htracked
        have hmessage : message = (key, message.2) := Prod.ext hkey' rfl
        rcases hold message.2 htracked with heq | hended
        · exact absurd (Prod.ext hkey' heq) hkey
        · rw [← hmessage] at hended
          exact .inl (.inr hended)
      · exact .inl (.inl (((self.get?_track key taskId message.1).trans (if_neg hkey')).trans
          htracked))
    · exact .inl (.inr hended)
    · exact .inr ((hpending message hpend).resolve_left hkey)
  · rw [get?_track] at hget
    split at hget
    · next heq =>
      cases hget
      rwa [heq]
    · exact h.tracked key' taskId' hget

theorem Inv.popQueued (h : Inv pending self) (key : TaskInstanceKey) :
    Inv pending (self.popQueued key) :=
  ⟨h.keys, h.messages, h.tracked, h.queued.sublist (List.filter_sublist.map _)⟩

theorem Inv.putEvent (h : Inv pending self) (key : TaskInstanceKey) (state : TIState) :
    Inv pending (self.putEvent key state) :=
  ⟨h.keys, h.messages, h.tracked, h.queued⟩

/-! ## Sending -/

variable {publish : TaskInstanceKey → Publication}

theorem processResult_sameAt {key' : TaskInstanceKey} (hne : key' ≠ key)
    (publication : Publication) (self : CeleryExecutor Payload) :
    SameAt key' self (self.processResult key publication) := by
  cases publication with
  | timeout =>
    simp only [processResult]
    split
    · exact ⟨rfl, fun _ => Iff.rfl, rfl, fun _ h => h⟩
    · exact ⟨rfl, fun _ => Iff.rfl, rfl, fun _ h => h⟩
  | error => exact ⟨rfl, fun _ => Iff.rfl, rfl, fun _ h => h⟩
  | sent taskId state =>
    have htrack : SameAt key' self
        (((self.popQueued key).track key taskId).putEvent key (some .queued)) :=
      ⟨(self.get?_track key taskId key').trans (if_neg hne), fun _ => Iff.rfl, rfl, fun _ h => h⟩
    exact htrack.trans (updateTaskState_sameAt hne taskId state _)

theorem sentMessages_cons (key : TaskInstanceKey) (keys : List TaskInstanceKey) :
    sentMessages publish (key :: keys) =
      match publish key with
      | .sent taskId _ => (key, taskId) :: sentMessages publish keys
      | _ => sentMessages publish keys := by
  rw [sentMessages, List.filterMap_cons]
  cases publish key <;> rfl

theorem Inv.processResult {keys : List TaskInstanceKey}
    (h : Inv (sentMessages publish (key :: keys)) self)
    (hmem : ∀ message ∈ sentMessages publish (key :: keys), message ∈ self.messages)
    (hnone : self.tasks.get? key = none) :
    Inv (sentMessages publish keys) (self.processResult key (publish key)) := by
  rw [sentMessages_cons] at h hmem
  cases hpublish : publish key with
  | timeout =>
    rw [hpublish] at h
    simp only [CeleryExecutor.processResult]
    split
    · exact ⟨h.keys, h.messages, h.tracked, h.queued⟩
    · exact (h.popQueued key).putEvent key _
  | error =>
    rw [hpublish] at h
    exact (h.popQueued key).putEvent key _
  | sent taskId state =>
    rw [hpublish] at h hmem
    have htrack : Inv (sentMessages publish keys) ((self.popQueued key).track key taskId) := by
      refine (h.popQueued key).track (hmem _ List.mem_cons_self)
        (fun message hm => List.mem_cons.mp hm) fun taskId' hget => ?_
      have hget' : self.tasks.get? key = some taskId' := hget
      rw [hnone] at hget'
      cases hget'
    refine (htrack.putEvent key (some .queued)).updateTaskState ?_ state
    exact (get?_track _ key taskId key).trans (if_pos rfl)

/-- The results of messages with different keys, none of which is tracked. -/
theorem Inv.processResults {keys : List TaskInstanceKey} (hnodup : keys.Nodup)
    (hnone : ∀ key ∈ keys, self.tasks.get? key = none)
    (h : Inv (sentMessages publish keys) self)
    (hmem : ∀ message ∈ sentMessages publish keys, message ∈ self.messages) :
    Inv [] (keys.foldl (fun executor key => executor.processResult key (publish key)) self) := by
  induction keys generalizing self with
  | nil => exact h
  | cons key keys ih =>
    rw [List.nodup_cons] at hnodup
    have hsame : ∀ key' ∈ keys, SameAt key' self (self.processResult key (publish key)) :=
      fun key' hkey' => processResult_sameAt (ne_of_mem_of_not_mem hkey' hnodup.1) _ self
    refine ih hnodup.2 (fun key' hkey' => ?_) (h.processResult hmem (hnone key List.mem_cons_self))
      fun message hm => ?_
    · rw [(hsame key' hkey').tasks]
      exact hnone key' (List.mem_cons_of_mem _ hkey')
    · obtain ⟨key', hkey', -⟩ := List.mem_filterMap.mp hm
      refine (hsame key' hkey').messages message (hmem message ?_)
      rw [sentMessages_cons]
      cases publish key with
      | sent taskId state => exact List.mem_cons_of_mem _ hm
      | timeout => exact hm
      | error => exact hm

theorem Inv.processTasks {keys : List TaskInstanceKey} (h : Inv [] self) (hnodup : keys.Nodup)
    (hnone : ∀ key ∈ keys, self.tasks.get? key = none) :
    Inv [] (self.processTasks publish keys) := by
  refine Inv.processResults hnodup hnone ⟨h.keys, fun message hm => ?_, fun key taskId hget => ?_,
    h.queued⟩ fun message hm => List.mem_append_right _ hm
  · exact (List.mem_append.mp hm).imp_left (h.noneAbandoned.messages message)
  · exact List.mem_append_left _ (h.tracked key taskId hget)

/-- `trigger_tasks` sends nothing for a key that is tracked. -/
theorem Inv.triggerTasks (h : Inv [] self) (elapsed : TaskInstanceKey → Bool) :
    Inv [] (self.triggerTasks elapsed publish) := by
  have hsame := self.toExecutor.collectTasks_sameSlots self.openSlots elapsed
  refine Inv.processTasks
    ⟨fun key => ?_, h.messages, h.tracked, h.queued.sublist (hsame.queued.map _)⟩
    (Executor.collectTasks_nodup h.queued _ elapsed) fun key hkey => ?_
  · rw [h.keys]
    exact (congrArg (key ∈ ·) hsame.running).symm.to_iff
  · obtain ⟨task, htask, rfl⟩ := List.mem_map.mp hkey
    have hnot := (Executor.mem_collectTasks.mp htask).2
    rw [← h.keys] at hnot
    exact Dict.get?_eq_none.mpr hnot

/-! ## Reading states -/

theorem Inv.updateTaskStates {states : String → Option CeleryState} {entries : List Message}
    (h : Inv pending self) (hnodup : (entries.map Prod.fst).Nodup)
    (htracked : ∀ entry ∈ entries, self.tasks.get? entry.1 = some entry.2) :
    Inv pending (CeleryExecutor.updateTaskStates states entries self) := by
  induction entries generalizing self with
  | nil => exact h
  | cons entry entries ih =>
    obtain ⟨key, taskId⟩ := entry
    rw [List.map_cons, List.nodup_cons] at hnodup
    rw [CeleryExecutor.updateTaskStates]
    cases states taskId with
    | none => exact h
    | some state =>
      refine ih (h.updateTaskState (htracked _ List.mem_cons_self) state) hnodup.2
        fun entry hentry => ?_
      have hne : entry.1 ≠ key := fun heq => hnodup.1 (List.mem_map.mpr ⟨entry, hentry, heq⟩)
      rw [(updateTaskState_sameAt hne taskId state self).tasks]
      exact htracked entry (List.mem_cons_of_mem _ hentry)

theorem Inv.sync (h : Inv pending self) (states : String → Option CeleryState) :
    Inv pending (self.sync states) :=
  h.updateTaskStates self.tasks.keys_nodup fun _ hentry => Dict.get?_eq_some.mpr hentry

/-! ## Adoption -/

theorem mem_celeryTasks {tis : List (TaskInstanceKey × Option String)}
    (h : (celeryTasks tis).get? taskId = some key) : (key, some taskId) ∈ tis := by
  induction tis using List.reverseRecOn with
  | nil => cases h
  | append_singleton tis ti ih =>
    rw [celeryTasks, List.foldl_append, List.foldl_cons, List.foldl_nil] at h
    obtain ⟨key', executorId⟩ := ti
    cases executorId with
    | none => exact List.mem_append_left _ (ih h)
    | some taskId' =>
      rw [Dict.get?_set] at h
      split at h
      · next heq =>
        cases h
        rw [heq]
        exact List.mem_append_right _ (List.mem_singleton.mpr rfl)
      · exact List.mem_append_left _ (ih h)

/-- The messages of task instances are for different keys. -/
theorem celeryTasks_values_nodup (tis : TaskInstances) :
    ((celeryTasks tis.tis).entries.map Prod.snd).Nodup := by
  refine List.Nodup.map_on (fun entry hentry entry' hentry' heq => ?_)
    (List.Nodup.of_map _ (celeryTasks tis.tis).keys_nodup)
  have hti := mem_celeryTasks (Dict.get?_eq_some.mpr hentry)
  have hti' := mem_celeryTasks (Dict.get?_eq_some.mpr hentry')
  have hid := congrArg Prod.snd (List.inj_on_of_nodup_map tis.key_nodup hti hti' heq)
  exact Prod.ext (Option.some.inj hid) heq

/-- One turn of the loop of `try_adopt_task_instances`. -/
def adoptEntry (states : String → Option CeleryState) (executor : CeleryExecutor Payload)
    (entry : String × TaskInstanceKey) : CeleryExecutor Payload :=
  match states entry.1 with
  | some state => executor.adopt entry.2 entry.1 state
  | none => executor

theorem tryAdoptTaskInstances_eq (self : CeleryExecutor Payload) (tis : TaskInstances)
    (states : String → Option CeleryState) :
    self.tryAdoptTaskInstances tis states =
      (celeryTasks tis.tis).entries.foldl (adoptEntry states) self := rfl

theorem adopt_sameAt {key' : TaskInstanceKey} (hne : key' ≠ key) (taskId : String)
    (state : CeleryState) (self : CeleryExecutor Payload) :
    SameAt key' self (self.adopt key taskId state) := by
  have htrack : SameAt key' self
      ({ self with messages := self.messages ++ [(key, taskId)] }.track key taskId) :=
    ⟨(self.get?_track key taskId key').trans (if_neg hne), fun _ => Iff.rfl, rfl,
      fun _ h => List.mem_append_left _ h⟩
  exact htrack.trans (updateTaskState_sameAt hne taskId state _)

theorem adoptEntry_sameAt {states : String → Option CeleryState}
    {entry : String × TaskInstanceKey} (hne : key ≠ entry.2) (self : CeleryExecutor Payload) :
    SameAt key self (adoptEntry states self entry) := by
  unfold adoptEntry
  cases states entry.1 with
  | none => exact .refl key self
  | some state => exact adopt_sameAt hne entry.1 state self

/-- A key may be given the message. -/
def Replaceable (self : CeleryExecutor Payload) (key : TaskInstanceKey) (taskId : String) : Prop :=
  ∀ taskId', self.tasks.get? key = some taskId' →
    taskId' = taskId ∨ (key, taskId') ∈ self.observed ∨ (key, taskId') ∈ self.revoked

theorem SameAt.replaceable (h : SameAt key self executor) (hreplace : self.Replaceable key taskId) :
    executor.Replaceable key taskId := by
  intro taskId' hget
  rw [h.tasks] at hget
  rw [h.observed, h.revoked]
  exact hreplace taskId' hget

theorem Inv.adopt (h : Inv [] self) (hreplace : self.Replaceable key taskId)
    (state : CeleryState) : Inv [] (self.adopt key taskId state) := by
  have hadded : Inv [(key, taskId)] { self with messages := self.messages ++ [(key, taskId)] } :=
    ⟨h.keys, fun message hm => (List.mem_append.mp hm).imp_left (h.noneAbandoned.messages message),
      fun key' taskId' hget => List.mem_append_left _ (h.tracked key' taskId' hget), h.queued⟩
  have htrack : Inv [] ({ self with messages := self.messages ++ [(key, taskId)] }.track key
      taskId) :=
    hadded.track (List.mem_append_right _ List.mem_cons_self)
      (fun message hm => .inl (List.mem_singleton.mp hm)) hreplace
  exact htrack.updateTaskState ((get?_track _ key taskId key).trans (if_pos rfl)) state

theorem Inv.adoptEntries {states : String → Option CeleryState}
    {entries : List (String × TaskInstanceKey)} (h : Inv [] self)
    (hnodup : (entries.map Prod.snd).Nodup)
    (hsafe : ∀ entry ∈ entries, (states entry.1).isSome → self.Replaceable entry.2 entry.1) :
    Inv [] (entries.foldl (adoptEntry states) self) := by
  induction entries generalizing self with
  | nil => exact h
  | cons entry entries ih =>
    rw [List.map_cons, List.nodup_cons] at hnodup
    refine ih ?_ hnodup.2 fun entry' hentry' hsome => ?_
    · unfold adoptEntry
      cases hstate : states entry.1 with
      | none => exact h
      | some state =>
        exact h.adopt (hsafe entry List.mem_cons_self (by rw [hstate]; rfl)) state
    · have hne : entry'.2 ≠ entry.2 := fun heq =>
        hnodup.1 (List.mem_map.mpr ⟨entry', hentry', heq⟩)
      exact (adoptEntry_sameAt hne self).replaceable
        (hsafe entry' (List.mem_cons_of_mem _ hentry') hsome)

/-- An adoption for a key whose message may still run loses that message. -/
theorem adoptEntries_abandons {states : String → Option CeleryState}
    {entries : List (String × TaskInstanceKey)} {entry : String × TaskInstanceKey}
    (hnodup : (entries.map Prod.snd).Nodup) (hentry : entry ∈ entries)
    (hstate : (states entry.1).isSome) (h : Inv [] self)
    (hreplace : ¬self.Replaceable entry.2 entry.1) :
    ¬NoneAbandoned (entries.foldl (adoptEntry states) self) := by
  obtain ⟨before, after, rfl⟩ := List.append_of_mem hentry
  obtain ⟨state, hstate⟩ := Option.isSome_iff_exists.mp hstate
  simp only [Replaceable, not_forall, not_or] at hreplace
  obtain ⟨taskId, hget, hne, hobserved, hrevoked⟩ := hreplace
  rw [List.map_append, List.map_cons, List.nodup_middle, List.nodup_cons, List.mem_append,
    not_or] at hnodup
  have hbefore : SameAt entry.2 self (before.foldl (adoptEntry states) self) :=
    SameAt.foldl (fun executor e he => adoptEntry_sameAt
      (fun heq => hnodup.1.1 (List.mem_map.mpr ⟨e, he, heq.symm⟩)) executor) self
  have hafter : ∀ executor : CeleryExecutor Payload,
      SameAt entry.2 executor (after.foldl (adoptEntry states) executor) :=
    SameAt.foldl fun executor e he => adoptEntry_sameAt
      (fun heq => hnodup.1.2 (List.mem_map.mpr ⟨e, he, heq.symm⟩)) executor
  rw [List.foldl_append, List.foldl_cons]
  generalize hmiddle : before.foldl (adoptEntry states) self = middle at hbefore
  have hadopt : adoptEntry states middle entry = middle.adopt entry.2 entry.1 state := by
    rw [adoptEntry, hstate]
  rw [hadopt]
  intro hnone
  have hsame := hafter (middle.adopt entry.2 entry.1 state)
  have hmem : (entry.2, taskId) ∈ (middle.adopt entry.2 entry.1 state).messages := by
    have hmem' := List.mem_append_left [(entry.2, entry.1)]
      (hbefore.messages _ (h.tracked entry.2 taskId hget))
    rcases updateTaskState_cases _ entry.2 entry.1 state with heq | ⟨tiState, heq⟩
    · rw [adopt, heq]
      exact hmem'
    · rw [adopt, heq]
      exact hmem'
  have hacc := hnone.messages _ (hsame.messages _ hmem)
  simp only [IsAccounted, hsame.tasks, hsame.observed, hsame.revoked] at hacc
  rcases updateTaskState_cases ({ middle with
    messages := middle.messages ++ [(entry.2, entry.1)] }.track entry.2 entry.1) entry.2 entry.1
    state with heq | ⟨tiState, heq⟩
  · rw [adopt, heq, get?_track, if_pos rfl] at hacc
    rcases hacc with heq' | hmem' | hmem'
    · exact hne (Option.some.inj heq').symm
    · exact hobserved ((hbefore.observed taskId).mp hmem')
    · exact hrevoked (hbefore.revoked ▸ hmem')
  · rw [adopt, heq] at hacc
    rcases hacc with heq' | hmem' | hmem'
    · have hnone' := (get?_changeState _ entry.2 tiState entry.2).symm.trans heq'
      rw [if_pos rfl] at hnone'
      cases hnone'
    · rcases List.mem_append.mp hmem' with hmem' | hmem'
      · exact hobserved ((hbefore.observed taskId).mp hmem')
      · exact hne (congrArg Prod.snd (List.mem_singleton.mp hmem'))
    · exact hrevoked (hbefore.revoked ▸ hmem')

/-! ## Cleanup -/

/-- `fail` has dropped the message when it is to be revoked. -/
theorem cleanupStuckQueuedTasks_eq (self : CeleryExecutor Payload) (keys : List TaskInstanceKey)
    (revokes : TaskInstanceKey → Bool) :
    self.cleanupStuckQueuedTasks keys revokes = keys.foldl CeleryExecutor.fail self := by
  refine List.foldl_ext _ _ self fun executor key _ => ?_
  have hnone : (executor.fail key).tasks.get? key = none :=
    (executor.get?_changeState key _ key).trans (if_pos rfl)
  rw [cleanupStuckQueuedTask, hnone]

theorem get?_failAll (keys : List TaskInstanceKey) (self : CeleryExecutor Payload)
    (key : TaskInstanceKey) :
    (keys.foldl CeleryExecutor.fail self).tasks.get? key =
      if key ∈ keys then none else self.tasks.get? key := by
  induction keys generalizing self with
  | nil => rfl
  | cons key' keys ih =>
    rw [List.foldl_cons, ih, CeleryExecutor.fail, get?_changeState]
    by_cases hkey : key ∈ keys
    · rw [if_pos hkey, if_pos (List.mem_cons_of_mem _ hkey)]
    · rw [if_neg hkey]
      by_cases heq : key = key'
      · rw [if_pos heq, if_pos (heq ▸ List.mem_cons_self)]
      · rw [if_neg heq, if_neg fun hmem => (List.mem_cons.mp hmem).elim heq hkey]

theorem failAll_frame (keys : List TaskInstanceKey) (self : CeleryExecutor Payload) :
    (keys.foldl CeleryExecutor.fail self).messages = self.messages ∧
      (keys.foldl CeleryExecutor.fail self).observed = self.observed ∧
      (keys.foldl CeleryExecutor.fail self).revoked = self.revoked ∧
      (keys.foldl CeleryExecutor.fail self).queuedTasks = self.queuedTasks := by
  induction keys generalizing self with
  | nil => exact ⟨rfl, rfl, rfl, rfl⟩
  | cons key keys ih => exact ih (self.fail key)

theorem failAll_keys (keys : List TaskInstanceKey)
    (h : ∀ key, key ∈ self.tasks.keys ↔ key ∈ self.running) (key : TaskInstanceKey) :
    key ∈ (keys.foldl CeleryExecutor.fail self).tasks.keys ↔
      key ∈ (keys.foldl CeleryExecutor.fail self).running := by
  induction keys generalizing self with
  | nil => exact h key
  | cons key' keys ih => exact ih (changeState_keys h key' _)

theorem Inv.failAll {keys : List TaskInstanceKey} (h : Inv [] self)
    (hsafe : ∀ key ∈ keys, ∀ taskId, self.tasks.get? key = some taskId →
      (key, taskId) ∈ self.observed ∨ (key, taskId) ∈ self.revoked) :
    Inv [] (keys.foldl CeleryExecutor.fail self) := by
  obtain ⟨hmessages, hobserved, hrevoked, hqueued⟩ := failAll_frame keys self
  refine ⟨failAll_keys keys h.keys, fun message hm => .inl ?_, fun key taskId hget => ?_,
    hqueued ▸ h.queued⟩
  · rw [hmessages] at hm
    rw [IsAccounted, get?_failAll, hobserved, hrevoked]
    rcases h.noneAbandoned.messages message hm with htracked | hended
    · by_cases hkey : message.1 ∈ keys
      · exact .inr (hsafe message.1 hkey message.2 htracked)
      · rw [if_neg hkey]
        exact .inl htracked
    · exact .inr hended
  · rw [get?_failAll] at hget
    rw [hmessages]
    split at hget
    · cases hget
    · exact h.tracked key taskId hget

theorem failAll_abandons {keys : List TaskInstanceKey} (h : Inv [] self) (hkey : key ∈ keys)
    (hget : self.tasks.get? key = some taskId)
    (hended : ¬((key, taskId) ∈ self.observed ∨ (key, taskId) ∈ self.revoked)) :
    ¬NoneAbandoned (keys.foldl CeleryExecutor.fail self) := by
  obtain ⟨hmessages, hobserved, hrevoked, -⟩ := failAll_frame keys self
  intro hnone
  have hacc := hnone.messages (key, taskId) (hmessages ▸ h.tracked key taskId hget)
  rw [IsAccounted, get?_failAll, if_pos hkey, hobserved, hrevoked] at hacc
  rcases hacc with heq | hended'
  · cases heq
  · exact hended hended'

/-! ## Runs -/

theorem step_inv {call : Call Payload} (h : Inv [] self) (hsafe : CallSafe self call) :
    Inv [] (step self call) := by
  cases call with
  | queueCommand key priority payload =>
    have hqueue := Executor.queueCommand_keys_nodup h.queued key priority payload
    have hrunning := self.toExecutor.queueCommand_running key priority payload
    refine ⟨fun key' => (h.keys key').trans ?_, h.messages, h.tracked, hqueue⟩
    exact (congrArg (key' ∈ ·) hrunning).symm.to_iff
  | heartbeat elapsed publish states => exact (h.triggerTasks elapsed).sync states
  | sync states => exact h.sync states
  | tryAdoptTaskInstances tis states =>
    exact h.adoptEntries (celeryTasks_values_nodup tis) hsafe
  | cleanupStuckQueuedTasks keys revokes =>
    rw [step, cleanupStuckQueuedTasks_eq]
    exact h.failAll hsafe

theorem step_abandons {call : Call Payload} (h : Inv [] self) (hsafe : ¬CallSafe self call) :
    ¬NoneAbandoned (step self call) := by
  cases call with
  | queueCommand key priority payload => exact absurd trivial hsafe
  | heartbeat elapsed publish states => exact absurd trivial hsafe
  | sync states => exact absurd trivial hsafe
  | tryAdoptTaskInstances tis states =>
    simp only [CallSafe, not_forall] at hsafe
    obtain ⟨entry, hentry, hstate, hreplace⟩ := hsafe
    refine adoptEntries_abandons (celeryTasks_values_nodup tis) hentry hstate h ?_
    simpa only [Replaceable, not_forall] using hreplace
  | cleanupStuckQueuedTasks keys revokes =>
    simp only [CallSafe, not_forall] at hsafe
    obtain ⟨key, hkey, taskId, hget, hended⟩ := hsafe
    rw [step, cleanupStuckQueuedTasks_eq]
    exact failAll_abandons h hkey hget hended

/-- An executor as it starts. -/
def init (parallelism taskPublishMaxRetries : Nat) : CeleryExecutor Payload :=
  { parallelism, taskPublishMaxRetries }

theorem init_inv (parallelism taskPublishMaxRetries : Nat) :
    Inv [] (init parallelism taskPublishMaxRetries : CeleryExecutor Payload) where
  keys key := by simp [init, Dict.keys]
  messages message hm := by cases hm
  tracked key taskId hget := by cases hget
  queued := List.nodup_nil

/-- **No message is abandoned in a run exactly if no call is made that loses one.** -/
theorem noneAbandoned_iff (parallelism taskPublishMaxRetries : Nat) (calls : List (Call Payload)) :
    (∀ executor ∈ Transition.states step (init parallelism taskPublishMaxRetries) calls,
      NoneAbandoned executor) ↔
      Transition.AllSteps step CallSafe (init parallelism taskPublishMaxRetries) calls :=
  Transition.exact_condition (I := Inv []) (P := NoneAbandoned) (fun _ h => h.noneAbandoned)
    (fun _ _ h hsafe => step_inv h hsafe) (fun _ _ h hsafe => step_abandons h hsafe)
    (init_inv parallelism taskPublishMaxRetries) calls

/-- A task instance whose message waits in Celery's queue. -/
def stuckTask : TaskInstances where
  tis := [({ dagId := "d", taskId := "t", runId := "r" }, some "c")]
  key_nodup := List.nodup_cons.mpr ⟨List.not_mem_nil, List.nodup_nil⟩

/-- Its message is adopted, and lost when the task instance is cleaned up. -/
theorem stuckTask_abandoned :
    ¬∀ executor ∈ Transition.states step (init 32 3 : CeleryExecutor Unit)
      [.tryAdoptTaskInstances stuckTask fun _ => some .pending,
        .cleanupStuckQueuedTasks [{ dagId := "d", taskId := "t", runId := "r" }] fun _ => true],
      NoneAbandoned executor := by
  intro h
  have hlast := h _ (List.mem_cons_of_mem _ (List.mem_cons_of_mem _ List.mem_cons_self))
  have hacc := hlast.messages ({ dagId := "d", taskId := "t", runId := "r" }, "c") (by decide)
  rcases hacc with htracked | hobserved | hrevoked
  · exact absurd htracked (by decide)
  · exact absurd hobserved (by decide)
  · exact absurd hrevoked (by decide)

end Airflow.Celery.CeleryExecutor
