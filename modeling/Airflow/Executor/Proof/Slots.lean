import Airflow.Lib.Transition
import Airflow.Executor.Base

/-!
# Executor slots are conserved as long as no `execute_async` fails its task at once

`SlotsConserved`: every key in `running` was dispatched and not given a terminal state since
(`Live`), so that `running` is empty once every dispatched key is terminal. `_process_tasks` adds
the key to `running` after `execute_async` returned, so a task that `execute_async` fails from
inside stays there: `slots_conserved_iff` says that this is the only way to lose a slot, over every
sequence of calls.
-/

namespace Airflow.Executor

variable {Key Payload : Type}

/-! ## Histories -/

/-- The key was dispatched, and not given a terminal state since that dispatch began. -/
def Live (history : List (ExecutorEvent Key)) (key : Key) : Prop :=
  ∃ pre post, history = pre ++ .dispatched key :: post ∧ .terminal key ∉ post

theorem live_snoc {h : List (ExecutorEvent Key)} {ev : ExecutorEvent Key} {k : Key} :
    Live (h ++ [ev]) k ↔ ev = .dispatched k ∨ (Live h k ∧ ev ≠ .terminal k) := by
  constructor
  · rintro ⟨pre, post, he, hp⟩
    rcases List.eq_nil_or_concat post with rfl | ⟨post', ev', rfl⟩
    · obtain ⟨-, he⟩ := List.append_inj' he rfl
      exact .inl (List.singleton_inj.1 he)
    · rw [List.concat_eq_append, ← List.cons_append, ← List.append_assoc] at he
      obtain ⟨hpre, hev⟩ := List.append_inj' he rfl
      cases List.singleton_inj.1 hev
      simp only [List.concat_eq_append, List.mem_append, List.mem_singleton, not_or] at hp
      exact .inr ⟨⟨pre, post', hpre, hp.1⟩, Ne.symm hp.2⟩
  · rintro (rfl | ⟨⟨pre, post, rfl, hp⟩, hev⟩)
    · exact ⟨h, [], rfl, List.not_mem_nil⟩
    · refine ⟨pre, post ++ [ev], by simp, ?_⟩
      simp only [List.mem_append, List.mem_singleton, not_or]
      exact ⟨hp, Ne.symm hev⟩

theorem not_live_nil (k : Key) : ¬Live [] k := by
  rintro ⟨pre, post, h, -⟩
  simp at h

theorem dispatched_of_live {h : List (ExecutorEvent Key)} {k : Key} (hl : Live h k) :
    .dispatched k ∈ h := by
  obtain ⟨pre, post, rfl, -⟩ := hl
  simp

theorem live_recordState {h : List (ExecutorEvent Key)} {k k' : Key} {s : TIState} :
    Live (recordState h k s) k' ↔ Live h k' ∧ (isTerminal s = true → k' ≠ k) := by
  unfold recordState
  split
  · rename_i ht
    rw [live_snoc]
    simp [ht, eq_comm]
  · rename_i ht
    simp [ht]

/-- A dispatch of the key followed by a failure from inside leaves it not live. -/
theorem live_append_failed {h : List (ExecutorEvent Key)} {k k' : Key} :
    Live (recordState (h ++ [.dispatched k]) k (some .failed)) k' ↔ Live h k' ∧ k' ≠ k := by
  rw [live_recordState, live_snoc]
  simp only [isTerminal, forall_const, ExecutorEvent.dispatched.injEq, ne_eq, reduceCtorEq,
    not_false_eq_true, and_true]
  exact ⟨fun ⟨hl, hk⟩ => ⟨hl.resolve_left (Ne.symm hk), hk⟩, fun ⟨hl, hk⟩ => ⟨.inr hl, hk⟩⟩

/-! ## The invariant -/

/-- Every running key is live, and no key is queued twice. -/
structure Inv (e : Executor Key Payload) : Prop where
  live : ∀ k ∈ e.running, Live e.history k
  nodup : (e.queuedTasks.map (·.key)).Nodup

/-- Slots are conserved: a key is running only if it was dispatched and has had no terminal state
since, so that all slots are open once no dispatched key is live. -/
def SlotsConserved (e : Executor Key Payload) : Prop :=
  (∀ k ∈ e.running, Live e.history k) ∧
    ((∀ k, .dispatched k ∈ e.history → ¬Live e.history k) →
      e.running = [] ∧ (e.parallelism ≠ 0 → e.openSlots = e.parallelism))

theorem Inv.slotsConserved {e : Executor Key Payload} (hi : e.Inv) : e.SlotsConserved := by
  refine ⟨hi.live, fun hall => ?_⟩
  have hrun : e.running = [] := List.eq_nil_iff_forall_not_mem.2 fun k hk =>
    hall k (dispatched_of_live (hi.live k hk)) (hi.live k hk)
  exact ⟨hrun, fun hp => by simp [openSlots, hp, hrun]⟩

/-- The loop of `trigger_tasks` neither runs a task nor records anything, and only removes from the
queue. -/
structure SameSlots (e e' : Executor Key Payload) : Prop where
  running : e'.running = e.running
  history : e'.history = e.history
  queued : e'.queuedTasks.Sublist e.queuedTasks

theorem SameSlots.refl (e : Executor Key Payload) : e.SameSlots e := ⟨rfl, rfl, .refl _⟩

theorem SameSlots.trans {e e' e'' : Executor Key Payload} (h : e.SameSlots e')
    (h' : e'.SameSlots e'') : e.SameSlots e'' :=
  ⟨h'.running.trans h.running, h'.history.trans h.history, h'.queued.trans h.queued⟩

theorem SameSlots.inv {e e' : Executor Key Payload} (h : e.SameSlots e') (hi : e.Inv) :
    e'.Inv := by
  refine ⟨fun k hk => ?_, hi.nodup.sublist (h.queued.map _)⟩
  rw [h.running] at hk
  rw [h.history]
  exact hi.live k hk

section
variable [DecidableEq Key]

theorem queueCommand_running (e : Executor Key Payload) (key : Key) (priority : Int)
    (payload : Payload) : (e.queueCommand key priority payload).running = e.running := by
  unfold queueCommand
  split <;> rfl

theorem queueCommand_keys_nodup {e : Executor Key Payload} (h : (e.queuedTasks.map (·.key)).Nodup)
    (key : Key) (priority : Int) (payload : Payload) :
    ((e.queueCommand key priority payload).queuedTasks.map (·.key)).Nodup := by
  unfold queueCommand
  split
  · rename_i hk
    rw [List.map_append, List.nodup_append]
    refine ⟨h, by simp, ?_⟩
    rintro a ha b hb rfl
    obtain rfl : a = key := List.mem_singleton.1 hb
    exact hk ha
  · exact h

theorem queueCommand_history (e : Executor Key Payload) (key : Key) (priority : Int)
    (payload : Payload) : (e.queueCommand key priority payload).history = e.history := by
  unfold queueCommand
  split <;> rfl

theorem Inv.queueCommand {e : Executor Key Payload} (hi : e.Inv) (key : Key) (priority : Int)
    (payload : Payload) : (e.queueCommand key priority payload).Inv := by
  refine ⟨fun k hk => ?_, queueCommand_keys_nodup hi.nodup key priority payload⟩
  rw [queueCommand_running] at hk
  rw [queueCommand_history]
  exact hi.live k hk

theorem Inv.changeState {e : Executor Key Payload} (hi : e.Inv) (key : Key) (state : TIState) :
    (e.changeState key state).Inv := by
  refine ⟨fun k hk => ?_, hi.nodup⟩
  obtain ⟨hk, hne⟩ := List.mem_filter.1 hk
  exact live_recordState.2 ⟨hi.live k hk, fun _ => by simpa using hne⟩

theorem Inv.changeStateKube {e : Executor Key Payload} (hi : e.Inv) (key : Key)
    (result : KubeResult) : (e.changeStateKube key result).Inv := by
  cases result with
  | adopted | dbError => exact ⟨fun k hk => hi.live k (List.mem_filter.1 hk).1, hi.nodup⟩
  | running => exact ⟨hi.live, hi.nodup⟩
  | apiError => exact hi
  | state s => exact hi.changeState key (some s)
  | noState s => exact hi.changeState key s

theorem Inv.runNextTask {e : Executor Key Payload} (hi : e.Inv) (outcome : RunNextOutcome) :
    (e.runNextTask outcome).Inv := by
  unfold Executor.runNextTask
  rcases e.taskQueue with _ | ⟨⟨key, payload⟩, rest⟩
  · exact hi
  · cases outcome with
    | created | requeued => exact ⟨hi.live, hi.nodup⟩
    | failed =>
      have hrest : Inv { e with taskQueue := rest } := ⟨hi.live, hi.nodup⟩
      exact hrest.changeState key _

theorem Inv.sync {e : Executor Key Payload} (hi : e.Inv) (results : List (Key × KubeResult))
    (runs : List RunNextOutcome) : (e.sync results runs).Inv := by
  unfold Executor.sync
  refine List.foldlRecOn runs _ ?_ fun e he o _ => he.runNextTask o
  exact List.foldlRecOn results _ hi fun e he r _ => he.changeStateKube r.1 r.2

/-! ## `trigger_tasks` -/

theorem triggerTask_spec (elapsed : Key → Bool) (e : Executor Key Payload)
    (taskTuples : List (QueuedTask Key Payload)) (task : QueuedTask Key Payload) :
    e.SameSlots (triggerTask elapsed (e, taskTuples) task).1 ∧
      (triggerTask elapsed (e, taskTuples) task).2 =
        if task.key ∈ e.running then taskTuples else taskTuples ++ [task] := by
  unfold triggerTask
  dsimp only
  split
  · split
    · exact ⟨⟨rfl, rfl, .refl _⟩, rfl⟩
    · exact ⟨⟨rfl, rfl, List.filter_sublist⟩, rfl⟩
  · exact ⟨⟨rfl, rfl, .refl _⟩, rfl⟩

theorem triggerTask_foldl (elapsed : Key → Bool) (tasks : List (QueuedTask Key Payload))
    (e : Executor Key Payload) (taskTuples : List (QueuedTask Key Payload)) :
    e.SameSlots (tasks.foldl (triggerTask elapsed) (e, taskTuples)).1 ∧
      (tasks.foldl (triggerTask elapsed) (e, taskTuples)).2 =
        taskTuples ++ tasks.filter (·.key ∉ e.running) := by
  induction tasks generalizing e taskTuples with
  | nil => exact ⟨.refl e, by simp⟩
  | cons task tasks ih =>
    obtain ⟨hsame, htuples⟩ := triggerTask_spec elapsed e taskTuples task
    obtain ⟨hsame', htuples'⟩ := ih (triggerTask elapsed (e, taskTuples) task).1
      (triggerTask elapsed (e, taskTuples) task).2
    refine ⟨hsame.trans hsame', ?_⟩
    rw [List.foldl_cons, htuples', htuples, hsame.running, List.filter_cons]
    by_cases hk : task.key ∈ e.running <;> simp [hk]

theorem collectTasks_sameSlots (e : Executor Key Payload) (openSlots : Int)
    (elapsed : Key → Bool) : e.SameSlots (e.collectTasks openSlots elapsed).1 :=
  (triggerTask_foldl elapsed _ e []).1

theorem mem_collectTasks {e : Executor Key Payload} {openSlots : Int} {elapsed : Key → Bool}
    {task : QueuedTask Key Payload} :
    task ∈ (e.collectTasks openSlots elapsed).2 ↔
      task ∈ e.orderQueuedTasksByPriority.take (min openSlots e.queuedTasks.length).toNat ∧
        task.key ∉ e.running := by
  unfold collectTasks
  rw [(triggerTask_foldl elapsed _ e []).2, List.nil_append, List.mem_filter, decide_eq_true_iff]

/-- The tasks to process are queued ones. -/
theorem collectTasks_nodup {e : Executor Key Payload} (h : (e.queuedTasks.map (·.key)).Nodup)
    (openSlots : Int) (elapsed : Key → Bool) :
    ((e.collectTasks openSlots elapsed).2.map (·.key)).Nodup := by
  have hsort : (e.orderQueuedTasksByPriority.map (·.key)).Nodup :=
    (((List.mergeSort_perm e.queuedTasks _).map _).nodup_iff).2 h
  unfold collectTasks
  rw [(triggerTask_foldl elapsed _ e []).2, List.nil_append]
  exact hsort.sublist ((List.filter_sublist.trans (List.take_sublist _ _)).map _)

section
variable {outcome : Key → Payload → ExecuteOutcome} {e : Executor Key Payload}
  {task : QueuedTask Key Payload}

theorem mem_processTask_running {k : Key} :
    k ∈ (processTask outcome e task).running ↔ k = task.key ∨ k ∈ e.running := by
  unfold processTask executeAsync
  cases outcome task.key task.payload with
  | accepted =>
    dsimp only
    split <;> simp_all [or_comm]
  | failed =>
    by_cases hk : k = task.key <;> simp [fail, Executor.changeState, hk, or_comm]

theorem live_processTask {k : Key} :
    Live (processTask outcome e task).history k ↔
      if k = task.key then outcome task.key task.payload = .accepted else Live e.history k := by
  unfold processTask executeAsync
  cases outcome task.key task.payload with
  | accepted =>
    dsimp only
    rw [live_snoc]
    by_cases hk : k = task.key <;> simp [hk, eq_comm]
  | failed =>
    simp only [fail, Executor.changeState]
    rw [live_append_failed]
    by_cases hk : k = task.key <;> simp [hk]

theorem Inv.processTask (hi : e.Inv) (ho : outcome task.key task.payload = .accepted) :
    (Executor.processTask outcome e task).Inv := by
  refine ⟨fun k hk => ?_, ?_⟩
  · rw [live_processTask]
    split
    · exact ho
    · rename_i hne
      exact hi.live k ((mem_processTask_running.1 hk).resolve_left hne)
  · have hq : (Executor.processTask outcome e task).queuedTasks =
        e.queuedTasks.filter (·.key ≠ task.key) := by
      unfold Executor.processTask executeAsync
      cases outcome task.key task.payload <;> rfl
    rw [hq]
    exact hi.nodup.sublist (List.filter_sublist.map _)

end

/-- A key that is running although it is not live stays so while other tasks are processed. -/
theorem lost_foldl {outcome : Key → Payload → ExecuteOutcome} {k : Key}
    {tasks : List (QueuedTask Key Payload)} {e : Executor Key Payload}
    (hk : k ∉ tasks.map (·.key)) (hl : k ∈ e.running ∧ ¬Live e.history k) :
    k ∈ (tasks.foldl (processTask outcome) e).running ∧
      ¬Live (tasks.foldl (processTask outcome) e).history k := by
  induction tasks generalizing e with
  | nil => exact hl
  | cons task tasks ih =>
    rw [List.map_cons, List.mem_cons, not_or] at hk
    refine ih hk.2 ⟨mem_processTask_running.2 (.inr hl.1), ?_⟩
    rw [live_processTask, if_neg hk.1]
    exact hl.2

/-- The slot of a task that `execute_async` fails from inside is lost. -/
theorem failed_foldl {outcome : Key → Payload → ExecuteOutcome}
    {tasks : List (QueuedTask Key Payload)} {task : QueuedTask Key Payload}
    (e : Executor Key Payload) (hn : (tasks.map (·.key)).Nodup) (ht : task ∈ tasks)
    (ho : outcome task.key task.payload = .failed) :
    task.key ∈ (tasks.foldl (processTask outcome) e).running ∧
      ¬Live (tasks.foldl (processTask outcome) e).history task.key := by
  induction tasks generalizing e with
  | nil => cases ht
  | cons head tasks ih =>
    rw [List.map_cons, List.nodup_cons] at hn
    rcases List.mem_cons.1 ht with rfl | ht
    · rw [List.foldl_cons]
      refine lost_foldl hn.1 ⟨mem_processTask_running.2 (.inl rfl), ?_⟩
      simp [live_processTask, ho]
    · exact ih _ hn.2 ht

/-! ## Sequences of calls -/

/-- `execute_async` accepts every task that the call can hand to it: the first `openSlots` queued
ones that are not running. -/
def Accepts (e : Executor Key Payload) : Call Key Payload → Prop
  | .triggerTasks openSlots _ outcome =>
    ∀ task ∈ e.orderQueuedTasksByPriority.take (min openSlots e.queuedTasks.length).toNat,
      task.key ∉ e.running → outcome task.key task.payload = .accepted
  | _ => True

theorem Inv.call {e : Executor Key Payload} {c : Call Key Payload} (hi : e.Inv)
    (hc : e.Accepts c) : (e.call c).Inv := by
  cases c with
  | queueCommand key priority payload => exact hi.queueCommand key priority payload
  | triggerTasks openSlots elapsed outcome =>
    refine List.foldlRecOn _ _ ((e.collectTasks_sameSlots openSlots elapsed).inv hi) ?_
    intro e' he' task ht
    obtain ⟨htake, hrun⟩ := mem_collectTasks.1 ht
    exact he'.processTask (hc task htake hrun)
  | sync results runs => exact hi.sync results runs
  | changeState key state => exact hi.changeState key state

theorem not_slotsConserved_of_not_accepts {e : Executor Key Payload} {c : Call Key Payload}
    (hi : e.Inv) (hc : ¬e.Accepts c) : ¬(e.call c).SlotsConserved := by
  cases c with
  | queueCommand | sync | changeState => exact absurd trivial hc
  | triggerTasks openSlots elapsed outcome =>
    simp only [Accepts, Classical.not_forall] at hc
    obtain ⟨task, htake, hnot, ho⟩ := hc
    have ho : outcome task.key task.payload = .failed := by
      cases h : outcome task.key task.payload with
      | accepted => exact absurd h ho
      | failed => rfl
    obtain ⟨hrun, hlive⟩ := failed_foldl (e.collectTasks openSlots elapsed).1
      (collectTasks_nodup hi.nodup openSlots elapsed) (mem_collectTasks.2 ⟨htake, hnot⟩) ho
    exact fun hs => hlive (hs.1 _ hrun)

/-- **Slots are conserved exactly when no task is failed from inside `execute_async`**: in every
state of a sequence of calls on a new executor, a running key is one that was dispatched and not
given a terminal state since. -/
theorem slots_conserved_iff (parallelism : Nat) (calls : List (Call Key Payload)) :
    (∀ e ∈ Transition.states call { parallelism } calls, e.SlotsConserved) ↔
      Transition.AllSteps call Accepts { parallelism } calls := by
  have hinit : Inv ({ parallelism } : Executor Key Payload) :=
    ⟨fun k hk => absurd hk List.not_mem_nil, List.nodup_nil⟩
  refine Transition.exact_condition (I := Inv) (fun _ hi => hi.slotsConserved)
    (fun _ _ hi hc => hi.call hc) (fun _ _ hi hc => ?_) hinit calls
  exact not_slotsConserved_of_not_accepts hi hc

/-- One task that is queued and fails at once keeps its slot. -/
theorem failed_task_keeps_slot : ¬∀ (parallelism : Nat) (calls : List (Call Nat Unit)),
    ∀ e ∈ Transition.states call { parallelism } calls, e.SlotsConserved := by
  intro h
  have hqueued : Inv (call ({ parallelism := 1 } : Executor Nat Unit) (.queueCommand 7 1 ())) :=
    ⟨fun k hk => absurd hk List.not_mem_nil, by decide⟩
  refine not_slotsConserved_of_not_accepts
    (c := .triggerTasks 1 (fun _ => false) fun _ _ => .failed) hqueued (fun hacc => ?_)
    (h 1 [.queueCommand 7 1 (), .triggerTasks 1 (fun _ => false) fun _ _ => .failed] _
      (by simp [Transition.states]))
  have hmem : (⟨7, 1, ()⟩ : QueuedTask Nat Unit) ∈
      (call { parallelism := 1 } (.queueCommand 7 1 ())).orderQueuedTasksByPriority.take 1 := by
    simp [orderQueuedTasksByPriority, call, Executor.queueCommand]
  cases hacc _ hmem List.not_mem_nil

end

end Airflow.Executor
