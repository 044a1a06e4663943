import Airflow.Executor.Local

/-!
# `LocalExecutor` neither loses nor repeats a command

`accounted_of_run`: every command that `execute_async` was called for is, in every state of a run,
in exactly one place: it waits in the task queue, a worker executes it, it was executed once, or it
ended with its worker. The results are reported in the order in which they came. When `end` has
returned, every command was executed and its result reported, and all workers have left.
-/

namespace Airflow.LocalExecutor

variable {Key : Type} [DecidableEq Key]

/-! ## Places -/

/-- The command that a worker executes. -/
def Worker.work? : Worker Key → Option (Work Key)
  | .working work => some work
  | _ => none

/-- What the worker has read from the task queue is not done. -/
def Worker.unfinished : Worker Key → Bool
  | .working _ | .executed | .poisoned | .raised | .killed => true
  | .waiting | .exited | .died => false

/-- The worker reads no more, and not because its command has raised. -/
def Worker.leaving : Worker Key → Bool
  | .poisoned | .exited | .killed => true
  | .waiting | .working _ | .executed | .raised | .died => false

def Worker.failed : Worker Key → Bool
  | .raised | .died | .killed => true
  | .waiting | .working _ | .executed | .poisoned | .exited => false

namespace System

variable (s : System Key)

def queued : List (Work Key) := s.taskQueue.filterMap id

def working : List (Work Key) := s.workers.filterMap Worker.work?

/-- The commands of which no result is put. -/
def pending : List (Work Key) := s.queued ++ s.working ++ s.lost

end System

/-- The poison pills that `end` has not put. -/
def Phase.pills (parallelism : Nat) : Phase → Nat
  | .started => parallelism
  | .poisoning pills => pills
  | .syncing | .draining | .returned => 0

/-! ## Steps of the workers -/

/-- What a step of a worker does beside changing the worker from `old` to `new`. -/
inductive Move (s : System Key) : Worker Key → Worker Key → System Key → Prop
  | get {work : Work Key} {rest : List (Option (Work Key))} :
    s.taskQueue = some work :: rest →
      Move s .waiting (.working work) { s with taskQueue := rest }
  | pill {rest : List (Option (Work Key))} :
    s.taskQueue = none :: rest → Move s .waiting .poisoned { s with taskQueue := rest }
  | put (work : Work Key) (state : TaskInstanceState) :
    Move s (.working work) (if s.unlimited then .exited else .executed)
      { s with
        resultQueue := s.resultQueue ++ [(work.1, state)]
        outcomes := s.outcomes ++ [(work, state)] }
  | raise (work : Work Key) :
    Move s (.working work) (if s.unlimited then .died else .raised)
      { s with lost := s.lost ++ [work] }
  | executed : Move s .executed .waiting { s with unfinishedTasks := s.unfinishedTasks - 1 }
  | poisoned : Move s .poisoned .exited { s with unfinishedTasks := s.unfinishedTasks - 1 }
  | raised : Move s .raised .died { s with unfinishedTasks := s.unfinishedTasks - 1 }
  | killWaiting : Move s .waiting .died s
  | killWorking (work : Work Key) :
    Move s (.working work) .killed { s with lost := s.lost ++ [work] }
  | kill {old : Worker Key} : old.unfinished = true → old.work? = none → Move s old .killed s

/-- An event of a worker. -/
def Event.worker? : Event Key → Option Nat
  | .get i | .putResult i _ | .raise i | .taskDone i | .kill i => some i
  | .processTask _ _ | .sync | .advanceEnd => none

theorem set_split {i : Nat} {workers : List (Worker Key)} {old : Worker Key}
    (h : workers[i]? = some old) (new : Worker Key) :
    ∃ pre post, workers = pre ++ old :: post ∧ workers.set i new = pre ++ new :: post := by
  obtain ⟨hi, rfl⟩ := List.getElem?_eq_some_iff.mp h
  refine ⟨workers.take i, workers.drop (i + 1), ?_, List.set_eq_take_append_cons_drop.trans ?_⟩
  · rw [← List.drop_eq_getElem_cons hi, List.take_append_drop]
  · rw [if_pos hi]

/-- The system after a step of a worker. -/
def Moved (s t : System Key) : Prop :=
  ∃ pre old post new s', s.workers = pre ++ old :: post ∧ Move s old new s' ∧
    t = { s' with workers := pre ++ new :: post }

theorem Moved.of_set {s s' t : System Key} {i : Nat} {old new : Worker Key}
    (hold : s.workers[i]? = some old) (hmove : Move s old new s')
    (ht : t = { s' with workers := s.workers.set i new }) : Moved s t := by
  obtain ⟨pre, post, hworkers, hset⟩ := set_split hold new
  rw [hset] at ht
  exact ⟨pre, old, post, new, s', hworkers, hmove, ht⟩

/-- An event of a worker changes this worker alone, or nothing. -/
theorem step_worker (s : System Key) {event : Event Key} (h : event.worker?.isSome) :
    step s event = s ∨ Moved s (step s event) := by
  cases event with
  | processTask key command => cases h
  | sync => cases h
  | advanceEnd => cases h
  | get i =>
    simp only [step, System.get]
    split
    · next hi hqueue => exact .inr (.of_set hi (.get hqueue) rfl)
    · next hi hqueue => exact .inr (.of_set hi (.pill hqueue) rfl)
    · exact .inl rfl
  | putResult i state =>
    simp only [step, System.putResult]
    split
    · next work hi => exact .inr (.of_set hi (.put work state) rfl)
    · exact .inl rfl
  | raise i =>
    simp only [step, System.raise]
    split
    · next work hi => exact .inr (.of_set hi (.raise work) rfl)
    · exact .inl rfl
  | taskDone i =>
    simp only [step, System.taskDone]
    split
    · next hi => exact .inr (.of_set hi .executed rfl)
    · next hi => exact .inr (.of_set hi .poisoned rfl)
    · next hi => exact .inr (.of_set hi .raised rfl)
    · exact .inl rfl
  | kill i =>
    simp only [step, System.kill]
    split
    · next hi => exact .inr (.of_set hi .killWaiting rfl)
    · next work hi => exact .inr (.of_set hi (.killWorking work) rfl)
    · next hi => exact .inr (.of_set hi (.kill rfl rfl) rfl)
    · next hi => exact .inr (.of_set hi (.kill rfl rfl) rfl)
    · next hi => exact .inr (.of_set hi (.kill rfl rfl) rfl)
    · exact .inl rfl

/-- What all operations of the executor and all steps of the workers keep, every event keeps. -/
theorem step_keeps {P : System Key → Prop} {s : System Key} (event : Event Key) (hsame : P s)
    (hmoved : ∀ t, Moved s t → P t)
    (htask : s.phase = .started → ∀ key command, P (s.processTask key command))
    (hreport : P s.report) (hadvance : P s.advanceEnd) : P (step s event) := by
  by_cases hworker : event.worker?.isSome
  · obtain heq | h := step_worker s hworker
    · rw [heq]
      exact hsame
    · exact hmoved _ h
  · cases event with
    | processTask key command =>
      simp only [step]
      split
      · next hphase => exact htask hphase key command
      · exact hsame
    | sync =>
      simp only [step]
      split
      · exact hreport
      · exact hsame
    | advanceEnd => exact hadvance
    | get i => exact absurd rfl hworker
    | putResult i state => exact absurd rfl hworker
    | raise i => exact absurd rfl hworker
    | taskDone i => exact absurd rfl hworker
    | kill i => exact absurd rfl hworker

/-! ## Accounts -/

variable {s t : System Key}

theorem filterMap_split (pre : List (Worker Key)) (worker : Worker Key)
    (post : List (Worker Key)) : (pre ++ worker :: post).filterMap Worker.work? =
      pre.filterMap Worker.work? ++ (worker.work?.toList ++ post.filterMap Worker.work?) := by
  rw [List.filterMap_append, List.filterMap_cons]
  cases worker.work? <;> rfl

/-- A step of a worker leaves the pending commands, or executes one of them. -/
theorem Moved.pending (h : Moved s t) :
    t.executor = s.executor ∧ t.submitted = s.submitted ∧ t.reported = s.reported ∧
      (t.pending.Perm s.pending ∧ t.outcomes = s.outcomes ∧ t.resultQueue = s.resultQueue ∨
        ∃ work state, s.pending.Perm (work :: t.pending) ∧
          t.outcomes = s.outcomes ++ [(work, state)] ∧
          t.resultQueue = s.resultQueue ++ [(work.1, state)]) := by
  obtain ⟨pre, old, post, new, s', hworkers, hmove, rfl⟩ := h
  simp only [System.pending, System.queued, System.working, hworkers, filterMap_split,
    List.perm_iff_count, List.count_append, List.count_cons]
  cases hmove with
  | get hqueue =>
    refine ⟨rfl, rfl, rfl, .inl ⟨fun work' => ?_, rfl, rfl⟩⟩
    simp only [hqueue, Worker.work?, Option.toList, List.filterMap_cons, id, List.count_cons,
      List.count_nil]
    omega
  | pill hqueue =>
    refine ⟨rfl, rfl, rfl, .inl ⟨fun work' => ?_, rfl, rfl⟩⟩
    simp only [hqueue, Worker.work?, List.filterMap_cons, id]
  | put work state =>
    have hnew : (if s.unlimited then (.exited : Worker Key) else .executed).work? = none := by
      split <;> rfl
    refine ⟨rfl, rfl, rfl, .inr ⟨work, state, fun work' => ?_, rfl, rfl⟩⟩
    rw [hnew]
    simp only [Worker.work?, Option.toList, List.count_cons, List.count_nil]
    omega
  | raise work =>
    have hnew : (if s.unlimited then (.died : Worker Key) else .raised).work? = none := by
      split <;> rfl
    refine ⟨rfl, rfl, rfl, .inl ⟨fun work' => ?_, rfl, rfl⟩⟩
    rw [hnew]
    simp only [Worker.work?, Option.toList, List.count_append, List.count_cons, List.count_nil]
    omega
  | killWorking work =>
    refine ⟨rfl, rfl, rfl, .inl ⟨fun work' => ?_, rfl, rfl⟩⟩
    simp only [Worker.work?, Option.toList, List.count_append, List.count_cons, List.count_nil]
    omega
  | kill _ hwork =>
    refine ⟨rfl, rfl, rfl, .inl ⟨fun work' => ?_, rfl, rfl⟩⟩
    rw [hwork]
    rfl
  | executed => exact ⟨rfl, rfl, rfl, .inl ⟨fun _ => rfl, rfl, rfl⟩⟩
  | poisoned => exact ⟨rfl, rfl, rfl, .inl ⟨fun _ => rfl, rfl, rfl⟩⟩
  | raised => exact ⟨rfl, rfl, rfl, .inl ⟨fun _ => rfl, rfl, rfl⟩⟩
  | killWaiting => exact ⟨rfl, rfl, rfl, .inl ⟨fun _ => rfl, rfl, rfl⟩⟩

theorem countP_split (holds : Worker Key → Bool) (pre : List (Worker Key)) (worker : Worker Key)
    (post : List (Worker Key)) : (pre ++ worker :: post).countP holds =
      pre.countP holds + (holds worker).toNat + post.countP holds := by
  rw [List.countP_append, List.countP_cons]
  cases holds worker <;> simp <;> omega

theorem Moved.failures (h : Moved s t) (hs : s.lost.length ≤ s.workers.countP Worker.failed) :
    t.lost.length ≤ t.workers.countP Worker.failed := by
  obtain ⟨pre, old, post, new, s', hworkers, hmove, rfl⟩ := h
  rw [hworkers, countP_split] at hs
  rw [countP_split]
  cases hmove with
  | get _ | pill _ | executed | poisoned | raised | killWaiting =>
    simp only [Worker.failed, Bool.toNat_true, Bool.toNat_false] at hs ⊢
    omega
  | put work state =>
    simp only [Worker.failed, Bool.toNat_false] at hs
    dsimp only
    omega
  | raise work =>
    have hnew : (if s.unlimited then (.died : Worker Key) else .raised).failed = true := by
      split <;> rfl
    rw [hnew, List.length_append, List.length_singleton]
    simp only [Worker.failed, Bool.toNat_true, Bool.toNat_false] at hs ⊢
    omega
  | killWorking work =>
    rw [List.length_append, List.length_singleton]
    simp only [Worker.failed, Bool.toNat_true, Bool.toNat_false] at hs ⊢
    omega
  | kill _ _ =>
    have hold := Bool.toNat_le old.failed
    simp only [Worker.failed, Bool.toNat_true]
    omega

/-- What holds of the commands. -/
structure Accounts (s : System Key) : Prop where
  once : s.submitted.Perm (s.pending ++ s.outcomes.map Prod.fst)
  inOrder : s.outcomes.map (fun o => (o.1.1, o.2)) = s.reported ++ s.resultQueue
  slots : ∀ key ∈ s.executor.running,
    key ∈ s.pending.map Prod.fst ∨ key ∈ s.resultQueue.map Prod.fst
  failures : s.lost.length ≤ s.workers.countP Worker.failed

theorem Accounts.moved (h : Accounts s) (hmoved : Moved s t) : Accounts t := by
  obtain ⟨hexecutor, hsubmitted, hreported, hpending⟩ := hmoved.pending
  have hfailures := hmoved.failures h.failures
  obtain ⟨hperm, houtcomes, hresults⟩ | ⟨work, state, hperm, houtcomes, hresults⟩ := hpending
  · refine ⟨?_, ?_, ?_, hfailures⟩
    · rw [hsubmitted, houtcomes]
      exact h.once.trans (hperm.symm.append_right _)
    · rw [houtcomes, hreported, hresults]
      exact h.inOrder
    · rw [hexecutor, hresults]
      exact fun key hkey => (h.slots key hkey).imp_left (hperm.symm.map _).mem_iff.mp
  · refine ⟨?_, ?_, ?_, hfailures⟩
    · rw [hsubmitted, houtcomes, List.map_append]
      refine (h.once.trans (hperm.append_right _)).trans ?_
      rw [List.cons_append, ← List.append_assoc]
      exact (List.perm_append_singleton work _).symm
    · rw [houtcomes, hreported, hresults, List.map_append, h.inOrder, List.append_assoc]
      rfl
    · rw [hexecutor, hresults, List.map_append]
      intro key hkey
      obtain hmem | hmem := h.slots key hkey
      · obtain heq | hmem := List.mem_cons.mp ((hperm.map _).mem_iff.mp hmem)
        · exact .inr (List.mem_append_right _ (List.mem_singleton.mpr heq))
        · exact .inl hmem
      · exact .inr (List.mem_append_left _ hmem)

theorem Accounts.report (h : Accounts s) : Accounts s.report := by
  unfold System.report
  split
  · exact h
  · next key state rest hresults =>
    refine ⟨h.once, ?_, fun other hother => ?_, h.failures⟩
    · rw [List.append_assoc, h.inOrder, hresults]
      rfl
    · have hother := List.mem_filter.mp hother
      obtain hmem | hmem := h.slots other hother.1
      · exact .inl hmem
      · rw [hresults] at hmem
        obtain rfl | hmem := List.mem_cons.mp hmem
        · exact absurd rfl (of_decide_eq_true hother.2)
        · exact .inr hmem

theorem executor_executeAsync (s : System Key) (work : Work Key) :
    (s.executeAsync work).executor = s.executor := by
  unfold System.executeAsync
  split <;> rfl

theorem Accounts.executeAsync (h : Accounts s) (work : Work Key) :
    (s.executeAsync work).pending.Perm (s.pending ++ [work]) ∧
      Accounts (s.executeAsync work) := by
  have hpending : (s.executeAsync work).pending.Perm (s.pending ++ [work]) := by
    unfold System.executeAsync
    simp only [List.perm_iff_count, List.count_append]
    split
    · intro work'
      simp only [System.pending, System.queued, System.working, List.filterMap_append,
        List.filterMap_cons, Worker.work?, List.filterMap_nil, List.count_append]
      omega
    · intro work'
      simp only [System.pending, System.queued, System.working, List.filterMap_append,
        List.filterMap_cons, id, List.filterMap_nil, List.count_append]
      omega
  refine ⟨hpending, ?_⟩
  have hsame : (s.executeAsync work).submitted = s.submitted ++ [work] ∧
      (s.executeAsync work).outcomes = s.outcomes ∧ (s.executeAsync work).reported = s.reported ∧
      (s.executeAsync work).resultQueue = s.resultQueue ∧ (s.executeAsync work).lost = s.lost ∧
      (s.executeAsync work).workers.countP Worker.failed = s.workers.countP Worker.failed := by
    unfold System.executeAsync
    split
    · exact ⟨rfl, rfl, rfl, rfl, rfl, by simp [Worker.failed]⟩
    · exact ⟨rfl, rfl, rfl, rfl, rfl, rfl⟩
  obtain ⟨hsubmitted, houtcomes, hreported, hresults, hlost, hworkers⟩ := hsame
  refine ⟨?_, ?_, ?_, ?_⟩
  · rw [hsubmitted, houtcomes]
    refine (h.once.append_right _).trans (List.Perm.trans ?_ (hpending.symm.append_right _))
    rw [List.append_assoc, List.append_assoc]
    exact List.perm_append_comm.append_left _
  · rw [houtcomes, hreported, hresults]
    exact h.inOrder
  · rw [executor_executeAsync, hresults]
    refine fun key hkey => (h.slots key hkey).imp_left fun hmem => ?_
    rw [(hpending.map _).mem_iff, List.map_append]
    exact List.mem_append_left _ hmem
  · rw [hlost, hworkers]
    exact h.failures

theorem Accounts.processTask (h : Accounts s) (key : Key) (command : List String) :
    Accounts (s.processTask key command) := by
  unfold System.processTask
  dsimp only
  split
  · obtain ⟨hpending, haccounts⟩ := h.executeAsync (key, command)
    refine ⟨haccounts.once, haccounts.inOrder, fun other hother => ?_, haccounts.failures⟩
    have hother : other ∈ s.executor.running ∨ other = key := by
      dsimp only at hother
      split at hother
      · exact .inl hother
      · obtain hmem | hmem := List.mem_append.mp hother
        · exact .inl hmem
        · exact .inr (List.mem_singleton.mp hmem)
    obtain hold | rfl := hother
    · rw [← executor_executeAsync s (key, command)] at hold
      exact haccounts.slots other hold
    · refine .inl ((hpending.map _).mem_iff.mpr ?_)
      rw [List.map_append]
      exact List.mem_append_right _ (List.mem_singleton_self _)
  · exact ⟨h.once, h.inOrder, h.slots, h.failures⟩

theorem Accounts.advanceEnd (h : Accounts s) : Accounts s.advanceEnd := by
  unfold System.advanceEnd
  split
  · exact ⟨h.once, h.inOrder, h.slots, h.failures⟩
  · have hqueued : (s.taskQueue ++ [none]).filterMap id = s.taskQueue.filterMap id := by simp
    refine ⟨?_, h.inOrder, ?_, h.failures⟩
    · simp only [System.pending, System.queued, hqueued]
      exact h.once
    · simp only [System.pending, System.queued, hqueued]
      exact h.slots
  · split
    · exact ⟨h.once, h.inOrder, h.slots, h.failures⟩
    · exact h
  · split
    · exact ⟨h.once, h.inOrder, h.slots, h.failures⟩
    · exact h.report
  · split
    · exact h.report
    · exact ⟨h.once, h.inOrder, h.slots, h.failures⟩
  · exact h

theorem Accounts.step (h : Accounts s) (event : Event Key) : Accounts (step s event) :=
  step_keeps event h (fun _ => h.moved) (fun _ => h.processTask) h.report h.advanceEnd

theorem Accounts.start (parallelism : Nat) : Accounts (start parallelism : System Key) := by
  have hworking :
      (List.replicate parallelism (.waiting : Worker Key)).filterMap Worker.work? = [] := by
    rw [List.filterMap_eq_nil_iff]
    intro worker hworker
    rw [List.eq_of_mem_replicate hworker]
    rfl
  refine ⟨?_, rfl, fun _ h => absurd h List.not_mem_nil, Nat.zero_le _⟩
  simp [LocalExecutor.start, System.pending, System.queued, System.working, hworking]

/-! ## Limited parallelism -/

theorem executeAsync_limited (h : s.unlimited = false) (work : Work Key) :
    s.executeAsync work = { s with
      taskQueue := s.taskQueue ++ [some work]
      unfinishedTasks := s.unfinishedTasks + 1
      submitted := s.submitted ++ [work] } := by
  rw [System.executeAsync, h]
  rfl

/-- What holds of the workers that share a task queue. -/
structure Limited (parallelism : Nat) (s : System Key) : Prop where
  limited : s.executor.parallelism = parallelism
  workers : s.workers.length = parallelism
  unfinished : s.unfinishedTasks = s.taskQueue.length + s.workers.countP Worker.unfinished
  pills : parallelism ≤ s.phase.pills parallelism + s.taskQueue.countP Option.isNone +
    s.workers.countP Worker.leaving
  phase : s.phase ≠ .draining
  joined : s.phase = .syncing ∨ s.phase = .returned → s.unfinishedTasks = 0
  reported : s.phase = .returned → s.resultQueue = []

variable {parallelism : Nat}

theorem Limited.not_unlimited (h : Limited parallelism s) (hpos : parallelism ≠ 0) :
    s.unlimited = false := by
  rw [System.unlimited, h.limited]
  exact decide_eq_false hpos

theorem Limited.moved (h : Limited parallelism s) (hpos : parallelism ≠ 0)
    (hmoved : Moved s t) : Limited parallelism t := by
  have hmode := h.not_unlimited hpos
  obtain ⟨pre, old, post, new, s', hworkers, hmove, rfl⟩ := hmoved
  obtain ⟨hlimited, hlength, hunfinished, hpills, hphase, hjoined, hreported⟩ := h
  have hlength : ∀ worker : Worker Key, (pre ++ worker :: post).length = parallelism := by
    intro worker
    rw [List.length_append, List.length_cons, ← hlength, hworkers, List.length_append,
      List.length_cons]
  rw [hworkers, countP_split] at hunfinished hpills
  cases hmove with
  | get hhead =>
    simp only [hhead, List.length_cons, List.countP_cons, Worker.unfinished, Worker.leaving,
      Option.isNone_some, Bool.toNat_false, Bool.false_eq_true, if_false] at hunfinished hpills
    refine ⟨hlimited, hlength _, ?_, ?_, hphase, hjoined, hreported⟩
    · simp only [countP_split, Worker.unfinished, Bool.toNat_true]
      omega
    · simp only [countP_split, Worker.leaving, Bool.toNat_false]
      omega
  | pill hhead =>
    simp only [hhead, List.length_cons, List.countP_cons, Worker.unfinished, Worker.leaving,
      Option.isNone_none, Bool.toNat_false, if_true] at hunfinished hpills
    refine ⟨hlimited, hlength _, ?_, ?_, hphase, hjoined, hreported⟩
    · simp only [countP_split, Worker.unfinished, Bool.toNat_true]
      omega
    · simp only [countP_split, Worker.leaving, Bool.toNat_true]
      omega
  | put work state =>
    simp only [Worker.unfinished, Worker.leaving, Bool.toNat_true, Bool.toNat_false]
      at hunfinished hpills
    refine ⟨hlimited, hlength _, ?_, ?_, hphase, hjoined, fun hreturned => ?_⟩
    · simp only [hmode, countP_split, Worker.unfinished, Bool.false_eq_true, if_false,
        Bool.toNat_true]
      omega
    · simp only [hmode, countP_split, Worker.leaving, Bool.false_eq_true, if_false,
        Bool.toNat_false]
      omega
    · have := hjoined (.inr hreturned)
      omega
  | raise work =>
    simp only [Worker.unfinished, Worker.leaving, Bool.toNat_true, Bool.toNat_false]
      at hunfinished hpills
    refine ⟨hlimited, hlength _, ?_, ?_, hphase, hjoined, hreported⟩
    · simp only [hmode, countP_split, Worker.unfinished, Bool.false_eq_true, if_false,
        Bool.toNat_true]
      omega
    · simp only [hmode, countP_split, Worker.leaving, Bool.false_eq_true, if_false,
        Bool.toNat_false]
      omega
  | executed | poisoned | raised =>
    simp only [Worker.unfinished, Worker.leaving, Bool.toNat_true, Bool.toNat_false]
      at hunfinished hpills
    refine ⟨hlimited, hlength _, ?_, ?_, hphase, fun hlate => ?_, hreported⟩
    · simp only [countP_split, Worker.unfinished, Bool.toNat_false]
      omega
    · simp only [countP_split, Worker.leaving, Bool.toNat_true, Bool.toNat_false]
      omega
    · have := hjoined hlate
      omega
  | killWaiting =>
    simp only [Worker.unfinished, Worker.leaving, Bool.toNat_false] at hunfinished hpills
    refine ⟨hlimited, hlength _, ?_, ?_, hphase, hjoined, hreported⟩
    · simp only [countP_split, Worker.unfinished, Bool.toNat_false]
      omega
    · simp only [countP_split, Worker.leaving, Bool.toNat_false]
      omega
  | killWorking work =>
    simp only [Worker.unfinished, Worker.leaving, Bool.toNat_true, Bool.toNat_false]
      at hunfinished hpills
    refine ⟨hlimited, hlength _, ?_, ?_, hphase, hjoined, hreported⟩
    · simp only [countP_split, Worker.unfinished, Bool.toNat_true]
      omega
    · simp only [countP_split, Worker.leaving, Bool.toNat_true]
      omega
  | kill hold _ =>
    have hleaving := Bool.toNat_le old.leaving
    simp only [hold, Bool.toNat_true] at hunfinished
    refine ⟨hlimited, hlength _, ?_, ?_, hphase, hjoined, hreported⟩
    · simp only [countP_split, Worker.unfinished, Bool.toNat_true]
      omega
    · simp only [countP_split, Worker.leaving, Bool.toNat_true]
      omega

theorem Limited.report (h : Limited parallelism s) : Limited parallelism s.report := by
  unfold System.report
  split
  · exact h
  · next hresults =>
    refine ⟨h.limited, h.workers, h.unfinished, h.pills, h.phase, h.joined, fun hreturned => ?_⟩
    rw [h.reported hreturned] at hresults
    cases hresults

theorem Limited.processTask (h : Limited parallelism s) (hpos : parallelism ≠ 0)
    (hphase : s.phase = .started) (key : Key) (command : List String) :
    Limited parallelism (s.processTask key command) := by
  unfold System.processTask
  dsimp only
  split
  · rw [executeAsync_limited (h.not_unlimited hpos)]
    refine ⟨h.limited, h.workers, ?_, ?_, h.phase, ?_, h.reported⟩
    · dsimp only
      rw [List.length_append, List.length_singleton, h.unfinished]
      omega
    · dsimp only
      rw [List.countP_append]
      exact Nat.le_trans h.pills (by omega)
    · dsimp only
      rw [hphase]
      rintro (h | h) <;> cases h
  · exact ⟨h.limited, h.workers, h.unfinished, h.pills, h.phase, h.joined, h.reported⟩

theorem Limited.advanceEnd (h : Limited parallelism s) (hpos : parallelism ≠ 0) :
    Limited parallelism s.advanceEnd := by
  unfold System.advanceEnd
  split
  · next hphase =>
    have hpills := h.pills
    rw [hphase] at hpills
    simp only [h.not_unlimited hpos, Bool.false_eq_true, if_false]
    refine ⟨h.limited, h.workers, h.unfinished, ?_, by simp, by simp, by simp⟩
    simpa only [Phase.pills, h.workers] using hpills
  · next pills hphase =>
    have hpills := h.pills
    rw [hphase] at hpills
    refine ⟨h.limited, h.workers, ?_, ?_, by simp, by simp, by simp⟩
    · dsimp only
      rw [List.length_append, List.length_singleton, h.unfinished]
      omega
    · simp only [Phase.pills, List.countP_append, List.countP_singleton, Option.isNone_none,
        if_true] at hpills ⊢
      omega
  · next hphase =>
    split
    · next hjoined =>
      have hpills := h.pills
      rw [hphase] at hpills
      exact ⟨h.limited, h.workers, h.unfinished, hpills, by simp, fun _ => hjoined, by simp⟩
    · exact h
  · next hphase =>
    split
    · next hresults =>
      have hpills := h.pills
      rw [hphase] at hpills
      exact ⟨h.limited, h.workers, h.unfinished, hpills, by simp,
        fun _ => h.joined (.inl hphase), fun _ => hresults⟩
    · exact h.report
  · next hphase => exact absurd hphase h.phase
  · exact h

theorem Limited.step (h : Limited parallelism s) (hpos : parallelism ≠ 0) (event : Event Key) :
    Limited parallelism (step s event) :=
  step_keeps event h (fun _ => h.moved hpos) (h.processTask hpos) h.report (h.advanceEnd hpos)

theorem Limited.start (parallelism : Nat) :
    Limited parallelism (start parallelism : System Key) where
  limited := rfl
  workers := List.length_replicate
  unfinished := by simp [LocalExecutor.start, List.countP_replicate, Worker.unfinished]
  pills := Nat.le_add_right_of_le (Nat.le_add_right _ _)
  phase := by simp [LocalExecutor.start]
  joined := by simp [LocalExecutor.start]
  reported := by simp [LocalExecutor.start]

/-! ## Unlimited parallelism -/

/-- A process of `UnlimitedParallelism`. -/
def Worker.single : Worker Key → Bool
  | .working _ | .exited | .died | .killed => true
  | .waiting | .executed | .poisoned | .raised => false

/-- What holds of the processes that execute one command each. -/
structure Unlimited (s : System Key) : Prop where
  unlimited : s.executor.parallelism = 0
  taskQueue : s.taskQueue = []
  active : s.workersActive =
    s.working.length + s.resultQueue.length + s.workers.countP Worker.failed
  workers : ∀ worker ∈ s.workers, worker.single = true
  phase : s.phase = .started ∨ s.phase = .draining ∨ s.phase = .returned ∧ s.workersActive ≤ 0

theorem executeAsync_unlimited (h : s.unlimited = true) (work : Work Key) :
    s.executeAsync work = { s with
      workers := s.workers ++ [.working work]
      workersActive := s.workersActive + 1
      submitted := s.submitted ++ [work] } := by
  rw [System.executeAsync, h]
  rfl

theorem Unlimited.mode (h : Unlimited s) : s.unlimited = true := by
  rw [System.unlimited, h.unlimited]
  rfl

theorem Unlimited.moved (h : Unlimited s) (hmoved : Moved s t) : Unlimited t := by
  have hmode := h.mode
  obtain ⟨pre, old, post, new, s', hworkers, hmove, rfl⟩ := hmoved
  obtain ⟨hunlimited, hqueue, hactive, hsingle, hphase⟩ := h
  have hold : old.single = true := hsingle old (by rw [hworkers]; simp)
  have hset : ∀ worker : Worker Key, worker.single = true →
      ∀ other ∈ pre ++ worker :: post, other.single = true := by
    intro worker hworker other hother
    obtain hmem | hmem := List.mem_append.mp hother
    · exact hsingle other (by rw [hworkers]; exact List.mem_append_left _ hmem)
    · obtain rfl | hmem := List.mem_cons.mp hmem
      · exact hworker
      · exact hsingle other
          (by rw [hworkers]; exact List.mem_append_right _ (List.mem_cons_of_mem _ hmem))
  simp only [System.working, hworkers, filterMap_split, countP_split, List.length_append] at hactive
  cases hmove with
  | get hhead =>
    rw [hqueue] at hhead
    cases hhead
  | pill hhead =>
    rw [hqueue] at hhead
    cases hhead
  | put work state =>
    refine ⟨hunlimited, hqueue, ?_, ?_, hphase⟩
    · simp only [System.working, hmode, filterMap_split, countP_split, List.length_append,
        Worker.work?, Worker.failed, if_true, Option.toList, Bool.toNat_false, List.length_cons,
        List.length_nil] at hactive ⊢
      omega
    · simp only [hmode, if_true]
      exact hset .exited rfl
  | raise work =>
    refine ⟨hunlimited, hqueue, ?_, ?_, hphase⟩
    · simp only [System.working, hmode, filterMap_split, countP_split, List.length_append,
        Worker.work?, Worker.failed, if_true, Option.toList, Bool.toNat_false, Bool.toNat_true,
        List.length_cons, List.length_nil] at hactive ⊢
      omega
    · simp only [hmode, if_true]
      exact hset .died rfl
  | executed => cases hold
  | poisoned => cases hold
  | raised => cases hold
  | killWaiting => cases hold
  | killWorking work =>
    refine ⟨hunlimited, hqueue, ?_, hset .killed rfl, hphase⟩
    simp only [System.working, filterMap_split, countP_split, List.length_append, Worker.work?,
      Worker.failed, Option.toList, Bool.toNat_false, Bool.toNat_true, List.length_cons,
      List.length_nil] at hactive ⊢
    omega
  | kill hunfinished hwork =>
    cases old with
    | killed =>
      refine ⟨hunlimited, hqueue, ?_, hset .killed rfl, hphase⟩
      simp only [System.working, filterMap_split, countP_split, List.length_append] at hactive ⊢
      exact hactive
    | working work => cases hwork
    | executed => cases hold
    | poisoned => cases hold
    | raised => cases hold
    | waiting => cases hunfinished
    | exited => cases hunfinished
    | died => cases hunfinished

theorem Unlimited.report (h : Unlimited s) : Unlimited s.report := by
  unfold System.report
  split
  · exact h
  · next hresults =>
    have hactive := h.active
    rw [hresults, List.length_cons] at hactive
    refine ⟨h.unlimited, h.taskQueue, ?_, h.workers, ?_⟩
    · simp only [h.mode, if_true, System.working] at hactive ⊢
      omega
    · simp only [h.mode, if_true]
      exact h.phase.imp_right (.imp_right fun hreturned => ⟨hreturned.1, by omega⟩)

theorem Unlimited.processTask (h : Unlimited s) (hphase : s.phase = .started) (key : Key)
    (command : List String) : Unlimited (s.processTask key command) := by
  unfold System.processTask
  dsimp only
  split
  · rw [executeAsync_unlimited h.mode]
    refine ⟨h.unlimited, h.taskQueue, ?_, fun worker hworker => ?_, .inl hphase⟩
    · have hactive := h.active
      simp only [System.working, List.filterMap_append, List.countP_append, List.length_append,
        List.filterMap_cons, Worker.work?, List.filterMap_nil, List.length_singleton,
        List.countP_singleton, Worker.failed, Bool.false_eq_true, if_false] at hactive ⊢
      omega
    · obtain hmem | hmem := List.mem_append.mp hworker
      · exact h.workers worker hmem
      · rw [List.mem_singleton.mp hmem]
        rfl
  · exact ⟨h.unlimited, h.taskQueue, h.active, h.workers, h.phase⟩

theorem Unlimited.advanceEnd (h : Unlimited s) : Unlimited s.advanceEnd := by
  have hphase := h.phase
  unfold System.advanceEnd
  split
  · simp only [h.mode, if_true]
    exact ⟨h.unlimited, h.taskQueue, h.active, h.workers, .inr (.inl rfl)⟩
  · next hpoisoning => simp [hpoisoning] at hphase
  · next hpoisoning => simp [hpoisoning] at hphase
  · next hsyncing => simp [hsyncing] at hphase
  · split
    · exact h.report
    · next hactive =>
      exact ⟨h.unlimited, h.taskQueue, h.active, h.workers,
        .inr (.inr ⟨rfl, Int.not_lt.mp hactive⟩)⟩
  · exact h

theorem Unlimited.step (h : Unlimited s) (event : Event Key) : Unlimited (step s event) :=
  step_keeps event h (fun _ => h.moved) h.processTask h.report h.advanceEnd

theorem Unlimited.start : Unlimited (start 0 : System Key) :=
  ⟨rfl, rfl, rfl, fun _ h => absurd h List.not_mem_nil, .inl rfl⟩

/-! ## Commands are executed and reported once -/

/-- What a maintainer may rely on in every state. -/
structure Accounted (parallelism : Nat) (s : System Key) : Prop where
  once : s.submitted.Perm
    (s.queued ++ s.working ++ s.lost ++ s.outcomes.map Prod.fst)
  inOrder : s.outcomes.map (fun o => (o.1.1, o.2)) = s.reported ++ s.resultQueue
  slots : ∀ key ∈ s.executor.running,
    key ∈ s.pending.map Prod.fst ∨ key ∈ s.resultQueue.map Prod.fst
  bounded : parallelism ≠ 0 → s.working.length ≤ parallelism
  ended : s.phase = .returned → s.submitted.Perm (s.outcomes.map Prod.fst) ∧
    s.reported = s.outcomes.map (fun o => (o.1.1, o.2)) ∧ s.executor.running = [] ∧
      ∀ worker ∈ s.workers, worker = .exited

/-- The workers have all left, with nothing lost or unfinished. -/
theorem Limited.exited (h : Limited parallelism s) (hreturned : s.phase = .returned) :
    s.taskQueue = [] ∧ ∀ worker ∈ s.workers, worker = .exited := by
  have hunfinished := h.unfinished
  rw [h.joined (.inr hreturned)] at hunfinished
  have hqueue : s.taskQueue = [] := List.eq_nil_of_length_eq_zero (by omega)
  have hleaving := h.pills
  rw [hqueue, hreturned, ← h.workers] at hleaving
  have hall : s.workers.countP Worker.leaving = s.workers.length :=
    Nat.le_antisymm List.countP_le_length (by simpa [Phase.pills] using hleaving)
  have hnone : s.workers.countP Worker.unfinished = 0 := by omega
  refine ⟨hqueue, fun worker hworker => ?_⟩
  have hleaves := List.countP_eq_length.mp hall worker hworker
  have hdone := List.countP_eq_zero.mp hnone worker hworker
  cases worker with
  | exited => rfl
  | poisoned => exact absurd rfl hdone
  | killed => exact absurd rfl hdone
  | waiting => cases hleaves
  | working work => cases hleaves
  | executed => cases hleaves
  | raised => cases hleaves
  | died => cases hleaves

theorem Unlimited.exited (h : Unlimited s) (hreturned : s.phase = .returned) :
    s.resultQueue = [] ∧ ∀ worker ∈ s.workers, worker = .exited := by
  have hactive := h.active
  have hphase := h.phase
  simp only [hreturned, reduceCtorEq, true_and, false_or] at hphase
  have hworking : s.working = [] := List.eq_nil_of_length_eq_zero (by omega)
  have hresults : s.resultQueue = [] := List.eq_nil_of_length_eq_zero (by omega)
  have hfailed : s.workers.countP Worker.failed = 0 := by omega
  refine ⟨hresults, fun worker hworker => ?_⟩
  have hsingle := h.workers worker hworker
  have hsound := List.countP_eq_zero.mp hfailed worker hworker
  have hidle := List.filterMap_eq_nil_iff.mp hworking worker hworker
  cases worker with
  | exited => rfl
  | working work => cases hidle
  | died => exact absurd rfl hsound
  | killed => exact absurd rfl hsound
  | waiting => cases hsingle
  | executed => cases hsingle
  | poisoned => cases hsingle
  | raised => cases hsingle

theorem Accounts.ended (h : Accounts s) (hqueue : s.taskQueue = []) (hresults : s.resultQueue = [])
    (hexited : ∀ worker ∈ s.workers, worker = .exited) :
    s.submitted.Perm (s.outcomes.map Prod.fst) ∧
      s.reported = s.outcomes.map (fun o => (o.1.1, o.2)) ∧ s.executor.running = [] := by
  have hlost : s.lost = [] := by
    have hfailures := h.failures
    rw [List.countP_eq_zero.mpr fun worker hworker => by
      rw [hexited worker hworker]
      exact Bool.false_ne_true]
      at hfailures
    exact List.eq_nil_of_length_eq_zero (Nat.le_zero.mp hfailures)
  have hworking : s.working = [] := by
    refine List.filterMap_eq_nil_iff.mpr fun worker hworker => ?_
    rw [hexited worker hworker]
    rfl
  have hpending : s.pending = [] := by
    simp [System.pending, System.queued, hqueue, hworking, hlost]
  refine ⟨?_, ?_, ?_⟩
  · simpa [hpending] using h.once
  · rw [h.inOrder, hresults, List.append_nil]
  · refine List.eq_nil_iff_forall_not_mem.mpr fun key hkey => ?_
    simpa [hpending, hresults] using h.slots key hkey

/-- **Every command is executed and reported once.** -/
theorem accounted_of_run (parallelism : Nat) (events : List (Event Key)) :
    ∀ s ∈ Transition.states step (start parallelism) events, Accounted parallelism s := by
  intro s hs
  have haccounts : Accounts s :=
    Transition.states_invariant (fun _ event h => h.step event) (Accounts.start parallelism) s hs
  by_cases hpos : parallelism = 0
  · subst hpos
    have hinv : Unlimited s :=
      Transition.states_invariant (fun _ event h => h.step event) Unlimited.start s hs
    refine ⟨haccounts.once, haccounts.inOrder, haccounts.slots, fun h => absurd rfl h,
      fun hreturned => ?_⟩
    obtain ⟨hresults, hexited⟩ := hinv.exited hreturned
    obtain ⟨honce, hreported, hrunning⟩ := haccounts.ended hinv.taskQueue hresults hexited
    exact ⟨honce, hreported, hrunning, hexited⟩
  · have hinv : Limited parallelism s :=
      Transition.states_invariant (fun _ event h => h.step hpos event) (Limited.start parallelism)
        s hs
    refine ⟨haccounts.once, haccounts.inOrder, haccounts.slots, fun _ => ?_, fun hreturned => ?_⟩
    · rw [← hinv.workers]
      exact List.length_filterMap_le _ _
    · obtain ⟨hqueue, hexited⟩ := hinv.exited hreturned
      obtain ⟨honce, hreported, hrunning⟩ :=
        haccounts.ended hqueue (hinv.reported hreturned) hexited
      exact ⟨honce, hreported, hrunning, hexited⟩

/-- One command is executed, and `end` is called. -/
def oneCommand : List (Event Nat) :=
  [.processTask 0 ["airflow", "tasks", "run", "dag", "task"], .get 0, .putResult 0 .success,
    .taskDone 0, .advanceEnd]

theorem oneCommand_accounted : Accounted 1 (oneCommand.foldl step (start 1)) :=
  accounted_of_run 1 oneCommand _ (Transition.foldl_mem_states _ oneCommand)

end Airflow.LocalExecutor
