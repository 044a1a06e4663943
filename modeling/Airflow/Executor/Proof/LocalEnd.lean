import Mathlib.Algebra.Ring.Nat
import Airflow.Executor.Proof.Local

/-!
# `LocalExecutor.end` returns

`end_returns`: as long as no command raises and no worker is killed, `end` returns after a number of
steps that the commands, results and workers bound (`System.left`). The pills are behind all tasks,
so that a worker leaves only when there is no task left (`Ordered`).
-/

namespace Airflow.LocalExecutor

variable {Key : Type} [DecidableEq Key] {s t : System Key} {parallelism : Nat}

/-! ## The steps that are left -/

/-- No command raises and no worker is killed. -/
def Event.Quiet : Event Key → Prop
  | .raise _ | .kill _ => False
  | _ => True

/-- No worker has failed. -/
def System.Sound (s : System Key) : Prop := ∀ worker ∈ s.workers, worker.failed = false

/-- The steps that a worker has still to take, with that of the executor for the result. -/
def Worker.left : Worker Key → Nat
  | .working _ => 3
  | .executed | .poisoned | .raised => 1
  | .waiting | .exited | .died | .killed => 0

def Phase.left : Phase → Nat
  | .started | .returned => 0
  | .poisoning pills => 3 * pills + 2
  | .syncing | .draining => 1

/-- The steps of `end` and of the workers until `end` returns. -/
def System.left (s : System Key) : Nat :=
  4 * s.taskQueue.countP Option.isSome + 2 * s.taskQueue.countP Option.isNone +
    (s.workers.map Worker.left).sum + s.resultQueue.length + s.phase.left

theorem report_workers (s : System Key) : s.report.workers = s.workers := by
  unfold System.report
  split <;> rfl

theorem Sound.step (h : s.Sound) (hended : s.phase ≠ .started) {event : Event Key}
    (hquiet : event.Quiet) : (step s event).Sound := by
  have hset : ∀ (i : Nat) {new : Worker Key}, new.failed = false →
      ∀ worker ∈ s.workers.set i new, worker.failed = false := by
    intro i new hnew worker hworker
    obtain hmem | rfl := List.mem_or_eq_of_mem_set hworker
    · exact h worker hmem
    · exact hnew
  have hreport : s.report.Sound := by
    rw [System.Sound, report_workers]
    exact h
  cases event with
  | processTask key command =>
    simp only [LocalExecutor.step, if_neg hended]
    exact h
  | sync =>
    simp only [LocalExecutor.step, if_neg hended]
    exact h
  | advanceEnd =>
    simp only [LocalExecutor.step, System.advanceEnd]
    repeat' split
    all_goals first | exact h | exact hreport
  | get i =>
    simp only [LocalExecutor.step, System.get]
    split
    · exact hset i rfl
    · exact hset i rfl
    · exact h
  | putResult i state =>
    simp only [LocalExecutor.step, System.putResult]
    split
    · exact hset i (by split <;> rfl)
    · exact h
  | taskDone i =>
    simp only [LocalExecutor.step, System.taskDone]
    split
    · exact hset i rfl
    · exact hset i rfl
    · next hraised => exact absurd (h _ (List.mem_of_getElem? hraised)) (by simp [Worker.failed])
    · exact h
  | raise i => cases hquiet
  | kill i => cases hquiet

theorem sum_split (pre : List (Worker Key)) (worker : Worker Key) (post : List (Worker Key)) :
    ((pre ++ worker :: post).map Worker.left).sum =
      (pre.map Worker.left).sum + worker.left + (post.map Worker.left).sum := by
  rw [List.map_append, List.map_cons, List.sum_append, List.sum_cons, Nat.add_assoc]

theorem Moved.left (h : Moved s t) (hsound : t.Sound) : t.left < s.left := by
  obtain ⟨pre, old, post, new, s', hworkers, hmove, rfl⟩ := h
  have hnew : new.failed = false := hsound new (List.mem_append_right _ List.mem_cons_self)
  simp only [System.left, hworkers, sum_split]
  cases hmove with
  | get hhead =>
    simp only [hhead, List.countP_cons, Option.isSome_some, Option.isNone_some, Worker.left,
      if_true, Bool.false_eq_true, if_false]
    omega
  | pill hhead =>
    simp only [hhead, List.countP_cons, Option.isSome_none, Option.isNone_none, Worker.left,
      if_true, Bool.false_eq_true, if_false]
    omega
  | put work state =>
    have hleft : (if s.unlimited then (.exited : Worker Key) else .executed).left ≤ 1 := by
      split <;> simp [Worker.left]
    have hwork : (Worker.working work).left = 3 := rfl
    rw [hwork, List.length_append, List.length_singleton]
    dsimp only
    omega
  | raise work => split at hnew <;> cases hnew
  | executed =>
    simp only [Worker.left]
    omega
  | poisoned =>
    simp only [Worker.left]
    omega
  | raised => cases hnew
  | killWaiting => cases hnew
  | killWorking work => cases hnew
  | kill _ _ => cases hnew

theorem left_report : s.report = s ∨ s.report.left < s.left := by
  unfold System.report
  split
  · exact .inl rfl
  · next hresults =>
    refine .inr ?_
    simp only [System.left, hresults, List.length_cons]
    omega

theorem left_advanceEnd (hended : s.phase ≠ .started) :
    s.advanceEnd = s ∨ s.advanceEnd.left < s.left := by
  unfold System.advanceEnd
  split
  · next hphase => exact absurd hphase hended
  · next pills hphase =>
    refine .inr ?_
    simp only [System.left, hphase, Phase.left, List.countP_append, List.countP_singleton,
      Option.isSome_none, Option.isNone_none, if_true, Bool.false_eq_true, if_false]
    omega
  · next hphase =>
    split
    · refine .inr ?_
      simp only [System.left, hphase, Phase.left]
      omega
    · exact .inl rfl
  · next hphase =>
    split
    · refine .inr ?_
      simp only [System.left, hphase, Phase.left]
      omega
    · exact left_report
  · next hphase =>
    split
    · exact left_report
    · refine .inr ?_
      simp only [System.left, hphase, Phase.left]
      omega
  · exact .inl rfl

/-- After `end` was called, every step that changes something brings its return nearer. -/
theorem left_step (hended : s.phase ≠ .started) (hsound : s.Sound) {event : Event Key}
    (hquiet : event.Quiet) (hchange : step s event ≠ s) : (step s event).left < s.left := by
  by_cases hworker : event.worker?.isSome
  · obtain hsame | hmoved := step_worker s hworker
    · exact absurd hsame hchange
    · exact hmoved.left (Sound.step hsound hended hquiet)
  · cases event with
    | processTask key command => exact absurd (if_neg hended) hchange
    | sync => exact absurd (if_neg hended) hchange
    | advanceEnd => exact (left_advanceEnd hended).resolve_left hchange
    | get i => exact absurd rfl hworker
    | putResult i state => exact absurd rfl hworker
    | raise i => exact absurd rfl hworker
    | taskDone i => exact absurd rfl hworker
    | kill i => exact absurd rfl hworker

/-! ## A step is always possible -/

/-- The worker has read a poison pill, and is not killed. -/
def Worker.exiting : Worker Key → Bool
  | .poisoned | .exited => true
  | _ => false

/-- The poison pills are behind all tasks, and there is none too many. -/
structure Ordered (parallelism : Nat) (s : System Key) : Prop where
  last : s.taskQueue.Pairwise fun item next => item = none → next = none
  gone : ∀ worker ∈ s.workers, worker.exiting = true → ∀ item ∈ s.taskQueue, item = none
  pills : s.phase.pills parallelism + s.taskQueue.countP Option.isNone +
    s.workers.countP Worker.exiting ≤ parallelism

theorem Ordered.moved (h : Ordered parallelism s) (hmode : s.unlimited = false)
    (hmoved : Moved s t) : Ordered parallelism t := by
  obtain ⟨pre, old, post, new, s', hworkers, hmove, rfl⟩ := hmoved
  obtain ⟨hlast, hgone, hpills⟩ := h
  have hkeeps : (new.exiting = true → ∀ item ∈ s.taskQueue, item = none) →
      ∀ worker ∈ pre ++ new :: post, worker.exiting = true →
        ∀ item ∈ s.taskQueue, item = none := by
    intro hnew worker hworker hexiting
    rw [List.mem_append, List.mem_cons] at hworker
    obtain hmem | rfl | hmem := hworker
    · exact hgone worker (by rw [hworkers]; exact List.mem_append_left _ hmem) hexiting
    · exact hnew hexiting
    · exact hgone worker
        (by rw [hworkers]; exact List.mem_append_right _ (List.mem_cons_of_mem _ hmem)) hexiting
  have hold : old.exiting = true → ∀ item ∈ s.taskQueue, item = none :=
    hgone old (by rw [hworkers]; simp)
  rw [hworkers, countP_split] at hpills
  cases hmove with
  | get hhead =>
    rw [hhead] at hlast hkeeps hpills
    refine ⟨hlast.tail, fun worker hworker hexiting item hitem => ?_, ?_⟩
    · exact hkeeps (fun h => by cases h) worker hworker hexiting item
        (List.mem_cons_of_mem _ hitem)
    · simp only [countP_split, Worker.exiting, List.countP_cons, Option.isNone_some,
        Bool.toNat_false, Bool.false_eq_true, if_false] at hpills ⊢
      omega
  | pill hhead =>
    rw [hhead] at hlast hpills
    have hrest := (List.pairwise_cons.mp hlast).1
    refine ⟨hlast.tail, fun _ _ _ item hitem => hrest item hitem rfl, ?_⟩
    simp only [countP_split, Worker.exiting, List.countP_cons, Option.isNone_none, Bool.toNat_false,
      Bool.toNat_true, if_true] at hpills ⊢
    omega
  | put work state =>
    simp only [hmode, Bool.false_eq_true, if_false] at hkeeps ⊢
    refine ⟨hlast, hkeeps (fun h => by cases h), ?_⟩
    simp only [countP_split, Worker.exiting, Bool.toNat_false] at hpills ⊢
    exact hpills
  | raise work =>
    simp only [hmode, Bool.false_eq_true, if_false] at hkeeps ⊢
    refine ⟨hlast, hkeeps (fun h => by cases h), ?_⟩
    simp only [countP_split, Worker.exiting, Bool.toNat_false] at hpills ⊢
    exact hpills
  | poisoned =>
    refine ⟨hlast, hkeeps (fun _ => hold rfl), ?_⟩
    simp only [countP_split, Worker.exiting, Bool.toNat_true] at hpills ⊢
    exact hpills
  | executed | raised | killWaiting | killWorking work | kill _ _ =>
    refine ⟨hlast, hkeeps (fun h => by cases h), ?_⟩
    simp only [countP_split, Worker.exiting, Bool.toNat_false] at hpills ⊢
    omega

theorem Ordered.report (h : Ordered parallelism s) : Ordered parallelism s.report := by
  unfold System.report
  split
  · exact h
  · exact ⟨h.last, h.gone, h.pills⟩

theorem Ordered.processTask (h : Ordered parallelism s) (hmode : s.unlimited = false)
    (hphase : s.phase = .started) (key : Key) (command : List String) :
    Ordered parallelism (s.processTask key command) := by
  have hpills := h.pills
  rw [hphase, Phase.pills] at hpills
  have htasks := List.countP_eq_zero.mp (show s.taskQueue.countP Option.isNone = 0 by omega)
  have hgone := List.countP_eq_zero.mp (show s.workers.countP Worker.exiting = 0 by omega)
  unfold System.processTask
  dsimp only
  split
  · rw [executeAsync_limited hmode]
    refine ⟨List.pairwise_append.mpr ⟨h.last, List.pairwise_singleton _ _, ?_⟩, ?_, ?_⟩
    · rintro item hitem - - rfl
      exact absurd rfl (htasks none hitem)
    · exact fun worker hworker hexiting => absurd hexiting (hgone worker hworker)
    · simpa using h.pills
  · exact ⟨h.last, h.gone, h.pills⟩

theorem Ordered.advanceEnd (h : Ordered parallelism s) (hmode : s.unlimited = false)
    (hworkers : s.workers.length = parallelism) (hnot : s.phase ≠ .draining) :
    Ordered parallelism s.advanceEnd := by
  have hpills := h.pills
  unfold System.advanceEnd
  split
  · next hphase =>
    rw [hphase] at hpills
    simp only [hmode, Bool.false_eq_true, if_false]
    exact ⟨h.last, h.gone, by simpa only [Phase.pills, hworkers] using hpills⟩
  · next pills hphase =>
    rw [hphase] at hpills
    refine ⟨List.pairwise_append.mpr ⟨h.last, List.pairwise_singleton _ _, ?_⟩, ?_, ?_⟩
    · intro item _ next hnext _
      exact List.mem_singleton.mp hnext
    · intro worker hworker hexiting item hitem
      obtain hmem | hmem := List.mem_append.mp hitem
      · exact h.gone worker hworker hexiting item hmem
      · exact List.mem_singleton.mp hmem
    · simp only [Phase.pills, List.countP_append, List.countP_singleton, Option.isNone_none,
        if_true] at hpills ⊢
      omega
  · next hphase =>
    rw [hphase] at hpills
    split
    · exact ⟨h.last, h.gone, hpills⟩
    · exact h
  · next hphase =>
    rw [hphase] at hpills
    split
    · exact ⟨h.last, h.gone, hpills⟩
    · exact h.report
  · next hphase => exact absurd hphase hnot
  · exact h

theorem Ordered.step (h : Ordered parallelism s) (hlimited : Limited parallelism s)
    (hpos : parallelism ≠ 0) (event : Event Key) : Ordered parallelism (step s event) :=
  have hmode := hlimited.not_unlimited hpos
  step_keeps event h (fun _ => h.moved hmode) (h.processTask hmode) h.report
    (h.advanceEnd hmode hlimited.workers hlimited.phase)

theorem Ordered.start (parallelism : Nat) :
    Ordered parallelism (start parallelism : System Key) where
  last := .nil
  gone _ _ _ _ hitem := absurd hitem List.not_mem_nil
  pills := by simp [LocalExecutor.start, Phase.pills, List.countP_replicate, Worker.exiting]

theorem exists_working (h : s.working ≠ []) :
    ∃ (i : Nat) (work : Work Key), s.workers[i]? = some (.working work) := by
  obtain ⟨work, hwork⟩ := List.exists_mem_of_ne_nil _ h
  obtain ⟨worker, hworker, heq⟩ := List.mem_filterMap.mp hwork
  obtain ⟨i, hi⟩ := List.mem_iff_getElem?.mp hworker
  cases worker with
  | working work' => exact ⟨i, work', hi⟩
  | _ => cases heq

/-- A worker that executes a command can put its result. -/
theorem putResult_ne {i : Nat} {work : Work Key} (h : s.workers[i]? = some (.working work)) :
    step s (.putResult i .success) ≠ s := by
  intro heq
  have hlength := congrArg (fun s => s.outcomes.length) heq
  simp [LocalExecutor.step, System.putResult, h] at hlength

theorem report_ne (h : s.resultQueue ≠ []) : s.report ≠ s := by
  obtain ⟨result, rest, hresults⟩ := List.exists_cons_of_ne_nil h
  intro heq
  have hlength := congrArg (fun s => s.resultQueue.length) heq
  simp [System.report, hresults] at hlength

theorem Unlimited.progress (h : Unlimited s) (hsound : s.Sound) (hended : s.phase ≠ .started)
    (hnot : s.phase ≠ .returned) :
    ∃ event : Event Key, event.Quiet ∧ LocalExecutor.step s event ≠ s := by
  have hphase : s.phase = .draining := by
    obtain hphase | hphase | ⟨hphase, -⟩ := h.phase
    · exact absurd hphase hended
    · exact hphase
    · exact absurd hphase hnot
  by_cases hactive : 0 < s.workersActive
  · by_cases hresults : s.resultQueue = []
    · have hcount := h.active
      have hfailed : s.workers.countP Worker.failed = 0 :=
        List.countP_eq_zero.mpr fun worker hworker => by simp [hsound worker hworker]
      rw [hresults, hfailed] at hcount
      have hworking : s.working ≠ [] := by
        intro hnil
        rw [hnil] at hcount
        simp at hcount
        omega
      obtain ⟨i, work, hi⟩ := exists_working hworking
      exact ⟨.putResult i .success, trivial, putResult_ne hi⟩
    · refine ⟨.advanceEnd, trivial, ?_⟩
      simp only [LocalExecutor.step, System.advanceEnd, hphase, if_pos hactive]
      exact report_ne hresults
  · refine ⟨.advanceEnd, trivial, fun heq => ?_⟩
    have := congrArg System.phase heq
    simp [LocalExecutor.step, System.advanceEnd, hphase, hactive] at this

/-- A worker moves as long as the task queue cannot be joined: were all gone with tasks left, there
would be too many pills. -/
theorem Limited.joins (h : Limited parallelism s) (hpos : parallelism ≠ 0)
    (hordered : Ordered parallelism s) (hsound : s.Sound) (hphase : s.phase = .poisoning 0)
    (hjoin : s.unfinishedTasks ≠ 0) :
    ∃ event : Event Key, event.Quiet ∧ LocalExecutor.step s event ≠ s := by
  have hdone : ∀ i, (LocalExecutor.step s (.taskDone i)).unfinishedTasks =
      s.unfinishedTasks - 1 →
        ∃ event : Event Key, event.Quiet ∧ LocalExecutor.step s event ≠ s := by
    intro i hi
    refine ⟨.taskDone i, trivial, fun heq => ?_⟩
    rw [heq] at hi
    omega
  by_cases hbusy : ∃ worker ∈ s.workers, worker.unfinished = true
  · obtain ⟨worker, hworker, hunfinished⟩ := hbusy
    have hfine := hsound worker hworker
    obtain ⟨i, hi⟩ := List.mem_iff_getElem?.mp hworker
    cases worker with
    | working work => exact ⟨.putResult i .success, trivial, putResult_ne hi⟩
    | executed => exact hdone i (by simp only [LocalExecutor.step, System.taskDone, hi])
    | poisoned => exact hdone i (by simp only [LocalExecutor.step, System.taskDone, hi])
    | raised => cases hfine
    | killed => cases hfine
    | waiting => cases hunfinished
    | exited => cases hunfinished
    | died => cases hunfinished
  · have hidle : s.workers.countP Worker.unfinished = 0 :=
      List.countP_eq_zero.mpr fun worker hworker hunfinished =>
        hbusy ⟨worker, hworker, hunfinished⟩
    have hlength := h.unfinished
    obtain ⟨item, rest, hqueue⟩ : ∃ item rest, s.taskQueue = item :: rest := by
      refine List.exists_cons_of_ne_nil fun hnil => ?_
      rw [hidle, hnil] at hlength
      exact hjoin hlength
    by_cases hwaiting : .waiting ∈ s.workers
    · obtain ⟨i, hi⟩ := List.mem_iff_getElem?.mp hwaiting
      refine ⟨.get i, trivial, fun heq => ?_⟩
      have hshorter := congrArg (fun s => s.taskQueue.length) heq
      cases item <;> simp [LocalExecutor.step, System.get, hi, hqueue] at hshorter
    · have hexiting : ∀ worker ∈ s.workers, worker.exiting = true := by
        intro worker hworker
        have hfine := hsound worker hworker
        have hfinished : ¬worker.unfinished = true := fun hunfinished =>
          hbusy ⟨worker, hworker, hunfinished⟩
        cases worker with
        | exited => rfl
        | poisoned => rfl
        | waiting => exact absurd hworker hwaiting
        | working work => exact absurd rfl hfinished
        | executed => exact absurd rfl hfinished
        | raised => cases hfine
        | died => cases hfine
        | killed => cases hfine
      have hall := List.countP_eq_length.mpr hexiting
      obtain ⟨worker, hworker⟩ : ∃ worker, worker ∈ s.workers := by
        refine List.exists_mem_of_length_pos ?_
        rw [h.workers]
        omega
      have hitem := hordered.gone worker hworker (hexiting worker hworker) item
        (by rw [hqueue]; exact List.mem_cons_self)
      have hpills := hordered.pills
      rw [hphase, hqueue, hitem, hall, h.workers, List.countP_cons] at hpills
      simp only [Phase.pills, Option.isNone_none, if_true] at hpills
      omega

theorem Limited.progress (h : Limited parallelism s) (hpos : parallelism ≠ 0)
    (hordered : Ordered parallelism s) (hsound : s.Sound) (hended : s.phase ≠ .started)
    (hnot : s.phase ≠ .returned) :
    ∃ event : Event Key, event.Quiet ∧ LocalExecutor.step s event ≠ s := by
  have hadvance : ∀ phase : Phase, s.advanceEnd.phase = phase → s.phase ≠ phase →
      ∃ event : Event Key, event.Quiet ∧ LocalExecutor.step s event ≠ s := by
    intro phase hnext hne
    exact ⟨.advanceEnd, trivial, fun heq => hne (hnext ▸ (congrArg System.phase heq).symm)⟩
  cases hphase : s.phase with
  | started => exact absurd hphase hended
  | draining => exact absurd hphase h.phase
  | returned => exact absurd hphase hnot
  | syncing =>
    by_cases hresults : s.resultQueue = []
    · exact hadvance .returned (by simp [System.advanceEnd, hphase, hresults]) hnot
    · refine ⟨.advanceEnd, trivial, ?_⟩
      simp only [LocalExecutor.step, System.advanceEnd, hphase, if_neg hresults]
      exact report_ne hresults
  | poisoning pills =>
    cases pills with
    | succ pills =>
      exact hadvance (.poisoning pills) (by simp [System.advanceEnd, hphase]) (by simp [hphase])
    | zero =>
      by_cases hjoin : s.unfinishedTasks = 0
      · exact hadvance .syncing (by simp [System.advanceEnd, hphase, hjoin]) (by simp [hphase])
      · exact h.joins hpos hordered hsound hphase hjoin

theorem ended_step (hended : s.phase ≠ .started) (event : Event Key) :
    (step s event).phase ≠ .started := by
  have hreport : s.report.phase = s.phase := by
    unfold System.report
    split <;> rfl
  refine step_keeps (P := fun s => s.phase ≠ .started) event hended (fun t hmoved => ?_)
    (fun hphase => absurd hphase hended) (by rw [hreport]; exact hended) ?_
  · obtain ⟨pre, old, post, new, s', -, hmove, rfl⟩ := hmoved
    cases hmove <;> exact hended
  · unfold System.advanceEnd
    repeat' split
    all_goals first | exact hended | simp [hreport, hended]

/-! ## Runs -/

/-- What the return of `end` rests on. -/
structure Ending (parallelism : Nat) (s : System Key) : Prop where
  limited : parallelism ≠ 0 → Limited parallelism s ∧ Ordered parallelism s
  unlimited : parallelism = 0 → Unlimited s
  sound : s.Sound
  ended : s.phase ≠ .started

theorem ending_of_run (parallelism : Nat) (before : List (Event Key))
    (hsound : (before.foldl step (start parallelism)).Sound)
    (hended : (before.foldl step (start parallelism)).phase ≠ .started) :
    Ending parallelism (before.foldl step (start parallelism)) := by
  have hlast : before.foldl step (start parallelism) ∈
      Transition.states step (start parallelism) before := Transition.foldl_mem_states _ before
  refine ⟨fun hpos => ?_, ?_, hsound, hended⟩
  · exact Transition.states_invariant (I := fun s => Limited parallelism s ∧ Ordered parallelism s)
      (fun _ event h => ⟨h.1.step hpos event, h.2.step h.1 hpos event⟩)
      ⟨Limited.start parallelism, Ordered.start parallelism⟩ _ hlast
  · rintro rfl
    exact Transition.states_invariant (I := Unlimited) (fun _ event h => h.step event)
      Unlimited.start _ hlast

theorem Ending.step (h : Ending parallelism s) {event : Event Key} (hquiet : event.Quiet)
    (hchange : step s event ≠ s) :
    Ending parallelism (step s event) ∧ (LocalExecutor.step s event).left < s.left := by
  refine ⟨⟨fun hpos => ?_, fun hpos => (h.unlimited hpos).step event,
    Sound.step h.sound h.ended hquiet, ended_step h.ended event⟩,
    left_step h.ended h.sound hquiet hchange⟩
  obtain ⟨hlimited, hordered⟩ := h.limited hpos
  exact ⟨hlimited.step hpos event, hordered.step hlimited hpos event⟩

theorem Ending.progress (h : Ending parallelism s) (hnot : s.phase ≠ .returned) :
    ∃ event : Event Key, event.Quiet ∧ LocalExecutor.step s event ≠ s := by
  by_cases hpos : parallelism = 0
  · exact (h.unlimited hpos).progress h.sound h.ended hnot
  · obtain ⟨hlimited, hordered⟩ := h.limited hpos
    exact hlimited.progress hpos hordered h.sound h.ended hnot

/-- **`end` returns.** Once it is called, and as long as no worker fails, a run of steps that change
something is no longer than `left`, and it can go on until `end` has returned. -/
theorem end_returns (parallelism : Nat) (before : List (Event Key)) {s : System Key}
    (hs : before.foldl step (start parallelism) = s) (hended : s.phase ≠ .started)
    (hsound : s.Sound) {events : List (Event Key)}
    (hevents : Transition.AllSteps step (fun s event => event.Quiet ∧ step s event ≠ s) s events) :
    events.length + (events.foldl step s).left ≤ s.left ∧
      ((events.foldl step s).phase ≠ .returned → ∃ event : Event Key,
        event.Quiet ∧ step (events.foldl step s) event ≠ events.foldl step s) := by
  subst hs
  obtain ⟨hending, hle⟩ := hevents.length_le (I := Ending parallelism)
    (fun _ _ h hok => h.step hok.1 hok.2) (ending_of_run parallelism before hsound hended)
  exact ⟨hle, hending.progress⟩

theorem oneCommand_returns :
    ([Event.advanceEnd].foldl step (oneCommand.foldl step (start 1))).left + 1 ≤
      (oneCommand.foldl step (start 1)).left := by
  have hchange : step (oneCommand.foldl step (start 1)) .advanceEnd ≠
      oneCommand.foldl step (start 1) :=
    fun heq => absurd (congrArg System.unfinishedTasks heq) (by decide)
  have hstep : Transition.AllSteps step (fun s event => event.Quiet ∧ step s event ≠ s)
      (oneCommand.foldl step (start 1)) [.advanceEnd] := ⟨⟨trivial, hchange⟩, trivial⟩
  have hbound :=
    (end_returns 1 oneCommand rfl (by decide) (by simp [System.Sound]; decide) hstep).1
  rw [Nat.add_comm]
  exact hbound

end Airflow.LocalExecutor
