import Airflow.Executor.Kubernetes
import Airflow.Lib.Transition
import Mathlib.Data.List.Count
import Mathlib.Data.List.Perm.Basic

/-!
# Each job is reported once (`KubernetesExecutor.accounted_iff`)

A job that was put in the task queue is in one of the queues or has been reported, as long as
`run_next` puts one result or raises something that `sync` handles (`Handled`). Any other answer of
the environment drops the job (`Loses.dropped`) or makes two results of it (`Loses.twoResults`),
and there is no state after it in which every job is accounted for.
-/

namespace Airflow.Kubernetes

variable {self : KubernetesExecutor} {config : KubeConfig} {job : Job} {answers : RunNextAnswers}

/-! ## Where a job is -/

def Job.entry (job : Job) : Nat × TaskInstanceKey := (job.number, job.key)

def WatcherTask.entry (task : WatcherTask) : Nat × TaskInstanceKey :=
  (task.number, KubernetesExecutor.annotationsToKey task.annotations)

def Result.entry (result : Result) : Nat × TaskInstanceKey := (result.number, result.key)

/-- A result of a task that has ended: `None` stands for success. -/
def PodState.IsTerminal : PodState → Prop
  | .state none | .state (some .failed) => True
  | _ => False

namespace KubernetesExecutor

/-- The jobs in the queues and those reported. -/
def entries (self : KubernetesExecutor) : List (Nat × TaskInstanceKey) :=
  self.taskQueue.map Job.entry ++ self.watcherQueue.map WatcherTask.entry ++
    self.resultQueue.map Result.entry ++ self.reported

/-- The states of the results on their way. -/
def resultStates (self : KubernetesExecutor) : List PodState :=
  self.watcherQueue.map WatcherTask.state ++ self.resultQueue.map Result.state

/-- Each job accepted is in the task queue, has one result on its way, which is terminal, or was
reported once. -/
structure Accounted (executor : KubernetesExecutor) : Prop where
  once : ∀ number key, executor.accepted[number]? = some key →
    executor.entries.count (number, key) = 1
  terminal : ∀ state ∈ executor.resultStates, state.IsTerminal

/-- `Accounted`, and nothing else is in the queues. -/
structure Inv (executor : KubernetesExecutor) : Prop extends Accounted executor where
  known : ∀ entry ∈ executor.entries, executor.accepted[entry.1]? = some entry.2

/-! ## The answers that are handled -/

/-- `sync` fails the job or puts it back on this exception. -/
def RunNextError.IsHandled : RunNextError → Prop
  | .podReconciliationError | .podMutationHookException => True
  | .apiException status message => status = 400 ∨ status = 422 ∨ message.isSome
  | .other => False

/-- The execution time of the reply, if there is one, can be logged. -/
def Invocation.IsHandled : Invocation → Prop
  | .reply (some .missing) | .reply (some .notSerializable) => False
  | _ => True

/-- The URL of a task's worker among the services known and, if it is not there, those listed. -/
def lookUp (services : Dict (String × String) String) (nextUrls : ServiceUrls)
    (id : String × String) : Except RunNextError (Option String) :=
  match services.get? id with
  | some url => .ok (some url)
  | none =>
    match nextUrls with
    | .services services => .ok (services.get? id)
    | _ => .error .other

/-- The URL of a task's worker, or that there is none. -/
def urlOf (answers : RunNextAnswers) (knWorkers : Option (Dict (String × String) String))
    (id : String × String) : Except RunNextError (Option String) :=
  match knWorkers, answers.firstUrls with
  | none, .raised => .error .other
  | none, .timeoutError => .ok none
  | none, .services services => lookUp services answers.nextUrls id
  | some services, _ => lookUp services answers.nextUrls id

/-- The URL is looked up without an exception, and if there is one the call is handled. -/
def LookupHandled (answers : RunNextAnswers) (knWorkers : Option (Dict (String × String) String))
    (key : TaskInstanceKey) : Prop :=
  match urlOf answers knWorkers (key.dagId, key.taskId) with
  | .error _ => False
  | .ok none => True
  | .ok (some _) => Invocation.IsHandled answers.invocation

/-- The answers with which `run_next` puts one result of the job, or raises an exception that
`sync` handles. -/
def Handled (answers : RunNextAnswers) (knWorkers : Option (Dict (String × String) String))
    (job : Job) : Prop :=
  job.command.take 3 = ["airflow", "tasks", "run"] ∧
    match answers.basePod, answers.constructPod, answers.sanitize with
    | .error e, _, _ => RunNextError.IsHandled e
    | .ok false, _, _ => False
    | .ok true, .error e, _ => RunNextError.IsHandled e
    | .ok true, .ok _, .error e => RunNextError.IsHandled e
    | .ok true, .ok _, .ok _ => LookupHandled answers knWorkers job.key

/-- All the jobs that a loop over the tasks takes are. -/
def TasksHandled (answers : Nat → RunNextAnswers) : Nat → Nat → KubernetesExecutor → Prop
  | 0, _, _ => True
  | turns + 1, turn, self =>
    match self.taskQueue with
    | [] => True
    | job :: jobs =>
      Handled (answers turn) self.knWorkers job ∧
        TasksHandled answers turns (turn + 1)
          ({ self with taskQueue := jobs }.runTask job (answers turn)).1

/-- A call handles its jobs. -/
def CallHandled (config : KubeConfig) (self : KubernetesExecutor) : Call → Prop
  | .executeAsync .. => True
  | .sync answers =>
    TasksHandled answers.runNext config.workerPodsCreationBatchSize 0
      (handleResults config answers.dbState answers.api self.schedulerSync)

/-! ## One turn of the loop over the tasks -/

/-- The executor with other services known. -/
def withServices (self : KubernetesExecutor)
    (knWorkers : Option (Dict (String × String) String)) : KubernetesExecutor :=
  { self with knWorkers }

/-- The job is failed, is back in the queue or has one result. -/
inductive Settles (self : KubernetesExecutor) (job : Job) : KubernetesExecutor × Bool → Prop where
  | failed : Settles self job (self.fail job, false)
  | requeued : Settles self job ({ self with taskQueue := self.taskQueue ++ [job] }, false)
  | result (state : TIState) (terminal : (PodState.state state).IsTerminal) :
    Settles self job (self.putResult job state, false)

/-- The job is dropped by an exception that ends the call, or has two results. -/
inductive Loses (self : KubernetesExecutor) (job : Job) : KubernetesExecutor × Bool → Prop where
  | dropped : Loses self job (self, true)
  | twoResults : Loses self job ((self.putResult job none).putResult job (some .failed), false)

/-- The job is settled where `ok` holds, and lost elsewhere. -/
def SettlesIff (self : KubernetesExecutor) (job : Job) (ok : Prop)
    (result : KubernetesExecutor × Bool) : Prop :=
  (ok ∧ Settles self job result) ∨ (¬ok ∧ Loses self job result)

theorem SettlesIff.of_iff {ok ok' : Prop} {result : KubernetesExecutor × Bool} (hiff : ok' ↔ ok)
    (h : SettlesIff self job ok result) : SettlesIff self job ok' result := by
  rwa [SettlesIff, hiff]

theorem handleError_cases (self : KubernetesExecutor) (job : Job) (e : RunNextError) :
    SettlesIff self job (RunNextError.IsHandled e) (self.handleError job e) := by
  cases e with
  | podReconciliationError => exact .inl ⟨trivial, .failed⟩
  | podMutationHookException => exact .inl ⟨trivial, .failed⟩
  | other => exact .inr ⟨id, .dropped⟩
  | apiException status message =>
    simp only [handleError]
    by_cases hstatus : status = 400 ∨ status = 422
    · rw [if_pos hstatus]
      exact .inl ⟨hstatus.elim .inl fun h => .inr (.inl h), .failed⟩
    · rw [if_neg hstatus]
      rw [not_or] at hstatus
      cases message with
      | some message => exact .inl ⟨.inr (.inr rfl), .requeued⟩
      | none => exact .inr ⟨by simp [RunNextError.IsHandled, hstatus], .dropped⟩

/-- `invokeTask` with the outer `except` of `run_pod_async`. -/
def invokeTaskCaught (self : KubernetesExecutor) (job : Job) (invocation : Invocation) :
    KubernetesExecutor :=
  match self.invokeTask job invocation with
  | (executor, false) => executor
  | (executor, true) => executor.putResult job (some .failed)

theorem invokeTaskCaught_cases (self : KubernetesExecutor) (job : Job) (invocation : Invocation) :
    SettlesIff self job (Invocation.IsHandled invocation)
      (self.invokeTaskCaught job invocation, false) := by
  cases invocation with
  | rpcError => exact .inl ⟨trivial, .result (some .failed) trivial⟩
  | raised => exact .inl ⟨trivial, .result (some .failed) trivial⟩
  | reply timing =>
    cases timing with
    | none => exact .inl ⟨trivial, .result (some .failed) trivial⟩
    | some time =>
      cases time with
      | missing => exact .inr ⟨id, .twoResults⟩
      | notSerializable => exact .inr ⟨id, .twoResults⟩
      | seconds => exact .inl ⟨trivial, .result none trivial⟩

theorem findServiceUrl_eq (self : KubernetesExecutor) (services : Dict (String × String) String)
    (nextUrls : ServiceUrls) (dagId taskId : String) :
    ∃ knWorkers, self.findServiceUrl services nextUrls dagId taskId =
      (self.withServices knWorkers, lookUp services nextUrls (dagId, taskId)) := by
  unfold findServiceUrl lookUp
  cases services.get? (dagId, taskId) with
  | some url => exact ⟨_, rfl⟩
  | none => cases nextUrls <;> exact ⟨_, rfl⟩

theorem getWorkerServiceUrl_eq (self : KubernetesExecutor) (answers : RunNextAnswers)
    (dagId taskId : String) :
    ∃ knWorkers, self.getWorkerServiceUrl answers dagId taskId =
      (self.withServices knWorkers, urlOf answers self.knWorkers (dagId, taskId)) := by
  unfold getWorkerServiceUrl loadServiceUrls urlOf
  cases self.knWorkers with
  | some services => exact self.findServiceUrl_eq services answers.nextUrls dagId taskId
  | none =>
    cases answers.firstUrls with
    | services services => exact self.findServiceUrl_eq services answers.nextUrls dagId taskId
    | timeoutError => exact ⟨self.knWorkers, rfl⟩
    | raised => exact ⟨self.knWorkers, rfl⟩

theorem eq_other_of_lookUp {services : Dict (String × String) String} {nextUrls : ServiceUrls}
    {id : String × String} {e : RunNextError} (h : lookUp services nextUrls id = .error e) :
    e = .other := by
  unfold lookUp at h
  cases hget : services.get? id with
  | some url => simp [hget] at h
  | none =>
    rw [hget] at h
    cases nextUrls <;> cases h <;> rfl

theorem eq_other_of_urlOf {knWorkers : Option (Dict (String × String) String)}
    {id : String × String} {e : RunNextError} (h : urlOf answers knWorkers id = .error e) :
    e = .other := by
  unfold urlOf at h
  cases knWorkers with
  | some services => exact eq_other_of_lookUp h
  | none =>
    cases hfirst : answers.firstUrls with
    | services services =>
      rw [hfirst] at h
      exact eq_other_of_lookUp h
    | timeoutError => simp [hfirst] at h
    | raised =>
      rw [hfirst] at h
      cases h
      rfl

/-- The turn from the lookup of the URL on. -/
theorem runPodAsync_cases (self : KubernetesExecutor)
    (hcommand : job.command.take 3 = ["airflow", "tasks", "run"])
    (hbase : answers.basePod = .ok true) {u v : Unit} (hconstruct : answers.constructPod = .ok u)
    (hsanitize : answers.sanitize = .ok v) :
    ∃ knWorkers, SettlesIff (self.withServices knWorkers) job
      (LookupHandled answers self.knWorkers job.key) (self.runTask job answers) := by
  obtain ⟨knWorkers, hurl⟩ := self.getWorkerServiceUrl_eq answers job.key.dagId job.key.taskId
  refine ⟨knWorkers, ?_⟩
  simp only [runTask, runNext, hcommand, hbase, hconstruct, runPodAsync, hsanitize, hurl, ne_eq,
    not_true_eq_false, if_false, LookupHandled]
  cases hurl : urlOf answers self.knWorkers (job.key.dagId, job.key.taskId) with
  | error e =>
    obtain rfl := eq_other_of_urlOf hurl
    exact .inr ⟨id, .dropped⟩
  | ok url =>
    cases url with
    | none => exact .inl ⟨trivial, .result (some .failed) trivial⟩
    | some url =>
      have hcaught := (self.withServices knWorkers).invokeTaskCaught_cases job answers.invocation
      unfold invokeTaskCaught at hcaught
      dsimp only
      rcases hinvoke : (self.withServices knWorkers).invokeTask job answers.invocation with
        ⟨executor, raised⟩
      rw [hinvoke] at hcaught
      cases raised <;> exact hcaught

theorem runTask_of_error (e : RunNextError) (h : self.runNext job answers = (self, .error e)) :
    SettlesIff self job (RunNextError.IsHandled e) (self.runTask job answers) := by
  rw [runTask, h]
  exact self.handleError_cases job e

/-- **A turn settles its job exactly if the answers are handled.** -/
theorem runTask_cases (self : KubernetesExecutor) (job : Job) (answers : RunNextAnswers) :
    ∃ knWorkers, SettlesIff (self.withServices knWorkers) job
      (Handled answers self.knWorkers job) (self.runTask job answers) := by
  by_cases hcommand : job.command.take 3 = ["airflow", "tasks", "run"]
  case neg =>
    refine ⟨self.knWorkers, (runTask_of_error .other ?_).of_iff ?_⟩
    · simp [runNext, hcommand]
    · simp [Handled, hcommand, RunNextError.IsHandled]
  cases hbase : answers.basePod with
  | error e =>
    refine ⟨self.knWorkers, (runTask_of_error e ?_).of_iff ?_⟩
    · simp [runNext, hcommand, hbase]
    · simp [Handled, hcommand, hbase]
  | ok pod =>
    cases pod with
    | false =>
      refine ⟨self.knWorkers, (runTask_of_error .other ?_).of_iff ?_⟩
      · simp [runNext, hcommand, hbase]
      · simp [Handled, hbase, RunNextError.IsHandled]
    | true =>
      cases hconstruct : answers.constructPod with
      | error e =>
        refine ⟨self.knWorkers, (runTask_of_error e ?_).of_iff ?_⟩
        · simp [runNext, hcommand, hbase, hconstruct]
        · simp [Handled, hcommand, hbase, hconstruct]
      | ok u =>
        cases hsanitize : answers.sanitize with
        | error e =>
          refine ⟨self.knWorkers, (runTask_of_error e ?_).of_iff ?_⟩
          · simp [runNext, hcommand, hbase, hconstruct, runPodAsync, hsanitize]
          · simp [Handled, hcommand, hbase, hconstruct, hsanitize]
        | ok v =>
          obtain ⟨knWorkers, hcases⟩ := self.runPodAsync_cases hcommand hbase hconstruct hsanitize
          refine ⟨knWorkers, hcases.of_iff ?_⟩
          simp [Handled, hcommand, hbase, hconstruct, hsanitize]

/-! ## What keeps every job accounted for -/

theorem Inv.of_perm {executor : KubernetesExecutor} (h : Inv self)
    (hperm : executor.entries.Perm self.entries) (haccepted : executor.accepted = self.accepted)
    (hterminal : ∀ state ∈ executor.resultStates, state.IsTerminal) : Inv executor where
  once number key hkey := by
    rw [hperm.count_eq]
    exact h.once number key (haccepted ▸ hkey)
  terminal := hterminal
  known entry hentry := by
    rw [haccepted]
    exact h.known entry (hperm.mem_iff.mp hentry)

/-- The executor once the next job is taken from the queue. -/
def withTasks (self : KubernetesExecutor) (jobs : List Job) : KubernetesExecutor :=
  { self with taskQueue := jobs }

theorem entries_cons {jobs : List Job} (h : self.taskQueue = job :: jobs) :
    self.entries = job.entry :: (self.withTasks jobs).entries := by
  simp [entries, h, withTasks]

theorem entries_putResult (state : TIState) :
    (self.putResult job state).entries.Perm (job.entry :: self.entries) := by
  have hentry : ((self.putResult job state).watcherQueue).map WatcherTask.entry =
      self.watcherQueue.map WatcherTask.entry ++ [job.entry] := by
    rw [putResult, List.map_append]
    rfl
  have hrest : (self.putResult job state).entries =
      (self.taskQueue.map Job.entry ++ self.watcherQueue.map WatcherTask.entry) ++
        job.entry :: (self.resultQueue.map Result.entry ++ self.reported) := by
    rw [entries, hentry]
    simp [putResult]
  rw [hrest, entries, List.append_assoc _ (self.resultQueue.map Result.entry)]
  exact List.perm_middle

theorem mem_resultStates_putResult {state : TIState} {s : PodState} :
    s ∈ (self.putResult job state).resultStates ↔ s ∈ self.resultStates ∨ s = .state state := by
  simp only [resultStates, putResult, List.map_append, List.map_cons, List.map_nil,
    List.mem_append, List.mem_singleton]
  tauto

theorem Settles.spec {result : KubernetesExecutor × Bool} (h : Settles self job result) :
    result.2 = false ∧ result.1.entries.Perm (job.entry :: self.entries) ∧
      result.1.accepted = self.accepted ∧ self.watcherQueue <+: result.1.watcherQueue ∧
      ∀ state ∈ result.1.resultStates, state ∈ self.resultStates ∨ state.IsTerminal := by
  cases h with
  | failed =>
    refine ⟨rfl, ?_, rfl, List.prefix_rfl, fun state h => .inl h⟩
    simp only [entries, fail, changeState, ← List.append_assoc]
    exact List.perm_append_singleton _ _
  | requeued =>
    refine ⟨rfl, ?_, rfl, List.prefix_rfl, fun state h => .inl h⟩
    simp only [entries, List.map_append, List.map_cons, List.map_nil, List.append_assoc,
      List.cons_append, List.nil_append]
    exact List.perm_middle
  | result state terminal =>
    refine ⟨rfl, entries_putResult state, rfl, List.prefix_append _ _, fun s h => ?_⟩
    rcases mem_resultStates_putResult.mp h with hmem | rfl
    · exact .inl hmem
    · exact .inr terminal

/-- A job with two results is not accounted for, and does not get rid of one in the call. -/
structure Doubled (executor : KubernetesExecutor) (entry : Nat × TaskInstanceKey) : Prop where
  accepted : executor.accepted[entry.1]? = some entry.2
  twice : 2 ≤ (executor.watcherQueue.map WatcherTask.entry).count entry

theorem Doubled.not_accounted {entry : Nat × TaskInstanceKey} (h : Doubled self entry) :
    ¬Accounted self := by
  intro hacc
  have hone := hacc.once entry.1 entry.2 h.accepted
  have htwice := h.twice
  rw [entries, List.count_append, List.count_append, List.count_append] at hone
  have heta : (entry.1, entry.2) = entry := rfl
  rw [heta] at hone
  omega

theorem Doubled.of_prefix {executor : KubernetesExecutor} {entry : Nat × TaskInstanceKey}
    (h : Doubled self entry) (haccepted : executor.accepted = self.accepted)
    (hgrows : self.watcherQueue <+: executor.watcherQueue) : Doubled executor entry where
  accepted := haccepted ▸ h.accepted
  twice := Nat.le_trans h.twice ((hgrows.sublist.map _).count_le _)

theorem doubled_putResult (self : KubernetesExecutor)
    (h : self.accepted[job.number]? = some job.key) (state state' : TIState) :
    Doubled ((self.putResult job state).putResult job state') job.entry where
  accepted := h
  twice := by
    have hmap : ((self.putResult job state).putResult job state').watcherQueue.map
        WatcherTask.entry =
          self.watcherQueue.map WatcherTask.entry ++ [job.entry] ++ [job.entry] := by
      simp only [putResult, List.map_append]
      rfl
    rw [hmap, List.count_append, List.count_append, List.count_singleton_self]
    omega

theorem Loses.frame {result : KubernetesExecutor × Bool} (h : Loses self job result) :
    result.1.accepted = self.accepted ∧ self.watcherQueue <+: result.1.watcherQueue := by
  cases h with
  | dropped => exact ⟨rfl, List.prefix_rfl⟩
  | twoResults =>
    refine ⟨rfl, ?_⟩
    simp only [putResult, List.append_assoc]
    exact List.prefix_append _ _

theorem runTask_frame (self : KubernetesExecutor) (job : Job) (answers : RunNextAnswers) :
    (self.runTask job answers).1.accepted = self.accepted ∧
      self.watcherQueue <+: (self.runTask job answers).1.watcherQueue := by
  obtain ⟨knWorkers, ⟨-, h⟩ | ⟨-, h⟩⟩ := self.runTask_cases job answers
  · obtain ⟨-, -, haccepted, hgrows, -⟩ := h.spec
    exact ⟨haccepted, hgrows⟩
  · exact h.frame

theorem runTasks_nil {answers : Nat → RunNextAnswers} {turns turn : Nat}
    (h : self.taskQueue = []) : runTasks answers turns turn self = self := by
  cases turns with
  | zero => rfl
  | succ turns => rw [runTasks, h]

theorem runTasks_cons {answers : Nat → RunNextAnswers} {turns turn : Nat} {jobs : List Job}
    (h : self.taskQueue = job :: jobs) :
    runTasks answers (turns + 1) turn self =
      if ((self.withTasks jobs).runTask job (answers turn)).2 then
        ((self.withTasks jobs).runTask job (answers turn)).1
      else runTasks answers turns (turn + 1) ((self.withTasks jobs).runTask job (answers turn)).1 := by
  have hwith : { self with taskQueue := jobs } = self.withTasks jobs := rfl
  rw [runTasks, h]
  simp only [hwith]
  rcases (self.withTasks jobs).runTask job (answers turn) with ⟨executor, raised⟩
  cases raised <;> rfl

theorem tasksHandled_cons {answers : Nat → RunNextAnswers} {turns turn : Nat} {jobs : List Job}
    (h : self.taskQueue = job :: jobs) :
    TasksHandled answers (turns + 1) turn self ↔
      Handled (answers turn) self.knWorkers job ∧
        TasksHandled answers turns (turn + 1)
          ((self.withTasks jobs).runTask job (answers turn)).1 := by
  rw [TasksHandled, h]
  rfl

theorem runTasks_frame (answers : Nat → RunNextAnswers) (turns turn : Nat)
    (self : KubernetesExecutor) :
    (runTasks answers turns turn self).accepted = self.accepted ∧
      self.watcherQueue <+: (runTasks answers turns turn self).watcherQueue := by
  induction turns generalizing turn self with
  | zero => exact ⟨rfl, List.prefix_rfl⟩
  | succ turns ih =>
    cases hqueue : self.taskQueue with
    | nil =>
      rw [runTasks_nil hqueue]
      exact ⟨rfl, List.prefix_rfl⟩
    | cons job jobs =>
      obtain ⟨haccepted, hgrows⟩ := (self.withTasks jobs).runTask_frame job (answers turn)
      rw [runTasks_cons hqueue]
      split
      · exact ⟨haccepted, hgrows⟩
      · obtain ⟨haccepted', hgrows'⟩ :=
          ih (turn + 1) ((self.withTasks jobs).runTask job (answers turn)).1
        exact ⟨haccepted'.trans haccepted, hgrows.trans hgrows'⟩

/-- A turn that is handled keeps the invariant. -/
theorem Settles.inv {jobs : List Job} {result : KubernetesExecutor × Bool} {knWorkers}
    (h : Settles ((self.withTasks jobs).withServices knWorkers) job result) (hinv : Inv self)
    (hqueue : self.taskQueue = job :: jobs) : Inv result.1 := by
  obtain ⟨-, hperm, haccepted, -, hstates⟩ := h.spec
  refine hinv.of_perm ?_ haccepted fun state hstate => ?_
  · rw [entries_cons hqueue]
    exact hperm
  · exact (hstates state hstate).elim (hinv.terminal state) id

/-- The job taken from the queue is not on its way in another. -/
theorem Inv.taken {jobs : List Job} (hinv : Inv self) (hqueue : self.taskQueue = job :: jobs) :
    self.accepted[job.number]? = some job.key ∧
      job.entry ∉ (self.withTasks jobs).entries := by
  have hentries := entries_cons hqueue
  have hkey : self.accepted[job.number]? = some job.key :=
    hinv.known job.entry (hentries ▸ List.mem_cons_self)
  refine ⟨hkey, ?_⟩
  have hone : self.entries.count job.entry = 1 := hinv.once job.number job.key hkey
  rw [hentries, List.count_cons_self] at hone
  exact List.count_eq_zero.mp (by omega)

/-- **The loop over the tasks keeps the jobs accounted for while their answers are handled.** -/
theorem runTasks_inv {answers : Nat → RunNextAnswers} {turns turn : Nat} (hinv : Inv self)
    (h : TasksHandled answers turns turn self) : Inv (runTasks answers turns turn self) := by
  induction turns generalizing turn self with
  | zero => exact hinv
  | succ turns ih =>
    cases hqueue : self.taskQueue with
    | nil =>
      rw [runTasks_nil hqueue]
      exact hinv
    | cons job jobs =>
      obtain ⟨hhandled, hrest⟩ := (tasksHandled_cons hqueue).mp h
      obtain ⟨knWorkers, ⟨-, hsettles⟩ | ⟨hlost, -⟩⟩ :=
        (self.withTasks jobs).runTask_cases job (answers turn)
      · rw [runTasks_cons hqueue, hsettles.spec.1]
        exact ih (hsettles.inv hinv hqueue) hrest
      · exact absurd hhandled hlost

/-- **And not beyond.** -/
theorem runTasks_not_accounted {answers : Nat → RunNextAnswers} {turns turn : Nat}
    (hinv : Inv self) (h : ¬TasksHandled answers turns turn self) :
    ¬Accounted (runTasks answers turns turn self) := by
  induction turns generalizing turn self with
  | zero => exact absurd trivial h
  | succ turns ih =>
    cases hqueue : self.taskQueue with
    | nil =>
      refine absurd ?_ h
      rw [TasksHandled, hqueue]
      trivial
    | cons job jobs =>
      rw [tasksHandled_cons hqueue, not_and] at h
      obtain ⟨hkey, hnot⟩ := hinv.taken hqueue
      obtain ⟨knWorkers, ⟨hhandled, hsettles⟩ | ⟨-, hloses⟩⟩ :=
        (self.withTasks jobs).runTask_cases job (answers turn)
      · rw [runTasks_cons hqueue, hsettles.spec.1]
        exact ih (hsettles.inv hinv hqueue) (h hhandled)
      · rw [runTasks_cons hqueue]
        generalize (self.withTasks jobs).runTask job (answers turn) = result at hloses
        cases hloses with
        | dropped =>
          -- the job is nowhere any more
          rw [if_pos rfl]
          intro hacc
          have hone := hacc.once job.number job.key hkey
          have hzero : ((self.withTasks jobs).withServices knWorkers).entries.count
              (job.number, job.key) = 0 := List.count_eq_zero.mpr hnot
          rw [hzero] at hone
          cases hone
        | twoResults =>
          rw [if_neg Bool.false_ne_true]
          obtain ⟨haccepted, hgrows⟩ := runTasks_frame answers turns (turn + 1)
            ((((self.withTasks jobs).withServices knWorkers).putResult job none).putResult job
              (some .failed))
          have hdoubled := doubled_putResult ((self.withTasks jobs).withServices knWorkers) hkey none
            (some .failed)
          exact (hdoubled.of_prefix haccepted hgrows).not_accounted

/-! ## The other parts of a call -/

theorem entry_processWatcherTask (task : WatcherTask) :
    (processWatcherTask task).entry = task.entry := rfl

/-- `kube_scheduler.sync` moves the results on. -/
theorem schedulerSync_inv (hinv : Inv self) : Inv self.schedulerSync := by
  refine hinv.of_perm ?_ rfl fun state hstate => hinv.terminal state ?_
  · have hentries : self.schedulerSync.entries = self.taskQueue.map Job.entry ++
        (self.resultQueue.map Result.entry ++ self.watcherQueue.map WatcherTask.entry) ++
          self.reported := by
      simp [entries, schedulerSync, Function.comp_def, entry_processWatcherTask]
    have hbefore : self.entries = self.taskQueue.map Job.entry ++
        (self.watcherQueue.map WatcherTask.entry ++ self.resultQueue.map Result.entry) ++
          self.reported := by
      simp [entries]
    rw [hentries, hbefore]
    exact (List.perm_append_comm.append_left _).append_right _
  · simp only [resultStates, schedulerSync, List.map_nil, List.nil_append, List.map_append,
      List.map_map] at hstate
    exact List.mem_append.mpr (List.mem_append.mp hstate).symm

theorem changeStateOf_eq {dbState : TaskInstanceKey → TIState} {answer : ApiAnswer}
    {result : Result} {state : TIState} (h : result.state = .state state)
    (hterminal : state ≠ some .running) :
    self.changeStateOf config dbState answer result =
      if podCallRaises config state answer then none
      else some (self.changeState result.number result.key
        (if state = none then dbState result.key else state)) := by
  unfold changeStateOf
  split
  · simp_all
  · simp_all
  · rename_i state' _ hstate'
    obtain rfl : state' = state := PodState.state.inj (hstate'.symm.trans h)
    rfl

theorem PodState.IsTerminal.cases {state : PodState} (h : state.IsTerminal) :
    state = .state none ∨ state = .state (some .failed) := by
  unfold PodState.IsTerminal at h
  split at h
  · exact .inl rfl
  · exact .inr rfl
  · exact h.elim

/-- A terminal result is put back or reported. -/
theorem handleResult_cases (self : KubernetesExecutor) (config : KubeConfig)
    (dbState : TaskInstanceKey → TIState) (answer : ApiAnswer) {result : Result}
    (h : result.state.IsTerminal) :
    self.handleResult config dbState answer result =
        { self with resultQueue := self.resultQueue ++ [result] } ∨
      ∃ state, self.handleResult config dbState answer result =
        self.changeState result.number result.key state := by
  have hstate : ∃ state, result.state = .state state ∧ state ≠ some .running := by
    rcases PodState.IsTerminal.cases h with h | h
    · exact ⟨_, h, by simp⟩
    · exact ⟨_, h, by simp⟩
  obtain ⟨state, hstate, hterminal⟩ := hstate
  rw [handleResult, changeStateOf_eq hstate hterminal]
  by_cases hraises : podCallRaises config state answer = true
  · rw [if_pos hraises]
    exact .inl rfl
  · rw [if_neg hraises]
    exact .inr ⟨_, rfl⟩

/-- The executor with the results `results` not taken yet. -/
def withResults (self : KubernetesExecutor) (results : List Result) : KubernetesExecutor :=
  { self with resultQueue := results ++ self.resultQueue }

/-- One result is handled while `results` wait for their turn. -/
theorem handleResult_inv {dbState : TaskInstanceKey → TIState} {answer : ApiAnswer}
    {result : Result} {results : List Result} (hinv : Inv (self.withResults (result :: results))) :
    Inv ((self.handleResult config dbState answer result).withResults results) := by
  have hmem : result.state ∈ (self.withResults (result :: results)).resultStates := by
    simp [resultStates, withResults]
  rcases self.handleResult_cases config dbState answer (hinv.terminal _ hmem) with h | ⟨state, h⟩
  · rw [h]
    refine hinv.of_perm ?_ rfl fun s hs => hinv.terminal s ?_
    · have hperm : (results ++ (self.resultQueue ++ [result])).Perm
          (result :: results ++ self.resultQueue) := by
        rw [← List.append_assoc]
        exact List.perm_append_singleton _ _
      exact ((hperm.map Result.entry).append_left _).append_right _
    · simp only [resultStates, withResults, List.map_append, List.map_cons, List.map_nil,
        List.mem_append, List.mem_cons, List.not_mem_nil, or_false] at hs ⊢
      tauto
  · rw [h]
    refine hinv.of_perm ?_ rfl fun s hs => hinv.terminal s ?_
    · have hafter : ((self.changeState result.number result.key state).withResults results).entries =
          (self.withResults results).entries ++ [result.entry] := by
        simp [entries, withResults, changeState, Result.entry]
      have hbefore : (self.withResults (result :: results)).entries =
          self.taskQueue.map Job.entry ++ self.watcherQueue.map WatcherTask.entry ++
            result.entry :: ((results ++ self.resultQueue).map Result.entry ++ self.reported) := by
        simp [entries, withResults]
      have hrest : (self.withResults results).entries =
          self.taskQueue.map Job.entry ++ self.watcherQueue.map WatcherTask.entry ++
            ((results ++ self.resultQueue).map Result.entry ++ self.reported) := by
        simp [entries, withResults]
      rw [hafter, hbefore, hrest]
      exact (List.perm_append_singleton _ _).trans List.perm_middle.symm
    · simp only [resultStates, withResults, changeState, List.map_append, List.map_cons,
        List.mem_append, List.mem_cons] at hs ⊢
      tauto

theorem handleResults_inv {dbState : TaskInstanceKey → TIState} {answers : List ApiAnswer}
    (hinv : Inv self) : Inv (handleResults config dbState answers self) := by
  induction answers generalizing self with
  | nil =>
    have hfold : ∀ (results : List Result) (executor : KubernetesExecutor),
        Inv (executor.withResults results) →
        Inv (results.foldl (fun executor result =>
          executor.handleResult config dbState .done result) executor) := by
      intro results
      induction results with
      | nil => exact fun _ h => h
      | cons result results ih => exact fun executor h => ih _ (handleResult_inv h)
    refine hfold self.resultQueue { self with resultQueue := [] } ?_
    have hself : { self with resultQueue := [] }.withResults self.resultQueue = self := by
      simp [withResults]
    rwa [hself]
  | cons answer answers ih =>
    unfold handleResults
    cases hresults : self.resultQueue with
    | nil => exact hinv
    | cons result results =>
      have hself : { self with resultQueue := results }.withResults [result] = self := by
        simp [withResults, ← hresults]
      have hnext : Inv (({ self with resultQueue := results }.handleResult config dbState answer
          result).withResults []) := handleResult_inv (hself.symm ▸ hinv)
      exact ih hnext

theorem executeAsync_inv (hinv : Inv self) (key : TaskInstanceKey) (command : List String)
    (validConfig : Bool) : Inv (self.executeAsync key command validConfig) := by
  cases validConfig with
  | false => exact hinv.of_perm (List.Perm.refl _) rfl hinv.terminal
  | true =>
    have hentries : (self.executeAsync key command true).entries.Perm
        ((self.accepted.length, key) :: self.entries) := by
      simp only [entries, executeAsync, List.map_append, List.map_cons, List.map_nil,
        List.append_assoc, List.cons_append, List.nil_append, if_true]
      exact List.perm_middle
    have hnew : (self.accepted.length, key) ∉ self.entries := by
      intro hmem
      have := hinv.known _ hmem
      simp at this
    have haccepted : (self.executeAsync key command true).accepted = self.accepted ++ [key] := rfl
    refine ⟨⟨fun number key' hkey => ?_, hinv.terminal⟩, fun entry hentry => ?_⟩
    · rw [hentries.count_eq]
      rw [haccepted, List.getElem?_append] at hkey
      split at hkey
      · rename_i hlt
        have hne : (self.accepted.length, key) ≠ (number, key') := by
          intro h
          have := (Prod.mk.inj h).1
          omega
        rw [List.count_cons_of_ne hne]
        exact hinv.once number key' hkey
      · rename_i hle
        rw [List.getElem?_singleton] at hkey
        split at hkey
        · obtain rfl := Option.some.inj hkey
          obtain rfl : number = self.accepted.length := by omega
          rw [List.count_cons_self, List.count_eq_zero.mpr hnew]
        · cases hkey
    · rw [haccepted]
      rcases List.mem_cons.mp (hentries.mem_iff.mp hentry) with rfl | hmem
      · simp
      · have hkey := hinv.known entry hmem
        rw [List.getElem?_append_left (List.getElem?_eq_some_iff.mp hkey).1]
        exact hkey

/-! ## Runs -/

theorem step_inv {call : Call} (hinv : Inv self) (h : CallHandled config self call) :
    Inv (step config self call) := by
  cases call with
  | executeAsync key command validConfig => exact executeAsync_inv hinv key command validConfig
  | sync answers => exact runTasks_inv (handleResults_inv (schedulerSync_inv hinv)) h

theorem step_not_accounted {call : Call} (hinv : Inv self) (h : ¬CallHandled config self call) :
    ¬Accounted (step config self call) := by
  cases call with
  | executeAsync key command validConfig => exact absurd trivial h
  | sync answers => exact runTasks_not_accounted (handleResults_inv (schedulerSync_inv hinv)) h

theorem inv_init : Inv {} where
  once number key h := by simp at h
  terminal state h := by simp [resultStates] at h
  known entry h := by simp [entries] at h

/-- **Each job is accounted for throughout a run exactly if its answers are handled.** -/
theorem accounted_iff (config : KubeConfig) (calls : List Call) :
    (∀ executor ∈ Transition.states (step config) {} calls, Accounted executor) ↔
      Transition.AllSteps (step config) (CallHandled config) {} calls :=
  Transition.exact_condition (I := Inv) (P := Accounted) (fun _ h => h.toAccounted)
    (fun _ _ hinv h => step_inv hinv h) (fun _ _ hinv h => step_not_accounted hinv h) inv_init calls

/-- The services of a cluster with one worker. -/
def oneService : Dict (String × String) String := Dict.set {} ("d", "t") "http://worker"

/-- A job is dropped when the Knative services cannot be listed, and has two results when the reply
to its call has no execution time. -/
theorem oneJob_not_accounted :
    (¬∀ executor ∈ Transition.states (step {}) {}
      [.executeAsync { dagId := "d", taskId := "t", runId := "r" } ["airflow", "tasks", "run"] true,
        .sync { runNext := fun _ =>
          { firstUrls := .raised, nextUrls := .raised, invocation := .rpcError } }],
      Accounted executor) ∧
    ¬∀ executor ∈ Transition.states (step {}) {}
      [.executeAsync { dagId := "d", taskId := "t", runId := "r" } ["airflow", "tasks", "run"] true,
        .sync { runNext := fun _ =>
          { firstUrls := .services oneService, nextUrls := .raised,
            invocation := .reply (some .missing) } }],
      Accounted executor := by
  constructor
  · intro h
    have hlast := h _ (List.mem_cons_of_mem _ (List.mem_cons_of_mem _ List.mem_cons_self))
    have hone := hlast.once 0 { dagId := "d", taskId := "t", runId := "r" } rfl
    exact absurd hone (by decide)
  · intro h
    have hlast := h _ (List.mem_cons_of_mem _ (List.mem_cons_of_mem _ List.mem_cons_self))
    have hone := hlast.once 0 { dagId := "d", taskId := "t", runId := "r" } rfl
    exact absurd hone (by decide)

end KubernetesExecutor

end Airflow.Kubernetes
