import Airflow.DagProcessing.Proof.Bookkeeping

/-!
# The callbacks of a fixed set of files

* `Waiting`: an invariant about the arrivals that wait in `_callback_to_execute`. Each of them has
  its wake-up, the path of its file, in the queue, but for SLA callbacks.
* `callbacks_kept`: in a run over a fixed set of files, no path is queued twice, no request is handed
  over twice, and a request that waits is stored while its file is queued or processed, as long as
  `start_new_processes` drops no path with a callback that waits, and `add_new_file_path_to_queue`
  finds no new file queued.
-/

namespace Airflow.DagProcessing

/-! ## What is asked for -/

/-- The queue and the callbacks are as they should be. -/
structure CallbacksKept (m : Manager) : Prop where
  queue : m.filePathQueue.Nodup
  handedOnce : (m.handed.map Prod.fst).Nodup
  waiting : ∀ i request, m.received[i]? = some request → request.isSla = false →
    i ∉ m.handed.map Prod.fst →
    (i, request) ∈ m.callbacks request.fullFilepath ∧
      (request.fullFilepath ∈ m.filePathQueue ∨ request.fullFilepath ∈ m.processors.keys)

/-- The operation is one on the known files: a request for one of them, a refresh that finds them,
or a preparation of the queue for which they exist. -/
def OnKnownFiles (config : Config) (files : List String) : Operation → Prop
  | .addCallbackToQueue request => request.fullFilepath ∈ files
  | .setFilePaths newFilePaths => newFilePaths.Perm files
  | .prepareFilePathQueue _ modified =>
    config.sortMode = .modifiedTime → ∀ p ∈ files, (modified p).isSome
  | _ => True

/-- The path at the head of `path :: rest` is reached by `start_new_processes`, when `before` were
popped from the queue. -/
def Manager.Reaches (config : Config) (m : Manager) (before : List String) : Prop :=
  m.processors.size + before.countP (· ∉ m.processors.keys) < config.parallelism

/-- The operation drops no wake-up and queues no path again. `start_new_processes` reaches no path
of a running processor with a callback that is not an SLA's, and no file without stats is queued
when `add_new_file_path_to_queue` is called. -/
def KeepsWakeUps (config : Config) (m : Option Manager) : Operation → Prop
  | .startNewProcesses _ => ∀ m', m = some m' → ∀ before path rest,
    m'.filePathQueue = before ++ path :: rest → m'.Reaches config before →
    path ∈ m'.processors.keys → ∀ a ∈ m'.callbacks path, a.2.isSla = true
  | .addNewFilePathToQueue => ∀ m', m = some m' → ∀ p ∈ m'.filePaths,
    p ∉ m'.fileStats.keys → p ∉ m'.filePathQueue
  | _ => True

/-! ## The invariant -/

/-- The arrivals in `_callback_to_execute`, when `queue` is the queue. -/
structure Waiting (files queue : List String) (m : Manager) : Prop where
  queue_nodup : queue.Nodup
  queue_known : ∀ p ∈ queue, p ∈ files
  filePaths_nodup : m.filePaths.Nodup
  filePaths_known : ∀ p ∈ m.filePaths, p ∈ files
  processors_known : ∀ p ∈ m.processors.keys, p ∈ files
  stored : ∀ path, ∀ a ∈ m.callbacks path, a.2.fullFilepath = path ∧ path ∈ files ∧
    m.received[a.1]? = some a.2 ∧ a.1 ∉ m.handed.map Prod.fst
  stored_nodup : ∀ path, ((m.callbacks path).map Prod.fst).Nodup
  handed_nodup : (m.handed.map Prod.fst).Nodup
  handed_received : ∀ i ∈ m.handed.map Prod.fst, i < m.received.length
  waiting : ∀ i request, m.received[i]? = some request → request.isSla = false →
    i ∉ m.handed.map Prod.fst →
    (i, request) ∈ m.callbacks request.fullFilepath ∧ request.fullFilepath ∈ queue

variable {config : Config} {m m' : Manager} {files queue queue' : List String} {path : String}

theorem Waiting.init (files : List String) : Waiting files [] {} := by
  refine ⟨List.nodup_nil, ?_, List.nodup_nil, ?_, ?_, ?_, ?_, List.nodup_nil, ?_, ?_⟩
  all_goals simp [Manager.callbacks, Dict.keys]

theorem Waiting.kept (h : Waiting files m.filePathQueue m) : CallbacksKept m :=
  ⟨h.queue_nodup, h.handed_nodup, fun i request hi hsla hh =>
    ⟨(h.waiting i request hi hsla hh).1, .inl (h.waiting i request hi hsla hh).2⟩⟩

/-- Operations on the queue, the stats, the waitables, and that remove processors. -/
theorem Waiting.congr (h : Waiting files queue m) (hc : m'.callbackToExecute = m.callbackToExecute)
    (hr : m'.received = m.received) (hh : m'.handed = m.handed)
    (hf : m'.filePaths = m.filePaths) (hp : ∀ p ∈ m'.processors.keys, p ∈ files)
    (hnodup : queue'.Nodup) (hknown : ∀ p ∈ queue', p ∈ files)
    (hsub : ∀ p ∈ queue, p ∈ queue' ∨ ∀ a ∈ m.callbacks p, a.2.isSla = true) :
    Waiting files queue' m' := by
  have hcall : ∀ path, m'.callbacks path = m.callbacks path := fun path => by
    rw [Manager.callbacks, hc, Manager.callbacks]
  refine ⟨hnodup, hknown, by rw [hf]; exact h.filePaths_nodup, by rw [hf]; exact h.filePaths_known,
    hp, ?_, ?_, ?_, ?_, ?_⟩
  · intro path a ha
    rw [hcall] at ha
    rw [hr, hh]
    exact h.stored path a ha
  · intro path
    rw [hcall]
    exact h.stored_nodup path
  · rw [hh]
    exact h.handed_nodup
  · rw [hh, hr]
    exact h.handed_received
  · intro i request hi hsla hnot
    rw [hr] at hi
    rw [hh] at hnot
    rw [hcall]
    obtain ⟨hmem, hqueue⟩ := h.waiting i request hi hsla hnot
    refine ⟨hmem, (hsub _ hqueue).resolve_right fun hall => ?_⟩
    have hslaTrue := hall _ hmem
    rw [hsla] at hslaTrue
    cases hslaTrue

/-! ## Arrivals -/

namespace Manager

theorem callbacks_appendCallback (request : CallbackRequest) (path : String) :
    (m.appendCallback request).callbacks path =
      if path = request.fullFilepath then m.callbacks path ++ [(m.received.length, request)]
      else m.callbacks path := by
  unfold appendCallback callbacks
  rw [Dict.get?_set]
  split
  · next heq =>
    subst heq
    rfl
  · rfl

theorem getElem?_received {received : List CallbackRequest} {request request' : CallbackRequest}
    {i : Nat} (h : (received ++ [request])[i]? = some request') :
    received[i]? = some request' ∨ i = received.length ∧ request' = request := by
  rw [List.getElem?_append] at h
  split at h
  · exact .inl h
  · right
    rw [List.getElem?_singleton] at h
    split at h
    · next hlt hzero =>
      cases h
      exact ⟨by omega, rfl⟩
    · cases h

theorem getElem?_received_of_some {received : List CallbackRequest}
    {request request' : CallbackRequest} {i : Nat} (h : received[i]? = some request') :
    (received ++ [request])[i]? = some request' := by
  have hlt : i < received.length := (List.getElem?_eq_some_iff.mp h).1
  rw [List.getElem?_append_left hlt]
  exact h

/-- An arrival that is stored, with its file queued unless it is an SLA's. -/
theorem appendCallback_waiting (h : Waiting files queue m) {request : CallbackRequest}
    (hknown : request.fullFilepath ∈ files)
    (hnodup : queue'.Nodup) (hfiles : ∀ p ∈ queue', p ∈ files)
    (hsub : ∀ p ∈ queue, p ∈ queue')
    (hqueue : request.isSla = false → request.fullFilepath ∈ queue') :
    Waiting files queue' (m.appendCallback request) := by
  have hnot : m.received.length ∉ m.handed.map Prod.fst := fun hmem =>
    Nat.lt_irrefl _ (h.handed_received _ hmem)
  have hlast : (m.received ++ [request])[m.received.length]? = some request := by simp
  refine ⟨hnodup, hfiles, h.filePaths_nodup, h.filePaths_known, h.processors_known, ?_, ?_,
    h.handed_nodup, ?_, ?_⟩
  · intro path a ha
    rw [callbacks_appendCallback] at ha
    have hold : ∀ {a : Arrival}, a ∈ m.callbacks path → _ := fun ha => h.stored path _ ha
    split at ha
    · next heq =>
      rcases List.mem_append.mp ha with ha | ha
      · obtain ⟨hfile, hmem, hrec, hhanded⟩ := hold ha
        exact ⟨hfile, hmem, getElem?_received_of_some hrec, hhanded⟩
      · rw [List.mem_singleton.mp ha]
        exact ⟨heq.symm, heq ▸ hknown, hlast, hnot⟩
    · obtain ⟨hfile, hmem, hrec, hhanded⟩ := hold ha
      exact ⟨hfile, hmem, getElem?_received_of_some hrec, hhanded⟩
  · intro path
    rw [callbacks_appendCallback]
    split
    · rw [List.map_append, List.nodup_append]
      refine ⟨h.stored_nodup path, by simp, ?_⟩
      intro i hi j hj
      rw [List.map_singleton, List.mem_singleton] at hj
      obtain ⟨a, ha, rfl⟩ := List.mem_map.mp hi
      have hlt := (List.getElem?_eq_some_iff.mp (h.stored path a ha).2.2.1).1
      omega
    · exact h.stored_nodup path
  · intro i hi
    show i < (m.received ++ [request]).length
    have hlt := h.handed_received i hi
    rw [List.length_append]
    omega
  · intro i request' hi hsla hhanded
    rw [callbacks_appendCallback]
    rcases getElem?_received hi with hi | ⟨rfl, rfl⟩
    · obtain ⟨hmem, hq⟩ := h.waiting i request' hi hsla hhanded
      refine ⟨?_, hsub _ hq⟩
      split
      · exact List.mem_append_left _ hmem
      · exact hmem
    · refine ⟨?_, hqueue hsla⟩
      rw [if_pos rfl]
      exact List.mem_append_right _ (List.mem_singleton_self _)

theorem addCallbackToQueue_waiting (h : Waiting files m.filePathQueue m)
    {request : CallbackRequest} (hknown : request.fullFilepath ∈ files) :
    Waiting files (m.addCallbackToQueue request).filePathQueue (m.addCallbackToQueue request) := by
  unfold addCallbackToQueue
  split
  · next hsla =>
    split
    · -- an SLA callback that is queued already
      refine ⟨h.queue_nodup, h.queue_known, h.filePaths_nodup, h.filePaths_known,
        h.processors_known, ?_, h.stored_nodup, h.handed_nodup, ?_, ?_⟩
      · intro path a ha
        obtain ⟨hfile, hmem, hrec, hhanded⟩ := h.stored path a ha
        exact ⟨hfile, hmem, getElem?_received_of_some hrec, hhanded⟩
      · intro i hi
        show i < (m.received ++ [request]).length
        have hlt := h.handed_received i hi
        rw [List.length_append]
        omega
      · intro i request' hi hnot hhanded
        rcases getElem?_received hi with hi | ⟨-, rfl⟩
        · exact h.waiting i request' hi hnot hhanded
        · rw [hsla] at hnot
          cases hnot
    · refine appendCallback_waiting h hknown h.queue_nodup h.queue_known (fun _ hp => hp) ?_
      intro hnot
      rw [hsla] at hnot
      cases hnot
  · -- the path comes first, and only there
    dsimp only
    have hqueue : ({ m.appendCallback request with
        filePathQueue := m.filePathQueue.filter (· ≠ request.fullFilepath) }.addPathsToQueue
          [request.fullFilepath] true).filePathQueue =
        request.fullFilepath :: m.filePathQueue.filter (· ≠ request.fullFilepath) := by
      simp [addPathsToQueue]
    have happend : Waiting files
        (request.fullFilepath :: m.filePathQueue.filter (· ≠ request.fullFilepath))
        (m.appendCallback request) := appendCallback_waiting h hknown
      (List.nodup_cons.mpr ⟨by simp, h.queue_nodup.filter _⟩)
      (fun p hp => by
        rcases List.mem_cons.mp hp with rfl | hp
        · exact hknown
        · exact h.queue_known p (List.mem_filter.mp hp).1)
      (fun p hp => by
        by_cases heq : p = request.fullFilepath
        · rw [heq]
          exact List.mem_cons_self ..
        · exact List.mem_cons_of_mem _ (List.mem_filter.mpr ⟨hp, by simpa using heq⟩))
      fun _ => List.mem_cons_self ..
    rw [← hqueue] at happend
    exact happend.congr rfl rfl rfl rfl happend.processors_known happend.queue_nodup
      happend.queue_known fun _ hp => .inl hp

/-! ## Refreshing the directory -/

/-- `add_new_file_path_to_queue` changes the stats and puts paths before the queue. -/
theorem addNewFilePathToQueue_spec (filePaths : List String)
    (hnew : ∀ p ∈ filePaths, p ∉ m.fileStats.keys → p ∉ m.filePathQueue)
    (hnodup : m.filePathQueue.Nodup) :
    ∃ fileStats filePathQueue,
      filePaths.foldl (fun m filePath =>
        if filePath ∈ m.fileStats.keys then m
        else { m with
          fileStats := m.fileStats.set filePath defaultFileStat
          filePathQueue := filePath :: m.filePathQueue }) m =
        { m with fileStats, filePathQueue } ∧
      filePathQueue.Nodup ∧ (∀ p ∈ m.filePathQueue, p ∈ filePathQueue) ∧
      ∀ p ∈ filePathQueue, p ∈ m.filePathQueue ∨ p ∈ filePaths := by
  induction filePaths generalizing m with
  | nil => exact ⟨m.fileStats, m.filePathQueue, rfl, hnodup, fun _ hp => hp, fun _ hp => .inl hp⟩
  | cons path paths ih =>
    rw [List.foldl_cons]
    split
    · obtain ⟨stats, queue, hfold, hqueue, hkeep, honly⟩ :=
        ih (fun p hp => hnew p (List.mem_cons_of_mem _ hp)) hnodup
      refine ⟨stats, queue, hfold, hqueue, hkeep, fun p hp => ?_⟩
      exact (honly p hp).imp_right fun hp => List.mem_cons_of_mem _ hp
    · next hpath =>
      have hfresh := hnew path (List.mem_cons_self ..) hpath
      obtain ⟨stats, queue, hfold, hqueue, hkeep, honly⟩ := ih (m := { m with
          fileStats := m.fileStats.set path defaultFileStat
          filePathQueue := path :: m.filePathQueue }) (fun p hp hstat => by
        rw [Dict.mem_keys_set, not_or] at hstat
        rw [List.mem_cons, not_or]
        exact ⟨hstat.2, hnew p (List.mem_cons_of_mem _ hp) hstat.1⟩)
        (List.nodup_cons.mpr ⟨hfresh, hnodup⟩)
      refine ⟨stats, queue, hfold, hqueue, fun p hp => hkeep p (List.mem_cons_of_mem _ hp),
        fun p hp => ?_⟩
      rcases honly p hp with hp | hp
      · rcases List.mem_cons.mp hp with rfl | hp
        · exact .inr (List.mem_cons_self ..)
        · exact .inl hp
      · exact .inr (List.mem_cons_of_mem _ hp)

theorem addNewFilePathToQueue_waiting (h : Waiting files m.filePathQueue m)
    (hnew : ∀ p ∈ m.filePaths, p ∉ m.fileStats.keys → p ∉ m.filePathQueue) :
    Waiting files m.addNewFilePathToQueue.filePathQueue m.addNewFilePathToQueue := by
  obtain ⟨stats, queue, hfold, hnodup, hkeep, honly⟩ :=
    addNewFilePathToQueue_spec m.filePaths hnew h.queue_nodup
  unfold addNewFilePathToQueue
  rw [hfold]
  refine h.congr rfl rfl rfl rfl h.processors_known hnodup (fun p hp => ?_) fun p hp =>
    .inl (hkeep p hp)
  exact (honly p hp).elim (h.queue_known p) (h.filePaths_known p)

/-- A refresh that finds the known files drops nothing. -/
theorem setFilePaths_waiting (h : Waiting files m.filePathQueue m) {newFilePaths : List String}
    (hperm : newFilePaths.Perm files) (hnodup : files.Nodup)
    (hset : m.setFilePaths newFilePaths = some m') : Waiting files m'.filePathQueue m' := by
  have hmem : ∀ {p}, p ∈ files → p ∈ newFilePaths := fun hp => hperm.mem_iff.mpr hp
  unfold setFilePaths at hset
  obtain ⟨stats, -, rfl⟩ := Option.map_eq_some_iff.mp hset
  have hqueue : m.filePathQueue.filter (· ∈ newFilePaths) = m.filePathQueue :=
    List.filter_eq_self.mpr fun p hp => by simpa using hmem (h.queue_known p hp)
  have hcallbacks : ∀ path, Manager.callbacks { m with
      filePaths := newFilePaths
      filePathQueue := m.filePathQueue.filter (· ∈ newFilePaths)
      callbackToExecute := m.callbackToExecute.keep (· ∈ newFilePaths)
      fileStats := stats.keep (· ∈ newFilePaths)
      processors := m.processors.keep (· ∈ newFilePaths) } path = m.callbacks path := by
    intro path
    unfold callbacks
    dsimp only
    rw [Dict.get?_keep]
    split
    · rfl
    · next hpath =>
      -- nothing waits for an unknown file
      have hnil : m.callbacks path = [] := by
        refine List.eq_nil_iff_forall_not_mem.mpr fun a ha => hpath ?_
        exact decide_eq_true (hmem (h.stored path a ha).2.1)
      exact hnil.symm
  refine ⟨?_, ?_, hperm.nodup_iff.mpr hnodup, fun p hp => hperm.mem_iff.mp hp, ?_, ?_, ?_,
    h.handed_nodup, h.handed_received, ?_⟩
  · exact h.queue_nodup.filter _
  · exact fun p hp => h.queue_known p (List.mem_filter.mp hp).1
  · intro p hp
    obtain ⟨q, hq⟩ := Dict.mem_keys.mp hp
    rw [Dict.get?_keep] at hq
    split at hq
    · exact h.processors_known p (Dict.mem_keys.mpr ⟨q, hq⟩)
    · cases hq
  · intro path
    rw [hcallbacks]
    exact h.stored path
  · intro path
    rw [hcallbacks]
    exact h.stored_nodup path
  · intro i request hi hsla hnot
    rw [hcallbacks]
    show _ ∧ _ ∈ m.filePathQueue.filter (· ∈ newFilePaths)
    rw [hqueue]
    exact h.waiting i request hi hsla hnot

/-! ## Preparing the queue -/

/-- A fold that sets only the keys it goes through. -/
theorem mem_keys_foldl {f : Dict String Int → String → Dict String Int} {p : String}
    (hf : ∀ d path, p ∈ (f d path).keys → p = path ∨ p ∈ d.keys) :
    ∀ (l : List String) (d : Dict String Int), p ∈ (l.foldl f d).keys → p ∈ l ∨ p ∈ d.keys := by
  intro l
  induction l with
  | nil => exact fun d hp => .inr hp
  | cons path paths ih =>
    intro d hp
    rw [List.foldl_cons] at hp
    rcases ih _ hp with hp | hp
    · exact .inl (List.mem_cons_of_mem _ hp)
    · rcases hf d path hp with rfl | hp
      · exact .inl (List.mem_cons_self ..)
      · exact .inr hp

theorem filesWithMtime_keys (modified : String → Option Int) {p : String}
    (hp : p ∈ (m.filesWithMtime modified).keys) : p ∈ m.filePaths := by
  have hmem := mem_keys_foldl (p := p) (fun d path hp => ?_) m.filePaths {} hp
  · rcases hmem with hp | hp
    · exact hp
    · simp [Dict.keys] at hp
  · split at hp
    · exact .inr hp
    · exact (Dict.mem_keys_set.mp hp).symm

theorem sortedFilePaths_nodup (config : Config) (modified : String → Option Int)
    (h : m.filePaths.Nodup) : (m.sortedFilePaths config modified).Nodup := by
  unfold sortedFilePaths
  cases config.sortMode with
  | modifiedTime => exact (List.mergeSort_perm _ _).nodup_iff.mpr (Dict.nodup_keys _)
  | alphabetical => exact (List.mergeSort_perm _ _).nodup_iff.mpr h
  | randomSeededByHost => exact (config.shuffle_perm _).nodup_iff.mpr h
  | other => exact h

theorem sortedFilePaths_mem {modified : String → Option Int} {p : String}
    (hp : p ∈ m.sortedFilePaths config modified) : p ∈ m.filePaths := by
  unfold sortedFilePaths at hp
  cases hmode : config.sortMode with
  | modifiedTime =>
    rw [hmode] at hp
    exact filesWithMtime_keys modified (List.mem_mergeSort.mp hp)
  | alphabetical =>
    rw [hmode] at hp
    exact List.mem_mergeSort.mp hp
  | randomSeededByHost =>
    rw [hmode] at hp
    exact (config.shuffle_perm _).mem_iff.mp hp
  | other =>
    rw [hmode] at hp
    exact hp

theorem queuePaths_waiting (h : Waiting files m.filePathQueue m) {filePaths exclude : List String}
    (hnodup : filePaths.Nodup) (hknown : ∀ p ∈ filePaths, p ∈ files) :
    Waiting files (m.queuePaths config filePaths exclude).filePathQueue
      (m.queuePaths config filePaths exclude) := by
  refine h.congr rfl rfl rfl rfl h.processors_known ?_ ?_ ?_
  · unfold queuePaths addPathsToQueue
    refine List.nodup_append.mpr ⟨h.queue_nodup, (hnodup.filter _).filter _, ?_⟩
    rintro p hp _ hq rfl
    simpa [hp] using (List.mem_filter.mp hq).2
  · unfold queuePaths addPathsToQueue
    intro p hp
    rcases List.mem_append.mp hp with hp | hp
    · exact h.queue_known p hp
    · exact hknown p (List.mem_filter.mp (List.mem_filter.mp hp).1).1
  · exact fun p hp => .inl (List.mem_append_left _ hp)

theorem prepareFilePathQueue_waiting (h : Waiting files m.filePathQueue m) {now : Int}
    {modified : String → Option Int}
    (hexist : config.sortMode = .modifiedTime → ∀ p ∈ files, (modified p).isSome)
    (hprep : m.prepareFilePathQueue config now modified = some m') :
    Waiting files m'.filePathQueue m' := by
  have hmissing : m.filePathsToStopWatching config modified = [] := by
    unfold filePathsToStopWatching
    split
    · next hmode =>
      refine List.filter_eq_nil_iff.mpr fun p hp => ?_
      simp [Option.isSome_iff_ne_none.mp (hexist hmode p (h.filePaths_known p hp))]
    · rfl
  unfold prepareFilePathQueue at hprep
  dsimp only at hprep
  rw [hmissing] at hprep
  unfold stopWatching at hprep
  rw [if_pos rfl] at hprep
  cases hprep
  have h' : Waiting files m.filePathQueue
      { m with fileStats := m.fileStats.keep (· ∉ ([] : List String)) } :=
    h.congr rfl rfl rfl rfl h.processors_known h.queue_nodup h.queue_known fun _ hp => .inl hp
  exact queuePaths_waiting h' (sortedFilePaths_nodup config modified h.filePaths_nodup)
    fun p hp => h.filePaths_known p (sortedFilePaths_mem hp)

/-! ## Starting processes -/

theorem callbacks_startProcess (now : Int) (path path' : String) :
    (m.startProcess now path).callbacks path' =
      if path' = path then [] else m.callbacks path' := by
  unfold startProcess callbacks
  dsimp only
  rw [Dict.get?_erase]
  split <;> rfl

/-- A process takes all that waits for its file. -/
theorem startProcess_waiting (now : Int) (h : Waiting files (path :: queue) m) :
    Waiting files queue (m.startProcess now path) := by
  obtain ⟨hpath, hqueue⟩ := List.nodup_cons.mp h.queue_nodup
  have hhanded : (m.startProcess now path).handed.map Prod.fst =
      m.handed.map Prod.fst ++ (m.callbacks path).map Prod.fst := by
    simp [startProcess, Function.comp_def]
  refine ⟨hqueue, fun p hp => h.queue_known p (List.mem_cons_of_mem _ hp), h.filePaths_nodup,
    h.filePaths_known, ?_, ?_, ?_, ?_, ?_, ?_⟩
  · intro p hp
    rcases Dict.mem_keys_set.mp hp with hp | rfl
    · exact h.processors_known p hp
    · exact h.queue_known p (List.mem_cons_self ..)
  · intro path' a ha
    rw [callbacks_startProcess] at ha
    split at ha
    · cases ha
    · next hne =>
      obtain ⟨hfile, hmem, hrec, hnot⟩ := h.stored path' a ha
      refine ⟨hfile, hmem, hrec, ?_⟩
      rw [hhanded, List.mem_append, not_or]
      refine ⟨hnot, fun hin => ?_⟩
      -- an arrival waits for one file only
      obtain ⟨b, hb, heq⟩ := List.mem_map.mp hin
      obtain ⟨hfile', -, hrec', -⟩ := h.stored path b hb
      rw [heq, hrec] at hrec'
      have hsame : b.2 = a.2 := (Option.some.inj hrec').symm
      rw [hsame] at hfile'
      exact hne (hfile.symm.trans hfile')
  · intro path'
    rw [callbacks_startProcess]
    split
    · exact List.nodup_nil
    · exact h.stored_nodup path'
  · rw [hhanded, List.nodup_append]
    refine ⟨h.handed_nodup, h.stored_nodup path, ?_⟩
    rintro i hi _ hj rfl
    obtain ⟨a, ha, rfl⟩ := List.mem_map.mp hj
    exact (h.stored path a ha).2.2.2 hi
  · intro i hi
    rw [hhanded] at hi
    rcases List.mem_append.mp hi with hi | hi
    · exact h.handed_received i hi
    · obtain ⟨a, ha, rfl⟩ := List.mem_map.mp hi
      exact (List.getElem?_eq_some_iff.mp (h.stored path a ha).2.2.1).1
  · intro i request hi hsla hnot
    rw [hhanded, List.mem_append, not_or] at hnot
    obtain ⟨hmem, hq⟩ := h.waiting i request hi hsla hnot.1
    rw [callbacks_startProcess]
    have hne : request.fullFilepath ≠ path := by
      rintro heq
      rw [heq] at hmem
      exact hnot.2 (List.mem_map.mpr ⟨_, hmem, rfl⟩)
    rw [if_neg hne]
    exact ⟨hmem, (List.mem_cons.mp hq).resolve_left hne⟩

/-- **Starting processes keeps the invariant** where it drops no path that something waits for. -/
theorem startLoop_waiting (now : Int) (h : Waiting files queue m)
    (hkeeps : ∀ before path rest, queue = before ++ path :: rest → m.Reaches config before →
      path ∈ m.processors.keys → ∀ a ∈ m.callbacks path, a.2.isSla = true) :
    Waiting files (startLoop config now queue m).filePathQueue (startLoop config now queue m) := by
  induction queue generalizing m with
  | nil =>
    exact h.congr rfl rfl rfl rfl h.processors_known h.queue_nodup h.queue_known
      fun _ hp => .inl hp
  | cons path queue ih =>
    obtain ⟨hpath, hqueue⟩ := List.nodup_cons.mp h.queue_nodup
    unfold startLoop
    split
    · exact h.congr rfl rfl rfl rfl h.processors_known h.queue_nodup h.queue_known
        fun _ hp => .inl hp
    · next hslot =>
      have hfirst : m.Reaches config [] := by
        unfold Reaches
        simp only [List.countP_nil]
        omega
      split
      · next hrunning =>
        -- the path is dropped: nothing but SLA callbacks waits for its file
        have hsla := hkeeps [] path queue rfl hfirst hrunning
        refine ih (h.congr rfl rfl rfl rfl h.processors_known hqueue
          (fun p hp => h.queue_known p (List.mem_cons_of_mem _ hp)) fun p hp => ?_) ?_
        · rcases List.mem_cons.mp hp with rfl | hp
          · exact .inr hsla
          · exact .inl hp
        · intro before path' rest heq hreach hrunning'
          refine hkeeps (path :: before) path' rest (by rw [heq]; rfl) ?_ hrunning'
          unfold Reaches at hreach ⊢
          rw [List.countP_cons_of_neg (by simpa using hrunning)]
          exact hreach
      · next hfree =>
        refine ih (startProcess_waiting now h) ?_
        intro before path' rest heq hreach hrunning
        have hmem : ∀ p ∈ before, p ≠ path := by
          rintro p hp rfl
          exact hpath (heq ▸ List.mem_append_left _ hp)
        have hne : path' ≠ path := by
          rintro rfl
          exact hpath (heq ▸ List.mem_append_right _ (List.mem_cons_self ..))
        have hkeys : ∀ p, p ∈ (m.startProcess now path).processors.keys ↔
            p ∈ m.processors.keys ∨ p = path := fun p => Dict.mem_keys_set
        have hcount : before.countP (· ∉ (m.startProcess now path).processors.keys) =
            before.countP (· ∉ m.processors.keys) := by
          refine List.countP_congr fun p hp => ?_
          simp [hkeys, hmem p hp]
        have hsize : (m.startProcess now path).processors.size = m.processors.size + 1 :=
          Dict.size_set_of_not_mem hfree
        rw [callbacks_startProcess, if_neg hne]
        refine hkeeps (path :: before) path' rest (by rw [heq]; rfl) ?_
          (((hkeys path').mp hrunning).resolve_right hne)
        unfold Reaches at hreach ⊢
        rw [hcount, hsize] at hreach
        rw [List.countP_cons_of_pos (by simpa using hfree)]
        omega

/-! ## Collecting results -/

/-- What leaves the queue and the callbacks alone, and at most removes processors. -/
structure SameCallbacks (m m' : Manager) : Prop where
  queue : m'.filePathQueue = m.filePathQueue
  callbacks : m'.callbackToExecute = m.callbackToExecute
  received : m'.received = m.received
  handed : m'.handed = m.handed
  filePaths : m'.filePaths = m.filePaths
  processors : ∀ p ∈ m'.processors.keys, p ∈ m.processors.keys

theorem SameCallbacks.refl (m : Manager) : SameCallbacks m m :=
  ⟨rfl, rfl, rfl, rfl, rfl, fun _ hp => hp⟩

theorem SameCallbacks.trans {m'' : Manager} (h : SameCallbacks m m') (h' : SameCallbacks m' m'') :
    SameCallbacks m m'' :=
  ⟨h'.queue.trans h.queue, h'.callbacks.trans h.callbacks, h'.received.trans h.received,
    h'.handed.trans h.handed, h'.filePaths.trans h.filePaths,
    fun p hp => h.processors p (h'.processors p hp)⟩

theorem SameCallbacks.waiting (h : SameCallbacks m m') (hw : Waiting files m.filePathQueue m) :
    Waiting files m'.filePathQueue m' := by
  rw [h.queue]
  exact hw.congr h.callbacks h.received h.handed h.filePaths
    (fun p hp => hw.processors_known p (h.processors p hp)) hw.queue_nodup hw.queue_known
    fun _ hp => .inl hp

theorem collectResultsFromProcessor_same (m : Manager) (now : Int) (result : Option (Nat × Int))
    (p : Processor) : SameCallbacks m (m.collectResultsFromProcessor now result p) :=
  ⟨rfl, rfl, rfl, rfl, rfl, fun _ hp => hp⟩

theorem popProcessor_same {sentinel : Nat} (h : m.popProcessor sentinel path = some m') :
    SameCallbacks m m' := by
  unfold popProcessor at h
  split at h
  · next w p waitables v processors _ hpop =>
    cases h
    obtain ⟨-, rfl⟩ := Dict.pop_eq_some.mp hpop
    exact ⟨rfl, rfl, rfl, rfl, rfl, fun p hp => (Dict.mem_keys_erase.mp hp).1⟩
  · cases h

theorem collectReady_same {now : Int} {result : Nat → Option (Nat × Int)} {ready : List Nat}
    (h : collectReady now result ready m = some m') : SameCallbacks m m' := by
  induction ready generalizing m with
  | nil =>
    cases h
    exact .refl _
  | cons sentinel ready ih =>
    unfold collectReady at h
    split at h
    · exact ih h
    · split at h
      · cases h
      · next hpop =>
        have hsame := popProcessor_same hpop
        exact ((collectResultsFromProcessor_same ..).trans hsame).trans (ih h)

theorem collectLoop_same {now : Int} {result : Nat → Option (Nat × Int)} {ready : List Nat}
    (h : collectLoop now result ready m = some m') : SameCallbacks m m' := by
  induction ready generalizing m with
  | nil =>
    cases h
    exact .refl _
  | cons sentinel ready ih =>
    unfold collectLoop at h
    split at h
    · cases h
    · split at h
      · cases h
      · next hpop =>
        have hsame := popProcessor_same hpop
        exact hsame.trans ((collectResultsFromProcessor_same ..).trans (ih h))

theorem killTimedOutProcessors_same (h : Registered config m) {now : Int}
    (hkill : m.killTimedOutProcessors config now = some m') : SameCallbacks m m' := by
  obtain ⟨waitables, fileStats, hloop, -⟩ := killLoop_spec config now (handles_nodup h)
    fun e he => (h.filed e.1 e.2 (Dict.get?_eq_some.mpr he)).2
  unfold killTimedOutProcessors at hkill
  rw [hloop] at hkill
  cases hkill
  refine ⟨rfl, rfl, rfl, rfl, rfl, fun p hp => ?_⟩
  obtain ⟨e, he, rfl⟩ := List.mem_map.mp hp
  exact List.mem_map_of_mem (List.mem_filter.mp he).1

end Manager

/-! ## Runs -/

open Manager

/-- **An operation on the known files that drops no wake-up keeps the invariant.** -/
theorem Waiting.perform (h : Waiting files m.filePathQueue m) (hreg : Registered config m)
    (hnodup : files.Nodup) {operation : Operation} (hon : OnKnownFiles config files operation)
    (hkeeps : KeepsWakeUps config (some m) operation)
    (hperform : m.perform config operation = some m') : Waiting files m'.filePathQueue m' := by
  cases operation with
  | addCallbackToQueue request =>
    cases hperform
    exact addCallbackToQueue_waiting h hon
  | setFilePaths newFilePaths => exact setFilePaths_waiting h hon hnodup hperform
  | addNewFilePathToQueue =>
    cases hperform
    exact addNewFilePathToQueue_waiting h (hkeeps m rfl)
  | prepareFilePathQueue now modified => exact prepareFilePathQueue_waiting h hon hperform
  | startNewProcesses now =>
    cases hperform
    exact startLoop_waiting now h (hkeeps m rfl)
  | collectReady now finished result => exact (collectReady_same hperform).waiting h
  | collectResults now finished result => exact (collectLoop_same hperform).waiting h
  | killTimedOutProcessors now => exact (killTimedOutProcessors_same hreg hperform).waiting h

/-- On the known files no running processor's file is dropped. -/
theorem Waiting.keepsRunning (h : Waiting files m.filePathQueue m) {operation : Operation}
    (hon : OnKnownFiles config files operation) : KeepsRunning config (some m) operation := by
  cases operation with
  | setFilePaths newFilePaths =>
    intro m' hm p hp
    cases hm
    exact (List.Perm.mem_iff hon).mpr (h.processors_known p hp)
  | prepareFilePathQueue now modified =>
    intro m' hm hmissing
    cases hm
    refine absurd ?_ hmissing
    unfold filePathsToStopWatching
    split
    · next hmode =>
      refine List.filter_eq_nil_iff.mpr fun p hp => ?_
      simp [Option.isSome_iff_ne_none.mp (hon hmode p (h.filePaths_known p hp))]
    · rfl
  | _ => trivial

/-- **The callbacks of a run over known files**: the queue has no path twice, no request is handed
over twice, and one that waits is stored with its file queued or processed, in every state of a run
whose operations drop no wake-up. -/
theorem callbacks_kept (config : Config) {files : List String} (hnodup : files.Nodup)
    {operations : List Operation} (hon : ∀ operation ∈ operations, OnKnownFiles config files operation)
    (hkeeps : Transition.AllSteps (step config) (KeepsWakeUps config) (some {}) operations) :
    ∀ m ∈ Transition.states (step config) (some {}) operations, ∃ m', m = some m' ∧
      CallbacksKept m' := by
  have hsteps : Transition.AllSteps (step config)
      (fun m operation => OnKnownFiles config files operation ∧ KeepsWakeUps config m operation)
      (some {}) operations := Transition.AllSteps.of_forall hon hkeeps
  have hinv := hsteps.states (I := fun m => ∃ m', m = some m' ∧ Registered config m' ∧
      Waiting files m'.filePathQueue m') (fun m operation ⟨m₁, hm, hreg, hw⟩ ⟨hon, hkeeps⟩ => by
    subst hm
    obtain ⟨m₂, hperform, hreg₂⟩ := hreg.perform (hw.keepsRunning hon)
    exact ⟨m₂, hperform, hreg₂, hw.perform hreg hnodup hon hkeeps hperform⟩)
    ⟨_, rfl, .init config, .init files⟩
  intro m hm
  obtain ⟨m', hm', -, hw⟩ := hinv m hm
  exact ⟨m', hm', hw.kept⟩

/-! ### A callback that arrives while its file is processed -/

/-- Two slots, and the files in the order of the directory. -/
def twoSlots : Config := { parallelism := 2, sortMode := .other }

/-- A callback for the only file. -/
def taskCallback : CallbackRequest := ⟨"dag.py", .task, none, none⟩

/-- The file is processed once; the callback arrives, and the processor is done before a process is
started. -/
def promptRun : List Operation := [
  .setFilePaths ["dag.py"], .prepareFilePathQueue 0 fun _ => none, .startNewProcesses 0,
  .addCallbackToQueue taskCallback, .collectReady 1 [0] fun _ => none, .startNewProcesses 2]

theorem promptRun_kept :
    (∀ operation ∈ promptRun, OnKnownFiles twoSlots ["dag.py"] operation) ∧
    ∀ m ∈ Transition.states (step twoSlots) (some {}) promptRun,
      ∃ m', m = some m' ∧ CallbacksKept m' := by
  -- no processor runs when processes are started
  have hidle : ∀ {m : Option Manager}, m.map (·.processors.keys) = some [] →
      KeepsWakeUps twoSlots m (.startNewProcesses 0) := by
    intro m hm m' heq before path rest _ _ hrunning
    subst heq
    rw [Option.map_some, Option.some.injEq] at hm
    rw [hm] at hrunning
    cases hrunning
  have hknown : ∀ operation ∈ promptRun, OnKnownFiles twoSlots ["dag.py"] operation := by
    simp [promptRun, OnKnownFiles, twoSlots, taskCallback]
  exact ⟨hknown, callbacks_kept twoSlots (List.nodup_singleton _) hknown
    ⟨trivial, trivial, hidle rfl, trivial, trivial, hidle rfl, trivial⟩⟩

/-- A process is started while the file is still processed, then the processor is done. -/
def strandingRun : List Operation := [
  .setFilePaths ["dag.py"], .prepareFilePathQueue 0 fun _ => none, .startNewProcesses 0,
  .addCallbackToQueue taskCallback, .startNewProcesses 0, .collectReady 1 [0] fun _ => none]

/-- `start_new_processes` drops the path, and the callback waits for a file that is neither queued
nor processed. -/
theorem strandingRun_strands :
    (∀ operation ∈ strandingRun, OnKnownFiles twoSlots ["dag.py"] operation) ∧
    ¬∀ m ∈ Transition.states (step twoSlots) (some {}) strandingRun,
      ∃ m', m = some m' ∧ CallbacksKept m' := by
  refine ⟨by simp [strandingRun, OnKnownFiles, twoSlots, taskCallback], fun h => ?_⟩
  have hlast : (Transition.states (step twoSlots) (some {}) strandingRun).getLast (by simp [
      strandingRun, Transition.states]) ∈ _ := List.getLast_mem _
  obtain ⟨m, hm, hkept⟩ := h _ hlast
  have hstate : some (m.received, m.handed, m.filePathQueue, m.processors.keys) =
      some ([taskCallback], [], [], []) := by
    rw [← Option.map_some (f := fun m : Manager =>
      (m.received, m.handed, m.filePathQueue, m.processors.keys)), ← hm]
    rfl
  simp only [Option.some.injEq, Prod.mk.injEq] at hstate
  obtain ⟨hreceived, hhanded, hqueue, hprocessors⟩ := hstate
  have hwaits := (hkept.waiting 0 taskCallback (by rw [hreceived]; rfl) rfl
    (by rw [hhanded]; exact List.not_mem_nil)).2
  rw [hqueue, hprocessors] at hwaits
  simp at hwaits

end Airflow.DagProcessing
