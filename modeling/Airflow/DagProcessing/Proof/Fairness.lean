import Airflow.DagProcessing.Proof.Callbacks

/-!
# No file waits for ever in the queue

`start_new_processes` takes the paths from the left of the queue. A path that waits is overtaken
only by a callback for another file, which puts its file first, and by a file that is new to the
stats (`delays`). So while a path waits, no more processes are started than there were paths before
it and delays, and whenever `start_new_processes` leaves the path, all slots are taken
(`waits_in_turn`).
-/

namespace Airflow.DagProcessing

open Manager

/-! ## Waiting -/

/-- The paths that are taken from the queue before `path`. -/
def ahead (path : String) : Option Manager → Nat
  | some m => m.filePathQueue.idxOf path
  | none => 0

/-- The processes that an operation starts. -/
def started (config : Config) : Option Manager → Operation → Nat
  | some m, .startNewProcesses now => (m.startNewProcesses config now).nextHandle - m.nextHandle
  | _, _ => 0

/-- The paths that an operation puts on the left of the queue. -/
def delays : Option Manager → Operation → Nat
  | some _, .addCallbackToQueue request => if request.isSla then 0 else 1
  | some m, .addNewFilePathToQueue => m.filePaths.countP (· ∉ m.fileStats.keys)
  | _, _ => 0

/-- The path is queued before and after an operation that does not raise, and no path twice. -/
def Waits (config : Config) (path : String) (m : Option Manager) (operation : Operation) : Prop :=
  ∃ m₁ m₂, m = some m₁ ∧ m₁.perform config operation = some m₂ ∧ m₁.filePathQueue.Nodup ∧
    path ∈ m₁.filePathQueue ∧ path ∈ m₂.filePathQueue

/-- After `start_new_processes` all slots are taken. -/
def FillsSlots (config : Config) (m : Option Manager) : Operation → Prop
  | .startNewProcesses now =>
    ∀ m', m = some m' → config.parallelism ≤ (m'.startNewProcesses config now).processors.size
  | _ => True

/-! ## The position in a queue -/

variable {config : Config} {m m' : Manager} {path : String}

theorem idxOf_filter_le {queue : List String} {keeps : String → Bool}
    (h : path ∈ queue.filter keeps) : (queue.filter keeps).idxOf path ≤ queue.idxOf path := by
  induction queue with
  | nil => exact Nat.le_refl 0
  | cons first queue ih =>
    by_cases hfirst : first = path
    · subst hfirst
      rw [List.filter_cons_of_pos (List.mem_filter.mp h).2]
      simp
    · rw [List.idxOf_cons_ne _ hfirst]
      rw [List.filter_cons] at h ⊢
      split at h
      · next hkeeps =>
        rw [if_pos hkeeps, List.idxOf_cons_ne _ hfirst]
        have hmem : path ∈ queue.filter keeps := (List.mem_cons.mp h).resolve_left (Ne.symm hfirst)
        exact Nat.succ_le_succ (ih hmem)
      · next hdrops =>
        rw [if_neg hdrops]
        exact Nat.le_succ_of_le (ih h)

theorem idxOf_cons_le (path first : String) (queue : List String) :
    (first :: queue).idxOf path ≤ queue.idxOf path + 1 := by
  by_cases hfirst : first = path
  · simp [hfirst]
  · rw [List.idxOf_cons_ne _ hfirst]

/-- Paths are dropped, and others are added on the right. -/
theorem idxOf_filter_append_le {queue extra : List String} {keeps : String → Bool}
    (h : path ∈ queue.filter keeps ++ extra) (hqueue : path ∈ queue)
    (hextra : path ∈ extra → keeps path = true) :
    (queue.filter keeps ++ extra).idxOf path ≤ queue.idxOf path := by
  have hmem : path ∈ queue.filter keeps := by
    obtain h | h := List.mem_append.mp h
    · exact h
    · exact List.mem_filter.mpr ⟨hqueue, hextra h⟩
  rw [List.idxOf_append_of_mem hmem]
  exact idxOf_filter_le hmem

/-! ## Operations -/

namespace Manager

theorem addCallbackToQueue_ahead (m : Manager) (request : CallbackRequest)
    (h : path ∈ (m.addCallbackToQueue request).filePathQueue) :
    (m.addCallbackToQueue request).filePathQueue.idxOf path ≤
      m.filePathQueue.idxOf path + if request.isSla then 0 else 1 := by
  unfold addCallbackToQueue at h ⊢
  split
  · split <;> exact Nat.le_refl _
  · next hsla =>
    rw [if_neg hsla] at h
    have hqueue : ({ m.appendCallback request with
        filePathQueue := m.filePathQueue.filter (· ≠ request.fullFilepath) }.addPathsToQueue
          [request.fullFilepath] true).filePathQueue =
        request.fullFilepath :: m.filePathQueue.filter (· ≠ request.fullFilepath) := by
      simp [addPathsToQueue]
    dsimp only at h ⊢
    change path ∈ ({ m.appendCallback request with
      filePathQueue := m.filePathQueue.filter (· ≠ request.fullFilepath) }.addPathsToQueue
        [request.fullFilepath] true).filePathQueue at h
    change ({ m.appendCallback request with
      filePathQueue := m.filePathQueue.filter (· ≠ request.fullFilepath) }.addPathsToQueue
        [request.fullFilepath] true).filePathQueue.idxOf path ≤ m.filePathQueue.idxOf path + 1
    rw [hqueue] at h ⊢
    obtain rfl | hmem := List.mem_cons.mp h
    · simp
    · have hle := idxOf_cons_le path request.fullFilepath
        (m.filePathQueue.filter (· ≠ request.fullFilepath))
      have hfilter := idxOf_filter_le hmem
      omega

theorem addNewFilePathToQueue_ahead (path : String) (filePaths : List String) (m : Manager) :
    (filePaths.foldl (fun m filePath =>
      if filePath ∈ m.fileStats.keys then m
      else { m with
        fileStats := m.fileStats.set filePath defaultFileStat
        filePathQueue := filePath :: m.filePathQueue }) m).filePathQueue.idxOf path ≤
      m.filePathQueue.idxOf path + filePaths.countP (· ∉ m.fileStats.keys) := by
  induction filePaths generalizing m with
  | nil => exact Nat.le_refl _
  | cons filePath filePaths ih =>
    rw [List.foldl_cons, List.countP_cons]
    by_cases hknown : filePath ∈ m.fileStats.keys
    · rw [if_pos hknown]
      simpa [hknown] using ih m
    · rw [if_neg hknown]
      have hrest := ih { m with
        fileStats := m.fileStats.set filePath defaultFileStat
        filePathQueue := filePath :: m.filePathQueue }
      have hfirst := idxOf_cons_le path filePath m.filePathQueue
      have hcount : filePaths.countP (· ∉ (m.fileStats.set filePath defaultFileStat).keys) ≤
          filePaths.countP (· ∉ m.fileStats.keys) := by
        refine List.countP_mono_left fun other _ hnew => ?_
        rw [decide_eq_true_eq, Dict.mem_keys_set, not_or] at hnew
        exact decide_eq_true hnew.1
      simp only [hknown, not_false_eq_true, decide_true, if_true]
      dsimp only at hrest
      omega

theorem setFilePaths_ahead {newFilePaths : List String} (h : m.setFilePaths newFilePaths = some m')
    (hmem : path ∈ m'.filePathQueue) :
    m'.filePathQueue.idxOf path ≤ m.filePathQueue.idxOf path := by
  unfold setFilePaths at h
  obtain ⟨fileStats, -, rfl⟩ := Option.map_eq_some_iff.mp h
  exact idxOf_filter_le hmem

/-- The files that `prepare_file_path_queue` queues are not missing. -/
theorem not_missing_of_sorted {modified : String → Option Int}
    (h : path ∈ m.sortedFilePaths config modified) :
    path ∈ m.filePaths ∧ path ∉ m.filePathsToStopWatching config modified := by
  refine ⟨sortedFilePaths_mem h, fun hmissing => ?_⟩
  unfold filePathsToStopWatching at hmissing
  unfold sortedFilePaths at h
  split at hmissing
  · next hmode =>
    rw [hmode] at h
    have hnone := (List.mem_filter.mp hmissing).2
    have hsome : path ∈ m.filePaths.filter (fun p => (modified p).isSome) ∨
        path ∈ ({} : Dict String Int).keys := by
      have hkeys := List.mem_mergeSort.mp h
      unfold filesWithMtime at hkeys
      generalize ({} : Dict String Int) = files at hkeys ⊢
      generalize m.filePaths = filePaths at hkeys ⊢
      induction filePaths generalizing files with
      | nil => exact .inr hkeys
      | cons filePath filePaths ih =>
        rw [List.foldl_cons] at hkeys
        rw [List.filter_cons]
        cases hmodified : modified filePath with
        | none =>
          rw [hmodified] at hkeys
          exact ih files hkeys
        | some time =>
          rw [hmodified] at hkeys
          simp only [Option.isSome_some, if_true, List.mem_cons]
          obtain hrest | hset := ih _ hkeys
          · exact .inl (.inr hrest)
          · obtain hset | rfl := Dict.mem_keys_set.mp hset
            · exact .inr hset
            · exact .inl (.inl rfl)
    obtain hsome | hsome := hsome
    · have hsome := (List.mem_filter.mp hsome).2
      rw [Option.isNone_iff_eq_none] at hnone
      rw [hnone] at hsome
      cases hsome
    · exact absurd hsome List.not_mem_nil
  · exact absurd hmissing List.not_mem_nil

theorem stopWatching_queue {missing : List String} (h : m.stopWatching missing = some m') :
    ∃ keeps : String → Bool, m'.filePathQueue = m.filePathQueue.filter keeps ∧
      ∀ p ∈ m.filePaths, p ∉ missing → keeps p = true := by
  unfold stopWatching at h
  dsimp only at h
  split at h
  · obtain rfl := Option.some.inj h
    refine ⟨fun _ => true, ?_, fun _ _ _ => rfl⟩
    simp
  · unfold setFilePaths at h
    obtain ⟨fileStats, -, rfl⟩ := Option.map_eq_some_iff.mp h
    refine ⟨_, rfl, fun p hp hkept => ?_⟩
    simp [hp, hkept]

theorem prepareFilePathQueue_ahead {now : Int} {modified : String → Option Int}
    (h : m.prepareFilePathQueue config now modified = some m') (hqueue : path ∈ m.filePathQueue)
    (hmem : path ∈ m'.filePathQueue) :
    m'.filePathQueue.idxOf path ≤ m.filePathQueue.idxOf path := by
  unfold prepareFilePathQueue at h
  dsimp only at h
  obtain ⟨m₁, hstop, rfl⟩ := Option.map_eq_some_iff.mp h
  obtain ⟨keeps, hkeeps, hexisting⟩ := stopWatching_queue hstop
  unfold queuePaths addPathsToQueue at hmem ⊢
  dsimp only at hmem ⊢
  rw [if_neg Bool.false_ne_true, hkeeps] at hmem ⊢
  refine idxOf_filter_append_le hmem hqueue fun hextra => ?_
  have hsorted := (List.mem_filter.mp (List.mem_filter.mp hextra).1).1
  obtain ⟨hfile, hexists⟩ := not_missing_of_sorted hsorted
  exact hexisting path hfile hexists

/-- What is taken from the queue is started, unless it is processed already; when something is left,
all slots are taken. -/
theorem startLoop_spec (config : Config) (now : Int) (queue : List String) (m : Manager) :
    ∃ taken, queue = taken ++ (startLoop config now queue m).filePathQueue ∧
      (startLoop config now queue m).nextHandle ≤ m.nextHandle + taken.length ∧
      ((startLoop config now queue m).filePathQueue ≠ [] →
        config.parallelism ≤ (startLoop config now queue m).processors.size) := by
  induction queue generalizing m with
  | nil => exact ⟨[], rfl, Nat.le_refl _, fun h => absurd rfl h⟩
  | cons filePath queue ih =>
    unfold startLoop
    split
    · next hfull => exact ⟨[], rfl, Nat.le_refl _, fun _ => hfull⟩
    · split
      · obtain ⟨taken, hqueue, hstarted, hslots⟩ := ih m
        refine ⟨filePath :: taken, ?_, ?_, hslots⟩
        · rw [List.cons_append, ← hqueue]
        · rw [List.length_cons]
          omega
      · obtain ⟨taken, hqueue, hstarted, hslots⟩ := ih (m.startProcess now filePath)
        refine ⟨filePath :: taken, ?_, ?_, hslots⟩
        · rw [List.cons_append, ← hqueue]
        · have hnext : (m.startProcess now filePath).nextHandle = m.nextHandle + 1 := rfl
          rw [List.length_cons]
          omega

theorem startNewProcesses_ahead {now : Int} (hnodup : m.filePathQueue.Nodup)
    (h : path ∈ (m.startNewProcesses config now).filePathQueue) :
    (m.startNewProcesses config now).nextHandle - m.nextHandle +
      (m.startNewProcesses config now).filePathQueue.idxOf path ≤ m.filePathQueue.idxOf path := by
  obtain ⟨taken, hqueue, hstarted, -⟩ := startLoop_spec config now m.filePathQueue m
  change m.filePathQueue = taken ++ (m.startNewProcesses config now).filePathQueue at hqueue
  change (m.startNewProcesses config now).nextHandle ≤ _ at hstarted
  have htaken : path ∉ taken := by
    rw [hqueue] at hnodup
    exact fun hmem => (List.nodup_append.mp hnodup).2.2 path hmem path h rfl
  have hposition : m.filePathQueue.idxOf path =
      taken.length + (m.startNewProcesses config now).filePathQueue.idxOf path := by
    conv_lhs => rw [hqueue]
    rw [List.idxOf_append_of_notMem htaken]
  omega

theorem killLoop_queue {now : Int} {l : List (String × Processor)}
    (h : killLoop config now l m = some m') : m'.filePathQueue = m.filePathQueue := by
  induction l generalizing m with
  | nil =>
    obtain rfl := Option.some.inj h
    rfl
  | cons e l ih =>
    unfold killLoop at h
    dsimp only at h
    split at h
    · split at h
      · cases h
      · have hrest := ih h
        exact hrest
    · exact ih h

theorem killTimedOutProcessors_queue {now : Int}
    (h : m.killTimedOutProcessors config now = some m') : m'.filePathQueue = m.filePathQueue := by
  unfold killTimedOutProcessors at h
  dsimp only at h
  obtain ⟨m₁, hloop, rfl⟩ := Option.map_eq_some_iff.mp h
  have hqueue := killLoop_queue hloop
  exact hqueue

end Manager

/-! ## Runs -/

/-- **One operation**: what it starts, it takes from what is before the path. -/
theorem ahead_step {m : Option Manager} {operation : Operation}
    (h : Waits config path m operation) :
    started config m operation + ahead path (step config m operation) ≤
      ahead path m + delays m operation := by
  obtain ⟨m₁, m₂, rfl, hperform, hnodup, hbefore, hafter⟩ := h
  have hstep : step config (some m₁) operation = some m₂ := hperform
  rw [hstep]
  have hsame : m₂.filePathQueue = m₁.filePathQueue →
      0 + ahead path (some m₂) ≤ ahead path (some m₁) + 0 := by
    intro hqueue
    rw [ahead, ahead, hqueue]
    omega
  cases operation with
  | addCallbackToQueue request =>
    obtain rfl := Option.some.inj hperform
    have hle := m₁.addCallbackToQueue_ahead request hafter
    simp only [started, delays, ahead]
    omega
  | setFilePaths newFilePaths =>
    have hle := setFilePaths_ahead hperform hafter
    simp only [started, delays, ahead]
    omega
  | addNewFilePathToQueue =>
    obtain rfl := Option.some.inj hperform
    have hle := addNewFilePathToQueue_ahead path m₁.filePaths m₁
    simp only [started, delays, ahead]
    unfold addNewFilePathToQueue
    omega
  | prepareFilePathQueue now modified =>
    have hle := prepareFilePathQueue_ahead hperform hbefore hafter
    simp only [started, delays, ahead]
    omega
  | startNewProcesses now =>
    obtain rfl := Option.some.inj hperform
    have hle := startNewProcesses_ahead hnodup hafter
    simp only [started, delays, ahead]
    omega
  | collectReady now finished result => exact hsame (collectReady_same hperform).queue
  | collectResults now finished result => exact hsame (collectLoop_same hperform).queue
  | killTimedOutProcessors now => exact hsame (killTimedOutProcessors_queue hperform)

theorem Waits.fillsSlots {m : Option Manager} {operation : Operation}
    (h : Waits config path m operation) : FillsSlots config m operation := by
  obtain ⟨m₁, m₂, rfl, hperform, -, -, hafter⟩ := h
  cases operation with
  | startNewProcesses now =>
    intro m' hm'
    obtain rfl := Option.some.inj hm'
    obtain rfl := Option.some.inj hperform
    obtain ⟨taken, -, -, hslots⟩ := startLoop_spec config now m₁.filePathQueue m₁
    exact hslots (List.ne_nil_of_mem hafter)
  | _ => trivial

/-- **A path waits its turn.** In a run in which it stays queued, no more processes are started than
there were paths before it and delays, and every `start_new_processes` leaves all slots taken. -/
theorem waits_in_turn {m : Option Manager} {operations : List Operation}
    (h : Transition.AllSteps (step config) (Waits config path) m operations) :
    Transition.total (step config) (started config) m operations +
        ahead path (operations.foldl (step config) m) ≤
      ahead path m + Transition.total (step config) delays m operations ∧
    Transition.AllSteps (step config) (FillsSlots config) m operations :=
  ⟨h.potential fun _ _ => ahead_step, h.imp fun _ _ => Waits.fillsSlots⟩

/-- `"b.py"` waits for the only slot; a callback for another file goes before it. -/
def waitingRun : List Operation := [
  .startNewProcesses 0, .addCallbackToQueue taskCallback, .startNewProcesses 1]

/-- One process is started, and one path is before `"b.py"` in the end. -/
theorem waitingRun_in_turn :
    1 + 1 ≤ 1 + Transition.total (step oneSlot) delays
      (some { filePathQueue := ["a.py", "b.py"] }) waitingRun ∧
    Transition.AllSteps (step oneSlot) (FillsSlots oneSlot)
      (some { filePathQueue := ["a.py", "b.py"] }) waitingRun := by
  have hwaits : Transition.AllSteps (step oneSlot) (Waits oneSlot "b.py")
      (some { filePathQueue := ["a.py", "b.py"] }) waitingRun :=
    ⟨⟨_, _, rfl, rfl, by decide, by decide, by decide⟩,
      ⟨_, _, rfl, rfl, by decide, by decide, by decide⟩,
      ⟨_, _, rfl, rfl, by decide, by decide, by decide⟩, trivial⟩
  exact waits_in_turn hwaits

end Airflow.DagProcessing
