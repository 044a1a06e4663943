import Mathlib.Data.List.Sort
import Airflow.Lib.Dict

/-!
# The bookkeeping of `DagFileProcessorManager`

`airflow/dag_processing/manager.py`: the file paths, the queue, the processors and the callbacks of
a `Manager`, with one definition for each method that changes them. A method that raises `KeyError`
returns `none`.

What the environment decides comes as an argument: the time, the files on disk and when they were
modified, which processors have finished and with what result. A processor's waitable handle is a
number that no other processor has. Metrics, log messages and what the manager does in the database
are left out.

`received` and `handed` are a record that no method reads: the callback requests that arrived, and
the processor that an arrival was handed to.
-/

namespace Airflow.DagProcessing

/-! ## Data -/

/-- The classes of `airflow/callbacks/callback_requests.py`. -/
inductive CallbackKind where
  | task
  | dag
  | sla (dagId : String)
  deriving DecidableEq

/-- `CallbackRequest`, compared by all its attributes. -/
structure CallbackRequest where
  fullFilepath : String
  kind : CallbackKind
  processorSubdir : Option String := none
  msg : Option String := none
  deriving DecidableEq

/-- `isinstance(request, SlaCallbackRequest)`. -/
def CallbackRequest.isSla (request : CallbackRequest) : Bool :=
  match request.kind with
  | .sla _ => true
  | _ => false

/-- A callback request with the number of its arrival. -/
abbrev Arrival := Nat × CallbackRequest

/-- `DagFileStat`. -/
structure DagFileStat where
  numDags : Nat := 0
  importErrors : Int := 0
  lastFinishTime : Option Int := none
  lastDuration : Option Int := none
  runCount : Nat := 0

/-- `DEFAULT_FILE_STAT`. -/
def defaultFileStat : DagFileStat := {}

/-- `DagFileProcessorProcess`. -/
structure Processor where
  filePath : String
  waitableHandle : Nat
  startTime : Int
  callbackRequests : List Arrival

/-- `[scheduler] file_parsing_sort_mode`. -/
inductive SortMode where
  | modifiedTime
  | alphabetical
  | randomSeededByHost
  | other
  deriving DecidableEq

/-- The settings that the manager reads. `shuffle` is what `random.Random(get_hostname())` does. -/
structure Config where
  parallelism : Nat
  fileProcessInterval : Int := 0
  maxRuns : Int := -1
  processorTimeout : Int := 0
  sortMode : SortMode := .modifiedTime
  shuffle : List String → List String := id
  shuffle_perm : ∀ l, (shuffle l).Perm l := by exact fun l => List.Perm.refl l

/-- The attributes of a `DagFileProcessorManager`. -/
structure Manager where
  filePaths : List String := []
  filePathQueue : List String := []
  fileStats : Dict String DagFileStat := {}
  processors : Dict String Processor := {}
  waitables : Dict Nat Processor := {}
  callbackToExecute : Dict String (List Arrival) := {}
  nextHandle : Nat := 0
  received : List CallbackRequest := []
  handed : List (Nat × Nat) := []

namespace Manager

variable (config : Config) (m : Manager)

/-! ## The queue and the callbacks -/

/-- `_callback_to_execute[file_path]`, a `defaultdict`. -/
def callbacks (filePath : String) : List Arrival := (m.callbackToExecute.get? filePath).getD []

/-- `get_run_count`. -/
def getRunCount (filePath : String) : Nat := ((m.fileStats.get? filePath).map (·.runCount)).getD 0

/-- `get_last_finish_time`. -/
def getLastFinishTime (filePath : String) : Option Int :=
  (m.fileStats.get? filePath).bind (·.lastFinishTime)

/-- `_add_paths_to_queue`; `extendleft` reverses. -/
def addPathsToQueue (filePathsToEnqueue : List String) (addAtFront : Bool) : Manager :=
  let newFilePaths := filePathsToEnqueue.filter (· ∉ m.filePathQueue)
  { m with
    filePathQueue :=
      if addAtFront then newFilePaths.reverse ++ m.filePathQueue
      else m.filePathQueue ++ newFilePaths }

/-- `_callback_to_execute[request.full_filepath].append(request)`. -/
def appendCallback (request : CallbackRequest) : Manager :=
  { m with
    callbackToExecute := m.callbackToExecute.set request.fullFilepath
      (m.callbacks request.fullFilepath ++ [(m.received.length, request)])
    received := m.received ++ [request] }

/-- `_add_callback_to_queue`. -/
def addCallbackToQueue (request : CallbackRequest) : Manager :=
  if request.isSla then
    if request ∈ (m.callbacks request.fullFilepath).map Prod.snd then
      { m with received := m.received ++ [request] }
    else m.appendCallback request
  else
    let m := m.appendCallback request
    let m := { m with filePathQueue := m.filePathQueue.filter (· ≠ request.fullFilepath) }
    m.addPathsToQueue [request.fullFilepath] true

/-- `add_new_file_path_to_queue`. -/
def addNewFilePathToQueue : Manager :=
  m.filePaths.foldl (fun m filePath =>
    if filePath ∈ m.fileStats.keys then m
    else { m with
      fileStats := m.fileStats.set filePath defaultFileStat
      filePathQueue := filePath :: m.filePathQueue }) m

/-! ## Refreshing the directory -/

/-- `_file_stats.pop(file_path)` for each of the processors that are stopped. -/
def popStats : Dict String DagFileStat → List String → Option (Dict String DagFileStat)
  | stats, [] => some stats
  | stats, filePath :: filePaths =>
    match stats.pop filePath with
    | none => none
    | some (_, stats) => popStats stats filePaths

/-- `set_file_paths`. -/
def setFilePaths (newFilePaths : List String) : Option Manager :=
  (popStats m.fileStats (m.processors.keys.filter (· ∉ newFilePaths))).map fun fileStats =>
    { m with
      filePaths := newFilePaths
      filePathQueue := m.filePathQueue.filter (· ∈ newFilePaths)
      callbackToExecute := m.callbackToExecute.keep (· ∈ newFilePaths)
      fileStats := fileStats.keep (· ∈ newFilePaths)
      processors := m.processors.keep (· ∈ newFilePaths) }

/-! ## Preparing the queue -/

/-- The file was processed recently, and not modified since where that counts. -/
def recentlyProcessed (now : Int) (modified : String → Option Int) (filePath : String) : Bool :=
  match m.getLastFinishTime filePath with
  | none => false
  | some lastFinishTime =>
    now - lastFinishTime < config.fileProcessInterval &&
      !(config.sortMode = .modifiedTime &&
        (modified filePath).any fun fileModifiedTime => lastFinishTime < fileModifiedTime)

/-- `files_with_mtime`. -/
def filesWithMtime (modified : String → Option Int) : Dict String Int :=
  m.filePaths.foldl (fun files filePath =>
    match modified filePath with
    | none => files
    | some time => files.set filePath time) {}

/-- `file_paths_to_stop_watching`: in the mode `modified_time`, the files that are missing. -/
def filePathsToStopWatching (modified : String → Option Int) : List String :=
  if config.sortMode = .modifiedTime then m.filePaths.filter fun filePath => (modified filePath).isNone
  else []

/-- The file paths in the order of the mode. -/
def sortedFilePaths (modified : String → Option Int) : List String :=
  match config.sortMode with
  | .modifiedTime =>
    let time filePath := ((m.filesWithMtime modified).get? filePath).getD 0
    (m.filesWithMtime modified).keys.mergeSort fun a b => time b ≤ time a
  | .alphabetical => m.filePaths.mergeSort fun a b => a ≤ b
  | .randomSeededByHost => config.shuffle m.filePaths
  | .other => m.filePaths

/-- `_file_stats.pop(file_path, None)` for the missing files, then `set_file_paths` without them. -/
def stopWatching (missing : List String) : Option Manager :=
  let m := { m with fileStats := m.fileStats.keep (· ∉ missing) }
  if missing = [] then some m else m.setFilePaths (m.filePaths.filter (· ∉ missing))

/-- The end of `prepare_file_path_queue`: the paths that are not excluded are queued. -/
def queuePaths (filePaths exclude : List String) : Manager :=
  let atRunLimit := (m.fileStats.entries.filter (·.2.runCount = config.maxRuns)).map Prod.fst
  let toQueue := filePaths.filter fun filePath => filePath ∉ exclude ∧ filePath ∉ atRunLimit
  let m := { m with fileStats := toQueue.foldl (·.setDefault · defaultFileStat) m.fileStats }
  m.addPathsToQueue toQueue false

/-- `prepare_file_path_queue`. -/
def prepareFilePathQueue (now : Int) (modified : String → Option Int) : Option Manager :=
  let missing := m.filePathsToStopWatching config modified
  let filePathsRecentlyProcessed :=
    (m.filePaths.filter (· ∉ missing)).filter (m.recentlyProcessed config now modified ·)
  (m.stopWatching missing).map fun m' =>
    m'.queuePaths config (m.sortedFilePaths config modified)
      (m.processors.keys ++ filePathsRecentlyProcessed)

/-! ## Processes -/

/-- The body of the loop of `start_new_processes`, for a path that is not being processed. -/
def startProcess (now : Int) (filePath : String) : Manager :=
  let processor : Processor := ⟨filePath, m.nextHandle, now, m.callbacks filePath⟩
  { m with
    callbackToExecute := m.callbackToExecute.erase filePath
    processors := m.processors.set filePath processor
    waitables := m.waitables.set m.nextHandle processor
    nextHandle := m.nextHandle + 1
    handed := m.handed ++ (m.callbacks filePath).map fun arrival => (arrival.1, m.nextHandle) }

/-- The loop of `start_new_processes` over the queue. -/
def startLoop (now : Int) : List String → Manager → Manager
  | [], m => { m with filePathQueue := [] }
  | filePath :: queue, m =>
    if config.parallelism ≤ m.processors.size then { m with filePathQueue := filePath :: queue }
    else if filePath ∈ m.processors.keys then startLoop now queue m
    else startLoop now queue (m.startProcess now filePath)

/-- `start_new_processes`. -/
def startNewProcesses (now : Int) : Manager := startLoop config now m.filePathQueue m

/-- `_collect_results_from_processor`. -/
def collectResultsFromProcessor (now : Int) (result : Option (Nat × Int)) (processor : Processor) :
    Manager :=
  let (numDags, countImportErrors) := result.getD (0, -1)
  let stat : DagFileStat :=
    { numDags
      importErrors := countImportErrors
      lastFinishTime := some now
      lastDuration := some (now - processor.startTime)
      runCount := m.getRunCount processor.filePath + 1 }
  { m with fileStats := m.fileStats.set processor.filePath stat }

/-- `waitables.pop` and `_processors.pop` for a processor. -/
def popProcessor (sentinel : Nat) (filePath : String) : Option Manager :=
  match m.waitables.pop sentinel, m.processors.pop filePath with
  | some (_, waitables), some (_, processors) => some { m with waitables, processors }
  | _, _ => none

/-- The loop over the ready sentinels in `_run_parsing_loop`. -/
def collectReady (now : Int) (result : Nat → Option (Nat × Int)) :
    List Nat → Manager → Option Manager
  | [], m => some m
  | sentinel :: ready, m =>
    match m.waitables.get? sentinel with
    | none => collectReady now result ready m
    | some processor =>
      match (m.collectResultsFromProcessor now (result sentinel) processor).popProcessor sentinel
        processor.filePath with
      | none => none
      | some m => collectReady now result ready m

/-- The loop of `collect_results`. -/
def collectLoop (now : Int) (result : Nat → Option (Nat × Int)) :
    List Nat → Manager → Option Manager
  | [], m => some m
  | sentinel :: ready, m =>
    match m.waitables.get? sentinel with
    | none => none
    | some processor =>
      match m.popProcessor processor.waitableHandle processor.filePath with
      | none => none
      | some m =>
        collectLoop now result ready (m.collectResultsFromProcessor now (result sentinel) processor)

/-- `multiprocessing.connection.wait` on the waitables of processors, of which some have
finished. -/
def ready (finished : List Nat) : List Nat := m.waitables.keys.filter (· ∈ finished)

/-- The part of `_kill_timed_out_processors` that iterates over the processors. -/
def killLoop (now : Int) : List (String × Processor) → Manager → Option Manager
  | [], m => some m
  | (filePath, processor) :: processors, m =>
    if now - processor.startTime > config.processorTimeout then
      match m.waitables.pop processor.waitableHandle with
      | none => none
      | some (_, waitables) =>
        let stat : DagFileStat :=
          { numDags := 0
            importErrors := 1
            lastFinishTime := some now
            lastDuration := some (now - processor.startTime)
            runCount := m.getRunCount filePath + 1 }
        killLoop now processors
          { m with waitables, fileStats := m.fileStats.set processor.filePath stat }
    else killLoop now processors m

/-- `_kill_timed_out_processors`; the keys it removes in the end are those of the dict. -/
def killTimedOutProcessors (now : Int) : Option Manager :=
  let timedOut := m.processors.entries.filter fun e =>
    now - e.2.startTime > config.processorTimeout
  (m.killLoop config now m.processors.entries).map fun m =>
    { m with processors := m.processors.keep (· ∉ timedOut.map Prod.fst) }

end Manager

/-! ## Runs -/

/-- A call of one of the methods. -/
inductive Operation where
  | addCallbackToQueue (request : CallbackRequest)
  | setFilePaths (newFilePaths : List String)
  | addNewFilePathToQueue
  | prepareFilePathQueue (now : Int) (modified : String → Option Int)
  | startNewProcesses (now : Int)
  /-- The loop over the ready processors in `_run_parsing_loop`. -/
  | collectReady (now : Int) (finished : List Nat) (result : Nat → Option (Nat × Int))
  | collectResults (now : Int) (finished : List Nat) (result : Nat → Option (Nat × Int))
  | killTimedOutProcessors (now : Int)

/-- What an operation does, `none` if it raises `KeyError`. -/
def Manager.perform (config : Config) (m : Manager) : Operation → Option Manager
  | .addCallbackToQueue request => some (m.addCallbackToQueue request)
  | .setFilePaths newFilePaths => m.setFilePaths newFilePaths
  | .addNewFilePathToQueue => some m.addNewFilePathToQueue
  | .prepareFilePathQueue now modified => m.prepareFilePathQueue config now modified
  | .startNewProcesses now => some (m.startNewProcesses config now)
  | .collectReady now finished result => m.collectReady now result (m.ready finished)
  | .collectResults now finished result => m.collectLoop now result (m.ready finished)
  | .killTimedOutProcessors now => m.killTimedOutProcessors config now

/-- A step of the manager, which a `KeyError` ends. -/
def step (config : Config) (m : Option Manager) (operation : Operation) : Option Manager :=
  m.bind (·.perform config operation)

end Airflow.DagProcessing
