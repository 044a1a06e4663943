import Airflow.DagProcessing.Manager
import Airflow.Lib.Transition

/-!
# The processors of the manager and their waitables

* `Registered`: the waitables and the processors are the same processors, each under its own handle
  and its own file; an invariant of every operation that drops no running processor's file.
* `manager_consistent`: in a run, no operation raises `KeyError` and the bookkeeping stays
  consistent exactly when no refresh, and no file that vanishes, drops the file of a running
  processor. `set_file_paths` stops such a processor, but leaves it in `waitables`.
-/

namespace Airflow.DagProcessing

/-! ## What is asked for -/

/-- The bookkeeping of the processors. -/
structure Consistent (config : Config) (m : Manager) : Prop where
  registered : ∀ p, p ∈ m.waitables.values ↔ p ∈ m.processors.values
  onePerFile : ∀ p ∈ m.waitables.values, ∀ q ∈ m.waitables.values,
    p.filePath = q.filePath → p = q
  slots : m.processors.size ≤ config.parallelism

/-- The manager has not raised `KeyError`, and is consistent. -/
def Sound (config : Config) (m : Option Manager) : Prop := ∃ m', m = some m' ∧ Consistent config m'

/-- The operation does not drop the file of a running processor. -/
def KeepsRunning (config : Config) (m : Option Manager) : Operation → Prop
  | .setFilePaths newFilePaths => ∀ m', m = some m' → ∀ p ∈ m'.processors.keys, p ∈ newFilePaths
  | .prepareFilePathQueue _ modified => ∀ m', m = some m' →
    m'.filePathsToStopWatching config modified ≠ [] → ∀ p ∈ m'.processors.keys,
      p ∈ m'.filePaths ∧ p ∉ m'.filePathsToStopWatching config modified
  | _ => True

/-! ## The invariant -/

/-- Every processor is in `_processors` under its file and in `waitables` under its handle. -/
structure Registered (config : Config) (m : Manager) : Prop where
  filed : ∀ path p, m.processors.get? path = some p →
    p.filePath = path ∧ m.waitables.get? p.waitableHandle = some p
  known : ∀ h p, m.waitables.get? h = some p →
    p.waitableHandle = h ∧ m.processors.get? p.filePath = some p
  fresh : ∀ h ∈ m.waitables.keys, h < m.nextHandle
  slots : m.processors.size ≤ config.parallelism

variable {config : Config} {m m' : Manager}

theorem Registered.init (config : Config) : Registered config {} := by
  refine ⟨fun path p h => ?_, fun h p hp => ?_, fun h hh => ?_, Nat.zero_le _⟩
  · simp at h
  · simp at hp
  · simp [Dict.keys] at hh

theorem Registered.consistent (h : Registered config m) : Consistent config m := by
  have hvalue : ∀ p, p ∈ m.waitables.values ↔ p ∈ m.processors.values := by
    intro p
    rw [Dict.mem_values, Dict.mem_values]
    constructor
    · rintro ⟨handle, hp⟩
      exact ⟨_, (h.known handle p hp).2⟩
    · rintro ⟨path, hp⟩
      exact ⟨_, (h.filed path p hp).2⟩
  refine ⟨hvalue, fun p hp q hq heq => ?_, h.slots⟩
  obtain ⟨handle, hp⟩ := Dict.mem_values.mp hp
  obtain ⟨handle', hq⟩ := Dict.mem_values.mp hq
  have hp' := (h.known handle p hp).2
  have hq' := (h.known handle' q hq).2
  rw [heq, hq'] at hp'
  exact (Option.some.inj hp').symm

/-- The operations that leave the processors alone. -/
theorem Registered.congr (h : Registered config m) (hp : m'.processors = m.processors)
    (hw : m'.waitables = m.waitables) (hn : m'.nextHandle = m.nextHandle) :
    Registered config m' := by
  refine ⟨fun path p hget => ?_, fun handle p hget => ?_, fun handle hh => ?_, ?_⟩
  · rw [hp] at hget
    rw [hw]
    exact h.filed path p hget
  · rw [hw] at hget
    rw [hp]
    exact h.known handle p hget
  · rw [hw] at hh
    rw [hn]
    exact h.fresh handle hh
  · rw [hp]
    exact h.slots

/-! ## The queue -/

namespace Manager

theorem addCallbackToQueue_registered (h : Registered config m) (request : CallbackRequest) :
    Registered config (m.addCallbackToQueue request) := by
  unfold addCallbackToQueue
  split
  · split
    · exact h.congr rfl rfl rfl
    · exact h.congr rfl rfl rfl
  · exact h.congr rfl rfl rfl

theorem addNewFilePathToQueue_registered (h : Registered config m) :
    Registered config m.addNewFilePathToQueue := by
  unfold addNewFilePathToQueue
  generalize m.filePaths = filePaths
  induction filePaths generalizing m with
  | nil => exact h
  | cons path paths ih =>
    rw [List.foldl_cons]
    apply ih
    split
    · exact h
    · exact h.congr rfl rfl rfl

/-! ## Refreshing the directory -/

theorem popStats_nil (stats : Dict String DagFileStat) : popStats stats [] = some stats := rfl

theorem setFilePaths_some {newFilePaths : List String} (h : m.setFilePaths newFilePaths = some m') :
    m'.processors = m.processors.keep (· ∈ newFilePaths) ∧ m'.waitables = m.waitables ∧
      m'.nextHandle = m.nextHandle := by
  unfold setFilePaths at h
  obtain ⟨stats, -, rfl⟩ := Option.map_eq_some_iff.mp h
  exact ⟨rfl, rfl, rfl⟩

/-- A refresh that keeps the files of the running processors. -/
theorem setFilePaths_of_keeps {newFilePaths : List String}
    (hkeeps : ∀ p ∈ m.processors.keys, p ∈ newFilePaths) :
    ∃ m', m.setFilePaths newFilePaths = some m' ∧ m'.processors = m.processors := by
  have hnil : m.processors.keys.filter (· ∉ newFilePaths) = [] :=
    List.filter_eq_nil_iff.mpr fun p hp => by simp [hkeeps p hp]
  have hkeep : m.processors.keep (· ∈ newFilePaths) = m.processors :=
    Dict.keep_eq_self fun p hp => by simp [hkeeps p hp]
  rw [setFilePaths, hnil, popStats_nil]
  exact ⟨_, rfl, hkeep⟩

/-- **A refresh that drops the file of a running processor leaves it in the waitables.** -/
theorem not_consistent_of_drops {newFilePaths : List String} (h : Registered config m) {path : String}
    (hpath : path ∈ m.processors.keys) (hdrop : path ∉ newFilePaths)
    (hp : m'.processors = m.processors.keep (· ∈ newFilePaths))
    (hw : m'.waitables = m.waitables) : ¬Consistent config m' := by
  intro hc
  obtain ⟨p, hget⟩ := Dict.mem_keys.mp hpath
  obtain ⟨hfile, hwait⟩ := h.filed path p hget
  have hmem : p ∈ m'.waitables.values := by
    rw [hw]
    exact Dict.mem_values.mpr ⟨_, hwait⟩
  obtain ⟨path', hget'⟩ := Dict.mem_values.mp ((hc.registered p).mp hmem)
  rw [hp, Dict.get?_keep] at hget'
  split at hget'
  · next hkept =>
    have hfile' := (h.filed path' p hget').1
    rw [hfile] at hfile'
    subst hfile'
    exact hdrop (by simpa using hkept)
  · cases hget'

theorem queuePaths_processors (filePaths exclude : List String) :
    (m.queuePaths config filePaths exclude).processors = m.processors ∧
      (m.queuePaths config filePaths exclude).waitables = m.waitables ∧
      (m.queuePaths config filePaths exclude).nextHandle = m.nextHandle :=
  ⟨rfl, rfl, rfl⟩

/-! ## Starting processes -/

theorem startProcess_registered (h : Registered config m) (now : Int) {path : String}
    (hslot : m.processors.size < config.parallelism) (hpath : path ∉ m.processors.keys) :
    Registered config (m.startProcess now path) := by
  have hhandle : m.nextHandle ∉ m.waitables.keys := fun hmem =>
    Nat.lt_irrefl _ (h.fresh _ hmem)
  have hfree : ∀ q, m.processors.get? path ≠ some q := fun q hq =>
    hpath (Dict.mem_keys.mpr ⟨q, hq⟩)
  have hfresh : ∀ q, m.waitables.get? m.nextHandle ≠ some q := fun q hq =>
    hhandle (Dict.mem_keys.mpr ⟨q, hq⟩)
  unfold startProcess
  refine ⟨fun path' p hget => ?_, fun handle p hget => ?_, fun handle hmem => ?_, ?_⟩
  · rw [Dict.get?_set] at hget ⊢
    split at hget
    · next heq =>
      cases hget
      exact ⟨heq.symm, by simp⟩
    · obtain ⟨hfile, hwait⟩ := h.filed path' p hget
      refine ⟨hfile, ?_⟩
      rw [if_neg]
      · exact hwait
      · rintro heq
        rw [heq] at hwait
        exact hfresh p hwait
  · rw [Dict.get?_set] at hget ⊢
    split at hget
    · next heq =>
      cases hget
      exact ⟨heq.symm, by simp⟩
    · obtain ⟨hhandle', hproc⟩ := h.known handle p hget
      refine ⟨hhandle', ?_⟩
      rw [if_neg]
      · exact hproc
      · rintro heq
        rw [heq] at hproc
        exact hfree p hproc
  · rcases Dict.mem_keys_set.mp hmem with hmem | rfl
    · exact Nat.lt_succ_of_lt (h.fresh handle hmem)
    · exact Nat.lt_succ_self _
  · rw [Dict.size_set_of_not_mem hpath]
    exact hslot

theorem startLoop_registered (now : Int) (queue : List String) (h : Registered config m) :
    Registered config (startLoop config now queue m) := by
  induction queue generalizing m with
  | nil => exact h.congr rfl rfl rfl
  | cons path queue ih =>
    unfold startLoop
    split
    · exact h.congr rfl rfl rfl
    · next hslot =>
      split
      · exact ih h
      · next hpath => exact ih (startProcess_registered h now (by omega) hpath)

/-! ## Collecting results -/

/-- A processor that has finished is found under its handle and its file. -/
theorem popProcessor_registered (h : Registered config m) {sentinel : Nat} {p : Processor}
    (hp : m.waitables.get? sentinel = some p) :
    ∃ m', m.popProcessor sentinel p.filePath = some m' ∧ Registered config m' ∧
      m'.waitables = m.waitables.erase sentinel := by
  obtain ⟨hhandle, hproc⟩ := h.known sentinel p hp
  subst hhandle
  refine ⟨{ m with
    waitables := m.waitables.erase p.waitableHandle
    processors := m.processors.erase p.filePath }, ?_, ⟨?_, ?_, ?_, ?_⟩, rfl⟩
  · have hpopped : m.waitables.pop p.waitableHandle =
        some (p, m.waitables.erase p.waitableHandle) := Dict.pop_eq_some.mpr ⟨hp, rfl⟩
    have hpopped' : m.processors.pop p.filePath = some (p, m.processors.erase p.filePath) :=
      Dict.pop_eq_some.mpr ⟨hproc, rfl⟩
    rw [popProcessor, hpopped, hpopped']
  · intro path q hget
    rw [Dict.get?_erase] at hget ⊢
    split at hget
    · cases hget
    · next hne =>
      obtain ⟨hfile, hwait⟩ := h.filed path q hget
      refine ⟨hfile, ?_⟩
      rw [if_neg]
      · exact hwait
      · intro heq
        rw [heq, hp] at hwait
        cases hwait
        exact hne hfile.symm
  · intro handle q hget
    rw [Dict.get?_erase] at hget ⊢
    split at hget
    · cases hget
    · next hne =>
      obtain ⟨hhandle, hq⟩ := h.known handle q hget
      refine ⟨hhandle, ?_⟩
      rw [if_neg]
      · exact hq
      · intro heq
        rw [heq, hproc] at hq
        cases hq
        exact hne hhandle.symm
  · intro handle hmem
    exact h.fresh handle (Dict.mem_keys_erase.mp hmem).1
  · exact Dict.size_erase_le.trans h.slots

theorem collectReady_registered (now : Int) (result : Nat → Option (Nat × Int)) (ready : List Nat)
    (h : Registered config m) :
    ∃ m', collectReady now result ready m = some m' ∧ Registered config m' := by
  induction ready generalizing m with
  | nil => exact ⟨m, rfl, h⟩
  | cons sentinel ready ih =>
    unfold collectReady
    cases hget : m.waitables.get? sentinel with
    | none => exact ih h
    | some p =>
      have h' : Registered config (m.collectResultsFromProcessor now (result sentinel) p) :=
        h.congr rfl rfl rfl
      obtain ⟨m₁, hpop, hreg, -⟩ := popProcessor_registered h' hget
      simp only [hpop]
      exact ih hreg

theorem collectLoop_registered (now : Int) (result : Nat → Option (Nat × Int)) {ready : List Nat}
    (hnodup : ready.Nodup) (hmem : ∀ s ∈ ready, s ∈ m.waitables.keys) (h : Registered config m) :
    ∃ m', collectLoop now result ready m = some m' ∧ Registered config m' := by
  induction ready generalizing m with
  | nil => exact ⟨m, rfl, h⟩
  | cons sentinel ready ih =>
    obtain ⟨hnot, hnodup⟩ := List.nodup_cons.mp hnodup
    obtain ⟨p, hget⟩ := Dict.mem_keys.mp (hmem sentinel (List.mem_cons_self ..))
    obtain ⟨m₁, hpop, hreg, hwait⟩ := popProcessor_registered h hget
    have hhandle := (h.known sentinel p hget).1
    unfold collectLoop
    simp only [hget, hhandle, hpop]
    refine ih hnodup (fun s hs => ?_) (hreg.congr rfl rfl rfl)
    show s ∈ m₁.waitables.keys
    rw [hwait]
    refine Dict.mem_keys_erase.mpr ⟨hmem s (List.mem_cons_of_mem _ hs), ?_⟩
    rintro rfl
    exact hnot hs

/-! ## Timeouts -/

/-- The processor has run for longer than the timeout. -/
def timedOut (config : Config) (now : Int) (e : String × Processor) : Bool :=
  now - e.2.startTime > config.processorTimeout

/-- What the loop over the processors leaves: it removes those that timed out from the waitables,
and writes their stats. -/
theorem killLoop_spec (config : Config) (now : Int) {l : List (String × Processor)}
    (hnodup : (l.map (·.2.waitableHandle)).Nodup)
    (hwait : ∀ e ∈ l, m.waitables.get? e.2.waitableHandle = some e.2) :
    ∃ waitables fileStats, killLoop config now l m = some { m with waitables, fileStats } ∧
      ∀ h, waitables.get? h =
        if h ∈ (l.filter (timedOut config now)).map (·.2.waitableHandle) then none
        else m.waitables.get? h := by
  induction l generalizing m with
  | nil => exact ⟨m.waitables, m.fileStats, rfl, fun h => by simp⟩
  | cons e l ih =>
    obtain ⟨path, p⟩ := e
    rw [List.map_cons, List.nodup_cons] at hnodup
    obtain ⟨hnot, hnodup⟩ := hnodup
    have hp := hwait (path, p) (List.mem_cons_self ..)
    unfold killLoop
    by_cases hout : now - p.startTime > config.processorTimeout
    · have hpop : m.waitables.pop p.waitableHandle =
          some (p, m.waitables.erase p.waitableHandle) := Dict.pop_eq_some.mpr ⟨hp, rfl⟩
      simp only [if_pos hout, hpop]
      obtain ⟨waitables, fileStats, hkill, hget⟩ := ih (m := { m with
          waitables := m.waitables.erase p.waitableHandle
          fileStats := m.fileStats.set p.filePath
            { numDags := 0
              importErrors := 1
              lastFinishTime := some now
              lastDuration := some (now - p.startTime)
              runCount := m.getRunCount path + 1 } }) hnodup fun e he => by
        rw [Dict.get?_erase, if_neg]
        · exact hwait e (List.mem_cons_of_mem _ he)
        · rintro heq
          exact hnot (List.mem_map.mpr ⟨e, he, heq⟩)
      refine ⟨waitables, fileStats, hkill, fun h => ?_⟩
      have htimed : timedOut config now (path, p) = true := by simpa [timedOut] using hout
      rw [hget, List.filter_cons_of_pos htimed, List.map_cons, Dict.get?_erase]
      simp only [List.mem_cons]
      by_cases heq : h = p.waitableHandle
      · simp [heq]
      · simp only [heq, if_false, false_or]
    · simp only [if_neg hout]
      obtain ⟨waitables, fileStats, hkill, hget⟩ := ih hnodup fun e he =>
        hwait e (List.mem_cons_of_mem _ he)
      refine ⟨waitables, fileStats, hkill, fun h => ?_⟩
      have htimed : ¬timedOut config now (path, p) = true := by simpa [timedOut] using hout
      rw [hget, List.filter_cons_of_neg htimed]

theorem handles_nodup (h : Registered config m) :
    (m.processors.entries.map (·.2.waitableHandle)).Nodup := by
  refine (List.nodup_map_iff_inj_on (List.Nodup.of_map _ m.processors.keys_nodup)).mpr ?_
  rintro ⟨path, p⟩ hp ⟨path', q⟩ hq heq
  obtain ⟨hfile, hwait⟩ := h.filed path p (Dict.get?_eq_some.mpr hp)
  obtain ⟨hfile', hwait'⟩ := h.filed path' q (Dict.get?_eq_some.mpr hq)
  dsimp only at heq
  rw [heq, hwait'] at hwait
  cases hwait
  rw [← hfile, ← hfile']

theorem killTimedOutProcessors_registered (h : Registered config m) (now : Int) :
    ∃ m', m.killTimedOutProcessors config now = some m' ∧ Registered config m' := by
  obtain ⟨waitables, fileStats, hkill, hget⟩ := killLoop_spec config now
    (handles_nodup h) fun e he => (h.filed e.1 e.2 (Dict.get?_eq_some.mpr he)).2
  unfold killTimedOutProcessors
  rw [hkill]
  refine ⟨_, rfl, ⟨fun path p hp => ?_, fun handle p hp => ?_, fun handle hmem => ?_, ?_⟩⟩
  · rw [Dict.get?_keep] at hp
    split at hp
    · next hkept =>
      obtain ⟨hfile, hwait⟩ := h.filed path p hp
      refine ⟨hfile, ?_⟩
      rw [hget, if_neg]
      · exact hwait
      · intro hmem
        obtain ⟨⟨path', q⟩, hq, heq⟩ := List.mem_map.mp hmem
        obtain ⟨hq, hout⟩ := List.mem_filter.mp hq
        obtain ⟨hfile', hwait'⟩ := h.filed path' q (Dict.get?_eq_some.mpr hq)
        dsimp only at heq
        rw [heq, hwait] at hwait'
        cases hwait'
        have hnot : path ∉ (m.processors.entries.filter (timedOut config now)).map Prod.fst := by
          simpa [timedOut] using hkept
        exact hnot (List.mem_map.mpr ⟨(path', p), List.mem_filter.mpr ⟨hq, hout⟩,
          hfile'.symm.trans hfile⟩)
    · cases hp
  · rw [hget] at hp
    split at hp
    · cases hp
    · next hkept =>
      obtain ⟨hhandle, hproc⟩ := h.known handle p hp
      refine ⟨hhandle, ?_⟩
      rw [Dict.get?_keep, if_pos]
      · exact hproc
      · rw [decide_eq_true_eq]
        intro hmem
        obtain ⟨⟨path', q⟩, hq, heq⟩ := List.mem_map.mp hmem
        obtain ⟨hq, hout⟩ := List.mem_filter.mp hq
        have hq' := Dict.get?_eq_some.mpr hq
        dsimp only at heq
        rw [heq, hproc] at hq'
        cases hq'
        refine hkept (List.mem_map.mpr ⟨(path', p), List.mem_filter.mpr ⟨hq, ?_⟩, hhandle⟩)
        simpa [timedOut] using hout
  · obtain ⟨p, hp⟩ := Dict.mem_keys.mp hmem
    rw [hget] at hp
    split at hp
    · cases hp
    · exact h.fresh handle (Dict.mem_keys.mpr ⟨p, hp⟩)
  · exact (Dict.size_keep_le _ _).trans h.slots

end Manager

/-! ## Runs -/

open Manager

/-- **An operation that drops no running processor's file raises no `KeyError` and keeps the
invariant.** -/
theorem Registered.perform (h : Registered config m) {operation : Operation}
    (hkeeps : KeepsRunning config (some m) operation) :
    ∃ m', m.perform config operation = some m' ∧ Registered config m' := by
  cases operation with
  | addCallbackToQueue request => exact ⟨_, rfl, addCallbackToQueue_registered h request⟩
  | setFilePaths newFilePaths =>
    obtain ⟨m₁, hset, hproc⟩ := setFilePaths_of_keeps (hkeeps m rfl)
    obtain ⟨-, hwait, hnext⟩ := setFilePaths_some hset
    exact ⟨m₁, hset, h.congr hproc hwait hnext⟩
  | addNewFilePathToQueue => exact ⟨_, rfl, addNewFilePathToQueue_registered h⟩
  | prepareFilePathQueue now modified =>
    show ∃ m', m.prepareFilePathQueue config now modified = some m' ∧ _
    have hstop : ∃ m₁, m.stopWatching (m.filePathsToStopWatching config modified) = some m₁ ∧
        Registered config m₁ := by
      unfold stopWatching
      split
      · exact ⟨_, rfl, h.congr rfl rfl rfl⟩
      · next hmissing =>
        have hkept := hkeeps m rfl hmissing
        dsimp only
        have hkeep : ∀ p ∈ m.processors.keys,
            p ∈ m.filePaths.filter (· ∉ m.filePathsToStopWatching config modified) :=
          fun p hp => by simpa using hkept p hp
        obtain ⟨m₁, hset, hproc⟩ := setFilePaths_of_keeps (m := { m with
          fileStats := m.fileStats.keep (· ∉ m.filePathsToStopWatching config modified) }) hkeep
        obtain ⟨-, hwait, hnext⟩ := setFilePaths_some hset
        exact ⟨m₁, hset, h.congr hproc hwait hnext⟩
    obtain ⟨m₁, hm₁, hreg⟩ := hstop
    unfold prepareFilePathQueue
    dsimp only
    rw [hm₁]
    exact ⟨_, rfl, hreg.congr rfl rfl rfl⟩
  | startNewProcesses now => exact ⟨_, rfl, startLoop_registered now _ h⟩
  | collectReady now finished result => exact collectReady_registered now result _ h
  | collectResults now finished result =>
    exact collectLoop_registered now result (m.waitables.nodup_keys.filter _)
      (fun s hs => (List.mem_filter.mp hs).1) h
  | killTimedOutProcessors now => exact killTimedOutProcessors_registered h now

/-- An operation that drops a running processor's file raises `KeyError` or leaves an inconsistent
manager. -/
theorem not_sound_of_drops (h : Registered config m) {operation : Operation}
    (hdrops : ¬KeepsRunning config (some m) operation) :
    ¬Sound config (m.perform config operation) := by
  rintro ⟨m', hperform, hc⟩
  cases operation with
  | setFilePaths newFilePaths =>
    obtain ⟨hproc, hwait, -⟩ := setFilePaths_some hperform
    simp only [KeepsRunning, Option.some.injEq, forall_eq', not_forall] at hdrops
    obtain ⟨path, hpath, hdrop⟩ := hdrops
    exact not_consistent_of_drops h hpath hdrop hproc hwait hc
  | prepareFilePathQueue now modified =>
    simp only [KeepsRunning, Option.some.injEq, forall_eq', not_forall] at hdrops
    obtain ⟨hmissing, path, hpath, hdrop⟩ := hdrops
    simp only [Manager.perform, prepareFilePathQueue, stopWatching, if_neg hmissing,
      Option.map_eq_some_iff] at hperform
    obtain ⟨m₁, hset, rfl⟩ := hperform
    obtain ⟨hproc, hwait, -⟩ := setFilePaths_some hset
    have hc₁ : Consistent config m₁ := ⟨hc.registered, hc.onePerFile, hc.slots⟩
    exact not_consistent_of_drops h hpath (by simpa using hdrop) hproc hwait hc₁
  | _ => exact hdrops trivial

/-- **The bookkeeping of a run of the manager** is consistent throughout, without `KeyError`,
exactly when no operation drops the file of a running processor. -/
theorem manager_consistent (config : Config) (operations : List Operation) :
    (∀ m ∈ Transition.states (step config) (some {}) operations, Sound config m) ↔
      Transition.AllSteps (step config) (KeepsRunning config) (some {}) operations := by
  refine Transition.exact_condition (I := fun m => ∃ m', m = some m' ∧ Registered config m')
    ?_ ?_ ?_ ⟨_, rfl, .init config⟩ operations
  · rintro _ ⟨m, rfl, h⟩
    exact ⟨m, rfl, h.consistent⟩
  · rintro _ operation ⟨m, rfl, h⟩ hkeeps
    exact h.perform hkeeps
  · rintro _ operation ⟨m, rfl, h⟩ hdrops
    exact not_sound_of_drops h hdrops

/-! ### A file that is deleted while it is processed -/

/-- A manager with one slot that queues the files in the order of the directory. -/
def oneSlot : Config := { parallelism := 1, sortMode := .other }

/-- The file is found, queued and processed; then the directory is empty, and the processor that
was stopped is ready. -/
def deletedWhileProcessed : List Operation := [
  .setFilePaths ["dag.py"], .prepareFilePathQueue 0 fun _ => none, .startNewProcesses 0,
  .setFilePaths [], .collectReady 1 [0] fun _ => none]

/-- The stopped processor is still in the waitables, and collecting its results raises
`KeyError`. -/
theorem deletedWhileProcessed_crashes :
    ¬∀ m ∈ Transition.states (step oneSlot) (some {}) deletedWhileProcessed, Sound oneSlot m := by
  intro h
  have hcrash : none ∈ Transition.states (step oneSlot) (some {}) deletedWhileProcessed := by
    simp only [deletedWhileProcessed, Transition.states, List.mem_cons]
    refine .inr (.inr (.inr (.inr (.inr (.inl ?_)))))
    rfl
  obtain ⟨m, hm, -⟩ := h none hcrash
  cases hm

end Airflow.DagProcessing
