import Airflow.Dag.BulkWrite

/-!
# References that mirror the DAGs

Writing DAGs never fails, and leaves the references that they declare exactly if no reference
belongs to a task that its DAG no longer has (`mirrors_iff`): no loop visits such a reference.
-/

namespace Airflow.BulkWrite

variable {dags : List Dag} {dag : Dag} {tables before after : Tables} {datasets : Datasets}
  {existing : Finset String}

/-! ## Datasets -/

namespace Datasets

theorem idOf_eq_some {uri : String} {id : Nat} :
    datasets.idOf uri = some id ↔ ∃ m ∈ datasets.rows, m.uri = uri ∧ m.id = id := by
  rw [idOf, Option.map_eq_some_iff]
  constructor
  · rintro ⟨m, hm, rfl⟩
    exact ⟨m, List.mem_of_find?_eq_some hm, by simpa using List.find?_some hm, rfl⟩
  · rintro ⟨m, hm, huri, rfl⟩
    cases hfind : datasets.rows.find? (·.uri = uri) with
    | none =>
      rw [List.find?_eq_none] at hfind
      exact absurd huri (by simpa using hfind m hm)
    | some m' =>
      have huri' : m'.uri = uri := by simpa using List.find?_some hfind
      have heq : m' = m := List.inj_on_of_nodup_map datasets.uri_nodup
        (List.mem_of_find?_eq_some hfind) hm (huri'.trans huri.symm)
      exact ⟨m', rfl, heq ▸ rfl⟩

theorem storedId_eq_ok {uri : String} {id : Nat} :
    datasets.storedId uri = .ok id ↔ datasets.idOf uri = some id := by
  rw [storedId]
  cases datasets.idOf uri <;> simp

/-- A row keeps its primary key. -/
theorem idOf_store {uri : String} {id : Nat} {dataset : Dataset}
    (h : datasets.idOf uri = some id) : (datasets.store dataset).idOf uri = some id := by
  obtain ⟨m, hm, huri, hid⟩ := idOf_eq_some.mp h
  refine idOf_eq_some.mpr ?_
  unfold store
  split
  · refine ⟨adopt dataset.uri m, List.mem_map_of_mem hm, ?_⟩
    unfold adopt
    split
    · exact ⟨huri, hid⟩
    · exact ⟨huri, hid⟩
  · exact ⟨m, List.mem_append_left _ hm, huri, hid⟩

theorem exists_idOf_store (datasets : Datasets) (dataset : Dataset) :
    ∃ id, (datasets.store dataset).idOf dataset.uri = some id := by
  by_cases h : dataset.uri ∈ datasets.rows.map DatasetModel.uri
  · obtain ⟨m, hm, huri⟩ := List.mem_map.mp h
    exact ⟨m.id, idOf_store (idOf_eq_some.mpr ⟨m, hm, huri, rfl⟩)⟩
  · refine ⟨datasets.nextId, idOf_eq_some.mpr ?_⟩
    rw [store, dif_neg h]
    exact ⟨_, List.mem_append_right _ (List.mem_singleton_self _), rfl, rfl⟩

theorem idOf_foldl_store {uri : String} {id : Nat} {all : List (String × Dataset)}
    (h : datasets.idOf uri = some id) :
    (all.foldl (fun d e => d.store e.2) datasets).idOf uri = some id := by
  induction all generalizing datasets with
  | nil => exact h
  | cons e all ih => exact ih (idOf_store h)

theorem exists_idOf_foldl_store {all : List (String × Dataset)} {e : String × Dataset}
    (he : e ∈ all) :
    ∃ id, (all.foldl (fun d e => d.store e.2) datasets).idOf e.2.uri = some id := by
  induction all generalizing datasets with
  | nil => exact absurd he List.not_mem_nil
  | cons e' all ih =>
    obtain rfl | he := List.mem_cons.mp he
    · obtain ⟨id, hid⟩ := exists_idOf_store datasets e.2
      exact ⟨id, (@idOf_foldl_store (datasets.store e.2) _ _ all) hid⟩
    · exact ih he

end Datasets

/-! ## What the DAGs declare -/

theorem mem_scheduled {p : String × Dataset} :
    p ∈ scheduled dags ↔ ∃ dag ∈ dags, dag.dagId = p.1 ∧ p.2 ∈ dag.datasetTriggers := by
  simp only [scheduled, List.mem_flatMap, List.mem_map]
  constructor
  · rintro ⟨dag, hdag, dataset, hdataset, rfl⟩
    exact ⟨dag, hdag, rfl, hdataset⟩
  · rintro ⟨dag, hdag, hid, hdataset⟩
    exact ⟨dag, hdag, p.2, hdataset, by rw [hid]⟩

theorem mem_produced {p : (String × String) × Dataset} :
    p ∈ produced dags ↔ ∃ dag ∈ dags, dag.dagId = p.1.1 ∧
      ∃ task ∈ dag.tasks, task.taskId = p.1.2 ∧ p.2 ∈ task.datasetOutlets := by
  simp only [produced, List.mem_flatMap, List.mem_map]
  constructor
  · rintro ⟨dag, hdag, task, htask, dataset, hdataset, rfl⟩
    exact ⟨dag, hdag, rfl, task, htask, rfl, hdataset⟩
  · rintro ⟨dag, hdag, hid, task, htask, htaskId, hdataset⟩
    exact ⟨dag, hdag, task, htask, p.2, hdataset, by rw [hid, htaskId]⟩

section
variable {κ ρ : Type} [DecidableEq κ] [DecidableEq ρ] {declared : List (κ × Dataset)}

/-- The groups of URIs hold what is declared. -/
theorem holds_references {k : κ} {uri : String} :
    (references declared).Holds (fun uris uri => uri ∈ uris) (k, uri) ↔
      ∃ p ∈ declared, p.1 = k ∧ p.2.uri = uri := by
  have hadd : ∀ (p : κ × Dataset) (uris : List String) (uri : String),
      uri ∈ addKey uris p.2.uri ↔ uri ∈ uris ∨ uri = p.2.uri := by
    intro p uris uri
    exact (@mem_foldl_addKey _ _ [p.2.uri] uris uri).trans (by simp)
  refine (Dict.holds_group Prod.fst (fun p : κ × Dataset => p.2.uri)
    (fun p uris => addKey uris p.2.uri) (by simp) hadd declared).trans ?_
  simp [Dict.not_holds_empty, eq_comm]

theorem mem_keys_references {k : κ} : k ∈ (references declared).keys ↔ ∃ p ∈ declared, p.1 = k := by
  induction declared using List.reverseRecOn with
  | nil => simp [references, Dict.empty, Dict.keys]
  | append_singleton declared p ih =>
    have hstep : references (declared ++ [p]) =
        (references declared).update p.1 [] (addKey · p.2.uri) := by
      rw [references, List.foldl_append]
      rfl
    rw [hstep, Dict.update, Dict.mem_keys_set, ih]
    simp [eq_comm]

/-- Each dataset is under its URI. -/
def Keyed (d : Dict String Dataset) : Prop :=
  ∀ uri dataset, d.get? uri = some dataset → dataset.uri = uri

theorem Keyed.setDefault {d : Dict String Dataset} (hd : Keyed d) {uri : String} {dataset : Dataset}
    (huri : dataset.uri = uri) : Keyed (d.setDefault uri dataset) := by
  intro uri' dataset' hget
  rw [Dict.get?_setDefault] at hget
  split at hget
  · next heq =>
    obtain rfl := Option.some.inj hget
    cases hold : d.get? uri with
    | none => exact heq ▸ huri
    | some dataset₀ => exact heq ▸ hd uri dataset₀ hold
  · exact hd uri' dataset' hget

theorem Keyed.foldl {ι : Type} (f : ι → String × Dataset) {items : List ι}
    (hf : ∀ i ∈ items, (f i).2.uri = (f i).1) {d : Dict String Dataset} (hd : Keyed d) :
    Keyed (items.foldl (fun d i => d.setDefault (f i).1 (f i).2) d) := by
  induction items generalizing d with
  | nil => exact hd
  | cons i items ih =>
    exact ih (fun j hj => hf j (List.mem_cons_of_mem i hj))
      (hd.setDefault (hf i List.mem_cons_self))

theorem mem_keys_foldl_setDefault {ι : Type} (f : ι → String × Dataset) {items : List ι}
    {d : Dict String Dataset} {uri : String} :
    uri ∈ (items.foldl (fun d i => d.setDefault (f i).1 (f i).2) d).keys ↔
      uri ∈ d.keys ∨ ∃ i ∈ items, (f i).1 = uri := by
  induction items generalizing d with
  | nil => simp
  | cons i items ih =>
    have hkey : uri ∈ (d.setDefault (f i).1 (f i).2).keys ↔ uri ∈ d.keys ∨ (f i).1 = uri := by
      rw [Dict.keys_setDefault]
      exact (@mem_foldl_addKey _ _ [(f i).1] _ _).trans (by simp [eq_comm])
    rw [List.foldl_cons, ih, hkey, or_assoc]
    simp

theorem keyed_empty : Keyed .empty := by
  intro uri dataset h
  cases h

theorem keyed_datasetsOf : Keyed (datasetsOf declared) :=
  Keyed.foldl (fun p : κ × Dataset => (p.2.uri, p.2)) (fun _ _ => rfl) keyed_empty

theorem mem_keys_datasetsOf {uri : String} :
    uri ∈ (datasetsOf declared).keys ↔ ∃ p ∈ declared, p.2.uri = uri :=
  (mem_keys_foldl_setDefault fun p : κ × Dataset => (p.2.uri, p.2)).trans
    (by simp [Dict.empty, Dict.keys])

end

theorem keyed_allDatasets (dags : List Dag) : Keyed (allDatasets dags) :=
  Keyed.foldl id
    (fun e he => keyed_datasetsOf e.1 e.2 (Dict.get?_eq_some.mpr he)) keyed_datasetsOf

/-- Every declared dataset is among those that are stored. -/
theorem mem_allDatasets {uri : String} (h : (∃ p ∈ scheduled dags, p.2.uri = uri) ∨
    ∃ p ∈ produced dags, p.2.uri = uri) : ∃ e ∈ (allDatasets dags).entries, e.2.uri = uri := by
  have hkey : uri ∈ (allDatasets dags).keys := by
    refine (mem_keys_foldl_setDefault id).mpr ?_
    obtain h | h := h
    · obtain ⟨e, he, heq⟩ := List.mem_map.mp (mem_keys_datasetsOf.mpr h)
      exact .inr ⟨e, he, heq⟩
    · exact .inl (mem_keys_datasetsOf.mpr h)
  obtain ⟨dataset, hget⟩ := Dict.mem_keys.mp hkey
  exact ⟨(uri, dataset), Dict.get?_eq_some.mp hget, keyed_allDatasets dags uri dataset hget⟩

/-! ## Pruning -/

theorem mem_foldl_of_step {σ ι ρ : Type} [Membership ρ σ] {f : σ → ι → σ} (drops : ι → ρ → Prop)
    (hf : ∀ s i r, r ∈ f s i ↔ r ∈ s ∧ ¬drops i r) {items : List ι} {s : σ} {r : ρ} :
    r ∈ items.foldl f s ↔ r ∈ s ∧ ∀ i ∈ items, ¬drops i r := by
  induction items generalizing s with
  | nil => simp
  | cons i items ih => rw [List.foldl_cons, ih, hf, List.forall_mem_cons, and_assoc]

theorem mem_foldl_pruneSchedule {rows : Finset DagScheduleDatasetReference}
    {r : DagScheduleDatasetReference} : r ∈ dags.foldl (pruneSchedule existing) rows ↔
      r ∈ rows ∧ ∀ dag ∈ dags,
        ¬(dag.datasetTriggers = [] ∧ dag.dagId ∈ existing ∧ r.dagId = dag.dagId) := by
  refine mem_foldl_of_step (fun (dag : Dag) (r : DagScheduleDatasetReference) =>
    dag.datasetTriggers = [] ∧ dag.dagId ∈ existing ∧ r.dagId = dag.dagId) fun rows dag r => ?_
  unfold pruneSchedule
  split
  · next h =>
    simp only [Bool.and_eq_true, List.isEmpty_iff, decide_eq_true_eq] at h
    simp [h.1, h.2]
  · next h =>
    simp only [Bool.and_eq_true, List.isEmpty_iff, decide_eq_true_eq, not_and] at h
    exact ⟨fun hr => ⟨hr, fun hd => h hd.1 hd.2.1⟩, fun hr => hr.1⟩

theorem mem_foldl_pruneOutlets {rows : Finset TaskOutletDatasetReference}
    {r : TaskOutletDatasetReference} : r ∈ dags.foldl (pruneOutlets existing) rows ↔
      r ∈ rows ∧ ∀ dag ∈ dags, ¬∃ task ∈ dag.tasks,
        task.datasetOutlets = [] ∧ dag.dagId ∈ existing ∧ r.dagId = dag.dagId ∧
          r.taskId = task.taskId := by
  refine mem_foldl_of_step (fun (dag : Dag) (r : TaskOutletDatasetReference) => ∃ task ∈ dag.tasks,
    task.datasetOutlets = [] ∧ dag.dagId ∈ existing ∧ r.dagId = dag.dagId ∧
      r.taskId = task.taskId) fun rows dag r => ?_
  rw [not_exists]
  simp only [not_and]
  refine (mem_foldl_of_step (fun (task : Task) (r : TaskOutletDatasetReference) =>
    task.datasetOutlets = [] ∧
    dag.dagId ∈ existing ∧ r.dagId = dag.dagId ∧ r.taskId = task.taskId) ?_).trans (by simp)
  intro rows task r
  unfold pruneTask
  split
  · next h =>
    simp only [Bool.and_eq_true, List.isEmpty_iff, decide_eq_true_eq] at h
    simp [h.1, h.2]
  · next h =>
    simp only [Bool.and_eq_true, List.isEmpty_iff, decide_eq_true_eq, not_and] at h
    exact ⟨fun hr => ⟨hr, fun hd => h hd.1 hd.2.1⟩, fun hr => hr.1⟩

/-! ## Reconciling -/

section
variable {κ ρ : Type} [DecidableEq κ] [DecidableEq ρ] {declared : List (κ × Dataset)}

/-- The references that a key needs, when its datasets are stored. -/
theorem exists_referencesNeeded {ref : κ → Nat → ρ} {e : κ × List String}
    (h : ∀ uri ∈ e.2, ∃ id, datasets.idOf uri = some id) :
    ∃ needed, referencesNeeded datasets ref e = .ok needed := by
  have hids : ∀ uri ∈ e.2, ∃ id, datasets.storedId uri = .ok id := by
    intro uri huri
    obtain ⟨id, hid⟩ := h uri huri
    exact ⟨id, Datasets.storedId_eq_ok.mpr hid⟩
  obtain ⟨ids, hmap⟩ := Traced.exists_mapM_eq_ok.mpr hids
  refine ⟨(e.1, (ids.map (ref e.1)).toFinset), ?_⟩
  rw [referencesNeeded, hmap]
  rfl

theorem referencesNeeded_spec {ref : κ → Nat → ρ} {e : κ × List String} {needed : κ × Finset ρ}
    (h : referencesNeeded datasets ref e = .ok needed) : needed.1 = e.1 ∧
      ∀ r, r ∈ needed.2 ↔ ∃ uri ∈ e.2, ∃ id, datasets.idOf uri = some id ∧ ref e.1 id = r := by
  obtain ⟨ids, hids, heq⟩ := Traced.bind_eq_ok.mp h
  obtain rfl := Except.ok.inj heq
  refine ⟨rfl, fun r => ?_⟩
  simp only [List.mem_toFinset, List.mem_map, Traced.mem_of_mapM_eq_ok hids,
    Datasets.storedId_eq_ok]
  constructor
  · rintro ⟨id, ⟨uri, huri, hid⟩, rfl⟩
    exact ⟨uri, huri, id, hid, rfl⟩
  · rintro ⟨uri, huri, id, hid, rfl⟩
    exact ⟨id, ⟨uri, huri, hid⟩, rfl⟩

/-- **The loops that reconcile the references.** Those of a key with a declared dataset are the
declared ones, the others stay. -/
theorem exists_reconcileReferences (datasets : Datasets) (declared : List (κ × Dataset))
    (ref : κ → Nat → ρ) (key : ρ → κ) (stored : κ → Finset ρ) (rows : Finset ρ)
    (hkey : ∀ k id, key (ref k id) = k)
    (hstored : ∀ k ∈ (references declared).keys, ∀ r, r ∈ stored k ↔ r ∈ rows ∧ key r = k)
    (hids : ∀ p ∈ declared, ∃ id, datasets.idOf p.2.uri = some id) :
    ∃ rows', reconcileReferences datasets ref stored (references declared) rows = .ok rows' ∧
      ∀ r, r ∈ rows' ↔ if ∃ p ∈ declared, p.1 = key r then
        ∃ p ∈ declared, p.1 = key r ∧ ∃ id, datasets.idOf p.2.uri = some id ∧ ref p.1 id = r
      else r ∈ rows := by
  have hentry : ∀ e ∈ (references declared).entries, ∀ uri,
      uri ∈ e.2 ↔ ∃ p ∈ declared, p.1 = e.1 ∧ p.2.uri = uri := by
    intro e he uri
    rw [← holds_references]
    constructor
    · exact fun huri => ⟨e.2, Dict.get?_eq_some.mpr he, huri⟩
    · rintro ⟨uris, hget, huri⟩
      obtain rfl : uris = e.2 := Option.some.inj (hget.symm.trans (Dict.get?_eq_some.mpr he))
      exact huri
  have hneeded : ∀ e ∈ (references declared).entries,
      ∃ needed, referencesNeeded datasets ref e = .ok needed := by
    intro e he
    refine exists_referencesNeeded fun uri huri => ?_
    obtain ⟨p, hp, -, rfl⟩ := (hentry e he uri).mp huri
    exact hids p hp
  obtain ⟨entries, hentries⟩ := Traced.exists_mapM_eq_ok.mpr hneeded
  have hkeys : entries.map Prod.fst = (references declared).keys :=
    Traced.map_of_mapM_eq_ok hentries fun e needed h => (referencesNeeded_spec h).1
  have hspec : ∀ e' ∈ entries, e'.1 ∈ (references declared).keys ∧ ∀ r, r ∈ e'.2 ↔
      ∃ p ∈ declared, p.1 = e'.1 ∧ ∃ id, datasets.idOf p.2.uri = some id ∧ ref e'.1 id = r := by
    intro e' he'
    obtain ⟨e, he, hok⟩ := (Traced.mem_of_mapM_eq_ok hentries).mp he'
    obtain ⟨hfst, hrows⟩ := referencesNeeded_spec hok
    refine ⟨hkeys ▸ List.mem_map_of_mem he', fun r => ?_⟩
    rw [hrows, hfst]
    constructor
    · rintro ⟨uri, huri, id, hid, hr⟩
      obtain ⟨p, hp, hpk, rfl⟩ := (hentry e he uri).mp huri
      exact ⟨p, hp, hpk, id, hid, hr⟩
    · rintro ⟨p, hp, hpk, id, hid, hr⟩
      exact ⟨p.2.uri, (hentry e he _).mpr ⟨p, hp, hpk, rfl⟩, id, hid, hr⟩
  obtain ⟨rows', hrows', hmem⟩ := @Reconcile.exists_reconcileAll _ _ _ _ key rows stored
    entries (hkeys ▸ (references declared).nodup_keys)
    (fun e' he' => hstored e'.1 (hspec e' he').1)
    (fun e' he' r hr => by
      obtain ⟨p, -, -, id, -, rfl⟩ := ((hspec e' he').2 r).mp hr
      exact hkey e'.1 id)
  refine ⟨rows', ?_, fun r => ?_⟩
  · rw [reconcileReferences, hentries]
    change (Reconcile.reconcileAll stored entries rows).elim _ _ = _
    rw [hrows', Option.elim_some]
  · rw [hmem, hkeys]
    simp only [mem_keys_references]
    by_cases hdeclared : ∃ p ∈ declared, p.1 = key r
    · rw [if_pos hdeclared, if_pos hdeclared]
      constructor
      · rintro ⟨e', he', hfst, hr⟩
        obtain ⟨p, hp, hpk, id, hid, rfl⟩ := ((hspec e' he').2 r).mp hr
        exact ⟨p, hp, hpk.trans hfst, id, hid, by rw [hpk]⟩
      · rintro ⟨p, hp, hpk, id, hid, hr⟩
        have hmemkey : key r ∈ entries.map Prod.fst := by
          rw [hkeys]
          exact mem_keys_references.mpr hdeclared
        obtain ⟨e', he', hfst⟩ := List.mem_map.mp hmemkey
        exact ⟨e', he', hfst, ((hspec e' he').2 r).mpr
          ⟨p, hp, hpk.trans hfst.symm, id, hid, by rw [hfst, ← hpk, hr]⟩⟩
    · rw [if_neg hdeclared, if_neg hdeclared]

end

/-! ## Writing DAGs -/

/-- The tables of datasets after a write. -/
abbrev storedDatasets (dags : List Dag) (tables : Tables) : Datasets :=
  (allDatasets dags).entries.foldl (fun d e => d.store e.2) tables.datasets

theorem exists_idOf_storedDatasets {uri : String} (h : (∃ p ∈ scheduled dags, p.2.uri = uri) ∨
    ∃ p ∈ produced dags, p.2.uri = uri) :
    ∃ id, (storedDatasets dags tables).idOf uri = some id := by
  obtain ⟨e, he, rfl⟩ := mem_allDatasets h
  exact Datasets.exists_idOf_foldl_store he

/-- **A write succeeds**, and these are the references afterwards. -/
theorem exists_bulkWriteToDb (dags : List Dag) (hvalid : tables.Valid) :
    ∃ after, bulkWriteToDb dags tables = .ok after ∧
      after.dags = tables.dags ∪ (dags.map Dag.dagId).toFinset ∧
      after.datasets = storedDatasets dags tables ∧
      (∀ r, r ∈ after.schedule ↔ if ∃ p ∈ scheduled dags, p.1 = r.dagId then
          ∃ p ∈ scheduled dags, p.1 = r.dagId ∧ ∃ id,
            after.datasets.idOf p.2.uri = some id ∧ (⟨id, p.1⟩ : DagScheduleDatasetReference) = r
        else r ∈ dags.foldl (pruneSchedule tables.dags) tables.schedule) ∧
      ∀ r, r ∈ after.outlets ↔ if ∃ p ∈ produced dags, p.1 = (r.dagId, r.taskId) then
          ∃ p ∈ produced dags, p.1 = (r.dagId, r.taskId) ∧ ∃ id,
            after.datasets.idOf p.2.uri = some id ∧
              (⟨id, p.1.1, p.1.2⟩ : TaskOutletDatasetReference) = r
        else r ∈ dags.foldl (pruneOutlets tables.dags) tables.outlets := by
  obtain ⟨schedule, hschedule, hmemSchedule⟩ := exists_reconcileReferences
    (storedDatasets dags tables) (scheduled dags)
    (fun dagId id => (⟨id, dagId⟩ : DagScheduleDatasetReference)) DagScheduleDatasetReference.dagId
    (fun dagId => (dags.foldl (pruneSchedule tables.dags) tables.schedule).filter fun r =>
      r.dagId = dagId ∧ dagId ∈ tables.dags)
    (dags.foldl (pruneSchedule tables.dags) tables.schedule)
    (fun _ _ => rfl)
    (by
      intro k _ r
      rw [Finset.mem_filter]
      refine and_congr_right fun hr => ⟨And.left, fun hk => ⟨hk, hk ▸ ?_⟩⟩
      exact hvalid.schedule_dag r (mem_foldl_pruneSchedule.mp hr).1)
    (fun p hp => exists_idOf_storedDatasets (.inl ⟨p, hp, rfl⟩))
  obtain ⟨outlets, houtlets, hmemOutlets⟩ := exists_reconcileReferences
    (storedDatasets dags tables) (produced dags)
    (fun key id => (⟨id, key.1, key.2⟩ : TaskOutletDatasetReference))
    (fun r => (r.dagId, r.taskId))
    (fun key => (dags.foldl (pruneOutlets tables.dags) tables.outlets).filter fun r =>
      (r.dagId, r.taskId) = key ∧ key.1 ∈ tables.dags)
    (dags.foldl (pruneOutlets tables.dags) tables.outlets)
    (fun _ _ => rfl)
    (by
      intro k _ r
      rw [Finset.mem_filter]
      refine and_congr_right fun hr => ⟨And.left, fun hk => ⟨hk, hk ▸ ?_⟩⟩
      exact hvalid.outlets_dag r (mem_foldl_pruneOutlets.mp hr).1)
    (fun p hp => exists_idOf_storedDatasets (.inr ⟨p, hp, rfl⟩))
  refine ⟨⟨tables.dags ∪ (dags.map Dag.dagId).toFinset, storedDatasets dags tables, schedule,
    outlets⟩, ?_, rfl, rfl, hmemSchedule, hmemOutlets⟩
  rw [bulkWriteToDb]
  change (reconcileReferences _ _ _ _ _).bind _ = _
  rw [hschedule]
  change (reconcileReferences _ _ _ _ _).bind _ = _
  rw [houtlets]
  rfl

/-- **The references of a DAG to the datasets it is scheduled on** are those that are declared. -/
theorem mem_schedule_after (hvalid : tables.Valid) (h : bulkWriteToDb dags tables = .ok after)
    (r : DagScheduleDatasetReference) : r ∈ after.schedule ↔
      if r.dagId ∈ dags.map Dag.dagId then
        ∃ dag ∈ dags, dag.dagId = r.dagId ∧
          ∃ dataset ∈ dag.datasetTriggers, after.datasets.idOf dataset.uri = some r.datasetId
      else r ∈ tables.schedule := by
  obtain ⟨after', hok, -, -, hschedule, -⟩ := exists_bulkWriteToDb dags hvalid
  obtain rfl : after = after' := Except.ok.inj (h.symm.trans hok)
  rw [hschedule]
  by_cases hdag : r.dagId ∈ dags.map Dag.dagId
  · rw [if_pos hdag]
    by_cases hdeclared : ∃ p ∈ scheduled dags, p.1 = r.dagId
    · rw [if_pos hdeclared]
      constructor
      · rintro ⟨p, hp, hpk, id, hid, rfl⟩
        obtain ⟨dag, hmem, hdagId, hdataset⟩ := mem_scheduled.mp hp
        exact ⟨dag, hmem, hdagId, p.2, hdataset, hid⟩
      · rintro ⟨dag, hmem, hdagId, dataset, hdataset, hid⟩
        exact ⟨(dag.dagId, dataset), mem_scheduled.mpr ⟨dag, hmem, rfl, hdataset⟩, hdagId,
          r.datasetId, hid, by rw [hdagId]⟩
    · -- No DAG of this id is scheduled on a dataset, so what it had is deleted.
      rw [if_neg hdeclared, mem_foldl_pruneSchedule]
      have hnone : ∀ dag ∈ dags, dag.dagId = r.dagId → dag.datasetTriggers = [] := by
        intro dag hmem hdagId
        refine List.eq_nil_iff_forall_not_mem.mpr fun dataset hdataset => hdeclared ?_
        exact ⟨(dag.dagId, dataset), mem_scheduled.mpr ⟨dag, hmem, rfl, hdataset⟩, hdagId⟩
      constructor
      · rintro ⟨hr, hkept⟩
        obtain ⟨dag, hmem, hdagId⟩ := List.mem_map.mp hdag
        refine absurd ⟨hnone dag hmem hdagId, ?_, hdagId.symm⟩ (hkept dag hmem)
        exact hdagId ▸ hvalid.schedule_dag r hr
      · rintro ⟨dag, hmem, hdagId, dataset, hdataset, -⟩
        rw [hnone dag hmem hdagId] at hdataset
        exact absurd hdataset List.not_mem_nil
  · have hdeclared : ¬∃ p ∈ scheduled dags, p.1 = r.dagId := by
      rintro ⟨p, hp, hpk⟩
      obtain ⟨dag, hmem, hdagId, -⟩ := mem_scheduled.mp hp
      exact hdag (List.mem_map.mpr ⟨dag, hmem, hdagId.trans hpk⟩)
    rw [if_neg hdag, if_neg hdeclared, mem_foldl_pruneSchedule]
    exact and_iff_left fun dag hmem hd => hdag (List.mem_map.mpr ⟨dag, hmem, hd.2.2.symm⟩)

/-- **The references of tasks to the datasets they produce.** A task that the DAG no longer has
keeps them. -/
theorem mem_outlets_after (hvalid : tables.Valid) (h : bulkWriteToDb dags tables = .ok after)
    (r : TaskOutletDatasetReference) : r ∈ after.outlets ↔
      if IsCurrent dags r then
        ∃ dag ∈ dags, dag.dagId = r.dagId ∧ ∃ task ∈ dag.tasks, task.taskId = r.taskId ∧
          ∃ dataset ∈ task.datasetOutlets, after.datasets.idOf dataset.uri = some r.datasetId
      else r ∈ tables.outlets := by
  obtain ⟨after', hok, -, -, -, houtlets⟩ := exists_bulkWriteToDb dags hvalid
  obtain rfl : after = after' := Except.ok.inj (h.symm.trans hok)
  rw [houtlets]
  by_cases hcurrent : IsCurrent dags r
  · rw [if_pos hcurrent]
    by_cases hdeclared : ∃ p ∈ produced dags, p.1 = (r.dagId, r.taskId)
    · rw [if_pos hdeclared]
      constructor
      · rintro ⟨p, hp, hpk, id, hid, rfl⟩
        obtain ⟨dag, hmem, hdagId, task, htask, htaskId, hdataset⟩ := mem_produced.mp hp
        exact ⟨dag, hmem, hdagId, task, htask, htaskId, p.2, hdataset, hid⟩
      · rintro ⟨dag, hmem, hdagId, task, htask, htaskId, dataset, hdataset, hid⟩
        refine ⟨((dag.dagId, task.taskId), dataset),
          mem_produced.mpr ⟨dag, hmem, rfl, task, htask, rfl, hdataset⟩, ?_, r.datasetId, hid, ?_⟩
        · rw [hdagId, htaskId]
        · rw [hdagId, htaskId]
    · -- No task of this id produces a dataset, so what it had is deleted.
      rw [if_neg hdeclared, mem_foldl_pruneOutlets]
      have hnone : ∀ dag ∈ dags, dag.dagId = r.dagId → ∀ task ∈ dag.tasks,
          task.taskId = r.taskId → task.datasetOutlets = [] := by
        intro dag hmem hdagId task htask htaskId
        refine List.eq_nil_iff_forall_not_mem.mpr fun dataset hdataset => hdeclared ?_
        refine ⟨((dag.dagId, task.taskId), dataset),
          mem_produced.mpr ⟨dag, hmem, rfl, task, htask, rfl, hdataset⟩, ?_⟩
        rw [hdagId, htaskId]
      constructor
      · rintro ⟨hr, hkept⟩
        obtain ⟨dag, hmem, hdagId, task, htask, htaskId⟩ := hcurrent
        refine absurd ⟨task, htask, hnone dag hmem hdagId task htask htaskId, ?_, hdagId.symm,
          htaskId.symm⟩ (hkept dag hmem)
        exact hdagId ▸ hvalid.outlets_dag r hr
      · rintro ⟨dag, hmem, hdagId, task, htask, htaskId, dataset, hdataset, -⟩
        rw [hnone dag hmem hdagId task htask htaskId] at hdataset
        exact absurd hdataset List.not_mem_nil
  · have hdeclared : ¬∃ p ∈ produced dags, p.1 = (r.dagId, r.taskId) := by
      rintro ⟨p, hp, hpk⟩
      obtain ⟨dag, hmem, hdagId, task, htask, htaskId, -⟩ := mem_produced.mp hp
      exact hcurrent ⟨dag, hmem, by rw [hdagId, hpk], task, htask, by rw [htaskId, hpk]⟩
    rw [if_neg hcurrent, if_neg hdeclared, mem_foldl_pruneOutlets]
    refine and_iff_left fun dag hmem => ?_
    rintro ⟨task, htask, -, -, hdagId, htaskId⟩
    exact hcurrent ⟨dag, hmem, hdagId.symm, task, htask, htaskId.symm⟩

/-- A write keeps the foreign keys. -/
theorem valid_bulkWriteToDb (hvalid : tables.Valid) (h : bulkWriteToDb dags tables = .ok after) :
    after.Valid := by
  obtain ⟨after', hok, hdags, -⟩ := exists_bulkWriteToDb dags hvalid
  obtain rfl : after = after' := Except.ok.inj (h.symm.trans hok)
  have hmem : ∀ dag ∈ dags, dag.dagId ∈ after.dags := by
    intro dag hmem
    rw [hdags]
    exact Finset.mem_union_right _ (List.mem_toFinset.mpr (List.mem_map_of_mem hmem))
  constructor
  · intro r hr
    rw [mem_schedule_after hvalid h] at hr
    split at hr
    · obtain ⟨dag, hdag, hdagId, -⟩ := hr
      exact hdagId ▸ hmem dag hdag
    · rw [hdags]
      exact Finset.mem_union_left _ (hvalid.schedule_dag r hr)
  · intro r hr
    rw [mem_outlets_after hvalid h] at hr
    split at hr
    · obtain ⟨dag, hdag, hdagId, -⟩ := hr
      exact hdagId ▸ hmem dag hdag
    · rw [hdags]
      exact Finset.mem_union_left _ (hvalid.outlets_dag r hr)

/-- A reference of a task that no later version of its DAG has stays in every run of writes. -/
theorem stale_stays {writes : List (List Dag)} {r : TaskOutletDatasetReference}
    (hvalid : tables.Valid) (hr : r ∈ tables.outlets) (hstale : ∀ dags ∈ writes, ¬IsCurrent dags r)
    (h : writes.foldlM (fun tables dags => bulkWriteToDb dags tables) tables = .ok after) :
    r ∈ after.outlets := by
  induction writes generalizing tables with
  | nil =>
    obtain rfl : tables = after := Except.ok.inj h
    exact hr
  | cons dags writes ih =>
    rw [List.foldlM_cons] at h
    obtain ⟨next, hnext, hrest⟩ := Traced.bind_eq_ok.mp h
    refine ih (valid_bulkWriteToDb hvalid hnext) ?_
      (fun dags' hdags' => hstale dags' (List.mem_cons_of_mem dags hdags')) hrest
    rw [mem_outlets_after hvalid hnext, if_neg (hstale dags List.mem_cons_self)]
    exact hr

/-- **The references mirror the DAGs exactly if none belongs to a task that its DAG no longer
has.** -/
theorem mirrors_iff (hvalid : tables.Valid) :
    (∃ after, bulkWriteToDb dags tables = .ok after ∧ Mirrors dags tables after) ↔
      ∀ r ∈ tables.outlets, r.dagId ∈ dags.map Dag.dagId → IsCurrent dags r := by
  constructor
  · rintro ⟨after, h, hmirrors⟩ r hr hdag
    refine Classical.byContradiction fun hcurrent => hcurrent ?_
    have hafter : r ∈ after.outlets := by
      rw [mem_outlets_after hvalid h, if_neg hcurrent]
      exact hr
    rw [hmirrors.outlets, if_pos hdag] at hafter
    obtain ⟨dag, hmem, hdagId, task, htask, htaskId, -⟩ := hafter
    exact ⟨dag, hmem, hdagId, task, htask, htaskId⟩
  · intro hcurrent
    obtain ⟨after, h, -, hdatasets, -⟩ := exists_bulkWriteToDb dags hvalid
    refine ⟨after, h, mem_schedule_after hvalid h, fun r => ?_, ?_, ?_⟩
    · rw [mem_outlets_after hvalid h]
      by_cases hr : IsCurrent dags r
      · obtain ⟨dag, hmem, hdagId, -⟩ := id hr
        rw [if_pos hr, if_pos (List.mem_map.mpr ⟨dag, hmem, hdagId⟩)]
      · rw [if_neg hr]
        by_cases hdag : r.dagId ∈ dags.map Dag.dagId
        · rw [if_pos hdag]
          constructor
          · exact fun hrow => absurd (hcurrent r hrow hdag) hr
          · rintro ⟨dag, hmem, hdagId, task, htask, htaskId, -⟩
            exact absurd ⟨dag, hmem, hdagId, task, htask, htaskId⟩ hr
        · rw [if_neg hdag]
    · rintro dag hdag dataset (hdataset | ⟨task, htask, hdataset⟩)
      · rw [hdatasets]
        exact exists_idOf_storedDatasets
          (.inl ⟨(dag.dagId, dataset), mem_scheduled.mpr ⟨dag, hdag, rfl, hdataset⟩, rfl⟩)
      · rw [hdatasets]
        exact exists_idOf_storedDatasets (.inr ⟨((dag.dagId, task.taskId), dataset),
          mem_produced.mpr ⟨dag, hdag, rfl, task, htask, rfl, hdataset⟩, rfl⟩)
    · intro uri id hid
      rw [hdatasets]
      exact Datasets.idOf_foldl_store hid

/-! ### A task that is renamed -/

theorem map_uri_nil_nodup : (([] : List DatasetModel).map DatasetModel.uri).Nodup := by simp

theorem map_id_nil_nodup : (([] : List DatasetModel).map DatasetModel.id).Nodup := by simp

theorem id_lt_of_mem_nil : ∀ m ∈ ([] : List DatasetModel), m.id < 1 := by simp

/-- One dataset, and a task of a DAG that produces it. -/
def producedOnce : Tables where
  dags := {"report"}
  datasets := (⟨[], 1, map_uri_nil_nodup, map_id_nil_nodup, id_lt_of_mem_nil⟩ : Datasets).store
    ⟨"s3://sales", "\x7b\x7d"⟩
  schedule := ∅
  outlets := {⟨1, "report", "load"⟩}

theorem producedOnce_valid : producedOnce.Valid := ⟨by simp [producedOnce], by simp [producedOnce]⟩

/-- The DAG with a task of the given name that produces the dataset. -/
def reportDag (taskId : String) : Dag :=
  ⟨"report", [], [⟨taskId, some [.dataset ⟨"s3://sales", "\x7b\x7d"⟩]⟩]⟩

/-- The task is as before. -/
theorem sameTask_mirrors :
    ∃ after, bulkWriteToDb [reportDag "load"] producedOnce = .ok after ∧
      Mirrors [reportDag "load"] producedOnce after := by
  refine (mirrors_iff producedOnce_valid).mpr fun r hr _ => ?_
  obtain rfl := Finset.mem_singleton.mp hr
  exact ⟨_, List.mem_singleton_self _, rfl, _, List.mem_singleton_self _, rfl⟩

/-- The task is renamed, and the reference of the old one stays. -/
theorem renamedTask_not_mirrors :
    producedOnce.Valid ∧ ¬∃ after, bulkWriteToDb [reportDag "extract"] producedOnce = .ok after ∧
      Mirrors [reportDag "extract"] producedOnce after := by
  refine ⟨producedOnce_valid, ?_⟩
  rintro ⟨after, h, hmirrors⟩
  have hstale : (⟨1, "report", "load"⟩ : TaskOutletDatasetReference) ∈ after.outlets := by
    rw [mem_outlets_after producedOnce_valid h, if_neg (by decide)]
    exact Finset.mem_singleton_self _
  rw [hmirrors.outlets, if_pos (by decide)] at hstale
  obtain ⟨dag, hdag, -, task, htask, htaskId, -⟩ := hstale
  obtain rfl := List.mem_singleton.mp hdag
  obtain rfl := List.mem_singleton.mp htask
  exact absurd htaskId (by decide)

end Airflow.BulkWrite
