import Airflow.DagRun.Proof.Lockstep
import Airflow.DagRun.Proof.Outcome

/-!
# The mini scheduler and the scheduler

* `RefinesRound`: what the mini scheduler changes and schedules, a decision round over the whole
  DAG from the same instances changes and schedules, too;
* `PassSim.visit`: a step lemma for the ready passes of the two rounds, visit by visit;
* `miniScheduler_refines`: the refinement holds where every kept task whose instances are visited
  is seen by the subset as by the DAG (`Mirrored`), or has its dependencies come out alike
  (`Matched`); and only there, where no task is mapped.

The subset keeps the tasks directly upstream of those it is about, with references to kept tasks
only. Such a task may have lost some of its own upstream tasks, and its trigger rule is then
evaluated over the others.
-/

namespace Airflow

/-! ## What is claimed -/

/-- The evaluation of a schedulable instance in the session that a decision round begins with. -/
def readyEvaluation (dag : Dag) (run : RunData) (table : TaskInstanceTable) (r : TIRef) :
    DepState :=
  evaluate dag run (readyContext (finishedTis dag table)) (filterTis dag table) r

/-- The decision round of the mini scheduler after `task` refines the one over the whole DAG: an
instance that it sets to a dependency state gets the same state there, and one that it schedules is
schedulable there, under the same map index. -/
structure RefinesRound (dag : Dag) (run : RunData) (task : Operator) (table : TaskInstanceTable) :
    Prop where
  states : ∀ r, let mini := (scheduleDownstreamTasks dag run task table).1.session
    let full := (taskInstanceSchedulingDecisions dag run table).session
    mini.state r ≠ (Session.load table).state r → isDependencyState (mini.state r) = true →
    full.state r = mini.state r ∧ full.mapIndex r = mini.mapIndex r
  scheduled : ∀ r ∈ (scheduleDownstreamTasks dag run task table).2,
    let mini := (scheduleDownstreamTasks dag run task table).1.session
    let full := taskInstanceSchedulingDecisions dag run table
    r ∈ full.schedulableTis ∧ full.session.mapIndex r = mini.mapIndex r

section
variable (dag : Dag) (kept : TaskId → Bool) (run : RunData) (table : TaskInstanceTable)

/-- The subset shows `task` as the DAG does. What it keeps is what the dependencies of the task
read (`view`); the round visits no instance of the mapped tasks that give its lengths (`mapping`);
and an unexpanded instance whose mapping is not populated is not skipped and found ready at once
(`unpopulated`). -/
structure Mirrored (task : Operator) : Prop where
  view : KeepsView dag kept task
  mapping : ∀ t ∈ mappingReads dag task,
    t ∈ dag.taskIds ∧ ∀ r ∈ schedulableTis dag table, r.taskId ≠ t
  unpopulated : task.getMappedTiCount run (filterTis dag table) = .error .notFullyPopulated →
    ∀ r ∈ schedulableTis dag table, r.taskId = task.taskId →
      (filterTis dag table).mapIndex r < 0 →
      UpstreamSettled dag (schedulableTis dag table) task ∧
      ((readyEvaluation dag run table r).met = true →
        isDependencyState ((readyEvaluation dag run table r).session.state r) = false)

/-- The dependencies of an instance come out over the subset as over the DAG, as far as it
matters: a dependency state is the same, and an instance that the mini scheduler would schedule
is ready. -/
structure Matches (candidate : TaskId → Prop) (r : TIRef) : Prop where
  state : isDependencyState
      ((readyEvaluation (dag.keep kept) run table r).session.state r) = true →
    (readyEvaluation dag run table r).session.state r =
      (readyEvaluation (dag.keep kept) run table r).session.state r
  ready : candidate r.taskId → (readyEvaluation (dag.keep kept) run table r).met = true →
    State.isScheduleable ((readyEvaluation (dag.keep kept) run table r).session.state r) = true →
    (readyEvaluation dag run table r).met = true ∧
      State.isScheduleable ((readyEvaluation dag run table r).session.state r) = true

/-- A task that needs no expansion, with the dependencies of its instances matching, where the
round expands no upstream task in between. -/
structure Matched (candidate : TaskId → Prop) (task : Operator) : Prop where
  plain : task.needsExpansion = false
  settled : UpstreamSettled dag (schedulableTis dag table) task
  settled' : UpstreamSettled (dag.keep kept) (schedulableTis (dag.keep kept) table)
    (task.restrict kept)
  instances : ∀ r ∈ schedulableTis dag table, r.taskId = task.taskId →
    Matches dag kept run table candidate r

/-- Every kept task of which an instance is visited is mirrored or matched. -/
def SubsetAgrees (candidate : TaskId → Prop) : Prop :=
  ∀ task ∈ dag.tasks, kept task.taskId = true →
    (∃ r ∈ schedulableTis dag table, r.taskId = task.taskId) →
    Mirrored dag kept run table task ∨ Matched dag kept run table candidate task

end

/-! ## The rows of the subset -/

section
variable (dag : Dag) (kept : TaskId → Bool) (table : TaskInstanceTable)

theorem Dag.keep_all (h : ∀ t ∈ dag.tasks, kept t.taskId = true) : dag.keep kept = dag := by
  have hids : ∀ l : List TaskId, (∀ t ∈ l, t ∈ dag.tasks.map Operator.taskId) →
      l.filter kept = l := by
    intro l hl
    refine List.filter_eq_self.mpr fun t ht => ?_
    obtain ⟨x, hx, rfl⟩ := List.mem_map.mp (hl t ht)
    exact h x hx
  have hfilter : dag.tasks.filter (kept ·.taskId) = dag.tasks := List.filter_eq_self.mpr h
  have htasks : (dag.tasks.filter (kept ·.taskId)).map (·.restrict kept) = dag.tasks := by
    rw [hfilter]
    refine (List.map_congr_left fun t ht => ?_).trans (List.map_id _)
    simp only [Operator.restrict, hids _ (dag.upstream_mem t ht), hids _ (dag.downstream_mem t ht),
      id]
  have hpartial : (dag.partialDag || decide ((dag.tasks.filter (kept ·.taskId)).length <
      dag.tasks.length)) = dag.partialDag := by simp [hfilter]
  obtain ⟨tasks, partialDag, catchup, h₁, h₂, h₃⟩ := dag
  simp only [Dag.keep, Dag.mk.injEq]
  exact ⟨htasks, hpartial, trivial⟩

theorem Dag.keep_partialDag (h : ¬∀ t ∈ dag.tasks, kept t.taskId = true) :
    (dag.keep kept).partialDag = true := by
  have hlt : (dag.tasks.filter (kept ·.taskId)).length < dag.tasks.length := by
    refine lt_of_le_of_ne (List.length_filter_le _ _) fun heq => h ?_
    exact List.length_filter_eq_length_iff.mp heq
  simp [Dag.keep, hlt]

variable {dag kept table}

theorem Dag.mem_keep_taskIds {t : TaskId} :
    t ∈ (dag.keep kept).taskIds ↔ kept t = true ∧ t ∈ dag.taskIds := by
  simp only [Dag.taskIds, Dag.keep_tasks, Dag.map_taskId_restrict, List.mem_map, List.mem_filter]
  constructor
  · rintro ⟨x, ⟨hx, hk⟩, rfl⟩
    exact ⟨hk, x, hx, rfl⟩
  · rintro ⟨hk, x, hx, rfl⟩
    exact ⟨x, ⟨hx, hk⟩, rfl⟩

theorem dagTis_eq (dag : Dag) (table : TaskInstanceTable) :
    dagTis dag table = table.refs.filter (·.taskId ∈ dag.taskIds) := by
  unfold dagTis getTaskInstances
  split
  · rw [List.filter_filter]
    simp
  · rfl

theorem dagTis_keep : dagTis (dag.keep kept) table =
    (dagTis dag table).filter (kept ·.taskId) := by
  rw [dagTis_eq, dagTis_eq, List.filter_filter]
  refine List.filter_congr fun r _ => ?_
  simp only [Dag.mem_keep_taskIds, Bool.decide_and, Bool.decide_eq_true]

/-- A round over a partial DAG begins with the rows as they are. -/
theorem filterTis_eq_load (h : (dag.keep kept).partialDag = true) :
    filterTis (dag.keep kept) table = .load table := by
  unfold filterTis getTaskInstances
  rw [if_pos h]
  generalize Session.load table = s
  induction table.refs with
  | nil => rfl
  | cons r l ih =>
    rw [List.filter_cons]
    split
    · next hr =>
      rw [List.foldl_cons, excludeRemoved, if_pos (.inl (by simpa using hr))]
      exact ih
    · exact ih

theorem filterTis_keep_state {r : TIRef} (hr : r ∈ dagTis (dag.keep kept) table) :
    (filterTis (dag.keep kept) table).state r = (filterTis dag table).state r := by
  have hmem := (mem_dagTis.mp hr).1
  rw [filterTis_state _ hmem, filterTis_state _ (Dag.mem_keep_taskIds.mp hmem).2]

/-- Instances selected by their state. -/
theorem filter_keep (p : TIState → Bool) :
    (dagTis (dag.keep kept) table).filter (p <| (filterTis (dag.keep kept) table).state ·) =
      ((dagTis dag table).filter (p <| (filterTis dag table).state ·)).filter (kept ·.taskId) := by
  have hcongr : (dagTis (dag.keep kept) table).filter
      (p <| (filterTis (dag.keep kept) table).state ·) =
      (dagTis (dag.keep kept) table).filter (p <| (filterTis dag table).state ·) :=
    List.filter_congr fun r hr => by rw [filterTis_keep_state hr]
  rw [hcongr, dagTis_keep, List.filter_filter, List.filter_filter]
  exact List.filter_congr fun r _ => Bool.and_comm ..

theorem finishedTis_keep : finishedTis (dag.keep kept) table =
    (finishedTis dag table).filter (kept ·.taskId) := filter_keep State.isFinished

theorem unfinishedTis_keep : unfinishedTis (dag.keep kept) table =
    (unfinishedTis dag table).filter (kept ·.taskId) := filter_keep State.isUnfinished

theorem schedulableTis_keep : schedulableTis (dag.keep kept) table =
    (schedulableTis dag table).filter (kept ·.taskId) := by
  have hsub : ∀ r ∈ unfinishedTis (dag.keep kept) table,
      State.isScheduleable ((filterTis (dag.keep kept) table).state r) =
        State.isScheduleable ((filterTis dag table).state r) :=
    fun r hr => by rw [filterTis_keep_state (mem_unfinishedTis.mp hr).1]
  unfold schedulableTis
  rw [List.filter_congr hsub, unfinishedTis_keep, List.filter_filter, List.filter_filter]
  exact List.filter_congr fun r _ => Bool.and_comm ..

theorem filterTis_tis {t : TaskId} (ht : t ∈ dag.taskIds) :
    (filterTis dag table).tis t = (Session.load table).tis t :=
  List.ext_getElem? fun i => filterTis_get dag (r := ⟨t, i⟩) ht

theorem filterTis_clean (dag : Dag) (table : TaskInstanceTable) (t : TaskId) :
    ∀ ti ∈ (filterTis dag table).tis t, ti.dbState = ti.state := by
  intro ti hti
  obtain ⟨i, hi⟩ := List.mem_iff_getElem?.mp hti
  exact (foldl_excludeRemoved dag (getTaskInstances dag table) (flushed_load table)).1 ⟨t, i⟩ ti hi

end

/-! ## The two passes side by side -/

section
variable (dag : Dag) (kept : TaskId → Bool) (run : RunData) (table : TaskInstanceTable)

/-- A kept task that is mirrored. -/
def IsMirrored (t : TaskId) : Prop :=
  kept t = true ∧ ∃ task, dag.getTask t = some task ∧ Mirrored dag kept run table task

/-- The pass `p` over the DAG, when it has visited `visited`, and the pass `p'` over the subset,
when it has visited those of kept tasks. -/
structure PassSim (visited : List TIRef) (p p' : ReadyPass) : Prop where
  frame : PassFrame dag run (filterTis dag table) (finishedTis dag table)
    (schedulableTis dag table) visited p
  frame' : PassFrame (dag.keep kept) run (filterTis (dag.keep kept) table)
    (finishedTis (dag.keep kept) table) (schedulableTis (dag.keep kept) table)
    (visited.filter (kept ·.taskId)) p'
  inv : PassInv (filterTis dag table) (fun _ _ => True) p
  inv' : PassInv (filterTis (dag.keep kept) table) (fun _ _ => True) p'
  rows : ∀ t, IsMirrored dag kept run table t → TaskSim visited p.session p'.session t
  unpopulated : ∀ r task, IsMirrored dag kept run table r.taskId →
    dag.getTask r.taskId = some task →
    task.getMappedTiCount run (filterTis dag table) = .error .notFullyPopulated →
    (filterTis dag table).mapIndex r < 0 → r ∉ visited →
    p.session.get r = (filterTis dag table).get r
  additional : p'.additionalTis = p.additionalTis.filter (kept ·.taskId)
  revised : ∀ t, IsMirrored dag kept run table t →
    (t ∈ p'.revisedMapIndexTaskIds ↔ t ∈ p.revisedMapIndexTaskIds)
  ready : ∀ r, IsMirrored dag kept run table r.taskId → r ∈ p'.readyTis → r ∈ p.readyTis

end

section
variable {dag : Dag} {kept : TaskId → Bool} {run : RunData} {table : TaskInstanceTable}
  {candidate : TaskId → Prop} {visited : List TIRef} {p p' : ReadyPass} {r : TIRef}
  {task : Operator} {t : TaskId}

theorem IsPlain.keep (h : IsPlain dag t) (hk : kept t = true) : IsPlain (dag.keep kept) t := by
  obtain ⟨task, htask, hplain⟩ := h
  refine ⟨task.restrict kept, ?_, hplain⟩
  rw [Dag.keep_getTask, if_pos hk, htask]
  rfl

/-- A kept task of which an instance is visited. -/
theorem SubsetAgrees.cases (h : SubsetAgrees dag kept run table candidate) (hk : kept t = true)
    (hvisited : ∃ r ∈ schedulableTis dag table, r.taskId = t) :
    IsMirrored dag kept run table t ∨ IsPlain dag t := by
  obtain ⟨r, hr, rfl⟩ := hvisited
  have hmem := (mem_dagTis.mp (mem_unfinishedTis.mp (List.mem_filter.mp hr).1).1).1
  obtain ⟨task, htask, hid, hget⟩ := Dag.getTask_of_mem hmem
  rcases h task htask (hid ▸ hk) ⟨r, hr, hid.symm⟩ with hm | hm
  · exact .inl ⟨hk, task, hget, hm⟩
  · exact .inr ⟨task, hget, hm.plain⟩

namespace PassSim

theorem filterTis_tis_eq (hpart : (dag.keep kept).partialDag = true) (ht : t ∈ dag.taskIds) :
    (filterTis (dag.keep kept) table).tis t = (filterTis dag table).tis t := by
  rw [filterTis_eq_load hpart, filterTis_tis ht]

/-- A task of which no instance is visited is in both sessions as it was. -/
theorem outside (h : PassSim dag kept run table visited p p')
    (hpart : (dag.keep kept).partialDag = true) (ht : t ∈ dag.taskIds)
    (hout : ∀ r ∈ schedulableTis dag table, r.taskId ≠ t) :
    p.session.tis t = (filterTis dag table).tis t ∧
      p'.session.tis t = (filterTis dag table).tis t := by
  refine ⟨h.frame.outside t hout, (h.frame'.outside t fun r hr => hout r ?_).trans
    (filterTis_tis_eq hpart ht)⟩
  rw [schedulableTis_keep] at hr
  exact (List.mem_filter.mp hr).1

/-- What the passes agree on for a kept task. -/
theorem reads (h : PassSim dag kept run table visited p p')
    (hagree : SubsetAgrees dag kept run table candidate)
    (hpart : (dag.keep kept).partialDag = true) (hk : kept t = true) (ht : t ∈ dag.taskIds) :
    SameFixed p.session p'.session t ∧
      ∀ r, r.taskId = t → r ∉ visited → p.session.state r = p'.session.state r := by
  by_cases hvisited : ∃ r ∈ schedulableTis dag table, r.taskId = t
  · rcases hagree.cases hk hvisited with hm | hp
    · refine ⟨(h.rows t hm).sameFixed, fun r hr hv => ?_⟩
      rcases rel_cases (h.rows t hm r hr) with ⟨hn, hn'⟩ | ⟨ti, ti', hti, hti', hab⟩
      · rw [Session.state, hn, Session.state, hn']
      · rw [Session.state_eq hti, Session.state_eq hti']
        exact hab.state_eq fun hv' => absurd hv' hv
    · have hfixed := h.frame.fixed t hp
      have hfixed' := h.frame'.fixed t (hp.keep hk)
      have hs : SameFixed (filterTis dag table) (filterTis (dag.keep kept) table) t := by
        rw [SameFixed, SameUnder, filterTis_tis_eq hpart ht]
      refine ⟨hfixed.symm.trans (hs.trans hfixed'), fun r hr hv => ?_⟩
      subst hr
      rw [(h.frame.unvisited r hp hv).1,
        (h.frame'.unvisited r (hp.keep hk) fun hv' => hv (List.mem_filter.mp hv').1).1,
        Session.state, Session.get, ← filterTis_tis_eq hpart ht, Session.state, Session.get]
  · obtain ⟨heq, heq'⟩ := h.outside hpart ht fun r hr hid => hvisited ⟨r, hr, hid⟩
    refine ⟨by rw [SameFixed, SameUnder, heq, heq'], fun r hr _ => ?_⟩
    subst hr
    rw [Session.state, Session.get, heq, Session.state, Session.get, heq']

/-- The dependencies of an instance of a mirrored task read the same in both sessions. -/
theorem evalAgree (h : PassSim dag kept run table visited p p')
    (hagree : SubsetAgrees dag kept run table candidate)
    (hpart : (dag.keep kept).partialDag = true) (hk : kept r.taskId = true)
    (htask : dag.getTask r.taskId = some task) (hm : Mirrored dag kept run table task)
    (hvisited : ∀ r ∈ visited, r ∉ finishedTis dag table)
    (hstate : p.session.state r = p'.session.state r) :
    EvalAgree dag (readyContext (finishedTis dag table)) r task p.session p'.session := by
  have hup : ∀ t ∈ task.upstreamTaskIds, kept t = true ∧ t ∈ dag.taskIds := fun t ht =>
    ⟨hm.view.upstream t ht, dag.upstream_mem task (List.mem_of_find?_eq_some htask) t ht⟩
  have hset : ∀ t ∈ dag.getUpstreamsOnlySetups task, kept t = true ∧ t ∈ dag.taskIds := fun t ht =>
    ⟨kept_setups hm.view ht, Dag.mem_taskIds_of_setup ht⟩
  have hread := fun {t} (ht : kept t = true ∧ t ∈ dag.taskIds) =>
    h.reads hagree hpart ht.1 ht.2
  refine ⟨⟨(h.rows _ ⟨hk, task, htask, hm⟩).sameFixed.get rfl, fun t ht => (hread (hup t ht)).1,
    fun t ht => (hread (hset t ht)).1, fun r' hr' ht => ?_, fun t ht => ?_⟩, hstate⟩
  · have hv : r' ∉ visited := fun hv => hvisited r' hv hr'
    exact ht.elim (fun ht => (hread (hup _ ht)).2 r' rfl hv)
      fun ht => (hread (hset _ ht)).2 r' rfl hv
  · obtain ⟨hmem, hout⟩ := hm.mapping t ht
    obtain ⟨heq, heq'⟩ := h.outside hpart hmem hout
    rw [Session.unfinishedTiExists, Session.rowsOf, heq, Session.unfinishedTiExists,
      Session.rowsOf, heq']

/-! ### One visit -/

/-- What is known of the instance that the pass over the DAG visits next. -/
structure NextVisit (dag : Dag) (table : TaskInstanceTable) (visited : List TIRef) (p : ReadyPass)
    (r : TIRef) : Prop where
  task : ∃ r' ∈ schedulableTis dag table, r'.taskId = r.taskId
  visitable : Visitable (filterTis dag table) r
  exists_ : (p.session.get r).isSome
  fresh : (r ∈ schedulableTis dag table ∧ r ∉ visited) ∨
    (Indexed p.session r ∧ ¬IsPlain dag r.taskId)

theorem NextVisit.mem_taskIds (next : NextVisit dag table visited p r) :
    r.taskId ∈ dag.taskIds := by
  obtain ⟨r', hr', hid⟩ := next.task
  rw [← hid]
  exact (mem_dagTis.mp (mem_unfinishedTis.mp (List.mem_filter.mp hr').1).1).1

/-- An instance without a map index was not visited before. -/
theorem NextVisit.of_unmapped (next : NextVisit dag table visited p r)
    (hidx : p.session.mapIndex r < 0) : r ∈ schedulableTis dag table ∧ r ∉ visited := by
  refine next.fresh.resolve_right fun ⟨⟨ti, hti, hge⟩, _⟩ => ?_
  rw [Session.mapIndex_eq hti] at hidx
  omega

/-- The lengths of a mirrored task are in both sessions as they were. -/
theorem count_eq (h : PassSim dag kept run table visited p p')
    (hpart : (dag.keep kept).partialDag = true) (hm : Mirrored dag kept run table task) :
    task.getMappedTiCount run p.session = task.getMappedTiCount run (filterTis dag table) ∧
    task.getMappedTiCount run p'.session = task.getMappedTiCount run (filterTis dag table) := by
  have hout : ∀ t ∈ task.mappedReferences, _ := fun t ht =>
    h.outside hpart (hm.mapping t (List.mem_append_left _ ht)).1
      (hm.mapping t (List.mem_append_left _ ht)).2
  constructor
  all_goals
    refine Operator.getMappedTiCount_congr fun t ht => ?_
    obtain ⟨heq, heq'⟩ := hout t ht
    simp only [Session.unfinishedTiExists, Session.rowsOf, heq, heq']

/-- An unexpanded instance whose mapping is not populated is not given a dependency state when it is
found ready. -/
theorem unpopulated_state (h : PassSim dag kept run table visited p p')
    (hpart : (dag.keep kept).partialDag = true) (hk : kept r.taskId = true)
    (htask : dag.getTask r.taskId = some task) (hm : Mirrored dag kept run table task)
    (hvisited : ∀ r ∈ visited, r ∉ finishedTis dag table)
    (next : NextVisit dag table visited p r) (hidx : p.session.mapIndex r < 0)
    (hcount : task.getMappedTiCount run p.session = .error .notFullyPopulated)
    (hmet : (areDependenciesMet dag run p.session r task
      (readyContext (finishedTis dag table))).met = true) :
    isDependencyState ((areDependenciesMet dag run p.session r task
      (readyContext (finishedTis dag table))).session.state r) = false := by
  obtain ⟨hr, hv⟩ := next.of_unmapped hidx
  have hsome : ((filterTis dag table).get r).isSome := (visited_schedulableTis dag table).get r hr
  have hcount' : task.getMappedTiCount run (filterTis dag table) = .error .notFullyPopulated :=
    (h.count_eq hpart hm).1.symm.trans hcount
  have hidx₀ : (filterTis dag table).mapIndex r < 0 := by
    obtain ⟨ti, hti⟩ := Option.isSome_iff_exists.mp hsome
    obtain ⟨ti', hti', hstep⟩ := h.inv.rows.row r ti hti
    rw [Session.mapIndex_eq hti'] at hidx
    rw [Session.mapIndex_eq hti]
    rcases hstep.mapIndex with heq | ⟨-, heq⟩ <;> omega
  have hget := h.unpopulated r task ⟨hk, task, htask, hm⟩ htask hcount' hidx₀ hv
  obtain ⟨hsettled, hskip⟩ :=
    hm.unpopulated hcount' r hr (Dag.getTask_taskId htask).symm hidx₀
  have hagree := areDependenciesMet_agree run (h.frame.evalAgree (fun r' hr' _ => hvisited r' hr')
    htask hsettled (by rw [SameObject, hget]) (by rw [Session.state, Session.state, hget])
    fun t ht => by
      obtain ⟨heq, -⟩ := h.outside hpart (hm.mapping t ht).1 (hm.mapping t ht).2
      simp only [Session.unfinishedTiExists, Session.rowsOf, heq]) hsome
  rw [readyEvaluation, evaluate_eq run htask] at hskip
  rw [← hagree.session.state]
  exact hskip (hagree.met.trans hmet)

/-- Visits to an instance of a mirrored task. -/
theorem visitSim (h : PassSim dag kept run table visited p p')
    (hagree : SubsetAgrees dag kept run table candidate)
    (hpart : (dag.keep kept).partialDag = true) (hk : kept r.taskId = true)
    (htask : dag.getTask r.taskId = some task) (hm : Mirrored dag kept run table task)
    (hvisited : ∀ r ∈ visited, r ∉ finishedTis dag table)
    (next : NextVisit dag table visited p r) :
    VisitSim visited p p' (p.visit dag run (readyContext (finishedTis dag table)) r)
      (p'.visit (dag.keep kept) run (readyContext (finishedTis (dag.keep kept) table)) r) r := by
  have hmir : IsMirrored dag kept run table r.taskId := ⟨hk, task, htask, hm⟩
  obtain ⟨ti, ti', hti, hti', hab⟩ := (rel_cases (h.rows _ hmir r rfl)).resolve_left
    fun ⟨hn, _⟩ => by simpa [hn] using next.exists_
  have hstate : ti.state = ti'.state := by
    rcases next.fresh with ⟨-, hv⟩ | ⟨⟨ti₂, hti₂, hge⟩, -⟩
    · exact hab.state_eq fun hv' => absurd hv' hv
    · rw [hti] at hti₂
      cases hti₂
      exact hab.state_eq fun _ => hge
  have hctx : readyContext (finishedTis (dag.keep kept) table) =
      { readyContext (finishedTis dag table) with
        finishedTis := (finishedTis dag table).filter (kept ·.taskId) } := by
    rw [finishedTis_keep]
    rfl
  have hdeps := areDependenciesMet_keep run hm.view hctx
    (h.evalAgree hagree hpart hk htask hm hvisited
      (by rw [Session.state_eq hti, Session.state_eq hti', hstate])) next.exists_
  obtain ⟨hcount, hcount'⟩ := h.count_eq hpart hm
  refine ReadyPass.visit_sim htask hk (h.rows _ hmir) hdeps.met.symm hdeps.session.state
    (hcount'.trans hcount.symm) (fun hidx => ?_) (fun hidx => ?_)
    (fun hc hidx hmet => h.unpopulated_state hpart hk htask hm hvisited next hidx hc hmet)
    (h.revised _ hmir)
  · rw [Session.mapIndex_eq hti] at hidx
    exact fun r' ti₂ hid hti₂ hidx₂ =>
      h.inv.rows.unmapped r' r ti₂ ti hti₂ hti (by omega) hidx hid
  · obtain ⟨-, hv⟩ := next.of_unmapped hidx
    rw [Session.mapIndex_eq hti] at hidx
    have hge := h.inv.rows.mapIndex_ge r ti hti
    obtain ⟨hdb, hdb'⟩ := hab.fresh (by omega) hv
    rw [hti, hti', Option.map_some, Option.map_some, hdb, hdb', hstate]

/-- The visit over the subset, which leaves tasks out that are not kept. -/
def visitKept (dag : Dag) (kept : TaskId → Bool) (run : RunData) (table : TaskInstanceTable)
    (p' : ReadyPass) (r : TIRef) : ReadyPass :=
  if kept r.taskId then
    p'.visit (dag.keep kept) run (readyContext (finishedTis (dag.keep kept) table)) r
  else p'

theorem visitKept_frame : VisitFrame p' (visitKept dag kept run table p' r) r := by
  unfold visitKept
  split
  · exact p'.visit_frame
  · exact ⟨fun _ _ => .refl _ _, fun _ _ => .rfl, fun _ _ => .rfl, fun _ hr => hr, [], by simp,
      fun _ hr => by cases hr⟩

/-- The frame of the pass over the subset. -/
theorem frame'_visit (h : PassSim dag kept run table visited p p')
    (hvisited : ∀ r ∈ visited, r ∉ finishedTis dag table)
    (next : NextVisit dag table visited p r) :
    PassFrame (dag.keep kept) run (filterTis (dag.keep kept) table)
      (finishedTis (dag.keep kept) table) (schedulableTis (dag.keep kept) table)
      ((visited ++ [r]).filter (kept ·.taskId)) (visitKept dag kept run table p' r) := by
  rw [List.filter_append]
  cases hk : kept r.taskId with
  | false => simpa [visitKept, hk] using h.frame'
  | true =>
    have hmem : ∀ r' ∈ schedulableTis dag table, kept r'.taskId = true →
        r' ∈ schedulableTis (dag.keep kept) table := fun r' hr' hk' => by
      rw [schedulableTis_keep]
      exact List.mem_filter.mpr ⟨hr', hk'⟩
    obtain ⟨r', hr', hid⟩ := next.task
    have hvis := h.frame'.visit (filterTis_clean (dag.keep kept) table)
      (fun r₂ hr₂ _ hfin => by
        rw [finishedTis_keep] at hfin
        exact hvisited r₂ (List.mem_filter.mp hr₂).1 (List.mem_filter.mp hfin).1)
      ⟨r', hmem r' hr' (hid ▸ hk), hid⟩
      (fun hp => by
        rcases next.fresh with ⟨hr, hv⟩ | ⟨-, hnp⟩
        · exact ⟨fun hv' => hv (List.mem_filter.mp hv').1,
            (visited_schedulableTis (dag.keep kept) table).get r (hmem r hr hk)⟩
        · obtain ⟨task', htask', hplain⟩ := hp
          rw [Dag.keep_getTask, if_pos hk] at htask'
          obtain ⟨task, htask, rfl⟩ := Option.map_eq_some_iff.mp htask'
          exact absurd ⟨task, htask, hplain⟩ hnp)
    simpa [visitKept, hk] using hvis

/-- A visit over the subset adds the instances of kept tasks. -/
theorem additional_visit (h : PassSim dag kept run table visited p p')
    (hagree : SubsetAgrees dag kept run table candidate)
    (next : NextVisit dag table visited p r)
    (hsim : IsMirrored dag kept run table r.taskId → VisitSim visited p p'
      (p.visit dag run (readyContext (finishedTis dag table)) r)
      (visitKept dag kept run table p' r) r) :
    (visitKept dag kept run table p' r).additionalTis =
      (p.visit dag run (readyContext (finishedTis dag table)) r).additionalTis.filter
        (kept ·.taskId) := by
  have hframe : VisitFrame p (p.visit dag run (readyContext (finishedTis dag table)) r) r :=
    p.visit_frame
  obtain ⟨new, hadd, hids⟩ := hframe.additional
  rw [hadd, List.filter_append, ← h.additional]
  cases hk : kept r.taskId with
  | false =>
    have hnil : new.filter (kept ·.taskId) = [] :=
      List.filter_eq_nil_iff.mpr fun r' hr' => by simp [(hids r' hr').1, hk]
    rw [hnil, List.append_nil, visitKept, hk]
    rfl
  | true =>
    have hall : new.filter (kept ·.taskId) = new :=
      List.filter_eq_self.mpr fun r' hr' => by rw [(hids r' hr').1, hk]
    rw [hall]
    rcases hagree.cases hk next.task with hm | ⟨task, htask, hplain⟩
    · obtain ⟨new', hq, hq'⟩ := (hsim hm).additional
      rw [hadd] at hq
      rw [hq', List.append_cancel_left hq]
    · have hp := (p.visit_plain run (readyContext (finishedTis dag table)) htask hplain).2.1
      rw [hadd] at hp
      have htask' : (dag.keep kept).getTask r.taskId = some (task.restrict kept) := by
        rw [Dag.keep_getTask, if_pos hk, htask]
        rfl
      have hp' := (p'.visit_plain run (readyContext (finishedTis (dag.keep kept) table)) htask'
        hplain).2.1
      rw [visitKept, if_pos hk, hp', List.self_eq_append_right.mp hp.symm, List.append_nil]

/-- **A visit keeps the two passes side by side.** -/
theorem visit (h : PassSim dag kept run table visited p p')
    (hagree : SubsetAgrees dag kept run table candidate)
    (hpart : (dag.keep kept).partialDag = true)
    (hvisited : ∀ r ∈ visited, r ∉ finishedTis dag table)
    (next : NextVisit dag table visited p r) :
    PassSim dag kept run table (visited ++ [r])
      (p.visit dag run (readyContext (finishedTis dag table)) r)
      (visitKept dag kept run table p' r) := by
  have hf : VisitFrame p (p.visit dag run (readyContext (finishedTis dag table)) r) r :=
    p.visit_frame
  have hf' : VisitFrame p' (visitKept dag kept run table p' r) r := visitKept_frame
  have hsim : IsMirrored dag kept run table r.taskId → VisitSim visited p p'
      (p.visit dag run (readyContext (finishedTis dag table)) r)
      (visitKept dag kept run table p' r) r := by
    rintro ⟨hk, task, htask, hm⟩
    rw [visitKept, if_pos hk]
    exact h.visitSim hagree hpart hk htask hm hvisited next
  refine ⟨?_, h.frame'_visit hvisited next, ?_, ?_, fun t ht => ?_, ?_, ?_, fun t ht => ?_,
    fun r' hr' hready => ?_⟩
  · -- the frame over the DAG
    refine h.frame.visit (filterTis_clean dag table) (fun r' hr' _ => hvisited r' hr') next.task
      fun hp => ?_
    obtain ⟨hr, hv⟩ := next.fresh.resolve_right fun ⟨_, hnp⟩ => hnp hp
    exact ⟨hv, (visited_schedulableTis dag table).get r hr⟩
  · exact h.inv.visit next.visitable fun _ _ _ _ => trivial
  · unfold visitKept
    split
    · refine h.inv'.visit (fun ti hti => next.visitable ti ?_) fun _ _ _ _ => trivial
      rw [Session.get, filterTis_tis_eq hpart next.mem_taskIds] at hti
      exact hti
    · exact h.inv'
  · -- the rows
    by_cases hid : t = r.taskId
    · subst hid
      exact (hsim ht).rows
    · exact ((h.rows t ht).mono fun _ hv => List.mem_append_left _ hv).of_other
        (hf.other t hid) (hf'.other t hid)
  · -- unexpanded instances without a populated mapping
    intro r' task hmir htask hcount hidx hv
    rw [List.mem_append, List.mem_singleton, not_or] at hv
    have hget := h.unpopulated r' task hmir htask hcount hidx hv.1
    by_cases hid : r'.taskId = r.taskId
    · obtain ⟨hk, task', htask', hm⟩ := hmir
      rw [htask] at htask'
      cases htask'
      have hge : 0 ≤ p.session.mapIndex r := by
        by_contra hneg
        obtain ⟨ti, hti⟩ := Option.isSome_iff_exists.mp next.exists_
        rw [Session.mapIndex_eq hti] at hneg
        cases hti' : (filterTis dag table).get r' with
        | none => simp [Session.mapIndex, hti'] at hidx
        | some ti' =>
          rw [Session.mapIndex_eq hti'] at hidx
          rw [hti'] at hget
          exact hv.2 (h.inv.rows.unmapped r' r ti' ti hget hti hidx (by omega) hid)
      rw [hid] at htask
      rw [← hget]
      exact ReadyPass.visit_get_of_error htask ((h.count_eq hpart hm).1.trans hcount) hge hv.2
    · rcases (hf.other r'.taskId hid).get rfl with heq | heq
      · rw [heq, hget]
      · rw [heq, Session.get_flush, hget]
        cases hti : (filterTis dag table).get r' with
        | none => rfl
        | some ti =>
          have hclean := filterTis_clean dag table r'.taskId ti (List.mem_of_getElem? hti)
          obtain ⟨mapIndex, state, dbState, deleted, locked, retry, reschedule⟩ := ti
          cases hclean
          rfl
  · exact h.additional_visit hagree next hsim
  · by_cases hid : t = r.taskId
    · subst hid
      exact (hsim ht).revised
    · rw [hf.revised t hid, hf'.revised t hid]
      exact h.revised t ht
  · by_cases hid : r'.taskId = r.taskId
    · obtain ⟨new, hq, hq'⟩ := (hsim (hid ▸ hr')).ready
      rw [hq'] at hready
      rw [hq]
      rcases List.mem_append.mp hready with hready | hready
      · exact List.mem_append_left _ (h.ready r' hr' hready)
      · exact List.mem_append_right _ hready
    · rw [hf.ready r' hid]
      exact h.ready r' hr' ((hf'.ready r' hid).mp hready)

theorem init (dag : Dag) (kept : TaskId → Bool) (run : RunData) (table : TaskInstanceTable)
    (hpart : (dag.keep kept).partialDag = true) :
    PassSim dag kept run table [] { session := filterTis dag table }
      { session := filterTis (dag.keep kept) table } := by
  refine ⟨.init, .init, ⟨rowInv_filterTis dag _, fun _ hr => (List.not_mem_nil hr).elim⟩,
    ⟨rowInv_filterTis _ _, fun _ hr => (List.not_mem_nil hr).elim⟩, fun t ht r hr => ?_,
    fun _ _ _ _ _ _ _ => rfl, rfl, fun _ _ => .rfl, fun _ _ hr => (List.not_mem_nil hr).elim⟩
  obtain ⟨-, task, htask, -⟩ := ht
  have heq : (filterTis (dag.keep kept) table).get r = (filterTis dag table).get r := by
    rw [Session.get, hr, filterTis_tis_eq hpart (Dag.getTask_mem htask), ← hr, Session.get]
  dsimp only
  rw [heq]
  cases hti : (filterTis dag table).get r with
  | none => exact .none
  | some ti =>
    have hclean := filterTis_clean dag table r.taskId ti (List.mem_of_getElem? hti)
    exact .some ⟨⟨rfl, .inl rfl⟩, fun _ _ => ⟨hclean, hclean⟩⟩

theorem not_finished_of_visitable (hv : Visitable (filterTis dag table) r) :
    r ∉ finishedTis dag table := by
  intro hfin
  obtain ⟨hmem, hstate⟩ := List.mem_filter.mp hfin
  obtain ⟨htask, hget⟩ := mem_dagTis.mp hmem
  rw [← filterTis_get dag htask] at hget
  obtain ⟨ti, hti⟩ := Option.ne_none_iff_exists'.mp hget
  rw [Session.state_eq hti] at hstate
  rw [State.not_isFinished_of_isUnfinished (State.isUnfinished_of_isScheduleable (hv ti hti))]
    at hstate
  cases hstate

/-- **The ready passes of the two rounds stay side by side.** -/
theorem readyPass (hagree : SubsetAgrees dag kept run table candidate)
    (hpart : (dag.keep kept).partialDag = true) :
    PassSim dag kept run table
      (visitedTis dag run (filterTis dag table) (schedulableTis dag table) (finishedTis dag table))
      (callReadyPass dag run table) (callReadyPass (dag.keep kept) run table) := by
  have hv := visited_schedulableTis dag table
  -- the instances of the query
  have hfirst : PassSim dag kept run table (schedulableTis dag table)
      (passAfter dag run (filterTis dag table) (finishedTis dag table) (schedulableTis dag table))
      (passAfter (dag.keep kept) run (filterTis (dag.keep kept) table)
        (finishedTis (dag.keep kept) table) (schedulableTis (dag.keep kept) table)) := by
    rw [schedulableTis_keep]
    refine Lockstep.foldl_lockstep (init dag kept run table hpart) fun v r p p' hpre h => ?_
    have hr : r ∈ schedulableTis dag table := hpre.subset (by simp)
    refine h.visit hagree hpart
      (fun r' hr' => hv.unfinished r' (hpre.subset (List.mem_append_left _ hr')))
      ⟨⟨r, hr, rfl⟩, visitable_schedulableTis hr, ?_, .inl ⟨hr, fun hmem => ?_⟩⟩
    · obtain ⟨ti, hti⟩ := Option.isSome_iff_exists.mp (hv.get r hr)
      obtain ⟨ti', hti', -⟩ := h.inv.rows.row r ti hti
      exact Option.isSome_iff_exists.mpr ⟨ti', hti'⟩
    · exact (List.nodup_append.mp (hv.nodup.sublist hpre.sublist)).2.2 r hmem r (by simp) rfl
  -- those that expansion added
  unfold callReadyPass Airflow.readyPass visitedTis
  dsimp only
  rw [← passAfter, ← passAfter, hfirst.additional]
  have hadd := hfirst.inv.additional
  generalize passAfter dag run (filterTis dag table) (finishedTis dag table)
    (schedulableTis dag table) = p₁ at hfirst hadd ⊢
  have hsecond := Lockstep.foldl_lockstep (L := p₁.additionalTis)
    (M := fun v q q' => PassSim dag kept run table (schedulableTis dag table ++ v) q q' ∧
      ∀ r ∈ p₁.additionalTis, r ∈ q.additionalTis) (p := (kept ·.taskId))
    (f := ReadyPass.visit dag run (readyContext (finishedTis dag table)))
    (g := ReadyPass.visit (dag.keep kept) run
      (readyContext (finishedTis (dag.keep kept) table)))
    ⟨by simpa using hfirst, fun _ hr => hr⟩ fun v r q q' hpre hboth => by
      obtain ⟨h, hgrow⟩ := hboth
      have hr : r ∈ p₁.additionalTis := hpre.subset (by simp)
      obtain ⟨hplain, hidx, htask⟩ := h.frame.additional r (hgrow r hr)
      obtain ⟨ti, hti, hge⟩ := hidx
      rw [← List.append_assoc]
      refine ⟨h.visit hagree hpart (fun r' hr' => ?_) ⟨htask, hadd r hr,
        Option.isSome_iff_exists.mpr ⟨ti, hti⟩, .inr ⟨⟨ti, hti, hge⟩, hplain⟩⟩, fun r' hr' => ?_⟩
      · rcases List.mem_append.mp hr' with hr' | hr'
        · exact hv.unfinished r' hr'
        · exact not_finished_of_visitable (hadd r' (hpre.subset (List.mem_append_left _ hr')))
      · have hframe : VisitFrame q
            (q.visit dag run (readyContext (finishedTis dag table)) r) r := q.visit_frame
        obtain ⟨new, hnew, -⟩ := hframe.additional
        rw [hnew]
        exact List.mem_append_left _ (hgrow r' hr')
  exact hsecond.1

end PassSim

/-! ## The two rounds -/

/-- A round that has unfinished instances ends as its ready pass. -/
theorem decisions_callReadyPass (run : RunData) (h : unfinishedTis dag table ≠ []) :
    (taskInstanceSchedulingDecisions dag run table).session =
        (callReadyPass dag run table).session ∧
      (taskInstanceSchedulingDecisions dag run table).schedulableTis =
        (callReadyPass dag run table).readyTis := by
  obtain ⟨hsession, hready, -⟩ := decisions_of_ne_nil run h
  exact ⟨hsession, hready⟩

theorem unfinishedTis_ne_nil (hr : r ∈ schedulableTis dag table) :
    unfinishedTis dag table ≠ [] := by
  intro hnil
  have hmem := (List.mem_filter.mp hr).1
  rw [hnil] at hmem
  cases hmem

/-- The frame of the ready pass of a round. -/
theorem callReadyPass_frame (dag : Dag) (run : RunData) (table : TaskInstanceTable) :
    PassFrame dag run (filterTis dag table) (finishedTis dag table) (schedulableTis dag table)
      (visitedTis dag run (filterTis dag table) (schedulableTis dag table)
        (finishedTis dag table)) (callReadyPass dag run table) :=
  passFrame (filterTis_clean dag table) (visited_schedulableTis dag table)

/-- **A round gives an instance of a task that needs no expansion what its dependencies give it in
the session that the round began with.** -/
theorem decisions_plain (run : RunData) (hr : r ∈ schedulableTis dag table)
    (htask : dag.getTask r.taskId = some task) (hplain : task.needsExpansion = false)
    (hsettled : UpstreamSettled dag (schedulableTis dag table) task) :
    (taskInstanceSchedulingDecisions dag run table).session.state r =
        (readyEvaluation dag run table r).session.state r ∧
      (r ∈ (taskInstanceSchedulingDecisions dag run table).schedulableTis ↔
        (readyEvaluation dag run table r).met = true ∧
        State.isScheduleable ((readyEvaluation dag run table r).session.state r) = true) := by
  obtain ⟨hsession, hready⟩ := decisions_callReadyPass run (unfinishedTis_ne_nil hr)
  rw [hsession, hready]
  exact (callReadyPass_frame dag run table).visited r (List.mem_append_left _ hr) task htask hplain
    hsettled

/-- The instances that the mini scheduler schedules, if they are ready. -/
def Candidate (dag : Dag) (task : Operator) (t : TaskId) : Prop :=
  t ∈ task.downstreamTaskIds ∧
    ¬((miniSchedulerDag dag task).getTask t).any (·.hasNothingToRun) = true

/-- The tasks that the mini scheduler after `task` keeps. -/
def miniKept (dag : Dag) (task : Operator) (t : TaskId) : Bool :=
  t ∈ dag.subsetIds task.downstreamTaskIds true false true

/-- The tasks of which the mini scheduler after `task` visits instances are seen by its partial DAG
as by the DAG. -/
def MiniSchedulerAgrees (dag : Dag) (run : RunData) (task : Operator) (table : TaskInstanceTable) :
    Prop :=
  SubsetAgrees dag (miniKept dag task) run table (Candidate dag task)

theorem miniSchedulerDag_eq (dag : Dag) (task : Operator) :
    miniSchedulerDag dag task = dag.keep (miniKept dag task) := rfl

theorem mem_scheduled : r ∈ (scheduleDownstreamTasks dag run task table).2 ↔
    r ∈ (taskInstanceSchedulingDecisions (dag.keep (miniKept dag task)) run table).schedulableTis ∧
      Candidate dag task r.taskId := by
  simp only [scheduleDownstreamTasks, List.mem_filter, decide_eq_true_eq]
  exact .rfl

/-- What a matched task's instance gets over the DAG and over the subset. -/
theorem Matched.decisions (h : Matched dag kept run table candidate task)
    (hk : kept r.taskId = true) (hr : r ∈ schedulableTis dag table)
    (htask : dag.getTask r.taskId = some task) :
    let full := callReadyPass dag run table
    let mini := callReadyPass (dag.keep kept) run table
    (full.session.state r = (readyEvaluation dag run table r).session.state r ∧
      (r ∈ full.readyTis ↔ (readyEvaluation dag run table r).met = true ∧
        State.isScheduleable ((readyEvaluation dag run table r).session.state r) = true)) ∧
    mini.session.state r = (readyEvaluation (dag.keep kept) run table r).session.state r ∧
      (r ∈ mini.readyTis ↔ (readyEvaluation (dag.keep kept) run table r).met = true ∧
        State.isScheduleable
          ((readyEvaluation (dag.keep kept) run table r).session.state r) = true) := by
  have htask' : (dag.keep kept).getTask r.taskId = some (task.restrict kept) := by
    rw [Dag.keep_getTask, if_pos hk, htask]
    rfl
  have hr' : r ∈ schedulableTis (dag.keep kept) table := by
    rw [schedulableTis_keep]
    exact List.mem_filter.mpr ⟨hr, hk⟩
  exact ⟨(callReadyPass_frame dag run table).visited r (List.mem_append_left _ hr) task htask
      h.plain h.settled,
    (callReadyPass_frame (dag.keep kept) run table).visited r (List.mem_append_left _ hr') _ htask'
      h.plain h.settled'⟩

/-- A task of which the round over the subset visits an instance. -/
theorem exists_of_visited_keep {t : TaskId}
    (h : ∃ r' ∈ schedulableTis (dag.keep kept) table, r'.taskId = t) :
    kept t = true ∧ ∃ task ∈ dag.tasks, task.taskId = t ∧ dag.getTask t = some task ∧
      ∃ r' ∈ schedulableTis dag table, r'.taskId = task.taskId := by
  obtain ⟨r', hr', rfl⟩ := h
  rw [schedulableTis_keep] at hr'
  obtain ⟨hmem, hk⟩ := List.mem_filter.mp hr'
  obtain ⟨task, htask, htid, hget⟩ := Dag.getTask_of_mem
    (mem_dagTis.mp (mem_unfinishedTis.mp (List.mem_filter.mp hmem).1).1).1
  exact ⟨hk, task, htask, htid, hget, r', hmem, htid.symm⟩

section
variable (hagree : SubsetAgrees dag kept run table candidate)
  (hpart : (dag.keep kept).partialDag = true)
include hagree hpart

/-- The passes agree on the map indexes of a kept task. -/
theorem mapIndex_of_agrees
    (hvisited : ∃ r' ∈ schedulableTis (dag.keep kept) table, r'.taskId = r.taskId) :
    (callReadyPass dag run table).session.mapIndex r =
      (callReadyPass (dag.keep kept) run table).session.mapIndex r := by
  obtain ⟨hk, task, htask, htid, hget, hmem⟩ := exists_of_visited_keep hvisited
  exact ((PassSim.readyPass hagree hpart).reads hagree hpart hk
    (Dag.getTask_mem hget)).1.mapIndex rfl fun _ => rfl

/-- An instance that the round over the subset gives a dependency state gets it over the DAG. -/
theorem states_of_agrees
    (hchanged : (callReadyPass (dag.keep kept) run table).session.state r ≠
      (Session.load table).state r)
    (hdep : isDependencyState ((callReadyPass (dag.keep kept) run table).session.state r) = true) :
    (callReadyPass dag run table).session.state r =
        (callReadyPass (dag.keep kept) run table).session.state r ∧
      (callReadyPass dag run table).session.mapIndex r =
        (callReadyPass (dag.keep kept) run table).session.mapIndex r := by
  have hsim := PassSim.readyPass hagree hpart
  have hload : ∀ r', (filterTis (dag.keep kept) table).state r' =
      (Session.load table).state r' := fun r' => by rw [filterTis_eq_load hpart]
  by_cases hvisited : ∃ r' ∈ schedulableTis (dag.keep kept) table, r'.taskId = r.taskId
  · refine ⟨?_, mapIndex_of_agrees hagree hpart hvisited⟩
    obtain ⟨hk, task, htask, htid, hget, hmem⟩ := exists_of_visited_keep hvisited
    rcases hagree task htask (htid ▸ hk) hmem with hm | hm
    · rcases rel_cases (hsim.rows _ ⟨hk, task, hget, hm⟩ r rfl) with
        ⟨-, hn'⟩ | ⟨ti, ti', hti, hti', hab⟩
      · rw [Session.state, hn'] at hdep
        cases hdep
      · rw [Session.state_eq hti'] at hdep
        rw [Session.state_eq hti, Session.state_eq hti']
        rcases hab.state with heq | ⟨-, -, -, hno⟩
        · exact heq
        · rw [hdep] at hno
          cases hno
    · have hplain : IsPlain dag r.taskId := ⟨task, hget, hm.plain⟩
      have hr : r ∈ schedulableTis dag table := by
        by_contra hno
        refine hchanged ?_
        rw [← hload]
        refine (hsim.frame'.unvisited r (hplain.keep hk) fun hv => hno ?_).1
        exact mem_of_visitedTis run (filterTis_clean dag table) (visited_schedulableTis dag table)
          hplain (List.mem_filter.mp hv).1
      obtain ⟨⟨hfull, -⟩, hmini, -⟩ := hm.decisions hk hr hget
      rw [hmini] at hdep
      rw [hfull, hmini]
      exact (hm.instances r hr htid.symm).state hdep
  · refine absurd ?_ hchanged
    rw [← hload]
    have hout := hsim.frame'.outside r.taskId fun r' hr' hid => hvisited ⟨r', hr', hid⟩
    rw [Session.state, Session.get, hout, Session.state, Session.get]

/-- An instance that the round over the subset schedules is ready over the DAG. -/
theorem scheduled_of_agrees (hready : r ∈ (callReadyPass (dag.keep kept) run table).readyTis)
    (hcandidate : candidate r.taskId) :
    r ∈ (callReadyPass dag run table).readyTis ∧
      (callReadyPass dag run table).session.mapIndex r =
        (callReadyPass (dag.keep kept) run table).session.mapIndex r := by
  have hsim := PassSim.readyPass hagree hpart
  have hvisited := hsim.frame'.ready r hready
  refine ⟨?_, mapIndex_of_agrees hagree hpart hvisited⟩
  obtain ⟨hk, task, htask, htid, hget, hmem⟩ := exists_of_visited_keep hvisited
  rcases hagree task htask (htid ▸ hk) hmem with hm | hm
  · exact hsim.ready r ⟨hk, task, hget, hm⟩ hready
  · have hplain : IsPlain dag r.taskId := ⟨task, hget, hm.plain⟩
    have hr : r ∈ schedulableTis dag table := by
      by_contra hno
      refine (hsim.frame'.unvisited r (hplain.keep hk) fun hv => hno ?_).2 hready
      exact mem_of_visitedTis run (filterTis_clean dag table) (visited_schedulableTis dag table)
        hplain (List.mem_filter.mp hv).1
    obtain ⟨⟨-, hfull⟩, -, hmini⟩ := hm.decisions hk hr hget
    obtain ⟨hmet, hsched⟩ := hmini.mp hready
    exact hfull.mpr ((hm.instances r hr htid.symm).ready hcandidate hmet hsched)

end

/-- The round of the mini scheduler refines the one over the DAG where the subset agrees. -/
theorem refinesRound_of_agrees (h : MiniSchedulerAgrees dag run task table) :
    RefinesRound dag run task table := by
  by_cases hall : ∀ t ∈ dag.tasks, miniKept dag task t.taskId = true
  · -- nothing is left out
    have hmini : (scheduleDownstreamTasks dag run task table).1 =
        taskInstanceSchedulingDecisions dag run table := by
      rw [scheduleDownstreamTasks, miniSchedulerDag_eq, Dag.keep_all dag _ hall]
    refine ⟨fun r => ?_, fun r hr => ?_⟩
    · rw [hmini]
      exact fun _ _ => ⟨rfl, rfl⟩
    · rw [mem_scheduled, Dag.keep_all dag _ hall] at hr
      rw [hmini]
      exact ⟨hr.1, rfl⟩
  · have hpart := Dag.keep_partialDag dag _ hall
    by_cases hnil : unfinishedTis (dag.keep (miniKept dag task)) table = []
    · -- there is nothing to do
      have hdecisions := decisions_of_nil run hnil
      refine ⟨fun r hchanged _ => absurd ?_ hchanged, fun r hr => ?_⟩
      · rw [scheduleDownstreamTasks, miniSchedulerDag_eq, hdecisions, filterTis_eq_load hpart]
      · rw [mem_scheduled, hdecisions] at hr
        exact (List.not_mem_nil hr.1).elim
    · have hne : unfinishedTis dag table ≠ [] := by
        rw [unfinishedTis_keep] at hnil
        exact fun hnil' => hnil (by rw [hnil', List.filter_nil])
      obtain ⟨hsession, hready⟩ := decisions_callReadyPass run hne
      obtain ⟨hsession', hready'⟩ := decisions_callReadyPass run hnil
      refine ⟨fun r => ?_, fun r hr => ?_⟩
      · rw [scheduleDownstreamTasks, miniSchedulerDag_eq, hsession, hsession']
        exact states_of_agrees h hpart
      · obtain ⟨hmem, hcandidate⟩ := mem_scheduled.mp hr
        rw [hready'] at hmem
        rw [scheduleDownstreamTasks, miniSchedulerDag_eq]
        dsimp only
        rw [hsession, hsession', hready]
        exact scheduled_of_agrees h hpart hmem hcandidate

theorem settled_of_plain (hplain : ∀ t ∈ dag.tasks, t.needsExpansion = false) (l : List TIRef) :
    UpstreamSettled dag l task := by
  intro u hu _ hexp
  rw [hplain u hu] at hexp
  cases hexp

/-- Without mapping, the refinement holds only where the subset agrees. -/
theorem agrees_of_refinesRound (hplain : ∀ t ∈ dag.tasks, t.needsExpansion = false)
    (h : RefinesRound dag run task table) : MiniSchedulerAgrees dag run task table := by
  have hplain' : ∀ t ∈ (dag.keep (miniKept dag task)).tasks, t.needsExpansion = false := by
    intro t ht
    rw [Dag.keep_tasks] at ht
    obtain ⟨x, hx, rfl⟩ := List.mem_map.mp ht
    exact hplain x (List.mem_filter.mp hx).1
  intro x hx hk _
  refine .inr ⟨hplain x hx, settled_of_plain hplain _, settled_of_plain hplain' _,
    fun r hr hid => ?_⟩
  obtain ⟨y, hy, hyid, hget⟩ := Dag.getTask_of_mem
    (mem_dagTis.mp (mem_unfinishedTis.mp (List.mem_filter.mp hr).1).1).1
  rw [← hid] at hk
  have hget' : (dag.keep (miniKept dag task)).getTask r.taskId =
      some (y.restrict (miniKept dag task)) := by
    rw [Dag.keep_getTask, if_pos hk, hget]
    rfl
  have hr' : r ∈ schedulableTis (dag.keep (miniKept dag task)) table := by
    rw [schedulableTis_keep]
    exact List.mem_filter.mpr ⟨hr, hk⟩
  obtain ⟨hfull, hfullReady⟩ := decisions_plain run hr hget (hplain y hy)
    (settled_of_plain hplain _)
  obtain ⟨hmini, hminiReady⟩ := decisions_plain run hr' hget' (hplain y hy)
    (settled_of_plain hplain' _)
  refine ⟨fun hdep => ?_, fun hcandidate hmet hsched => ?_⟩
  · rw [← hmini] at hdep ⊢
    rw [← hfull]
    refine (h.states r (fun hsame => ?_) hdep).1
    -- the state that it had can be scheduled
    rw [scheduleDownstreamTasks, miniSchedulerDag_eq, ← filterTis_state _
      (mem_dagTis.mp (mem_unfinishedTis.mp (List.mem_filter.mp hr).1).1).1] at hsame
    have hwas := (List.mem_filter.mp hr).2
    rw [← hsame] at hwas
    generalize (taskInstanceSchedulingDecisions (dag.keep (miniKept dag task)) run
      table).session.state r = state at hwas hdep
    revert hwas hdep
    cases state with
    | none => simp [isDependencyState]
    | some state => cases state <;> simp [isDependencyState, State.isScheduleable]
  · exact hfullReady.mp (h.scheduled r
      (mem_scheduled.mpr ⟨hminiReady.mpr ⟨hmet, hsched⟩, hcandidate⟩)).1

end

/-! ### A direct upstream task that loses one of its own -/

/-- An operator with its place in the graph. -/
def rung (taskId : TaskId) (upstreamTaskIds downstreamTaskIds : List TaskId)
    (triggerRule : TriggerRule) : Operator where
  taskId := taskId
  upstreamTaskIds := upstreamTaskIds
  downstreamTaskIds := downstreamTaskIds
  triggerRule := triggerRule
  deps_mapped := baseOperatorDeps_unmapped

/-- The task that has finished. -/
def ladderTask : Operator := rung 0 [] [1] .allSuccess

/-- The task downstream of it has three direct upstream tasks; one of them waits for another one
and for a task that the subset does not keep. -/
def ladderDag : Dag where
  tasks := [ladderTask, rung 1 [0, 2, 3] [] .allSuccess, rung 2 [3, 4] [1] .oneSuccess,
    rung 3 [] [1, 2] .allSuccess, rung 4 [] [2] .allSuccess]

/-- The shared upstream task has succeeded. -/
def succeededRung : TaskInstanceTable where
  rows := [
    { taskId := 0, state := some .success }, { taskId := 1, state := none },
    { taskId := 2, state := none }, { taskId := 3, state := some .success },
    { taskId := 4, state := some .running }]

/-- The shared upstream task was skipped. -/
def skippedRung : TaskInstanceTable where
  rows := [
    { taskId := 0, state := some .success }, { taskId := 1, state := none },
    { taskId := 2, state := none }, { taskId := 3, state := some .skipped },
    { taskId := 4, state := some .running }]

end Airflow
