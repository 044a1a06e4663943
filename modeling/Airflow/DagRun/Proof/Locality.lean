import Airflow.DagRun.Proof.Effects

/-!
# What the dependencies of an instance read

The dependencies of an instance read its own object, the objects of its upstream tasks and relevant
setups, and the mapped tasks that give map lengths (`ReadAgree`, `EvalAgree`). Where a subset of the
DAG keeps these (`KeepsView`), evaluating them over the subset is the same as over the DAG:

* `areDependenciesMet_keep`: the same outcome on sessions that agree on what is read;
* `areDependenciesMet_agree`: the case of one DAG and two sessions.
-/

namespace Airflow

namespace Dag

variable (dag : Dag) (kept : TaskId → Bool)

theorem keep_tasks : (dag.keep kept).tasks =
    (dag.tasks.filter (kept ·.taskId)).map (·.restrict kept) := rfl

theorem keep_getTask (t : TaskId) : (dag.keep kept).getTask t =
    if kept t then (dag.getTask t).map (·.restrict kept) else none := by
  simp only [getTask, keep_tasks, List.find?_map, List.find?_filter, Function.comp_def,
    Operator.restrict]
  split
  · next h =>
    congr 2
    funext x
    by_cases hx : x.taskId = t
    · simp [hx, h]
    · simp [hx]
  · next h =>
    rw [Option.map_eq_none_iff, List.find?_eq_none]
    intro x _
    simp only [decide_eq_true_eq, not_and]
    rintro hk rfl
    exact h hk

/-- The tasks of the subset that satisfy `p` are the kept ones. -/
theorem keep_tasks_filter {p q : Operator → Bool} (hp : ∀ x, p (x.restrict kept) = q x)
    (hq : ∀ x ∈ dag.tasks, q x = true → kept x.taskId = true) :
    (dag.keep kept).tasks.filter p = (dag.tasks.filter q).map (·.restrict kept) := by
  rw [keep_tasks, List.filter_map, List.filter_filter]
  congr 1
  refine List.filter_congr fun x hx => ?_
  simp only [Function.comp_apply, hp]
  cases hqx : q x with
  | false => rfl
  | true => simp [hq x hx hqx]

theorem restrict_true (task : Operator) : task.restrict (fun _ => true) = task := by
  simp [Operator.restrict]

theorem keep_true : dag.keep (fun _ => true) = dag := by
  have htasks : (dag.tasks.filter fun _ => true).map (·.restrict fun _ => true) = dag.tasks := by
    simp [restrict_true]
  obtain ⟨tasks, partialDag, catchup, h₁, h₂, h₃⟩ := dag
  simp only [keep, mk.injEq]
  exact ⟨htasks, by simp, trivial⟩

end Dag

/-! ## The view of a subset -/

/-- The mapped tasks that give the lengths of `task` and of the mapped task groups that it shares
with an upstream task. -/
def mappingReads (dag : Dag) (task : Operator) : List TaskId :=
  task.mappedReferences ++
    (dag.tasks.filter fun up =>
      up.taskId ∈ task.upstreamTaskIds ∨ up.taskId ∈ dag.getUpstreamsOnlySetups task).flatMap
    fun up => (findCommonAncestorMappedGroup task up).flatMap (·.expandInput.mappedReferences)

/-- The subset keeps the upstream tasks of `task` and its relevant setups, and its downstream
tasks where it waits for those of the previous run. -/
structure KeepsView (dag : Dag) (kept : TaskId → Bool) (task : Operator) : Prop where
  upstream : ∀ u ∈ task.upstreamTaskIds, kept u = true
  setups : ∀ t, t ∈ (dag.keep kept).getUpstreamsOnlySetups (task.restrict kept) ↔
    t ∈ dag.getUpstreamsOnlySetups task
  downstream : task.dependsOnPast = true → task.waitForDownstream = true →
    ∀ d ∈ task.downstreamTaskIds, kept d = true

/-- Two sessions agree on what the dependencies of `ti` read, but for the state of `ti`. -/
structure ReadAgree (dag : Dag) (ctx : DepContext) (ti : TIRef) (task : Operator)
    (s s' : Session) : Prop where
  self : SameObject s s' ti
  upstream : ∀ t ∈ task.upstreamTaskIds, SameFixed s s' t
  setups : ∀ t ∈ dag.getUpstreamsOnlySetups task, SameFixed s s' t
  finished : ∀ r ∈ ctx.finishedTis,
    r.taskId ∈ task.upstreamTaskIds ∨ r.taskId ∈ dag.getUpstreamsOnlySetups task →
    s.state r = s'.state r
  mapping : ∀ t ∈ mappingReads dag task, s.unfinishedTiExists t = s'.unfinishedTiExists t

/-- Two sessions agree on what the dependencies of `ti` read. -/
structure EvalAgree (dag : Dag) (ctx : DepContext) (ti : TIRef) (task : Operator)
    (s s' : Session) : Prop extends ReadAgree dag ctx ti task s s' where
  state : s.state ti = s'.state ti

theorem EvalAgree.setState {dag : Dag} {ctx : DepContext} {ti : TIRef} {task : Operator}
    {s s' : Session} (h : EvalAgree dag ctx ti task s s') (hget : (s.get ti).isSome)
    (state : TIState) :
    EvalAgree dag ctx ti task (s.setState ti state) (s'.setState ti state) := by
  have hfixed : ∀ t, SameFixed s s' t →
      SameFixed (s.setState ti state) (s'.setState ti state) t :=
    fun t ht => (SameStored.setState s ti state t).fixed.symm.trans
      (ht.trans (SameStored.setState s' ti state t).fixed)
  have hstate : ∀ r, s.state r = s'.state r →
      (s.setState ti state).state r = (s'.setState ti state).state r := by
    intro r hr
    by_cases hrt : r = ti
    · subst hrt
      have hget' : (s'.get r).isSome := by
        rw [← h.self.isSome]
        exact hget
      obtain ⟨x, hx⟩ := Option.isSome_iff_exists.mp hget
      obtain ⟨x', hx'⟩ := Option.isSome_iff_exists.mp hget'
      simp [Session.state, Session.setState, Session.get_assign_self, hx, hx']
    · simpa only [Session.state, Session.setState, Session.get_assign_of_ne _ hrt] using hr
  have hself : SameObject (s.setState ti state) (s'.setState ti state) ti :=
    ((SameStored.setState s ti state ti.taskId).fixed.get rfl).symm.trans
      (h.self.trans ((SameStored.setState s' ti state ti.taskId).fixed.get rfl))
  refine ⟨⟨hself, fun t ht => hfixed t (h.upstream t ht),
    fun t ht => hfixed t (h.setups t ht), fun r hr ht => hstate r (h.finished r hr ht),
    fun t ht => ?_⟩, hstate ti h.state⟩
  rw [← (SameStored.setState s ti state t).unfinishedTiExists,
    ← (SameStored.setState s' ti state t).unfinishedTiExists]
  exact h.mapping t ht

section
variable {dag : Dag} {kept : TaskId → Bool} (run : RunData) {ctx ctx' : DepContext} {ti : TIRef}
  {task : Operator} {s s' : Session}

/-! ## Counting the upstream instances -/

theorem isRelevantMapIndex_keep (h : ReadAgree dag ctx ti task s s') {up : TaskId}
    (hkept : kept up = true)
    (hup : up ∈ task.upstreamTaskIds ∨ up ∈ dag.getUpstreamsOnlySetups task) (i : Int) :
    isRelevantMapIndex (dag.keep kept) run s' ti (task.restrict kept) up i =
      isRelevantMapIndex dag run s ti task up i := by
  have hcount : (task.restrict kept).getMappedTiCount run s' = task.getMappedTiCount run s :=
    show task.getMappedTiCount run s' = task.getMappedTiCount run s from
      Operator.getMappedTiCount_congr fun t ht => (h.mapping t (List.mem_append_left _ ht)).symm
  have hrel : relevantUpstreamMapIndexes (dag.keep kept) run s' ti (task.restrict kept) up =
      relevantUpstreamMapIndexes dag run s ti task up := by
    unfold relevantUpstreamMapIndexes
    rw [hcount, Dag.keep_getTask, if_pos hkept]
    cases task.getMappedTiCount run s with
    | error e => rfl
    | ok tiCount =>
      cases hget : dag.getTask up with
      | none => rfl
      | some upstream =>
        simp only [Option.map_some, getRelevantUpstreamMapIndexes]
        have hidx : s'.mapIndex ti = s.mapIndex ti := h.self.mapIndex.symm
        have hgroups : groupsMappedTiCount run s' (findCommonAncestorMappedGroup task upstream) =
            groupsMappedTiCount run s (findCommonAncestorMappedGroup task upstream) := by
          refine groupsMappedTiCount_congr fun t ht => (h.mapping t ?_).symm
          refine List.mem_append_right _ (List.mem_flatMap.mpr ⟨upstream, ?_, ht⟩)
          have hid : upstream.taskId = up := by simpa using List.find?_some hget
          refine List.mem_filter.mpr ⟨List.mem_of_find?_eq_some hget, ?_⟩
          simpa [hid] using hup
        have hcommon : findCommonAncestorMappedGroup (task.restrict kept) (upstream.restrict kept) =
            findCommonAncestorMappedGroup task upstream := rfl
        rw [hcommon, hidx]
        generalize findCommonAncestorMappedGroup task upstream = common at hgroups ⊢
        cases common with
        | nil => rfl
        | cons g gs => simp only [hgroups]; rfl
  simp only [isRelevantMapIndex, hrel]
  rfl

theorem finishedUpstreams_keep (h : ReadAgree dag ctx ti task s s')
    (hctx : ctx'.finishedTis = ctx.finishedTis.filter (kept ·.taskId)) {ids : List TaskId}
    (hids : ∀ t ∈ ids, kept t = true ∧
      (t ∈ task.upstreamTaskIds ∨ t ∈ dag.getUpstreamsOnlySetups task)) :
    finishedUpstreams (dag.keep kept) run s' ti (task.restrict kept) ctx' ids =
      finishedUpstreams dag run s ti task ctx ids := by
  have hfixed : ∀ t ∈ ids, SameFixed s s' t := by
    intro t ht
    rcases (hids t ht).2 with hu | hs
    · exact h.upstream t hu
    · exact h.setups t hs
  unfold finishedUpstreams
  rw [hctx, List.filter_filter]
  have hfilter : (ctx.finishedTis.filter fun up =>
      decide (up.taskId ∈ ids ∧ isRelevantMapIndex (dag.keep kept) run s' ti (task.restrict kept)
        up.taskId (s'.mapIndex up) = true) && kept up.taskId) =
      ctx.finishedTis.filter fun up =>
        decide (up.taskId ∈ ids ∧ isRelevantMapIndex dag run s ti task up.taskId
          (s.mapIndex up) = true) := by
    refine List.filter_congr fun up _ => ?_
    by_cases hup : up.taskId ∈ ids
    · obtain ⟨hk, hread⟩ := hids _ hup
      rw [isRelevantMapIndex_keep run h hk hread, (hfixed _ hup).mapIndex rfl fun _ => rfl]
      simp [hup, hk]
    · simp [hup]
  rw [hfilter]
  refine List.map_congr_left fun up hup => ?_
  obtain ⟨hmem, hp⟩ := List.mem_filter.mp hup
  have hid : up.taskId ∈ ids := (of_decide_eq_true hp).1
  obtain ⟨hk, hread⟩ := hids _ hid
  rw [h.finished up hmem hread, Dag.keep_getTask, if_pos hk]
  cases dag.getTask up.taskId <;> rfl

theorem taskIdCount_keep (h : ReadAgree dag ctx ti task s s') {t : TaskId} (hkept : kept t = true)
    (ht : t ∈ task.upstreamTaskIds ∨ t ∈ dag.getUpstreamsOnlySetups task) :
    taskIdCount (dag.keep kept) run s' ti (task.restrict kept) t = taskIdCount dag run s ti task t := by
  have hfixed : SameFixed s s' t := by
    rcases ht with hu | hs
    · exact h.upstream t hu
    · exact h.setups t hs
  unfold taskIdCount
  simp only [isRelevantMapIndex_keep run h hkept ht]
  exact (hfixed.countP_rowsOf (fun _ => rfl) fun _ => rfl).symm

/-- Counts over tasks that the subset keeps. -/
theorem upstreamCounts_keep (h : ReadAgree dag ctx ti task s s') {tasks : List Operator}
    (htasks : ∀ t ∈ tasks, kept t.taskId = true ∧
      (t.taskId ∈ task.upstreamTaskIds ∨ t.taskId ∈ dag.getUpstreamsOnlySetups task)) :
    upstreamCount (dag.keep kept) run s' ti (task.restrict kept) (tasks.map (·.restrict kept)) =
      upstreamCount dag run s ti task tasks ∧
    upstreamSetupCount (dag.keep kept) run s' ti (task.restrict kept)
        (tasks.map (·.restrict kept)) =
      upstreamSetupCount dag run s ti task tasks := by
  have hany : (tasks.map (·.restrict kept)).any (·.needsExpansion) =
      tasks.any (·.needsExpansion) := by
    rw [List.any_map]
    rfl
  have hcount : ∀ t ∈ tasks, taskIdCount (dag.keep kept) run s' ti (task.restrict kept) t.taskId =
      taskIdCount dag run s ti task t.taskId :=
    fun t ht => taskIdCount_keep run h (htasks t ht).1 (htasks t ht).2
  constructor
  · unfold upstreamCount
    rw [hany, List.length_map, List.map_map]
    congr 2
    exact List.map_congr_left fun t ht => hcount t ht
  · unfold upstreamSetupCount
    rw [hany, List.countP_map, List.filter_map, List.map_map]
    congr 2
    exact List.map_congr_left fun t ht => hcount t (List.mem_filter.mp ht).1

/-! ## The dependencies -/

theorem upstreamList_keep (hv : KeepsView dag kept task) :
    (dag.keep kept).upstreamList (task.restrict kept) =
      (dag.upstreamList task).map (·.restrict kept) := by
  refine dag.keep_tasks_filter kept (fun x => ?_) fun x _ hx => hv.upstream _ (by simpa using hx)
  simp only [Operator.restrict, List.mem_filter]
  by_cases hx : x.taskId ∈ task.upstreamTaskIds
  · simp [hx, hv.upstream _ hx]
  · simp [hx]

theorem kept_setups (hv : KeepsView dag kept task) {t : TaskId}
    (ht : t ∈ dag.getUpstreamsOnlySetups task) : kept t = true := by
  have ht' := (hv.setups t).mpr ht
  simp only [Dag.getUpstreamsOnlySetups, List.mem_dedup, List.mem_map, List.mem_filter,
    Dag.getUpstreamsOnlySetupsAndTeardowns, List.mem_flatMap] at ht'
  obtain ⟨x, ⟨⟨y, hy, hx⟩, -⟩, rfl⟩ := ht'
  have hmem : ∀ z ∈ (dag.keep kept).tasks, kept z.taskId = true := by
    intro z hz
    rw [Dag.keep_tasks] at hz
    obtain ⟨z', hz', rfl⟩ := List.mem_map.mp hz
    exact (List.mem_filter.mp hz').2
  split at hx
  · rcases List.mem_cons.mp hx with rfl | hx
    · exact hmem _ (List.mem_filter.mp hy).1
    · exact hmem _ (List.mem_filter.mp (List.mem_filter.mp hx).1).1
  · cases hx

theorem indirectSetups_keep (hv : KeepsView dag kept task) :
    indirectSetups (dag.keep kept) (task.restrict kept) =
      (indirectSetups dag task).map (·.restrict kept) := by
  refine dag.keep_tasks_filter kept (fun x => ?_) fun x _ hx => ?_
  · have hids : (task.restrict kept).upstreamTaskIds = task.upstreamTaskIds :=
      List.filter_eq_self.mpr hv.upstream
    rw [hids]
    exact decide_eq_decide.mpr (and_congr_left' (hv.setups x.taskId))
  · exact kept_setups hv (of_decide_eq_true hx).1

theorem directRelatives_keep (hv : KeepsView dag kept task) (h : ReadAgree dag ctx ti task s s')
    (hctx : ctx'.finishedTis = ctx.finishedTis.filter (kept ·.taskId)) :
    directRelatives (dag.keep kept) run s' ti (task.restrict kept) ctx' =
      directRelatives dag run s ti task ctx := by
  have hup : ∀ t ∈ dag.upstreamList task, kept t.taskId = true ∧
      (t.taskId ∈ task.upstreamTaskIds ∨ t.taskId ∈ dag.getUpstreamsOnlySetups task) := by
    intro t ht
    have hmem : t.taskId ∈ task.upstreamTaskIds := by simpa using (List.mem_filter.mp ht).2
    exact ⟨hv.upstream _ hmem, .inl hmem⟩
  have hids : (task.restrict kept).upstreamTaskIds = task.upstreamTaskIds :=
    List.filter_eq_self.mpr hv.upstream
  obtain ⟨hcount, hsetup⟩ := upstreamCounts_keep run h hup
  unfold directRelatives
  simp only [upstreamList_keep hv, hids, hcount, hsetup, ← h.self.mapIndex,
    finishedUpstreams_keep run h hctx fun t ht => ⟨hv.upstream t ht, .inl ht⟩]
  rfl

theorem setupConstraint_keep (hv : KeepsView dag kept task) (h : ReadAgree dag ctx ti task s s')
    (hctx : ctx'.finishedTis = ctx.finishedTis.filter (kept ·.taskId)) :
    setupConstraint (dag.keep kept) run s' ti (task.restrict kept) ctx' =
      setupConstraint dag run s ti task ctx := by
  have hset : ∀ t ∈ indirectSetups dag task, kept t.taskId = true ∧
      (t.taskId ∈ task.upstreamTaskIds ∨ t.taskId ∈ dag.getUpstreamsOnlySetups task) := by
    intro t ht
    have hmem := (of_decide_eq_true (List.mem_filter.mp ht).2).1
    exact ⟨kept_setups hv hmem, .inr hmem⟩
  obtain ⟨hcount, -⟩ := upstreamCounts_keep run h hset
  have hids : ((indirectSetups dag task).map (·.restrict kept)).map Operator.taskId =
      (indirectSetups dag task).map Operator.taskId := Dag.map_taskId_restrict _ _
  unfold setupConstraint
  simp only [indirectSetups_keep hv, hids, hcount, ← h.self.mapIndex,
    finishedUpstreams_keep run h hctx fun t ht => by
      obtain ⟨x, hx, rfl⟩ := List.mem_map.mp ht
      exact hset x hx]

theorem prevDagrun_keep (hv : KeepsView dag kept task) :
    prevDagrun (dag.keep kept) run (task.restrict kept) = prevDagrun dag run task := by
  unfold prevDagrun
  by_cases hpast : task.dependsOnPast = true
  · by_cases hwait : task.waitForDownstream = true
    · have hids : (task.restrict kept).downstreamTaskIds = task.downstreamTaskIds :=
        List.filter_eq_self.mpr (hv.downstream hpast hwait)
      simp only [hids]
      rfl
    · simp [Operator.restrict, Dag.keep, hwait]
  · simp [Operator.restrict, hpast]

theorem previouslySkipped_keep (hv : KeepsView dag kept task)
    (hctx : ctx'.finishedTis = ctx.finishedTis.filter (kept ·.taskId)) :
    previouslySkipped (dag.keep kept) run (task.restrict kept) ctx' =
      previouslySkipped dag run task ctx := by
  unfold previouslySkipped
  rw [upstreamList_keep hv, List.any_map]
  rw [Bool.eq_iff_iff, List.any_eq_true, List.any_eq_true]
  refine exists_congr fun parent => and_congr_right fun hparent => ?_
  have hmem : parent.taskId ∈ task.upstreamTaskIds := by simpa using (List.mem_filter.mp hparent).2
  have hfin : parent.taskId ∈ ctx'.finishedTis.map TIRef.taskId ↔
      parent.taskId ∈ ctx.finishedTis.map TIRef.taskId := by
    rw [hctx]
    simp only [List.mem_map, List.mem_filter]
    constructor
    · rintro ⟨r, ⟨hr, -⟩, hid⟩
      exact ⟨r, hr, hid⟩
    · rintro ⟨r, hr, hid⟩
      exact ⟨r, ⟨hr, by rw [hid]; exact hv.upstream _ hmem⟩, hid⟩
  simp only [Function.comp_apply, Operator.restrict, hfin]

/-- The evaluations over the DAG and over the subset got equally far. -/
structure DepAgree (dag : Dag) (ctx : DepContext) (ti : TIRef) (task : Operator)
    (d d' : DepState) : Prop where
  session : EvalAgree dag ctx ti task d.session d'.session
  exists_ : (d.session.get ti).isSome
  changed : d.haveChangedTiStates = d'.haveChangedTiStates
  met : d.met = d'.met

variable {d d' : DepState}

theorem DepAgree.setTiState (h : DepAgree dag ctx ti task d d') (state : TIState) :
    EvalAgree dag ctx ti task (d.session.setTiState ti state).1 (d'.session.setTiState ti state).1 ∧
      ((d.session.setTiState ti state).1.get ti).isSome ∧
      (d.session.setTiState ti state).2 = (d'.session.setTiState ti state).2 := by
  unfold Session.setTiState
  rw [← h.session.state]
  split
  · exact ⟨h.session, h.exists_, rfl⟩
  · refine ⟨h.session.setState h.exists_ state, ?_, rfl⟩
    simpa [Session.setState, Session.get_assign_self] using h.exists_

theorem DepAgree.applyEvaluation (h : DepAgree dag ctx ti task d d') (e : Evaluation) :
    DepAgree dag ctx ti task (applyEvaluation ti d e).1 (applyEvaluation ti d' e).1 ∧
      (applyEvaluation ti d e).2 = (applyEvaluation ti d' e).2 := by
  unfold Airflow.applyEvaluation
  split
  · exact ⟨⟨h.session, h.exists_, h.changed, by rw [h.met]⟩, rfl⟩
  · next state _ =>
    obtain ⟨hs, hsome, hchanged⟩ := h.setTiState (some state)
    exact ⟨⟨hs, hsome, by simp only [h.changed, hchanged], by simp only [h.met]⟩, hchanged⟩

theorem DepAgree.triggerRuleDep (hv : KeepsView dag kept task)
    (hctx : ctx'.finishedTis = ctx.finishedTis.filter (kept ·.taskId))
    (h : DepAgree dag ctx ti task d d') :
    DepAgree dag ctx ti task (triggerRuleDep dag run ti task ctx d)
      (triggerRuleDep (dag.keep kept) run ti (task.restrict kept) ctx' d') := by
  have hids : (task.restrict kept).upstreamTaskIds = task.upstreamTaskIds :=
    List.filter_eq_self.mpr hv.upstream
  have hsetups : (dag.keep kept).getUpstreamsOnlySetups (task.restrict kept) = [] ↔
      dag.getUpstreamsOnlySetups task = [] := by
    simp only [List.eq_nil_iff_forall_not_mem, hv.setups]
  have hdirect := fun {d d'} (h : DepAgree dag ctx ti task d d') =>
    directRelatives_keep run hv h.session.toReadAgree hctx
  have hrule : (task.restrict kept).triggerRule = task.triggerRule := rfl
  have hteardown : (task.restrict kept).isTeardown = task.isTeardown := rfl
  unfold Airflow.triggerRuleDep evaluateTriggerRule
  simp only [hids, hrule, hteardown, hsetups]
  split
  · exact h
  · split
    · rw [hdirect h]
      exact (h.applyEvaluation _).1
    · rw [setupConstraint_keep run hv h.session.toReadAgree hctx]
      obtain ⟨hd, hchanged⟩ := h.applyEvaluation (setupConstraint dag run d.session ti task ctx)
      rw [← hchanged, hdirect hd]
      split
      · exact hd
      · exact (hd.applyEvaluation _).1

theorem DepAgree.getDepStatuses (hv : KeepsView dag kept task)
    (hctx : ctx' = { ctx with finishedTis := ctx.finishedTis.filter (kept ·.taskId) })
    (h : DepAgree dag ctx ti task d d') (dep : TIDep) :
    DepAgree dag ctx ti task (getDepStatuses dag run ti task ctx d dep)
      (getDepStatuses (dag.keep kept) run ti (task.restrict kept) ctx' d' dep) := by
  have hfin : ctx'.finishedTis = ctx.finishedTis.filter (kept ·.taskId) := by rw [hctx]
  have hget : ∀ f : TaskInstance → Bool, (∀ x, f x.fixed = f x) →
      (d.session.get ti).any f = (d'.session.get ti).any f := by
    intro f hf
    have hmap := h.session.self.map_get hf
    have hany : ∀ o : Option TaskInstance, o.any f = (o.map f).getD false := by
      intro o
      cases o <;> rfl
    rw [hany, hany, hmap]
  cases dep with
  | notInRetryPeriod =>
    refine ⟨h.session, h.exists_, h.changed, ?_⟩
    simp only [Airflow.getDepStatuses, Airflow.notInRetryPeriod, h.met, h.session.state, hctx,
      hget (·.readyForRetry) fun _ => rfl]
  | prevDagrun =>
    refine ⟨h.session, h.exists_, h.changed, ?_⟩
    simp only [Airflow.getDepStatuses, h.met, prevDagrun_keep run hv]
  | triggerRule => exact h.triggerRuleDep run hv hfin
  | notPreviouslySkipped =>
    simp only [Airflow.getDepStatuses, notPreviouslySkippedDep, previouslySkipped_keep run hv hfin]
    split
    · obtain ⟨hs, hsome, -⟩ := h.setTiState (some .skipped)
      exact ⟨hs, hsome, h.changed, rfl⟩
    · exact h
  | mappedTaskIsExpanded =>
    refine ⟨h.session, h.exists_, h.changed, ?_⟩
    simp only [Airflow.getDepStatuses, Airflow.mappedTaskIsExpanded, h.met, hctx,
      h.session.self.mapIndex]
  | readyToReschedule =>
    refine ⟨h.session, h.exists_, h.changed, ?_⟩
    simp only [Airflow.getDepStatuses, Airflow.readyToReschedule, h.met, h.session.state, hctx,
      hget (·.rescheduleInFuture) fun _ => rfl]
    rfl

/-- **Over a subset that keeps what an instance reads, its dependencies come out as over the
DAG.** -/
theorem areDependenciesMet_keep (hv : KeepsView dag kept task)
    (hctx : ctx' = { ctx with finishedTis := ctx.finishedTis.filter (kept ·.taskId) })
    (h : EvalAgree dag ctx ti task s s') (hget : (s.get ti).isSome) :
    DepAgree dag ctx ti task (areDependenciesMet dag run s ti task ctx)
      (areDependenciesMet (dag.keep kept) run s' ti (task.restrict kept) ctx') := by
  have hfold : ∀ (deps : List TIDep) (d d' : DepState), DepAgree dag ctx ti task d d' →
      DepAgree dag ctx ti task (deps.foldl (getDepStatuses dag run ti task ctx) d)
        (deps.foldl (getDepStatuses (dag.keep kept) run ti (task.restrict kept) ctx') d') := by
    intro deps
    induction deps with
    | nil => exact fun _ _ hd => hd
    | cons dep deps ih => exact fun _ _ hd => ih _ _ (hd.getDepStatuses run hv hctx dep)
  exact hfold task.deps _ _ ⟨h, hget, rfl, rfl⟩

theorem keepsView_true : KeepsView dag (fun _ => true) task := by
  refine ⟨fun _ _ => rfl, fun t => ?_, fun _ _ _ _ => rfl⟩
  rw [Dag.keep_true, Dag.restrict_true]

/-- Sessions that agree on what the dependencies of an instance read give the same outcome. -/
theorem areDependenciesMet_agree (h : EvalAgree dag ctx ti task s s') (hget : (s.get ti).isSome) :
    DepAgree dag ctx ti task (areDependenciesMet dag run s ti task ctx)
      (areDependenciesMet dag run s' ti task ctx) := by
  have hv : KeepsView dag (fun _ => true) task := keepsView_true
  have hctx : ctx = { ctx with finishedTis := ctx.finishedTis.filter fun _ => true } := by simp
  have hkeep := areDependenciesMet_keep run hv hctx h hget
  rwa [Dag.keep_true, Dag.restrict_true] at hkeep

end

end Airflow
