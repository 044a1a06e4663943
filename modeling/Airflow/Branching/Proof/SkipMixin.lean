import Airflow.Branching.SkipMixin

/-!
# When a branch's decision is remembered

The XCom of a branching instance stays the one that `xcom_pull` finds first, up to newer ones of
other instances of a mapped operator (`Recorded`). An unmapped branch is therefore read back as it
was pushed, and a mapped one as a sequence that says nothing, which is exactly when the dependency
forgets the decision (`agrees_iff`).
-/

namespace Airflow.Branching

/-! ## The XCom of the branching instance -/

section XComs

variable {α : Type} {rows : List (XComRow α)} {row other : XComRow α} {t : TaskId} {k : Int}

/-- Among the XComs of its task only newer ones of mapped instances come before `row`, which then is
one itself. -/
def Recorded (row : XComRow α) (rows : List (XComRow α)) : Prop :=
  ∃ newer older, rows.filter (·.taskId = row.taskId) = newer ++ row :: older ∧
    ∀ r ∈ newer, 0 ≤ row.mapIndex ∧ 0 ≤ r.mapIndex

theorem filter_xcomClear (id : TaskId) :
    (xcomClear t k rows).filter (·.taskId = id) = xcomClear t k (rows.filter (·.taskId = id)) := by
  simp only [xcomClear, List.filter_filter, Bool.and_comm]

theorem Recorded.set (row : XComRow α) (rows : List (XComRow α)) :
    Recorded row (xcomSet row rows) := by
  refine ⟨[], xcomClear row.taskId row.mapIndex (rows.filter (·.taskId = row.taskId)), ?_, ?_⟩
  · rw [xcomSet, List.filter_cons_of_pos (by simp), filter_xcomClear]
    rfl
  · intro r hr
    cases hr

theorem Recorded.clear (h : Recorded row rows)
    (hkey : t = row.taskId → k ≠ row.mapIndex) : Recorded row (xcomClear t k rows) := by
  obtain ⟨newer, older, hrows, hnewer⟩ := h
  refine ⟨xcomClear t k newer, xcomClear t k older, ?_, ?_⟩
  · have hkeep : ¬(row.taskId = t ∧ row.mapIndex = k) := fun ⟨ht, hk⟩ => hkey ht.symm hk.symm
    rw [filter_xcomClear, hrows, xcomClear, List.filter_append,
      List.filter_cons_of_pos (by exact decide_eq_true hkeep)]
    rfl
  · intro r hr
    exact hnewer r (List.mem_filter.mp hr).1

theorem Recorded.push (h : Recorded row rows) (hother : other.taskId = row.taskId →
      0 ≤ row.mapIndex ∧ 0 ≤ other.mapIndex ∧ other.mapIndex ≠ row.mapIndex) :
    Recorded row (xcomSet other rows) := by
  have hclear : Recorded row (xcomClear other.taskId other.mapIndex rows) :=
    h.clear fun ht => (hother ht).2.2
  obtain ⟨newer, older, hrows, hnewer⟩ := hclear
  by_cases ht : other.taskId = row.taskId
  · refine ⟨other :: newer, older, ?_, ?_⟩
    · rw [xcomSet, List.filter_cons_of_pos (by simpa using ht), hrows]
      rfl
    · intro r hr
      rcases List.mem_cons.mp hr with rfl | hr
      · exact ⟨(hother ht).1, (hother ht).2.1⟩
      · exact hnewer r hr
  · refine ⟨newer, older, ?_, hnewer⟩
    rw [xcomSet, List.filter_cons_of_neg (by simpa using ht), hrows]

/-- The XCom of an unmapped instance is pulled as it was pushed. -/
theorem Recorded.pull_unmapped (h : Recorded row rows) (hk : row.mapIndex < 0) :
    xcomPull rows row.taskId = .value row.value := by
  obtain ⟨newer, older, hrows, hnewer⟩ := h
  cases newer with
  | nil => simp only [xcomPull, hrows, List.nil_append, if_pos hk]
  | cons r newer =>
    have := (hnewer r List.mem_cons_self).1
    omega

/-- The XCom of a mapped instance is pulled in a sequence. -/
theorem Recorded.pull_mapped (h : Recorded row rows) (hk : 0 ≤ row.mapIndex) :
    ∃ values, xcomPull rows row.taskId = .lazyXComAccess values := by
  obtain ⟨newer, older, hrows, hnewer⟩ := h
  cases newer with
  | nil =>
    have hneg : ¬row.mapIndex < 0 := by omega
    exact ⟨_, by simp only [xcomPull, hrows, List.nil_append, if_neg hneg]; rfl⟩
  | cons r newer =>
    have hneg : ¬r.mapIndex < 0 := by
      have := (hnewer r List.mem_cons_self).2
      omega
    exact ⟨_, by simp only [xcomPull, hrows, List.cons_append, if_neg hneg]; rfl⟩

end XComs

theorem Recorded.replay {row : XComRow SkipMixinResult} {events : List XComEvent}
    (hevents : ∀ e ∈ events, e.taskId = row.taskId →
      0 ≤ row.mapIndex ∧ 0 ≤ e.mapIndex ∧ e.mapIndex ≠ row.mapIndex)
    {rows : List (XComRow SkipMixinResult)} (h : Recorded row rows) :
    Recorded row (events.foldl XComEvent.apply rows) := by
  induction events generalizing rows with
  | nil => exact h
  | cons e events ih =>
    have he := hevents e List.mem_cons_self
    refine ih (fun e he => hevents e (List.mem_cons_of_mem _ he)) ?_
    cases e with
    | push other => exact h.push he
    | clear id index => exact h.clear fun hid => (he hid).2.2

/-! ## States of the rows -/

section States

variable {db : Database} {tasks : List (TaskId × Int)} {s : TIState} {t : TaskId} {k : Int}

theorem getTaskInstance_setStates :
    (db.setStates tasks s).getTaskInstance t k =
      (db.getTaskInstance t k).map fun row =>
        if (t, k) ∈ tasks then { row with state := s } else row := by
  simp only [Database.getTaskInstance, Database.setStates]
  induction db.rows with
  | nil => rfl
  | cons row rows ih =>
    by_cases hkey : row.taskId = t ∧ row.mapIndex = k
    · obtain ⟨rfl, rfl⟩ := hkey
      simp only [List.map_cons, List.any_eq_true, decide_eq_true_eq, exists_eq_right]
      split <;> simp
    · rw [List.map_cons, List.find?_cons_of_neg, List.find?_cons_of_neg (by simpa using hkey), ih]
      split <;> simpa using hkey

@[simp] theorem state_setStates :
    (db.setStates tasks s).state t k =
      (db.state t k).map fun old => if (t, k) ∈ tasks then s else old := by
  simp only [Database.state, getTaskInstance_setStates, Option.map_map]
  congr 1
  funext row
  simp only [Function.comp_apply]
  split <;> rfl

theorem state_isSome : (db.state t k).isSome = (db.getTaskInstance t k).isSome := by
  simp [Database.state]

end States

/-! ## `skip_all_except` -/

section Skip

variable {dag : Dag} {branch t : Operator} {mapIndex : Int} {B : BranchTaskIds} {db db' : Database}

/-- The facts of a call that did not raise, for an operator with direct downstream tasks. -/
structure Decided (dag : Dag) (branch : Operator) (mapIndex : Int) (branchTaskIds : List TaskId)
    (db db' : Database) : Prop where
  valid : ∀ id ∈ branchTaskIds, id ∈ dag.taskIds
  rows : db'.rows =
    (db.setStates (skipTasks dag branch mapIndex branchTaskIds db) (some .skipped)).rows
  xcoms : db'.skipMixinXComs = xcomSet
    ⟨branch.taskId, mapIndex, { followed := some (followTaskIds dag branch branchTaskIds) }⟩
    db.skipMixinXComs

theorem decided (hrun : skipAllExcept dag branch mapIndex B db = .ok db')
    (ht : t ∈ dag.downstreamList branch) : Decided dag branch mapIndex B.toSet db db' := by
  simp only [skipAllExcept] at hrun
  split at hrun
  · cases hrun
  · rename_i hvalid
    split at hrun
    · rename_i hnil
      rw [hnil] at ht
      cases ht
    · cases hrun
      refine ⟨?_, rfl, rfl⟩
      intro id hid
      have hfilter := List.filter_eq_nil_iff.mp (Decidable.not_not.mp hvalid) id hid
      simpa using hfilter

/-- `skip_all_except` sets the instances in `skip_tasks` to be skipped and changes no others. -/
theorem Decided.state (h : Decided dag branch mapIndex B.toSet db db') (id : TaskId) (k : Int) :
    db'.state id k = (db.state id k).map fun old =>
      if (id, k) ∈ skipTasks dag branch mapIndex B.toSet db then some .skipped else old := by
  rw [← state_setStates]
  simp only [Database.state, Database.getTaskInstance, h.rows]

/-- The branches with all that is downstream of them. -/
theorem mem_withFlatRelatives {ids : List TaskId} (hvalid : ∀ id ∈ ids, id ∈ dag.taskIds) :
    t.taskId ∈ withFlatRelatives dag ids ↔ OnBranch dag ids t := by
  rw [withFlatRelatives, List.mem_append, List.mem_flatMap]
  constructor
  · rintro (hid | ⟨id, hid, hmem⟩)
    · exact ⟨t.taskId, hid, .refl⟩
    · obtain ⟨b, hb, rfl⟩ := List.mem_map.mp (hvalid id hid)
      rw [Dag.getTask_self hb] at hmem
      exact ⟨b.taskId, hid, ((Dag.mem_flatRelativeIds hb).mp hmem).to_reflTransGen⟩
  · rintro ⟨id, hid, hpath⟩
    obtain ⟨b, hb, rfl⟩ := List.mem_map.mp (hvalid id hid)
    rcases Relation.reflTransGen_iff_eq_or_transGen.mp hpath with heq | htrans
    · rw [heq]
      exact .inl hid
    · refine .inr ⟨b.taskId, hid, ?_⟩
      rw [Dag.getTask_self hb]
      exact (Dag.mem_flatRelativeIds hb).mpr htrans

theorem mem_skipTasks {ids : List TaskId} (hvalid : ∀ id ∈ ids, id ∈ dag.taskIds)
    (ht : t ∈ dag.downstreamList branch) (hrow : (db.getTaskInstance t.taskId mapIndex).isSome) :
    (t.taskId, mapIndex) ∈ skipTasks dag branch mapIndex ids db ↔ ¬OnBranch dag ids t := by
  rw [← mem_withFlatRelatives hvalid]
  simp only [skipTasks, List.mem_map, List.mem_filter, decide_eq_true_eq, Prod.mk.injEq]
  constructor
  · rintro ⟨x, ⟨-, -, hx⟩, hid, -⟩
    rwa [← hid]
  · intro hout
    exact ⟨t, ⟨ht, hrow, hout⟩, by simp⟩

theorem mem_followTaskIds {ids : List TaskId} (hvalid : ∀ id ∈ ids, id ∈ dag.taskIds)
    (ht : t ∈ dag.downstreamList branch) :
    t.taskId ∈ followTaskIds dag branch ids ↔ OnBranch dag ids t := by
  rw [← mem_withFlatRelatives hvalid]
  simp only [followTaskIds, List.mem_map, List.mem_filter, decide_eq_true_eq]
  constructor
  · rintro ⟨x, ⟨-, hx⟩, hid⟩
    rwa [← hid]
  · intro hon
    exact ⟨t, ⟨ht, hon⟩, rfl⟩

end Skip

/-! ## The dependency -/

section Dep

variable {loadedFrom : LoadedFrom} {waitForPastDependsBeforeSkipping : Bool} {dag : Dag}
  {branch t : Operator} {mapIndex : Int} {B : BranchTaskIds} {db db' later : Database}

/-- Nothing keeps the dependency from skipping: it need not wait for past depends, or they are
met. -/
def MaySkip (waitForPastDependsBeforeSkipping : Bool) (db : Database) (taskId : TaskId) : Prop :=
  waitForPastDependsBeforeSkipping = true →
    (xcomPull db.pastDependsMetXComs taskId).pastDependsMet = true

theorem getDepStatuses_state {id : TaskId} {upstream : List Operator}
    (hrow : (db.state id mapIndex).isSome) (hold : db.state id mapIndex ≠ some (some .skipped)) :
    (getDepStatuses loadedFrom waitForPastDependsBeforeSkipping id mapIndex db upstream).1.state id
        mapIndex = some (some .skipped) ↔
      MaySkip waitForPastDependsBeforeSkipping db id ∧
        ∃ parent ∈ upstream, parentSkips loadedFrom db id parent = true := by
  induction upstream with
  | nil => simpa [getDepStatuses] using hold
  | cons parent upstream ih =>
    rw [getDepStatuses]
    split
    · rename_i hskips
      split
      · rename_i hwait
        refine ⟨fun h => absurd h hold, fun h => absurd (h.1 hwait.1) hwait.2⟩
      · rename_i hmay
        obtain ⟨old, hstate⟩ := Option.isSome_iff_exists.mp hrow
        have hset : (db.setStates [(id, mapIndex)] (some .skipped)).state id mapIndex =
            some (some .skipped) := by simp [hstate]
        refine ⟨fun _ => ⟨?_, parent, List.mem_cons_self, hskips⟩, fun _ => hset⟩
        intro hwait
        simpa [hwait] using hmay
    · rename_i hskips
      rw [ih]
      simp only [List.mem_cons, exists_eq_or_imp, hskips, false_or, Bool.false_eq_true]

theorem clear_skipMixinXComs {id : TaskId} :
    (later.clear id mapIndex).skipMixinXComs = later.skipMixinXComs := rfl

theorem skippedAgain_clear_iff (hrow : (later.getTaskInstance t.taskId mapIndex).isSome) :
    SkippedAgain loadedFrom waitForPastDependsBeforeSkipping dag t mapIndex
        (later.clear t.taskId mapIndex) ↔
      MaySkip waitForPastDependsBeforeSkipping later t.taskId ∧
        ∃ parent ∈ dag.upstreamList t,
          parentSkips loadedFrom (later.clear t.taskId mapIndex) t.taskId parent = true := by
  obtain ⟨old, hstate⟩ := Option.isSome_iff_exists.mp (state_isSome ▸ hrow)
  have hcleared : (later.clear t.taskId mapIndex).state t.taskId mapIndex = some none := by
    simp [Database.clear, hstate]
  exact getDepStatuses_state (by simp [hcleared]) (by simp [hcleared])

/-- What the branch's own XCom says of a direct downstream task: an unmapped branch is read back, a
mapped one is not. -/
theorem parentSkips_branch (hskip : branch.isSkipMixin = true)
    (h : Decided dag branch mapIndex B.toSet db db') (hlater : Later branch mapIndex db' later)
    (ht : t ∈ dag.downstreamList branch) :
    parentSkips loadedFrom (later.clear t.taskId mapIndex) t.taskId branch = true ↔
      (loadedFrom = .dagFile ∧ mapIndex < 0 ∧
        branch.taskId ∈ (later.clear t.taskId mapIndex).finishedTaskIds) ∧
      ¬OnBranch dag B.toSet t := by
  obtain ⟨events, hevents, hxcoms⟩ := hlater
  have hrec := Recorded.set ⟨branch.taskId, mapIndex,
    { followed := some (followTaskIds dag branch B.toSet) }⟩ db.skipMixinXComs
  rw [← h.xcoms] at hrec
  have hrec := hrec.replay hevents
  rw [← hxcoms] at hrec
  simp only [parentSkips, isinstanceSkipMixin, hskip, clear_skipMixinXComs, Bool.and_eq_true,
    decide_eq_true_eq, true_and]
  by_cases hk : mapIndex < 0
  · rw [hrec.pull_unmapped hk]
    simp [XComPull.shouldSkip, SkipMixinResult.shouldSkip, mem_followTaskIds h.valid ht, hk]
  · obtain ⟨values, hpull⟩ := hrec.pull_mapped (by simpa using hk)
    simp [hpull, XComPull.shouldSkip, hk]

/-! ## When decision and memory agree -/

/-- The XCom of another direct upstream operator decides to skip the task. -/
def OtherParentSkips (loadedFrom : LoadedFrom) (dag : Dag) (branch task : Operator)
    (db : Database) : Prop :=
  ∃ parent ∈ dag.upstreamList task, parent.taskId ≠ branch.taskId ∧
    parentSkips loadedFrom db task.taskId parent = true

/-- The dependency reads a branch's decision back: its operator is a `SkipMixin` in the DAG that was
loaded, the branching instance is unmapped, and the branch has finished. -/
def ReadsBack (loadedFrom : LoadedFrom) (branch : Operator) (mapIndex : Int) (db : Database) :
    Prop :=
  loadedFrom = .dagFile ∧ mapIndex < 0 ∧ branch.taskId ∈ db.finishedTaskIds

theorem upstreamList_split (hedges : EdgesAgree dag) (hbranch : branch ∈ dag.tasks)
    (ht : t ∈ dag.downstreamList branch) {p : Operator → Prop} :
    (∃ parent ∈ dag.upstreamList t, p parent) ↔
      (∃ parent ∈ dag.upstreamList t, parent.taskId ≠ branch.taskId ∧ p parent) ∨ p branch := by
  have hmem : branch ∈ dag.upstreamList t := by
    obtain ⟨htask, hdown⟩ := List.mem_filter.mp ht
    exact List.mem_filter.mpr
      ⟨hbranch, by simpa using (hedges branch hbranch t htask).mp (by simpa using hdown)⟩
  constructor
  · rintro ⟨parent, hparent, hp⟩
    by_cases hid : parent.taskId = branch.taskId
    · have hself := Dag.getTask_self (List.mem_filter.mp hparent).1
      rw [hid, Dag.getTask_self hbranch] at hself
      cases hself
      exact .inr hp
    · exact .inl ⟨parent, hparent, hid, hp⟩
  · rintro (⟨parent, hparent, -, hp⟩ | hp)
    · exact ⟨parent, hparent, hp⟩
    · exact ⟨branch, hmem, hp⟩

/-- **A branch's decision and its memory agree on a direct downstream instance exactly when, for a
task on a branch, no other parent has it skipped, and, for a task off the branches, it may be
skipped and the decision is read back or another parent has it skipped.** -/
theorem agrees_iff (hedges : EdgesAgree dag) (hbranch : branch ∈ dag.tasks)
    (hskip : branch.isSkipMixin = true) (hrun : skipAllExcept dag branch mapIndex B db = .ok db')
    (ht : t ∈ dag.downstreamList branch) (hrow : (db.getTaskInstance t.taskId mapIndex).isSome)
    (hlater : Later branch mapIndex db' later)
    (hrow' : (later.getTaskInstance t.taskId mapIndex).isSome) :
    Agrees loadedFrom waitForPastDependsBeforeSkipping dag branch mapIndex B.toSet db t
        (later.clear t.taskId mapIndex) ↔
      (OnBranch dag B.toSet t →
        ¬(MaySkip waitForPastDependsBeforeSkipping later t.taskId ∧
          OtherParentSkips loadedFrom dag branch t (later.clear t.taskId mapIndex))) ∧
      (¬OnBranch dag B.toSet t →
        MaySkip waitForPastDependsBeforeSkipping later t.taskId ∧
          (OtherParentSkips loadedFrom dag branch t (later.clear t.taskId mapIndex) ∨
            ReadsBack loadedFrom branch mapIndex (later.clear t.taskId mapIndex))) := by
  have hdec := decided hrun ht
  have hskipped := mem_skipTasks hdec.valid ht hrow
  have hagain : SkippedAgain loadedFrom waitForPastDependsBeforeSkipping dag t mapIndex
      (later.clear t.taskId mapIndex) ↔
      MaySkip waitForPastDependsBeforeSkipping later t.taskId ∧
        (OtherParentSkips loadedFrom dag branch t (later.clear t.taskId mapIndex) ∨
          (ReadsBack loadedFrom branch mapIndex (later.clear t.taskId mapIndex) ∧
            ¬OnBranch dag B.toSet t)) := by
    rw [skippedAgain_clear_iff hrow', upstreamList_split hedges hbranch ht,
      parentSkips_branch hskip hdec hlater ht]
    rfl
  have hagrees : Agrees loadedFrom waitForPastDependsBeforeSkipping dag branch mapIndex B.toSet db t
      (later.clear t.taskId mapIndex) ↔
      (¬OnBranch dag B.toSet t ↔ SkippedAgain loadedFrom waitForPastDependsBeforeSkipping dag t
        mapIndex (later.clear t.taskId mapIndex)) := by
    rw [← hskipped]
    refine ⟨fun h => h.remembered, fun h => ⟨h, ?_⟩⟩
    intro hon
    rw [hskipped]
    exact not_not_intro hon
  rw [hagrees, hagain]
  by_cases hon : OnBranch dag B.toSet t
  · simp only [hon, not_true_eq_false, false_iff, and_false, or_false, true_implies, false_implies,
      and_true]
  · simp only [hon, not_false_eq_true, true_iff, and_true, false_implies, true_implies, true_and]

end Dep

/-! ## A branch with two direct downstream tasks -/

def branchOperator : Operator where
  taskId := 0
  downstreamTaskIds := [1, 2]
  isSkipMixin := true
  deps_mapped := baseOperatorDeps_unmapped

def leftOperator : Operator where
  taskId := 1
  upstreamTaskIds := [0]
  deps_mapped := baseOperatorDeps_unmapped

def rightOperator : Operator where
  taskId := 2
  upstreamTaskIds := [0]
  deps_mapped := baseOperatorDeps_unmapped

def branchDag : Dag where
  tasks := [branchOperator, leftOperator, rightOperator]

/-- The instances of a run with `mapIndex`, before the branch decides. -/
def branchRun (mapIndex : Int) : Database where
  rows := [
    { taskId := 0, mapIndex, state := some .running },
    { taskId := 1, mapIndex, state := none },
    { taskId := 2, mapIndex, state := none }]

/-- The run after the branch followed the left task and ended. -/
def branchRunEnded (mapIndex : Int) : Database where
  rows := [
    { taskId := 0, mapIndex, state := some .success },
    { taskId := 1, mapIndex, state := none },
    { taskId := 2, mapIndex, state := some .skipped }]
  skipMixinXComs := [⟨0, mapIndex, { followed := some [1] }⟩]

/-- What the left branch decides at `mapIndex`. -/
def branchRunDecided (mapIndex : Int) : Database :=
  { branchRunEnded mapIndex with
    rows := [
      { taskId := 0, mapIndex, state := some .running },
      { taskId := 1, mapIndex, state := none },
      { taskId := 2, mapIndex, state := some .skipped }] }

theorem unmappedBranch_agrees :
    Agrees .dagFile false branchDag branchOperator (-1) [1] (branchRun (-1)) rightOperator
      ((branchRunEnded (-1)).clear 2 (-1)) := by
  have hrun : skipAllExcept branchDag branchOperator (-1) (.taskId 1) (branchRun (-1)) =
      .ok (branchRunDecided (-1)) := by rfl
  have hlater : Later branchOperator (-1) (branchRunDecided (-1)) (branchRunEnded (-1)) :=
    ⟨[], fun e he => absurd he List.not_mem_nil, rfl⟩
  have hedges : EdgesAgree branchDag := by
    simp only [EdgesAgree]
    decide
  have hoff : ¬OnBranch branchDag [1] rightOperator := by
    rw [← mem_withFlatRelatives (by decide)]
    decide
  have hbranch : branchOperator ∈ branchDag.tasks := List.mem_cons_self
  have hright : rightOperator ∈ branchDag.downstreamList branchOperator :=
    List.mem_filter.mpr ⟨by simp [branchDag], by decide⟩
  refine (agrees_iff hedges hbranch rfl hrun hright (by decide) hlater (by decide)).mpr
    ⟨fun hon => absurd hon hoff, fun _ => ⟨fun h => absurd h (by decide), .inr ?_⟩⟩
  exact ⟨rfl, by decide, by decide⟩

/-- **The right task of a branch in a mapped task group is skipped, and not again once it is
cleared.** -/
theorem mappedBranch_forgets :
    skipAllExcept branchDag branchOperator 0 (.taskId 1) (branchRun 0) =
        .ok (branchRunDecided 0) ∧
      (2, 0) ∈ skipTasks branchDag branchOperator 0 [1] (branchRun 0) ∧
      (notPreviouslySkippedDep .dagFile false branchDag rightOperator 0
        ((branchRunEnded 0).clear 2 0)).1.state 2 0 = some none ∧
      ¬Agrees .dagFile false branchDag branchOperator 0 [1] (branchRun 0) rightOperator
        ((branchRunEnded 0).clear 2 0) := by
  have hskipped : (2, 0) ∈ skipTasks branchDag branchOperator 0 [1] (branchRun 0) := by decide
  have hstate : (notPreviouslySkippedDep .dagFile false branchDag rightOperator 0
      ((branchRunEnded 0).clear 2 0)).1.state 2 0 = some none := by rfl
  refine ⟨by rfl, hskipped, hstate, ?_⟩
  intro h
  have hagain := h.remembered.mp hskipped
  rw [SkippedAgain] at hagain
  cases hstate.symm.trans hagain

end Airflow.Branching
