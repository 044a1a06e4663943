import Airflow.Lib.Traced
import Airflow.DagRun.Proof.MappedRows

/-!
# A decision round and a task of known length

* `roundAfter_count`: a length that is known when the round begins stays as it is: the mapped tasks
  that the task maps over have finished, and no instance of them is visited;
* `IsVisit`, `Expands`, `Revises`: the visits of the round's ready pass, those that expand a task
  and those that revise it;
* `row_since`, `new_since`: what the visits make of a row, and which rows they add;
* `IsVisit.last`, `fresh_last`: an instance with a map index is not visited again.
-/

namespace Airflow

/-! ## Lengths that are known -/

section
variable {run : RunData} {s : Session}

theorem mulCounts_eq_ok {counts : List (Except MapError Nat)} {n : Nat}
    (h : mulCounts counts = .ok n) : ∀ c ∈ counts, ∃ m, c = .ok m := by
  induction counts generalizing n with
  | nil => exact fun c hc => (List.not_mem_nil hc).elim
  | cons c counts ih =>
    cases c with
    | error e => cases h
    | ok m =>
      obtain ⟨k, hk, -⟩ := Traced.map_eq_ok.mp h
      rintro c' hc'
      rcases List.mem_cons.mp hc' with rfl | hc'
      · exact ⟨m, rfl⟩
      · exact ih hk c' hc'

theorem mulCounts_error_mem {counts : List (Except MapError Nat)} {e : MapError}
    (h : mulCounts counts = .error e) : .error e ∈ counts := by
  induction counts with
  | nil => cases h
  | cons c counts ih =>
    cases c with
    | error e' =>
      cases h
      exact List.mem_cons_self
    | ok m =>
      refine List.mem_cons_of_mem _ (ih ?_)
      simp only [mulCounts] at h
      cases hrest : mulCounts counts with
      | error e' =>
        rw [hrest] at h
        cases h
        rfl
      | ok k =>
        rw [hrest] at h
        cases h

theorem ofLength_eq_ok {o : Option Nat} {n : Nat} (h : ofLength o = .ok n) : o = some n := by
  cases o <;> cases h
  rfl

mutual

theorem XComArg.references_finished : (arg : XComArg) → {n : Nat} →
    arg.getTaskMapLength run s = some n → ∀ t ∈ arg.mappedReferences, s.unfinishedTiExists t = false
  | .plain operator isMapped, n, h, t, ht => by
    cases isMapped with
    | false => cases ht
    | true =>
      rw [XComArg.mappedReferences, if_pos rfl, List.mem_singleton] at ht
      subst ht
      simp only [XComArg.getTaskMapLength, if_true] at h
      split at h
      · cases h
      · next hfin => simpa using hfin
  | .map arg, n, h, t, ht => by
    rw [XComArg.getTaskMapLength] at h
    rw [XComArg.mappedReferences] at ht
    exact XComArg.references_finished arg h t ht
  | .zip args fillvalue, n, h, t, ht => by
    rw [XComArg.getTaskMapLength, Option.bind_eq_some_iff] at h
    obtain ⟨lengths, hlengths, -⟩ := h
    rw [XComArg.mappedReferences] at ht
    exact XComArg.allReferences_finished args hlengths t ht

theorem XComArg.allReferences_finished : (args : List XComArg) → {lengths : List Nat} →
    XComArg.getTaskMapLengths run s args = some lengths →
    ∀ t ∈ XComArg.allMappedReferences args, s.unfinishedTiExists t = false
  | [], _, _, t, ht => by cases ht
  | arg :: args, lengths, h, t, ht => by
    rw [XComArg.getTaskMapLengths] at h
    rw [XComArg.allMappedReferences, List.mem_append] at ht
    split at h
    · next length lengths' hlength hlengths =>
      rcases ht with ht | ht
      · exact XComArg.references_finished arg hlength t ht
      · exact XComArg.allReferences_finished args hlengths t ht
    · cases h

end

theorem ExpandArgument.references_finished {v : ExpandArgument} {n : Nat}
    (h : v.getLength run s = some n) :
    ∀ t ∈ v.mappedReferences, s.unfinishedTiExists t = false := by
  cases v with
  | literal length => exact fun t ht => (List.not_mem_nil ht).elim
  | xcomArg arg => exact XComArg.references_finished arg h

theorem ExpandInput.references_finished {e : ExpandInput} {n : Nat}
    (h : e.getTotalMapLength run s = .ok n) :
    ∀ t ∈ e.mappedReferences, s.unfinishedTiExists t = false := by
  match e with
  | .dictOfLists [] => exact fun t ht => (List.not_mem_nil ht).elim
  | .dictOfLists (v :: vs) =>
    intro t ht
    obtain ⟨w, hw, htw⟩ := List.mem_flatMap.mp ht
    obtain ⟨m, hm⟩ := mulCounts_eq_ok h _ (List.mem_map_of_mem hw)
    exact ExpandArgument.references_finished (ofLength_eq_ok hm) t htw
  | .listOfDicts v => exact ExpandArgument.references_finished (ofLength_eq_ok h)

theorem groups_references_finished {groups : List MappedTaskGroup} {n : Nat}
    (h : groupsMappedTiCount run s groups = .ok n) :
    ∀ t ∈ groups.flatMap (·.expandInput.mappedReferences), s.unfinishedTiExists t = false := by
  unfold groupsMappedTiCount at h
  split at h
  · cases h
  · intro t ht
    obtain ⟨g, hg, htg⟩ := List.mem_flatMap.mp ht
    obtain ⟨m, hm⟩ := mulCounts_eq_ok h _ (List.mem_map_of_mem hg)
    exact ExpandInput.references_finished hm t htg

theorem ExpandInput.getTotalMapLength_ne (e : ExpandInput) :
    e.getTotalMapLength run s ≠ .error .notMapped := by
  intro h
  match e with
  | .dictOfLists [] => cases h
  | .dictOfLists (v :: vs) =>
    obtain ⟨w, -, hw⟩ := List.mem_map.mp (mulCounts_error_mem h)
    cases hlength : w.getLength run s <;> rw [hlength] at hw <;> cases hw
  | .listOfDicts v =>
    simp only [getTotalMapLength] at h
    cases hlength : v.getLength run s <;> rw [hlength] at h <;> cases h

/-- Only a task outside every mapped task group has no parent count. -/
theorem groups_of_notMapped {groups : List MappedTaskGroup}
    (h : groupsMappedTiCount run s groups = .error .notMapped) : groups = [] := by
  unfold groupsMappedTiCount at h
  split at h
  · next hnil => exact List.isEmpty_iff.mp hnil
  · obtain ⟨g, -, hg⟩ := List.mem_map.mp (mulCounts_error_mem h)
    exact absurd hg g.expandInput.getTotalMapLength_ne

/-- **Where the length of a task is known, the mapped tasks it maps over have finished.** -/
theorem Operator.references_finished {task : Operator} {n : Nat}
    (h : task.getMappedTiCount run s = .ok n) :
    ∀ t ∈ task.mappedReferences, s.unfinishedTiExists t = false := by
  intro t ht
  unfold getMappedTiCount at h
  rw [mappedReferences, List.mem_append] at ht
  cases hexp : task.expandInput with
  | none =>
    simp only [hexp] at h ht
    rcases ht with ht | ht
    · cases ht
    · exact groups_references_finished h t ht
  | some e =>
    simp only [hexp] at h ht
    split at h
    · cases h
    · next count hcount =>
      rcases ht with ht | ht
      · exact ExpandInput.references_finished hcount t ht
      · split at h
        · next parent hparent => exact groups_references_finished hparent t ht
        · next hparent =>
          rw [groups_of_notMapped hparent] at ht
          cases ht
        · cases h

end

/-! ## Lengths that stay -/

section
variable {dag : Dag} {run : RunData} {table : TaskInstanceTable} {task : Operator} {n : Nat}

/-- The session when the round's pass has visited `v`. -/
abbrev roundAfter (dag : Dag) (run : RunData) (table : TaskInstanceTable) (v : List TIRef) :
    ReadyPass :=
  passAfter dag run (filterTis dag table) (finishedTis dag table) v

/-- The instances that the round's pass visits. -/
abbrev roundVisits (dag : Dag) (run : RunData) (table : TaskInstanceTable) : List TIRef :=
  visitedTis dag run (filterTis dag table) (schedulableTis dag table) (finishedTis dag table)

theorem roundVisits_task {r : TIRef} (hr : r ∈ roundVisits dag run table) :
    ∃ r' ∈ schedulableTis dag table, r'.taskId = r.taskId := by
  rcases List.mem_append.mp hr with hr | hr
  · exact ⟨r, hr, rfl⟩
  · exact ((passAfter_frame run (filterTis_clean dag table)
      (visited_schedulableTis dag table)).additional r hr).2.2

/-- The objects of a task that no visit is about stay as they are. -/
theorem roundAfter_other {v : List TIRef} {t : TaskId} (h : ∀ r ∈ v, r.taskId ≠ t) :
    (roundAfter dag run table v).session.tis t = (filterTis dag table).tis t := by
  induction v using List.reverseRecOn with
  | nil => rfl
  | append_singleton v r ih =>
    have heq := ih fun r' hr' => h r' (List.mem_append_left _ hr')
    have hframe : VisitFrame (roundAfter dag run table v)
        (roundAfter dag run table (v ++ [r])) r := by
      rw [roundAfter, roundAfter, passAfter_append]
      exact ReadyPass.visit_frame
    rw [← heq]
    refine (hframe.other t (Ne.symm (h r (by simp)))).tis_eq ?_
    rw [heq]
    exact filterTis_clean dag table t

/-- A task that has an instance to visit is unfinished. -/
theorem unfinishedTiExists_of_schedulable {r : TIRef} (hr : r ∈ schedulableTis dag table) :
    (filterTis dag table).unfinishedTiExists r.taskId = true := by
  obtain ⟨hmem, hsched⟩ := List.mem_filter.mp hr
  obtain ⟨htask, hget⟩ := mem_dagTis.mp (mem_unfinishedTis.mp hmem).1
  obtain ⟨ti, hti⟩ := Option.ne_none_iff_exists'.mp hget
  obtain ⟨row, -, -, rfl⟩ := load_get hti
  rw [← filterTis_get dag htask] at hti
  rw [Session.state_eq hti] at hsched
  refine List.any_eq_true.mpr ⟨row.load, ?_, State.isUnfinished_of_isScheduleable hsched⟩
  exact List.mem_filter.mpr ⟨List.mem_of_getElem? hti, rfl⟩

/-- **A length that is known when the round begins stays as it is.** -/
theorem roundAfter_count (hcount : task.getMappedTiCount run (filterTis dag table) = .ok n)
    {v : List TIRef} (hv : ∀ r ∈ v, ∃ r' ∈ schedulableTis dag table, r'.taskId = r.taskId) :
    task.getMappedTiCount run (roundAfter dag run table v).session = .ok n := by
  rw [← hcount]
  refine Operator.getMappedTiCount_congr fun t ht => ?_
  have hfin := Operator.references_finished hcount t ht
  have hout : (roundAfter dag run table v).session.tis t = (filterTis dag table).tis t := by
    refine roundAfter_other fun r hr hid => ?_
    obtain ⟨r', hr', heq⟩ := hv r hr
    rw [← hid, ← heq, unfinishedTiExists_of_schedulable hr'] at hfin
    cases hfin
  simp only [Session.unfinishedTiExists, Session.rowsOf, hout]

end

/-! ## Visits -/

section
variable (dag : Dag) (run : RunData) (table : TaskInstanceTable) (v : List TIRef) (r : TIRef)

/-- The ready pass of the round visits `r` when it has visited `v`. -/
def IsVisit : Prop := v ++ [r] <+: roundVisits dag run table

/-- What the dependencies of `r` give when it is visited. -/
def visitEvaluation : DepState :=
  evaluate dag run (readyContext (finishedTis dag table)) (roundAfter dag run table v).session r

/-- The visit expands the task: the dependencies of its unexpanded instance are met. -/
structure Expands : Prop where
  visit : IsVisit dag run table v r
  met : (visitEvaluation dag run table v r).met = true
  unmapped : (roundAfter dag run table v).session.mapIndex r < 0

/-- The visit revises the map indexes of the task: its instance is the first one that is ready. -/
structure Revises : Prop where
  visit : IsVisit dag run table v r
  met : (visitEvaluation dag run table v r).met = true
  mapped : 0 ≤ (roundAfter dag run table v).session.mapIndex r
  schedulable : State.isScheduleable ((visitEvaluation dag run table v r).session.state r) = true
  first : r.taskId ∉ (roundAfter dag run table v).revisedMapIndexTaskIds

end

section
variable {dag : Dag} {run : RunData} {table : TaskInstanceTable} {v w : List TIRef} {r : TIRef}
  {t : TaskId}

theorem roundAfter_append (v : List TIRef) (r : TIRef) :
    roundAfter dag run table (v ++ [r]) =
      (roundAfter dag run table v).visit dag run (readyContext (finishedTis dag table)) r :=
  passAfter_append ..

theorem IsVisit.prefix_left (h : IsVisit dag run table v r) : v <+: roundVisits dag run table :=
  (List.prefix_append v [r]).trans h

theorem IsVisit.mem (h : IsVisit dag run table v r) : r ∈ roundVisits dag run table :=
  h.subset (by simp)

/-- **What every visit keeps holds all along the pass.** -/
theorem roundAfter_induction {M : List TIRef → Prop} (hinit : M [])
    (hstep : ∀ v r, IsVisit dag run table v r → M v → M (v ++ [r]))
    (hv : v <+: roundVisits dag run table) : M v := by
  induction v using List.reverseRecOn with
  | nil => exact hinit
  | append_singleton v r ih => exact hstep v r hv (ih ((List.prefix_append v [r]).trans hv))

variable (dag run table) in
theorem IsVisit.written (v : List TIRef) (r : TIRef) :
    Session.Written r (roundAfter dag run table v).session
      (visitEvaluation dag run table v r).session :=
  evaluate_written run dag _ _ r

variable (dag run table) in
theorem IsVisit.frame (v : List TIRef) (r : TIRef) :
    VisitFrame (roundAfter dag run table v) (roundAfter dag run table (v ++ [r])) r := by
  rw [roundAfter_append]
  exact ReadyPass.visit_frame

theorem IsVisit.other (v : List TIRef) (hne : r.taskId ≠ t) :
    (roundAfter dag run table (v ++ [r])).session.view t =
      (roundAfter dag run table v).session.view t :=
  ((IsVisit.frame dag run table v r).other t (Ne.symm hne)).view

/-- Every instance visited is a new one or was schedulable when the round began. -/
theorem roundVisits_visitable (hr : r ∈ roundVisits dag run table) :
    Visitable (filterTis dag table) r := by
  rcases List.mem_append.mp hr with hr | hr
  · exact visitable_schedulableTis hr
  · exact (passAfter_inv (List.prefix_append _ _) (fun _ hr => visitable_schedulableTis hr)
      (rowInv_filterTis dag _)).additional r hr

theorem roundAfter_inv (hv : v <+: roundVisits dag run table) :
    PassInv (filterTis dag table)
      (RemovableInPass dag run (filterTis dag table) (schedulableTis dag table)
        (finishedTis dag table)) (roundAfter dag run table v) :=
  passAfter_inv hv (fun _ hr => roundVisits_visitable (hv.subset hr)) (rowInv_filterTis dag _)

/-- The decision round ends as its pass. -/
theorem decisions_round (dag : Dag) (run : RunData) (table : TaskInstanceTable) :
    (taskInstanceSchedulingDecisions dag run table).session =
        (roundAfter dag run table (roundVisits dag run table)).session ∧
      (taskInstanceSchedulingDecisions dag run table).schedulableTis =
        (roundAfter dag run table (roundVisits dag run table)).readyTis := by
  by_cases hnil : unfinishedTis dag table = []
  · have hvisits : roundVisits dag run table = [] := by
      have hl : schedulableTis dag table = [] := by rw [schedulableTis, hnil, List.filter_nil]
      rw [roundVisits, visitedTis, hl]
      rfl
    rw [hvisits]
    unfold taskInstanceSchedulingDecisions
    dsimp only
    rw [if_pos hnil]
    exact ⟨rfl, rfl⟩
  · obtain ⟨hsession, hready⟩ := decisions_callReadyPass run hnil
    rw [hsession, hready, callReadyPass, readyPass_eq]
    exact ⟨rfl, rfl⟩

end

/-! ## What becomes of a row -/

/-- What the visits of a pass may make of a row of a task of length `n`. -/
structure RowSince (n : Nat) (a b : TaskInstance) : Prop where
  locked : b.locked = a.locked
  kept : 0 ≤ a.mapIndex → b.mapIndex = a.mapIndex ∧ b.deleted = a.deleted
  unmapped : a.mapIndex < 0 → b.mapIndex < 0 ∨ b.mapIndex = 0 ∧ b.deleted = false ∧ 0 < n
  undeleted : b.deleted = false → a.deleted = false
  state : b.state = a.state ∨ isDependencyState b.state = true

theorem RowSince.refl (n : Nat) (a : TaskInstance) : RowSince n a a :=
  ⟨rfl, fun _ => ⟨rfl, rfl⟩, fun h => .inl h, id, .inl rfl⟩

theorem RowSince.trans {n : Nat} {a b c : TaskInstance} (h : RowSince n a b)
    (h' : RowSince n b c) : RowSince n a c := by
  refine ⟨h'.locked.trans h.locked, fun ha => ?_, fun ha => ?_, fun hc => h.undeleted
    (h'.undeleted hc), ?_⟩
  · obtain ⟨hidx, hdel⟩ := h.kept ha
    obtain ⟨hidx', hdel'⟩ := h'.kept (by omega)
    exact ⟨hidx'.trans hidx, hdel'.trans hdel⟩
  · rcases h.unmapped ha with hb | ⟨hb, hlive, hn⟩
    · exact h'.unmapped hb
    · obtain ⟨hidx', hdel'⟩ := h'.kept (by omega)
      exact .inr ⟨hidx'.trans hb, hdel'.trans hlive, hn⟩
  · rcases h'.state with heq | hdep
    · rw [heq]
      exact h.state
    · exact .inr hdep

section
variable {dag : Dag} {run : RunData} {table : TaskInstanceTable} {v w : List TIRef} {r : TIRef}
  {task : Operator} {n j : Nat} {a b : TaskInstance}

/-- A visit to an instance of a task of known length. -/
theorem IsVisit.mapped (h : IsVisit dag run table v r) (htask : dag.getTask r.taskId = some task)
    (hcount : task.getMappedTiCount run (filterTis dag table) = .ok n) :
    MappedVisit n (roundAfter dag run table v) (visitEvaluation dag run table v r) r
      (roundAfter dag run table (v ++ [r])) := by
  rw [roundAfter_append]
  exact visit_mapped htask (roundAfter_count hcount fun r' hr' =>
    roundVisits_task (h.prefix_left.subset hr'))

theorem visitEvaluation_state (ha : ((roundAfter dag run table v).session.view r.taskId)[r.pos]? =
      some a) :
    (visitEvaluation dag run table v r).session.state r = a.state ∨
      isDependencyState ((visitEvaluation dag run table v r).session.state r) = true := by
  have hstate : (roundAfter dag run table v).session.state r = a.state := by
    rw [state_view, ha]
    rfl
  rcases IsVisit.written dag run table v r with h | ⟨e, he, h⟩
  · rw [h]
    exact .inl hstate
  · refine .inr ?_
    rw [view_getElem?] at ha
    obtain ⟨ti, hti, -⟩ := Option.map_eq_some_iff.mp ha
    rw [h, Session.state, Session.setState, Session.get_assign_self, hti]
    exact he

/-- A visit to `r` and a row of its task. -/
theorem IsVisit.row_of (h : IsVisit dag run table v r) (htask : dag.getTask r.taskId = some task)
    (hcount : task.getMappedTiCount run (filterTis dag table) = .ok n)
    (ha : ((roundAfter dag run table v).session.view r.taskId)[j]? = some a) :
    ∃ b, ((roundAfter dag run table (v ++ [r])).session.view r.taskId)[j]? = some b ∧
      RowVisit n r ((visitEvaluation dag run table v r).session.state r) j a b ∧
      RowSince n a b := by
  obtain ⟨b, hb, hrow⟩ := (h.mapped htask hcount).row (IsVisit.written dag run table v r) ha
  refine ⟨b, hb, hrow, hrow.locked, hrow.kept, hrow.unmapped, hrow.undeleted, ?_⟩
  rcases hrow.state with hs | ⟨hs, -⟩ | ⟨hs, -⟩
  · split at hs
    · next hj =>
      subst hj
      rw [hs]
      exact visitEvaluation_state ha
    · exact .inl hs
  · exact .inr (by rw [hs]; rfl)
  · exact .inr (by rw [hs]; rfl)

/-- **What the visits after `v` make of a row.** -/
theorem row_since (htask : dag.getTask task.taskId = some task)
    (hcount : task.getMappedTiCount run (filterTis dag table) = .ok n)
    (hv : v ++ w <+: roundVisits dag run table)
    (ha : ((roundAfter dag run table v).session.view task.taskId)[j]? = some a) :
    ∃ b, ((roundAfter dag run table (v ++ w)).session.view task.taskId)[j]? = some b ∧
      RowSince n a b := by
  induction w using List.reverseRecOn with
  | nil => exact ⟨a, by rwa [List.append_nil], .refl n a⟩
  | append_singleton w r ih =>
    rw [← List.append_assoc] at hv ⊢
    obtain ⟨b, hb, hab⟩ := ih ((List.prefix_append _ [r]).trans hv)
    by_cases hid : r.taskId = task.taskId
    · rw [← hid] at hb htask ⊢
      obtain ⟨c, hc, -, hbc⟩ := IsVisit.row_of hv htask hcount hb
      exact ⟨c, hc, hab.trans hbc⟩
    · rw [IsVisit.other _ hid]
      exact ⟨b, hb, hab⟩

/-- **The rows that are added after `v` are in the mapping.** -/
theorem new_since (htask : dag.getTask task.taskId = some task)
    (hcount : task.getMappedTiCount run (filterTis dag table) = .ok n)
    (hv : v ++ w <+: roundVisits dag run table)
    (hnone : ((roundAfter dag run table v).session.view task.taskId)[j]? = none)
    (hb : ((roundAfter dag run table (v ++ w)).session.view task.taskId)[j]? = some b) :
    b.deleted = false ∧ inRange b.mapIndex n := by
  induction w using List.reverseRecOn generalizing b with
  | nil =>
    rw [List.append_nil, hnone] at hb
    cases hb
  | append_singleton w r ih =>
    rw [← List.append_assoc] at hv hb
    have hvw := (List.prefix_append _ [r]).trans hv
    cases ha : ((roundAfter dag run table (v ++ w)).session.view task.taskId)[j]? with
    | some a =>
      obtain ⟨hlive, hin⟩ := ih hvw ha
      have hge : 0 ≤ a.mapIndex := (of_decide_eq_true hin).1
      obtain ⟨c, hc, hac⟩ := row_since (w := [r]) htask hcount hv ha
      rw [hb] at hc
      cases hc
      obtain ⟨hidx, hdel⟩ := hac.kept hge
      rw [hidx, hdel]
      exact ⟨hlive, hin⟩
    | none =>
      by_cases hid : r.taskId = task.taskId
      · rw [← hid] at hb ha htask
        obtain ⟨state, i, rfl, hi⟩ := (IsVisit.mapped hv htask hcount).new_row ha hb
        exact ⟨rfl, hi⟩
      · rw [IsVisit.other _ hid, ha] at hb
        cases hb

end

/-! ## The rows that the pass begins with -/

section
variable {dag : Dag} {run : RunData} {table : TaskInstanceTable} {v w : List TIRef} {r x : TIRef}
  {task : Operator} {n j : Nat} {a b : TaskInstance} {t : TaskId}

theorem begin_live (ht : t ∈ dag.taskIds) (ha : ((filterTis dag table).view t)[j]? = some a) :
    a.deleted = false := by
  rw [view_getElem? _ ⟨t, j⟩] at ha
  obtain ⟨ti, hti, rfl⟩ := Option.map_eq_some_iff.mp ha
  rw [filterTis_get dag ht] at hti
  obtain ⟨row, -, -, rfl⟩ := load_get hti
  rfl

theorem begin_distinct (ht : t ∈ dag.taskIds) : DistinctIndexes ((filterTis dag table).view t) := by
  refine List.pairwise_iff_getElem.mpr fun j k hj hk hlt _ _ hidx => ?_
  have hget : ∀ i (hi : i < ((filterTis dag table).view t).length), ∃ ti,
      (Session.load table).get ⟨t, i⟩ = some ti ∧
        ti.mapIndex = (((filterTis dag table).view t)[i]).mapIndex := by
    intro i hi
    have ha := List.getElem?_eq_getElem hi
    rw [view_getElem? _ ⟨t, i⟩] at ha
    obtain ⟨ti, hti, heq⟩ := Option.map_eq_some_iff.mp ha
    rw [filterTis_get dag ht] at hti
    exact ⟨ti, hti, by rw [← heq]; rfl⟩
  obtain ⟨ti, hti, hj'⟩ := hget j hj
  obtain ⟨ti', hti', hk'⟩ := hget k hk
  have heq := load_mapIndex_inj hti hti' rfl (by rw [hj', hk', hidx])
  have := congrArg TIRef.pos heq
  dsimp only at this
  omega

theorem roundAfter_nil : (roundAfter dag run table []).session = filterTis dag table := rfl

/-- **The rows keep their key all along the pass.** -/
theorem roundAfter_distinct (htask : dag.getTask task.taskId = some task)
    (hcount : task.getMappedTiCount run (filterTis dag table) = .ok n)
    (hv : v <+: roundVisits dag run table) :
    DistinctIndexes ((roundAfter dag run table v).session.view task.taskId) := by
  refine roundAfter_induction
    (M := fun v => DistinctIndexes ((roundAfter dag run table v).session.view task.taskId))
    (begin_distinct (Dag.getTask_mem htask)) (fun v r h hkey => ?_) hv
  by_cases hid : r.taskId = task.taskId
  · rw [← hid] at hkey htask ⊢
    exact (h.mapped htask hcount).distinct (IsVisit.written dag run table v r) hkey
  · rwa [IsVisit.other v hid]

/-- A row with a map index is in the table. -/
theorem roundAfter_live (htask : dag.getTask task.taskId = some task)
    (hcount : task.getMappedTiCount run (filterTis dag table) = .ok n)
    (hv : v <+: roundVisits dag run table)
    (ha : ((roundAfter dag run table v).session.view task.taskId)[j]? = some a)
    (hge : 0 ≤ a.mapIndex) : a.deleted = false := by
  cases h₀ : ((filterTis dag table).view task.taskId)[j]? with
  | none => exact (new_since (v := []) htask hcount hv h₀ ha).1
  | some a₀ =>
    obtain ⟨b, hb, hsince⟩ := row_since (v := []) htask hcount hv h₀
    rw [List.nil_append, ha] at hb
    cases hb
    have hlive := begin_live (Dag.getTask_mem htask) h₀
    rcases Int.lt_or_le a₀.mapIndex 0 with hneg | hge₀
    · rcases hsince.unmapped hneg with hneg' | ⟨-, hlive', -⟩
      · omega
      · exact hlive'
    · rw [(hsince.kept hge₀).2, hlive]

/-! ## No instance with a map index is visited again -/

theorem indexed_iff {s : Session} :
    Indexed s r ↔ ∃ a, (s.view r.taskId)[r.pos]? = some a ∧ 0 ≤ a.mapIndex := by
  rw [view_getElem?, Indexed]
  constructor
  · rintro ⟨ti, hti, hge⟩
    exact ⟨ti.flushed, by rw [hti]; rfl, hge⟩
  · rintro ⟨a, ha, hge⟩
    obtain ⟨ti, hti, rfl⟩ := Option.map_eq_some_iff.mp ha
    exact ⟨ti, hti, hge⟩

theorem roundAfter_indexed (hidx : Indexed (roundAfter dag run table v).session r) (w : List TIRef) :
    Indexed (roundAfter dag run table (v ++ w)).session r := by
  induction w using List.reverseRecOn with
  | nil => rwa [List.append_nil]
  | append_singleton w x ih =>
    rw [← List.append_assoc]
    exact (IsVisit.frame dag run table _ x).indexed r ih

/-- The instances that a visit adds: the one visited, if it had no map index, and new ones. -/
theorem IsVisit.additional (h : IsVisit dag run table v r)
    (htask : dag.getTask task.taskId = some task)
    (hcount : task.getMappedTiCount run (filterTis dag table) = .ok n) :
    ∃ new, (roundAfter dag run table (v ++ [r])).additionalTis =
        (roundAfter dag run table v).additionalTis ++ new ∧
      (new.filter (·.taskId = task.taskId)).Nodup ∧
      ∀ x ∈ new, x.taskId = task.taskId →
        (x = r ∨ (roundAfter dag run table v).session.get x = none) ∧
        ¬Indexed (roundAfter dag run table v).session x := by
  by_cases hid : r.taskId = task.taskId
  · rw [← hid] at htask ⊢
    have hmapped := h.mapped htask hcount
    have hnone : ∀ new : List TIRef, new = [] → (new.filter (·.taskId = r.taskId)).Nodup ∧
        ∀ x ∈ new, x.taskId = r.taskId →
          (x = r ∨ (roundAfter dag run table v).session.get x = none) ∧
          ¬Indexed (roundAfter dag run table v).session x := by
      rintro _ rfl
      exact ⟨List.nodup_nil, fun x hx => (List.not_mem_nil hx).elim⟩
    cases hmapped with
    | quiet h view ready additional revised =>
      exact ⟨[], by rw [additional, List.append_nil], hnone [] rfl⟩
    | append hmet hidx hsched hold view ready additional revised =>
      exact ⟨[], by rw [additional, List.append_nil], hnone [] rfl⟩
    | revise hmet hidx hsched hnew view ready additional revised =>
      exact ⟨[], by rw [additional, List.append_nil], hnone [] rfl⟩
    | expand hmet hneg state unmapped k view hunmapped hnodup ready additional revised =>
      have hw := IsVisit.written dag run table v r
      have hself : ∀ x ∈ unmapped, x = r := by
        intro x hx
        refine ((roundAfter_inv h.prefix_left).rows.written (roundVisits_visitable h.mem)
          hw).findTi_unmapped ?_ (by simp +contextual) (hunmapped x hx).symm
        exact hw.mapIndex.trans_lt hneg
      have hget : ∀ x ∈ newRefs r.taskId
          ((roundAfter dag run table v).session.view r.taskId).length k,
          (roundAfter dag run table v).session.get x = none := by
        intro x hx
        obtain ⟨i, -, rfl⟩ := List.mem_map.mp hx
        rw [length_view, Session.get, List.getElem?_eq_none_iff]
        dsimp only
        omega
      refine ⟨_, additional, ?_, fun x hx _ => ?_⟩
      · refine List.Nodup.filter _ (List.nodup_append.mpr ⟨hnodup, ?_, ?_⟩)
        · refine List.Nodup.map (fun i j hij => ?_) List.nodup_range
          have := congrArg TIRef.pos hij
          dsimp only at this
          omega
        · rintro x hx _ hx' rfl
          have hsome : (roundAfter dag run table v).session.get x ≠ none := by
            intro hnone
            rw [hself x hx] at hnone
            rw [Session.mapIndex, hnone] at hneg
            exact absurd hneg (by decide)
          exact hsome (hget x hx')
      · rcases List.mem_append.mp hx with hx | hx
        · have hxr := hself x hx
          subst hxr
          refine ⟨.inl rfl, fun hidx => ?_⟩
          obtain ⟨ti, hti, hge⟩ := hidx
          rw [Session.mapIndex_eq hti] at hneg
          omega
        · refine ⟨.inr (hget x hx), fun hidx => ?_⟩
          obtain ⟨ti, hti, -⟩ := hidx
          rw [hget x hx] at hti
          cases hti
  · obtain ⟨new, hnew, hids⟩ := (IsVisit.frame dag run table v
      r).additional
    have hne : ∀ x ∈ new, x.taskId ≠ task.taskId := fun x hx heq => hid ((hids x hx).1 ▸ heq)
    refine ⟨new, hnew, ?_, fun x hx heq => absurd heq (hne x hx)⟩
    rw [List.filter_eq_nil_iff.mpr fun x hx => by simpa using hne x hx]
    exact List.nodup_nil

/-- The instances added so far: visited ones and new ones, each of them once. -/
theorem roundAfter_additional (htask : dag.getTask task.taskId = some task)
    (hcount : task.getMappedTiCount run (filterTis dag table) = .ok n)
    (hv : v <+: roundVisits dag run table) :
    ((roundAfter dag run table v).additionalTis.filter (·.taskId = task.taskId)).Nodup ∧
      ∀ x ∈ (roundAfter dag run table v).additionalTis, x.taskId = task.taskId →
        (x ∈ v ∨ (filterTis dag table).get x = none) ∧
        Indexed (roundAfter dag run table v).session x := by
  refine roundAfter_induction (M := fun v =>
      ((roundAfter dag run table v).additionalTis.filter (·.taskId = task.taskId)).Nodup ∧
      ∀ x ∈ (roundAfter dag run table v).additionalTis, x.taskId = task.taskId →
        (x ∈ v ∨ (filterTis dag table).get x = none) ∧
        Indexed (roundAfter dag run table v).session x)
    ⟨List.nodup_nil, fun x hx => (List.not_mem_nil hx).elim⟩ (fun v r h ih => ?_) hv
  obtain ⟨hnodup, hmem⟩ := ih
  obtain ⟨new, hnew, hnodup', hmem'⟩ := h.additional htask hcount
  have hframe := IsVisit.frame dag run table v r
  rw [hnew]
  refine ⟨?_, fun x hx hid => ?_⟩
  · rw [List.filter_append]
    refine List.nodup_append.mpr ⟨hnodup, hnodup', ?_⟩
    rintro x hx _ hx' rfl
    obtain ⟨hx, hid⟩ := List.mem_filter.mp hx
    have hid : x.taskId = task.taskId := of_decide_eq_true hid
    exact (hmem' x (List.mem_filter.mp hx').1 hid).2 (hmem x hx hid).2
  · rcases List.mem_append.mp hx with hx | hx
    · obtain ⟨hv', hidx⟩ := hmem x hx hid
      exact ⟨hv'.imp_left fun hm => List.mem_append_left _ hm, hframe.indexed x hidx⟩
    · refine ⟨?_, ?_⟩
      · rcases (hmem' x hx hid).1 with rfl | hnone
        · exact .inl (by simp)
        · refine .inr (Option.eq_none_iff_forall_not_mem.mpr fun ti hti => ?_)
          obtain ⟨ti', hti', -⟩ := (roundAfter_inv h.prefix_left).rows.row x ti hti
          rw [hnone] at hti'
          cases hti'
      · obtain ⟨new', hnew', hids⟩ := hframe.additional
        rw [hnew'] at hnew
        rw [List.append_cancel_left hnew] at hids
        exact (hids x hx).2

/-- An instance that has a map index and was not added will not be. -/
theorem not_mem_additional (htask : dag.getTask task.taskId = some task)
    (hcount : task.getMappedTiCount run (filterTis dag table) = .ok n)
    (hv : v ++ w <+: roundVisits dag run table) (hid : x.taskId = task.taskId)
    (hidx : Indexed (roundAfter dag run table v).session x)
    (hx : x ∉ (roundAfter dag run table v).additionalTis) :
    x ∉ (roundAfter dag run table (v ++ w)).additionalTis := by
  induction w using List.reverseRecOn with
  | nil => rwa [List.append_nil]
  | append_singleton w r ih =>
    rw [← List.append_assoc] at hv ⊢
    obtain ⟨new, hnew, -, hmem⟩ := IsVisit.additional hv htask hcount
    rw [hnew, List.mem_append]
    rintro (hmem' | hmem')
    · exact ih ((List.prefix_append _ [r]).trans hv) hmem'
    · exact (hmem x hmem' hid).2 (roundAfter_indexed hidx w)

/-- A visit is to an instance of the query, or those are all visited. -/
theorem roundVisits_cases (hv : roundVisits dag run table = v ++ r :: w) :
    (∃ w', schedulableTis dag table = v ++ r :: w' ∧
      w = w' ++ (roundAfter dag run table (schedulableTis dag table)).additionalTis) ∨
    ∃ v', v = schedulableTis dag table ++ v' ∧
      (roundAfter dag run table (schedulableTis dag table)).additionalTis = v' ++ r :: w := by
  rcases List.append_eq_append_iff.mp hv with ⟨v', hv', hw⟩ | ⟨w', hl, hw⟩
  · exact .inr ⟨v', hv', hw⟩
  · cases w' with
    | nil => exact .inr ⟨[], by rw [hl, List.append_nil, List.append_nil], hw.symm⟩
    | cons r' w' =>
      obtain ⟨rfl, rfl⟩ := List.cons.inj hw
      exact .inl ⟨w', hl, rfl⟩

variable (dag table) in
theorem schedulableTis_isSome (hx : x ∈ schedulableTis dag table) :
    (filterTis dag table).get x ≠ none :=
  Option.isSome_iff_ne_none.mp ((visited_schedulableTis dag table).get x hx)

/-- An instance that is visited exists. -/
theorem IsVisit.isSome (h : IsVisit dag run table v r) :
    (roundAfter dag run table v).session.get r ≠ none := by
  obtain ⟨w, hw⟩ := h
  rw [List.append_assoc, List.singleton_append] at hw
  rcases roundVisits_cases hw.symm with ⟨w', hl, -⟩ | ⟨v', rfl, hadd⟩
  · obtain ⟨ti, hti⟩ := Option.ne_none_iff_exists'.mp
      (schedulableTis_isSome dag table (x := r) (by simp [hl]))
    obtain ⟨ti', hti', -⟩ := (roundAfter_inv (hw ▸ List.prefix_append v _)).rows.row r ti hti
    rw [hti']
    exact Option.some_ne_none _
  · obtain ⟨-, hidx, -⟩ := (passAfter_frame run (filterTis_clean dag table)
      (visited_schedulableTis dag table)).additional r (by
        rw [← roundAfter, hadd]
        simp)
    obtain ⟨ti, hti, -⟩ := roundAfter_indexed hidx v'
    rw [hti]
    exact Option.some_ne_none _

/-- An instance that has a map index and is neither left to visit in the query nor added so far is
not visited any more. -/
theorem not_mem_rest (htask : dag.getTask task.taskId = some task)
    (hcount : task.getMappedTiCount run (filterTis dag table) = .ok n)
    (hl : schedulableTis dag table = v ++ w) (hid : x.taskId = task.taskId)
    (hidx : Indexed (roundAfter dag run table v).session x) (hx : x ∉ w)
    (hadd : x ∉ (roundAfter dag run table v).additionalTis) :
    x ∉ w ++ (roundAfter dag run table (schedulableTis dag table)).additionalTis := by
  rw [List.mem_append, not_or]
  refine ⟨hx, ?_⟩
  have hpre : v ++ w <+: roundVisits dag run table := hl ▸ List.prefix_append _ _
  rw [hl]
  exact not_mem_additional htask hcount hpre hid hidx hadd

/-- **An instance that has a map index when it is visited is not visited again.** -/
theorem IsVisit.last (htask : dag.getTask task.taskId = some task)
    (hcount : task.getMappedTiCount run (filterTis dag table) = .ok n)
    (hid : r.taskId = task.taskId) (hv : roundVisits dag run table = v ++ r :: w)
    (hidx : Indexed (roundAfter dag run table v).session r) : r ∉ w := by
  rcases roundVisits_cases hv with ⟨w', hl, rfl⟩ | ⟨v', -, hadd⟩
  · have hnodup := (visited_schedulableTis dag table).nodup
    rw [hl] at hnodup
    have hfresh := (List.nodup_cons.mp (List.nodup_middle.mp hnodup)).1
    rw [List.mem_append, not_or] at hfresh
    have hpre : v <+: roundVisits dag run table := hv ▸ List.prefix_append _ _
    have hadd : r ∉ (roundAfter dag run table v).additionalTis := by
      intro hmem
      rcases ((roundAfter_additional htask hcount hpre).2 r hmem hid).1 with hm | hm
      · exact hfresh.1 hm
      · exact schedulableTis_isSome dag table (by simp [hl]) hm
    have hl' : schedulableTis dag table = (v ++ [r]) ++ w' := by rw [hl, List.append_assoc]; rfl
    have hpre' : v ++ [r] <+: roundVisits dag run table :=
      (hl' ▸ List.prefix_append _ _ : v ++ [r] <+: schedulableTis dag table).trans
        (List.prefix_append _ _)
    exact not_mem_rest htask hcount hl' hid (roundAfter_indexed hidx [r]) hfresh.2
      (not_mem_additional htask hcount hpre' hid hidx hadd)
  · have hpre : schedulableTis dag table <+: roundVisits dag run table := List.prefix_append _ _
    have hnodup := (roundAfter_additional htask hcount hpre).1
    rw [hadd, List.filter_append, List.filter_cons_of_pos (by simp [hid])] at hnodup
    have hfresh := (List.nodup_cons.mp (List.nodup_middle.mp hnodup)).1
    intro hmem
    exact hfresh (List.mem_append_right _ (List.mem_filter.mpr ⟨hmem, by simp [hid]⟩))

/-- **An instance that a visit creates and does not add is not visited.** -/
theorem IsVisit.created (htask : dag.getTask task.taskId = some task)
    (hcount : task.getMappedTiCount run (filterTis dag table) = .ok n)
    (hid : x.taskId = task.taskId) (hv : roundVisits dag run table = v ++ r :: w)
    (hnone : (roundAfter dag run table v).session.get x = none)
    (hidx : Indexed (roundAfter dag run table (v ++ [r])).session x)
    (hsame : (roundAfter dag run table (v ++ [r])).additionalTis =
      (roundAfter dag run table v).additionalTis) : x ∉ w := by
  have hpre : v <+: roundVisits dag run table := hv ▸ List.prefix_append _ _
  have hadd : x ∉ (roundAfter dag run table v).additionalTis := by
    intro hmem
    obtain ⟨ti, hti, -⟩ := ((roundAfter_additional htask hcount hpre).2 x hmem hid).2
    rw [hnone] at hti
    cases hti
  have hnew : x ∉ schedulableTis dag table := by
    intro hmem
    obtain ⟨ti, hti⟩ := Option.ne_none_iff_exists'.mp (schedulableTis_isSome dag table hmem)
    obtain ⟨ti', hti', -⟩ := (roundAfter_inv hpre).rows.row x ti hti
    rw [hnone] at hti'
    cases hti'
  rcases roundVisits_cases hv with ⟨w', hl, rfl⟩ | ⟨v', rfl, hrest⟩
  · have hl' : schedulableTis dag table = (v ++ [r]) ++ w' := by rw [hl, List.append_assoc]; rfl
    refine not_mem_rest htask hcount hl' hid hidx (fun hmem => hnew ?_) (hsame ▸ hadd)
    rw [hl']
    exact List.mem_append_right _ hmem
  · intro hmem
    have hmem' : x ∈ (roundAfter dag run table (schedulableTis dag table)).additionalTis := by
      rw [hrest]
      exact List.mem_append_right _ (List.mem_cons_of_mem _ hmem)
    obtain ⟨ti, hti, -⟩ := roundAfter_indexed
      ((roundAfter_additional htask hcount (List.prefix_append _ _)).2 x hmem' hid).2 v'
    rw [hnone] at hti
    cases hti

end

end Airflow
