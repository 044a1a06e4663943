import Airflow.DagRun.Decision
import Airflow.DagRun.Proof.RowHistory

/-!
# Instances outside the mapping and `schedule_tis`

A decision round revises the map indexes of a task when the first of its instances is ready, and
that instance is ready whatever its index is. `nothingOutside_iff` says when a round followed by
`schedule_tis` schedules nothing outside the mapping: the first instance that is ready is inside,
and every instance that was scheduled outside is taken out by a revision or an expansion.
-/

namespace Airflow

section
variable (dag : Dag) (run : RunData) (table : TaskInstanceTable)

/-- The session after the decision round and `schedule_tis`. -/
def scheduledSession : Session :=
  let info := taskInstanceSchedulingDecisions dag run table
  info.session.scheduleTis dag info.schedulableTis

/-- Nothing outside a mapping of length `n` is scheduled. -/
structure NothingOutside (t : TaskId) (n : Nat) : Prop where
  ready : ∀ r ∈ (taskInstanceSchedulingDecisions dag run table).schedulableTis, r.taskId = t →
    (taskInstanceSchedulingDecisions dag run table).session.mapIndex r < n
  scheduled : ∀ r, r.taskId = t → (scheduledSession dag run table).live r = true →
    n ≤ (scheduledSession dag run table).mapIndex r →
    (scheduledSession dag run table).state r ≠ some .scheduled
  removed : ∀ r, r.taskId = t → (Session.load table).state r ≠ some .removed →
    (taskInstanceSchedulingDecisions dag run table).session.state r = some .removed →
    (scheduledSession dag run table).state r ≠ some .scheduled

/-- The first instance of the task that is ready is inside the mapping, and the instances that were
scheduled outside are taken out. -/
structure OutsideTakenOut (t : TaskId) (n : Nat) : Prop where
  first : ∀ v r, Revises dag run table v r → r.taskId = t →
    (roundAfter dag run table v).session.mapIndex r < n
  stale : ∀ r ti, (Session.load table).get r = some ti → r.taskId = t →
    ti.state = some .scheduled → n ≤ ti.mapIndex →
    ∃ v q, q.taskId = t ∧ TakesOut dag run table n v q ti

end

/-! ## `schedule_tis` on one row -/

section
variable {s : Session} {dag : Dag} {l : List TIRef} {r : TIRef} {a : TaskInstance}

theorem updateStates_get (s : Session) (ids : List (TaskId × Int)) (state : TIState) (r : TIRef) :
    (s.updateStates ids state).get r = (s.get r).map fun ti =>
      if !ti.deleted ∧ (r.taskId, ti.mapIndex) ∈ ids then { ti with state, dbState := state }
      else ti := by
  rw [Session.get, Session.updateStates, List.getElem?_map, Session.get]

variable (dag l) in
/-- What `schedule_tis` makes of a row. -/
theorem scheduleTis_get (h : s.get r = some a) :
    ∃ b, (s.scheduleTis dag l).get r = some b ∧ b.mapIndex = a.mapIndex ∧
      b.deleted = a.deleted ∧
      (b.state = some .scheduled → a.state = some .scheduled ∨
        a.deleted = false ∧ ∃ q ∈ l, q.taskId = r.taskId ∧ s.mapIndex q = a.mapIndex) ∧
      ((∀ q ∈ l, q.taskId = r.taskId → s.mapIndex q ≠ a.mapIndex) → b.state = a.state) := by
  have hmem : ∀ p : TIRef → Bool, (r.taskId, a.mapIndex) ∈
      ((l.filter p).map fun ti => (ti.taskId, s.mapIndex ti)) →
      ∃ q ∈ l, q.taskId = r.taskId ∧ s.mapIndex q = a.mapIndex := by
    intro p hp
    obtain ⟨q, hq, heq⟩ := List.mem_map.mp hp
    exact ⟨q, (List.mem_filter.mp hq).1, congrArg Prod.fst heq, congrArg Prod.snd heq⟩
  simp only [Session.scheduleTis]
  rw [updateStates_get, updateStates_get, Session.get_flush, h]
  simp only [Option.map_some]
  refine ⟨_, rfl, ?_⟩
  split
  · next hsched =>
    obtain ⟨hlive, hq⟩ := hsched
    have hlive : a.deleted = false := by simpa using hlive
    split
    · next hdummy =>
      refine ⟨rfl, rfl, fun hs => (by cases hs), fun hno => ?_⟩
      obtain ⟨q, hq, hid, heq⟩ := hmem _ hdummy.2
      exact absurd heq (hno q hq hid)
    · refine ⟨rfl, rfl, fun _ => .inr ⟨hlive, hmem _ hq⟩, fun hno => ?_⟩
      obtain ⟨q, hq, hid, heq⟩ := hmem _ hq
      exact absurd heq (hno q hq hid)
  · split
    · next hdummy =>
      refine ⟨rfl, rfl, fun hs => (by cases hs), fun hno => ?_⟩
      obtain ⟨q, hq, hid, heq⟩ := hmem _ hdummy.2
      exact absurd heq (hno q hq hid)
    · exact ⟨rfl, rfl, .inl, fun _ => rfl⟩

end

/-! ## Rows with too high an index -/

section
variable {dag : Dag} {run : RunData} {table : TaskInstanceTable} {v w : List TIRef} {r q : TIRef}
  {task : Operator} {n j : Nat} {a b : TaskInstance}

/-- What a visit does to a row with too high an index. -/
theorem IsVisit.tooHigh (h : IsVisit dag run table v r) (htask : dag.getTask r.taskId = some task)
    (hcount : task.getMappedTiCount run (filterTis dag table) = .ok n)
    (ha : ((roundAfter dag run table v).session.view r.taskId)[j]? = some a)
    (hhigh : TooHigh n a) :
    ∃ b, ((roundAfter dag run table (v ++ [r])).session.view r.taskId)[j]? = some b ∧
      (TakesOut dag run table n v r a ∧ b.state = some .removed ∨
        ¬TakesOut dag run table n v r a ∧
          b.state = if r.pos = j then (visitEvaluation dag run table v r).session.state r
            else a.state) := by
  obtain ⟨b, hb, -, -, -, hstate⟩ := h.outside_row htask hcount ha hhigh.1
    (not_inRange_of_tooHigh hhigh) fun _ => Bool.eq_false_iff.mpr fun hfound => by
      have hidx := (found_row (IsVisit.written dag run table v r) hfound ha).2
      have := hhigh.2
      omega
  exact ⟨b, hb, hstate⟩

theorem TakesOut.congr (h : TakesOut dag run table n v r a) (hidx : b.mapIndex = a.mapIndex)
    (hlock : b.locked = a.locked) : TakesOut dag run table n v r b := by
  rwa [TakesOut, hidx, hlock]

theorem TooHigh.since (h : TooHigh n a) (hs : RowSince n a b) : TooHigh n b := by
  obtain ⟨hidx, hdel⟩ := hs.kept (by have := h.2; omega)
  exact ⟨hdel.trans h.1, hidx ▸ h.2⟩

/-- A row with too high an index that was taken out has a state that is not scheduled. -/
theorem takenOut_state (htask : dag.getTask task.taskId = some task)
    (hcount : task.getMappedTiCount run (filterTis dag table) = .ok n)
    (hv : (v ++ [q]) ++ w <+: roundVisits dag run table) (hq : q.taskId = task.taskId)
    (ha : ((filterTis dag table).view task.taskId)[j]? = some a) (hhigh : TooHigh n a)
    (hout : TakesOut dag run table n v q a)
    (hb : ((roundAfter dag run table ((v ++ [q]) ++ w)).session.view task.taskId)[j]? = some b) :
    isDependencyState b.state = true := by
  have hvisit : IsVisit dag run table v q := (List.prefix_append _ w).trans hv
  obtain ⟨a', ha', hsince⟩ := row_since (v := []) htask hcount hvisit.prefix_left ha
  rw [List.nil_append] at ha'
  have hhigh' := hhigh.since hsince
  rw [← hq] at ha' htask
  obtain ⟨c, hc, ⟨-, hstate⟩ | ⟨hno, -⟩⟩ := hvisit.tooHigh htask hcount ha' hhigh'
  · rw [hq] at hc htask
    obtain ⟨b', hb', hsince'⟩ := row_since htask hcount hv hc
    rw [hb] at hb'
    cases hb'
    rcases hsince'.state with heq | hdep
    · rw [heq, hstate]
      rfl
    · exact hdep
  · exact absurd (hout.congr (hsince.kept (by have := hhigh.2; omega)).1 hsince.locked) hno

/-- A scheduled row with too high an index that was not taken out is as it was. -/
theorem leftAlone_state (htask : dag.getTask task.taskId = some task)
    (hcount : task.getMappedTiCount run (filterTis dag table) = .ok n)
    (ha : ((filterTis dag table).view task.taskId)[j]? = some a) (hhigh : TooHigh n a)
    (hsched : a.state = some .scheduled)
    (hno : ∀ v q, q.taskId = task.taskId → ¬TakesOut dag run table n v q a)
    (hv : v <+: roundVisits dag run table) :
    ∃ b, ((roundAfter dag run table v).session.view task.taskId)[j]? = some b ∧
      b.state = some .scheduled := by
  refine roundAfter_induction
    (M := fun v => ∃ b, ((roundAfter dag run table v).session.view task.taskId)[j]? = some b ∧
      b.state = some .scheduled) ⟨a, ha, hsched⟩ (fun v r h ih => ?_) hv
  obtain ⟨b, hb, hstate⟩ := ih
  by_cases hid : r.taskId = task.taskId
  · obtain ⟨b', hb', hsince⟩ := row_since (v := []) htask hcount h.prefix_left ha
    rw [List.nil_append, hb] at hb'
    cases hb'
    rw [← hid] at hb htask ⊢
    obtain ⟨c, hc, ⟨hout, -⟩ | ⟨-, hc'⟩⟩ := h.tooHigh htask hcount hb (hhigh.since hsince)
    · have hsame := (hsince.kept (by have := hhigh.2; omega)).1
      exact absurd (hout.congr hsame.symm hsince.locked.symm) (hno v r hid)
    · refine ⟨c, hc, ?_⟩
      rw [hc']
      split
      · next hpos =>
        -- an instance that is visited was not scheduled
        subst hpos
        rw [← hid, view_getElem?] at ha
        obtain ⟨ti, hti, rfl⟩ := Option.map_eq_some_iff.mp ha
        have hvis := roundVisits_visitable h.mem ti hti
        have hst : ti.state = some .scheduled := hsched
        rw [hst] at hvis
        cases hvis
      · exact hstate
  · rw [IsVisit.other v hid]
    exact ⟨b, hb, hstate⟩

/-! ## Ready instances -/

/-- A ready instance: it has a map index, is schedulable if that is inside the mapping, and is not
visited any more. -/
structure StaysReady (dag : Dag) (run : RunData) (table : TaskInstanceTable) (n : Nat)
    (v : List TIRef) (q : TIRef) : Prop where
  row : ∃ a, ((roundAfter dag run table v).session.view q.taskId)[q.pos]? = some a ∧
    0 ≤ a.mapIndex ∧ (inRange a.mapIndex n → State.isScheduleable a.state = true)
  last : ∀ w, roundVisits dag run table = v ++ w → q ∉ w

theorem StaysReady.visit (h : StaysReady dag run table n v q) (hv : IsVisit dag run table v r)
    (htask : dag.getTask q.taskId = some task)
    (hcount : task.getMappedTiCount run (filterTis dag table) = .ok n) :
    StaysReady dag run table n (v ++ [r]) q := by
  obtain ⟨⟨a, ha, hge, hsched⟩, hlast⟩ := h
  obtain ⟨w', hw'⟩ := hv
  rw [List.append_assoc] at hw'
  refine ⟨?_, fun w hw hmem => hlast (r :: w) (by rw [hw, List.append_assoc]; rfl)
    (List.mem_cons_of_mem _ hmem)⟩
  by_cases hid : r.taskId = q.taskId
  · have hne : r ≠ q := by
      rintro rfl
      exact hlast _ hw'.symm (by simp)
    rw [← hid] at ha htask ⊢
    have hv : IsVisit dag run table v r := ⟨w', by rw [List.append_assoc]; exact hw'⟩
    obtain ⟨b, hb, hrow, -⟩ := hv.row_of htask hcount ha
    refine ⟨b, hb, (hrow.kept hge).1 ▸ hge, fun hin => ?_⟩
    rw [(hrow.kept hge).1] at hin
    rcases hrow.state with hs | ⟨-, hout⟩ | ⟨-, hneg⟩
    · rw [hs, if_neg]
      · exact hsched hin
      · intro hpos
        obtain ⟨t, i⟩ := r
        obtain ⟨t', i'⟩ := q
        dsimp only at hid hpos
        subst hid hpos
        exact hne rfl
    · exact absurd hin hout
    · omega
  · rw [IsVisit.other v hid]
    exact ⟨a, ha, hge, hsched⟩

/-- The instance visited, when it is ready. -/
theorem StaysReady.self (hv : IsVisit dag run table v r) (htask : dag.getTask r.taskId = some task)
    (hcount : task.getMappedTiCount run (filterTis dag table) = .ok n)
    (hidx : 0 ≤ (roundAfter dag run table v).session.mapIndex r)
    (hsome : (roundAfter dag run table v).session.get r ≠ none)
    (hsched : State.isScheduleable ((visitEvaluation dag run table v r).session.state r) = true) :
    StaysReady dag run table n (v ++ [r]) r := by
  obtain ⟨ti, hti⟩ := Option.ne_none_iff_exists'.mp hsome
  rw [Session.mapIndex_eq hti] at hidx
  have ha : ((roundAfter dag run table v).session.view r.taskId)[r.pos]? = some ti.flushed := by
    rw [view_getElem?, hti]
    rfl
  obtain ⟨b, hb, hrow, -⟩ := hv.row_of htask hcount ha
  have hid : task.taskId = r.taskId := Dag.getTask_taskId htask
  refine ⟨⟨b, hb, (hrow.kept hidx).1 ▸ hidx, fun hin => ?_⟩, fun w hw => ?_⟩
  · rw [(hrow.kept hidx).1] at hin
    rcases hrow.state with hs | ⟨-, hout⟩ | ⟨-, hneg⟩
    · rw [hs, if_pos rfl]
      exact hsched
    · exact absurd hin hout
    · exact absurd hidx (by have : ti.flushed.mapIndex = ti.mapIndex := rfl; omega)
  · rw [← hid] at htask
    exact IsVisit.last htask hcount hid.symm (by rw [hw, List.append_assoc]; rfl) ⟨ti, hti, hidx⟩

/-- The instances that a revision creates. -/
theorem StaysReady.new (htask : dag.getTask r.taskId = some task)
    (hcount : task.getMappedTiCount run (filterTis dag table) = .ok n) {rows : List TaskInstance}
    (hlen : rows.length = ((roundAfter dag run table v).session.view r.taskId).length)
    (hview : (roundAfter dag run table (v ++ [r])).session.view r.taskId = reviseRows n rows)
    (hsame : (roundAfter dag run table (v ++ [r])).additionalTis =
      (roundAfter dag run table v).additionalTis)
    (hq : q ∈ newRefs r.taskId ((roundAfter dag run table v).session.view r.taskId).length
      (missingIndexes n rows).length) :
    StaysReady dag run table n (v ++ [r]) q := by
  obtain ⟨i, hi, rfl⟩ := List.mem_map.mp hq
  rw [List.mem_range] at hi
  have hnone : (rows[((roundAfter dag run table v).session.view r.taskId).length + i]?) = none := by
    rw [List.getElem?_eq_none_iff]
    omega
  have hlt : ((roundAfter dag run table v).session.view r.taskId).length + i <
      (reviseRows n rows).length := by
    simp only [reviseRows, List.length_append, List.length_map]
    omega
  have ha := List.getElem?_eq_getElem hlt
  obtain ⟨k, hk, hnew⟩ := reviseRows_new ha hnone
  rw [hnew] at ha
  have hge : (0 : Int) ≤ (newRow none (k : Int)).mapIndex := Int.natCast_nonneg k
  refine ⟨⟨_, hview ▸ ha, hge, fun _ => rfl⟩, fun w hw => ?_⟩
  have hid : task.taskId = r.taskId := Dag.getTask_taskId htask
  rw [← hid] at htask
  refine IsVisit.created htask hcount hid.symm (v := v) (r := r) (by rw [hw, List.append_assoc]; rfl)
    ?_ (indexed_iff.mpr ⟨_, hview ▸ ha, hge⟩) hsame
  rw [Session.get, List.getElem?_eq_none_iff, ← length_view]
  dsimp only
  omega

/-- **Every ready instance of the task has a map index, is schedulable if that is inside the mapping,
and is not visited any more.** -/
theorem staysReady (htask : dag.getTask task.taskId = some task)
    (hcount : task.getMappedTiCount run (filterTis dag table) = .ok n)
    (hv : v <+: roundVisits dag run table) :
    ∀ q ∈ (roundAfter dag run table v).readyTis, q.taskId = task.taskId →
      StaysReady dag run table n v q := by
  refine roundAfter_induction (M := fun v =>
    ∀ q ∈ (roundAfter dag run table v).readyTis, q.taskId = task.taskId →
      StaysReady dag run table n v q)
    (fun q hq => (List.not_mem_nil hq).elim) (fun v r h ih q hq hid => ?_) hv
  have hold : q ∈ (roundAfter dag run table v).readyTis →
      StaysReady dag run table n (v ++ [r]) q := fun hmem =>
    (ih q hmem hid).visit h (hid ▸ htask) hcount
  by_cases hr : r.taskId = task.taskId
  · rw [← hr] at htask
    have hsome := h.isSome
    cases h.mapped htask hcount with
    | quiet hq' view ready additional revised => exact hold (ready ▸ hq)
    | expand hmet hneg state unmapped k view hunmapped hnodup ready additional revised =>
      exact hold (ready ▸ hq)
    | append hmet hidx hsched hold' view ready additional revised =>
      rw [ready] at hq
      rcases List.mem_append.mp hq with hq | hq
      · exact hold hq
      · rw [List.mem_singleton.mp hq]
        exact StaysReady.self h htask hcount hidx hsome hsched
    | revise hmet hidx hsched hnew view ready additional revised =>
      rw [ready] at hq
      rcases List.mem_append.mp hq with hq | hq
      · rcases List.mem_append.mp hq with hq | hq
        · exact hold hq
        · exact StaysReady.new htask hcount (List.length_modify ..) view additional hq
      · rw [List.mem_singleton.mp hq]
        exact StaysReady.self h htask hcount hidx hsome hsched
  · exact hold (((IsVisit.frame dag run table v r).ready q (by rw [hid]; exact Ne.symm hr)).mp hq)

/-- A row with too high an index was there when the pass began. -/
theorem tooHigh_begin (htask : dag.getTask task.taskId = some task)
    (hcount : task.getMappedTiCount run (filterTis dag table) = .ok n)
    (hv : v <+: roundVisits dag run table)
    (ha : ((roundAfter dag run table v).session.view task.taskId)[j]? = some a)
    (hhigh : (n : Int) ≤ a.mapIndex) :
    ∃ a₀, ((filterTis dag table).view task.taskId)[j]? = some a₀ ∧ TooHigh n a₀ ∧
      RowSince n a₀ a := by
  cases h₀ : ((filterTis dag table).view task.taskId)[j]? with
  | none =>
    have hin := of_decide_eq_true (new_since (v := []) htask hcount hv h₀ ha).2
    omega
  | some a₀ =>
    obtain ⟨b, hb, hsince⟩ := row_since (v := []) htask hcount hv h₀
    rw [List.nil_append, ha] at hb
    cases hb
    refine ⟨a₀, rfl, ⟨begin_live (Dag.getTask_mem htask) h₀, ?_⟩, hsince⟩
    rcases Int.lt_or_le a₀.mapIndex 0 with hneg | hge
    · rcases hsince.unmapped hneg with hneg' | ⟨hzero, -, hn⟩
      · omega
      · omega
    · rw [← (hsince.kept hge).1]
      exact hhigh

/-- A map index is kept. -/
theorem mapIndex_since (htask : dag.getTask task.taskId = some task)
    (hcount : task.getMappedTiCount run (filterTis dag table) = .ok n)
    (hv : v ++ w <+: roundVisits dag run table) (hid : q.taskId = task.taskId)
    (hidx : Indexed (roundAfter dag run table v).session q) :
    (roundAfter dag run table (v ++ w)).session.mapIndex q =
      (roundAfter dag run table v).session.mapIndex q := by
  obtain ⟨a, ha, hge⟩ := indexed_iff.mp hidx
  have ha' := ha
  rw [hid] at ha
  obtain ⟨b, hb, hsince⟩ := row_since htask hcount hv ha
  rw [← hid] at hb
  rw [mapIndex_view, mapIndex_view, ha', hb]
  exact (hsince.kept hge).1

theorem StaysReady.indexed (h : StaysReady dag run table n v q) :
    Indexed (roundAfter dag run table v).session q := by
  obtain ⟨a, ha, hge, -⟩ := h.row
  exact indexed_iff.mpr ⟨a, ha, hge⟩

theorem isScheduleable_of_dependencyState {state : TIState} (h : isDependencyState state = true) :
    State.isScheduleable state = false := by
  unfold isDependencyState at h
  split at h
  · rfl
  · rfl
  · rfl
  · cases h

/-- A ready instance that is not the first one is inside the mapping. -/
theorem inside_of_revised (h : IsVisit dag run table v r)
    (htask : dag.getTask task.taskId = some task)
    (hcount : task.getMappedTiCount run (filterTis dag table) = .ok n)
    (hr : r.taskId = task.taskId)
    (hsched : State.isScheduleable ((visitEvaluation dag run table v r).session.state r) = true)
    (hrev : task.taskId ∈ (roundAfter dag run table v).revisedMapIndexTaskIds) :
    (roundAfter dag run table v).session.mapIndex r < n := by
  obtain ⟨ti, hti⟩ := Option.ne_none_iff_exists'.mp h.isSome
  have ha : ((roundAfter dag run table v).session.view r.taskId)[r.pos]? = some ti.flushed := by
    rw [view_getElem?, hti]
    rfl
  rw [Session.mapIndex_eq hti]
  by_contra hout
  have ha' := ha
  rw [hr] at ha'
  obtain ⟨a₀, ha₀, hhigh, -⟩ := tooHigh_begin htask hcount h.prefix_left ha' (Int.not_lt.mp hout)
  obtain ⟨v', q, w', rfl, hq, hrevises⟩ := (revised_iff htask hcount h.prefix_left).mp hrev
  have hpre := h.prefix_left
  rw [List.append_cons] at hpre ha'
  have hdep := takenOut_state htask hcount hpre hq ha₀ hhigh (.inl hrevises) ha'
  rcases visitEvaluation_state (a := ti.flushed) ha with hs | hs
  · rw [hs, isScheduleable_of_dependencyState hdep] at hsched
    cases hsched
  · rw [isScheduleable_of_dependencyState hs] at hsched
    cases hsched

/-- **If the first ready instance is inside the mapping, all are.** -/
theorem ready_inside (htask : dag.getTask task.taskId = some task)
    (hcount : task.getMappedTiCount run (filterTis dag table) = .ok n)
    (hfirst : ∀ v r, Revises dag run table v r → r.taskId = task.taskId →
      (roundAfter dag run table v).session.mapIndex r < n)
    (hv : v <+: roundVisits dag run table) :
    ∀ q ∈ (roundAfter dag run table v).readyTis, q.taskId = task.taskId →
      (roundAfter dag run table v).session.mapIndex q < n := by
  refine roundAfter_induction (M := fun v =>
    ∀ q ∈ (roundAfter dag run table v).readyTis, q.taskId = task.taskId →
      (roundAfter dag run table v).session.mapIndex q < n)
    (fun q hq => (List.not_mem_nil hq).elim) (fun v r h ih q hq hid => ?_) hv
  have hold : q ∈ (roundAfter dag run table v).readyTis →
      (roundAfter dag run table (v ++ [r])).session.mapIndex q < n := by
    intro hmem
    rw [mapIndex_since htask hcount h hid
      (staysReady htask hcount h.prefix_left q hmem hid).indexed]
    exact ih q hmem hid
  by_cases hr : r.taskId = task.taskId
  · have hself : 0 ≤ (roundAfter dag run table v).session.mapIndex r →
        (roundAfter dag run table v).session.mapIndex r < n →
        (roundAfter dag run table (v ++ [r])).session.mapIndex r < n := by
      intro hge hlt
      obtain ⟨ti, hti⟩ := Option.ne_none_iff_exists'.mp h.isSome
      rw [Session.mapIndex_eq hti] at hge
      rwa [mapIndex_since htask hcount h hr ⟨ti, hti, hge⟩]
    have htask' := htask
    rw [← hr] at htask'
    cases h.mapped htask' hcount with
    | quiet hq' view ready additional revised => exact hold (ready ▸ hq)
    | expand hmet hneg state unmapped k view hunmapped hnodup ready additional revised =>
      exact hold (ready ▸ hq)
    | append hmet hidx hsched hold' view ready additional revised =>
      rw [ready] at hq
      rcases List.mem_append.mp hq with hq | hq
      · exact hold hq
      · rw [List.mem_singleton.mp hq]
        exact hself hidx (inside_of_revised h htask hcount hr hsched (hr ▸ hold'))
    | revise hmet hidx hsched hnew view ready additional revised =>
      rw [ready] at hq
      rcases List.mem_append.mp hq with hq | hq
      · rcases List.mem_append.mp hq with hq | hq
        · exact hold hq
        · have hnone : ((roundAfter dag run table v).session.view task.taskId)[q.pos]? = none := by
            obtain ⟨i, -, rfl⟩ := List.mem_map.mp hq
            rw [List.getElem?_eq_none_iff, hr]
            dsimp only
            omega
          obtain ⟨b, hb, -⟩ := (StaysReady.new htask' hcount (List.length_modify ..) view
            additional hq).row
          rw [mapIndex_view, hb]
          rw [hid] at hb
          have hin := of_decide_eq_true (new_since htask hcount h hnone hb).2
          exact hin.2
      · rw [List.mem_singleton.mp hq]
        exact hself hidx (hfirst v r ⟨h, hmet, hidx, hsched, hnew⟩ hr)
  · exact hold (((IsVisit.frame dag run table v r).ready q (by rw [hid]; exact Ne.symm hr)).mp hq)

/-! ## The round and `schedule_tis` -/

/-- A row of the session after `schedule_tis` and the row before. -/
theorem scheduledSession_row {ti : TaskInstance} (h : (scheduledSession dag run table).get r = some ti) :
    ∃ a, (roundAfter dag run table (roundVisits dag run table)).session.get r = some a := by
  obtain ⟨hsession, hready⟩ := decisions_round dag run table
  cases ha : (roundAfter dag run table (roundVisits dag run table)).session.get r with
  | some a => exact ⟨a, rfl⟩
  | none =>
    simp only [scheduledSession, hsession, hready, Session.scheduleTis, updateStates_get,
      Session.get_flush, ha, Option.map_none] at h
    cases h

theorem nothingOutside_of_takenOut (htask : dag.getTask task.taskId = some task)
    (hcount : task.getMappedTiCount run (filterTis dag table) = .ok n)
    (h : OutsideTakenOut dag run table task.taskId n) :
    NothingOutside dag run table task.taskId n := by
  obtain ⟨hsession, hready⟩ := decisions_round dag run table
  have hinside := ready_inside htask hcount h.first (List.prefix_refl _)
  have hstays := staysReady htask hcount (List.prefix_refl (roundVisits dag run table))
  refine ⟨fun q hq hid => ?_, fun r hid hlive hidx hsched => ?_, fun r hid hbefore hrem hsched => ?_⟩
  · rw [hready] at hq
    rw [hsession]
    exact hinside q hq hid
  · cases hget : (scheduledSession dag run table).get r with
    | none => simp [Session.live, hget] at hlive
    | some ti =>
      obtain ⟨a, ha⟩ := scheduledSession_row hget
      obtain ⟨b, hb, hsame, hdel, hfrom, -⟩ := scheduleTis_get dag
        (roundAfter dag run table (roundVisits dag run table)).readyTis ha
      rw [scheduledSession, hsession, hready] at hget hidx hsched
      rw [Session.mapIndex_eq hb, hsame] at hidx
      rw [Session.state_eq hb] at hsched
      have hrow : ((roundAfter dag run table (roundVisits dag run table)).session.view
          task.taskId)[r.pos]? = some a.flushed := by
        rw [← hid, view_getElem?, ha]
        rfl
      rcases hfrom hsched with hstate | ⟨-, q, hq, hqid, hqidx⟩
      · -- it was scheduled when the round began
        obtain ⟨a₀, ha₀, hhigh, hsince⟩ := tooHigh_begin htask hcount (List.prefix_refl _) hrow hidx
        have hstart : a₀.state = some .scheduled := by
          rcases hsince.state with heq | hdep
          · rw [← heq]
            exact hstate
          · rw [show a.flushed.state = some .scheduled from hstate] at hdep
            cases hdep
        have hfound := ha₀
        rw [← hid, view_getElem?] at hfound
        obtain ⟨ti₀, hti₀, rfl⟩ := Option.map_eq_some_iff.mp hfound
        rw [filterTis_get dag (hid ▸ Dag.getTask_mem htask)] at hti₀
        obtain ⟨v, q, hq, hout⟩ := h.stale r ti₀ hti₀ hid hstart hhigh.2
        have hvisit : IsVisit dag run table v q := hout.elim (·.visit) (·.1.visit)
        obtain ⟨w, hw⟩ := hvisit
        have hdep := takenOut_state htask hcount ⟨[], (List.append_nil _).trans hw⟩ hq ha₀
          hhigh hout (by rw [hw]; exact hrow)
        rw [show a.flushed.state = some .scheduled from hstate] at hdep
        cases hdep
      · have hlt := hinside q hq (hqid.trans hid)
        rw [hqidx] at hlt
        have : a.flushed.mapIndex = a.mapIndex := rfl
        omega
  · cases hget : (scheduledSession dag run table).get r with
    | none =>
      rw [Session.state, hget] at hsched
      cases hsched
    | some ti =>
      obtain ⟨a, ha⟩ := scheduledSession_row hget
      obtain ⟨b, hb, -, -, hfrom, -⟩ := scheduleTis_get dag
        (roundAfter dag run table (roundVisits dag run table)).readyTis ha
      rw [scheduledSession, hsession, hready, Session.state_eq hb] at hsched
      rw [hsession, Session.state_eq ha] at hrem
      rcases hfrom hsched with hstate | ⟨hlive, q, hq, hqid, hqidx⟩
      · rw [hrem] at hstate
        cases hstate
      · -- the ready instance with its key is itself
        obtain ⟨c, hc, hge, hsc⟩ := (hstays q hq (hqid.trans hid)).row
        have hlt := hinside q hq (hqid.trans hid)
        rw [mapIndex_view, hc] at hlt hqidx
        rw [hqid, hid] at hc
        have hrow : ((roundAfter dag run table (roundVisits dag run table)).session.view
            task.taskId)[r.pos]? = some a.flushed := by
          rw [← hid, view_getElem?, ha]
          rfl
        have hpos := (roundAfter_distinct htask hcount (List.prefix_refl _)).eq_of_live hc hrow
          (roundAfter_live htask hcount (List.prefix_refl _) hc hge) hlive hqidx
        rw [hpos, hrow] at hc
        cases hc
        have hsc' := hsc (decide_eq_true ⟨hge, hlt⟩)
        rw [show a.flushed.state = some .removed from hrem] at hsc'
        cases hsc'

theorem takenOut_of_nothingOutside (htask : dag.getTask task.taskId = some task)
    (hcount : task.getMappedTiCount run (filterTis dag table) = .ok n)
    (h : NothingOutside dag run table task.taskId n) :
    OutsideTakenOut dag run table task.taskId n := by
  obtain ⟨hsession, hready⟩ := decisions_round dag run table
  refine ⟨fun v r hrev hid => ?_, fun r ti hti hid hstate hidx => ?_⟩
  · obtain ⟨w, hw⟩ := hrev.visit
    have hmem : r ∈ (roundAfter dag run table (v ++ [r])).readyTis := by
      have htask' := htask
      rw [← hid] at htask'
      cases hrev.visit.mapped htask' hcount with
      | quiet hq view ready additional revised =>
        rcases hq with hmet | ⟨-, hsched⟩
        · rw [hrev.met] at hmet
          cases hmet
        · rw [hrev.schedulable] at hsched
          cases hsched
      | expand hmet hneg state unmapped k view hunmapped hnodup ready additional revised =>
        exact absurd hneg (by have := hrev.mapped; omega)
      | append hmet hidx hsched hold view ready additional revised => exact absurd hold hrev.first
      | revise hmet hidx hsched hnew view ready additional revised =>
        rw [ready]
        simp
    have hmem' : r ∈ (roundAfter dag run table (roundVisits dag run table)).readyTis := by
      rw [← hw, roundAfter, passAfter, List.foldl_append]
      exact (foldl_visit_readyTis dag run _ w _).subset hmem
    obtain ⟨ti, hti⟩ := Option.ne_none_iff_exists'.mp hrev.visit.isSome
    have hidx : Indexed (roundAfter dag run table v).session r := by
      refine ⟨ti, hti, ?_⟩
      rw [← Session.mapIndex_eq hti]
      exact hrev.mapped
    have hlt := h.ready r (hready ▸ hmem') hid
    have hpre : v ++ r :: w <+: roundVisits dag run table :=
      ⟨[], by rw [List.append_nil, ← hw, List.append_assoc, List.singleton_append]⟩
    have hsince := mapIndex_since htask hcount hpre hid hidx
    rw [← hsince]
    rw [hsession, ← hw, List.append_assoc] at hlt
    exact hlt
  · by_contra hno
    have hti' := hti
    rw [← filterTis_get dag (hid ▸ Dag.getTask_mem htask)] at hti'
    have hrow₀ : ((filterTis dag table).view task.taskId)[r.pos]? = some ti.flushed := by
      rw [← hid, view_getElem?, hti']
      rfl
    have hhigh : TooHigh n ti.flushed :=
      ⟨begin_live (Dag.getTask_mem htask) hrow₀, hidx⟩
    obtain ⟨a, ha, hsched⟩ := leftAlone_state htask hcount hrow₀ hhigh hstate
      (fun v q hq hout => hno ⟨v, q, hq, hout⟩) (List.prefix_refl (roundVisits dag run table))
    obtain ⟨a', ha', hsince⟩ := row_since (v := []) (w := roundVisits dag run table) htask hcount
      (List.prefix_refl _) hrow₀
    rw [List.nil_append, ha] at ha'
    cases ha'
    obtain ⟨hlive, hidx'⟩ := hhigh.since hsince
    rw [← hid, view_getElem?] at ha
    obtain ⟨a, hget, rfl⟩ := Option.map_eq_some_iff.mp ha
    obtain ⟨b, hb, hsame, hdel, -, hkeep⟩ := scheduleTis_get dag
      (roundAfter dag run table (roundVisits dag run table)).readyTis hget
    have hb' : (scheduledSession dag run table).get r = some b := by
      rw [scheduledSession, hsession, hready]
      exact hb
    refine h.scheduled r hid ?_ ?_ ?_
    · rw [Session.live, hb', Option.any_some, hdel]
      exact congrArg Bool.not hlive
    · rw [Session.mapIndex_eq hb', hsame]
      exact hidx'
    · rw [Session.state_eq hb', hkeep fun q hq hqid heq => ?_]
      · exact hsched
      · have hlt := h.ready q (hready ▸ hq) (hqid.trans hid)
        rw [hsession, heq] at hlt
        have : a.flushed.mapIndex = a.mapIndex := rfl
        omega

/-- **A round followed by `schedule_tis` schedules nothing outside the mapping exactly when the first
instance of the task that is ready is inside it and the instances that were scheduled outside are
taken out.** -/
theorem nothingOutside_iff (htask : dag.getTask task.taskId = some task)
    (hcount : task.getMappedTiCount run (filterTis dag table) = .ok n) :
    NothingOutside dag run table task.taskId n ↔ OutsideTakenOut dag run table task.taskId n :=
  ⟨takenOut_of_nothingOutside htask hcount, nothingOutside_of_takenOut htask hcount⟩

end

/-! ### An instance outside that is visited first or last -/

/-- The index that the mapping has no longer comes last. -/
def outsideLast : TaskInstanceTable where
  rows := mappedRows [
    { taskId := 1, mapIndex := 1, state := some .success },
    { taskId := 1, mapIndex := 2, state := none }]

/-- It comes first. -/
def outsideFirst : TaskInstanceTable where
  rows := { taskId := 1, mapIndex := 2, state := none } :: mappedRows [
    { taskId := 1, mapIndex := 1, state := some .success }]

theorem outsideLast_visits : roundVisits mappedDag {} outsideLast = [⟨1, 0⟩, ⟨1, 2⟩] := by decide

/-- Visited last, it is taken out before its turn comes. -/
theorem outsideLast_nothing : NothingOutside mappedDag {} outsideLast 1 2 := by
  refine (@nothingOutside_iff _ _ _ mappedDag.tasks[0] _ rfl rfl).mpr
    ⟨fun v r hrev _ => ?_, fun r ti hti hid hstate => ?_⟩
  · obtain ⟨w, hw⟩ := hrev.visit
    rw [outsideLast_visits] at hw
    match v with
    | [] =>
      cases hw
      decide
    | [_] =>
      cases hw
      exact absurd hrev.first (by decide)
    | _ :: _ :: _ => simp at hw
  · have hrow : ∀ row ∈ outsideLast.rows, row.state ≠ some .scheduled := by decide
    obtain ⟨row, hmem, -, rfl⟩ := load_get hti
    exact absurd hstate (hrow row hmem)

/-- Visited first, it is ready, and scheduled although the round sets it to `REMOVED`. -/
theorem outsideFirst_scheduled :
    mappedDag.tasks[0].getMappedTiCount {} (filterTis mappedDag outsideFirst) = .ok 2 ∧
      ¬NothingOutside mappedDag {} outsideFirst 1 2 :=
  ⟨rfl, fun h => absurd (h.removed ⟨1, 0⟩ rfl (by decide) (by decide)) (by decide)⟩

end Airflow
