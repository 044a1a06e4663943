import Airflow.DagRun.Proof.Block
import Airflow.DagRun.Proof.RowHistory

/-!
# The expansion of a mapped task converges

`converged_iff`: a decision round that expands or revises a task of length `n` leaves just the rows
`0, …, n - 1` in states other than `REMOVED`, exactly when no row inside was `REMOVED` before or is
set so by its own dependencies, and every row outside is taken out after its own visit.
-/

namespace Airflow

section
variable (dag : Dag) (run : RunData) (table : TaskInstanceTable)

/-- The rows of a task: a block of `m` map indexes in any states, and maybe an unexpanded row that
is unfinished. -/
structure BlockTable (t : TaskId) (m : Nat) : Prop where
  block : ∀ i : Int, 0 ≤ i → ((∃ row ∈ table.rows, row.taskId = t ∧ row.mapIndex = i) ↔ i < m)
  unmapped : ∀ row ∈ table.rows, row.taskId = t → row.mapIndex < 0 →
    State.isUnfinished row.state = true

/-- After the round, the map indexes of the rows that are not `REMOVED` are `0, …, n - 1`. -/
def Converged (t : TaskId) (n : Nat) : Prop :=
  ∀ i : Int, (∃ ti ∈ (taskInstanceSchedulingDecisions dag run table).session.rowsOf t,
    ti.mapIndex = i ∧ ti.state ≠ some .removed) ↔ inRange i n = true

/-- No row inside is `REMOVED` before the round or set so by its own dependencies, and the rows
outside that are not `REMOVED` are taken out, unless the expansion of the unexpanded row uses it. -/
structure Converges (t : TaskId) (n : Nat) : Prop where
  inside : ∀ row ∈ table.rows, row.taskId = t → inRange row.mapIndex n = true →
    row.state ≠ some .removed
  evaluated : ∀ v r, IsVisit dag run table v r → r.taskId = t →
    inRange ((roundAfter dag run table v).session.mapIndex r) n = true →
    (visitEvaluation dag run table v r).session.state r ≠ some .removed
  unvisited : ∀ r ti, (Session.load table).get r = some ti → r.taskId = t →
    ¬inRange ti.mapIndex n → ti.state ≠ some .removed → r ∉ roundVisits dag run table →
    ∃ v q, q.taskId = t ∧ TakesOut dag run table n v q ti
  visited : ∀ v r ti, IsVisit dag run table v r → r.taskId = t →
    (roundAfter dag run table v).session.get r = some ti → ti.deleted = false →
    ¬inRange ti.mapIndex n →
    (visitEvaluation dag run table v r).session.state r ≠ some .removed →
    Expands dag run table v r ∧ t ∉ (roundAfter dag run table v).revisedMapIndexTaskIds ∨
      ∃ v' q, v <+: v' ∧ q.taskId = t ∧ TakesOut dag run table n v' q ti

end

section
variable {dag : Dag} {run : RunData} {table : TaskInstanceTable} {v w : List TIRef} {r q : TIRef}
  {task : Operator} {n m j : Nat} {a b c : TaskInstance}

/-! ## The visit of an unexpanded row -/

theorem inRange_iff {i : Int} : inRange i n = true ↔ 0 ≤ i ∧ i < n := decide_eq_true_iff

theorem Session.Written.dbState {s s' : Session} {ti' : TaskInstance} (h : Session.Written r s s')
    (hget : s'.get r = some ti') : ∃ ti, s.get r = some ti ∧ ti'.dbState = ti.dbState := by
  rcases h with rfl | ⟨state, -, rfl⟩
  · exact ⟨ti', hget, rfl⟩
  · rw [Session.setState, Session.get_assign_self] at hget
    obtain ⟨ti, hti, rfl⟩ := Option.map_eq_some_iff.mp hget
    exact ⟨ti, hti, rfl⟩

theorem Session.Written.fields {s s' : Session} {ti : TaskInstance} (h : Session.Written r s s')
    (hget : s.get r = some ti) : ∃ ti', s'.get r = some ti' ∧ ti'.dbState = ti.dbState ∧
      ti'.mapIndex = ti.mapIndex ∧ ti'.deleted = ti.deleted := by
  rcases h with rfl | ⟨state, -, rfl⟩
  · exact ⟨ti, hget, rfl, rfl, rfl⟩
  · rw [Session.setState, Session.get_assign_self, hget]
    exact ⟨_, rfl, rfl, rfl, rfl⟩

theorem findTi_isSome {s : Session} {p : TaskInstance → Bool} {ti : TaskInstance}
    (hget : s.get q = some ti) (hp : p ti = true) : ∃ u, s.findTi q.taskId p = some u := by
  have hmem : ti ∈ s.tis q.taskId := List.mem_of_getElem? hget
  cases h : (s.tis q.taskId).findIdx? p with
  | none => exact absurd hp (by rw [List.findIdx?_eq_none_iff.mp h ti hmem]; decide)
  | some i => exact ⟨⟨q.taskId, i⟩, by rw [Session.findTi, h]; rfl⟩

/-- A row that has no map index when it is visited was there when the pass began, without one, and
is visited for the first time. -/
theorem unmapped_first (htask : dag.getTask task.taskId = some task)
    (hcount : task.getMappedTiCount run (filterTis dag table) = .ok n)
    (hid : q.taskId = task.taskId) (hv : roundVisits dag run table = v ++ q :: w)
    (ha : ((roundAfter dag run table v).session.view q.taskId)[q.pos]? = some a)
    (hlive : a.deleted = false) (hneg : a.mapIndex < 0) :
    q ∉ v ∧ ∃ ti₀, (filterTis dag table).get q = some ti₀ ∧ ti₀.mapIndex < 0 := by
  have hpre : v <+: roundVisits dag run table := hv ▸ List.prefix_append _ _
  rw [hid] at ha
  constructor
  · intro hmem
    obtain ⟨v₁, v₂, rfl⟩ := List.append_of_mem hmem
    rw [List.append_assoc, List.cons_append] at hv
    have hpre₁ : IsVisit dag run table v₁ q :=
      ⟨v₂ ++ q :: w, by rw [hv, List.append_assoc, List.singleton_append]⟩
    obtain ⟨ti, hti⟩ := Option.ne_none_iff_exists'.mp hpre₁.isSome
    have hrow := row_of_get hti
    rw [hid] at hrow
    obtain ⟨c, hc, -⟩ := row_since (w := [q]) htask hcount hpre₁ hrow
    rw [List.append_cons] at ha hpre
    obtain ⟨a', ha', hsince⟩ := row_since htask hcount hpre hc
    rw [ha] at ha'
    cases ha'
    have hcneg : c.mapIndex < 0 := by
      rcases Int.lt_or_le c.mapIndex 0 with h | h
      · exact h
      · rw [(hsince.kept h).1] at hneg
        omega
    rw [← hid] at hc
    exact unmapped_last htask hcount hid hv hc (hsince.undeleted hlive) hcneg (by simp)
  · cases h₀ : ((filterTis dag table).view task.taskId)[q.pos]? with
    | none =>
      have hin := inRange_iff.mp (new_since (v := []) htask hcount hpre h₀ ha).2
      omega
    | some a₀ =>
      obtain ⟨a', ha', hsince⟩ := row_since (v := []) htask hcount hpre h₀
      rw [List.nil_append, ha] at ha'
      cases ha'
      rw [← hid] at h₀
      obtain ⟨ti₀, hti₀, rfl⟩ := get_of_row h₀
      refine ⟨ti₀, hti₀, ?_⟩
      rcases Int.lt_or_le ti₀.mapIndex 0 with h | h
      · exact h
      · have := (hsince.kept h).1
        have hsame : ti₀.flushed.mapIndex = ti₀.mapIndex := rfl
        omega

/-- An expansion after a revision finds no unexpanded row any more. -/
theorem Expands.revised_not_found (h : Expands dag run table v q)
    (htask : dag.getTask task.taskId = some task)
    (hcount : task.getMappedTiCount run (filterTis dag table) = .ok n)
    (hid : q.taskId = task.taskId) (hv : roundVisits dag run table = v ++ q :: w)
    (ha : ((roundAfter dag run table v).session.view q.taskId)[q.pos]? = some a)
    (hlive : a.deleted = false)
    (hrev : q.taskId ∈ (roundAfter dag run table v).revisedMapIndexTaskIds) :
    ((visitEvaluation dag run table v q).session.findUnmapped q.taskId).any (·.pos = q.pos) =
      false := by
  cases hu : (visitEvaluation dag run table v q).session.findUnmapped q.taskId with
  | none => rfl
  | some u =>
    have huq := h.found hu
    subst huq
    have hneg : a.mapIndex < 0 := by
      have := h.unmapped
      rwa [mapIndex_view, ha] at this
    obtain ⟨hfresh, ti₀, hti₀, hneg₀⟩ := unmapped_first htask hcount hid hv ha hlive hneg
    obtain ⟨ti, hti, hclean, hor⟩ := unmapped_begin (hid ▸ htask) hcount h.visit.prefix_left hfresh
      hti₀ hneg₀
    obtain ⟨-, ti', hti', -, -, hunfinished⟩ := findUnmapped_spec hu
    obtain ⟨ti'', hti'', hdb⟩ := (IsVisit.written dag run table v u).dbState hti'
    rw [hti] at hti''
    cases hti''
    rcases hor with ⟨-, hremoved⟩ | ⟨hno, -⟩
    · rw [hdb, hclean, hremoved] at hunfinished
      cases hunfinished
    · exact absurd hrev hno

/-- An expansion of a task that was not revised finds the unexpanded row: it goes, or becomes
index 0. -/
theorem Expands.gone (h : Expands dag run table v q)
    (htask : dag.getTask task.taskId = some task)
    (hcount : task.getMappedTiCount run (filterTis dag table) = .ok n) (hn : 1 ≤ n)
    (hid : q.taskId = task.taskId) (hv : roundVisits dag run table = v ++ q :: w)
    (hunfinished : ∀ ti₀, (filterTis dag table).get q = some ti₀ → ti₀.mapIndex < 0 →
      State.isUnfinished ti₀.state = true)
    (ha : ((roundAfter dag run table v).session.view q.taskId)[q.pos]? = some a)
    (hlive : a.deleted = false)
    (hrev : q.taskId ∉ (roundAfter dag run table v).revisedMapIndexTaskIds) :
    ∃ b, ((roundAfter dag run table (v ++ [q])).session.view q.taskId)[q.pos]? = some b ∧
      (b.deleted = true ∨ b.mapIndex = 0) := by
  have hneg : a.mapIndex < 0 := by
    have := h.unmapped
    rwa [mapIndex_view, ha] at this
  obtain ⟨hfresh, ti₀, hti₀, hneg₀⟩ := unmapped_first htask hcount hid hv ha hlive hneg
  obtain ⟨ti, hti, hclean, hor⟩ := unmapped_begin (hid ▸ htask) hcount h.visit.prefix_left hfresh
    hti₀ hneg₀
  have hstate : ti.state = ti₀.state := hor.elim (fun hr => absurd hr.1 hrev) (·.2)
  have hflushed : a = ti.flushed := by
    rw [row_of_get hti] at ha
    exact (Option.some.inj ha).symm
  obtain ⟨ti', hti', hdb, hidx, hdel⟩ := (IsVisit.written dag run table v q).fields hti
  have hminus : ti'.mapIndex = -1 := by
    have hge := (roundAfter_inv h.visit.prefix_left).rows.mapIndex_ge q ti hti
    have : a.mapIndex = ti.mapIndex := hflushed ▸ rfl
    omega
  have hlive' : ti'.deleted = false := by
    rw [hdel, ← hlive, hflushed]
    rfl
  obtain ⟨u, hu⟩ := findTi_isSome
    (p := fun ti => !ti.deleted ∧ ti.mapIndex = -1 ∧ State.isUnfinished ti.dbState) hti' (by
      rw [hdb, hclean, hstate, hunfinished ti₀ hti₀ hneg₀, hminus, hlive']
      rfl)
  have huq : u = q := h.found hu
  subst huq
  have hset := modify_setState_getElem? u.pos
    ((visitEvaluation dag run table v u).session.state u) ha
  cases h.visit.mapped (hid ▸ htask) hcount with
  | quiet hq view ready additional revised =>
    rcases hq with hmet | ⟨hge, -⟩
    · rw [h.met] at hmet
      cases hmet
    · exact absurd h.unmapped (by omega)
  | append hmet hge hsched hold view ready additional revised =>
    exact absurd h.unmapped (by omega)
  | revise hmet hge hsched hnew view ready additional revised =>
    exact absurd h.unmapped (by omega)
  | expand hmet hneg state unmapped k view hunmapped hnodup ready additional revised =>
    refine ⟨_, by rw [view, fillRows_old (unmappedRows_getElem? _ hset)], ?_⟩
    rw [(removeFromRow_fields n _).1, (removeFromRow_fields n _).2, Session.findUnmapped, hu,
      Option.any_some, decide_eq_true rfl, if_pos rfl, expandRow, if_neg (by omega)]
    split
    · exact .inl rfl
    · exact .inr rfl

/-- A visit that gives the unexpanded row an index adds it to those to visit. -/
theorem converted_added (h : IsVisit dag run table v q)
    (htask : dag.getTask q.taskId = some task)
    (hcount : task.getMappedTiCount run (filterTis dag table) = .ok n) (hn : 1 ≤ n)
    (ha : ((roundAfter dag run table v).session.view q.taskId)[q.pos]? = some a)
    (hneg : a.mapIndex < 0)
    (hb : ((roundAfter dag run table (v ++ [q])).session.view q.taskId)[q.pos]? = some b)
    (hge : 0 ≤ b.mapIndex) (hlive : b.deleted = false) :
    Expands dag run table v q ∧ q ∈ (roundAfter dag run table (v ++ [q])).additionalTis := by
  have hidx : (roundAfter dag run table v).session.mapIndex q < 0 := by
    rw [mapIndex_view, ha]
    exact hneg
  have hset := modify_setState_getElem? q.pos
    ((visitEvaluation dag run table v q).session.state q) ha
  rw [if_pos rfl] at hset
  have hsame : (a.setState ((visitEvaluation dag run table v q).session.state q)).mapIndex =
    a.mapIndex := rfl
  cases h.mapped htask hcount with
  | quiet hq view ready additional revised =>
    rw [view, hset] at hb
    cases hb
    omega
  | append hmet hge hsched hold view ready additional revised => omega
  | revise hmet hge hsched hnew view ready additional revised => omega
  | expand hmet hneg' state unmapped k view hunmapped hnodup ready additional revised length
      converted =>
    refine ⟨⟨h, hmet, hidx⟩, ?_⟩
    rw [view, fillRows_old (unmappedRows_getElem? _ hset)] at hb
    cases hb
    rw [(removeFromRow_fields n _).1] at hge
    rw [(removeFromRow_fields n _).2] at hlive
    cases hu : (visitEvaluation dag run table v q).session.findUnmapped q.taskId with
    | none =>
      rw [hu, Option.any_none, if_neg Bool.false_ne_true] at hge
      omega
    | some u =>
      have huq : u = q := Expands.found ⟨h, hmet, hidx⟩ hu
      subst huq
      rw [hu, Option.any_some, decide_eq_true rfl, if_pos rfl, expandRow, if_neg (by omega)] at hge
      split at hge
      · dsimp only at hge
        omega
      · next hzero =>
        rw [additional]
        refine List.mem_append_right _ (List.mem_append_left _ (converted u hu (by omega) ?_))
        rw [view_written (IsVisit.written dag run table v u)]
        exact Bool.eq_false_iff.mpr hzero

/-! ## Rows outside the mapping -/

theorem RowSince.outside_back (h : RowSince n a b) (hlive : b.deleted = false)
    (hout : ¬inRange b.mapIndex n) : a.deleted = false ∧ ¬inRange a.mapIndex n := by
  refine ⟨h.undeleted hlive, fun hin => ?_⟩
  rw [(h.kept (inRange_iff.mp hin).1).1] at hout
  exact hout hin

/-- The visits after `v`, that to `q` included. -/
theorem visits_from (hv : roundVisits dag run table = v ++ q :: w) {p : List TIRef → TIRef → Prop}
    (hp : ∀ v' x, p v' x → IsVisit dag run table v' x) :
    (∃ v' x, v <+: v' ∧ x.taskId = q.taskId ∧ p v' x) ↔
      p v q ∨ ∃ w₁ x w₂, w = w₁ ++ x :: w₂ ∧ x.taskId = q.taskId ∧ p ((v ++ [q]) ++ w₁) x := by
  constructor
  · rintro ⟨v', x, ⟨u, rfl⟩, hid, hx⟩
    obtain ⟨w', hw'⟩ := hp _ _ hx
    rw [hv, List.append_assoc, List.append_assoc, List.append_cancel_left_eq] at hw'
    cases u with
    | nil =>
      rw [List.append_nil] at hx
      obtain ⟨rfl, -⟩ := List.cons.inj hw'
      exact .inl hx
    | cons y u =>
      obtain ⟨rfl, hw⟩ := List.cons.inj hw'
      refine .inr ⟨u, x, w', hw.symm, hid, ?_⟩
      rwa [← List.append_cons]
  · rintro (hx | ⟨w₁, x, w₂, rfl, hid, hx⟩)
    · exact ⟨v, q, List.prefix_refl v, rfl, hx⟩
    · exact ⟨_, x, ⟨[q] ++ w₁, by rw [List.append_assoc]⟩, hid, hx⟩

theorem TakesOut.visit (h : TakesOut dag run table n v r a) : IsVisit dag run table v r :=
  h.elim (·.visit) (·.1.visit)

/-- **A row outside the mapping that is visited**, unless its own expansion uses it, ends as
`REMOVED` if it is taken out then or later, and with what its dependencies gave it otherwise. -/
theorem outside_visited (htask : dag.getTask task.taskId = some task)
    (hcount : task.getMappedTiCount run (filterTis dag table) = .ok n)
    (hid : q.taskId = task.taskId) (hv : roundVisits dag run table = v ++ q :: w)
    (ha : ((roundAfter dag run table v).session.view q.taskId)[q.pos]? = some a)
    (hlive : a.deleted = false) (hout : ¬inRange a.mapIndex n)
    (hnot : ¬(Expands dag run table v q ∧
      q.taskId ∉ (roundAfter dag run table v).revisedMapIndexTaskIds)) :
    ∃ b, ((roundAfter dag run table (roundVisits dag run table)).session.view
        q.taskId)[q.pos]? = some b ∧ b.mapIndex = a.mapIndex ∧ b.deleted = false ∧
      ((∃ v' x, v <+: v' ∧ x.taskId = q.taskId ∧ TakesOut dag run table n v' x a) ∧
          b.state = some .removed ∨
        (¬∃ v' x, v <+: v' ∧ x.taskId = q.taskId ∧ TakesOut dag run table n v' x a) ∧
          b.state = (visitEvaluation dag run table v q).session.state q) := by
  have hvisit : IsVisit dag run table v q :=
    ⟨w, by rw [hv, List.append_assoc, List.singleton_append]⟩
  have hpre : (v ++ [q]) ++ w <+: roundVisits dag run table :=
    ⟨[], by rw [List.append_nil, ← List.append_cons, hv]⟩
  have htask' := htask
  rw [← hid] at htask'
  obtain ⟨c, hc, hidx, hlive', hlock, hstate⟩ := hvisit.outside_row htask' hcount ha hlive hout
    fun hexp => hexp.revised_not_found htask hcount hid hv ha hlive (by
      by_contra hno
      exact hnot ⟨hexp, hno⟩)
  rw [if_pos rfl] at hstate
  have hlast : q ∉ w := by
    rcases Int.lt_or_le a.mapIndex 0 with hneg | hge
    · exact unmapped_last htask hcount hid hv hc hlive' (hidx ▸ hneg)
    · exact IsVisit.last htask hcount hid hv (indexed_iff.mpr ⟨a, ha, hge⟩)
  obtain ⟨b, hb, hidx', hdel, -, hor⟩ := outside_since htask' hcount hpre hlast hc hlive'
    (hidx ▸ hout)
  rw [← List.append_cons, ← hv] at hb
  refine ⟨b, hb, hidx'.trans hidx, hdel, ?_⟩
  have hsame : ∀ v' x, TakesOut dag run table n v' x c ↔ TakesOut dag run table n v' x a := by
    intro v' x
    rw [TakesOut, TakesOut, hidx, hlock]
  simp only [hsame] at hor
  rw [visits_from hv fun v' x => TakesOut.visit]
  rcases hor with ⟨hlater, hs⟩ | ⟨hno, hs⟩
  · exact .inl ⟨.inr hlater, hs⟩
  · rcases hstate with ⟨hnow, hs'⟩ | ⟨hnot', hs'⟩
    · exact .inl ⟨.inl hnow, hs.trans hs'⟩
    · exact .inr ⟨fun h => h.elim hnot' hno, hs.trans hs'⟩

/-! ## The round -/

/-- The rows that a round leaves, with the states in memory. -/
theorem converged_iff_view (t : TaskId) : Converged dag run table t n ↔ ∀ i : Int,
    (∃ (q : TIRef) (b : TaskInstance), q.taskId = t ∧
      ((roundAfter dag run table (roundVisits dag run table)).session.view t)[q.pos]? = some b ∧
      b.deleted = false ∧ b.mapIndex = i ∧ b.state ≠ some .removed) ↔ inRange i n = true := by
  have hmem : ∀ i : Int, (∃ ti ∈ (taskInstanceSchedulingDecisions dag run table).session.rowsOf t,
      ti.mapIndex = i ∧ ti.state ≠ some .removed) ↔
      ∃ (q : TIRef) (b : TaskInstance), q.taskId = t ∧
        ((roundAfter dag run table (roundVisits dag run table)).session.view t)[q.pos]? = some b ∧
        b.deleted = false ∧ b.mapIndex = i ∧ b.state ≠ some .removed := by
    intro i
    rw [(decisions_round dag run table).1]
    constructor
    · rintro ⟨ti, hti, hi⟩
      obtain ⟨hti, hlive⟩ := List.mem_filter.mp hti
      obtain ⟨j, hj⟩ := List.mem_iff_getElem?.mp hti
      exact ⟨⟨t, j⟩, ti.flushed, rfl, row_of_get (q := ⟨t, j⟩) hj,
        (by simpa using hlive : ti.deleted = false), hi⟩
    · rintro ⟨q, b, rfl, hb, hlive, hi⟩
      obtain ⟨ti, hti, rfl⟩ := get_of_row hb
      refine ⟨ti, List.mem_filter.mpr ⟨List.mem_of_getElem? hti, ?_⟩, hi⟩
      rw [show ti.deleted = false from hlive]
      rfl
  exact forall_congr' fun i => by rw [hmem]

/-- A row of the table is loaded. -/
theorem load_row {row : TaskInstanceRow} (hrow : row ∈ table.rows) :
    ∃ r : TIRef, r.taskId = row.taskId ∧ (Session.load table).get r = some row.load := by
  have hmem : row ∈ table.rows.filter (·.taskId = row.taskId) :=
    List.mem_filter.mpr ⟨hrow, by simp⟩
  obtain ⟨i, hi⟩ := List.mem_iff_getElem?.mp hmem
  refine ⟨⟨row.taskId, i⟩, rfl, ?_⟩
  rw [Session.get, Session.load, List.getElem?_map, hi]
  rfl

theorem begin_block (htask : dag.getTask task.taskId = some task)
    (hblock : BlockTable table task.taskId m) :
    IsBlock ((filterTis dag table).view task.taskId) m := by
  intro i hi
  rw [← hblock.block i hi]
  constructor
  · rintro ⟨a, ha, -, hidx⟩
    obtain ⟨j, hj⟩ := List.mem_iff_getElem?.mp ha
    obtain ⟨ti, hti, rfl⟩ := get_of_row (q := ⟨task.taskId, j⟩) hj
    rw [filterTis_get dag (Dag.getTask_mem htask)] at hti
    obtain ⟨row, hrow, hid, rfl⟩ := load_get hti
    exact ⟨row, hrow, hid, hidx⟩
  · rintro ⟨row, hrow, hid, hidx⟩
    obtain ⟨r, hr, hget⟩ := load_row hrow
    have ht : r.taskId = task.taskId := hr.trans hid
    rw [← filterTis_get dag (ht ▸ Dag.getTask_mem htask)] at hget
    refine ⟨row.load.flushed, ?_, rfl, hidx⟩
    rw [← ht]
    exact List.mem_of_getElem? (row_of_get hget)

theorem exists_last_visit (h : q ∈ roundVisits dag run table) :
    ∃ v w, roundVisits dag run table = v ++ q :: w ∧ q ∉ w := by
  obtain ⟨v, w, hrev, hv⟩ := List.eq_append_cons_of_mem (List.mem_reverse.mpr h)
  refine ⟨w.reverse, v.reverse, ?_, by simpa using hv⟩
  rw [← List.reverse_reverse (roundVisits dag run table), hrev]
  simp

section
variable (htask : dag.getTask task.taskId = some task)
  (hcount : task.getMappedTiCount run (filterTis dag table) = .ok n) (hn : 1 ≤ n)
  (hblock : BlockTable table task.taskId m)
  (hready : ∃ v q, q.taskId = task.taskId ∧
    (Expands dag run table v q ∨ Revises dag run table v q))

include htask hblock in
theorem BlockTable.unfinished {ti : TaskInstance} (hid : q.taskId = task.taskId)
    (h : (filterTis dag table).get q = some ti) (hneg : ti.mapIndex < 0) :
    State.isUnfinished ti.state = true := by
  rw [filterTis_get dag (hid ▸ Dag.getTask_mem htask)] at h
  obtain ⟨row, hrow, hrid, rfl⟩ := load_get h
  exact hblock.unmapped row hrow (hrid.trans hid) hneg

include htask hcount hn hblock

/-- A row that is not `REMOVED` after the round is inside the mapping. -/
theorem Converges.outside (hconv : Converges dag run table task.taskId n)
    (hid : q.taskId = task.taskId)
    (hb : ((roundAfter dag run table (roundVisits dag run table)).session.view
      q.taskId)[q.pos]? = some b)
    (hlive : b.deleted = false) (hstate : b.state ≠ some .removed) :
    inRange b.mapIndex n = true := by
  by_contra hout
  have hbegin : ∀ v w a, roundVisits dag run table = v ++ w →
      ((roundAfter dag run table v).session.view q.taskId)[q.pos]? = some a → RowSince n a b := by
    intro v w a hv ha
    rw [hid] at ha hb
    obtain ⟨b', hb', hsince⟩ := row_since htask hcount
      (⟨[], by rw [List.append_nil, hv]⟩ : v ++ w <+: roundVisits dag run table) ha
    rw [← hv, hb] at hb'
    cases hb'
    exact hsince
  by_cases hvisited : q ∈ roundVisits dag run table
  · obtain ⟨v, w, hv⟩ := List.append_of_mem hvisited
    have hvisit : IsVisit dag run table v q :=
      ⟨w, by rw [hv, List.append_assoc, List.singleton_append]⟩
    obtain ⟨ti, hti⟩ := Option.ne_none_iff_exists'.mp hvisit.isSome
    have ha := row_of_get hti
    obtain ⟨halive, haout⟩ := (hbegin v _ _ hv ha).outside_back hlive hout
    by_cases hexp : Expands dag run table v q ∧
        q.taskId ∉ (roundAfter dag run table v).revisedMapIndexTaskIds
    · obtain ⟨c, hc, hgone⟩ := hexp.1.gone htask hcount hn hid hv
        (fun ti₀ => hblock.unfinished htask hid) ha halive hexp.2
      have hsince := hbegin (v ++ [q]) w c (by rw [hv, List.append_cons]) hc
      rcases hgone with hdel | hzero
      · rw [hsince.undeleted hlive] at hdel
        cases hdel
      · rw [(hsince.kept (by omega)).1, hzero] at hout
        exact hout (inRange_iff.mpr (by omega))
    · obtain ⟨b', hb', -, -, ⟨-, hs⟩ | ⟨hno, hs⟩⟩ :=
        outside_visited htask hcount hid hv ha halive haout hexp
      · rw [hb] at hb'
        cases hb'
        exact hstate hs
      · rw [hb] at hb'
        cases hb'
        rcases hconv.visited v q ti hvisit hid hti halive haout (hs ▸ hstate) with h | ⟨v', x, h⟩
        · exact hexp (hid ▸ h)
        · exact hno ⟨v', x, h.1, h.2.1.trans hid.symm, h.2.2⟩
  · cases h₀ : ((filterTis dag table).view q.taskId)[q.pos]? with
    | none =>
      have hb' := hb
      rw [hid] at hb' h₀
      exact hout (new_since (v := []) htask hcount (List.prefix_refl _) h₀ hb').2
    | some a =>
      obtain ⟨halive, haout⟩ := (hbegin [] _ _ rfl h₀).outside_back hlive hout
      obtain ⟨b', hb', -, -, -, ⟨-, hs⟩ | ⟨hno, hs⟩⟩ := outside_since (v := [])
        (w := roundVisits dag run table) (hid ▸ htask) hcount (List.prefix_refl _) hvisited h₀ halive haout
      · rw [List.nil_append, hb] at hb'
        cases hb'
        exact hstate hs
      · rw [List.nil_append, hb] at hb'
        cases hb'
        obtain ⟨ti, hti, rfl⟩ := get_of_row h₀
        rw [filterTis_get dag (hid ▸ Dag.getTask_mem htask)] at hti
        obtain ⟨v, x, hx, htakes⟩ := hconv.unvisited q ti hti hid haout (hs ▸ hstate) hvisited
        obtain ⟨w, hw⟩ := htakes.visit
        exact hno ⟨v, x, w, by rw [← hw, List.append_assoc, List.singleton_append],
          hx.trans hid.symm, by rwa [List.nil_append]⟩

omit hblock in
/-- A row inside the mapping is not `REMOVED` after the round. -/
theorem Converges.inside_state (hconv : Converges dag run table task.taskId n)
    (hid : q.taskId = task.taskId)
    (hb : ((roundAfter dag run table (roundVisits dag run table)).session.view
      q.taskId)[q.pos]? = some b)
    (hlive : b.deleted = false) (hin : inRange b.mapIndex n = true) :
    b.state ≠ some .removed := by
  have htask' : dag.getTask q.taskId = some task := hid ▸ htask
  by_cases hvisited : q ∈ roundVisits dag run table
  · -- what its last visit left
    obtain ⟨v, w, hv, hlast⟩ := exists_last_visit hvisited
    have hvisit : IsVisit dag run table v q :=
      ⟨w, by rw [hv, List.append_assoc, List.singleton_append]⟩
    have hpre : (v ++ [q]) ++ w <+: roundVisits dag run table :=
      ⟨[], by rw [List.append_nil, ← List.append_cons, hv]⟩
    have hfinal : (v ++ [q]) ++ w = roundVisits dag run table := by rw [← List.append_cons, hv]
    obtain ⟨ti, hti⟩ := Option.ne_none_iff_exists'.mp hvisit.isSome
    have ha := row_of_get hti
    obtain ⟨c, hc, hrow, hsince⟩ := hvisit.row_of htask' hcount ha
    by_cases hain : inRange ti.mapIndex n = true
    · have hkept := hrow.kept (inRange_iff.mp hain).1
      obtain ⟨b', hb', -, -, hs⟩ := inside_since htask' hcount hpre hlast hc
        (by rw [hkept.1]; exact hain)
      rw [hfinal, hb] at hb'
      cases hb'
      rw [hs]
      rcases hrow.state with hs' | ⟨-, hout⟩ | ⟨-, hneg⟩
      · rw [hs', if_pos rfl]
        exact hconv.evaluated v q hvisit hid (by rw [Session.mapIndex_eq hti]; exact hain)
      · exact absurd hain hout
      · have hge := (inRange_iff.mp hain).1
        have : ti.flushed.mapIndex = ti.mapIndex := rfl
        omega
    · exfalso
      have hcb : RowSince n c b := by
        rw [hid] at hc hb
        obtain ⟨b', hb', h⟩ := row_since htask hcount hpre hc
        rw [hfinal, hb] at hb'
        cases hb'
        exact h
      have hclive := hcb.undeleted hlive
      by_cases hcin : inRange c.mapIndex n = true
      · rcases Int.lt_or_le ti.mapIndex 0 with hneg | hge
        · obtain ⟨hexp, hadd⟩ := converted_added hvisit htask' hcount hn ha hneg hc
            (inRange_iff.mp hcin).1 hclive
          exact hlast (hexp.visits_added htask hcount hid hv hadd)
        · rw [(hsince.kept hge).1] at hcin
          exact hain hcin
      · obtain ⟨b', hb', hidx, -⟩ := outside_since htask' hcount hpre hlast hc hclive hcin
        rw [hfinal, hb] at hb'
        cases hb'
        rw [hidx] at hin
        exact hcin hin
  · cases h₀ : ((filterTis dag table).view q.taskId)[q.pos]? with
    | none =>
      rw [created_state htask' hcount hvisited h₀ (List.prefix_refl _) hb]
      exact Option.some_ne_none _ ∘ Eq.symm
    | some a =>
      have halive := begin_live (hid ▸ Dag.getTask_mem htask) h₀
      by_cases hain : inRange a.mapIndex n = true
      · obtain ⟨b', hb', -, -, hs⟩ := inside_since (v := [])
          (w := roundVisits dag run table) htask' hcount (List.prefix_refl _) hvisited h₀ hain
        rw [List.nil_append, hb] at hb'
        cases hb'
        obtain ⟨ti, hti, rfl⟩ := get_of_row h₀
        rw [filterTis_get dag (hid ▸ Dag.getTask_mem htask)] at hti
        obtain ⟨row, hrow, hrid, rfl⟩ := load_get hti
        rw [hs]
        exact hconv.inside row hrow (hrid.trans hid) hain
      · obtain ⟨b', hb', hidx, -⟩ := outside_since (v := [])
          (w := roundVisits dag run table) htask' hcount (List.prefix_refl _) hvisited h₀ halive hain
        rw [List.nil_append, hb] at hb'
        cases hb'
        rw [hidx] at hin
        exact absurd hin hain

include hready in
/-- The round leaves a row for every index inside. -/
theorem round_block : ∃ k, n ≤ k ∧
    IsBlock ((roundAfter dag run table (roundVisits dag run table)).session.view task.taskId) k := by
  obtain ⟨v, q, hid, hor⟩ := hready
  have hvisit : IsVisit dag run table v q := hor.elim (·.visit) (·.visit)
  have hrest := hvisit
  obtain ⟨w, hw⟩ := hrest
  obtain ⟨k₁, -, hblock₁⟩ := block_since (v := []) htask hcount hn hvisit.prefix_left
    (begin_block htask hblock)
  rw [List.nil_append, ← hid] at hblock₁
  obtain ⟨k₂, -, hblock₂, hlen⟩ := hvisit.block (hid ▸ htask) hcount hn hblock₁
  rw [hid] at hblock₂
  obtain ⟨k₃, hk₃, hblock₃⟩ := block_since htask hcount hn
    ⟨[], (List.append_nil _).trans hw⟩ hblock₂
  rw [hw] at hblock₃
  exact ⟨k₃, Nat.le_trans (hlen hor) hk₃, hblock₃⟩

include hready in
theorem converged_of_converges (hconv : Converges dag run table task.taskId n) :
    Converged dag run table task.taskId n := by
  rw [converged_iff_view]
  intro i
  constructor
  · rintro ⟨q, b, hid, hb, hlive, rfl, hstate⟩
    rw [← hid] at hb
    exact hconv.outside htask hcount hn hblock hid hb hlive hstate
  · intro hin
    obtain ⟨k, hk, hfinal⟩ := round_block htask hcount hn hblock hready
    obtain ⟨hge, hlt⟩ := inRange_iff.mp hin
    obtain ⟨b, hb, hlive, hidx⟩ := (hfinal i hge).mpr (by omega)
    obtain ⟨j, hj⟩ := List.mem_iff_getElem?.mp hb
    exact ⟨⟨task.taskId, j⟩, b, rfl, hj, hlive, hidx, hconv.inside_state htask hcount hn
      (q := ⟨task.taskId, j⟩) rfl hj hlive (hidx ▸ hin)⟩

omit hn hblock in
/-- A row inside the mapping that ends as `REMOVED` is missing. -/
theorem not_converged_of_removed (hid : q.taskId = task.taskId)
    (hb : ((roundAfter dag run table (roundVisits dag run table)).session.view
      q.taskId)[q.pos]? = some b)
    (hlive : b.deleted = false) (hin : inRange b.mapIndex n = true)
    (hstate : b.state = some .removed) : ¬Converged dag run table task.taskId n := by
  intro h
  obtain ⟨x, c, -, hc, hclive, hidx, hne⟩ := (converged_iff_view task.taskId).mp h _ |>.mpr hin
  rw [hid] at hb
  have hpos := (roundAfter_distinct htask hcount (List.prefix_refl _)).eq_of_live hc hb hclive hlive
    hidx
  rw [hpos, hb] at hc
  cases hc
  exact hne hstate

omit htask hcount hn hblock in
/-- A row outside the mapping that does not end as `REMOVED` is left over. -/
theorem not_converged_of_outside (hid : q.taskId = task.taskId)
    (hb : ((roundAfter dag run table (roundVisits dag run table)).session.view
      q.taskId)[q.pos]? = some b)
    (hlive : b.deleted = false) (hout : ¬inRange b.mapIndex n)
    (hstate : b.state ≠ some .removed) : ¬Converged dag run table task.taskId n := by
  intro h
  rw [hid] at hb
  exact hout (((converged_iff_view task.taskId).mp h b.mapIndex).mp
    ⟨q, b, hid, hb, hlive, rfl, hstate⟩)

omit hn hblock in
theorem converges_of_converged (h : Converged dag run table task.taskId n) :
    Converges dag run table task.taskId n := by
  have hmem := Dag.getTask_mem htask
  refine ⟨fun row hrow hid hin hstate => ?_, fun v r hvisit hid hin hstate => ?_,
    fun r ti hti hid hout hstate hno => ?_, fun v r ti hvisit hid hti hlive hout hstate => ?_⟩
  · -- it is not visited, since it cannot be scheduled
    obtain ⟨r, hr, hget⟩ := load_row hrow
    have hrid := hr.trans hid
    have hget' := hget
    rw [← filterTis_get dag (hrid ▸ hmem)] at hget'
    have hrow₀ := row_of_get hget'
    have hno : r ∉ roundVisits dag run table := by
      intro hvisited
      have hvis := roundVisits_visitable hvisited _ hget'
      rw [show row.load.state = some .removed from hstate] at hvis
      cases hvis
    obtain ⟨b, hb, hidx, hdel, hs⟩ := inside_since (v := []) (w := roundVisits dag run table)
      (hrid ▸ htask) hcount (List.prefix_refl _) hno hrow₀ hin
    exact not_converged_of_removed htask hcount hrid hb hdel (by rw [hidx]; exact hin)
      (hs.trans hstate) h
  · obtain ⟨ti, hti⟩ := Option.ne_none_iff_exists'.mp hvisit.isSome
    rw [Session.mapIndex_eq hti] at hin
    have ha := row_of_get hti
    have hge := (inRange_iff.mp hin).1
    have hlive : ti.flushed.deleted = false := by
      rw [hid] at ha
      exact roundAfter_live htask hcount hvisit.prefix_left ha hge
    obtain ⟨c, hc, hrow, -⟩ := hvisit.row_of (hid ▸ htask) hcount ha
    obtain ⟨hidx, hdel⟩ := hrow.kept hge
    obtain ⟨w, hw⟩ := hvisit
    have hv : roundVisits dag run table = v ++ r :: w := by rw [← hw, ← List.append_cons]
    have hlast := IsVisit.last htask hcount hid hv ⟨ti, hti, hge⟩
    obtain ⟨b, hb, hidx', hdel', hs⟩ := inside_since (hid ▸ htask) hcount
      ⟨[], (List.append_nil _).trans hw⟩ hlast hc (by rw [hidx]; exact hin)
    rw [hw] at hb
    refine not_converged_of_removed htask hcount hid hb (hdel'.trans (hdel.trans hlive))
      (by rw [hidx', hidx]; exact hin) ?_ h
    rw [hs]
    rcases hrow.state with hs' | ⟨hs', -⟩ | ⟨-, hneg⟩
    · rw [hs', if_pos rfl]
      exact hstate
    · exact hs'
    · have : ti.flushed.mapIndex = ti.mapIndex := rfl
      omega
  · by_contra hnot
    rw [← filterTis_get dag (hid ▸ hmem)] at hti
    have hrow₀ := row_of_get hti
    obtain ⟨b, hb, hidx, hdel, -, ⟨⟨w₁, x, w₂, -, hx, htakes⟩, -⟩ | ⟨-, hs⟩⟩ :=
      outside_since (v := []) (w := roundVisits dag run table) (hid ▸ htask) hcount
        (List.prefix_refl _) hno hrow₀ (begin_live (hid ▸ hmem) hrow₀) hout
    · exact hnot ⟨_, x, hx.trans hid, htakes⟩
    · refine not_converged_of_outside hid hb hdel (by rw [hidx]; exact hout) ?_ h
      rw [hs]
      exact hstate
  · by_contra hnot
    rw [not_or] at hnot
    obtain ⟨w, hw⟩ := hvisit
    have hv : roundVisits dag run table = v ++ r :: w := by rw [← hw, ← List.append_cons]
    obtain ⟨b, hb, hidx, hdel, ⟨⟨v', x, hpre, hx, htakes⟩, -⟩ | ⟨-, hs⟩⟩ :=
      outside_visited htask hcount hid hv (row_of_get hti) hlive hout (hid ▸ hnot.1)
    · exact hnot.2 ⟨v', x, hpre, hx.trans hid, htakes⟩
    · refine not_converged_of_outside hid hb hdel (by rw [hidx]; exact hout) ?_ h
      rw [hs]
      exact hstate

end

/-- **A round that expands or revises a task of length `n` leaves just the rows `0, …, n - 1` in
states other than `REMOVED`, exactly when `Converges` holds.** -/
theorem converged_iff (htask : dag.getTask task.taskId = some task)
    (hcount : task.getMappedTiCount run (filterTis dag table) = .ok n) (hn : 1 ≤ n)
    (hblock : BlockTable table task.taskId m)
    (hready : ∃ v q, q.taskId = task.taskId ∧
      (Expands dag run table v q ∨ Revises dag run table v q)) :
    Converged dag run table task.taskId n ↔ Converges dag run table task.taskId n :=
  ⟨converges_of_converged htask hcount,
    converged_of_converges htask hcount hn hblock hready⟩

end

/-! ### A task that is expanded, and one that grows again -/

/-- The unexpanded instance of a task of length two. -/
def unexpandedTable : TaskInstanceTable where
  rows := [{ taskId := 1, mapIndex := -1, state := none }]

/-- The task had length two, then one, and now two again. -/
def regrownTable : TaskInstanceTable where
  rows := [{ taskId := 1, mapIndex := 0, state := none },
    { taskId := 1, mapIndex := 1, state := some .removed }]

theorem unexpanded_block : BlockTable unexpandedTable 1 0 := by
  refine ⟨fun i hi => ?_, by decide⟩
  simp only [unexpandedTable, List.mem_singleton, exists_eq_left, true_and]
  omega

theorem regrown_block : BlockTable regrownTable 1 2 := by
  refine ⟨fun i hi => ?_, by decide⟩
  simp only [regrownTable, List.mem_cons, List.not_mem_nil, or_false, exists_eq_or_imp,
    exists_eq_left, true_and]
  omega

theorem unexpanded_visits : roundVisits mappedDag {} unexpandedTable =
    [⟨1, 0⟩, ⟨1, 0⟩, ⟨1, 1⟩] := by decide

theorem unexpanded_expands : Expands mappedDag {} unexpandedTable [] ⟨1, 0⟩ :=
  ⟨⟨[⟨1, 0⟩, ⟨1, 1⟩], unexpanded_visits.symm⟩, by decide, by decide⟩

theorem regrown_revises : Revises mappedDag {} regrownTable [] ⟨1, 0⟩ :=
  ⟨⟨[], by decide⟩, by decide, by decide, by decide, by decide⟩

/-- The first expansion gives the indexes of the mapping. -/
theorem unexpanded_converges : Converged mappedDag {} unexpandedTable 1 2 := by
  refine (@converged_iff mappedDag {} unexpandedTable mappedDag.tasks[0] 2 0 rfl rfl (by decide)
    unexpanded_block ⟨[], _, rfl, .inl unexpanded_expands⟩).mpr
    ⟨by decide, fun v r hvisit _ _ => ?_, fun r ti hti hid _ _ hno => ?_,
      fun v r ti hvisit _ hti _ hout _ => ?_⟩
  · obtain ⟨w, hw⟩ := hvisit
    rw [unexpanded_visits] at hw
    match v with
    | [] => cases hw; decide
    | [_] => cases hw; decide
    | [_, _] => cases hw; decide
    | _ :: _ :: _ :: _ => simp at hw
  · obtain ⟨row, hrow, -, rfl⟩ := load_get hti
    obtain ⟨t, i⟩ := r
    have hid : t = 1 := hid
    subst hid
    match i with
    | 0 => exact absurd (by rw [unexpanded_visits]; simp) hno
    | i + 1 => cases hti
  · obtain ⟨w, hw⟩ := hvisit
    rw [unexpanded_visits] at hw
    match v with
    | [] => cases hw; exact .inl ⟨unexpanded_expands, List.not_mem_nil⟩
    | [_] => cases hw; cases hti; exact absurd (by decide) hout
    | [_, _] => cases hw; cases hti; exact absurd (by decide) hout
    | _ :: _ :: _ :: _ => simp at hw

/-- Index 1 stays `REMOVED` when the task grows again: it is revised, but the row exists. -/
theorem regrown_not_converged :
    BlockTable regrownTable 1 2 ∧
      mappedDag.tasks[0].getMappedTiCount {} (filterTis mappedDag regrownTable) = .ok 2 ∧
      Revises mappedDag {} regrownTable [] ⟨1, 0⟩ ∧
      ¬Converged mappedDag {} regrownTable 1 2 := by
  refine ⟨regrown_block, rfl, regrown_revises, fun h => ?_⟩
  obtain ⟨ti, hti, hidx, hstate⟩ := (h 1).mpr (by decide)
  have hrow : ∀ ti ∈ (taskInstanceSchedulingDecisions mappedDag {} regrownTable).session.rowsOf 1,
      ti.mapIndex = 1 → ti.state = some .removed := by decide
  exact hstate (hrow ti hti hidx)

end Airflow
