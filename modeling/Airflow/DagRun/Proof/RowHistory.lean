import Airflow.DagRun.Proof.MappedPass

/-!
# The history of a row in a pass

What the visits of a pass do to one row of a task of known length:

* `inside_since`: a row inside the mapping keeps its state while it is not visited;
* `outside_since`: a row outside it is `REMOVED` by the visits that take it out (`TakesOut`), and
  keeps its state otherwise;
* `unmapped_begin`: the unexpanded row before it is visited.
-/

namespace Airflow

/-- A visit takes out a row outside a mapping of length `n`: a revision does, an expansion does so
with an index that is too high unless another transaction holds the row. -/
def TakesOut (dag : Dag) (run : RunData) (table : TaskInstanceTable) (n : Nat) (v : List TIRef)
    (r : TIRef) (ti : TaskInstance) : Prop :=
  Revises dag run table v r ∨ Expands dag run table v r ∧ n ≤ ti.mapIndex ∧ ti.locked = false

section
variable {dag : Dag} {run : RunData} {table : TaskInstanceTable} {v w : List TIRef} {r q : TIRef}
  {task : Operator} {n j : Nat} {a b : TaskInstance}

/-! ## One visit -/

/-- What a revision and an expansion do to a row outside the mapping. -/
theorem removeOutsideRow_of_outside (hlive : a.deleted = false) (hout : ¬inRange a.mapIndex n) :
    removeOutsideRow n a = a.setState (some .removed) := by
  rw [removeOutsideRow, if_pos ⟨by simp [hlive], hout⟩]

theorem removeFromRow_of_outside (hlive : a.deleted = false) :
    removeFromRow n a =
      if (n : Int) ≤ a.mapIndex ∧ a.locked = false then a.setState (some .removed) else a := by
  unfold removeFromRow
  simp only [hlive, Bool.not_false, true_and, Bool.not_eq_true', ge_iff_le]

/-- **A visit and a row outside the mapping that is not the one it expands.** -/
theorem IsVisit.outside_row (h : IsVisit dag run table v r)
    (htask : dag.getTask r.taskId = some task)
    (hcount : task.getMappedTiCount run (filterTis dag table) = .ok n)
    (ha : ((roundAfter dag run table v).session.view r.taskId)[j]? = some a)
    (hlive : a.deleted = false) (hout : ¬inRange a.mapIndex n)
    (hfound : Expands dag run table v r →
      ((visitEvaluation dag run table v r).session.findUnmapped r.taskId).any (·.pos = j) = false) :
    ∃ b, ((roundAfter dag run table (v ++ [r])).session.view r.taskId)[j]? = some b ∧
      b.mapIndex = a.mapIndex ∧ b.deleted = false ∧ b.locked = a.locked ∧
      (TakesOut dag run table n v r a ∧ b.state = some .removed ∨
        ¬TakesOut dag run table n v r a ∧
          b.state = if r.pos = j then (visitEvaluation dag run table v r).session.state r
            else a.state) := by
  generalize he : (visitEvaluation dag run table v r).session.state r = e
  have hset := modify_setState_getElem? r.pos e ha
  obtain ⟨a', ha', hidx, hdel, hlock, hstate⟩ : ∃ a', (if r.pos = j then a.setState e else a) = a' ∧
      a'.mapIndex = a.mapIndex ∧ a'.deleted = false ∧ a'.locked = a.locked ∧
      a'.state = if r.pos = j then e else a.state := by
    refine ⟨_, rfl, ?_⟩
    split
    · exact ⟨rfl, hlive, rfl, rfl⟩
    · exact ⟨rfl, hlive, rfl, rfl⟩
  rw [ha'] at hset
  have hquiet : ∀ rows, (roundAfter dag run table (v ++ [r])).session.view r.taskId = rows →
      rows[j]? = some a' → ¬TakesOut dag run table n v r a →
      ∃ b, ((roundAfter dag run table (v ++ [r])).session.view r.taskId)[j]? = some b ∧
        b.mapIndex = a.mapIndex ∧ b.deleted = false ∧ b.locked = a.locked ∧
        (TakesOut dag run table n v r a ∧ b.state = some .removed ∨
          ¬TakesOut dag run table n v r a ∧ b.state = if r.pos = j then e else a.state) := by
    intro rows hview hrow hno
    exact ⟨a', hview ▸ hrow, hidx, hdel, hlock, .inr ⟨hno, hstate⟩⟩
  subst he
  cases h.mapped htask hcount with
  | quiet hq view ready additional revised =>
    refine hquiet _ view hset ?_
    rintro (hrev | ⟨hexp, -⟩)
    · rcases hq with hmet | ⟨-, hsched⟩
      · rw [hrev.met] at hmet
        cases hmet
      · rw [hrev.schedulable] at hsched
        cases hsched
    · rcases hq with hmet | ⟨hge, -⟩
      · rw [hexp.met] at hmet
        cases hmet
      · exact absurd hexp.unmapped (by omega)
  | append hmet hge hsched hold view ready additional revised =>
    refine hquiet _ view hset ?_
    rintro (hrev | ⟨hexp, -⟩)
    · exact hrev.first hold
    · exact absurd hexp.unmapped (by omega)
  | revise hmet hge hsched hnew view ready additional revised =>
    refine ⟨_, by rw [view, reviseRows_old hset], ?_⟩
    rw [removeOutsideRow_of_outside hdel (hidx ▸ hout)]
    exact ⟨hidx, hdel, hlock, .inl ⟨.inl ⟨h, hmet, hge, hsched, hnew⟩, rfl⟩⟩
  | expand hmet hneg state unmapped k view hunmapped hnodup ready additional revised =>
    have hexp : Expands dag run table v r := ⟨h, hmet, hneg⟩
    have hrest := unmappedRows_getElem? (n := n)
      ((visitEvaluation dag run table v r).session.findUnmapped r.taskId) hset
    rw [hfound hexp, if_neg Bool.false_ne_true] at hrest
    have hnot : ¬Revises dag run table v r := fun hrev => absurd hneg (by
      have := hrev.mapped
      omega)
    refine ⟨_, by rw [view, fillRows_old hrest], ?_⟩
    rw [removeFromRow_of_outside hdel, hidx, hlock]
    split
    · next htake => exact ⟨hidx, hdel, hlock, .inl ⟨.inr ⟨hexp, htake⟩, rfl⟩⟩
    · next htake =>
      exact ⟨hidx, hdel, hlock, .inr ⟨fun ht => ht.elim hnot fun hx => htake hx.2, hstate⟩⟩

/-- An expansion finds the instance that is visited, if any. -/
theorem Expands.found (h : Expands dag run table v r) {u : TIRef}
    (hu : (visitEvaluation dag run table v r).session.findUnmapped r.taskId = some u) : u = r := by
  have hw := IsVisit.written dag run table v r
  refine ((roundAfter_inv h.visit.prefix_left).rows.written (roundVisits_visitable h.visit.mem)
    hw).findTi_unmapped ?_ (by simp +contextual) hu
  exact hw.mapIndex.trans_lt h.unmapped

/-- An expansion does not find a row that is not visited. -/
theorem Expands.not_found (h : Expands dag run table v r) (hj : r.pos ≠ j) :
    ((visitEvaluation dag run table v r).session.findUnmapped r.taskId).any (·.pos = j) = false := by
  cases hu : (visitEvaluation dag run table v r).session.findUnmapped r.taskId with
  | none => rfl
  | some u =>
    rw [h.found hu]
    exact decide_eq_false hj

/-! ## Many visits -/

theorem pos_ne (hid : r.taskId = q.taskId) (hne : r ≠ q) : r.pos ≠ q.pos := by
  intro hpos
  obtain ⟨t, i⟩ := r
  obtain ⟨t', i'⟩ := q
  dsimp only at hid hpos
  subst hid hpos
  exact hne rfl

/-- **A row inside the mapping keeps its state while it is not visited.** -/
theorem inside_since (htask : dag.getTask q.taskId = some task)
    (hcount : task.getMappedTiCount run (filterTis dag table) = .ok n)
    (hv : v ++ w <+: roundVisits dag run table) (hq : q ∉ w)
    (ha : ((roundAfter dag run table v).session.view q.taskId)[q.pos]? = some a)
    (hin : inRange a.mapIndex n) :
    ∃ b, ((roundAfter dag run table (v ++ w)).session.view q.taskId)[q.pos]? = some b ∧
      b.mapIndex = a.mapIndex ∧ b.deleted = a.deleted ∧ b.state = a.state := by
  induction w using List.reverseRecOn with
  | nil => exact ⟨a, by rwa [List.append_nil], rfl, rfl, rfl⟩
  | append_singleton w r ih =>
    rw [List.mem_append, not_or, List.mem_singleton] at hq
    rw [← List.append_assoc] at hv ⊢
    obtain ⟨b, hb, hidx, hdel, hstate⟩ := ih ((List.prefix_append _ [r]).trans hv) hq.1
    by_cases hid : r.taskId = q.taskId
    · rw [← hid] at hb htask ⊢
      obtain ⟨c, hc, hrow, -⟩ := IsVisit.row_of hv htask hcount hb
      have hge : 0 ≤ b.mapIndex := hidx ▸ (of_decide_eq_true hin).1
      obtain ⟨hidx', hdel'⟩ := hrow.kept hge
      refine ⟨c, hc, hidx'.trans hidx, hdel'.trans hdel, ?_⟩
      rcases hrow.state with hs | ⟨-, hout⟩ | ⟨-, hneg⟩
      · rw [hs, if_neg (pos_ne hid (Ne.symm hq.2)), hstate]
      · exact absurd (hidx ▸ hin) hout
      · omega
    · rw [IsVisit.other _ hid]
      exact ⟨b, hb, hidx, hdel, hstate⟩

/-- **A row outside the mapping is taken out or keeps its state while it is not visited.** -/
theorem outside_since (htask : dag.getTask q.taskId = some task)
    (hcount : task.getMappedTiCount run (filterTis dag table) = .ok n)
    (hv : v ++ w <+: roundVisits dag run table) (hq : q ∉ w)
    (ha : ((roundAfter dag run table v).session.view q.taskId)[q.pos]? = some a)
    (hlive : a.deleted = false) (hout : ¬inRange a.mapIndex n) :
    ∃ b, ((roundAfter dag run table (v ++ w)).session.view q.taskId)[q.pos]? = some b ∧
      b.mapIndex = a.mapIndex ∧ b.deleted = false ∧ b.locked = a.locked ∧
      ((∃ w₁ r w₂, w = w₁ ++ r :: w₂ ∧ r.taskId = q.taskId ∧
          TakesOut dag run table n (v ++ w₁) r a) ∧ b.state = some .removed ∨
        (¬∃ w₁ r w₂, w = w₁ ++ r :: w₂ ∧ r.taskId = q.taskId ∧
          TakesOut dag run table n (v ++ w₁) r a) ∧ b.state = a.state) := by
  induction w using List.reverseRecOn with
  | nil =>
    refine ⟨a, by rwa [List.append_nil], rfl, hlive, rfl, .inr ⟨?_, rfl⟩⟩
    rintro ⟨w₁, r, w₂, hw, -⟩
    simp at hw
  | append_singleton w r ih =>
    rw [List.mem_append, not_or, List.mem_singleton] at hq
    rw [← List.append_assoc] at hv ⊢
    obtain ⟨b, hb, hidx, hdel, hlock, hstate⟩ := ih ((List.prefix_append _ [r]).trans hv) hq.1
    have hsame : TakesOut dag run table n (v ++ w) r b ↔ TakesOut dag run table n (v ++ w) r a := by
      rw [TakesOut, TakesOut, hidx, hlock]
    -- the visits that take the row out are those before and the last one
    have hiff : (∃ w₁ x w₂, w ++ [r] = w₁ ++ x :: w₂ ∧ x.taskId = q.taskId ∧
        TakesOut dag run table n (v ++ w₁) x a) ↔
        (∃ w₁ x w₂, w = w₁ ++ x :: w₂ ∧ x.taskId = q.taskId ∧
          TakesOut dag run table n (v ++ w₁) x a) ∨
        (r.taskId = q.taskId ∧ TakesOut dag run table n (v ++ w) r a) := by
      constructor
      · rintro ⟨w₁, x, w₂, hw, hx⟩
        rcases List.eq_nil_or_concat w₂ with rfl | ⟨w₂, y, rfl⟩
        · obtain ⟨rfl, hxr⟩ := List.append_inj' hw rfl
          cases hxr
          exact .inr hx
        · rw [List.concat_eq_append, ← List.cons_append, ← List.append_assoc] at hw
          obtain ⟨rfl, -⟩ := List.append_inj' hw rfl
          exact .inl ⟨w₁, x, w₂, rfl, hx⟩
      · rintro (⟨w₁, x, w₂, rfl, hx⟩ | hx)
        · exact ⟨w₁, x, w₂ ++ [r], by rw [List.append_assoc, List.cons_append], hx⟩
        · exact ⟨w, r, [], rfl, hx⟩
    rw [hiff]
    by_cases hid : r.taskId = q.taskId
    · have hpos := pos_ne hid (Ne.symm hq.2)
      rw [← hid] at hb htask hstate ⊢
      obtain ⟨c, hc, hidx', hdel', hlock', hor⟩ := IsVisit.outside_row hv htask hcount hb hdel
        (hidx ▸ hout) fun hexp => hexp.not_found hpos
      refine ⟨c, hc, hidx'.trans hidx, hdel', hlock'.trans hlock, ?_⟩
      rw [hsame, if_neg hpos] at hor
      rcases hor with ⟨htake, hc'⟩ | ⟨hno, hc'⟩
      · exact .inl ⟨.inr ⟨rfl, htake⟩, hc'⟩
      · rcases hstate with ⟨hex, hs⟩ | ⟨hnex, hs⟩
        · exact .inl ⟨.inl hex, hc'.trans hs⟩
        · exact .inr ⟨fun hx => hx.elim hnex fun hx => hno hx.2, hc'.trans hs⟩
    · rw [IsVisit.other _ hid]
      refine ⟨b, hb, hidx, hdel, hlock, ?_⟩
      rcases hstate with ⟨hex, hs⟩ | ⟨hnex, hs⟩
      · exact .inl ⟨.inl hex, hs⟩
      · exact .inr ⟨fun hx => hx.elim hnex fun hx => hid hx.1, hs⟩

/-- A task is in the list of revised tasks when a visit has revised it. -/
theorem revised_iff (htask : dag.getTask task.taskId = some task)
    (hcount : task.getMappedTiCount run (filterTis dag table) = .ok n)
    (hv : v <+: roundVisits dag run table) :
    task.taskId ∈ (roundAfter dag run table v).revisedMapIndexTaskIds ↔
      ∃ v' r w', v = v' ++ r :: w' ∧ r.taskId = task.taskId ∧ Revises dag run table v' r := by
  refine roundAfter_induction (M := fun v =>
    task.taskId ∈ (roundAfter dag run table v).revisedMapIndexTaskIds ↔
      ∃ v' r w', v = v' ++ r :: w' ∧ r.taskId = task.taskId ∧ Revises dag run table v' r)
    (iff_of_false (List.not_mem_nil) fun h => ?_) (fun v x h ih => ?_) hv
  · obtain ⟨v', r, w', hnil, -⟩ := h
    simp at hnil
  · have hsplit : (∃ v' r w', v ++ [x] = v' ++ r :: w' ∧ r.taskId = task.taskId ∧
        Revises dag run table v' r) ↔
        task.taskId ∈ (roundAfter dag run table v).revisedMapIndexTaskIds ∨
          x.taskId = task.taskId ∧ Revises dag run table v x := by
      rw [ih]
      constructor
      · rintro ⟨v', r, w', hw, hr⟩
        rcases List.eq_nil_or_concat w' with rfl | ⟨w', y, rfl⟩
        · obtain ⟨rfl, hxr⟩ := List.append_inj' hw rfl
          cases hxr
          exact .inr hr
        · rw [List.concat_eq_append, ← List.cons_append, ← List.append_assoc] at hw
          obtain ⟨rfl, -⟩ := List.append_inj' hw rfl
          exact .inl ⟨v', r, w', rfl, hr⟩
      · rintro (⟨v', r, w', rfl, hr⟩ | hr)
        · exact ⟨v', r, w' ++ [x], by rw [List.append_assoc, List.cons_append], hr⟩
        · exact ⟨v, x, [], rfl, hr⟩
    rw [hsplit]
    by_cases hid : x.taskId = task.taskId
    · rw [← hid] at htask ⊢
      have hnot : ¬Revises dag run table v x →
          ((roundAfter dag run table (v ++ [x])).revisedMapIndexTaskIds =
            (roundAfter dag run table v).revisedMapIndexTaskIds) →
          (x.taskId ∈ (roundAfter dag run table (v ++ [x])).revisedMapIndexTaskIds ↔
            x.taskId ∈ (roundAfter dag run table v).revisedMapIndexTaskIds ∨
              x.taskId = x.taskId ∧ Revises dag run table v x) := by
        intro hno heq
        rw [heq]
        exact ⟨.inl, fun hor => hor.elim id fun hr => absurd hr.2 hno⟩
      cases h.mapped htask hcount with
      | quiet hq view ready additional revised =>
        refine hnot (fun hrev => ?_) revised
        rcases hq with hmet | ⟨-, hsched⟩
        · rw [hrev.met] at hmet
          cases hmet
        · rw [hrev.schedulable] at hsched
          cases hsched
      | expand hmet hneg state unmapped k view hunmapped hnodup ready additional revised =>
        exact hnot (fun hrev => absurd hneg (by have := hrev.mapped; omega)) revised
      | append hmet hge hsched hold view ready additional revised =>
        exact hnot (fun hrev => hrev.first hold) revised
      | revise hmet hge hsched hnew view ready additional revised =>
        rw [revised]
        exact iff_of_true List.mem_cons_self (.inr ⟨rfl, h, hmet, hge, hsched, hnew⟩)
    · rw [(IsVisit.frame dag run table v x).revised task.taskId (Ne.symm hid)]
      exact ⟨.inl, fun hor => hor.elim id fun hr => absurd hr.1 hid⟩

end

/-! ## States in the database -/

section
variable {dag : Dag} {run : RunData} {table : TaskInstanceTable} {v w : List TIRef} {r q : TIRef}
  {task : Operator} {n : Nat} {a b : TaskInstance}

theorem addMissing_flushed (s : Session) (t : TaskId) (existing : List Int) (n : Nat) :
    (s.addMissing t existing n).1 = s ∨
      ∃ s' : Session, (s.addMissing t existing n).1 = s'.flush := by
  induction n with
  | zero => exact .inl rfl
  | succ n ih =>
    simp only [Session.addMissing]
    split
    · exact ih
    · exact .inr ⟨_, rfl⟩

theorem reviseMapIndexes_flushed (run : RunData) (s : Session) (task : Operator) :
    (s.reviseMapIndexesIfMapped run task).1 = s ∨
      ∃ s' : Session, (s.reviseMapIndexesIfMapped run task).1 = s'.flush := by
  unfold Session.reviseMapIndexesIfMapped
  split
  · exact .inl rfl
  · dsimp only
    split
    · exact addMissing_flushed s _ _ _
    · rcases addMissing_flushed (s.removeOutside task.taskId _).flush task.taskId _ _ with h | h
      · exact .inr ⟨_, h⟩
      · exact .inr h

/-- After a visit the session is that of the evaluation, or flushed. -/
theorem ReadyPass.visit_flushed (run : RunData) (ctx : DepContext) (p : ReadyPass)
    (htask : dag.getTask r.taskId = some task) :
    (p.visit dag run ctx r).session = (evaluate dag run ctx p.session r).session ∨
      ∃ s : Session, (p.visit dag run ctx r).session = s.flush := by
  unfold ReadyPass.visit
  rw [htask, evaluate_eq run htask]
  dsimp only
  split
  · exact .inl rfl
  · split
    · next s' newTis he =>
      obtain ⟨-, total, heq⟩ := expandMappedTaskIfNeeded_some he
      exact .inr ⟨_, congrArg Prod.fst heq⟩
    · unfold ReadyPass.markReady
      split
      · exact .inl rfl
      · split
        · exact .inl rfl
        · exact reviseMapIndexes_flushed run _ task

/-- The state of an instance that was not visited is the one in the database. -/
theorem unvisited_clean (htask : dag.getTask q.taskId = some task)
    (hv : v <+: roundVisits dag run table) (hq : q ∉ v) {ti : TaskInstance}
    (h : (roundAfter dag run table v).session.get q = some ti) : ti.dbState = ti.state := by
  revert hq ti
  refine roundAfter_induction (M := fun v => q ∉ v → ∀ {ti : TaskInstance},
    (roundAfter dag run table v).session.get q = some ti → ti.dbState = ti.state)
    (fun _ ti h => filterTis_clean dag table q.taskId ti (List.mem_of_getElem? h))
    (fun v r hvisit ih hq ti h => ?_) hv
  rw [List.mem_append, not_or, List.mem_singleton] at hq
  have hold := @ih hq.1
  have hflush : ∀ s : Session, s.flush.get q = some ti → ti.dbState = ti.state := by
    intro s hs
    rw [Session.get_flush] at hs
    obtain ⟨ti', -, rfl⟩ := Option.map_eq_some_iff.mp hs
    rfl
  by_cases hid : r.taskId = q.taskId
  · rw [roundAfter_append] at h
    rcases ReadyPass.visit_flushed run (readyContext (finishedTis dag table))
      (roundAfter dag run table v) (hid ▸ htask) with hs | ⟨s, hs⟩
    · rw [hs] at h
      rcases IsVisit.written dag run table v r with hw | ⟨e, -, hw⟩
      · rw [← visitEvaluation, hw] at h
        exact hold h
      · rw [← visitEvaluation, hw, Session.setState, Session.get_assign_of_ne _ hq.2] at h
        exact hold h
    · rw [hs] at h
      exact hflush s h
  · rcases ((IsVisit.frame dag run table v r).other q.taskId (Ne.symm hid)).get rfl with hs | hs
    · rw [hs] at h
      exact hold h
    · rw [hs] at h
      exact hflush _ h

/-! ## The unexpanded row -/

theorem row_of_get {s : Session} {ti : TaskInstance} (h : s.get q = some ti) :
    (s.view q.taskId)[q.pos]? = some ti.flushed := by
  rw [view_getElem?, h]
  rfl

theorem get_of_row {s : Session} (h : (s.view q.taskId)[q.pos]? = some a) :
    ∃ ti, s.get q = some ti ∧ ti.flushed = a := by
  rw [view_getElem?] at h
  exact Option.map_eq_some_iff.mp h

/-- Only a revision takes out a row without a map index. -/
theorem takesOut_unmapped (hneg : a.mapIndex < 0) :
    TakesOut dag run table n v r a ↔ Revises dag run table v r := by
  refine or_iff_left fun h => ?_
  have := h.2.1
  omega

/-- **The unexpanded row before it is visited** has the state that it began with, in the database
too, or is `REMOVED` because the task was revised. -/
theorem unmapped_begin (htask : dag.getTask q.taskId = some task)
    (hcount : task.getMappedTiCount run (filterTis dag table) = .ok n)
    (hv : v <+: roundVisits dag run table) (hq : q ∉ v) {ti₀ : TaskInstance}
    (h₀ : (filterTis dag table).get q = some ti₀) (hneg : ti₀.mapIndex < 0) :
    ∃ ti, (roundAfter dag run table v).session.get q = some ti ∧ ti.dbState = ti.state ∧
      (q.taskId ∈ (roundAfter dag run table v).revisedMapIndexTaskIds ∧
          ti.state = some .removed ∨
        q.taskId ∉ (roundAfter dag run table v).revisedMapIndexTaskIds ∧
          ti.state = ti₀.state) := by
  have hid : task.taskId = q.taskId := Dag.getTask_taskId htask
  have hrow := row_of_get h₀
  obtain ⟨b, hb, hidx, -, -, hstate⟩ := outside_since (v := []) htask hcount hv hq hrow
    (begin_live (Dag.getTask_mem htask) hrow) (by
      simp only [inRange, decide_eq_true_eq]
      have : ti₀.flushed.mapIndex = ti₀.mapIndex := rfl
      omega)
  rw [List.nil_append] at hb
  obtain ⟨ti, hti, rfl⟩ := get_of_row hb
  refine ⟨ti, hti, unvisited_clean htask hv hq hti, ?_⟩
  have hrev := revised_iff (hid ▸ htask) hcount hv
  rw [hid] at hrev
  have htakes : ∀ v' r, TakesOut dag run table n v' r ti₀.flushed ↔ Revises dag run table v' r :=
    fun v' r => takesOut_unmapped hneg
  simp only [List.nil_append, htakes] at hstate
  rw [hrev]
  exact hstate

theorem additional_mono (hx : r ∈ (roundAfter dag run table v).additionalTis) (w : List TIRef) :
    r ∈ (roundAfter dag run table (v ++ w)).additionalTis := by
  induction w using List.reverseRecOn with
  | nil => rwa [List.append_nil]
  | append_singleton w x ih =>
    obtain ⟨new, hnew, -⟩ := (IsVisit.frame dag run table (v ++ w) x).additional
    rw [← List.append_assoc, hnew]
    exact List.mem_append_left _ ih

/-- An instance added by a visit to an unexpanded one is visited later. -/
theorem Expands.visits_added (htask : dag.getTask task.taskId = some task)
    (hcount : task.getMappedTiCount run (filterTis dag table) = .ok n)
    (hid : r.taskId = task.taskId) (hv : roundVisits dag run table = v ++ r :: w)
    (h : Expands dag run table v r)
    (hx : q ∈ (roundAfter dag run table (v ++ [r])).additionalTis) : q ∈ w := by
  rcases roundVisits_cases hv with ⟨w', hl, rfl⟩ | ⟨v', rfl, hadd⟩
  · refine List.mem_append_right _ ?_
    rw [hl, List.append_cons]
    exact additional_mono hx w'
  · -- those that expansion added have a map index
    have hmem : r ∈ (roundAfter dag run table (schedulableTis dag table)).additionalTis := by
      rw [hadd]
      simp
    obtain ⟨ti, hti, hge⟩ := roundAfter_indexed ((roundAfter_additional htask hcount
      (List.prefix_append _ _)).2 r hmem hid).2 v'
    have hneg := h.unmapped
    rw [Session.mapIndex_eq hti] at hneg
    omega

/-- An instance that is left without a map index is not visited again. -/
theorem unmapped_last (htask : dag.getTask task.taskId = some task)
    (hcount : task.getMappedTiCount run (filterTis dag table) = .ok n)
    (hid : r.taskId = task.taskId) (hv : roundVisits dag run table = v ++ r :: w)
    (hb : ((roundAfter dag run table (v ++ [r])).session.view r.taskId)[r.pos]? = some b)
    (hlive : b.deleted = false) (hneg : b.mapIndex < 0) : r ∉ w := by
  have hout : ¬inRange b.mapIndex n := by
    simp only [inRange, decide_eq_true_eq]
    omega
  have hindexed : ∀ w', Indexed (roundAfter dag run table (v ++ r :: w')).session r →
      v ++ r :: w' <+: roundVisits dag run table → r ∉ w' → False := by
    intro w' hidx hpre hr
    obtain ⟨a, ha, hge⟩ := indexed_iff.mp hidx
    rw [List.append_cons] at hpre ha
    obtain ⟨c, hc, hsame, -⟩ := outside_since (hid ▸ htask) hcount hpre hr hb hlive hout
    rw [ha] at hc
    cases hc
    omega
  have hlater : ∀ x : TIRef, x = r →
      x ∉ (roundAfter dag run table (schedulableTis dag table)).additionalTis := by
    rintro x rfl hmem
    have hidx := ((roundAfter_additional htask hcount (List.prefix_append _ _)).2 x hmem hid).2
    rcases roundVisits_cases hv with ⟨w', hl, -⟩ | ⟨v', rfl, -⟩
    · have hnodup := (visited_schedulableTis dag table).nodup
      rw [hl] at hnodup
      have hfresh := (List.nodup_cons.mp (List.nodup_middle.mp hnodup)).1
      rw [hl] at hidx
      exact hindexed w' hidx (hl ▸ List.prefix_append _ _) fun hm =>
        hfresh (List.mem_append_right _ hm)
    · obtain ⟨c, hc, hge⟩ := indexed_iff.mp (roundAfter_indexed hidx (v' ++ [x]))
      rw [← List.append_assoc, hb] at hc
      cases hc
      omega
  rcases roundVisits_cases hv with ⟨w', hl, rfl⟩ | ⟨v', rfl, hadd⟩
  · have hnodup := (visited_schedulableTis dag table).nodup
    rw [hl] at hnodup
    have hfresh := (List.nodup_cons.mp (List.nodup_middle.mp hnodup)).1
    rw [List.mem_append, not_or]
    exact ⟨fun hm => hfresh (List.mem_append_right _ hm), hlater r rfl⟩
  · refine absurd ?_ (hlater r rfl)
    rw [hadd]
    simp

/-! ## New rows -/

/-- A row that a pass creates and does not visit has no state. -/
theorem created_state (htask : dag.getTask q.taskId = some task)
    (hcount : task.getMappedTiCount run (filterTis dag table) = .ok n)
    (hq : q ∉ roundVisits dag run table)
    (hnone : ((filterTis dag table).view q.taskId)[q.pos]? = none)
    (hv : v <+: roundVisits dag run table)
    (ha : ((roundAfter dag run table v).session.view q.taskId)[q.pos]? = some a) :
    a.state = none := by
  have hqid : task.taskId = q.taskId := Dag.getTask_taskId htask
  revert a
  refine roundAfter_induction (M := fun v => ∀ {a},
    ((roundAfter dag run table v).session.view q.taskId)[q.pos]? = some a → a.state = none)
    (fun {a} ha => ?_) (fun v r h ih b hb => ?_) hv
  · rw [roundAfter_nil, hnone] at ha
    cases ha
  · have hne : r ≠ q := fun heq => hq (heq ▸ h.mem)
    cases ha : ((roundAfter dag run table v).session.view q.taskId)[q.pos]? with
    | some a =>
      have hin := new_since (v := []) (hqid ▸ htask) hcount h.prefix_left (hqid ▸ hnone) (hqid ▸ ha)
      obtain ⟨c, hc, -, -, hstate⟩ := inside_since (w := [r]) htask hcount h
        (by simpa using Ne.symm hne) ha hin.2
      rw [hb] at hc
      cases hc
      rw [hstate]
      exact ih ha
    | none =>
      by_cases hid : r.taskId = q.taskId
      · rw [← hid] at htask ha hb
        obtain ⟨w, hw⟩ := h
        rw [List.append_assoc, List.singleton_append] at hw
        have h : IsVisit dag run table v r := ⟨w, by rw [List.append_assoc]; exact hw⟩
        have hset := modify_none r.pos
          (.setState ((visitEvaluation dag run table v r).session.state r)) ha
        cases h.mapped htask hcount with
        | quiet hq' view ready additional revised =>
          rw [view, hset] at hb
          cases hb
        | append hmet hidx hsched hold view ready additional revised =>
          rw [view, hset] at hb
          cases hb
        | revise hmet hidx hsched hnew view ready additional revised =>
          rw [view] at hb
          obtain ⟨i, -, rfl⟩ := reviseRows_new hb hset
          rfl
        | expand hmet hneg state unmapped k view hunmapped hnodup ready additional revised length =>
          -- it is one of the instances that the expansion adds
          refine absurd ?_ hq
          have hlt := (List.getElem?_eq_some_iff.mp hb).1
          rw [List.getElem?_eq_none_iff] at ha
          have hmem : q ∈ (roundAfter dag run table (v ++ [r])).additionalTis := by
            rw [additional]
            refine List.mem_append_right _ (List.mem_append_right _ (List.mem_map.mpr
              ⟨q.pos - ((roundAfter dag run table v).session.view r.taskId).length, ?_, ?_⟩))
            · rw [List.mem_range]
              omega
            · rw [Nat.add_sub_cancel' ha, hid]
          have hadd := Expands.visits_added (hqid ▸ hid ▸ htask) hcount (hid.trans hqid.symm) hw.symm
            ⟨h, hmet, hneg⟩ hmem
          rw [← hw]
          exact List.mem_append_right _ (List.mem_cons_of_mem _ hadd)
      · rw [IsVisit.other _ hid, ha] at hb
        cases hb

end

end Airflow
