import Airflow.DagRun.Proof.PassFrame

/-!
# Two sessions side by side

`TaskSim` relates the objects of a task in the session of a round over the DAG and in that of the
same round over a subset of it. They agree but for what was flushed when, and but for an unexpanded
instance whose mapping is not populated: the subset leaves it, the DAG sets it to `UPSTREAM_FAILED`.

* `TaskSim.expandTo`, `TaskSim.reviseMapIndexes`: expansion and revision keep the relation and
  return the same instances;
* `ReadyPass.visit_sim`: so does a visit to an instance whose dependencies agree.
-/

namespace Airflow

/-! ## Related options -/

section
variable {α β α' β' : Type} {R : α → β → Prop} {o : Option α} {o' : Option β}

theorem rel_imp {S : α → β → Prop} (h : Option.Rel R o o') (hS : ∀ a b, R a b → S a b) :
    Option.Rel S o o' := by
  cases h with
  | none => exact .none
  | some hab => exact .some (hS _ _ hab)

theorem rel_map {S : α' → β' → Prop} {f : α → α'} {g : β → β'} (h : Option.Rel R o o')
    (hS : ∀ a b, R a b → S (f a) (g b)) : Option.Rel S (o.map f) (o'.map g) := by
  cases h with
  | none => exact .none
  | some hab => exact .some (hS _ _ hab)

theorem rel_map_left {S : α' → β → Prop} {f : α → α'} (h : Option.Rel R o o')
    (hS : ∀ a b, R a b → S (f a) b) : Option.Rel S (o.map f) o' := by
  cases h with
  | none => exact .none
  | some hab => exact .some (hS _ _ hab)

theorem rel_map_right {S : α → β' → Prop} {g : β → β'} (h : Option.Rel R o o')
    (hS : ∀ a b, R a b → S a (g b)) : Option.Rel S o (o'.map g) := by
  cases h with
  | none => exact .none
  | some hab => exact .some (hS _ _ hab)

theorem rel_cases (h : Option.Rel R o o') :
    (o = none ∧ o' = none) ∨ ∃ a b, o = some a ∧ o' = some b ∧ R a b := by
  cases h with
  | none => exact .inl ⟨rfl, rfl⟩
  | some hab => exact .inr ⟨_, _, rfl, rfl, hab⟩

theorem map_eq_of_rel {γ : Type} {f : α → γ} {g : β → γ} (h : Option.Rel R o o')
    (hfg : ∀ a b, R a b → f a = g b) : o.map f = o'.map g := by
  cases h with
  | none => rfl
  | some hab => exact congrArg some (hfg _ _ hab)

end

/-! ## Related objects -/

/-- An object of the round over the DAG and the same object of the round over the subset. -/
structure RowAgree (visited : Prop) (ti ti' : TaskInstance) : Prop where
  fixed : ti.fixed = ti'.fixed
  state : ti.state = ti'.state ∨ (visited ∧ ti.mapIndex = -1 ∧
    ti.state = some .upstreamFailed ∧ isDependencyState ti'.state = false)

/-- Moreover, an unmapped instance that is still to be visited is as in the database. -/
structure RowSim (visited : Prop) (ti ti' : TaskInstance) : Prop
    extends RowAgree visited ti ti' where
  fresh : ti.mapIndex = -1 → ¬visited → ti.dbState = ti.state ∧ ti'.dbState = ti'.state

/-- The objects of task `t` are related. -/
def TaskSim (visited : List TIRef) (s s' : Session) (t : TaskId) : Prop :=
  ∀ r, r.taskId = t → Option.Rel (RowSim (r ∈ visited)) (s.get r) (s'.get r)

/-- The object is the only one of its task without a map index. -/
def OnlyUnmapped (s : Session) (r : TIRef) : Prop :=
  ∀ r' ti, r'.taskId = r.taskId → s.get r' = some ti → ti.mapIndex = -1 → r' = r

section
variable {v v' : Prop} {ti ti' : TaskInstance}

theorem RowAgree.mapIndex (h : RowAgree v ti ti') : ti'.mapIndex = ti.mapIndex :=
  (congrArg TaskInstance.mapIndex h.fixed).symm

theorem RowAgree.deleted (h : RowAgree v ti ti') : ti'.deleted = ti.deleted :=
  (congrArg TaskInstance.deleted h.fixed).symm

theorem RowAgree.locked (h : RowAgree v ti ti') : ti'.locked = ti.locked :=
  (congrArg TaskInstance.locked h.fixed).symm

theorem RowAgree.mono (h : RowAgree v ti ti') (hv : v → v') : RowAgree v' ti ti' :=
  ⟨h.fixed, h.state.imp_right fun ⟨hv₀, hrest⟩ => ⟨hv hv₀, hrest⟩⟩

/-- The state is the same but where the unmapped instance was left. -/
theorem RowAgree.state_eq (h : RowAgree v ti ti') (hne : v → 0 ≤ ti.mapIndex) :
    ti.state = ti'.state := by
  rcases h.state with heq | ⟨hv, hidx, -⟩
  · exact heq
  · have := hne hv
    omega

theorem RowAgree.flush (h : RowAgree v ti ti') :
    RowSim v { ti with dbState := ti.state } { ti' with dbState := ti'.state } :=
  ⟨⟨h.fixed, h.state⟩, fun _ _ => ⟨rfl, rfl⟩⟩

/-- Setting `REMOVED` under a condition that both satisfy or neither does. -/
theorem RowAgree.remove {c c' : Prop} [Decidable c] [Decidable c'] (h : RowAgree v ti ti')
    (hc : c ↔ c') : RowAgree v (if c then { ti with state := some .removed } else ti)
      (if c' then { ti' with state := some .removed } else ti') := by
  by_cases hcc : c
  · rw [if_pos hcc, if_pos (hc.mp hcc)]
    exact ⟨h.fixed, .inl rfl⟩
  · rw [if_neg hcc, if_neg (mt hc.mpr hcc)]
    exact h

end

/-! ## Related sessions -/

namespace TaskSim

variable {visited visited' : List TIRef} {s s' s₁ s₁' : Session} {t : TaskId}

theorem sameFixed (h : TaskSim visited s s' t) : SameFixed s s' t := by
  refine List.ext_getElem? fun i => ?_
  rw [List.getElem?_map, List.getElem?_map]
  exact map_eq_of_rel (h ⟨t, i⟩ rfl) fun _ _ hab => hab.fixed

theorem length_eq (h : TaskSim visited s s' t) : (s'.tis t).length = (s.tis t).length := by
  have hmap := congrArg List.length h.sameFixed
  rw [List.length_map, List.length_map] at hmap
  exact hmap.symm

theorem mono (h : TaskSim visited s s' t) (hv : ∀ r ∈ visited, r ∈ visited') :
    TaskSim visited' s s' t := by
  intro r hr
  refine rel_imp (h r hr) fun ti ti' hab => ⟨hab.toRowAgree.mono (hv r), fun hidx hn => ?_⟩
  exact hab.fresh hidx fun h' => hn (hv r h')

theorem congr_left (h : TaskSim visited s s' t) (heq : s₁.tis t = s.tis t) :
    TaskSim visited s₁ s' t := by
  intro r hr
  have hget : s₁.get r = s.get r := by rw [Session.get, hr, heq, ← hr, Session.get]
  rw [hget]
  exact h r hr

theorem congr_right (h : TaskSim visited s s' t) (heq : s₁'.tis t = s'.tis t) :
    TaskSim visited s s₁' t := by
  intro r hr
  have hget : s₁'.get r = s'.get r := by rw [Session.get, hr, heq, ← hr, Session.get]
  rw [hget]
  exact h r hr

theorem flush_left (h : TaskSim visited s s' t) : TaskSim visited s.flush s' t := by
  intro r hr
  rw [Session.get_flush]
  refine rel_map_left (h r hr) fun ti ti' hab => ⟨⟨hab.fixed, hab.state⟩, fun hidx hn => ?_⟩
  exact ⟨rfl, (hab.fresh hidx hn).2⟩

theorem flush_right (h : TaskSim visited s s' t) : TaskSim visited s s'.flush t := by
  intro r hr
  rw [Session.get_flush]
  refine rel_map_right (h r hr) fun ti ti' hab => ⟨⟨hab.fixed, hab.state⟩, fun hidx hn => ?_⟩
  exact ⟨(hab.fresh hidx hn).1, rfl⟩

/-- What is done to other tasks keeps the relation. -/
theorem of_other (h : TaskSim visited s s' t) (hs : SameOrFlushed s s₁ t)
    (hs' : SameOrFlushed s' s₁' t) : TaskSim visited s₁ s₁' t := by
  have hleft : TaskSim visited s₁ s' t :=
    hs.elim h.congr_left fun heq => h.flush_left.congr_left heq
  exact hs'.elim hleft.congr_right fun heq => hleft.flush_right.congr_right heq

/-- Removing instances of the task, with a flush. -/
theorem remove {c : TaskInstance → Prop} [DecidablePred c] (h : TaskSim visited s s' t)
    (hc : ∀ ti ti', RowAgree True ti ti' → (c ti ↔ c ti')) :
    TaskSim visited
      (s.assignAll t fun ti => if c ti then { ti with state := some .removed } else ti).flush
      (s'.assignAll t fun ti => if c ti then { ti with state := some .removed } else ti).flush
      t := by
  intro r hr
  rw [Session.get_flush, Session.get_flush, Session.get_assignAll, Session.get_assignAll,
    if_pos hr, if_pos hr, Option.map_map, Option.map_map]
  exact rel_map (h r hr) fun ti ti' hab =>
    (hab.toRowAgree.remove (hc ti ti' (hab.toRowAgree.mono fun _ => trivial))).flush

theorem add {ti : TaskInstance} (h : TaskSim visited s s' t) (hti : 0 ≤ ti.mapIndex) :
    TaskSim visited (s.add t ti) (s'.add t ti) t := by
  intro r hr
  rw [Session.get_add, Session.get_add, h.length_eq]
  split
  · exact .some ⟨⟨rfl, .inl rfl⟩, fun hidx => by omega⟩
  · exact h r hr

theorem addTis (h : TaskSim visited s s' t) (state : TIState) (start : Int) (hstart : 0 ≤ start)
    (n : Nat) :
    TaskSim visited (s.addTis t state start n).1 (s'.addTis t state start n).1 t ∧
      (s'.addTis t state start n).2 = (s.addTis t state start n).2 := by
  induction n with
  | zero => exact ⟨h, rfl⟩
  | succ n ih =>
    obtain ⟨hsim, heq⟩ := ih
    refine ⟨hsim.add (by dsimp only; omega), ?_⟩
    simp only [Session.addTis, heq, hsim.length_eq]

theorem addMissing (h : TaskSim visited s s' t) (existing : List Int) (n : Nat) :
    TaskSim visited (s.addMissing t existing n).1 (s'.addMissing t existing n).1 t ∧
      (s'.addMissing t existing n).2 = (s.addMissing t existing n).2 := by
  induction n with
  | zero => exact ⟨h, rfl⟩
  | succ n ih =>
    obtain ⟨hsim, heq⟩ := ih
    simp only [Session.addMissing]
    split
    · exact ⟨hsim, heq⟩
    · exact ⟨(hsim.add (by dsimp only; omega)).flush_left.flush_right,
        by rw [heq, hsim.length_eq]⟩

theorem mapIndexes_eq (h : TaskSim visited s s' t) :
    (s'.rowsOf t).map (·.mapIndex) = (s.rowsOf t).map (·.mapIndex) :=
  (h.sameFixed.map_rowsOf (fun _ => rfl) fun _ => rfl).symm

theorem currentMaxMapping_eq (h : TaskSim visited s s' t) :
    s'.currentMaxMapping t = s.currentMaxMapping t := by
  have hfold : ∀ s : Session, s.currentMaxMapping t =
      ((s.rowsOf t).map (·.mapIndex)).foldl (fun m i => if i > m then i else m) (-1) :=
    fun s => by rw [List.foldl_map, Session.currentMaxMapping]
  rw [hfold, hfold, h.mapIndexes_eq]

/-- **Revision keeps the relation and creates the same instances.** -/
theorem reviseMapIndexes {run : RunData} {task : Operator} (h : TaskSim visited s s' task.taskId)
    (hcount : task.getMappedTiCount run s' = task.getMappedTiCount run s) :
    TaskSim visited (s.reviseMapIndexesIfMapped run task).1
      (s'.reviseMapIndexesIfMapped run task).1 task.taskId ∧
      (s'.reviseMapIndexesIfMapped run task).2 = (s.reviseMapIndexesIfMapped run task).2 := by
  unfold Session.reviseMapIndexesIfMapped
  rw [hcount]
  split
  · exact ⟨h, rfl⟩
  · next n _ =>
    dsimp only
    rw [h.mapIndexes_eq]
    split
    · exact h.addMissing _ n
    · refine TaskSim.addMissing (h.remove fun ti ti' hab => ?_) _ n
      rw [hab.mapIndex, hab.deleted]

/-! ### The instance visited -/

section
variable {r : TIRef}

/-- What is assigned to one object of each session. -/
theorem assign {f g : TaskInstance → TaskInstance} (h : TaskSim visited s s' t)
    (hfg : ∀ ti ti', s.get r = some ti → s'.get r = some ti' → RowSim (r ∈ visited) ti ti' →
      RowSim (r ∈ visited) (f ti) (g ti')) :
    TaskSim visited (s.assign r f) (s'.assign r g) t := by
  intro r' hr'
  rw [Session.get_assign, Session.get_assign]
  split
  · next heq =>
    subst heq
    rcases rel_cases (h r' hr') with ⟨hn, hn'⟩ | ⟨ti, ti', hti, hti', hab⟩
    · rw [hn, hn']
      exact .none
    · rw [hti, hti']
      exact .some (hfg ti ti' hti hti' hab)
  · exact h r' hr'

/-- Evaluating the dependencies of the instance visited. -/
theorem evaluated (h : TaskSim visited s s' r.taskId) (hw : Session.Written r s s₁)
    (hw' : Session.Written r s' s₁') (hstate : s₁.state r = s₁'.state r) :
    TaskSim (visited ++ [r]) s₁ s₁' r.taskId := by
  intro r' hr'
  by_cases hne : r' = r
  · subst hne
    have hfixed := ((hw.sameStored r'.taskId).fixed.symm.trans
      (h.sameFixed.trans (hw'.sameStored r'.taskId).fixed)).get rfl
    simp only [Session.state] at hstate
    revert hfixed hstate
    cases s₁.get r' with
    | none =>
      cases s₁'.get r' with
      | none => exact fun _ _ => .none
      | some ti' => exact fun _ hfixed => by cases hfixed
    | some ti =>
      cases s₁'.get r' with
      | none => exact fun _ hfixed => by cases hfixed
      | some ti' =>
        intro hstate hfixed
        exact .some ⟨⟨Option.some.inj hfixed, .inl hstate⟩, fun _ hn => absurd (by simp) hn⟩
  · have hget := (WrittenOn.of_written hw).get r' hne
    have hget' := (WrittenOn.of_written hw').get r' hne
    rw [hget, hget']
    exact h.mono (fun _ hv => List.mem_append_left _ hv) r' hr'

theorem findTi_eq (h : TaskSim visited s s' r.taskId) (honly : OnlyUnmapped s r)
    (hdb : (s.get r).map (·.dbState) = (s'.get r).map (·.dbState)) :
    (s'.findTi r.taskId fun ti =>
        !ti.deleted ∧ ti.mapIndex = -1 ∧ State.isUnfinished ti.dbState) =
      s.findTi r.taskId fun ti =>
        !ti.deleted ∧ ti.mapIndex = -1 ∧ State.isUnfinished ti.dbState := by
  have hmap : (s'.tis r.taskId).map (fun ti : TaskInstance =>
      decide ((!ti.deleted) = true ∧ ti.mapIndex = -1 ∧ State.isUnfinished ti.dbState = true)) =
      (s.tis r.taskId).map fun ti : TaskInstance =>
      decide ((!ti.deleted) = true ∧ ti.mapIndex = -1 ∧ State.isUnfinished ti.dbState = true) := by
    refine List.ext_getElem? fun i => ?_
    rw [List.getElem?_map, List.getElem?_map]
    have heq : ∀ s : Session, (s.tis r.taskId)[i]? = s.get ⟨r.taskId, i⟩ := fun _ => rfl
    rw [heq, heq]
    rcases rel_cases (h ⟨r.taskId, i⟩ rfl) with ⟨hn, hn'⟩ | ⟨ti, ti', hti, hti', hab⟩
    · rw [hn, hn']
    · rw [hti, hti', Option.map_some, Option.map_some, hab.mapIndex, hab.deleted]
      by_cases hidx : ti.mapIndex = -1
      · rw [← honly ⟨r.taskId, i⟩ ti rfl hti hidx, hti, hti'] at hdb
        have hdb' : ti.dbState = ti'.dbState := Option.some.inj hdb
        rw [hdb']
      · simp only [hidx, false_and, and_false]
  have hfind : ∀ (l : List TaskInstance) (p : TaskInstance → Bool),
      l.findIdx? p = (l.map p).findIdx? id := fun l p => by rw [List.findIdx?_map]; rfl
  unfold Session.findTi
  rw [hfind, hfind, hmap]

/-- What expansion makes of the unmapped instance. -/
theorem expandUnmapped {isPartial isPartial' : Bool} {total : Option Nat}
    (h : TaskSim visited s s' r.taskId) (hr : r ∈ visited) (honly : OnlyUnmapped s r)
    (hpart : isPartial = true → isPartial' = true) (hstate : s.state r = s'.state r)
    (hdb : (s.get r).map (·.dbState) = (s'.get r).map (·.dbState))
    (hleft : total = none → isDependencyState (s'.state r) = false) :
    TaskSim visited (s.expandUnmapped isPartial r.taskId total).1
        (s'.expandUnmapped isPartial' r.taskId total).1 r.taskId ∧
      (s'.expandUnmapped isPartial' r.taskId total).2 =
        (s.expandUnmapped isPartial r.taskId total).2 := by
  unfold Session.expandUnmapped
  rw [h.findTi_eq honly hdb]
  split
  · exact ⟨h, rfl⟩
  · next u hu =>
    obtain ⟨htask, tiU, hU, hp⟩ := RowInv.findTi_spec hu
    have hidx : tiU.mapIndex = -1 := (of_decide_eq_true hp).2.1
    obtain rfl : u = r := honly u tiU htask hU hidx
    match total with
    | none =>
      refine ⟨?_, rfl⟩
      dsimp only
      cases isPartial' with
      | false =>
        have hnot : isPartial = false := Bool.eq_false_iff.mpr fun h' => by cases hpart h'
        rw [hnot]
        exact h.assign fun ti ti' _ _ hab =>
          ⟨⟨hab.fixed, .inl rfl⟩, fun _ hn => absurd hr hn⟩
      | true =>
        cases isPartial with
        | true => exact h
        | false =>
          -- the DAG sets the instance to `UPSTREAM_FAILED`, the subset leaves it
          intro r' hr'
          simp only [Bool.false_eq_true, if_false, if_true, Session.setState, Session.get_assign]
          split
          · next heq =>
            subst heq
            rcases rel_cases (h r' rfl) with ⟨hn, -⟩ | ⟨ti, ti', hti, hti', hab⟩
            · rw [hU] at hn
              cases hn
            · have hdep := hleft rfl
              rw [Session.state_eq hti'] at hdep
              rw [hU] at hti
              cases hti
              rw [hU, hti']
              exact .some ⟨⟨hab.fixed, .inr ⟨hr, hidx, rfl, hdep⟩⟩, fun _ hn => absurd hr hn⟩
          · exact h r' hr'
    | some 0 =>
      exact ⟨h.assign fun ti ti' _ _ hab =>
        ⟨⟨hab.fixed, .inl rfl⟩, fun _ hn => absurd hr hn⟩, rfl⟩
    | some (n + 1) =>
      dsimp only
      have hany : (s'.rowsOf u.taskId).any (·.mapIndex = 0) =
          (s.rowsOf u.taskId).any (·.mapIndex = 0) := by
        have hmap : ∀ s : Session, (s.rowsOf u.taskId).any (·.mapIndex = 0) =
            ((s.rowsOf u.taskId).map (·.mapIndex)).any (· = 0) :=
          fun s => by rw [List.any_map]; rfl
        rw [hmap, hmap, h.mapIndexes_eq]
      rw [hany, hstate]
      split
      · exact ⟨h.assign fun ti ti' _ _ hab =>
          ⟨⟨congrArg (fun ti : TaskInstance => { ti with deleted := true }) hab.fixed, hab.state⟩,
            fun _ hn => absurd hr hn⟩, rfl⟩
      · refine ⟨(h.assign fun ti ti' hti hti' hab => ?_).flush_left.flush_right, rfl⟩
        rw [Session.state_eq hti, Session.state_eq hti'] at hstate
        exact ⟨⟨congrArg (fun ti : TaskInstance => { ti with mapIndex := 0 }) hab.fixed,
          .inl hstate⟩, fun _ hn => absurd hr hn⟩

/-- **Expansion keeps the relation and returns the same instances.** -/
theorem expandTo {isPartial isPartial' : Bool} {total : Option Nat}
    (h : TaskSim visited s s' r.taskId) (hr : r ∈ visited) (honly : OnlyUnmapped s r)
    (hpart : isPartial = true → isPartial' = true) (hstate : s.state r = s'.state r)
    (hdb : (s.get r).map (·.dbState) = (s'.get r).map (·.dbState))
    (hleft : total = none → isDependencyState (s'.state r) = false) :
    TaskSim visited (s.expandTo isPartial r.taskId total).1
        (s'.expandTo isPartial' r.taskId total).1 r.taskId ∧
      (s'.expandTo isPartial' r.taskId total).2 = (s.expandTo isPartial r.taskId total).2 := by
  obtain ⟨hsim, heq⟩ := h.expandUnmapped hr honly hpart hstate hdb hleft
  simp only [Session.expandTo]
  generalize s.expandUnmapped isPartial r.taskId total = e at hsim heq ⊢
  generalize s'.expandUnmapped isPartial' r.taskId total = e' at hsim heq ⊢
  obtain ⟨s₁, unmapped, state⟩ := e
  obtain ⟨s₁', unmapped', state'⟩ := e'
  cases heq
  dsimp only at hsim ⊢
  have hstart := RowInv.currentMaxMapping_ge s₁ r.taskId
  rw [hsim.currentMaxMapping_eq]
  obtain ⟨hadd, hrefs⟩ := hsim.addTis state (s₁.currentMaxMapping r.taskId + 1) (by omega)
    (if total.getD 0 < 1 then 0
      else ((total.getD 0 : Int) - (s₁.currentMaxMapping r.taskId + 1)).toNat)
  refine ⟨hadd.remove fun ti ti' hab => ?_, by rw [hrefs]⟩
  rw [hab.mapIndex, hab.deleted, hab.locked]

end

end TaskSim

/-! ## Two visits to an instance -/

/-- The outcomes `q`, `q'` of visits to `r` in the passes `p`, `p'`. -/
structure VisitSim (visited : List TIRef) (p p' q q' : ReadyPass) (r : TIRef) : Prop where
  rows : TaskSim (visited ++ [r]) q.session q'.session r.taskId
  additional : ∃ new, q.additionalTis = p.additionalTis ++ new ∧
    q'.additionalTis = p'.additionalTis ++ new
  revised : r.taskId ∈ q'.revisedMapIndexTaskIds ↔ r.taskId ∈ q.revisedMapIndexTaskIds
  ready : ∃ new, q.readyTis = p.readyTis ++ new ∧ q'.readyTis = p'.readyTis ++ new

section
variable {dag : Dag} {kept : TaskId → Bool} {run : RunData} {ctx ctx' : DepContext}
  {p p' : ReadyPass} {r : TIRef} {task : Operator} {visited : List TIRef}

/-- A visit to an instance with a map index, where the task has no length, touches no other. -/
theorem ReadyPass.visit_get_of_error {e : MapError} {r' : TIRef}
    (htask : dag.getTask r.taskId = some task)
    (hcount : task.getMappedTiCount run p.session = .error e) (hidx : 0 ≤ p.session.mapIndex r)
    (hne : r' ≠ r) : (p.visit dag run ctx r).session.get r' = p.session.get r' := by
  have hw : Session.Written r p.session (areDependenciesMet dag run p.session r task ctx).session :=
    areDependenciesMet_written dag run p.session
  have hget := (WrittenOn.of_written hw).get r' hne
  have hidx' : (areDependenciesMet dag run p.session r task ctx).session.mapIndex r ≥ 0 := by
    rw [← (hw.sameStored r.taskId).mapIndex rfl fun _ => rfl]
    exact hidx
  have hrevise : (areDependenciesMet dag run p.session r task ctx).session.reviseMapIndexesIfMapped
      run task = ((areDependenciesMet dag run p.session r task ctx).session, []) := by
    rw [Session.reviseMapIndexesIfMapped, hw.getMappedTiCount, hcount]
  unfold ReadyPass.visit ReadyPass.markReady expandMappedTaskIfNeeded
  rw [htask]
  dsimp only
  rw [if_pos hidx', hrevise]
  split
  · exact hget
  · dsimp only
    split
    · exact hget
    · split
      · exact hget
      · exact hget

theorem OnlyUnmapped.written {s s' : Session} (h : OnlyUnmapped s r)
    (hw : Session.Written r s s') : OnlyUnmapped s' r := by
  intro r' ti htask hti hidx
  by_contra hne
  rw [(WrittenOn.of_written hw).get r' hne] at hti
  exact hne (h r' ti htask hti hidx)

theorem markReady_sim (hid : task.taskId = r.taskId)
    (h : TaskSim (visited ++ [r]) p.session p'.session r.taskId)
    (hstate : p.session.state r = p'.session.state r)
    (hcount : task.getMappedTiCount run p'.session = task.getMappedTiCount run p.session)
    (hrevised : r.taskId ∈ p'.revisedMapIndexTaskIds ↔ r.taskId ∈ p.revisedMapIndexTaskIds) :
    VisitSim visited p p' (ReadyPass.markReady run p task r)
      (ReadyPass.markReady run p' (task.restrict kept) r) r := by
  have hid' : (task.restrict kept).taskId = r.taskId := hid
  unfold ReadyPass.markReady
  rw [← hstate, hid, hid']
  split
  · exact ⟨h, ⟨[], by simp⟩, hrevised, ⟨[], by simp⟩⟩
  · by_cases hmem : r.taskId ∈ p.revisedMapIndexTaskIds
    · rw [if_pos hmem, if_pos (hrevised.mpr hmem)]
      exact ⟨h, ⟨[], by simp⟩, hrevised, ⟨[r], rfl, rfl⟩⟩
    · rw [if_neg hmem, if_neg (mt hrevised.mp hmem)]
      rw [← hid] at h
      obtain ⟨hsim, hrefs⟩ := h.reviseMapIndexes hcount
      have hrestrict : p'.session.reviseMapIndexesIfMapped run (task.restrict kept) =
          p'.session.reviseMapIndexesIfMapped run task := rfl
      refine ⟨?_, ⟨[], by simp⟩, by simp, ⟨_, List.append_assoc .., ?_⟩⟩
      · rw [← hid]
        exact hsim
      · rw [hrestrict]
        dsimp only
        rw [hrefs]
        exact List.append_assoc ..

/-- **Visits to an instance whose dependencies come out alike have related outcomes.** -/
theorem ReadyPass.visit_sim (htask : dag.getTask r.taskId = some task)
    (hkept : kept r.taskId = true) (h : TaskSim visited p.session p'.session r.taskId)
    (hmet : (areDependenciesMet (dag.keep kept) run p'.session r (task.restrict kept) ctx').met =
      (areDependenciesMet dag run p.session r task ctx).met)
    (hstate : (areDependenciesMet dag run p.session r task ctx).session.state r =
      (areDependenciesMet (dag.keep kept) run p'.session r (task.restrict kept)
        ctx').session.state r)
    (hcount : task.getMappedTiCount run p'.session = task.getMappedTiCount run p.session)
    (honly : p.session.mapIndex r < 0 → OnlyUnmapped p.session r)
    (hdb : p.session.mapIndex r < 0 →
      (p.session.get r).map (·.dbState) = (p'.session.get r).map (·.dbState))
    (hleft : task.getMappedTiCount run p.session = .error .notFullyPopulated →
      p.session.mapIndex r < 0 → (areDependenciesMet dag run p.session r task ctx).met = true →
      isDependencyState ((areDependenciesMet dag run p.session r task ctx).session.state r) = false)
    (hrevised : r.taskId ∈ p'.revisedMapIndexTaskIds ↔ r.taskId ∈ p.revisedMapIndexTaskIds) :
    VisitSim visited p p' (p.visit dag run ctx r) (p'.visit (dag.keep kept) run ctx' r) r := by
  have hid : task.taskId = r.taskId := Dag.getTask_taskId htask
  have hid' : (task.restrict kept).taskId = r.taskId := hid
  have hpart : dag.partialDag = true → (dag.keep kept).partialDag = true := fun hp => by
    simp [Dag.keep, hp]
  have hw : Session.Written r p.session (areDependenciesMet dag run p.session r task ctx).session :=
    areDependenciesMet_written dag run p.session
  have hw' : Session.Written r p'.session (areDependenciesMet (dag.keep kept) run p'.session r
      (task.restrict kept) ctx').session := areDependenciesMet_written _ run p'.session
  have hsim := h.evaluated hw hw' hstate
  unfold ReadyPass.visit
  rw [Dag.keep_getTask, if_pos hkept, htask, Option.map_some]
  dsimp only
  rw [hmet]
  generalize areDependenciesMet dag run p.session r task ctx = d at hw hstate hleft hsim ⊢
  generalize areDependenciesMet (dag.keep kept) run p'.session r (task.restrict kept) ctx' = d'
    at hw' hstate hsim ⊢
  have hcountD : task.getMappedTiCount run d.session = task.getMappedTiCount run p.session :=
    hw.getMappedTiCount run task
  have hcountD' : task.getMappedTiCount run d'.session = task.getMappedTiCount run p.session :=
    (hw'.getMappedTiCount run task).trans hcount
  have hidx : d.session.mapIndex r = p.session.mapIndex r :=
    ((hw.sameStored r.taskId).mapIndex rfl fun _ => rfl).symm
  have hidx' : d'.session.mapIndex r = d.session.mapIndex r :=
    (hsim.sameFixed.mapIndex rfl fun _ => rfl).symm
  have hmark : VisitSim visited { p with session := d.session } { p' with session := d'.session }
      (ReadyPass.markReady run { p with session := d.session } task r)
      (ReadyPass.markReady run { p' with session := d'.session } (task.restrict kept) r) r :=
    markReady_sim hid hsim hstate (hcountD'.trans hcountD.symm) hrevised
  have hready : VisitSim visited p p'
      (ReadyPass.markReady run { p with session := d.session } task r)
      (ReadyPass.markReady run { p' with session := d'.session } (task.restrict kept) r) r :=
    ⟨hmark.rows, hmark.additional, hmark.revised, hmark.ready⟩
  cases hdm : d.met with
  | false => exact ⟨hsim, ⟨[], by simp⟩, hrevised, ⟨[], by simp⟩⟩
  | true =>
    unfold expandMappedTaskIfNeeded Session.expandMappedTask
    have hrestrict : (task.restrict kept).getMappedTiCount run d'.session =
        task.getMappedTiCount run p.session := hcountD'
    rw [hidx', hrestrict, hcountD, hid, hid']
    simp only [Bool.not_true, Bool.false_eq_true, if_false]
    by_cases hge : d.session.mapIndex r ≥ 0
    · rw [if_pos hge, if_pos hge]
      exact hready
    · rw [if_neg hge, if_neg hge]
      have hdb' : (d.session.get r).map (·.dbState) = (d'.session.get r).map (·.dbState) := by
        rw [← (hw.sameStored r.taskId).map_get rfl fun _ => rfl,
          ← (hw'.sameStored r.taskId).map_get rfl fun _ => rfl]
        exact hdb (by omega)
      have hexp : ∀ total, (total = none → isDependencyState (d'.session.state r) = false) →
          TaskSim (visited ++ [r]) (d.session.expandTo dag.partialDag r.taskId total).1
              (d'.session.expandTo (dag.keep kept).partialDag r.taskId total).1 r.taskId ∧
            (d'.session.expandTo (dag.keep kept).partialDag r.taskId total).2 =
              (d.session.expandTo dag.partialDag r.taskId total).2 :=
        fun _ => hsim.expandTo (by simp) ((honly (by omega)).written hw) hpart hstate hdb'
      cases hc : task.getMappedTiCount run p.session with
      | error e =>
        cases e with
        | notMapped => exact hready
        | notFullyPopulated =>
          obtain ⟨hs, hrefs⟩ := hexp none fun _ => hstate ▸ hleft hc (by omega) hdm
          exact ⟨hs, ⟨_, rfl, by rw [← hrefs]⟩, hrevised, ⟨[], by simp⟩⟩
      | ok n =>
        obtain ⟨hs, hrefs⟩ := hexp (some n) fun hn => by cases hn
        exact ⟨hs, ⟨_, rfl, by rw [← hrefs]⟩, hrevised, ⟨[], by simp⟩⟩

end

end Airflow
