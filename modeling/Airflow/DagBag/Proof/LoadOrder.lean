import Airflow.DagBag.LoadOrder
import Mathlib.Data.List.Nodup

/-!
# Settled DAGs in any order

What a DAG does to the bag is the same in every turn if the DAGs are consistent (`effect_eq`). So
the bag is described by the effects of the DAGs so far (`After`), whatever their order, and all
orders end alike (`orderIndependent_of_settled`).
-/

namespace Airflow.Bagging

open DagBag

variable {env : Env} {bag t : DagBag} {dag : DagObj} {fileloc : String} {entries : Finset Entry}
  {L order : List Entry} {e e' : Entry}

/-! ## What is stored and removed -/

theorem located_of_stored {dagId : String} {serial : Nat}
    (h : lastSerial (effect env bag e).stored dagId = some serial) :
    Accepted env e ∧ (⟨dagId, serial⟩ : DagObj) ∈ family env e ∧
      (⟨dagId, serial⟩ : DagObj) ∈ (effect env bag e).located := by
  by_cases haccepted : Accepted env e
  · refine ⟨haccepted, ?_⟩
    rw [effect_accepted haccepted] at h ⊢
    cases hfailure : failure env (bag.setFileloc e.1 e.2) e.1 with
    | none =>
      rw [hfailure] at h
      exact ⟨mem_of_lastSerial h, mem_of_lastSerial h⟩
    | some p =>
      obtain ⟨before, x⟩ := p
      simp only [hfailure] at h ⊢
      by_cases hcleans : x.cleansUp = true
      · rw [if_pos hcleans] at h
        cases h
      · rw [if_neg hcleans] at h
        have hmem := mem_of_lastSerial h
        obtain ⟨passed, failed, rest, hsplit, hbefore⟩ := firstFailure_before hfailure
        obtain rfl : before = passed := hbefore
        have hsplit' : family env e = before ++ failed :: rest := hsplit
        refine ⟨by rw [hsplit']; exact List.mem_append_left _ hmem, List.mem_cons_of_mem _ ?_⟩
        rw [hsplit', List.take_length_add_append]
        exact List.mem_append_left _ hmem
  · obtain ⟨x, -, heffect⟩ := effect_rejected bag haccepted
    rw [heffect] at h
    cases h

theorem refused_of_removed {dagId : String} (h : dagId ∈ (effect env bag e).removed) :
    Accepted env e ∧ env.subdags e.1 ≠ [] ∧ (effect env bag e).raised ≠ none ∧
      ∃ dag ∈ family env e, dag.dagId = dagId := by
  by_cases haccepted : Accepted env e
  · refine ⟨haccepted, ?_⟩
    rw [effect_accepted haccepted] at h ⊢
    cases hfailure : failure env (bag.setFileloc e.1 e.2) e.1 with
    | none =>
      rw [hfailure] at h
      exact absurd h List.not_mem_nil
    | some p =>
      obtain ⟨before, x⟩ := p
      simp only [hfailure] at h
      by_cases hcleans : x.cleansUp = true
      · rw [if_pos hcleans] at h
        obtain ⟨sub, hsub, rfl⟩ := List.mem_map.mp h
        refine ⟨List.ne_nil_of_mem hsub, ?_, sub, List.mem_append_left _ hsub, rfl⟩
        intro hnone
        cases hnone
      · rw [if_neg hcleans] at h
        exact absurd h List.not_mem_nil
  · obtain ⟨x, -, heffect⟩ := effect_rejected bag haccepted
    rw [heffect] at h
    exact absurd h List.not_mem_nil

/-- What removes ids stores nothing. -/
theorem stored_of_removed {dagId : String} (h : dagId ∈ (effect env bag e).removed) :
    (effect env bag e).stored = [] := by
  rw [effect] at h ⊢
  split at h
  · exact absurd h List.not_mem_nil
  · split at h
    · exact absurd h List.not_mem_nil
    · next before x hfailure =>
      by_cases hcleans : x.cleansUp = true
      · simp only [hcleans, if_true]
      · simp only [hcleans, if_false, Bool.false_eq_true] at h
        exact absurd h List.not_mem_nil

/-! ## After some of the turns -/

/-- The bag after some DAGs with the effects that they have on the bag from before. -/
structure After (env : Env) (bag : DagBag) (L : List Entry) (t : DagBag) : Prop where
  stored : ∀ e ∈ L, ∀ dagId serial, lastSerial (effect env bag e).stored dagId = some serial →
    t.dags dagId = some serial
  removed : ∀ e ∈ L, ∀ dagId ∈ (effect env bag e).removed, t.dags dagId = none
  kept : ∀ dagId, (∀ e ∈ L, lastSerial (effect env bag e).stored dagId = none ∧
    dagId ∉ (effect env bag e).removed) → t.dags dagId = bag.dags dagId
  located : ∀ e ∈ L, ∀ dag ∈ (effect env bag e).located,
    ∃ e' ∈ L, dag ∈ (effect env bag e').located ∧ t.fileloc dag = e'.2
  unlocated : ∀ dag, (∀ e ∈ L, dag ∉ (effect env bag e).located) → t.fileloc dag = bag.fileloc dag

theorem After.nil (env : Env) (bag : DagBag) : After env bag [] bag where
  stored _ h := absurd h List.not_mem_nil
  removed _ h := absurd h List.not_mem_nil
  kept _ _ := rfl
  located _ h := absurd h List.not_mem_nil
  unlocated _ _ := rfl

/-- Ids that a refused DAG removes are stored by no other. -/
theorem Consistent.not_stored_of_removed (h : Consistent env bag entries) (he : e ∈ entries)
    (he' : e' ∈ entries) (hne : e' ≠ e) {dagId : String}
    (hremoved : dagId ∈ (effect env bag e).removed) :
    lastSerial (effect env bag e').stored dagId = none := by
  obtain ⟨haccepted, hsubs, hraised, dag, hdag, rfl⟩ := refused_of_removed hremoved
  cases hlast : lastSerial (effect env bag e').stored dag.dagId with
  | none => rfl
  | some serial =>
    obtain ⟨haccepted', hfamily, -⟩ := located_of_stored hlast
    exact absurd rfl (h.apart e he haccepted hsubs hraised e' he' hne haccepted' dag hdag
      ⟨dag.dagId, serial⟩ hfamily)

/-- **A turn with the effect from before keeps `After`.** -/
theorem After.step (h : Consistent env bag entries) (hafter : After env bag L t)
    (hL : ∀ e ∈ L, e ∈ entries) (he : e ∈ entries) (hnew : e ∉ L)
    (heffect : effect env t e = effect env bag e) :
    After env bag (L ++ [e]) (t.attempt env e).1 := by
  obtain ⟨-, hdags, hloc⟩ := attempt_eq env t e
  rw [heffect] at hdags hloc
  have hne : ∀ e' ∈ L, e' ≠ e := by
    rintro e' he' rfl
    exact hnew he'
  have hmem : ∀ e', e' ∈ L ++ [e] ↔ e' ∈ L ∨ e' = e := by
    intro e'
    rw [List.mem_append, List.mem_singleton]
  constructor
  · intro e' he' dagId serial hserial
    rw [hdags]
    obtain he' | rfl := (hmem e').mp he'
    · have hnot : dagId ∉ (effect env bag e).removed := by
        intro hremoved
        rw [h.not_stored_of_removed he (hL e' he') (hne e' he') hremoved] at hserial
        cases hserial
      rw [if_neg hnot]
      cases hlast : lastSerial (effect env bag e).stored dagId with
      | none => exact hafter.stored e' he' dagId serial hserial
      | some serial' =>
        rw [h.one e' (hL e' he') e he dagId serial serial' hserial hlast, Option.some_or]
    · have hnot : dagId ∉ (effect env bag e').removed := by
        intro hremoved
        rw [stored_of_removed hremoved] at hserial
        cases hserial
      rw [if_neg hnot, hserial, Option.some_or]
  · intro e' he' dagId hremoved
    rw [hdags]
    obtain he' | rfl := (hmem e').mp he'
    · split
      · rfl
      · rw [h.not_stored_of_removed (hL e' he') he (Ne.symm (hne e' he')) hremoved, Option.none_or]
        exact hafter.removed e' he' dagId hremoved
    · rw [if_pos hremoved]
  · intro dagId hkept
    obtain ⟨hstored, hremoved⟩ := hkept e ((hmem e).mpr (.inr rfl))
    rw [hdags, if_neg hremoved, hstored, Option.none_or]
    exact hafter.kept dagId fun e' he' => hkept e' ((hmem e').mpr (.inl he'))
  · intro e' he' dag hdag
    rw [hloc]
    by_cases hlocated : dag ∈ (effect env bag e).located
    · exact ⟨e, (hmem e).mpr (.inr rfl), hlocated, by rw [if_pos hlocated]⟩
    · obtain he' | rfl := (hmem e').mp he'
      · obtain ⟨e'', he'', hdag'', hfile⟩ := hafter.located e' he' dag hdag
        exact ⟨e'', (hmem e'').mpr (.inl he''), hdag'', by rw [if_neg hlocated, hfile]⟩
      · exact absurd hdag hlocated
  · intro dag hdag
    rw [hloc, if_neg (hdag e ((hmem e).mpr (.inr rfl)))]
    exact hafter.unlocated dag fun e' he' => hdag e' ((hmem e').mpr (.inl he'))

/-! ## The same effect in every turn -/

/-- A clash depends on what the bag holds under the id. -/
theorem clash_congr {s : DagBag} {fileloc : String} {earlier : List DagObj}
    (hdags : s.dags dag.dagId = t.dags dag.dagId)
    (hloc : ∀ prev, t.dags dag.dagId = some prev → prev ≠ dag.serial →
      s.fileloc ⟨dag.dagId, prev⟩ = t.fileloc ⟨dag.dagId, prev⟩) :
    s.clash fileloc earlier dag = t.clash fileloc earlier dag := by
  rw [clash, clash, hdags]
  cases hprev : t.dags dag.dagId with
  | none => rfl
  | some prev =>
    simp only
    by_cases hne : prev = dag.serial
    · simp [hne]
    · rw [hloc prev hprev hne]

theorem firstFailure_congr {s : DagBag} {fileloc : String} {earlier dags : List DagObj}
    (h : ∀ dag ∈ dags, ∀ earlier, s.clash fileloc earlier dag = t.clash fileloc earlier dag) :
    firstFailure env s fileloc earlier dags = firstFailure env t fileloc earlier dags := by
  induction dags generalizing earlier with
  | nil => rfl
  | cons dag dags ih =>
    rw [firstFailure, firstFailure, h dag List.mem_cons_self]
    split
    · rfl
    · exact ih fun dag' hdag' => h dag' (List.mem_cons_of_mem dag hdag')

theorem firstFailure_eq_none {s : DagBag} {fileloc : String} {earlier dags : List DagObj}
    (h : ∀ dag ∈ dags, ∀ earlier, s.clash fileloc earlier dag = none ∨
      s.clash fileloc earlier dag = t.clash fileloc earlier dag)
    (hnone : firstFailure env t fileloc earlier dags = none) :
    firstFailure env s fileloc earlier dags = none := by
  induction dags generalizing earlier with
  | nil => rfl
  | cons dag dags ih =>
    rw [firstFailure] at hnone
    split at hnone
    · cases hnone
    · next hpassed =>
      obtain ⟨hcheck, hclash⟩ := Option.or_eq_none_iff.mp hpassed
      have hclash' : s.clash fileloc earlier dag = none := by
        obtain h | h := h dag List.mem_cons_self earlier
        · exact h
        · exact h.trans hclash
      rw [firstFailure, hcheck, hclash']
      exact ih (fun dag' hdag' => h dag' (List.mem_cons_of_mem dag hdag')) hnone

/-- DAGs that can be bagged come from the file of the DAG that the bag holds under an id, unless it
is among them. -/
theorem fileloc_of_firstFailure {fileloc : String} {earlier dags : List DagObj} {dagId : String}
    {prev : Nat} (hnone : firstFailure env t fileloc earlier dags = none)
    (hearlier : dagId ∉ earlier.map DagObj.dagId) (hdagId : dagId ∈ dags.map DagObj.dagId)
    (hprev : t.dags dagId = some prev) (hnot : (⟨dagId, prev⟩ : DagObj) ∉ dags) :
    t.fileloc ⟨dagId, prev⟩ = fileloc := by
  induction dags generalizing earlier with
  | nil => exact absurd hdagId List.not_mem_nil
  | cons dag dags ih =>
    rw [firstFailure] at hnone
    split at hnone
    · cases hnone
    · next hpassed =>
      obtain ⟨-, hclash⟩ := Option.or_eq_none_iff.mp hpassed
      by_cases hid : dag.dagId = dagId
      · subst hid
        have hserial : prev ≠ dag.serial := by
          rintro rfl
          exact hnot List.mem_cons_self
        rw [clash, if_neg hearlier, hprev] at hclash
        simp only [hserial, ne_eq, not_false_eq_true, true_and] at hclash
        by_contra hne
        rw [if_pos hne] at hclash
        cases hclash
      · refine ih hnone ?_ ?_ fun h => hnot (List.mem_cons_of_mem dag h)
        · rw [List.map_append, List.mem_append, List.map_singleton, List.mem_singleton]
          rintro (h | h)
          · exact hearlier h
          · exact hid h.symm
        · rw [List.map_cons, List.mem_cons] at hdagId
          exact hdagId.resolve_left (Ne.symm hid)

theorem failure_set (env : Env) (t : DagBag) (e : Entry) : failure env (t.setFileloc e.1 e.2) e.1 =
    firstFailure env (t.setFileloc e.1 e.2) e.2 [] (family env e) := by
  rw [failure, fileloc_set_self]
  rfl

section
variable (h : Consistent env bag entries) (hafter : After env bag L t) (hL : ∀ e ∈ L, e ∈ entries)
  (he : e ∈ entries) (hnew : e ∉ L) (haccepted : Accepted env e) (hdag : dag ∈ family env e)

include h hafter hL he hnew haccepted hdag

/-- A DAG clashes as before if nothing was stored under its id. -/
theorem clash_of_kept {earlier : List DagObj}
    (hkept : ∀ e' ∈ L, lastSerial (effect env bag e').stored dag.dagId = none) :
    (t.setFileloc e.1 e.2).clash e.2 earlier dag =
      (bag.setFileloc e.1 e.2).clash e.2 earlier dag := by
  have hne : ∀ e' ∈ L, e' ≠ e := by
    rintro e' he' rfl
    exact hnew he'
  refine clash_congr (hafter.kept dag.dagId fun e' he' => ⟨hkept e' he', fun hremoved => ?_⟩) ?_
  · obtain ⟨haccepted', hsubs, hraised, dag', hdag', hid⟩ := refused_of_removed hremoved
    exact h.apart e' (hL e' he') haccepted' hsubs hraised e he (Ne.symm (hne e' he')) haccepted dag'
      hdag' dag hdag hid
  · intro prev hprev hserial
    rw [fileloc_setFileloc, fileloc_setFileloc]
    have hother : dag ≠ ⟨dag.dagId, prev⟩ := fun h => hserial (congrArg DagObj.serial h).symm
    split
    · rfl
    · by_cases hlocated : ∃ e' ∈ L, (⟨dag.dagId, prev⟩ : DagObj) ∈ (effect env bag e').located
      · obtain ⟨e', he', hmem⟩ := hlocated
        obtain ⟨e'', he'', hmem'', hfile⟩ := hafter.located e' he' _ hmem
        rw [hfile]
        exact h.moved e'' (hL e'' he'') _ hmem'' hprev e he (Ne.symm (hne e'' he'')) haccepted dag
          hdag rfl hother
      · exact hafter.unlocated _ fun e' he' hmem => hlocated ⟨e', he', hmem⟩

end

/-- What was stored comes from one file. -/
theorem fileloc_of_stored (h : Consistent env bag entries) (hafter : After env bag L t)
    (hL : ∀ e ∈ L, e ∈ entries) (he : e ∈ L) {dagId : String} {serial : Nat}
    (hstored : lastSerial (effect env bag e).stored dagId = some serial) :
    t.fileloc ⟨dagId, serial⟩ = e.2 := by
  obtain ⟨-, -, hlocated⟩ := located_of_stored hstored
  obtain ⟨e', he', hlocated', hfile⟩ := hafter.located e he _ hlocated
  rw [hfile]
  exact h.oneFile e (hL e he) _ hlocated (.inl hstored) e' (hL e' he') hlocated'

theorem raised_eq_none_iff (haccepted : Accepted env e) : (effect env bag e).raised = none ↔
    firstFailure env (bag.setFileloc e.1 e.2) e.2 [] (family env e) = none := by
  rw [effect_accepted haccepted, failure_set]
  split
  · next hnone => exact iff_of_true rfl hnone
  · next hsome =>
    rw [hsome]
    exact iff_of_false (fun h => by cases h) fun h => by cases h

theorem effect_bagged (h : (effect env bag e).raised = none) :
    effect env bag e = ⟨none, family env e, family env e, []⟩ := by
  by_cases haccepted : Accepted env e
  · rw [effect_accepted haccepted] at h ⊢
    cases hfailure : failure env (bag.setFileloc e.1 e.2) e.1 with
    | none => rfl
    | some p =>
      rw [hfailure] at h
      cases h
  · obtain ⟨x, -, heffect⟩ := effect_rejected bag haccepted
    rw [heffect] at h
    cases h

theorem effect_congr (haccepted : Accepted env e)
    (h : firstFailure env (t.setFileloc e.1 e.2) e.2 [] (family env e) =
      firstFailure env (bag.setFileloc e.1 e.2) e.2 [] (family env e)) :
    effect env t e = effect env bag e := by
  rw [effect_accepted haccepted, effect_accepted haccepted, failure_set, failure_set, h]

/-- A DAG that was stored from the bag's own file, where the bag holds another one under its id. -/
theorem file_of_stored (h : Consistent env bag entries) (he : e ∈ entries) (he' : e' ∈ entries)
    (hne : e' ≠ e) (haccepted : Accepted env e) (hraised : (effect env bag e').raised = none)
    {serial prev : Nat} (hstored : lastSerial (effect env bag e').stored e.1.dagId = some serial)
    (hprev : bag.dags e.1.dagId = some prev) (hserial : prev ≠ e.1.serial) :
    e'.2 = bag.fileloc ⟨e.1.dagId, prev⟩ := by
  obtain ⟨haccepted', hfamily, hlocated⟩ := located_of_stored hstored
  have hother : e.1 ≠ ⟨e.1.dagId, prev⟩ := fun h => hserial (congrArg DagObj.serial h).symm
  have heffect : (effect env bag e').located = family env e' := by rw [effect_bagged hraised]
  by_cases hmem : (⟨e.1.dagId, prev⟩ : DagObj) ∈ family env e'
  · exact h.moved e' he' ⟨e.1.dagId, prev⟩ (heffect ▸ hmem) hprev e he (Ne.symm hne) haccepted e.1
      (mem_family_self env e) rfl hother
  · have hfile := fileloc_of_firstFailure ((raised_eq_none_iff haccepted').mp hraised)
      List.not_mem_nil (List.mem_map_of_mem hfamily) hprev hmem
    have hroot : (⟨e.1.dagId, prev⟩ : DagObj) ≠ e'.1 := fun h => hmem (h ▸ mem_family_self env e')
    rw [fileloc_setFileloc, if_neg hroot] at hfile
    exact hfile.symm

theorem firstFailure_singleton (hcheck : env.check dag fileloc = none) :
    firstFailure env t fileloc [] [dag] = (t.clash fileloc [] dag).map (([], ·)) := by
  rw [firstFailure, hcheck, Option.none_or]
  cases t.clash fileloc [] dag with
  | none => rfl
  | some x => rfl

/-- The clash of a DAG without sub-DAGs. -/
theorem clash_root {x : Exn} : (t.setFileloc e.1 e.2).clash e.2 [] e.1 = some x ↔
    ∃ prev, t.dags e.1.dagId = some prev ∧ prev ≠ e.1.serial ∧
      t.fileloc ⟨e.1.dagId, prev⟩ ≠ e.2 ∧
      x = .dagDuplicatedId e.1.dagId e.2 (t.fileloc ⟨e.1.dagId, prev⟩) := by
  rw [clash, List.map_nil, if_neg List.not_mem_nil, dags_setFileloc]
  cases hprev : t.dags e.1.dagId with
  | none =>
    constructor
    · intro h
      cases h
    · rintro ⟨prev, h, -⟩
      cases h
  | some prev =>
    simp only [Option.some.injEq, exists_eq_left']
    by_cases hserial : prev = e.1.serial
    · simp [hserial]
    · have hroot : (⟨e.1.dagId, prev⟩ : DagObj) ≠ e.1 := fun h => hserial (congrArg DagObj.serial h)
      rw [fileloc_setFileloc, if_neg hroot]
      by_cases hfile : t.fileloc ⟨e.1.dagId, prev⟩ = e.2
      · simp [hfile]
      · simp only [hserial, hfile, ne_eq, not_false_eq_true, and_self, if_true, true_and,
          Option.some.injEq]
        exact eq_comm

/-- A refused DAG leaves sub-DAGs, if it leaves anything. -/
theorem subdags_of_stored (h : (effect env bag e).raised ≠ none) {dagId : String} {serial : Nat}
    (hstored : lastSerial (effect env bag e).stored dagId = some serial) :
    env.subdags e.1 ≠ [] := by
  obtain ⟨haccepted, -, -⟩ := located_of_stored hstored
  rw [effect_accepted haccepted] at h hstored
  cases hfailure : failure env (bag.setFileloc e.1 e.2) e.1 with
  | none =>
    rw [hfailure] at h
    exact absurd rfl h
  | some p =>
    obtain ⟨before, x⟩ := p
    simp only [hfailure] at hstored
    by_cases hcleans : x.cleansUp = true
    · rw [if_pos hcleans] at hstored
      cases hstored
    · rw [if_neg hcleans] at hstored
      exact List.ne_nil_of_mem (mem_subdags_of_failure hfailure _ (mem_of_lastSerial hstored))

/-- A DAG that is refused because of its id is refused in each turn, for the same file. -/
theorem clash_of_refused (h : Consistent env bag entries) (hafter : After env bag L t)
    (hL : ∀ e ∈ L, e ∈ entries) (he : e ∈ entries) (hnew : e ∉ L) (haccepted : Accepted env e)
    (hfamily : family env e = [e.1])
    (hfailure : firstFailure env (bag.setFileloc e.1 e.2) e.2 [] (family env e) ≠ none) :
    (t.setFileloc e.1 e.2).clash e.2 [] e.1 = (bag.setFileloc e.1 e.2).clash e.2 [] e.1 := by
  have hne : ∀ e' ∈ L, e' ≠ e := by
    rintro e' he' rfl
    exact hnew he'
  by_cases hkept : ∀ e' ∈ L, lastSerial (effect env bag e').stored e.1.dagId = none
  · exact clash_of_kept h hafter hL he hnew haccepted (mem_family_self env e) hkept
  · push Not at hkept
    obtain ⟨e', he', hsome⟩ := hkept
    obtain ⟨serial, hstored⟩ := Option.ne_none_iff_exists'.mp hsome
    -- the bag from before holds another DAG, of another file
    rw [hfamily, firstFailure_singleton haccepted.2] at hfailure
    obtain ⟨x, hclash⟩ := Option.ne_none_iff_exists'.mp (mt Option.map_eq_none_iff.mpr hfailure)
    obtain ⟨prev, hprev, hserial, hother, rfl⟩ := clash_root.mp hclash
    obtain ⟨haccepted', hfamily', hlocated'⟩ := located_of_stored hstored
    have hraised : (effect env bag e').raised = none := by
      by_contra hraised
      exact absurd rfl (h.apart e' (hL e' he') haccepted' (subdags_of_stored hraised hstored)
        hraised e he (Ne.symm (hne e' he')) haccepted _ hfamily' e.1 (mem_family_self env e))
    have hfile := fileloc_of_stored h hafter hL he' hstored
    have hdags := hafter.stored e' he' _ _ hstored
    have hbag :=
      file_of_stored h he (hL e' he') (hne e' he') haccepted hraised hstored hprev hserial
    have hserial' : serial ≠ e.1.serial := by
      rintro rfl
      have hsame := h.oneFile e' (hL e' he') e.1 hlocated' (.inl hstored) e he
        (mem_located_self env bag e)
      exact hother (hbag.symm.trans hsame.symm)
    rw [hclash]
    refine clash_root.mpr ⟨serial, hdags, hserial', ?_, ?_⟩
    · rw [hfile, hbag]
      exact hother
    · rw [hfile, hbag]

/-- **Each turn has the effect that the DAG has on the bag from before.** -/
theorem effect_eq (h : Consistent env bag entries) (hafter : After env bag L t)
    (hL : ∀ e ∈ L, e ∈ entries) (he : e ∈ entries) (hnew : e ∉ L) :
    effect env t e = effect env bag e := by
  have hne : ∀ e' ∈ L, e' ≠ e := by
    rintro e' he' rfl
    exact hnew he'
  by_cases haccepted : Accepted env e
  · refine effect_congr haccepted ?_
    by_cases hraised : (effect env bag e).raised = none
    · -- nothing fails, and what was stored under the ids comes from this file
      have hnone := (raised_eq_none_iff haccepted).mp hraised
      rw [hnone]
      refine firstFailure_eq_none (fun dag hdag earlier => ?_) hnone
      by_cases hkept : ∀ e' ∈ L, lastSerial (effect env bag e').stored dag.dagId = none
      · exact .inr (clash_of_kept h hafter hL he hnew haccepted hdag hkept)
      · left
        push Not at hkept
        obtain ⟨e', he', hsome⟩ := hkept
        obtain ⟨serial, hstored⟩ := Option.ne_none_iff_exists'.mp hsome
        have hfile := fileloc_of_stored h hafter hL he' hstored
        have hdags := hafter.stored e' he' _ _ hstored
        have hsame : e'.2 = e.2 := by
          have heffect := effect_bagged hraised
          cases hlast : lastSerial (family env e) dag.dagId with
          | none => exact absurd (List.mem_map_of_mem hdag) (lastSerial_eq_none.mp hlast)
          | some serial' =>
            have hstored' : lastSerial (effect env bag e).stored dag.dagId = some serial' := by
              rw [heffect]
              exact hlast
            obtain rfl := h.one e' (hL e' he') e he dag.dagId serial serial' hstored hstored'
            obtain ⟨-, -, hlocated⟩ := located_of_stored hstored
            exact h.oneFile e he ⟨dag.dagId, serial⟩ (located_of_stored hstored').2.2
              (.inl hstored') e' (hL e' he') hlocated
        rw [clash, dags_setFileloc, hdags]
        simp only [fileloc_setFileloc, hfile, hsame, ite_self, ne_eq, not_true_eq_false, and_false,
          if_false]
    · by_cases hsubs : env.subdags e.1 = []
      · have hfamily : family env e = [e.1] := by rw [family, hsubs, List.nil_append]
        have hclash := clash_of_refused h hafter hL he hnew haccepted hfamily
          fun hnone => hraised ((raised_eq_none_iff haccepted).mpr hnone)
        rw [hfamily, firstFailure_singleton haccepted.2, firstFailure_singleton haccepted.2, hclash]
      · refine firstFailure_congr fun dag hdag earlier => ?_
        refine clash_of_kept h hafter hL he hnew haccepted hdag fun e' he' => ?_
        cases hlast : lastSerial (effect env bag e').stored dag.dagId with
        | none => rfl
        | some serial =>
          obtain ⟨haccepted', hfamily, -⟩ := located_of_stored hlast
          exact absurd rfl (h.apart e he haccepted hsubs hraised e' (hL e' he') (hne e' he')
            haccepted' dag hdag ⟨dag.dagId, serial⟩ hfamily)
  · obtain ⟨x, hx, heffect⟩ := effect_rejected t haccepted
    obtain ⟨x', hx', heffect'⟩ := effect_rejected bag haccepted
    obtain rfl : x = x' := Option.some.inj (hx.symm.trans hx')
    rw [heffect, heffect']

/-! ## Whole orders -/

theorem After.congr {t' : DagBag} (h : After env bag L t) (hdags : t'.dags = t.dags)
    (hloc : t'.fileloc = t.fileloc) : After env bag L t' := by
  obtain ⟨hstored, hremoved, hkept, hlocated, hunlocated⟩ := h
  rw [← hdags] at hstored hremoved hkept
  rw [← hloc] at hlocated hunlocated
  exact ⟨hstored, hremoved, hkept, hlocated, hunlocated⟩

theorem processModules_append {lastChanged : Nat} : processModules env lastChanged (L ++ [e]) bag =
    processDag env lastChanged (processModules env lastChanged L bag) e := by
  rw [processModules, List.foldl_append]
  rfl

/-- **After any of the DAGs, in any order, the bag holds what their effects say.** -/
theorem after_processModules (h : Consistent env bag entries) (lastChanged : Nat)
    (hnodup : order.Nodup) (hsub : ∀ e ∈ order, e ∈ entries) :
    After env bag order (processModules env lastChanged order bag).1 ∧
    ∀ dagId, dagId ∈ (processModules env lastChanged order bag).2.map DagObj.dagId ↔
      ∃ e ∈ order, dagId ∈ foundIds env bag e := by
  induction order using List.reverseRecOn with
  | nil => exact ⟨After.nil env bag, fun dagId => by simp [processModules]⟩
  | append_singleton L e ih =>
    obtain ⟨hL, -, hdisjoint⟩ := List.nodup_append.mp hnodup
    have hnew : e ∉ L := fun he => hdisjoint e he e (List.mem_singleton_self e) rfl
    have hsubL : ∀ e ∈ L, e ∈ entries := fun e he => hsub e (List.mem_append_left _ he)
    have he : e ∈ entries := hsub e (List.mem_append_right _ (List.mem_singleton_self e))
    obtain ⟨hafter, hfound⟩ := ih hL hsubL
    have heffect := effect_eq h hafter hsubL he hnew
    obtain ⟨hdags, hloc, -, hids⟩ :=
      processDag_eq env lastChanged (processModules env lastChanged L bag) e
    rw [processModules_append]
    refine ⟨(hafter.step h hsubL he hnew heffect).congr hdags hloc, fun dagId => ?_⟩
    rw [hids, hfound, foundIds, heffect, ← foundIds]
    simp only [List.mem_append, List.mem_singleton, or_and_right, exists_or, exists_eq_left]

/-- What the bag holds was stored by one of the DAGs, or was held before. -/
theorem After.origin (h : After env bag L t) {dagId : String} {serial : Nat}
    (hserial : t.dags dagId = some serial) :
    (∃ e ∈ L, lastSerial (effect env bag e).stored dagId = some serial) ∨
      bag.dags dagId = some serial := by
  by_cases hstored : ∃ e ∈ L, lastSerial (effect env bag e).stored dagId ≠ none
  · obtain ⟨e, he, hsome⟩ := hstored
    obtain ⟨serial', hlast⟩ := Option.ne_none_iff_exists'.mp hsome
    have hdags := h.stored e he dagId serial' hlast
    rw [hserial] at hdags
    obtain rfl := Option.some.inj hdags
    exact .inl ⟨e, he, hlast⟩
  · by_cases hremoved : ∃ e ∈ L, dagId ∈ (effect env bag e).removed
    · obtain ⟨e, he, hmem⟩ := hremoved
      rw [h.removed e he dagId hmem] at hserial
      cases hserial
    · right
      rw [← h.kept dagId fun e he => ?_]
      · exact hserial
      · exact ⟨by_contra fun hsome => hstored ⟨e, he, hsome⟩, fun hmem => hremoved ⟨e, he, hmem⟩⟩

theorem After.dags_eq {a b : List Entry} {u : DagBag} (ha : After env bag a t)
    (hab : ∀ e, e ∈ a ↔ e ∈ b) (hb : After env bag b u) (dagId : String) :
    t.dags dagId = u.dags dagId := by
  by_cases hstored : ∃ e ∈ a, lastSerial (effect env bag e).stored dagId ≠ none
  · obtain ⟨e, he, hsome⟩ := hstored
    obtain ⟨serial, hlast⟩ := Option.ne_none_iff_exists'.mp hsome
    rw [ha.stored e he dagId serial hlast, hb.stored e ((hab e).mp he) dagId serial hlast]
  · by_cases hremoved : ∃ e ∈ a, dagId ∈ (effect env bag e).removed
    · obtain ⟨e, he, hmem⟩ := hremoved
      rw [ha.removed e he dagId hmem, hb.removed e ((hab e).mp he) dagId hmem]
    · have hkept : ∀ e ∈ a, lastSerial (effect env bag e).stored dagId = none ∧
          dagId ∉ (effect env bag e).removed :=
        fun e he => ⟨by_contra fun hsome => hstored ⟨e, he, hsome⟩,
          fun hmem => hremoved ⟨e, he, hmem⟩⟩
      rw [ha.kept dagId hkept, hb.kept dagId fun e he => hkept e ((hab e).mpr he)]

/-- The DAGs in the bag and their `fileloc` are the same after two orders. -/
theorem After.unique (h : Consistent env bag entries) {a b : List Entry} {t u : DagBag}
    (ha : After env bag a t) (hb : After env bag b u) (hain : ∀ e, e ∈ a ↔ e ∈ entries)
    (hbin : ∀ e, e ∈ b ↔ e ∈ entries) :
    (∀ dagId, t.dags dagId = u.dags dagId) ∧ ∀ dagId serial, t.dags dagId = some serial →
      t.fileloc ⟨dagId, serial⟩ = u.fileloc ⟨dagId, serial⟩ := by
  have hab : ∀ e, e ∈ a ↔ e ∈ b := fun e => (hain e).trans (hbin e).symm
  have hdags := ha.dags_eq hab hb
  refine ⟨hdags, fun dagId serial hserial => ?_⟩
  by_cases hlocated : ∃ e ∈ a, (⟨dagId, serial⟩ : DagObj) ∈ (effect env bag e).located
  · obtain ⟨e, he, hmem⟩ := hlocated
    obtain ⟨ea, hea, hmema, hfilea⟩ := ha.located e he _ hmem
    obtain ⟨eb, heb, hmemb, hfileb⟩ := hb.located e ((hab e).mp he) _ hmem
    rw [hfilea, hfileb]
    -- the DAG is stored by one of the top-level DAGs, or the bag held it before
    obtain ⟨e', he', hstored⟩ | hheld := ha.origin hserial
    · have hone := h.oneFile e' ((hain e').mp he') ⟨dagId, serial⟩ (located_of_stored hstored).2.2
        (.inl hstored)
      exact (hone ea ((hain ea).mp hea) hmema).trans (hone eb ((hbin eb).mp heb) hmemb).symm
    · exact h.oneFile eb ((hbin eb).mp heb) ⟨dagId, serial⟩ hmemb (.inr hheld) ea ((hain ea).mp hea)
        hmema
  · have hnot : ∀ e ∈ a, (⟨dagId, serial⟩ : DagObj) ∉ (effect env bag e).located :=
      fun e he hmem => hlocated ⟨e, he, hmem⟩
    rw [ha.unlocated _ hnot, hb.unlocated _ fun e he => hnot e ((hab e).mpr he)]

/-- The import errors after an order, if each file has one. -/
theorem importErrors_processModules (h : Settled env bag entries) (lastChanged : Nat)
    (hnodup : order.Nodup) (hsub : ∀ e ∈ order, e ∈ entries) :
    (∀ e ∈ order, ∀ text, errorText env bag e = some text →
      (processModules env lastChanged order bag).1.importErrors e.2 = some text) ∧
    ∀ file, (∀ e ∈ order, e.2 = file → errorText env bag e = none) →
      (processModules env lastChanged order bag).1.importErrors file = bag.importErrors file := by
  induction order using List.reverseRecOn with
  | nil => exact ⟨fun _ he => absurd he List.not_mem_nil, fun _ _ => rfl⟩
  | append_singleton L e ih =>
    obtain ⟨hL, -, hdisjoint⟩ := List.nodup_append.mp hnodup
    have hnew : e ∉ L := fun he => hdisjoint e he e (List.mem_singleton_self e) rfl
    have hsubL : ∀ e ∈ L, e ∈ entries := fun e he => hsub e (List.mem_append_left _ he)
    have he : e ∈ entries := hsub e (List.mem_append_right _ (List.mem_singleton_self e))
    obtain ⟨hafter, -⟩ := after_processModules h.toConsistent lastChanged hL hsubL
    have heffect := effect_eq h.toConsistent hafter hsubL he hnew
    obtain ⟨htexts, hnone⟩ := ih hL hsubL
    obtain ⟨-, -, herrors, -⟩ :=
      processDag_eq env lastChanged (processModules env lastChanged L bag) e
    rw [errorText, heffect, ← errorText] at herrors
    rw [processModules_append]
    refine ⟨fun e' he' text htext => ?_, fun file hfile => ?_⟩
    · rw [herrors]
      by_cases hsame : e'.2 = e.2
      · rw [if_pos hsame]
        cases hown : errorText env bag e with
        | none =>
          obtain he' | he' := List.mem_append.mp he'
          · exact htexts e' he' text htext
          · obtain rfl := List.mem_singleton.mp he'
            rw [htext] at hown
            cases hown
        | some text' =>
          rw [h.errors e' (hsub e' he') e he hsame text text' htext hown, Option.some_or]
      · rw [if_neg hsame]
        obtain he' | he' := List.mem_append.mp he'
        · exact htexts e' he' text htext
        · exact absurd (congrArg Prod.snd (List.mem_singleton.mp he')) hsame
    · rw [herrors]
      have hrest := hnone file fun e' he' => hfile e' (List.mem_append_left _ he')
      split
      · next hsame =>
        rw [hfile e (List.mem_append_right _ (List.mem_singleton_self e)) hsame.symm,
          Option.none_or]
        exact hrest
      · exact hrest

/-- **Every order has the same outcome for DAGs that are settled.** -/
theorem orderIndependent_of_settled (h : Settled env bag entries) :
    OrderIndependent env bag entries := by
  intro lastChanged a b ha hb
  have hab : ∀ e, e ∈ a ↔ e ∈ b := fun e => (ha.2 e).trans (hb.2 e).symm
  have hina : ∀ e ∈ a, e ∈ entries := fun e => (ha.2 e).mp
  have hinb : ∀ e ∈ b, e ∈ entries := fun e => (hb.2 e).mp
  obtain ⟨haftera, hfounda⟩ := after_processModules h.toConsistent lastChanged ha.1 hina
  obtain ⟨hafterb, hfoundb⟩ := after_processModules h.toConsistent lastChanged hb.1 hinb
  obtain ⟨htextsa, hnonea⟩ := importErrors_processModules h lastChanged ha.1 hina
  obtain ⟨htextsb, hnoneb⟩ := importErrors_processModules h lastChanged hb.1 hinb
  obtain ⟨hdags, hloc⟩ := haftera.unique h.toConsistent hafterb ha.2 hb.2
  refine ⟨hdags, hloc, fun file => ?_, fun dagId => ?_⟩
  · by_cases herror : ∃ e ∈ a, e.2 = file ∧ errorText env bag e ≠ none
    · obtain ⟨e, he, rfl, hsome⟩ := herror
      obtain ⟨text, htext⟩ := Option.ne_none_iff_exists'.mp hsome
      rw [htextsa e he text htext, htextsb e ((hab e).mp he) text htext]
    · have hnot : ∀ e ∈ a, e.2 = file → errorText env bag e = none := by
        intro e he hfile
        by_contra hsome
        exact herror ⟨e, he, hfile, hsome⟩
      rw [hnonea file hnot, hnoneb file fun e he => hnot e ((hab e).mpr he)]
  · rw [hfounda, hfoundb]
    simp only [hab]

end Airflow.Bagging
