import Airflow.DagBag.Proof.LoadOrder
import Mathlib.Data.Finset.Dedup

/-!
# Orders that differ

Where DAGs without sub-DAGs are not settled, two orders end in different bags
(`settled_of_orderIndependent`). For each id, the DAG that is in the bag in the end was in it before
or is the only one that can be stored: otherwise it is refused in an order where it comes last.
-/

namespace Airflow.Bagging

open DagBag

variable {env : Env} {bag t : DagBag} {dag : DagObj} {entries : Finset Entry}
  {L order : List Entry} {e e' : Entry} {s : DagBag × List DagObj} {lastChanged : Nat}

/-! ## DAGs without sub-DAGs -/

/-- The DAG is stored in its turn: it passes its own checks, and no DAG of another file has its
id. -/
def Stores (env : Env) (t : DagBag) (e : Entry) : Prop :=
  Accepted env e ∧ ∀ prev, t.dags e.1.dagId = some prev →
    prev = e.1.serial ∨ t.fileloc ⟨e.1.dagId, prev⟩ = e.2

/-- DAG objects with one id have different numbers. -/
theorem DagObj.serial_ne {a b : DagObj} (hid : a.dagId = b.dagId) (hne : a ≠ b) :
    b.serial ≠ a.serial := by
  intro h
  have heq : a = ⟨b.dagId, b.serial⟩ := by rw [← hid, h]
  exact hne heq

/-- The import error for a duplicated id. -/
def duplicateText (e : Entry) (existing : String) : String :=
  let x := Exn.dagDuplicatedId e.1.dagId e.2 existing
  x.typeName ++ ": " ++ x.text

theorem duplicateText_inj {f f' : String} (h : duplicateText e f = duplicateText e f') :
    f = f' := by
  have htext := String.append_right_inj _ |>.mp h
  exact String.append_right_inj _ |>.mp htext

theorem stores_iff (haccepted : Accepted env e) : Stores env t e ↔
    (t.setFileloc e.1 e.2).clash e.2 [] e.1 = none := by
  rw [Stores, Option.eq_none_iff_forall_ne_some]
  constructor
  · rintro ⟨-, h⟩ x hx
    obtain ⟨prev, hprev, hserial, hfile, -⟩ := clash_root.mp hx
    obtain h | h := h prev hprev
    · exact hserial h
    · exact hfile h
  · intro h
    refine ⟨haccepted, fun prev hprev => ?_⟩
    by_contra hnot
    obtain ⟨hserial, hfile⟩ := not_or.mp hnot
    exact h _ (clash_root.mpr ⟨prev, hprev, hserial, hfile, rfl⟩)

theorem effect_plain (hplain : env.subdags e.1 = []) (haccepted : Accepted env e) (t : DagBag) :
    effect env t e = match (t.setFileloc e.1 e.2).clash e.2 [] e.1 with
      | none => ⟨none, [e.1], [e.1], []⟩
      | some x => ⟨some x, [e.1, e.1], [], []⟩ := by
  have hfamily : family env e = [e.1] := by rw [family, hplain, List.nil_append]
  rw [effect_accepted haccepted, failure_set, hfamily, firstFailure_singleton haccepted.2, hplain]
  cases (t.setFileloc e.1 e.2).clash e.2 [] e.1 with
  | none => rfl
  | some x =>
    simp

theorem mem_located_plain (hplain : env.subdags e.1 = []) (t : DagBag) :
    dag ∈ (effect env t e).located ↔ dag = e.1 := by
  by_cases haccepted : Accepted env e
  · rw [effect_plain hplain haccepted]
    split
    · exact List.mem_singleton
    · simp
  · obtain ⟨x, -, heffect⟩ := effect_rejected t haccepted
    rw [heffect]
    exact List.mem_singleton

theorem stored_plain (hplain : env.subdags e.1 = []) (t : DagBag) {dagId : String} {serial : Nat} :
    lastSerial (effect env t e).stored dagId = some serial ↔
      Stores env t e ∧ (⟨dagId, serial⟩ : DagObj) = e.1 := by
  by_cases haccepted : Accepted env e
  · rw [stores_iff haccepted, effect_plain hplain haccepted]
    cases hclash : (t.setFileloc e.1 e.2).clash e.2 [] e.1 with
    | none =>
      have hsingle := @lastSerial_append_singleton e.1 [] dagId
      rw [List.nil_append] at hsingle
      simp only [hsingle, true_and]
      by_cases hid : e.1.dagId = dagId
      · subst hid
        rw [if_pos rfl, Option.some.injEq]
        exact ⟨fun h => by rw [← h], fun h => (congrArg DagObj.serial h).symm⟩
      · rw [if_neg hid]
        exact ⟨fun h => (by cases h), fun h => absurd (congrArg DagObj.dagId h).symm hid⟩
    | some x => exact ⟨fun h => (by cases h), fun h => (by cases h.1)⟩
  · obtain ⟨x, -, heffect⟩ := effect_rejected t haccepted
    rw [heffect]
    exact ⟨fun h => (by cases h), fun h => absurd h.1.1 haccepted⟩

theorem removed_plain (hplain : env.subdags e.1 = []) (t : DagBag) :
    (effect env t e).removed = [] := by
  by_cases haccepted : Accepted env e
  · rw [effect_plain hplain haccepted]
    split
    · rfl
    · rfl
  · obtain ⟨x, -, heffect⟩ := effect_rejected t haccepted
    rw [heffect]

/-- A turn for a DAG without sub-DAGs. -/
theorem processDag_plain (hplain : env.subdags e.1 = []) (lastChanged : Nat)
    (s : DagBag × List DagObj) :
    (Stores env s.1 e → (processDag env lastChanged s e).1.dags e.1.dagId = some e.1.serial) ∧
    (¬Stores env s.1 e → (processDag env lastChanged s e).1.dags = s.1.dags) ∧
    (∀ dagId, dagId ≠ e.1.dagId → (processDag env lastChanged s e).1.dags dagId = s.1.dags dagId) ∧
    ∀ dag, (processDag env lastChanged s e).1.fileloc dag =
      if dag = e.1 then e.2 else s.1.fileloc dag := by
  obtain ⟨hdags, hloc, -, -⟩ := processDag_eq env lastChanged s e
  obtain ⟨-, hdags', hloc'⟩ := attempt_eq env s.1 e
  simp only [removed_plain hplain, List.not_mem_nil, if_false] at hdags'
  simp only [mem_located_plain hplain] at hloc'
  rw [hdags, hloc]
  refine ⟨fun hstores => ?_, fun hnot => funext fun dagId => ?_, fun dagId hid => ?_, hloc'⟩
  · rw [hdags', (stored_plain hplain s.1).mpr ⟨hstores, rfl⟩, Option.some_or]
  · rw [hdags']
    cases hlast : lastSerial (effect env s.1 e).stored dagId with
    | none => rfl
    | some serial => exact absurd ((stored_plain hplain s.1).mp hlast).1 hnot
  · rw [hdags']
    cases hlast : lastSerial (effect env s.1 e).stored dagId with
    | none => rfl
    | some serial =>
      exact absurd (congrArg DagObj.dagId ((stored_plain hplain s.1).mp hlast).2) hid

/-- A DAG that cannot be stored gets an error with the file of the DAG in the bag. -/
theorem errorText_plain (hplain : env.subdags e.1 = []) (haccepted : Accepted env e)
    (hnot : ¬Stores env t e) : ∃ prev, t.dags e.1.dagId = some prev ∧ prev ≠ e.1.serial ∧
      t.fileloc ⟨e.1.dagId, prev⟩ ≠ e.2 ∧
      errorText env t e = some (duplicateText e (t.fileloc ⟨e.1.dagId, prev⟩)) := by
  rw [stores_iff haccepted] at hnot
  obtain ⟨x, hclash⟩ := Option.ne_none_iff_exists'.mp hnot
  obtain ⟨prev, hprev, hserial, hfile, rfl⟩ := clash_root.mp hclash
  refine ⟨prev, hprev, hserial, hfile, ?_⟩
  rw [errorText, effect_plain hplain haccepted, hclash]
  rfl

/-- What each turn keeps is kept by a part of an order. -/
theorem foldl_processDag (P : DagBag → Prop)
    (hstep : ∀ e ∈ order, ∀ s : DagBag × List DagObj, P s.1 → P (processDag env lastChanged s e).1)
    (h : P s.1) : P (order.foldl (processDag env lastChanged) s).1 := by
  induction order generalizing s with
  | nil => exact h
  | cons e order ih =>
    exact ih (fun e' he' => hstep e' (List.mem_cons_of_mem e he')) (hstep e List.mem_cons_self s h)

/-! ### What the bag holds under an id -/

/-- The bag holds a DAG, from a file. -/
def Held (dag : DagObj) (file : String) (t : DagBag) : Prop :=
  t.dags dag.dagId = some dag.serial ∧ t.fileloc dag = file

/-- It is kept by DAGs that cannot be stored in its place. -/
theorem Held.step {file : String} (hplain : env.subdags e.1 = []) (h : Held dag file s.1)
    (hother : e.1 ≠ dag) (hrefused : e.1.dagId = dag.dagId → Accepted env e → e.2 ≠ file) :
    Held dag file (processDag env lastChanged s e).1 := by
  obtain ⟨hdags, hfile⟩ := h
  obtain ⟨-, hnot, hothers, hloc⟩ := processDag_plain hplain lastChanged s
  refine ⟨?_, by rw [hloc, if_neg (Ne.symm hother), hfile]⟩
  by_cases hid : e.1.dagId = dag.dagId
  · have hrefuse : ¬Stores env s.1 e := by
      rintro ⟨haccepted, h⟩
      rw [hid] at h
      obtain h | h := h dag.serial hdags
      · exact DagObj.serial_ne hid hother h
      · exact hrefused hid haccepted (h.symm.trans hfile)
    rw [hnot hrefuse, hdags]
  · rw [hothers _ (Ne.symm hid), hdags]

/-- Such a DAG gets an error with the file. -/
theorem Held.errorText {file : String} (h : Held dag file t) (hplain : env.subdags e.1 = [])
    (haccepted : Accepted env e) (hid : e.1.dagId = dag.dagId) (hother : e.1 ≠ dag)
    (hfile : e.2 ≠ file) : Bagging.errorText env t e = some (duplicateText e file) := by
  obtain ⟨hdags, hloc⟩ := h
  rw [← hid] at hdags
  have hobj : (⟨e.1.dagId, dag.serial⟩ : DagObj) = dag := by rw [hid]
  have hrefuse : ¬Stores env t e := by
    rintro ⟨-, h⟩
    obtain h | h := h dag.serial hdags
    · exact DagObj.serial_ne hid hother h
    · rw [hobj, hloc] at h
      exact hfile h.symm
  obtain ⟨prev, hprev, -, -, htext⟩ := errorText_plain hplain haccepted hrefuse
  obtain rfl := Option.some.inj (hdags.symm.trans hprev)
  rw [htext, hobj, hloc]

/-- A DAG that no other one can replace is kept. -/
theorem held_foldl (hheld : bag.dags dag.dagId = some dag.serial)
    (hplain : ∀ x ∈ order, env.subdags x.1 = []) (hother : ∀ x ∈ order, x.1 ≠ dag)
    (hrefused : ∀ x ∈ order, x.1.dagId = dag.dagId → ¬Stores env bag x) :
    Held dag (bag.fileloc dag) (order.foldl (processDag env lastChanged) (bag, [])).1 := by
  refine foldl_processDag (Held _ _) (fun x hx s h => ?_) ⟨hheld, rfl⟩
  refine h.step (hplain x hx) (hother x hx) fun hid haccepted hfile => ?_
  refine hrefused x hx hid ⟨haccepted, fun prev hprev => .inr ?_⟩
  rw [hid, hheld] at hprev
  rw [hid, ← Option.some.inj hprev]
  exact hfile.symm

/-- Its own entries leave it in the bag. -/
theorem dags_own (hplain : env.subdags e.1 = []) (h : s.1.dags e.1.dagId = some e.1.serial) :
    (processDag env lastChanged s e).1.dags e.1.dagId = some e.1.serial := by
  obtain ⟨hstores, hnot, -, -⟩ := processDag_plain hplain lastChanged s
  by_cases hown : Stores env s.1 e
  · exact hstores hown
  · rw [hnot hown, h]

/-- The bag holds another DAG in the place of this one, from another file. -/
def Blocked (dag : DagObj) (file : String) (t : DagBag) : Prop :=
  ∃ other file', other.dagId = dag.dagId ∧ other ≠ dag ∧ file' ≠ file ∧ Held other file' t

/-- It stays so until the DAG comes, and then the DAG is refused. -/
theorem Blocked.step {file : String} (hplain : env.subdags e.1 = []) (h : Blocked dag file s.1)
    (hstep : e.1.dagId = dag.dagId → e.1 ≠ dag ∧ Accepted env e ∧ e.2 ≠ file ∨ e = (dag, file)) :
    Blocked dag file (processDag env lastChanged s e).1 := by
  obtain ⟨other, file', hid, hother, hfile, hheld⟩ := h
  by_cases hsame : e.1.dagId = dag.dagId
  · obtain ⟨hne, haccepted, hfile'⟩ | rfl := hstep hsame
    · obtain ⟨hstores, hnot, -, hloc⟩ := processDag_plain hplain lastChanged s
      by_cases hown : Stores env s.1 e
      · exact ⟨e.1, e.2, hsame, hne, hfile', hstores hown, by rw [hloc, if_pos rfl]⟩
      · by_cases hobj : other = e.1
        · subst hobj
          exact ⟨e.1, e.2, hsame, hne, hfile', dags_own hplain hheld.1, by rw [hloc, if_pos rfl]⟩
        · refine ⟨other, file', hid, hother, hfile, by rw [hnot hown]; exact hheld.1, ?_⟩
          rw [hloc, if_neg hobj]
          exact hheld.2
    · exact ⟨other, file', hid, hother, hfile,
        hheld.step hplain (Ne.symm hother) fun _ _ => Ne.symm hfile⟩
  · exact ⟨other, file', hid, hother, hfile,
      hheld.step hplain (fun h => hsame (by rw [h, hid])) fun h => absurd (h.trans hid) hsame⟩

/-! ## Parts of an order -/

/-- An order with one DAG after those with the first property, then those with the second. -/
theorem exists_order (he : e ∈ entries) (p q : Entry → Prop) [DecidablePred p] [DecidablePred q] :
    ∃ a b c, IsOrder entries (a ++ e :: (b ++ c)) ∧ (∀ x ∈ a, x ∈ entries ∧ x ≠ e ∧ p x) ∧
      (∀ x ∈ b, x ∈ entries ∧ x ≠ e ∧ ¬p x ∧ q x) ∧
      ∀ x ∈ c, x ∈ entries ∧ x ≠ e ∧ ¬p x ∧ ¬q x := by
  let others := entries.toList.erase e
  let rest := others.filter fun x => !decide (p x)
  have hothers : ∀ x, x ∈ others ↔ x ∈ entries ∧ x ≠ e := by
    intro x
    rw [entries.nodup_toList.mem_erase_iff, Finset.mem_toList, and_comm]
  have hperm : (others.filter (fun x => p x) ++ e :: (rest.filter (fun x => q x) ++
      rest.filter fun x => !decide (q x))).Perm entries.toList := by
    have hrest := List.filter_append_perm (fun x => q x) rest
    have hall := (hrest.append_left _).trans (List.filter_append_perm (fun x => p x) others)
    exact List.perm_middle.trans ((hall.cons e).trans
      (List.perm_cons_erase (Finset.mem_toList.mpr he)).symm)
  refine ⟨_, _, _, ⟨hperm.nodup_iff.mpr entries.nodup_toList, fun x => ?_⟩, ?_, ?_, ?_⟩
  · rw [hperm.mem_iff, Finset.mem_toList]
  all_goals
    intro x hx
    simp only [rest, List.mem_filter, hothers, decide_eq_true_eq, Bool.not_eq_true',
      decide_eq_false_iff_not] at hx
    tauto

/-- The order in which a DAG comes last. -/
theorem exists_last (he : e ∈ entries) : ∃ L, IsOrder entries (L ++ [e]) := by
  obtain ⟨a, b, c, horder, -, hb, hc⟩ := exists_order he (fun x => x ≠ e) fun _ => True
  have hb' : b = [] := List.eq_nil_iff_forall_not_mem.mpr fun x hx => (hb x hx).2.2.1 (hb x hx).2.1
  have hc' : c = [] := List.eq_nil_iff_forall_not_mem.mpr fun x hx => (hc x hx).2.2.1 (hc x hx).2.1
  subst hb' hc'
  exact ⟨a, horder⟩

/-! ## The DAG in the end -/

section
variable (hind : OrderIndependent env bag entries) (hplain : ∀ e ∈ entries, env.subdags e.1 = [])

/-- The bag after one of the orders. -/
noncomputable def final (env : Env) (bag : DagBag) (entries : Finset Entry) : DagBag :=
  (processModules env 0 entries.toList bag).1

include hind in
theorem final_eq (hactual : IsOrder entries order) :
    (∀ dagId, (processModules env 0 order bag).1.dags dagId = (final env bag entries).dags dagId) ∧
    (∀ dagId serial, (final env bag entries).dags dagId = some serial →
      (processModules env 0 order bag).1.fileloc ⟨dagId, serial⟩ =
        (final env bag entries).fileloc ⟨dagId, serial⟩) ∧
    ∀ file, (processModules env 0 order bag).1.importErrors file =
      (final env bag entries).importErrors file := by
  have hbase : IsOrder entries entries.toList :=
    ⟨entries.nodup_toList, fun e => Finset.mem_toList⟩
  obtain ⟨hdags, hloc, herrors, -⟩ := hind 0 order entries.toList hactual hbase
  exact ⟨hdags, fun dagId serial h => hloc dagId serial ((hdags dagId).trans h), herrors⟩

include hind hplain

/-- The DAG in the bag is found in its file only. -/
theorem file_of_final (he : e ∈ entries)
    (hfinal : (final env bag entries).dags e.1.dagId = some e.1.serial) :
    e.2 = (final env bag entries).fileloc e.1 := by
  obtain ⟨L, horder⟩ := exists_last he
  obtain ⟨-, hloc, -⟩ := final_eq hind horder
  obtain ⟨-, -, -, hstep⟩ := processDag_plain (hplain e he) 0 (processModules env 0 L bag)
  have hself := hloc e.1.dagId e.1.serial hfinal
  rw [processModules_append, hstep, if_pos rfl] at hself
  exact hself

/-- The last DAG, if it passes its own checks. -/
theorem last_accepted (he : e ∈ entries) (haccepted : Accepted env e)
    (horder : IsOrder entries (L ++ [e])) :
    ∃ serial, (final env bag entries).dags e.1.dagId = some serial ∧
      (serial ≠ e.1.serial → (processModules env 0 L bag).1.dags e.1.dagId = some serial ∧
        (processModules env 0 L bag).1.fileloc ⟨e.1.dagId, serial⟩ =
          (final env bag entries).fileloc ⟨e.1.dagId, serial⟩ ∧
        (processModules env 0 L bag).1.fileloc ⟨e.1.dagId, serial⟩ ≠ e.2 ∧
        (final env bag entries).importErrors e.2 = some (duplicateText e
          ((final env bag entries).fileloc ⟨e.1.dagId, serial⟩))) := by
  obtain ⟨hdags, hloc, herrors⟩ := final_eq hind horder
  obtain ⟨hstores, hnot, -, hstep⟩ :=
    processDag_plain (hplain e he) 0 (processModules env 0 L bag)
  simp only [processModules_append] at hdags hloc herrors
  by_cases h : Stores env (processModules env 0 L bag).1 e
  · refine ⟨e.1.serial, ?_, fun hne => absurd rfl hne⟩
    rw [← hdags, hstores h]
  · obtain ⟨prev, hprev, hserial, hfile, htext⟩ := errorText_plain (hplain e he) haccepted h
    have hfinal : (final env bag entries).dags e.1.dagId = some prev := by
      rw [← hdags, hnot h, hprev]
    refine ⟨prev, hfinal, fun _ => ?_⟩
    have hother : (⟨e.1.dagId, prev⟩ : DagObj) ≠ e.1 := fun h => hserial (congrArg DagObj.serial h)
    have hsame := hloc e.1.dagId prev hfinal
    rw [hstep, if_neg hother] at hsame
    refine ⟨hprev, hsame, hfile, ?_⟩
    obtain ⟨-, -, herror, -⟩ := processDag_eq env 0 (processModules env 0 L bag) e
    rw [← herrors, herror, if_pos rfl, htext, hsame, Option.some_or]

/-- A DAG that is not in the bag in the end is in another file. -/
theorem file_of_not_final (he : e ∈ entries) (haccepted : Accepted env e) {serial : Nat}
    (hfinal : (final env bag entries).dags e.1.dagId = some serial) (hne : serial ≠ e.1.serial) :
    e.2 ≠ (final env bag entries).fileloc ⟨e.1.dagId, serial⟩ := by
  obtain ⟨L, horder⟩ := exists_last he
  obtain ⟨serial', hfinal', h⟩ := last_accepted hind hplain he haccepted horder
  obtain rfl := Option.some.inj (hfinal.symm.trans hfinal')
  obtain ⟨-, hsame, hfile, -⟩ := h hne
  rw [← hsame]
  exact hfile.symm

/-- The DAG in the bag in the end is never shut out by another one, before the DAGs that can be
stored come. -/
theorem not_blocked (obj : DagObj)
    (hfinal : (final env bag entries).dags obj.dagId = some obj.serial)
    {a b : List Entry} (horder : IsOrder entries (a ++ b))
    (hb : ∀ x ∈ b, x.1 = obj ∨ Accepted env x) :
    ¬Blocked obj ((final env bag entries).fileloc obj) (processModules env 0 a bag).1 := by
  intro h
  have hrun : Blocked obj ((final env bag entries).fileloc obj)
      (processModules env 0 (a ++ b) bag).1 := by
    rw [processModules, List.foldl_append]
    refine foldl_processDag (Blocked _ _) (fun x hx s h => ?_) h
    have hx' : x ∈ entries := (horder.2 x).mp (List.mem_append_right a hx)
    refine h.step (hplain x hx') fun hid => ?_
    by_cases hobj : x.1 = obj
    · right
      subst hobj
      rw [← file_of_final hind hplain hx' hfinal]
    · have haccepted := (hb x hx).resolve_left hobj
      refine .inl ⟨hobj, haccepted, ?_⟩
      rw [← hid] at hfinal
      have hfile :=
        file_of_not_final hind hplain hx' haccepted hfinal (DagObj.serial_ne hid hobj)
      rw [hid] at hfile
      exact hfile
  obtain ⟨other, file, hid, hother, -, hheld, -⟩ := hrun
  rw [(final_eq hind horder).1, hid, hfinal] at hheld
  have heq : other = ⟨obj.dagId, obj.serial⟩ := by rw [← hid, Option.some.inj hheld]
  exact hother heq

/-- A DAG that could be stored at first is in the bag in the end. -/
theorem final_of_stores (he : e ∈ entries) (hstores : Stores env bag e) :
    (final env bag entries).dags e.1.dagId = some e.1.serial := by
  obtain ⟨L, hlast⟩ := exists_last he
  obtain ⟨serial, hfinal, -⟩ := last_accepted hind hplain he hstores.1 hlast
  by_contra hnot
  have hserial : serial ≠ e.1.serial := by
    rintro rfl
    exact hnot hfinal
  have hne : (⟨e.1.dagId, serial⟩ : DagObj) ≠ e.1 := fun h => hserial (congrArg DagObj.serial h)
  -- the DAG is stored before the others, and the one in the bag in the end comes last
  obtain ⟨a, b, c, horder, ha, hb, hc⟩ := exists_order he
    (fun x => ¬Accepted env x ∧ x.1 = e.1) fun x => ¬Accepted env x ∧ x.1 ≠ ⟨e.1.dagId, serial⟩
  have hstart : Stores env (a.foldl (processDag env 0) (bag, [])).1 e := by
    have hkeep : (a.foldl (processDag env 0) (bag, [])).1.dags = bag.dags ∧
        ∀ other, other ≠ e.1 →
          (a.foldl (processDag env 0) (bag, [])).1.fileloc other = bag.fileloc other := by
      refine foldl_processDag (fun t => t.dags = bag.dags ∧
        ∀ other, other ≠ e.1 → t.fileloc other = bag.fileloc other) (fun x hx s h => ?_)
        ⟨rfl, fun _ _ => rfl⟩
      obtain ⟨hx, -, hrejected, hobj⟩ := ha x hx
      obtain ⟨-, hnot, -, hloc⟩ := processDag_plain (hplain x hx) 0 s
      refine ⟨(hnot fun h => hrejected h.1).trans h.1, fun other hother => ?_⟩
      rw [hloc, hobj, if_neg hother]
      exact h.2 other hother
    refine ⟨hstores.1, fun prev hprev => ?_⟩
    rw [hkeep.1] at hprev
    by_cases hprev' : prev = e.1.serial
    · exact .inl hprev'
    · rw [hkeep.2 _ fun h => hprev' (congrArg DagObj.serial h)]
      exact hstores.2 prev hprev
  obtain ⟨hown, -, -, hloc⟩ :=
    processDag_plain (hplain e he) 0 (a.foldl (processDag env 0) (bag, []))
  have hheld : Held e.1 e.2 (b.foldl (processDag env 0)
      (processDag env 0 (a.foldl (processDag env 0) (bag, [])) e)).1 := by
    refine foldl_processDag (Held e.1 e.2) (fun x hx s h => ?_)
      ⟨hown hstart, by rw [hloc, if_pos rfl]⟩
    obtain ⟨hx, -, hnot, hrejected, -⟩ := hb x hx
    exact h.step (hplain x hx) (fun h => hnot ⟨hrejected, h⟩) fun _ h => absurd h hrejected
  rw [← List.cons_append, ← List.append_assoc] at horder
  refine not_blocked hind hplain ⟨e.1.dagId, serial⟩ hfinal horder (fun x hx => ?_)
    ⟨e.1, e.2, rfl, Ne.symm hne, ?_, ?_⟩
  · by_cases hobj : x.1 = ⟨e.1.dagId, serial⟩
    · exact .inl hobj
    · right
      by_contra hrejected
      exact (hc x hx).2.2.2 ⟨hrejected, hobj⟩
  · exact file_of_not_final hind hplain he hstores.1 hfinal hserial
  · rw [processModules, List.foldl_append]
    exact hheld

/-- A DAG that the bag held at first is found in its own file, if it is held in the end and another
one with its id passes its own checks. -/
theorem file_of_held_final (he : e ∈ entries) (hheld : bag.dags e.1.dagId = some e.1.serial)
    (hfinal : (final env bag entries).dags e.1.dagId = some e.1.serial) (he' : e' ∈ entries)
    (haccepted : Accepted env e') (hid : e'.1.dagId = e.1.dagId) (hother : e'.1 ≠ e.1) :
    e.2 = bag.fileloc e.1 := by
  have hobj : (⟨e'.1.dagId, e.1.serial⟩ : DagObj) = e.1 := by rw [hid]
  have hfinal' : (final env bag entries).dags e'.1.dagId = some e.1.serial := by rw [hid, hfinal]
  have hstores : ∀ x ∈ entries, x.1 ≠ e.1 → x.1.dagId = e.1.dagId → ¬Stores env bag x := by
    intro x hx hne hid h
    have hx' := final_of_stores hind hplain hx h
    rw [hid, hfinal] at hx'
    exact DagObj.serial_ne hid hne (Option.some.inj hx')
  have hfile := file_of_final hind hplain he hfinal
  have hfile' : e'.2 ≠ (final env bag entries).fileloc e.1 := by
    have h := file_of_not_final hind hplain he' haccepted hfinal' (DagObj.serial_ne hid hother)
    rwa [hobj] at h
  -- the other DAG is refused with one file if it comes last, and with the other if it comes first
  obtain ⟨L, hlast⟩ := exists_last he'
  obtain ⟨serial, hsome, htext⟩ := last_accepted hind hplain he' haccepted hlast
  obtain rfl := Option.some.inj (hfinal'.symm.trans hsome)
  obtain ⟨-, -, -, htext⟩ := htext (DagObj.serial_ne hid hother)
  obtain ⟨a, b, c, horder, ha, hb, hc⟩ := exists_order he' (fun x => x.1 ≠ e.1) fun _ => True
  have hstart : Held e.1 (bag.fileloc e.1) (a.foldl (processDag env 0) (bag, [])).1 :=
    held_foldl hheld (fun x hx => hplain x (ha x hx).1) (fun x hx => (ha x hx).2.2)
      fun x hx hid => hstores x (ha x hx).1 (ha x hx).2.2 hid
  have hbag : e'.2 ≠ bag.fileloc e.1 := by
    intro h
    refine hstores e' he' hother hid ⟨haccepted, fun prev hprev => .inr ?_⟩
    rw [hid, hheld] at hprev
    rw [hid, ← Option.some.inj hprev]
    exact h.symm
  have htext' := hstart.errorText (hplain e' he') haccepted hid hother hbag
  have herror : (processModules env 0 (a ++ e' :: (b ++ c)) bag).1.importErrors e'.2 =
      some (duplicateText e' (bag.fileloc e.1)) := by
    rw [processModules, List.foldl_append, List.foldl_cons]
    refine foldl_processDag (fun t => t.importErrors e'.2 = _) (fun x hx s h => ?_) ?_
    · obtain ⟨hx', hown⟩ : x ∈ entries ∧ x.1 = e.1 := by
        obtain hx | hx := List.mem_append.mp hx
        · exact ⟨(hb x hx).1, not_not.mp (hb x hx).2.2.1⟩
        · exact ⟨(hc x hx).1, not_not.mp (hc x hx).2.2.1⟩
      have hfilex := file_of_final hind hplain hx' (by rw [hown, hfinal])
      rw [hown] at hfilex
      obtain ⟨-, -, herrors, -⟩ := processDag_eq env 0 s x
      rw [herrors, if_neg (by rw [hfilex]; exact hfile'), h]
    · obtain ⟨-, -, herrors, -⟩ := processDag_eq env 0 (a.foldl (processDag env 0) (bag, [])) e'
      rw [herrors, if_pos rfl, htext', Option.some_or]
  rw [(final_eq hind horder).2.2, htext, hobj] at herror
  exact hfile.trans (duplicateText_inj (Option.some.inj herror))

/-- What is in the bag in the end was in it before, or can be stored. -/
theorem origin_of_final {dagId : String} {serial : Nat}
    (hfinal : (final env bag entries).dags dagId = some serial) :
    bag.dags dagId = some serial ∨
      ∃ x ∈ entries, Accepted env x ∧ x.1 = ⟨dagId, serial⟩ := by
  have hrun : ∀ serial, (final env bag entries).dags dagId = some serial →
      bag.dags dagId = some serial ∨ ∃ x ∈ entries, Accepted env x ∧ x.1 = ⟨dagId, serial⟩ := by
    refine foldl_processDag (fun t => ∀ serial, t.dags dagId = some serial → bag.dags dagId =
      some serial ∨ ∃ x ∈ entries, Accepted env x ∧ x.1 = ⟨dagId, serial⟩) (fun x hx s h => ?_)
      fun serial h => .inl h
    have hx' := Finset.mem_toList.mp hx
    obtain ⟨hstores, hnot, hothers, -⟩ := processDag_plain (hplain x hx') 0 s
    intro serial hserial
    by_cases hown : Stores env s.1 x
    · by_cases hid : dagId = x.1.dagId
      · subst hid
        obtain rfl := Option.some.inj ((hstores hown).symm.trans hserial)
        exact .inr ⟨x, hx', hown.1, rfl⟩
      · rw [hothers dagId hid] at hserial
        exact h serial hserial
    · rw [hnot hown] at hserial
      exact h serial hserial
  exact hrun serial hfinal

/-- A DAG that the bag held at first is found in its own file, if another one with its id passes its
own checks. -/
theorem file_of_held (he : e ∈ entries) (hheld : bag.dags e.1.dagId = some e.1.serial)
    (he' : e' ∈ entries) (haccepted : Accepted env e') (hid : e'.1.dagId = e.1.dagId)
    (hother : e'.1 ≠ e.1) : e.2 = bag.fileloc e.1 := by
  obtain ⟨L, hlast⟩ := exists_last he'
  obtain ⟨serial, hfinal, -⟩ := last_accepted hind hplain he' haccepted hlast
  rw [hid] at hfinal
  by_cases hserial : serial = e.1.serial
  · rw [hserial] at hfinal
    exact file_of_held_final hind hplain he hheld hfinal he' haccepted hid hother
  -- another DAG is in the bag in the end, so it is from the file of the one from before
  have hne : e.1 ≠ ⟨e.1.dagId, serial⟩ := fun h => hserial (congrArg DagObj.serial h).symm
  have hsame : (final env bag entries).fileloc ⟨e.1.dagId, serial⟩ = bag.fileloc e.1 := by
    by_contra hdifferent
    obtain ⟨a, b, c, horder, ha, hb, hc⟩ := exists_order he (fun x => x.1 ≠ e.1) fun _ => True
    have hstart : Held e.1 (bag.fileloc e.1) (a.foldl (processDag env 0) (bag, [])).1 := by
      refine held_foldl hheld (fun x hx => hplain x (ha x hx).1) (fun x hx => (ha x hx).2.2)
        fun x hx hid' hstores => hdifferent ?_
      obtain ⟨hx, -, hnex⟩ := ha x hx
      have hfinalx := final_of_stores hind hplain hx hstores
      have hfilex := file_of_final hind hplain hx hfinalx
      rw [hid', hfinal] at hfinalx
      have hobjx : x.1 = ⟨e.1.dagId, serial⟩ := by rw [← hid', Option.some.inj hfinalx]
      have hbag : bag.dags x.1.dagId = some e.1.serial := by rw [hid', hheld]
      obtain hprev | hprev := hstores.2 _ hbag
      · exact absurd hprev (DagObj.serial_ne hid' hnex)
      · rw [hid'] at hprev
        rw [← hobjx, ← hfilex, ← hprev]
    have hown : (processModules env 0 (a ++ e :: (b ++ c)) bag).1.dags e.1.dagId =
        some e.1.serial := by
      rw [processModules, List.foldl_append]
      refine foldl_processDag (fun t => t.dags e.1.dagId = _) (fun x hx s h => ?_) hstart.1
      obtain ⟨hx', hobjx⟩ : x ∈ entries ∧ x.1 = e.1 := by
        obtain rfl | hx := List.mem_cons.mp hx
        · exact ⟨he, rfl⟩
        · obtain hx | hx := List.mem_append.mp hx
          · exact ⟨(hb x hx).1, not_not.mp (hb x hx).2.2.1⟩
          · exact ⟨(hc x hx).1, not_not.mp (hc x hx).2.2.1⟩
      rw [← hobjx] at h ⊢
      exact dags_own (hplain x hx') h
    rw [(final_eq hind horder).1, hfinal] at hown
    exact hserial (Option.some.inj hown)
  by_contra hfile
  obtain ⟨a, b, c, horder, ha, hb, hc⟩ := exists_order he (fun x => x.1 = e.1)
    fun x => ¬Accepted env x ∧ x.1 ≠ ⟨e.1.dagId, serial⟩
  have hstart : (a.foldl (processDag env 0) (bag, [])).1.dags e.1.dagId = some e.1.serial := by
    refine foldl_processDag (fun t => t.dags e.1.dagId = _) (fun x hx s h => ?_) hheld
    obtain ⟨hx, -, hown⟩ := ha x hx
    rw [← hown] at h ⊢
    exact dags_own (hplain x hx) h
  have hheld' : Held e.1 e.2 (b.foldl (processDag env 0)
      (processDag env 0 (a.foldl (processDag env 0) (bag, [])) e)).1 := by
    obtain ⟨-, -, -, hloc⟩ :=
      processDag_plain (hplain e he) 0 (a.foldl (processDag env 0) (bag, []))
    refine foldl_processDag (Held _ _) (fun x hx s h => ?_)
      ⟨dags_own (hplain e he) hstart, by rw [hloc, if_pos rfl]⟩
    obtain ⟨hx, -, hnot, hrejected, -⟩ := hb x hx
    exact h.step (hplain x hx) hnot fun _ h => absurd h hrejected
  rw [← List.cons_append, ← List.append_assoc] at horder
  refine not_blocked hind hplain ⟨e.1.dagId, serial⟩ hfinal horder (fun x hx => ?_)
    ⟨e.1, e.2, rfl, hne, ?_, ?_⟩
  · by_cases hobj : x.1 = ⟨e.1.dagId, serial⟩
    · exact .inl hobj
    · right
      by_contra hrejected
      exact (hc x hx).2.2.2 ⟨hrejected, hobj⟩
  · rw [hsame]
    exact hfile
  · rw [processModules, List.foldl_append]
    exact hheld'

/-- A DAG is found in one file, if it can be stored or the bag held it at first. -/
theorem file_eq (he : e ∈ entries) (he' : e' ∈ entries) (hobj : e'.1 = e.1)
    (h : Stores env bag e ∨ bag.dags e.1.dagId = some e.1.serial) : e'.2 = e.2 := by
  have hfinal : (final env bag entries).dags e.1.dagId = some e.1.serial → e'.2 = e.2 := by
    intro hfinal
    have hfile := file_of_final hind hplain he hfinal
    have hfile' := file_of_final hind hplain he' (by rw [hobj, hfinal])
    rw [hfile, hfile', hobj]
  obtain hstores | hheld := h
  · exact hfinal (final_of_stores hind hplain he hstores)
  · by_cases hother : ∃ x ∈ entries, Accepted env x ∧ x.1.dagId = e.1.dagId ∧ x.1 ≠ e.1
    · obtain ⟨x, hx, haccepted, hid, hne⟩ := hother
      have hfile := file_of_held hind hplain he hheld hx haccepted hid hne
      have hfile' := file_of_held hind hplain he' (by rw [hobj, hheld]) hx haccepted
        (by rw [hobj, hid]) (by rw [hobj]; exact hne)
      rw [hfile, hfile', hobj]
    · refine hfinal (foldl_processDag (fun t => t.dags e.1.dagId = _) (fun x hx s h => ?_) hheld)
      have hx' := Finset.mem_toList.mp hx
      by_cases hown : x.1 = e.1
      · rw [← hown] at h ⊢
        exact dags_own (hplain x hx') h
      · obtain ⟨-, hnot, hothers, -⟩ := processDag_plain (hplain x hx') 0 s
        by_cases hid : x.1.dagId = e.1.dagId
        · rw [hnot fun hstores => hother ⟨x, hx', hstores.1, hid, hown⟩, h]
        · rw [hothers _ (Ne.symm hid), h]

/-- **DAGs without sub-DAGs are settled, if every order has the same outcome.** -/
theorem settled_of_orderIndependent : Settled env bag entries := by
  have hconsistent : Consistent env bag entries := by
    constructor
    · intro e he _ hsubs
      exact absurd (hplain e he) hsubs
    · intro e he e' he' dagId serial serial' hstored hstored'
      obtain ⟨hstores, hobj⟩ := (stored_plain (hplain e he) bag).mp hstored
      obtain ⟨hstores', hobj'⟩ := (stored_plain (hplain e' he') bag).mp hstored'
      have hfinal := final_of_stores hind hplain he hstores
      have hfinal' := final_of_stores hind hplain he' hstores'
      rw [← hobj] at hfinal
      rw [← hobj'] at hfinal'
      exact Option.some.inj (hfinal.symm.trans hfinal')
    · intro e he dag hdag hreason e' he' hdag'
      obtain rfl := (mem_located_plain (hplain e he) bag).mp hdag
      have hobj := (mem_located_plain (hplain e' he') bag).mp hdag'
      refine file_eq hind hplain he he' hobj.symm (hreason.imp_left fun hstored => ?_)
      exact ((stored_plain (hplain e he) bag).mp hstored).1
    · intro e he dag hdag hheld e' he' _ haccepted dag' hdag' hid hother
      obtain rfl := (mem_located_plain (hplain e he) bag).mp hdag
      rw [family, hplain e' he', List.nil_append, List.mem_singleton] at hdag'
      subst hdag'
      exact file_of_held hind hplain he hheld he' haccepted hid hother
  refine ⟨hconsistent, fun e he e' he' hfile text text' htext htext' => ?_⟩
  have hlast : ∀ x ∈ entries, ∀ text, errorText env bag x = some text →
      (final env bag entries).importErrors x.2 = some text := by
    intro x hx text htext
    obtain ⟨L, horder⟩ := exists_last hx
    have hnodup := horder.1
    obtain ⟨hL, -, hdisjoint⟩ := List.nodup_append.mp hnodup
    have hsub : ∀ y ∈ L, y ∈ entries := fun y hy => (horder.2 y).mp (List.mem_append_left _ hy)
    have hnew : x ∉ L := fun h => hdisjoint x h x (List.mem_singleton_self x) rfl
    obtain ⟨hafter, -⟩ := after_processModules hconsistent 0 hL hsub
    have heffect := effect_eq hconsistent hafter hsub hx hnew
    obtain ⟨-, -, herrors, -⟩ := processDag_eq env 0 (processModules env 0 L bag) x
    rw [← (final_eq hind horder).2.2, processModules_append, herrors, if_pos rfl, errorText,
      heffect, ← errorText, htext, Option.some_or]
  have h := hlast e he text htext
  rw [hfile, hlast e' he' text' htext'] at h
  exact (Option.some.inj h).symm

end

/-- **Settled DAGs are loaded alike in every order, and DAGs without sub-DAGs only if they are
settled.** -/
theorem orderIndependent_iff (env : Env) (bag : DagBag) (entries : Finset Entry) :
    (Settled env bag entries → OrderIndependent env bag entries) ∧
    ((∀ e ∈ entries, env.subdags e.1 = []) →
      (OrderIndependent env bag entries ↔ Settled env bag entries)) :=
  ⟨orderIndependent_of_settled, fun hplain =>
    ⟨fun hind => settled_of_orderIndependent hind hplain, orderIndependent_of_settled⟩⟩

/-! ### Two DAGs with one id -/

/-- DAGs without tasks, which pass all checks. -/
def passing : Env where
  tasks _ := []
  depth _ := 0
  nested _ _ h := absurd h List.not_mem_nil
  checkCycle _ := none
  resolveTemplateFiles _ := none
  dagPolicy _ _ := none
  taskPolicy _ _ _ := none
  validate _ := none

theorem subdags_passing (dag : DagObj) : passing.subdags dag = [] := by
  rw [subdags_eq]
  rfl

theorem stores_passing (e : Entry) : Stores passing (emptyBag "") e :=
  ⟨⟨rfl, rfl⟩, fun _ h => by cases h⟩

theorem stored_passing {e : Entry} {dagId : String} {serial : Nat} :
    lastSerial (effect passing (emptyBag "") e).stored dagId = some serial ↔
      (⟨dagId, serial⟩ : DagObj) = e.1 := by
  rw [stored_plain (subdags_passing e.1), and_iff_right (stores_passing e)]

theorem errorText_passing (e : Entry) : errorText passing (emptyBag "") e = none := by
  have hstores := stores_passing e
  rw [errorText, effect_plain (subdags_passing e.1) hstores.1, (stores_iff hstores.1).mp hstores]
  rfl

/-- The DAGs of one file. -/
def etlAndReport : Finset Entry := {(⟨"etl", 0⟩, "etl.py"), (⟨"report", 0⟩, "etl.py")}

theorem etlAndReport_orderIndependent :
    OrderIndependent passing (emptyBag "") etlAndReport := by
  have hfile : ∀ e ∈ etlAndReport, e.2 = "etl.py" := by decide
  have hserial : ∀ e ∈ etlAndReport, e.1.serial = 0 := by decide
  refine (orderIndependent_iff passing (emptyBag "") etlAndReport).1 ?_
  refine { apart := ?_, one := ?_, oneFile := ?_, moved := ?_, errors := ?_ }
  · intro e _ _ hsubs
    exact absurd (subdags_passing e.1) hsubs
  · intro e he e' he' dagId serial serial' hstored hstored'
    have h := hserial e he
    have h' := hserial e' he'
    rw [← stored_passing.mp hstored] at h
    rw [← stored_passing.mp hstored'] at h'
    exact h.trans h'.symm
  · intro e he _ _ _ e' he' _
    rw [hfile e he, hfile e' he']
  · intro e _ dag _ hheld
    cases hheld
  · intro e _ e' _ _ text text' htext
    rw [errorText_passing] at htext
    cases htext

/-- Two DAGs of one file have one id, and the last one stays in the bag. -/
theorem sameId_not_orderIndependent : ¬OrderIndependent passing (emptyBag "")
    {(⟨"etl", 0⟩, "etl.py"), (⟨"etl", 1⟩, "etl.py")} := by
  intro h
  have hsettled := settled_of_orderIndependent h fun e _ => subdags_passing e.1
  have hone := hsettled.one (⟨"etl", 0⟩, "etl.py") (by decide) (⟨"etl", 1⟩, "etl.py") (by decide)
    "etl" 0 1 (stored_passing.mpr rfl) (stored_passing.mpr rfl)
  cases hone

end Airflow.Bagging
