import Airflow.DagBag.Bagging
import Mathlib.Data.List.Induction

/-!
# What is left of a DAG that cannot be bagged

`bag_dag` stores the sub-DAGs before the root. After a cycle or a duplicated id it removes whatever
is stored under their ids, after any other exception it removes nothing (`bagDag_eq`). So the bag is
as before exactly under `KeepsBag` (`atomic_iff`).
-/

namespace Airflow.Bagging

open DagBag

variable {env : Env} {bag : DagBag} {fileloc : String} {dag sub : DagObj}
  {subs earlier rest : List DagObj} {e : Exn}

/-! ## Lookups -/

@[simp] theorem dags_setFileloc : (bag.setFileloc dag fileloc).dags = bag.dags := rfl

@[simp] theorem fileloc_put : (bag.put dag).fileloc = bag.fileloc := rfl

@[simp] theorem fileloc_discard : (bag.discard dag).fileloc = bag.fileloc := rfl

theorem fileloc_setFileloc {dag' : DagObj} : (bag.setFileloc dag fileloc).fileloc dag' =
    if dag' = dag then fileloc else bag.fileloc dag' := by
  simp [setFileloc, Function.update_apply]

theorem setFileloc_self (h : bag.fileloc dag = fileloc) : bag.setFileloc dag fileloc = bag := by
  subst h
  rw [setFileloc, Function.update_eq_self]

theorem dags_put {dagId : String} : (bag.put dag).dags dagId =
    if dagId = dag.dagId then some dag.serial else bag.dags dagId := by
  simp [DagBag.put, Function.update_apply]

theorem dags_discard {dagId : String} : (bag.discard dag).dags dagId =
    if dagId = dag.dagId then none else bag.dags dagId := by
  simp [DagBag.discard, Function.update_apply]

theorem lastSerial_append_singleton {dagId : String} : lastSerial (earlier ++ [dag]) dagId =
    if dag.dagId = dagId then some dag.serial else lastSerial earlier dagId := by
  rw [lastSerial, List.reverse_append, List.reverse_singleton, List.singleton_append,
    List.find?_cons]
  by_cases h : dag.dagId = dagId <;> simp [h, lastSerial]

theorem lastSerial_eq_none {dagId : String} :
    lastSerial earlier dagId = none ↔ dagId ∉ earlier.map DagObj.dagId := by
  simp [lastSerial]

/-- What is stored last under an id is one of the DAGs with this id. -/
theorem mem_of_lastSerial {dagId : String} {serial : Nat}
    (h : lastSerial earlier dagId = some serial) : (⟨dagId, serial⟩ : DagObj) ∈ earlier := by
  obtain ⟨dag, hfind, rfl⟩ := Option.map_eq_some_iff.mp h
  obtain rfl : dag.dagId = dagId := by simpa using List.find?_some hfind
  exact List.mem_reverse.mp (List.mem_of_find?_eq_some hfind)

/-! ## Sub-DAGs -/

/-- The sub-DAGs of a task. -/
def taskSubdags (env : Env) (task : Task) : List DagObj :=
  match task.subdag with
  | some sub => sub :: env.subdags sub
  | none => []

theorem subdags_eq (env : Env) (dag : DagObj) :
    env.subdags dag = (env.tasks dag).flatMap (taskSubdags env) := by
  have hattach : (env.tasks dag).flatMap (taskSubdags env) =
      (env.tasks dag).attach.flatMap fun task => taskSubdags env task.1 := by
    conv_lhs => rw [← List.attach_map_subtype_val (env.tasks dag)]
    rw [List.flatMap_map]
  rw [Env.subdags, hattach]
  refine congrArg (fun f => List.flatMap f (env.tasks dag).attach) (funext fun task => ?_)
  rw [taskSubdags]
  split
  · next sub h => rw [h]
  · next h => rw [h]

/-- A sub-DAG has its `fileloc` and is stored. -/
def stored (fileloc : String) (bag : DagBag) (sub : DagObj) : DagBag :=
  (bag.setFileloc sub fileloc).put sub

theorem dags_foldl_stored {dagId : String} : (earlier.foldl (stored fileloc) bag).dags dagId =
    (lastSerial earlier dagId).or (bag.dags dagId) := by
  induction earlier using List.reverseRecOn with
  | nil => rfl
  | append_singleton earlier sub ih =>
    rw [List.foldl_append, List.foldl_cons, List.foldl_nil, stored, dags_put, dags_setFileloc, ih,
      lastSerial_append_singleton]
    by_cases h : dagId = sub.dagId
    · rw [if_pos h, if_pos h.symm, Option.some_or]
    · rw [if_neg h, if_neg (Ne.symm h)]

theorem fileloc_foldl_stored {dag : DagObj} : (earlier.foldl (stored fileloc) bag).fileloc dag =
    if dag ∈ earlier then fileloc else bag.fileloc dag := by
  induction earlier using List.reverseRecOn with
  | nil => simp
  | append_singleton earlier sub ih =>
    rw [List.foldl_append, List.foldl_cons, List.foldl_nil, stored, fileloc_put, fileloc_setFileloc,
      ih]
    by_cases h : dag = sub <;> simp [h]

/-- Storing a DAG after others of its file fails exactly if there is a clash. -/
theorem add_eq (bag : DagBag) (fileloc : String) (earlier : List DagObj) (dag : DagObj) :
    ((earlier.foldl (stored fileloc) bag).setFileloc dag fileloc).add dag =
      match bag.clash fileloc earlier dag with
      | some e => .error e
      | none => .ok (stored fileloc (earlier.foldl (stored fileloc) bag) dag) := by
  rw [add, dags_setFileloc, dags_foldl_stored]
  cases hlast : lastSerial earlier dag.dagId with
  | some prev =>
    have hmem := mem_of_lastSerial hlast
    have hid : dag.dagId ∈ earlier.map DagObj.dagId := List.mem_map.mpr ⟨_, hmem, rfl⟩
    have hprev : ((earlier.foldl (stored fileloc) bag).setFileloc dag fileloc).fileloc
        ⟨dag.dagId, prev⟩ = fileloc := by
      rw [fileloc_setFileloc, fileloc_foldl_stored, if_pos hmem, ite_self]
    simp only [Option.some_or, clash, if_pos hid]
    rw [if_neg]
    · rfl
    · rw [hprev, fileloc_setFileloc, if_pos rfl]
      exact fun h => h rfl
  | none =>
    have hid := lastSerial_eq_none.mp hlast
    simp only [Option.none_or, clash, if_neg hid]
    cases hprev : bag.dags dag.dagId with
    | none => rfl
    | some prev =>
      simp only
      have hother : (⟨dag.dagId, prev⟩ : DagObj) ∉ earlier :=
        fun h => hid (List.mem_map.mpr ⟨_, h, rfl⟩)
      by_cases hsame : prev = dag.serial
      · have hdag : (⟨dag.dagId, prev⟩ : DagObj) = dag := by rw [hsame]
        rw [if_neg (by rw [hdag]; exact fun h => h rfl), if_neg fun h => h.1 hsame]
        rfl
      · have hdag : (⟨dag.dagId, prev⟩ : DagObj) ≠ dag := fun h => hsame (by rw [← h])
        have hloc₁ : ((earlier.foldl (stored fileloc) bag).setFileloc dag fileloc).fileloc
            ⟨dag.dagId, prev⟩ = bag.fileloc ⟨dag.dagId, prev⟩ := by
          rw [fileloc_setFileloc, if_neg hdag, fileloc_foldl_stored, if_neg hother]
        have hloc₂ : ((earlier.foldl (stored fileloc) bag).setFileloc dag fileloc).fileloc dag =
            fileloc := by
          rw [fileloc_setFileloc, if_pos rfl]
        rw [hloc₁, hloc₂]
        by_cases hclash : bag.fileloc ⟨dag.dagId, prev⟩ ≠ fileloc
        · rw [if_pos hclash, if_pos ⟨hsame, hclash⟩]
        · rw [if_neg hclash, if_neg fun h => hclash h.2]
          rfl

theorem bagSubdag_eq (env : Env) :
    ((earlier.foldl (stored fileloc) bag).setFileloc sub fileloc).bagSubdag env sub =
    match (env.check sub fileloc).or (bag.clash fileloc earlier sub) with
    | some e => .error e
    | none => .ok (stored fileloc (earlier.foldl (stored fileloc) bag) sub) := by
  have hloc : ((earlier.foldl (stored fileloc) bag).setFileloc sub fileloc).fileloc sub =
      fileloc := by
    rw [fileloc_setFileloc, if_pos rfl]
  rw [bagSubdag, hloc]
  cases env.check sub fileloc with
  | some e => rfl
  | none => exact add_eq bag fileloc earlier sub

/-- The loop over the sub-DAGs stores those before the first failure. -/
theorem bagSubdags_eq (env : Env) (bag : DagBag) (fileloc : String) (subs earlier : List DagObj) :
    (firstFailure env bag fileloc earlier subs = none →
      bagSubdags env fileloc subs (earlier.foldl (stored fileloc) bag) =
        ((earlier ++ subs).foldl (stored fileloc) bag, none)) ∧
    ∀ before e, firstFailure env bag fileloc earlier subs = some (before, e) →
      ∃ sub rest, earlier ++ subs = before ++ sub :: rest ∧
        bagSubdags env fileloc subs (earlier.foldl (stored fileloc) bag) =
          ((before.foldl (stored fileloc) bag).setFileloc sub fileloc, some e) := by
  induction subs generalizing earlier with
  | nil => exact ⟨fun _ => by rw [bagSubdags, List.append_nil], fun _ _ h => by cases h⟩
  | cons sub subs ih =>
    rw [bagSubdags, bagSubdag_eq env, firstFailure]
    cases hfail : (env.check sub fileloc).or (bag.clash fileloc earlier sub) with
    | some e =>
      refine ⟨fun h => (by cases h), fun before e' h => ?_⟩
      obtain ⟨rfl, rfl⟩ := Prod.mk.inj (Option.some.inj h)
      exact ⟨sub, subs, rfl, rfl⟩
    | none =>
      have hnext : stored fileloc (earlier.foldl (stored fileloc) bag) sub =
          (earlier ++ [sub]).foldl (stored fileloc) bag := by
        rw [List.foldl_append]
        rfl
      obtain ⟨hok, hbad⟩ := ih (earlier ++ [sub])
      simp only [hnext]
      constructor
      · intro h
        rw [hok h, List.append_assoc, List.singleton_append]
      · intro before e h
        obtain ⟨sub', rest, hsplit, heq⟩ := hbad before e h
        exact ⟨sub', rest, by rw [← hsplit, List.append_assoc, List.singleton_append], heq⟩

/-! ## A DAG -/

/-- The first DAG that cannot be bagged, of the sub-DAGs and the DAG. -/
def failure (env : Env) (bag : DagBag) (dag : DagObj) : Option (List DagObj × Exn) :=
  firstFailure env bag (bag.fileloc dag) [] (env.subdags dag ++ [dag])

theorem firstFailure_append_singleton : firstFailure env bag fileloc earlier (subs ++ [dag]) =
    (firstFailure env bag fileloc earlier subs).or
      (((env.check dag fileloc).or (bag.clash fileloc (earlier ++ subs) dag)).map
        (earlier ++ subs, ·)) := by
  induction subs generalizing earlier with
  | nil =>
    simp only [List.nil_append, firstFailure, List.append_nil, Option.none_or]
    cases (env.check dag fileloc).or (bag.clash fileloc earlier dag) <;> rfl
  | cons sub subs ih =>
    rw [List.cons_append, firstFailure, firstFailure]
    cases (env.check sub fileloc).or (bag.clash fileloc earlier sub) with
    | some e => rfl
    | none =>
      simp only
      rw [ih, List.append_assoc, List.singleton_append]

/-- What was stored before a failure comes before the DAG that fails. -/
theorem firstFailure_before {before : List DagObj}
    (h : firstFailure env bag fileloc earlier subs = some (before, e)) :
    ∃ passed sub rest, subs = passed ++ sub :: rest ∧ before = earlier ++ passed := by
  induction subs generalizing earlier with
  | nil => cases h
  | cons sub subs ih =>
    rw [firstFailure] at h
    cases hfail : (env.check sub fileloc).or (bag.clash fileloc earlier sub) with
    | some e' =>
      rw [hfail] at h
      obtain ⟨rfl, rfl⟩ := Prod.mk.inj (Option.some.inj h)
      exact ⟨[], sub, subs, rfl, by rw [List.append_nil]⟩
    | none =>
      rw [hfail] at h
      obtain ⟨passed, sub', rest, rfl, rfl⟩ := ih h
      exact ⟨sub :: passed, sub', rest, rfl, by rw [List.append_assoc, List.singleton_append]⟩

/-- Before a failure only sub-DAGs are stored. -/
theorem mem_subdags_of_failure {before : List DagObj} (h : failure env bag dag = some (before, e)) :
    ∀ sub ∈ before, sub ∈ env.subdags dag := by
  obtain ⟨passed, failed, rest, hsplit, hbefore⟩ := firstFailure_before h
  rw [hbefore, List.nil_append]
  have hlength := congrArg List.length hsplit
  simp only [List.length_append, List.length_cons, List.length_nil] at hlength
  have hprefix : passed <+: env.subdags dag :=
    List.prefix_of_prefix_length_le ⟨failed :: rest, hsplit.symm⟩ ⟨[dag], rfl⟩ (by omega)
  exact fun sub hsub => hprefix.subset hsub

theorem dags_foldl_discard {dagId : String} : (subs.foldl discard bag).dags dagId =
    if dagId ∈ subs.map DagObj.dagId then none else bag.dags dagId := by
  induction subs generalizing bag with
  | nil => simp
  | cons sub subs ih =>
    rw [List.foldl_cons, ih, dags_discard]
    by_cases h : dagId = sub.dagId <;> simp [h]

theorem dags_cleanUp {dagId : String} : (cleanUp e subs bag).dags dagId =
    if e.cleansUp = true ∧ dagId ∈ subs.map DagObj.dagId then none else bag.dags dagId := by
  unfold cleanUp
  by_cases h : e.cleansUp = true
  · simp only [h, if_true, true_and, dags_foldl_discard]
  · simp [h]

/-- A DAG that passes its own checks is stored after its sub-DAGs, or the first failure ends it. -/
theorem bagDag_state (hcheck : env.check dag (bag.fileloc dag) = none) :
    (failure env bag dag = none → bag.bagDag env dag =
      ((env.subdags dag ++ [dag]).foldl (stored (bag.fileloc dag)) bag, none)) ∧
    ∀ before e, failure env bag dag = some (before, e) →
      ∃ failed rest, env.subdags dag ++ [dag] = before ++ failed :: rest ∧ bag.bagDag env dag =
        (cleanUp e (env.subdags dag)
          ((before.foldl (stored (bag.fileloc dag)) bag).setFileloc failed (bag.fileloc dag)),
          some e) := by
  obtain ⟨hok, hbad⟩ := bagSubdags_eq env bag (bag.fileloc dag) (env.subdags dag) []
  rw [failure, firstFailure_append_singleton, bagDag, hcheck]
  cases hsubs : firstFailure env bag (bag.fileloc dag) [] (env.subdags dag) with
  | some p =>
    obtain ⟨before, e⟩ := p
    obtain ⟨sub, rest, hsplit, heq⟩ := hbad before e hsubs
    simp only [List.foldl_nil, List.nil_append] at heq hsplit
    simp only [Option.some_or, heq]
    refine ⟨fun h => (by cases h), fun before' e' h => ?_⟩
    obtain ⟨rfl, rfl⟩ := Prod.mk.inj (Option.some.inj h)
    exact ⟨sub, rest ++ [dag], by rw [hsplit, List.append_assoc, List.cons_append], rfl⟩
  | none =>
    have heq := hok hsubs
    simp only [List.foldl_nil, List.nil_append] at heq
    have hself : ((env.subdags dag).foldl (stored (bag.fileloc dag)) bag).setFileloc dag
        (bag.fileloc dag) = (env.subdags dag).foldl (stored (bag.fileloc dag)) bag := by
      have hloc : ((env.subdags dag).foldl (stored (bag.fileloc dag)) bag).fileloc dag =
          bag.fileloc dag := by
        rw [fileloc_foldl_stored, ite_self]
      exact setFileloc_self hloc
    have hadd := add_eq bag (bag.fileloc dag) (env.subdags dag) dag
    rw [hself] at hadd
    simp only [heq, hadd, hcheck, Option.none_or, List.nil_append]
    cases bag.clash (bag.fileloc dag) (env.subdags dag) dag with
    | some e =>
      refine ⟨fun h => (by cases h), fun before' e' h => ?_⟩
      obtain ⟨rfl, rfl⟩ := Prod.mk.inj (Option.some.inj h)
      exact ⟨dag, [], rfl, by rw [hself]⟩
    | none =>
      refine ⟨fun _ => ?_, fun _ _ h => (by cases h)⟩
      rw [List.foldl_append]
      rfl

/-- **What `bag_dag` raises, and what it leaves in the bag.** -/
theorem bagDag_eq (hcheck : env.check dag (bag.fileloc dag) = none) :
    match failure env bag dag with
    | none => (bag.bagDag env dag).2 = none ∧
        ∀ dagId, (bag.bagDag env dag).1.dags dagId =
          (lastSerial (env.subdags dag ++ [dag]) dagId).or (bag.dags dagId)
    | some (before, e) => (bag.bagDag env dag).2 = some e ∧
        ∀ dagId, (bag.bagDag env dag).1.dags dagId =
          if e.cleansUp = true ∧ dagId ∈ (env.subdags dag).map DagObj.dagId then none
          else (lastSerial before dagId).or (bag.dags dagId) := by
  obtain ⟨hok, hbad⟩ := bagDag_state hcheck
  cases hfailure : failure env bag dag with
  | none =>
    simp only [hok hfailure, true_and]
    exact fun dagId => dags_foldl_stored
  | some p =>
    obtain ⟨before, e⟩ := p
    obtain ⟨failed, rest, -, heq⟩ := hbad before e hfailure
    simp only [heq, true_and]
    intro dagId
    rw [dags_cleanUp, dags_setFileloc, dags_foldl_stored]

theorem fileloc_cleanUp : (cleanUp e subs bag).fileloc = bag.fileloc := by
  have hdiscard : ∀ bag : DagBag, (subs.foldl discard bag).fileloc = bag.fileloc := by
    induction subs with
    | nil => exact fun _ => rfl
    | cons sub subs ih => exact fun bag => ih (bag.discard sub)
  unfold cleanUp
  split
  · exact hdiscard bag
  · rfl

/-- The DAGs up to the first failure get the `fileloc`. -/
theorem fileloc_bagDag (hcheck : env.check dag (bag.fileloc dag) = none) (other : DagObj) :
    (bag.bagDag env dag).1.fileloc other =
      if other ∈ (match failure env bag dag with
        | none => env.subdags dag ++ [dag]
        | some (before, _) => (env.subdags dag ++ [dag]).take (before.length + 1))
      then bag.fileloc dag else bag.fileloc other := by
  obtain ⟨hok, hbad⟩ := bagDag_state hcheck
  cases hfailure : failure env bag dag with
  | none =>
    rw [hok hfailure]
    exact fileloc_foldl_stored
  | some p =>
    obtain ⟨before, e⟩ := p
    obtain ⟨failed, rest, hsplit, heq⟩ := hbad before e hfailure
    have htake : (before ++ failed :: rest).take (before.length + 1) = before ++ [failed] := by
      rw [List.take_length_add_append]
      rfl
    simp only [heq, fileloc_cleanUp, fileloc_setFileloc, fileloc_foldl_stored, hsplit, htake,
      List.mem_append, List.mem_singleton]
    by_cases hother : other = failed
    · rw [if_pos hother, if_pos (.inr hother)]
    · rw [if_neg hother]
      simp only [hother, or_false]

/-! ## Atomicity -/

/-- If `bag_dag` raises, the bag holds the DAGs that it held before. -/
def Atomic (env : Env) (bag : DagBag) (dag : DagObj) : Prop :=
  ∀ e, (bag.bagDag env dag).2 = some e → ∀ dagId, (bag.bagDag env dag).1.dags dagId = bag.dags dagId

/-- The DAG itself is refused before its sub-DAGs are looked at, or nothing fails; or there is a
cycle or a duplicated id, and the bag holds nothing under the ids of the sub-DAGs; or a sub-DAG is
refused for another reason, and the bag holds the sub-DAGs before it already. -/
def KeepsBag (env : Env) (bag : DagBag) (dag : DagObj) : Prop :=
  env.check dag (bag.fileloc dag) = none → ∀ before e, failure env bag dag = some (before, e) →
    if e.cleansUp then ∀ sub ∈ env.subdags dag, bag.dags sub.dagId = none
    else ∀ sub ∈ before, bag.dags sub.dagId = lastSerial before sub.dagId

/-- **`bag_dag` is atomic exactly where it keeps the bag.** -/
theorem atomic_iff (env : Env) (bag : DagBag) (dag : DagObj) :
    Atomic env bag dag ↔ KeepsBag env bag dag := by
  cases hcheck : env.check dag (bag.fileloc dag) with
  | some e =>
    have hstate : bag.bagDag env dag = (bag, some e) := by rw [bagDag, hcheck]
    refine iff_of_true (fun _ _ _ => by rw [hstate]) fun hnone => ?_
    rw [hcheck] at hnone
    cases hnone
  | none =>
    have heq := bagDag_eq hcheck
    cases hfailure : failure env bag dag with
    | none =>
      simp only [hfailure] at heq
      refine iff_of_true (fun e he => ?_) fun _ _ _ h => ?_
      · rw [heq.1] at he
        cases he
      · rw [hfailure] at h
        cases h
    | some p =>
      obtain ⟨before, e⟩ := p
      simp only [hfailure] at heq
      obtain ⟨hraised, hdags⟩ := heq
      have hatomic : Atomic env bag dag ↔ ∀ dagId,
          (if e.cleansUp = true ∧ dagId ∈ (env.subdags dag).map DagObj.dagId then none
            else (lastSerial before dagId).or (bag.dags dagId)) = bag.dags dagId := by
        rw [Atomic]
        simp only [hraised, hdags]
        exact ⟨fun h => h e rfl, fun h _ _ => h⟩
      have hkeeps : KeepsBag env bag dag ↔
          if e.cleansUp then ∀ sub ∈ env.subdags dag, bag.dags sub.dagId = none
          else ∀ sub ∈ before, bag.dags sub.dagId = lastSerial before sub.dagId := by
        rw [KeepsBag]
        constructor
        · exact fun h => h hcheck before e hfailure
        · intro h _ before' e' h'
          obtain ⟨rfl, rfl⟩ := Prod.mk.inj (Option.some.inj (hfailure.symm.trans h'))
          exact h
      rw [hatomic, hkeeps]
      have hsubs := mem_subdags_of_failure hfailure
      by_cases hcleans : e.cleansUp = true
      · simp only [hcleans, if_true, true_and]
        constructor
        · intro h sub hsub
          have hsub' := h sub.dagId
          rw [if_pos (List.mem_map_of_mem hsub)] at hsub'
          exact hsub'.symm
        · intro h dagId
          split
          · next hmem =>
            obtain ⟨sub, hsub, rfl⟩ := List.mem_map.mp hmem
            exact (h sub hsub).symm
          · next hmem =>
            rw [lastSerial_eq_none.mpr, Option.none_or]
            intro hbefore'
            obtain ⟨sub, hsub, rfl⟩ := List.mem_map.mp hbefore'
            exact hmem (List.mem_map_of_mem (hsubs sub hsub))
      · simp only [hcleans, false_and, if_false, Bool.false_eq_true]
        constructor
        · intro h sub hsub
          have hsub' := h sub.dagId
          cases hlast : lastSerial before sub.dagId with
          | none => exact absurd (List.mem_map_of_mem hsub) (lastSerial_eq_none.mp hlast)
          | some serial =>
            rw [hlast, Option.some_or] at hsub'
            exact hsub'.symm
        · intro h dagId
          cases hlast : lastSerial before dagId with
          | none => rw [Option.none_or]
          | some serial =>
            have hsub := h _ (mem_of_lastSerial hlast)
            rw [Option.some_or, hsub, hlast]

/-! ### A sub-DAG that a policy refuses -/

/-- A DAG with two sub-DAGs, of which the policy refuses the second. -/
def twoSubdags : Env where
  tasks dag := if dag.dagId = "etl" then
      [⟨"load", some ⟨"etl.load", 0⟩⟩, ⟨"report", some ⟨"etl.report", 0⟩⟩]
    else []
  depth dag := if dag.dagId = "etl" then 1 else 0
  nested := by
    intro dag task htask sub hsub
    by_cases hdag : dag.dagId = "etl"
    · rw [if_pos hdag] at htask ⊢
      simp only [List.mem_cons, List.not_mem_nil, or_false] at htask
      obtain rfl | rfl := htask
      · obtain rfl := Option.some.inj hsub
        decide
      · obtain rfl := Option.some.inj hsub
        decide
    · rw [if_neg hdag] at htask
      exact absurd htask List.not_mem_nil
  checkCycle _ := none
  resolveTemplateFiles _ := none
  dagPolicy dag _ :=
    if dag.dagId = "etl.report" then some (.clusterPolicyViolation "no owner") else none
  taskPolicy _ _ _ := none
  validate _ := none

/-- A bag without DAGs. -/
def emptyBag (fileloc : String) : DagBag :=
  ⟨fun _ => none, fun _ => fileloc, fun _ => none, fun _ => none⟩

theorem subdags_twoSubdags :
    twoSubdags.subdags ⟨"etl", 0⟩ = [⟨"etl.load", 0⟩, ⟨"etl.report", 0⟩] := by
  have hload : twoSubdags.subdags ⟨"etl.load", 0⟩ = [] := by
    rw [subdags_eq]
    rfl
  have hreport : twoSubdags.subdags ⟨"etl.report", 0⟩ = [] := by
    rw [subdags_eq]
    rfl
  rw [subdags_eq]
  change ⟨"etl.load", 0⟩ :: twoSubdags.subdags ⟨"etl.load", 0⟩ ++
    (⟨"etl.report", 0⟩ :: twoSubdags.subdags ⟨"etl.report", 0⟩ ++ []) = _
  rw [hload, hreport]
  rfl

/-- The second sub-DAG violates a policy, and the first one stays in the bag. -/
theorem violation_not_atomic : ¬Atomic twoSubdags (emptyBag "etl.py") ⟨"etl", 0⟩ := by
  have hfailure : failure twoSubdags (emptyBag "etl.py") ⟨"etl", 0⟩ =
      some ([⟨"etl.load", 0⟩], .clusterPolicyViolation "no owner") := by
    rw [failure, subdags_twoSubdags]
    rfl
  have heq := bagDag_eq (show twoSubdags.check ⟨"etl", 0⟩ ((emptyBag "etl.py").fileloc ⟨"etl", 0⟩) =
    none from rfl)
  rw [hfailure] at heq
  intro hatomic
  have hstays := hatomic _ heq.1 "etl.load"
  rw [heq.2] at hstays
  cases hstays

end Airflow.Bagging
