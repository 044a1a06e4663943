import Airflow.DagBag.Proof.Atomic
import Mathlib.Data.Finset.Basic

/-!
# Top-level DAGs in any order

`_process_modules` goes through a set. What it leaves is to be the same for every order
(`OrderIndependent`): the DAGs in the bag with their `fileloc`, the import errors, and the ids of
the DAGs found. `Settled` says when it is: each id is stored by one DAG from one file, and each file
has one error. It is about what a DAG does to a bag (`effect`), which a turn of the loop does
(`attempt_eq`, `processDag_eq`).
-/

namespace Airflow.Bagging

open DagBag

/-- A top-level DAG and the `__file__` of its module. -/
abbrev Entry := DagObj × String

/-- An order in which a set may be gone through. -/
def IsOrder (entries : Finset Entry) (order : List Entry) : Prop :=
  order.Nodup ∧ ∀ e, e ∈ order ↔ e ∈ entries

/-- The same DAGs, import errors and found ids. -/
structure SameOutcome (r r' : DagBag × List DagObj) : Prop where
  dags : ∀ dagId, r.1.dags dagId = r'.1.dags dagId
  fileloc : ∀ dagId serial, r.1.dags dagId = some serial →
    r.1.fileloc ⟨dagId, serial⟩ = r'.1.fileloc ⟨dagId, serial⟩
  importErrors : ∀ file, r.1.importErrors file = r'.1.importErrors file
  found : ∀ dagId, dagId ∈ r.2.map DagObj.dagId ↔ dagId ∈ r'.2.map DagObj.dagId

/-- Every order of the top-level DAGs has the same outcome. -/
def OrderIndependent (env : Env) (bag : DagBag) (entries : Finset Entry) : Prop :=
  ∀ lastChanged a b, IsOrder entries a → IsOrder entries b →
    SameOutcome (processModules env lastChanged a bag) (processModules env lastChanged b bag)

/-! ## What a DAG does -/

/-- What is raised for a top-level DAG, the DAGs that get the `fileloc`, those that are stored and
stay stored, and the ids that are removed. -/
structure Effect where
  raised : Option Exn
  located : List DagObj
  stored : List DagObj
  removed : List String

section
variable (env : Env) (bag : DagBag)

/-- The DAG passes its own checks: `validate`, the cycle test, template files and policies. -/
def Accepted (e : Entry) : Prop := env.validate e.1 = none ∧ env.check e.1 e.2 = none

instance (e : Entry) : Decidable (Accepted env e) :=
  decidable_of_iff ((env.validate e.1).isNone = true ∧ (env.check e.1 e.2).isNone = true)
    (by simp [Accepted])

/-- The DAG after its sub-DAGs, as they are bagged. -/
def family (e : Entry) : List DagObj := env.subdags e.1 ++ [e.1]

def effect (e : Entry) : Effect :=
  match (env.validate e.1).or (env.check e.1 e.2) with
  | some x => ⟨some x, [e.1], [], []⟩
  | none =>
    match failure env (bag.setFileloc e.1 e.2) e.1 with
    | none => ⟨none, family env e, family env e, []⟩
    | some (before, x) =>
      ⟨some x, e.1 :: (family env e).take (before.length + 1), if x.cleansUp then [] else before,
        if x.cleansUp then (env.subdags e.1).map DagObj.dagId else []⟩

/-- The import error for a DAG. -/
def errorText (e : Entry) : Option String :=
  (effect env bag e).raised.bind fun x =>
    if x.isSkip then none else some (x.typeName ++ ": " ++ x.text)

/-- No id is stored by two DAGs or from two files. -/
structure Consistent (entries : Finset Entry) : Prop where
  /-- A DAG that is refused because of its sub-DAGs, or after them, shares no id with another. -/
  apart : ∀ e ∈ entries, Accepted env e → env.subdags e.1 ≠ [] → (effect env bag e).raised ≠ none →
    ∀ e' ∈ entries, e' ≠ e → Accepted env e' → ∀ dag ∈ family env e, ∀ dag' ∈ family env e',
      dag.dagId ≠ dag'.dagId
  /-- Under one id one DAG is stored. -/
  one : ∀ e ∈ entries, ∀ e' ∈ entries, ∀ dagId serial serial',
    lastSerial (effect env bag e).stored dagId = some serial →
    lastSerial (effect env bag e').stored dagId = some serial' → serial = serial'
  /-- That DAG, and a DAG that the bag holds, gets its `fileloc` from one file. -/
  oneFile : ∀ e ∈ entries, ∀ dag ∈ (effect env bag e).located,
    lastSerial (effect env bag e).stored dag.dagId = some dag.serial ∨
      bag.dags dag.dagId = some dag.serial →
    ∀ e' ∈ entries, dag ∈ (effect env bag e').located → e'.2 = e.2
  /-- A DAG that the bag holds keeps its `fileloc` if another DAG with its id can come. -/
  moved : ∀ e ∈ entries, ∀ dag ∈ (effect env bag e).located, bag.dags dag.dagId = some dag.serial →
    ∀ e' ∈ entries, e' ≠ e → Accepted env e' → ∀ dag' ∈ family env e', dag'.dagId = dag.dagId →
      dag' ≠ dag → e.2 = bag.fileloc dag

/-- … and the DAGs of one file that are refused have the same import error. -/
structure Settled (entries : Finset Entry) : Prop extends Consistent env bag entries where
  errors : ∀ e ∈ entries, ∀ e' ∈ entries, e.2 = e'.2 → ∀ text text',
    errorText env bag e = some text → errorText env bag e' = some text' → text = text'

end

/-! ## A turn of the loop -/

variable {env : Env} {bag t : DagBag} {dag : DagObj} {e : Entry}

theorem or_eq_none_iff_accepted :
    (env.validate e.1).or (env.check e.1 e.2) = none ↔ Accepted env e := by
  rw [Option.or_eq_none_iff, Accepted]

theorem fileloc_set_self {fileloc : String} : (t.setFileloc dag fileloc).fileloc dag = fileloc := by
  rw [fileloc_setFileloc, if_pos rfl]

theorem effect_rejected (bag : DagBag) (h : ¬Accepted env e) :
    ∃ x, (env.validate e.1).or (env.check e.1 e.2) = some x ∧
      effect env bag e = ⟨some x, [e.1], [], []⟩ := by
  rw [← or_eq_none_iff_accepted] at h
  obtain ⟨x, hx⟩ := Option.ne_none_iff_exists'.mp h
  exact ⟨x, hx, by rw [effect, hx]⟩

theorem effect_accepted (h : Accepted env e) : effect env bag e =
    match failure env (bag.setFileloc e.1 e.2) e.1 with
    | none => ⟨none, family env e, family env e, []⟩
    | some (before, x) =>
      ⟨some x, e.1 :: (family env e).take (before.length + 1), if x.cleansUp then [] else before,
        if x.cleansUp then (env.subdags e.1).map DagObj.dagId else []⟩ := by
  rw [effect, or_eq_none_iff_accepted.mpr h]

/-- The `try` for a DAG that does not pass its own checks. -/
theorem attempt_rejected (h : ¬Accepted env e) (t : DagBag) :
    t.attempt env e = (t.setFileloc e.1 e.2, (env.validate e.1).or (env.check e.1 e.2)) := by
  rw [attempt]
  cases hvalidate : env.validate e.1 with
  | some x => rfl
  | none =>
    rw [bagDag, fileloc_set_self, Option.none_or]
    cases hcheck : env.check e.1 e.2 with
    | some x => rfl
    | none => exact absurd ⟨hvalidate, hcheck⟩ h

theorem mem_family_self (env : Env) (e : Entry) : e.1 ∈ family env e :=
  List.mem_append_right _ (List.mem_singleton_self _)

/-- **A turn does to the bag what the effect says.** -/
theorem attempt_eq (env : Env) (t : DagBag) (e : Entry) :
    (t.attempt env e).2 = (effect env t e).raised ∧
    (∀ dagId, (t.attempt env e).1.dags dagId = if dagId ∈ (effect env t e).removed then none
      else (lastSerial (effect env t e).stored dagId).or (t.dags dagId)) ∧
    ∀ dag, (t.attempt env e).1.fileloc dag =
      if dag ∈ (effect env t e).located then e.2 else t.fileloc dag := by
  by_cases haccepted : Accepted env e
  · have hcheck : env.check e.1 ((t.setFileloc e.1 e.2).fileloc e.1) = none := by
      rw [fileloc_set_self]
      exact haccepted.2
    have heq := bagDag_eq hcheck
    have hloc := fileloc_bagDag hcheck
    have hattempt : t.attempt env e = (t.setFileloc e.1 e.2).bagDag env e.1 := by
      rw [attempt, haccepted.1]
    rw [hattempt, effect_accepted haccepted]
    simp only [fileloc_set_self, fileloc_setFileloc] at hloc
    cases hfailure : failure env (t.setFileloc e.1 e.2) e.1 with
    | none =>
      simp only [hfailure] at heq hloc
      refine ⟨heq.1, fun dagId => ?_, fun dag => ?_⟩
      · rw [heq.2, if_neg List.not_mem_nil]
        rfl
      · rw [hloc, family]
        by_cases hmem : dag ∈ env.subdags e.1 ++ [e.1]
        · rw [if_pos hmem, if_pos hmem]
        · rw [if_neg hmem, if_neg hmem, if_neg]
          rintro rfl
          exact hmem (mem_family_self env e)
    | some p =>
      obtain ⟨before, x⟩ := p
      simp only [hfailure] at heq hloc
      refine ⟨heq.1, fun dagId => ?_, fun dag => ?_⟩
      · rw [heq.2]
        by_cases hcleans : x.cleansUp = true
        · simp only [hcleans, if_true, true_and]
          split
          · rfl
          · next hmem =>
            have hnone : lastSerial before dagId = none := by
              refine lastSerial_eq_none.mpr fun h => hmem ?_
              obtain ⟨sub, hsub, rfl⟩ := List.mem_map.mp h
              exact List.mem_map_of_mem (mem_subdags_of_failure hfailure sub hsub)
            rw [hnone]
            rfl
        · simp only [hcleans, false_and, if_false, List.not_mem_nil, Bool.false_eq_true]
          rfl
      · rw [hloc]
        simp only [List.mem_cons, family]
        by_cases hmem : dag ∈ (env.subdags e.1 ++ [e.1]).take (before.length + 1)
        · rw [if_pos hmem, if_pos (.inr hmem)]
        · simp only [hmem, if_false, or_false]
  · obtain ⟨x, hx, heffect⟩ := effect_rejected t haccepted
    rw [attempt_rejected haccepted, heffect, hx]
    refine ⟨rfl, fun dagId => ?_, fun dag => ?_⟩
    · rw [if_neg List.not_mem_nil]
      rfl
    · rw [fileloc_setFileloc]
      simp only [List.mem_singleton]

theorem mem_located_self (env : Env) (t : DagBag) (e : Entry) : e.1 ∈ (effect env t e).located := by
  by_cases haccepted : Accepted env e
  · rw [effect_accepted haccepted]
    split
    · exact mem_family_self env e
    · exact List.mem_cons_self
  · obtain ⟨x, -, heffect⟩ := effect_rejected t haccepted
    rw [heffect]
    exact List.mem_singleton_self _

theorem importErrors_cleanUp {x : Exn} {subs : List DagObj} :
    (cleanUp x subs t).importErrors = t.importErrors := by
  have hdiscard : ∀ t : DagBag, (subs.foldl discard t).importErrors = t.importErrors := by
    induction subs with
    | nil => exact fun _ => rfl
    | cons sub subs ih => exact fun t => ih (t.discard sub)
  unfold cleanUp
  split
  · exact hdiscard t
  · rfl

theorem importErrors_foldl_stored {fileloc : String} {dags : List DagObj} :
    (dags.foldl (stored fileloc) t).importErrors = t.importErrors := by
  induction dags generalizing t with
  | nil => rfl
  | cons dag dags ih => exact ih

theorem importErrors_attempt : (t.attempt env e).1.importErrors = t.importErrors := by
  by_cases haccepted : Accepted env e
  · have hcheck : env.check e.1 ((t.setFileloc e.1 e.2).fileloc e.1) = none := by
      rw [fileloc_set_self]
      exact haccepted.2
    obtain ⟨hok, hbad⟩ := bagDag_state hcheck
    rw [attempt, haccepted.1]
    simp only
    cases hfailure : failure env (t.setFileloc e.1 e.2) e.1 with
    | none =>
      rw [hok hfailure]
      exact importErrors_foldl_stored
    | some p =>
      obtain ⟨failed, rest, -, heq⟩ := hbad p.1 p.2 hfailure
      rw [heq]
      exact importErrors_cleanUp.trans importErrors_foldl_stored
  · rw [attempt_rejected haccepted]
    rfl

/-- The ids found for a DAG. -/
def foundIds (env : Env) (t : DagBag) (e : Entry) : List String :=
  if (effect env t e).raised = none then (family env e).map DagObj.dagId else []

theorem processDag_eq (env : Env) (lastChanged : Nat) (s : DagBag × List DagObj) (e : Entry) :
    (processDag env lastChanged s e).1.dags = (s.1.attempt env e).1.dags ∧
    (processDag env lastChanged s e).1.fileloc = (s.1.attempt env e).1.fileloc ∧
    (∀ file, (processDag env lastChanged s e).1.importErrors file =
      if file = e.2 then (errorText env s.1 e).or (s.1.importErrors file)
      else s.1.importErrors file) ∧
    ∀ dagId, dagId ∈ (processDag env lastChanged s e).2.map DagObj.dagId ↔
      dagId ∈ s.2.map DagObj.dagId ∨ dagId ∈ foundIds env s.1 e := by
  obtain ⟨hraised, -, hloc⟩ := attempt_eq env s.1 e
  have herrors : (s.1.attempt env e).1.importErrors = s.1.importErrors := importErrors_attempt
  have hself : (s.1.attempt env e).1.fileloc e.1 = e.2 := by
    rw [hloc, if_pos (mem_located_self env s.1 e)]
  rw [processDag, foundIds, errorText, ← hraised]
  cases hattempt : s.1.attempt env e with
  | mk t x =>
    rw [hattempt] at hself herrors
    simp only at hself herrors
    cases x with
    | none =>
      refine ⟨rfl, rfl, fun file => ?_, fun dagId => ?_⟩
      · simp [herrors]
      · simp [family, or_comm, or_left_comm]
    | some x =>
      cases hskip : x.isSkip with
      | true => simp [hskip, herrors]
      | false => simp [hskip, addImportError, Function.update_apply, hself, herrors]

end Airflow.Bagging
