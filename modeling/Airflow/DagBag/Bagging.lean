import Mathlib.Data.List.Basic
import Mathlib.Logic.Function.Basic

/-!
# Bagging DAGs

`DagBag.bag_dag`, `_bag_dag` and `_process_modules` of `airflow/models/dagbag.py`, over DAG objects
with their identity. What the files and the installation say about the DAGs comes as an environment
(`Env`): their tasks, the cycle test, template files, the cluster policies and `DAG.validate`. A
policy is modelled by what it raises; exceptions that are no `Exception` are left out.
-/

namespace Airflow.Bagging

/-! ## DAG objects -/

/-- A DAG object: its `dag_id`, and a number that tells it from the other objects with this id. -/
structure DagObj where
  dagId : String
  serial : Nat
deriving DecidableEq

/-- A task; `subdag` is set for a `SubDagOperator`. -/
structure Task where
  taskId : String
  subdag : Option DagObj

inductive Exn where
  | dagCycle (text : String)
  | dagDuplicatedId (dagId incoming existing : String)
  | clusterPolicyViolation (text : String)
  | clusterPolicySkipDag (text : String)
  | clusterPolicyError (text : String)
  | other (type_ text : String)

namespace Exn

/-- `type(e).__name__`. -/
def typeName : Exn → String
  | .dagCycle _ => "AirflowDagCycleException"
  | .dagDuplicatedId .. => "AirflowDagDuplicatedIdException"
  | .clusterPolicyViolation _ => "AirflowClusterPolicyViolation"
  | .clusterPolicySkipDag _ => "AirflowClusterPolicySkipDag"
  | .clusterPolicyError _ => "AirflowClusterPolicyError"
  | .other type_ _ => type_

/-- `str(e)`. -/
def text : Exn → String
  | .dagDuplicatedId dagId incoming existing =>
    "Ignoring DAG " ++ dagId ++ " from " ++ incoming ++ " - also found in " ++ existing
  | .dagCycle text | .clusterPolicyViolation text | .clusterPolicySkipDag text
  | .clusterPolicyError text | .other _ text => text

/-- The exceptions after which `_bag_dag` removes the sub-DAGs. -/
def cleansUp : Exn → Bool
  | .dagCycle _ | .dagDuplicatedId .. => true
  | _ => false

def isSkip : Exn → Bool
  | .clusterPolicySkipDag _ => true
  | _ => false

/-- What `_bag_dag` raises for what a policy raises. -/
def ofPolicy : Exn → Exn
  | .clusterPolicyViolation text => .clusterPolicyViolation text
  | .clusterPolicySkipDag text => .clusterPolicySkipDag text
  | e => .clusterPolicyError e.text

end Exn

/-- The DAG objects, with what is raised when they are checked. Policies may look at the `fileloc`.
A DAG is deeper than its sub-DAGs. -/
structure Env where
  tasks : DagObj → List Task
  depth : DagObj → Nat
  nested : ∀ dag, ∀ task ∈ tasks dag, ∀ sub, task.subdag = some sub → depth sub < depth dag
  checkCycle : DagObj → Option String
  resolveTemplateFiles : DagObj → Option Exn
  dagPolicy : DagObj → String → Option Exn
  taskPolicy : DagObj → Task → String → Option Exn
  validate : DagObj → Option Exn

namespace Env

/-- `DAG.subdags`. -/
def subdags (env : Env) (dag : DagObj) : List DagObj :=
  (env.tasks dag).attach.flatMap fun task =>
    match h : task.1.subdag with
    | some sub => sub :: env.subdags sub
    | none => []
termination_by env.depth dag
decreasing_by exact env.nested dag task.1 task.2 sub h

/-- What comes before the `try` of `_bag_dag`: the cycle test, template files and policies. -/
def check (env : Env) (dag : DagObj) (fileloc : String) : Option Exn :=
  match env.checkCycle dag with
  | some text => some (.dagCycle text)
  | none =>
    match env.resolveTemplateFiles dag with
    | some e => some e
    | none =>
      match env.dagPolicy dag fileloc with
      | some e => some e.ofPolicy
      | none =>
        ((env.tasks dag).findSome? fun task => env.taskPolicy dag task fileloc).map Exn.ofPolicy

end Env

/-! ## The bag -/

/-- `DagBag`, with the `fileloc` of every DAG object. A DAG is stored under its `dag_id`. -/
structure DagBag where
  dags : String → Option Nat
  fileloc : DagObj → String
  importErrors : String → Option String
  fileLastChanged : String → Option Nat

namespace DagBag

/-- `dag.fileloc = fileloc`. -/
def setFileloc (bag : DagBag) (dag : DagObj) (fileloc : String) : DagBag :=
  { bag with fileloc := Function.update bag.fileloc dag fileloc }

/-- `self.dags[dag.dag_id] = dag`. -/
def put (bag : DagBag) (dag : DagObj) : DagBag :=
  { bag with dags := Function.update bag.dags dag.dagId (some dag.serial) }

/-- `del self.dags[dag.dag_id]`, if it is there. -/
def discard (bag : DagBag) (dag : DagObj) : DagBag :=
  { bag with dags := Function.update bag.dags dag.dagId none }

/-- The end of the `try` of `_bag_dag`: the DAG is stored unless one from another file is. -/
def add (bag : DagBag) (dag : DagObj) : Except Exn DagBag :=
  match bag.dags dag.dagId with
  | some prev =>
    if bag.fileloc ⟨dag.dagId, prev⟩ ≠ bag.fileloc dag then
      .error (.dagDuplicatedId dag.dagId (bag.fileloc dag) (bag.fileloc ⟨dag.dagId, prev⟩))
    else .ok (bag.put dag)
  | none => .ok (bag.put dag)

section
variable (env : Env)

/-- `_bag_dag` with `recursive=False`. -/
def bagSubdag (bag : DagBag) (sub : DagObj) : Except Exn DagBag :=
  match env.check sub (bag.fileloc sub) with
  | some e => .error e
  | none => bag.add sub

/-- The loop over the sub-DAGs. What it stored before an exception stays stored. -/
def bagSubdags (fileloc : String) : List DagObj → DagBag → DagBag × Option Exn
  | [], bag => (bag, none)
  | sub :: subs, bag =>
    match (bag.setFileloc sub fileloc).bagSubdag env sub with
    | .error e => (bag.setFileloc sub fileloc, some e)
    | .ok bag => bagSubdags fileloc subs bag

/-- The `except` of `_bag_dag`. -/
def cleanUp (e : Exn) (subs : List DagObj) (bag : DagBag) : DagBag :=
  if e.cleansUp then subs.foldl discard bag else bag

/-- `bag_dag`: `_bag_dag` with `recursive=True`. -/
def bagDag (dag : DagObj) (bag : DagBag) : DagBag × Option Exn :=
  match env.check dag (bag.fileloc dag) with
  | some e => (bag, some e)
  | none =>
    match bagSubdags env (bag.fileloc dag) (env.subdags dag) bag with
    | (bag, some e) => (cleanUp e (env.subdags dag) bag, some e)
    | (bag, none) =>
      match bag.add dag with
      | .error e => (cleanUp e (env.subdags dag) bag, some e)
      | .ok bag => (bag, none)

/-! ## Files -/

/-- `self.import_errors[dag.fileloc] = …`, and the time of the file's last change. -/
def addImportError (lastChanged : Nat) (dag : DagObj) (e : Exn) (bag : DagBag) : DagBag :=
  { bag with
    importErrors := Function.update bag.importErrors (bag.fileloc dag)
      (some (e.typeName ++ ": " ++ e.text))
    fileLastChanged := Function.update bag.fileLastChanged (bag.fileloc dag) (some lastChanged) }

/-- The `try` of the loop of `_process_modules`, for a DAG of a module with this `__file__`. -/
def attempt (bag : DagBag) (entry : DagObj × String) : DagBag × Option Exn :=
  match env.validate entry.1 with
  | some e => (bag.setFileloc entry.1 entry.2, some e)
  | none => (bag.setFileloc entry.1 entry.2).bagDag env entry.1

/-- One turn of the loop; the list is `found_dags`. -/
def processDag (lastChanged : Nat) (s : DagBag × List DagObj) (entry : DagObj × String) :
    DagBag × List DagObj :=
  match s.1.attempt env entry with
  | (bag, none) => (bag, s.2 ++ entry.1 :: env.subdags entry.1)
  | (bag, some e) => (if e.isSkip then bag else bag.addImportError lastChanged entry.1 e, s.2)

/-- `_process_modules`, with the set of top-level DAGs in the order of its iteration. -/
def processModules (lastChanged : Nat) (topLevelDags : List (DagObj × String)) (bag : DagBag) :
    DagBag × List DagObj :=
  topLevelDags.foldl (processDag env lastChanged) (bag, [])

end

end DagBag

/-! ## What goes wrong -/

/-- The exception for a DAG whose id the bag holds for a DAG of another file. The DAGs in `earlier`
have been stored before it, from the same file. -/
def DagBag.clash (bag : DagBag) (fileloc : String) (earlier : List DagObj) (dag : DagObj) :
    Option Exn :=
  if dag.dagId ∈ earlier.map DagObj.dagId then none
  else
    match bag.dags dag.dagId with
    | some prev =>
      if prev ≠ dag.serial ∧ bag.fileloc ⟨dag.dagId, prev⟩ ≠ fileloc then
        some (.dagDuplicatedId dag.dagId fileloc (bag.fileloc ⟨dag.dagId, prev⟩))
      else none
    | none => none

/-- The first DAG that cannot be bagged: the DAGs before it, and the exception. -/
def DagBag.firstFailure (env : Env) (bag : DagBag) (fileloc : String) (earlier : List DagObj) :
    List DagObj → Option (List DagObj × Exn)
  | [] => none
  | dag :: rest =>
    match (env.check dag fileloc).or (bag.clash fileloc earlier dag) with
    | some e => some (earlier, e)
    | none => firstFailure env bag fileloc (earlier ++ [dag]) rest

/-- The last DAG with an id. -/
def lastSerial (dags : List DagObj) (dagId : String) : Option Nat :=
  (dags.reverse.find? (·.dagId = dagId)).map DagObj.serial

end Airflow.Bagging
