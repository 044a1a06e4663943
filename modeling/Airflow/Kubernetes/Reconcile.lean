import Airflow.Lib.Objects
import Airflow.Lib.Overlay

/-!
# Reconciling pods

`PodGenerator.reconcile_pods` of `providers/cncf/kubernetes/pod_generator.py` with the functions it
calls. An object of the Kubernetes client has an identity and its attributes by name; the attributes
that the code treats apart have a field. A program makes objects and notes what it assigns to.
-/

namespace Airflow.Kubernetes.Reconcile

open Objects

variable {ω : Type}

/-! ## Objects -/

/-- What a set attribute holds. The members of lists and dictionaries, and the objects that are not
looked into, are values of `ω`; with such an object comes the name of its class. -/
inductive Value (ω : Type)
  | bool (b : Bool)
  | int (n : Int)
  | str (s : String)
  | list (items : List ω)
  | dict (entries : Dict String ω)
  | other (cls : String) (o : ω)

/-- `bool(value)`, `None` included. -/
def truthy : Option (Value ω) → Bool
  | none => false
  | some (.bool b) => b
  | some (.int n) => n != 0
  | some (.str s) => s != ""
  | some (.list items) => !items.isEmpty
  | some (.dict entries) => !entries.entries.isEmpty
  | some (.other _ _) => true

/-- `str(type(value))`. -/
def typeName : Option (Value ω) → String
  | none => "<class 'NoneType'>"
  | some (.bool _) => "<class 'bool'>"
  | some (.int _) => "<class 'int'>"
  | some (.str _) => "<class 'str'>"
  | some (.list _) => "<class 'list'>"
  | some (.dict _) => "<class 'dict'>"
  | some (.other cls _) => cls

/-- `isinstance(value, list) or value is None`. -/
def isListOrNone : Option (Value ω) → Bool
  | none => true
  | some (.list _) => true
  | _ => false

/-- The members of a list, none for anything else. -/
def items : Option (Value ω) → List ω
  | some (.list items) => items
  | _ => []

/-- An object: its identity and its attributes, `none` where one is not set. -/
structure Obj (ω : Type) where
  ref : Nat
  attrs : Dict String (Option (Value ω))

/-- `V1ObjectMeta`. -/
structure ObjectMeta (ω : Type) extends Obj ω where
  labels : Option (Dict String String) := none
  annotations : Option (Dict String String) := none

/-- `V1PodSpec`. -/
structure PodSpec (ω : Type) extends Obj ω where
  containers : List (Obj ω)

/-- `V1Pod`. -/
structure Pod (ω : Type) extends Obj ω where
  metadata : Option (ObjectMeta ω) := none
  spec : Option (PodSpec ω) := none

/-- The identities of the objects of a pod. -/
def Pod.refs (pod : Pod ω) : List Nat :=
  pod.ref :: ((pod.metadata.map fun metadata => metadata.ref).toList ++
    (pod.spec.map fun spec => spec.ref :: spec.containers.map Obj.ref).getD [])

structure ValueError where
  message : String
  deriving DecidableEq

abbrev Py (α : Type) := Program ValueError α

/-- `getattr(o, key, None)`. -/
def Obj.getattr (o : Obj ω) (key : String) : Option (Value ω) := (o.attrs.get? key).join

/-- `setattr(o, key, value)`. -/
def Obj.setattr (o : Obj ω) (key : String) (value : Option (Value ω)) : Py (Obj ω) := do
  assign o.ref
  return { o with attrs := o.attrs.set key value }

/-! ## `copy.deepcopy` -/

def Obj.deepcopy (o : Obj ω) : Py (Obj ω) := do
  return { o with ref := ← make }

def ObjectMeta.deepcopy (metadata : ObjectMeta ω) : Py (ObjectMeta ω) := do
  return { metadata with toObj := ← metadata.toObj.deepcopy }

def PodSpec.deepcopy (spec : PodSpec ω) : Py (PodSpec ω) := do
  let o ← spec.toObj.deepcopy
  let containers ← spec.containers.mapM Obj.deepcopy
  return { toObj := o, containers }

/-- The copy of an attribute that may be unset. -/
def deepcopyOption {β : Type} (copy : β → Py β) : Option β → Py (Option β)
  | none => return none
  | some o => return some (← copy o)

def Pod.deepcopy (pod : Pod ω) : Py (Pod ω) := do
  let o ← pod.toObj.deepcopy
  let metadata ← deepcopyOption ObjectMeta.deepcopy pod.metadata
  let spec ← deepcopyOption PodSpec.deepcopy pod.spec
  return { toObj := o, metadata, spec }

/-! ## `merge_objects` -/

/-- `bool(labels)`. -/
def truthyDict : Option (Dict String String) → Bool
  | none => false
  | some entries => !entries.entries.isEmpty

/-- `merge_objects` of two dictionaries. -/
def mergeDicts (base client : Option (Dict String String)) :
    Py (Option (Dict String String)) :=
  if !truthyDict base then return client
  else if !truthyDict client then return base
  else do
    let _clientCp ← make
    let baseCp ← make
    assign baseCp
    return some ((base.getD {}).updateWith (client.getD {}))

/-- The loop of `merge_objects` over the attributes that `base_obj.to_dict()` names. -/
def fillAttrs (base client cp : Obj ω) : Py (Obj ω) :=
  base.attrs.keys.foldlM (fun cp key =>
    if !truthy (client.getattr key) && truthy (base.getattr key) then
      cp.setattr key (base.getattr key)
    else return cp) cp

/-- A turn of that loop for an attribute with a field of its own. -/
def fillField {φ : Type} (truthy : φ → Bool) (cp : Nat) (base client copied : φ) : Py φ :=
  if !truthy client && truthy base then do
    assign cp
    return base
  else return copied

def mergeContainers (base client : Obj ω) : Py (Obj ω) := do
  let cp ← client.deepcopy
  fillAttrs base client cp

def mergeMetadata (base client : ObjectMeta ω) : Py (ObjectMeta ω) := do
  let cp ← client.deepcopy
  let o ← fillAttrs base.toObj client.toObj cp.toObj
  let labels ← fillField truthyDict cp.ref base.labels client.labels cp.labels
  let annotations ← fillField truthyDict cp.ref base.annotations client.annotations cp.annotations
  return { toObj := o, labels, annotations }

def mergeSpecs (base client : PodSpec ω) : Py (PodSpec ω) := do
  let cp ← client.deepcopy
  let o ← fillAttrs base.toObj client.toObj cp.toObj
  let containers ← fillField (! List.isEmpty ·) cp.ref base.containers client.containers
    cp.containers
  return { toObj := o, containers }

def mergePods (base client : Pod ω) : Py (Pod ω) := do
  let cp ← client.deepcopy
  let o ← fillAttrs base.toObj client.toObj cp.toObj
  let metadata ← fillField Option.isSome cp.ref base.metadata client.metadata cp.metadata
  let spec ← fillField Option.isSome cp.ref base.spec client.spec cp.spec
  return { toObj := o, metadata, spec }

/-! ## `extend_object_field` -/

/-- What `extend_object_field` does to the copy it has made. -/
def extendField (base client cp : Obj ω) (fieldName : String) : Py (Obj ω) :=
  let baseField := base.getattr fieldName
  let clientField := client.getattr fieldName
  if !isListOrNone baseField || !isListOrNone clientField then
    throw ⟨s!"The chosen field must be a list. Got {typeName baseField} base_object_field " ++
      s!"and {typeName clientField} client_object_field."⟩
  else if !truthy baseField then return cp
  else if !truthy clientField then cp.setattr fieldName baseField
  else cp.setattr fieldName (some (.list (items baseField ++ items clientField)))

def extendContainer (base client : Obj ω) (fieldName : String) : Py (Obj ω) := do
  let cp ← client.deepcopy
  extendField base client cp fieldName

def extendMetadata (base client : ObjectMeta ω) (fieldName : String) : Py (ObjectMeta ω) := do
  let cp ← client.deepcopy
  let o ← extendField base.toObj client.toObj cp.toObj fieldName
  return { cp with toObj := o }

def extendSpec (base client : PodSpec ω) (fieldName : String) : Py (PodSpec ω) := do
  let cp ← client.deepcopy
  let o ← extendField base.toObj client.toObj cp.toObj fieldName
  return { cp with toObj := o }

/-! ## `PodGenerator` -/

/-- `reconcile_containers`. -/
def reconcileContainers : List (Obj ω) → List (Obj ω) → Py (List (Obj ω))
  | [], clientContainers => return clientContainers
  | baseContainer :: baseContainers, [] => return baseContainer :: baseContainers
  | baseContainer :: baseContainers, clientContainer :: clientContainers => do
    let clientContainer ← extendContainer baseContainer clientContainer "volume_mounts"
    let clientContainer ← extendContainer baseContainer clientContainer "env"
    let clientContainer ← extendContainer baseContainer clientContainer "env_from"
    let clientContainer ← extendContainer baseContainer clientContainer "ports"
    let clientContainer ← extendContainer baseContainer clientContainer "volume_devices"
    let clientContainer ← mergeContainers baseContainer clientContainer
    return clientContainer :: (← reconcileContainers baseContainers clientContainers)

/-- `reconcile_specs`. -/
def reconcileSpecs : Option (PodSpec ω) → Option (PodSpec ω) → Py (Option (PodSpec ω))
  | some baseSpec, none => return some baseSpec
  | none, some clientSpec => return some clientSpec
  | some baseSpec, some clientSpec => do
    let containers ← reconcileContainers baseSpec.containers clientSpec.containers
    assign clientSpec.ref
    let clientSpec := { clientSpec with containers }
    let mergedSpec ← extendSpec baseSpec clientSpec "init_containers"
    let mergedSpec ← extendSpec baseSpec mergedSpec "volumes"
    return some (← mergeSpecs baseSpec mergedSpec)
  | none, none => return none

/-- `reconcile_metadata`: what `extend_object_field` returns is not used. -/
def reconcileMetadata :
    Option (ObjectMeta ω) → Option (ObjectMeta ω) → Py (Option (ObjectMeta ω))
  | some baseMeta, none => return some baseMeta
  | none, some clientMeta => return some clientMeta
  | some baseMeta, some clientMeta => do
    let labels ← mergeDicts baseMeta.labels clientMeta.labels
    assign clientMeta.ref
    let clientMeta := { clientMeta with labels }
    let annotations ← mergeDicts baseMeta.annotations clientMeta.annotations
    assign clientMeta.ref
    let clientMeta := { clientMeta with annotations }
    let _ ← extendMetadata baseMeta clientMeta "managed_fields"
    let _ ← extendMetadata baseMeta clientMeta "finalizers"
    let _ ← extendMetadata baseMeta clientMeta "owner_references"
    return some (← mergeMetadata baseMeta clientMeta)
  | none, none => return none

/-- `reconcile_pods`. -/
def reconcilePods (basePod : Pod ω) : Option (Pod ω) → Py (Pod ω)
  | none => return basePod
  | some clientPod => do
    let clientPodCp ← clientPod.deepcopy
    let spec ← reconcileSpecs basePod.spec clientPodCp.spec
    assign clientPodCp.ref
    let clientPodCp := { clientPodCp with spec }
    let metadata ← reconcileMetadata basePod.metadata clientPodCp.metadata
    assign clientPodCp.ref
    let clientPodCp := { clientPodCp with metadata }
    mergePods basePod clientPodCp

end Airflow.Kubernetes.Reconcile
