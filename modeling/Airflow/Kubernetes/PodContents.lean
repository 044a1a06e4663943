import Airflow.Kubernetes.Reconcile
import Airflow.Lib.Merge

/-!
# What a pod says

The contents of a pod, without the identities of its objects, how the contents of two pods are
merged, and when the merged pod lets the client's attributes take precedence over the base's.
-/

namespace Airflow.Kubernetes.Reconcile

variable {ω : Type}

/-! ## Contents -/

/-- The attributes of an object. -/
abbrev Attrs (ω : Type) := String → Option (Value ω)

structure MetadataContents (ω : Type) where
  attrs : Attrs ω
  labels : Option (Dict String String)
  annotations : Option (Dict String String)

structure SpecContents (ω : Type) where
  attrs : Attrs ω
  containers : List (Attrs ω)

structure PodContents (ω : Type) where
  attrs : Attrs ω
  metadata : Option (MetadataContents ω)
  spec : Option (SpecContents ω)

def ObjectMeta.contents (metadata : ObjectMeta ω) : MetadataContents ω where
  attrs := metadata.getattr
  labels := metadata.labels
  annotations := metadata.annotations

def PodSpec.contents (spec : PodSpec ω) : SpecContents ω where
  attrs := spec.getattr
  containers := spec.containers.map Obj.getattr

def Pod.contents (pod : Pod ω) : PodContents ω where
  attrs := pod.getattr
  metadata := pod.metadata.map ObjectMeta.contents
  spec := pod.spec.map PodSpec.contents

/-! ## The concatenated lists -/

def metadataLists : List String := ["managed_fields", "finalizers", "owner_references"]

def specLists : List String := ["init_containers", "volumes"]

def containerLists : List String :=
  ["volume_mounts", "env", "env_from", "ports", "volume_devices"]

/-- The attributes named are lists where they are set. -/
def Listed (lists : List String) (attrs : Attrs ω) : Prop :=
  ∀ key ∈ lists, isListOrNone (attrs key) = true

/-- The lists of a pod are lists. -/
structure PodContents.WellTyped (pod : PodContents ω) : Prop where
  metadata : ∀ metadata ∈ pod.metadata, Listed metadataLists metadata.attrs
  spec : ∀ spec ∈ pod.spec, Listed specLists spec.attrs
  containers : ∀ spec ∈ pod.spec, ∀ container ∈ spec.containers, Listed containerLists container

/-! ## Merged contents -/

/-- What `merge_objects` makes of an attribute. -/
def mergeAttr (base client : Option (Value ω)) : Option (Value ω) :=
  if !truthy client && truthy base then base else client

/-- What `extend_object_field` makes of an attribute. -/
def extendAttr (base client : Option (Value ω)) : Option (Value ω) :=
  if !truthy base then client
  else if !truthy client then base
  else some (.list (items base ++ items client))

/-- The attributes of an object, of which those in `lists` are extended. -/
def mergeAttrs (lists : List String) (base client : Attrs ω) : Attrs ω := fun key =>
  if key ∈ lists then extendAttr (base key) (client key) else mergeAttr (base key) (client key)

/-- What `merge_objects` makes of two dictionaries. -/
def mergeLabels (base client : Option (Dict String String)) : Option (Dict String String) :=
  if !truthyDict base then client
  else if !truthyDict client then base
  else some ((base.getD {}).updateWith (client.getD {}))

def MetadataContents.merge (base client : MetadataContents ω) : MetadataContents ω where
  attrs := mergeAttrs [] base.attrs client.attrs
  labels := mergeLabels base.labels client.labels
  annotations := mergeLabels base.annotations client.annotations

def SpecContents.merge (base client : SpecContents ω) : SpecContents ω where
  attrs := mergeAttrs specLists base.attrs client.attrs
  containers := Merge.places (mergeAttrs containerLists) base.containers client.containers

def PodContents.merge (base client : PodContents ω) : PodContents ω where
  attrs := mergeAttrs [] base.attrs client.attrs
  metadata := base.metadata.merge MetadataContents.merge client.metadata
  spec := base.spec.merge SpecContents.merge client.spec

/-! ## Precedence -/

/-- An object has the client's attributes where it sets them and the base's elsewhere, and its lists
are the base's followed by the client's. -/
structure Precedes (lists : List String) (base client result : Option (Attrs ω)) : Prop where
  isSome_eq : result.isSome = (base.isSome || client.isSome)
  attr : ∀ key ∉ lists, result.bind (· key) = (client.bind (· key)).or (base.bind (· key))
  joined : ∀ key ∈ lists,
    items (result.bind (· key)) = items (base.bind (· key)) ++ items (client.bind (· key))

/-- The label `key`, of labels that may be unset. -/
def label (labels : Option (Dict String String)) (key : String) : Option String :=
  labels.bind (·.get? key)

def PodContents.labelAt (pod : PodContents ω) (key : String) : Option String :=
  label (pod.metadata.bind (·.labels)) key

def PodContents.annotationAt (pod : PodContents ω) (key : String) : Option String :=
  label (pod.metadata.bind (·.annotations)) key

def PodContents.containers (pod : PodContents ω) : List (Attrs ω) :=
  (pod.spec.map (·.containers)).getD []

/-- The client's attributes take precedence over the base's, field by field. -/
structure TakesPrecedence (base client pod : PodContents ω) : Prop where
  root : Precedes [] (some base.attrs) (some client.attrs) (some pod.attrs)
  metadata : Precedes metadataLists (base.metadata.map (·.attrs)) (client.metadata.map (·.attrs))
    (pod.metadata.map (·.attrs))
  labels : ∀ key, pod.labelAt key = (client.labelAt key).or (base.labelAt key)
  annotations : ∀ key,
    pod.annotationAt key = (client.annotationAt key).or (base.annotationAt key)
  spec : Precedes specLists (base.spec.map (·.attrs)) (client.spec.map (·.attrs))
    (pod.spec.map (·.attrs))
  container : ∀ i : Nat,
    Precedes containerLists base.containers[i]? client.containers[i]? pod.containers[i]?
  count : pod.containers.length = max base.containers.length client.containers.length

/-- A value is lost: the client's, set but false, to a true one of the base, or the base's, set but
false, where the client sets none. -/
def Lost (base client : Option (Value ω)) : Prop :=
  (client.isSome ∧ truthy client = false ∧ truthy base = true) ∨
    (client = none ∧ base.isSome ∧ truthy base = false)

/-- Of two objects that both pods have, no value is lost. -/
def NoneLost (lists : List String) (base client : Option (Attrs ω)) : Prop :=
  ∀ b ∈ base, ∀ c ∈ client, ∀ key ∉ lists, ¬Lost (b key) (c key)

/-- No value of either pod is lost, and no list of the metadata has members in both. -/
structure NothingLost (base client : PodContents ω) : Prop where
  root : NoneLost [] (some base.attrs) (some client.attrs)
  metadata : NoneLost metadataLists (base.metadata.map (·.attrs)) (client.metadata.map (·.attrs))
  metadataList : ∀ b ∈ base.metadata, ∀ c ∈ client.metadata, ∀ key ∈ metadataLists,
    items (b.attrs key) = [] ∨ items (c.attrs key) = []
  spec : NoneLost specLists (base.spec.map (·.attrs)) (client.spec.map (·.attrs))
  container : ∀ i : Nat, NoneLost containerLists base.containers[i]? client.containers[i]?

/-! ## Folding -/

/-- `reduce(PodGenerator.reconcile_pods, [base, *pods])`. -/
def reducePods (base : Pod ω) (pods : List (Option (Pod ω))) : Py (Pod ω) :=
  pods.foldlM reconcilePods base

/-- The three pods folded in the other association. -/
def reduceRight (base dynamic : Pod ω) (override : Option (Pod ω)) : Py (Pod ω) := do
  let pod ← reconcilePods dynamic override
  reconcilePods base (some pod)

/-- From a state in which `next` is the first new identity: the client's attributes take precedence,
no object of either pod is assigned to, and a third pod may be folded in either association. -/
def Reconciles (base client : Pod ω) (next : Nat) : Prop :=
  (∃ pod s, reconcilePods base (some client) { next } = .ok (pod, s) ∧
    TakesPrecedence base.contents client.contents pod.contents ∧
    ∀ ref ∈ base.refs ++ client.refs, ref ∉ s.assigned) ∧
  ∀ override : Option (Pod ω), (∀ pod ∈ override, pod.contents.WellTyped) →
    ∃ left s right s', reducePods base [some client, override] { next } = .ok (left, s) ∧
      reduceRight base client override { next } = .ok (right, s') ∧ left.contents = right.contents

end Airflow.Kubernetes.Reconcile
