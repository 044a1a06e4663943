import Airflow.Kubernetes.PodContents

/-!
# Precedence of overrides

`reconcile_pods` returns a pod with the merged contents and assigns only to objects it has made
(`reconcilePods_spares`). The merged contents let the client's attributes take precedence exactly
when no set but false value is in play and the metadata's lists do not meet
(`takesPrecedence_merge_iff`); merging contents is associative (`merge_assoc`).
-/

namespace Airflow.Kubernetes.Reconcile

open Objects

variable {ω : Type}

/-! ## Merged attributes -/

theorem mergeAttr_assoc (a b c : Option (Value ω)) :
    mergeAttr (mergeAttr a b) c = mergeAttr a (mergeAttr b c) := by
  unfold mergeAttr
  cases ha : truthy a <;> cases hb : truthy b <;> cases hc : truthy c <;> simp [ha, hb, hc]

theorem truthy_list (xs ys : List ω) (h : xs ≠ []) :
    truthy (some (Value.list (xs ++ ys))) = true := by
  cases xs with
  | nil => exact absurd rfl h
  | cons x xs => rfl

theorem items_ne_nil {a : Option (Value ω)} (h : isListOrNone a = true) (ht : truthy a = true) :
    items a ≠ [] := by
  cases a with
  | none => cases ht
  | some v => cases v with
    | list xs => simpa [truthy, items] using ht
    | _ => cases h

theorem items_eq_nil {a : Option (Value ω)} (h : isListOrNone a = true) (ht : truthy a = false) :
    items a = [] := by
  cases a with
  | none => rfl
  | some v => cases v with
    | list xs => simpa [truthy, items] using ht
    | _ => cases h

theorem items_eq_nil_iff {a : Option (Value ω)} (h : isListOrNone a = true) :
    items a = [] ↔ truthy a = false := by
  constructor
  · intro hnil
    cases ht : truthy a with
    | false => rfl
    | true => exact absurd hnil (items_ne_nil h ht)
  · exact items_eq_nil h

theorem isListOrNone_extendAttr {a b : Option (Value ω)} (ha : isListOrNone a = true)
    (hb : isListOrNone b = true) : isListOrNone (extendAttr a b) = true := by
  unfold extendAttr
  split
  · exact hb
  · split
    · exact ha
    · rfl

theorem isListOrNone_mergeAttr {a b : Option (Value ω)} (ha : isListOrNone a = true)
    (hb : isListOrNone b = true) : isListOrNone (mergeAttr a b) = true := by
  unfold mergeAttr
  split
  · exact ha
  · exact hb

/-- An extended list has the members of both. -/
theorem items_extendAttr {a b : Option (Value ω)} (ha : isListOrNone a = true)
    (hb : isListOrNone b = true) : items (extendAttr a b) = items a ++ items b := by
  unfold extendAttr
  cases hta : truthy a with
  | false => simp [items_eq_nil ha hta]
  | true => cases htb : truthy b with
    | false => simp [items_eq_nil hb htb]
    | true => simp [items]

theorem truthy_extendAttr {a b : Option (Value ω)} (ha : isListOrNone a = true)
    (hb : isListOrNone b = true) : truthy (extendAttr a b) = (truthy a || truthy b) := by
  have hab := items_eq_nil_iff (isListOrNone_extendAttr ha hb)
  rw [items_extendAttr ha hb, List.append_eq_nil_iff, items_eq_nil_iff ha,
    items_eq_nil_iff hb] at hab
  cases h : truthy (extendAttr a b) with
  | false => simp [hab.mpr h]
  | true =>
    rw [eq_comm, ← Bool.not_eq_false, Bool.or_eq_false_iff, hab, h]
    simp

theorem extendAttr_assoc {a b c : Option (Value ω)} (ha : isListOrNone a = true)
    (hb : isListOrNone b = true) (hc : isListOrNone c = true) :
    extendAttr (extendAttr a b) c = extendAttr a (extendAttr b c) := by
  have hab := truthy_extendAttr ha hb
  have hbc := truthy_extendAttr hb hc
  have hab' := items_extendAttr ha hb
  have hbc' := items_extendAttr hb hc
  cases hta : truthy a <;> cases htb : truthy b <;> cases htc : truthy c <;>
    simp_all [extendAttr]

/-- `merge_objects` after `extend_object_field` changes nothing. -/
theorem mergeAttr_extendAttr {a b : Option (Value ω)} (ha : isListOrNone a = true)
    (hb : isListOrNone b = true) : mergeAttr a (extendAttr a b) = extendAttr a b := by
  rw [mergeAttr, truthy_extendAttr ha hb]
  cases truthy a <;> simp

theorem mergeAttrs_assoc {lists : List String} {a b c : Attrs ω} (ha : Listed lists a)
    (hb : Listed lists b) (hc : Listed lists c) :
    mergeAttrs lists (mergeAttrs lists a b) c = mergeAttrs lists a (mergeAttrs lists b c) := by
  funext key
  unfold mergeAttrs
  by_cases hkey : key ∈ lists
  · simp only [if_pos hkey]
    exact extendAttr_assoc (ha key hkey) (hb key hkey) (hc key hkey)
  · simp only [if_neg hkey]
    exact mergeAttr_assoc _ _ _

theorem listed_mergeAttrs {lists : List String} (lists' : List String) {a b : Attrs ω}
    (ha : Listed lists a) (hb : Listed lists b) : Listed lists (mergeAttrs lists' a b) := by
  intro key hkey
  unfold mergeAttrs
  split
  · exact isListOrNone_extendAttr (ha key hkey) (hb key hkey)
  · exact isListOrNone_mergeAttr (ha key hkey) (hb key hkey)

theorem listed_nil (a : Attrs ω) : Listed [] a := fun _ h => absurd h List.not_mem_nil

/-! ## Merged labels -/

theorem truthyDict_eq_false {d : Option (Dict String String)} :
    truthyDict d = false ↔ (d.getD {}).entries = [] := by
  cases d with
  | none => simp [truthyDict]
  | some d => simp [truthyDict]

theorem truthyDict_mergeLabels (a b : Option (Dict String String)) :
    truthyDict (mergeLabels a b) = (truthyDict a || truthyDict b) := by
  unfold mergeLabels
  cases ha : truthyDict a with
  | false => simp
  | true => cases hb : truthyDict b with
    | false => simpa using ha
    | true =>
      have hmerged : truthyDict (some ((a.getD {}).updateWith (b.getD {}))) ≠ false := by
        intro h
        rw [truthyDict_eq_false, Option.getD_some, Dict.updateWith_eq_empty,
          ← truthyDict_eq_false] at h
        exact Bool.false_ne_true (h.1.symm.trans ha)
      simpa using hmerged

theorem mergeLabels_assoc (a b c : Option (Dict String String)) :
    mergeLabels (mergeLabels a b) c = mergeLabels a (mergeLabels b c) := by
  have hab := truthyDict_mergeLabels a b
  have hbc := truthyDict_mergeLabels b c
  cases hta : truthyDict a <;> cases htb : truthyDict b <;> cases htc : truthyDict c <;>
    simp_all [mergeLabels, Dict.updateWith_assoc]

/-- The labels are the union, and the client's win. -/
theorem label_mergeLabels (a b : Option (Dict String String)) (key : String) :
    label (mergeLabels a b) key = (label b key).or (label a key) := by
  have hfalse : ∀ d, truthyDict d = false → label d key = none := by
    intro d hd
    cases d with
    | none => rfl
    | some d =>
      rw [truthyDict_eq_false, Option.getD_some] at hd
      change d.get? key = none
      rw [Dict.get?, hd]
      rfl
  unfold mergeLabels
  cases ha : truthyDict a with
  | false => simp [hfalse a ha]
  | true => cases hb : truthyDict b with
    | false => simp [hfalse b hb]
    | true => cases a with
      | none => cases ha
      | some a => cases b with
        | none => cases hb
        | some b => simp [label, Dict.get?_updateWith]

theorem fillField_mergeLabels (a b : Option (Dict String String)) :
    (!truthyDict (mergeLabels a b) && truthyDict a) = false := by
  rw [truthyDict_mergeLabels]
  cases truthyDict a <;> simp

/-! ## Merged pods -/

theorem MetadataContents.merge_assoc (a b c : MetadataContents ω) :
    (a.merge b).merge c = a.merge (b.merge c) := by
  unfold MetadataContents.merge
  rw [mergeAttrs_assoc (listed_nil _) (listed_nil _) (listed_nil _), mergeLabels_assoc,
    mergeLabels_assoc]

/-- The lists of a specification are lists. -/
def SpecContents.WellTyped (spec : SpecContents ω) : Prop :=
  Listed specLists spec.attrs ∧ ∀ container ∈ spec.containers, Listed containerLists container

theorem PodContents.WellTyped.specs {pod : PodContents ω} (h : pod.WellTyped) :
    ∀ spec ∈ pod.spec, spec.WellTyped := fun spec hspec =>
  ⟨h.spec spec hspec, h.containers spec hspec⟩

theorem SpecContents.WellTyped.merge {a b : SpecContents ω} (ha : a.WellTyped)
    (hb : b.WellTyped) : (a.merge b).WellTyped :=
  ⟨listed_mergeAttrs _ ha.1 hb.1,
    Merge.places_keeps (fun _ _ => listed_mergeAttrs _) ha.2 hb.2⟩

theorem SpecContents.merge_assoc {a b c : SpecContents ω} (ha : a.WellTyped) (hb : b.WellTyped)
    (hc : c.WellTyped) : (a.merge b).merge c = a.merge (b.merge c) := by
  unfold SpecContents.merge
  rw [mergeAttrs_assoc ha.1 hb.1 hc.1,
    Merge.places_assoc (fun _ _ _ => mergeAttrs_assoc) ha.2 hb.2 hc.2]

theorem PodContents.WellTyped.merge {a b : PodContents ω} (ha : a.WellTyped) (hb : b.WellTyped) :
    (a.merge b).WellTyped := by
  have hspec := Merge.option_keeps (fun _ _ => SpecContents.WellTyped.merge) ha.specs hb.specs
  exact {
    metadata := Merge.option_keeps (f := MetadataContents.merge)
      (fun _ _ => listed_mergeAttrs []) ha.metadata hb.metadata
    spec := fun spec h => (hspec spec h).1
    containers := fun spec h => (hspec spec h).2 }

/-- **Contents are merged in either association.** -/
theorem merge_assoc {a b c : PodContents ω} (ha : a.WellTyped) (hb : b.WellTyped)
    (hc : c.WellTyped) : (a.merge b).merge c = a.merge (b.merge c) := by
  unfold PodContents.merge
  rw [mergeAttrs_assoc (listed_nil _) (listed_nil _) (listed_nil _),
    Merge.option_assoc (P := fun _ => True) (fun _ _ _ _ _ _ => MetadataContents.merge_assoc _ _ _)
      (fun _ _ => trivial) (fun _ _ => trivial) (fun _ _ => trivial),
    Merge.option_assoc (fun _ _ _ => SpecContents.merge_assoc) ha.specs hb.specs hc.specs]

/-! ## When the client takes precedence -/

theorem mergeAttr_eq_or_iff (base client : Option (Value ω)) :
    mergeAttr base client = client.or base ↔ ¬Lost base client := by
  unfold mergeAttr Lost
  cases client with
  | none =>
    cases base with
    | none => simp [truthy]
    | some b => cases hb : truthy (some b) <;> simp [truthy]
  | some c =>
    cases hc : truthy (some c) with
    | true => simp
    | false => cases hb : truthy base with
      | false => simp
      | true =>
        have hne : base ≠ some c := by
          rintro rfl
          exact Bool.false_ne_true (hc.symm.trans hb)
        simpa using hne

theorem items_mergeAttr_iff {base client : Option (Value ω)} (hb : isListOrNone base = true)
    (hc : isListOrNone client = true) :
    items (mergeAttr base client) = items base ++ items client ↔
      items base = [] ∨ items client = [] := by
  unfold mergeAttr
  cases htc : truthy client with
  | false =>
    have hnil := items_eq_nil hc htc
    cases htb : truthy base with
    | false => simp [hnil, items_eq_nil hb htb]
    | true => simp [hnil]
  | true =>
    have hne := items_ne_nil hc htc
    simp only [Bool.not_true, Bool.false_and, Bool.false_eq_true, if_false, or_iff_left hne]
    exact List.self_eq_append_left

/-- Merged objects take precedence when the merged attributes do, of objects that both pods have. -/
theorem precedes_merge_iff {lists : List String} {f : Attrs ω → Attrs ω → Attrs ω}
    (base client : Option (Attrs ω)) :
    Precedes lists base client (base.merge f client) ↔ ∀ b ∈ base, ∀ c ∈ client,
      (∀ key ∉ lists, f b c key = (c key).or (b key)) ∧
        ∀ key ∈ lists, items (f b c key) = items (b key) ++ items (c key) := by
  cases base with
  | none =>
    refine ⟨fun _ _ h => (by cases h), fun _ => { isSome_eq := ?_, attr := ?_, joined := ?_ }⟩
    · simp
    · simp
    · simp [items]
  | some b => cases client with
    | none =>
      refine ⟨fun _ _ _ _ h => (by cases h), fun _ =>
        { isSome_eq := ?_, attr := ?_, joined := ?_ }⟩
      · simp
      · simp
      · simp [items]
    | some c =>
      constructor
      · intro h b' hb c' hc
        cases hb
        cases hc
        exact ⟨h.attr, h.joined⟩
      · intro h
        have hbc := h b rfl c rfl
        exact ⟨rfl, hbc.1, hbc.2⟩

theorem mergeAttrs_of_mem {lists : List String} {key : String} (h : key ∈ lists)
    (base client : Attrs ω) :
    mergeAttrs lists base client key = extendAttr (base key) (client key) := if_pos h

theorem mergeAttrs_of_not_mem {lists : List String} {key : String} (h : key ∉ lists)
    (base client : Attrs ω) :
    mergeAttrs lists base client key = mergeAttr (base key) (client key) := if_neg h

/-- Where the lists are extended, it is up to the lost values. -/
theorem precedes_mergeAttrs_iff {lists : List String} {base client : Option (Attrs ω)}
    (hbase : ∀ b ∈ base, Listed lists b) (hclient : ∀ c ∈ client, Listed lists c) :
    Precedes lists base client (base.merge (mergeAttrs lists) client) ↔
      NoneLost lists base client := by
  rw [precedes_merge_iff]
  refine forall₂_congr fun b hb => forall₂_congr fun c hc => ?_
  have hlists : ∀ key ∈ lists,
      items (mergeAttrs lists b c key) = items (b key) ++ items (c key) := by
    intro key hkey
    rw [mergeAttrs_of_mem hkey]
    exact items_extendAttr (hbase b hb key hkey) (hclient c hc key hkey)
  refine (and_iff_left hlists).trans (forall₂_congr fun key hkey => ?_)
  rw [mergeAttrs_of_not_mem hkey]
  exact mergeAttr_eq_or_iff _ _

/-- Where they are not, it is up to the members of the lists too. -/
theorem precedes_mergeAttrs_nil_iff {lists : List String} {base client : Option (Attrs ω)}
    (hbase : ∀ b ∈ base, Listed lists b) (hclient : ∀ c ∈ client, Listed lists c) :
    Precedes lists base client (base.merge (mergeAttrs []) client) ↔
      NoneLost lists base client ∧ ∀ b ∈ base, ∀ c ∈ client, ∀ key ∈ lists,
        items (b key) = [] ∨ items (c key) = [] := by
  rw [precedes_merge_iff, NoneLost]
  simp only [← forall₂_and]
  refine forall₂_congr fun b hb => forall₂_congr fun c hc => ?_
  refine and_congr (forall₂_congr fun key _ => ?_) (forall₂_congr fun key hkey => ?_)
  · rw [mergeAttrs_of_not_mem List.not_mem_nil]
    exact mergeAttr_eq_or_iff _ _
  · rw [mergeAttrs_of_not_mem List.not_mem_nil]
    exact items_mergeAttr_iff (hbase b hb key hkey) (hclient c hc key hkey)

theorem PodContents.containers_merge (base client : PodContents ω) :
    (base.merge client).containers =
      Merge.places (mergeAttrs containerLists) base.containers client.containers := by
  unfold PodContents.containers PodContents.merge
  cases base.spec <;> cases client.spec <;> simp [SpecContents.merge]

theorem PodContents.labelAt_merge (base client : PodContents ω) (key : String) :
    (base.merge client).labelAt key = (client.labelAt key).or (base.labelAt key) := by
  unfold PodContents.labelAt PodContents.merge
  cases base.metadata with
  | none => simp [label]
  | some b => cases client.metadata with
    | none => simp [label]
    | some c => exact label_mergeLabels b.labels c.labels key

theorem PodContents.annotationAt_merge (base client : PodContents ω) (key : String) :
    (base.merge client).annotationAt key =
      (client.annotationAt key).or (base.annotationAt key) := by
  unfold PodContents.annotationAt PodContents.merge
  cases base.metadata with
  | none => simp [label]
  | some b => cases client.metadata with
    | none => simp [label]
    | some c => exact label_mergeLabels b.annotations c.annotations key

theorem PodContents.WellTyped.listed_containers {pod : PodContents ω} (h : pod.WellTyped)
    (i : Nat) : ∀ container ∈ pod.containers[i]?, Listed containerLists container := by
  intro container hcontainer
  have hmem := List.mem_of_getElem? hcontainer
  unfold PodContents.containers at hmem
  cases hspec : pod.spec with
  | none =>
    rw [hspec] at hmem
    cases hmem
  | some spec =>
    rw [hspec] at hmem
    exact h.containers spec hspec container hmem

theorem map_merge {α β : Type} {f : α → α → α} {g : β → β → β} (m : α → β)
    (h : ∀ a b, m (f a b) = g (m a) (m b)) (x y : Option α) :
    (x.merge f y).map m = (x.map m).merge g (y.map m) := by
  cases x <;> cases y <;> simp [h]

theorem forall_mem_map {α β : Type} {P : β → Prop} {m : α → β} {x : Option α}
    (h : ∀ a ∈ x, P (m a)) : ∀ b ∈ x.map m, P b := by
  cases x with
  | none => exact fun _ hb => (by cases hb)
  | some a =>
    intro b hb
    cases hb
    exact h a rfl

/-- **The merged contents let the client's attributes take precedence when nothing is lost**, and
only then. -/
theorem takesPrecedence_merge_iff {base client : PodContents ω} (hbase : base.WellTyped)
    (hclient : client.WellTyped) :
    TakesPrecedence base client (base.merge client) ↔ NothingLost base client := by
  have hroot : Precedes [] (some base.attrs) (some client.attrs) (some (base.merge client).attrs) ↔
      NoneLost [] (some base.attrs) (some client.attrs) :=
    precedes_mergeAttrs_iff (fun b _ => listed_nil b) fun c _ => listed_nil c
  have hmetadata := precedes_mergeAttrs_nil_iff (forall_mem_map hbase.metadata)
    (forall_mem_map hclient.metadata)
  have hspec := precedes_mergeAttrs_iff (forall_mem_map hbase.spec) (forall_mem_map hclient.spec)
  have hcontainer := fun i => precedes_mergeAttrs_iff (hbase.listed_containers i)
    (hclient.listed_containers i)
  rw [← map_merge (f := MetadataContents.merge) (·.attrs) fun _ _ => rfl] at hmetadata
  rw [← map_merge (f := SpecContents.merge) (·.attrs) fun _ _ => rfl] at hspec
  constructor
  · intro h
    have hlists := hmetadata.mp h.metadata
    exact {
      root := hroot.mp h.root
      metadata := hlists.1
      metadataList := fun b hb c hc => hlists.2 b.attrs (Option.mem_map_of_mem _ hb) c.attrs
        (Option.mem_map_of_mem _ hc)
      spec := hspec.mp h.spec
      container := fun i => (hcontainer i).mp (by
        rw [← Merge.getElem?_places, ← PodContents.containers_merge]
        exact h.container i) }
  · intro h
    exact {
      root := hroot.mpr h.root
      metadata := hmetadata.mpr ⟨h.metadata, fun b hb c hc => by
        obtain ⟨b', hb', rfl⟩ := Option.map_eq_some_iff.mp hb
        obtain ⟨c', hc', rfl⟩ := Option.map_eq_some_iff.mp hc
        exact h.metadataList b' hb' c' hc'⟩
      labels := PodContents.labelAt_merge base client
      annotations := PodContents.annotationAt_merge base client
      spec := hspec.mpr h.spec
      container := fun i => by
        rw [PodContents.containers_merge, Merge.getElem?_places]
        exact (hcontainer i).mpr (h.container i)
      count := by
        rw [PodContents.containers_merge]
        exact Merge.length_places _ _ }

/-! ## What the functions return -/

variable {old : Nat}

theorem Obj.deepcopy_spares (o : Obj ω) :
    Spares old o.deepcopy fun cp => old ≤ cp.ref ∧ cp.getattr = o.getattr :=
  .bind .make fun _ href => .pure ⟨href, rfl⟩

theorem ObjectMeta.deepcopy_spares (metadata : ObjectMeta ω) :
    Spares old metadata.deepcopy fun cp =>
      old ≤ cp.ref ∧ cp.contents = metadata.contents := by
  refine .bind (Obj.deepcopy_spares _) fun o ho => .pure ⟨ho.1, ?_⟩
  simp only [ObjectMeta.contents, ho.2]

theorem map_eq_of_forall₂ {α β : Type} {m : α → β} {R : α → α → Prop}
    (hR : ∀ a b, R a b → m b = m a) {as bs : List α} (h : List.Forall₂ R as bs) :
    bs.map m = as.map m := by
  induction h with
  | nil => rfl
  | cons hab _ ih => rw [List.map_cons, List.map_cons, ih, hR _ _ hab]

theorem PodSpec.deepcopy_spares (spec : PodSpec ω) :
    Spares old spec.deepcopy fun cp => old ≤ cp.ref ∧ cp.contents = spec.contents := by
  refine .bind (Obj.deepcopy_spares _) fun o ho => ?_
  refine .bind (.mapM _ fun container _ => Obj.deepcopy_spares container) fun containers hcs => ?_
  refine .pure ⟨ho.1, ?_⟩
  have hmap : containers.map Obj.getattr = spec.containers.map Obj.getattr :=
    map_eq_of_forall₂ (fun _ _ h => h.2) hcs
  simp only [PodSpec.contents, ho.2, hmap]

theorem deepcopyOption_spares {β γ : Type} {copy : β → Py β} (ref : β → Nat) {m : β → γ}
    (hcopy : ∀ o, Spares old (copy o) fun cp => old ≤ ref cp ∧ m cp = m o) (o : Option β) :
    Spares old (deepcopyOption copy o) fun cp =>
      (∀ c ∈ cp, old ≤ ref c) ∧ cp.map m = o.map m := by
  cases o with
  | none => exact .pure ⟨fun _ h => (by cases h), rfl⟩
  | some o =>
    refine .bind (hcopy o) fun cp hcp => .pure ⟨fun c hc => ?_, congrArg some hcp.2⟩
    cases hc
    exact hcp.1

/-- A copy has the contents of the pod, and its objects are new. -/
theorem Pod.deepcopy_spares (pod : Pod ω) :
    Spares old pod.deepcopy fun cp => old ≤ cp.ref ∧ (∀ metadata ∈ cp.metadata,
      old ≤ metadata.ref) ∧ (∀ spec ∈ cp.spec, old ≤ spec.ref) ∧ cp.contents = pod.contents := by
  refine .bind (Obj.deepcopy_spares _) fun o ho => ?_
  refine .bind (deepcopyOption_spares (fun m => m.ref) ObjectMeta.deepcopy_spares _)
    fun metadata hm => ?_
  refine .bind (deepcopyOption_spares (fun s => s.ref) PodSpec.deepcopy_spares _)
    fun spec hs => ?_
  refine .pure ⟨ho.1, hm.1, hs.1, ?_⟩
  simp only [Pod.contents, ho.2, hm.2, hs.2]

theorem Obj.setattr_spares {o : Obj ω} (href : old ≤ o.ref) (key : String)
    (value : Option (Value ω)) : Spares old (o.setattr key value) fun o' =>
      o'.ref = o.ref ∧ ∀ key', o'.getattr key' = if key' = key then value else o.getattr key' := by
  refine .bind (.assign href) fun _ _ => .pure ⟨rfl, fun key' => ?_⟩
  simp only [Obj.getattr, Dict.get?_set]
  split <;> rfl

theorem fillField_spares {φ : Type} {t : φ → Bool} {ref : Nat} (href : old ≤ ref)
    (base client copied : φ) : Spares old (fillField t ref base client copied) fun value =>
      value = if !t client && t base then base else copied := by
  unfold fillField
  split
  · exact .bind (.assign href) fun _ _ => .pure rfl
  · exact .pure rfl

/-- The loop of `merge_objects`: after each name it has been filled in where it had to be. -/
theorem fillAttrs_spares {base client cp : Obj ω} (href : old ≤ cp.ref)
    (hcp : cp.getattr = client.getattr) : Spares old (fillAttrs base client cp) fun o =>
      o.getattr = mergeAttrs [] base.getattr client.getattr := by
  let inv (done : List String) (o : Obj ω) : Prop := o.ref = cp.ref ∧ ∀ key, o.getattr key =
    if key ∈ done then mergeAttr (base.getattr key) (client.getattr key) else client.getattr key
  have hinit : inv [] cp := ⟨rfl, fun key => by rw [if_neg List.not_mem_nil, hcp]⟩
  refine (Spares.foldlM _ hinit fun done key o ho => ?_).mono fun o ho => ?_
  · cases hfill : !truthy (client.getattr key) && truthy (base.getattr key) with
    | true =>
      rw [if_pos rfl]
      refine (Obj.setattr_spares (ho.1 ▸ href) key _).mono fun o' ho' =>
        ⟨ho'.1.trans ho.1, fun key' => ?_⟩
      rw [ho'.2, ho.2]
      by_cases hkey : key' = key
      · rw [if_pos hkey, if_pos (by simp [hkey]), hkey, mergeAttr, if_pos hfill]
      · simp [hkey]
    | false =>
      rw [if_neg Bool.false_ne_true]
      refine .pure ⟨ho.1, fun key' => ?_⟩
      rw [ho.2]
      by_cases hkey : key' = key
      · rw [if_pos (c := key' ∈ done ++ [key]) (by simp [hkey]), hkey, mergeAttr, hfill]
        simp
      · simp [hkey]
  · funext key
    rw [ho.2, mergeAttrs_of_not_mem List.not_mem_nil]
    split
    · rfl
    · next hkey =>
      have hnone : base.getattr key = none := by rw [Obj.getattr, Dict.get?_eq_none.mpr hkey]; rfl
      simp [mergeAttr, hnone, truthy]

theorem mergeContainers_spares (base client : Obj ω) :
    Spares old (mergeContainers base client) fun o =>
      o.getattr = mergeAttrs [] base.getattr client.getattr :=
  .bind (Obj.deepcopy_spares client) fun _ hcp => fillAttrs_spares hcp.1 hcp.2

/-- The lists in `done` are extended, and nothing else of the client's object is changed. -/
def Extended (done : List String) (base client o : Obj ω) : Prop := ∀ key, o.getattr key =
  if key ∈ done then extendAttr (base.getattr key) (client.getattr key) else client.getattr key

theorem Extended.refl (base client : Obj ω) : Extended [] base client client :=
  fun _ => (if_neg List.not_mem_nil).symm

/-- When the lists are all extended, `merge_objects` does the rest. -/
theorem Extended.merge {lists done : List String} {base client o : Obj ω}
    (h : Extended done base client o) (hdone : ∀ key, key ∈ done ↔ key ∈ lists)
    (hbase : Listed lists base.getattr) (hclient : Listed lists client.getattr) :
    mergeAttrs [] base.getattr o.getattr = mergeAttrs lists base.getattr client.getattr := by
  funext key
  rw [mergeAttrs_of_not_mem List.not_mem_nil, h key]
  by_cases hkey : key ∈ lists
  · rw [if_pos ((hdone key).mpr hkey), mergeAttrs_of_mem hkey,
      mergeAttr_extendAttr (hbase key hkey) (hclient key hkey)]
  · rw [if_neg (mt (hdone key).mp hkey), mergeAttrs_of_not_mem hkey]

theorem extendField_spares {done : List String} {base client o cp : Obj ω} {fieldName : String}
    (h : Extended done base client o) (hnew : fieldName ∉ done)
    (hbase : isListOrNone (base.getattr fieldName) = true)
    (hclient : isListOrNone (client.getattr fieldName) = true) (href : old ≤ cp.ref)
    (hcp : cp.getattr = o.getattr) :
    Spares old (extendField base o cp fieldName) fun o' =>
      o'.ref = cp.ref ∧ Extended (fieldName :: done) base client o' := by
  have hfield : o.getattr fieldName = client.getattr fieldName := by rw [h, if_neg hnew]
  have hother : ∀ o' : Obj ω,
      o'.getattr fieldName = extendAttr (base.getattr fieldName) (client.getattr fieldName) →
      (∀ key, key ≠ fieldName → o'.getattr key = cp.getattr key) →
      Extended (fieldName :: done) base client o' := by
    intro o' hset hkeep key
    by_cases hkey : key = fieldName
    · rw [hkey, hset, if_pos List.mem_cons_self]
    · rw [hkeep key hkey, hcp, h key]
      simp [hkey]
  unfold extendField
  simp only [hfield, hbase, hclient, Bool.not_true, Bool.or_self, Bool.false_eq_true, if_false]
  split
  · next hfalse =>
    refine .pure ⟨rfl, hother cp ?_ fun _ _ => rfl⟩
    rw [hcp, hfield, extendAttr, if_pos hfalse]
  · next htrue =>
    split
    · next hfalse =>
      refine (Obj.setattr_spares href _ _).mono fun o' ho' => ⟨ho'.1, hother o' ?_ ?_⟩
      · rw [ho'.2, if_pos rfl, extendAttr, if_neg htrue, if_pos hfalse]
      · exact fun key hkey => by rw [ho'.2, if_neg hkey]
    · next htrue' =>
      refine (Obj.setattr_spares href _ _).mono fun o' ho' => ⟨ho'.1, hother o' ?_ ?_⟩
      · rw [ho'.2, if_pos rfl, extendAttr, if_neg htrue, if_neg htrue']
      · exact fun key hkey => by rw [ho'.2, if_neg hkey]

theorem extendContainer_spares {done : List String} {base client o : Obj ω} {fieldName : String}
    (h : Extended done base client o) (hnew : fieldName ∉ done)
    (hbase : isListOrNone (base.getattr fieldName) = true)
    (hclient : isListOrNone (client.getattr fieldName) = true) :
    Spares old (extendContainer base o fieldName) (Extended (fieldName :: done) base client) :=
  .bind (Obj.deepcopy_spares o) fun _ hcp =>
    (extendField_spares h hnew hbase hclient hcp.1 hcp.2).mono fun _ ho' => ho'.2

/-- Containers are reconciled place by place, and the rest of the longer list is kept. -/
theorem reconcileContainers_spares (bases clients : List (Obj ω))
    (hbases : ∀ base ∈ bases, Listed containerLists base.getattr)
    (hclients : ∀ client ∈ clients, Listed containerLists client.getattr) :
    Spares old (reconcileContainers bases clients) fun containers =>
      containers.map Obj.getattr = Merge.places (mergeAttrs containerLists)
        (bases.map Obj.getattr) (clients.map Obj.getattr) := by
  induction bases generalizing clients with
  | nil => exact .pure rfl
  | cons base bases ih => cases clients with
    | nil => exact .pure rfl
    | cons client clients =>
      rw [List.forall_mem_cons] at hbases hclients
      have hextend : ∀ {done : List String} {o : Obj ω} (name : String), name ∈ containerLists →
          name ∉ done → Extended done base client o →
          Spares old (extendContainer base o name) (Extended (name :: done) base client) :=
        fun name hname hnew h =>
          extendContainer_spares h hnew (hbases.1 name hname) (hclients.1 name hname)
      refine .bind (hextend "volume_mounts" (by decide) (by decide) (.refl base client))
        fun _ h₁ => ?_
      refine .bind (hextend "env" (by decide) (by decide) h₁) fun _ h₂ => ?_
      refine .bind (hextend "env_from" (by decide) (by decide) h₂) fun _ h₃ => ?_
      refine .bind (hextend "ports" (by decide) (by decide) h₃) fun _ h₄ => ?_
      refine .bind (hextend "volume_devices" (by decide) (by decide) h₄) fun o h₅ => ?_
      refine .bind (mergeContainers_spares base o) fun container hcontainer => ?_
      refine .bind (ih clients hbases.2 hclients.2) fun containers hcontainers => .pure ?_
      have hdone : ∀ key, key ∈ ["volume_devices", "ports", "env_from", "env", "volume_mounts"] ↔
          key ∈ containerLists := fun _ => @List.mem_reverse _ _ containerLists
      rw [List.map_cons, hcontainers, hcontainer, h₅.merge hdone hbases.1 hclients.1]
      rfl

theorem extendSpec_spares {done : List String} {base client : PodSpec ω} (spec : PodSpec ω)
    {fieldName : String}
    (h : Extended done base.toObj client.toObj spec.toObj) (hnew : fieldName ∉ done)
    (hbase : isListOrNone (base.getattr fieldName) = true)
    (hclient : isListOrNone (client.getattr fieldName) = true) :
    Spares old (extendSpec base spec fieldName) fun spec' =>
      Extended (fieldName :: done) base.toObj client.toObj spec'.toObj ∧
        spec'.contents.containers = spec.contents.containers := by
  refine .bind (PodSpec.deepcopy_spares spec) fun cp hcp => ?_
  have hattrs : cp.getattr = spec.getattr := congrArg SpecContents.attrs hcp.2
  refine .bind (extendField_spares h hnew hbase hclient hcp.1 hattrs) fun o ho => ?_
  have hcontainers : cp.contents.containers = spec.contents.containers := by rw [hcp.2]
  exact .pure ⟨ho.2, hcontainers⟩

theorem mergeSpecs_spares (base client : PodSpec ω)
    (hcontainers : client.containers = [] → base.containers = []) :
    Spares old (mergeSpecs base client) fun spec =>
      spec.getattr = mergeAttrs [] base.getattr client.getattr ∧
        spec.contents.containers = client.contents.containers := by
  refine .bind (PodSpec.deepcopy_spares client) fun cp hcp => ?_
  refine .bind (fillAttrs_spares hcp.1 (congrArg SpecContents.attrs hcp.2)) fun o ho => ?_
  refine .bind (fillField_spares hcp.1 base.containers client.containers cp.containers)
    fun containers hcs => .pure ⟨ho, ?_⟩
  have hkeep : (!!client.containers.isEmpty && !base.containers.isEmpty) = false := by
    cases hc : client.containers with
    | nil => simp [hcontainers hc]
    | cons _ _ => rfl
  rw [hkeep, if_neg Bool.false_ne_true] at hcs
  have hsame : cp.contents.containers = client.contents.containers := by rw [hcp.2]
  rw [hcs]
  exact hsame

theorem reconcileSpecs_spares {base client : Option (PodSpec ω)}
    (hbase : ∀ spec ∈ base, spec.contents.WellTyped)
    (hclient : ∀ spec ∈ client, spec.contents.WellTyped) (hnew : ∀ spec ∈ client, old ≤ spec.ref) :
    Spares old (reconcileSpecs base client) fun spec =>
      spec.map PodSpec.contents =
        (base.map PodSpec.contents).merge SpecContents.merge (client.map PodSpec.contents) := by
  cases base with
  | none => cases client with
    | none => exact .pure rfl
    | some client => exact .pure rfl
  | some base => cases client with
    | none => exact .pure rfl
    | some client =>
      have hb := hbase base rfl
      have hc := hclient client rfl
      rw [SpecContents.WellTyped, PodSpec.contents, List.forall_mem_map] at hb hc
      refine .bind (reconcileContainers_spares _ _ hb.2 hc.2) fun containers hcontainers => ?_
      refine .bind (.assign (hnew client rfl)) fun _ _ => ?_
      let assigned : PodSpec ω := { client with containers }
      refine .bind (extendSpec_spares assigned (Extended.refl base.toObj client.toObj)
        List.not_mem_nil (hb.1 _ (by decide)) (hc.1 _ (by decide))) fun spec₁ h₁ => ?_
      refine .bind (extendSpec_spares spec₁ h₁.1 (by decide) (hb.1 _ (by decide))
        (hc.1 _ (by decide))) fun spec₂ h₂ => ?_
      have hsame : spec₂.contents.containers = containers.map Obj.getattr := h₂.2.trans h₁.2
      refine .bind (mergeSpecs_spares base spec₂ fun hnil => ?_) fun spec hspec =>
        .pure (congrArg some ?_)
      · rw [PodSpec.contents, hnil, hcontainers] at hsame
        have hlength := congrArg List.length hsame.symm
        rw [Merge.length_places] at hlength
        refine List.length_eq_zero_iff.mp ?_
        simpa using (Nat.max_eq_zero_iff.mp hlength).1
      · have hdone : ∀ key, key ∈ ["volumes", "init_containers"] ↔ key ∈ specLists :=
          fun _ => @List.mem_reverse _ _ specLists
        have hattrs := hspec.1.trans (h₂.1.merge hdone hb.1 hc.1)
        have hcs := (hspec.2.trans hsame).trans hcontainers
        change SpecContents.mk spec.getattr spec.contents.containers = _
        rw [hattrs, hcs]
        rfl

theorem mergeDicts_spares (base client : Option (Dict String String)) :
    Spares old (mergeDicts base client) (· = mergeLabels base client) := by
  unfold mergeDicts mergeLabels
  split
  · exact .pure rfl
  · split
    · exact .pure rfl
    · exact .bind .make fun _ _ => .bind .make fun _ hcp => .bind (.assign hcp) fun _ _ => .pure rfl

/-- What it returns is not used: it raises nothing and assigns to its own copy. -/
theorem extendMetadata_spares (base client : ObjectMeta ω) {fieldName : String}
    (hbase : isListOrNone (base.getattr fieldName) = true)
    (hclient : isListOrNone (client.getattr fieldName) = true) :
    Spares old (extendMetadata base client fieldName) fun _ => True := by
  refine .bind (ObjectMeta.deepcopy_spares client) fun cp hcp => ?_
  refine .bind (extendField_spares (Extended.refl base.toObj client.toObj) List.not_mem_nil hbase
    hclient hcp.1 (congrArg MetadataContents.attrs hcp.2)) fun _ _ => .pure trivial

theorem mergeMetadata_spares (base client : ObjectMeta ω) :
    Spares old (mergeMetadata base client) fun metadata =>
      metadata.getattr = mergeAttrs [] base.getattr client.getattr ∧
      metadata.labels = (if !truthyDict client.labels && truthyDict base.labels then base.labels
        else client.labels) ∧
      metadata.annotations = if !truthyDict client.annotations && truthyDict base.annotations then
        base.annotations else client.annotations := by
  refine .bind (ObjectMeta.deepcopy_spares client) fun cp hcp => ?_
  refine .bind (fillAttrs_spares hcp.1 (congrArg MetadataContents.attrs hcp.2)) fun o ho => ?_
  refine .bind (fillField_spares hcp.1 base.labels client.labels cp.labels) fun labels hl => ?_
  refine .bind (fillField_spares hcp.1 base.annotations client.annotations cp.annotations)
    fun annotations ha => ?_
  have hlabels : cp.labels = client.labels := congrArg MetadataContents.labels hcp.2
  have hannotations : cp.annotations = client.annotations :=
    congrArg MetadataContents.annotations hcp.2
  rw [hlabels] at hl
  rw [hannotations] at ha
  exact .pure ⟨ho, hl, ha⟩

theorem reconcileMetadata_spares {base client : Option (ObjectMeta ω)}
    (hbase : ∀ metadata ∈ base, Listed metadataLists metadata.getattr)
    (hclient : ∀ metadata ∈ client, Listed metadataLists metadata.getattr)
    (hnew : ∀ metadata ∈ client, old ≤ metadata.ref) :
    Spares old (reconcileMetadata base client) fun metadata =>
      metadata.map ObjectMeta.contents = (base.map ObjectMeta.contents).merge
        MetadataContents.merge (client.map ObjectMeta.contents) := by
  cases base with
  | none => cases client with
    | none => exact .pure rfl
    | some client => exact .pure rfl
  | some base => cases client with
    | none => exact .pure rfl
    | some client =>
      have hlists : ∀ (metadata : ObjectMeta ω), metadata.getattr = client.getattr →
          ∀ key ∈ metadataLists, Spares old (extendMetadata base metadata key) fun _ => True := by
        intro metadata hattrs key hkey
        refine extendMetadata_spares base metadata (hbase base rfl key hkey) ?_
        rw [hattrs]
        exact hclient client rfl key hkey
      refine .bind (mergeDicts_spares _ _) fun labels hl => ?_
      refine .bind (.assign (hnew client rfl)) fun _ _ => ?_
      refine .bind (mergeDicts_spares _ _) fun annotations ha => ?_
      refine .bind (.assign (hnew client rfl)) fun _ _ => ?_
      let assigned : ObjectMeta ω := { client with labels, annotations }
      refine .bind (hlists assigned rfl "managed_fields" (by decide)) fun _ _ => ?_
      refine .bind (hlists assigned rfl "finalizers" (by decide)) fun _ _ => ?_
      refine .bind (hlists assigned rfl "owner_references" (by decide)) fun _ _ => ?_
      refine .bind (mergeMetadata_spares _ _) fun metadata hmerged => .pure (congrArg some ?_)
      obtain ⟨hattrs, hlabels, hannotations⟩ := hmerged
      simp only [hl, ha, fillField_mergeLabels, Bool.false_eq_true, if_false]
        at hlabels hannotations
      simp only [ObjectMeta.contents, hattrs, hlabels, hannotations]
      rfl

theorem mergePods_spares (base client : Pod ω)
    (hmetadata : base.metadata.isSome = true → client.metadata.isSome = true)
    (hspec : base.spec.isSome = true → client.spec.isSome = true) :
    Spares old (mergePods base client) fun pod => pod.contents =
      { client.contents with attrs := mergeAttrs [] base.getattr client.getattr } := by
  refine .bind (Pod.deepcopy_spares client) fun cp hcp => ?_
  obtain ⟨href, -, -, hcontents⟩ := hcp
  refine .bind (fillAttrs_spares href (congrArg PodContents.attrs hcontents)) fun o ho => ?_
  refine .bind (fillField_spares href base.metadata client.metadata cp.metadata)
    fun metadata hm => ?_
  refine .bind (fillField_spares href base.spec client.spec cp.spec) fun spec hs => .pure ?_
  have hkeep : ∀ {a b : Bool}, (b = true → a = true) → (!a && b) = false := by decide
  rw [hkeep hmetadata, if_neg Bool.false_ne_true] at hm
  rw [hkeep hspec, if_neg Bool.false_ne_true] at hs
  change PodContents.mk o.getattr (metadata.map ObjectMeta.contents)
    (spec.map PodSpec.contents) = _
  rw [ho, hm, hs, ← hcontents]
  rfl

/-- **`reconcile_pods` returns a pod with the merged contents**, and assigns only to objects it has
made. -/
theorem reconcilePods_spares {base client : Pod ω} (hbase : base.contents.WellTyped)
    (hclient : client.contents.WellTyped) : Spares old (reconcilePods base (some client)) fun pod =>
      pod.contents = base.contents.merge client.contents := by
  refine .bind (Pod.deepcopy_spares client) fun cp hcp => ?_
  obtain ⟨href, hmetadata, hspec, hcontents⟩ := hcp
  rw [← hcontents] at hclient ⊢
  refine .bind (reconcileSpecs_spares (fun s hs => ?_) (fun s hs => ?_) hspec) fun spec hs => ?_
  · exact hbase.specs _ (Option.mem_map_of_mem _ hs)
  · exact hclient.specs _ (Option.mem_map_of_mem _ hs)
  refine .bind (.assign href) fun _ _ => ?_
  refine .bind (reconcileMetadata_spares (fun m hm => ?_) (fun m hm => ?_) hmetadata)
    fun metadata hm => ?_
  · exact hbase.metadata _ (Option.mem_map_of_mem _ hm)
  · exact hclient.metadata _ (Option.mem_map_of_mem _ hm)
  refine .bind (.assign href) fun _ _ => ?_
  refine (mergePods_spares _ _ (fun h => ?_) fun h => ?_).mono fun pod hpod => ?_
  · have hsome := congrArg Option.isSome hm
    simpa [h] using hsome
  · have hsome := congrArg Option.isSome hs
    simpa [h] using hsome
  · rw [hpod]
    simp only [Pod.contents, hm, hs]
    rfl

theorem reconcilePods_none (base : Pod ω) :
    Spares old (reconcilePods base none) fun pod => pod = base := .pure rfl

/-! ## Folding -/

/-- Three pods folded from the left have the contents that they have folded from the right. -/
theorem exists_reduce {base dynamic : Pod ω} {override : Option (Pod ω)}
    (hbase : base.contents.WellTyped) (hdynamic : dynamic.contents.WellTyped)
    (hoverride : ∀ pod ∈ override, pod.contents.WellTyped) (next : Nat) :
    ∃ left s right s', reducePods base [some dynamic, override] { next } = .ok (left, s) ∧
      reduceRight base dynamic override { next } = .ok (right, s') ∧
      left.contents = right.contents := by
  have hmerge : ∃ merged, Spares next (reducePods base [some dynamic, override])
        (fun pod => pod.contents = merged) ∧
      Spares next (reduceRight base dynamic override) (fun pod => pod.contents = merged) := by
    cases override with
    | none =>
      refine ⟨base.contents.merge dynamic.contents, ?_, ?_⟩
      · refine .bind (reconcilePods_spares hbase hdynamic) fun pod hpod => ?_
        exact .bind (reconcilePods_none pod) fun _ h => .pure (h ▸ hpod)
      · refine .bind (reconcilePods_none dynamic) fun pod hpod => ?_
        rw [hpod]
        exact reconcilePods_spares hbase hdynamic
    | some override =>
      have hover := hoverride override rfl
      refine ⟨(base.contents.merge dynamic.contents).merge override.contents, ?_, ?_⟩
      · refine .bind (reconcilePods_spares hbase hdynamic) fun pod hpod => ?_
        have hpodTyped : pod.contents.WellTyped := hpod ▸ hbase.merge hdynamic
        exact .bind (reconcilePods_spares hpodTyped hover) fun _ h => .pure (hpod ▸ h)
      · rw [merge_assoc hbase hdynamic hover]
        refine .bind (reconcilePods_spares hdynamic hover) fun pod hpod => ?_
        have hpodTyped : pod.contents.WellTyped := hpod ▸ hdynamic.merge hover
        exact hpod ▸ reconcilePods_spares hbase hpodTyped
  obtain ⟨merged, hleft, hright⟩ := hmerge
  obtain ⟨left, s, hrun, hcontents, -⟩ := hleft { next } (Nat.le_refl next)
  obtain ⟨right, s', hrun', hcontents', -⟩ := hright { next } (Nat.le_refl next)
  exact ⟨left, s, right, s', hrun, hrun', hcontents.trans hcontents'.symm⟩

/-! ## Precedence -/

/-- **Overrides take precedence exactly when nothing is lost**: no attribute that one pod sets to
something false meets a true value of the other's, or none, and no list of the metadata has members
in both pods. -/
theorem reconciles_iff {base client : Pod ω} {next : Nat} (hbase : base.contents.WellTyped)
    (hclient : client.contents.WellTyped)
    (hold : ∀ ref ∈ base.refs ++ client.refs, ref < next) :
    Reconciles base client next ↔ NothingLost base.contents client.contents := by
  obtain ⟨pod, s, hrun, hcontents, -, hassigned⟩ :=
    reconcilePods_spares hbase hclient { next } (Nat.le_refl next)
  rw [← takesPrecedence_merge_iff hbase hclient, ← hcontents]
  constructor
  · rintro ⟨⟨pod', s', hrun', hprecedence, -⟩, -⟩
    rw [hrun, Except.ok.injEq, Prod.mk.injEq] at hrun'
    exact hrun'.1 ▸ hprecedence
  · intro hprecedence
    refine ⟨⟨pod, s, hrun, hprecedence, fun ref href hmem => ?_⟩, fun override hoverride =>
      exists_reduce hbase hclient hoverride next⟩
    rcases hassigned ref hmem with h | h
    · exact absurd h List.not_mem_nil
    · exact absurd (hold ref href) (Nat.not_lt.mpr h)

/-- No attribute is set to something false. -/
def Obj.plain (o : Obj ω) : Bool := o.attrs.entries.all fun e => e.2.isNone || truthy e.2

theorem Obj.plain_getattr {o : Obj ω} (h : o.plain = true) (key : String) :
    o.getattr key = none ∨ truthy (o.getattr key) = true := by
  rw [Obj.getattr]
  cases hget : o.attrs.get? key with
  | none => exact .inl rfl
  | some value =>
    have he := List.all_eq_true.mp h _ (Dict.get?_eq_some.mp hget)
    rcases Bool.or_eq_true_iff.mp he with h | h
    · exact .inl (Option.isNone_iff_eq_none.mp h)
    · exact .inr h

/-- Of objects that set nothing to something false, nothing is lost. -/
theorem not_lost_of_plain (base client : Obj ω) (hbase : base.plain = true)
    (hclient : client.plain = true) (key : String) :
    ¬Lost (base.getattr key) (client.getattr key) := by
  have hb := Obj.plain_getattr hbase key
  have hc := Obj.plain_getattr hclient key
  rintro (⟨hsome, hfalse, -⟩ | ⟨-, hsome, hfalse⟩)
  · rcases hc with h | h
    · simp [h] at hsome
    · exact Bool.false_ne_true (hfalse.symm.trans h)
  · rcases hb with h | h
    · simp [h] at hsome
    · exact Bool.false_ne_true (hfalse.symm.trans h)

/-! ## A template and an override -/

/-- A template on the host's network, with a container that has an environment. -/
def podTemplate : Pod String where
  ref := 0
  attrs := {}
  spec := some {
    ref := 1
    attrs := ({} : Dict String (Option (Value String))).set "host_network" (some (.bool true))
    containers := [{
      ref := 2
      attrs := ({} : Dict String (Option (Value String))).set "env" (some (.list ["TZ"])) }] }

/-- An override with an image for the container and, where `hostNetwork` is one, with a word on the
network. -/
def podOverride (hostNetwork : Option Bool) : Pod String where
  ref := 3
  attrs := {}
  spec := some {
    ref := 4
    attrs := ({} : Dict String (Option (Value String))).set "host_network"
      (hostNetwork.map Value.bool)
    containers := [{
      ref := 5
      attrs := ({} : Dict String (Option (Value String))).set "image" (some (.str "worker")) }] }

theorem wellTyped_podTemplate : podTemplate.contents.WellTyped where
  metadata := fun _ h => nomatch h
  spec := by
    rintro _ ⟨rfl⟩ key hkey
    revert key
    decide
  containers := by
    rintro _ ⟨rfl⟩ container hcontainer key hkey
    rw [List.mem_singleton.mp hcontainer]
    revert key
    decide

theorem wellTyped_podOverride (hostNetwork : Option Bool) :
    (podOverride hostNetwork).contents.WellTyped where
  metadata := fun _ h => nomatch h
  spec := by
    rintro _ ⟨rfl⟩ key hkey
    revert key
    rcases hostNetwork with _ | _ | _ <;> decide
  containers := by
    rintro _ ⟨rfl⟩ container hcontainer key hkey
    rw [List.mem_singleton.mp hcontainer]
    revert key
    decide

theorem nothingLost_image : NothingLost podTemplate.contents (podOverride none).contents where
  root := by
    rintro _ ⟨rfl⟩ _ ⟨rfl⟩ key -
    exact not_lost_of_plain podTemplate.toObj (podOverride none).toObj rfl rfl key
  metadata := by
    rintro _ h
    cases h
  metadataList := by
    rintro _ h
    cases h
  spec := by
    rintro _ ⟨rfl⟩ _ ⟨rfl⟩ key -
    exact not_lost_of_plain _ _ rfl rfl key
  container := by
    rintro (_ | i) b hb c hc key -
    · cases hb
      cases hc
      exact not_lost_of_plain _ _ rfl rfl key
    · cases hb

/-- An override that sets only an image reconciles as it should. -/
theorem reconciles_image : Reconciles podTemplate (podOverride none) 6 :=
  (reconciles_iff wellTyped_podTemplate (wellTyped_podOverride none) (by decide)).mpr
    nothingLost_image

/-- An override that turns the host's network off is lost: the pod is on it. -/
theorem hostNetwork_lost : ¬Reconciles podTemplate (podOverride (some false)) 6 := by
  rintro ⟨⟨pod, s, hrun, hprecedence, -⟩, -⟩
  have hon : (reconcilePods podTemplate (some (podOverride (some false))) { next := 6 }).toOption.map
      (fun r => truthy ((r.1.contents.spec.map (·.attrs)).bind (· "host_network"))) =
        some true := by decide +kernel
  have hattr := hprecedence.spec.attr "host_network" (by decide)
  rw [hrun] at hon
  have hfalse : truthy ((pod.contents.spec.map (·.attrs)).bind (· "host_network")) = false := by
    rw [hattr]
    decide
  exact Bool.false_ne_true (hfalse.symm.trans (Option.some.inj hon))

end Airflow.Kubernetes.Reconcile
