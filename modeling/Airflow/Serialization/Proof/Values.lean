import Airflow.Serialization.Serde

/-!
# Induction over values and the equations of `deserialize`

`PyValue.induction` goes through the elements of collections and the values of dicts, a dict also
through what `deserialize` takes it for. The `deserialize_*` lemmas are the branches of
`deserialize`.
-/

namespace Airflow.Serde

/-! ## Induction -/

namespace PyValue

variable {l : List PyValue} {v : PyValue}

theorem sizeOf_lt_list (h : v ∈ l) : sizeOf v < sizeOf (PyValue.list l) := by
  have hlt := List.sizeOf_lt_of_mem h
  rw [PyValue.list.sizeOf_spec]
  omega

theorem sizeOf_lt_tuple (h : v ∈ l) : sizeOf v < sizeOf (PyValue.tuple l) := by
  have hlt := List.sizeOf_lt_of_mem h
  rw [PyValue.tuple.sizeOf_spec]
  omega

theorem sizeOf_lt_set (h : v ∈ l) : sizeOf v < sizeOf (PyValue.set l) := by
  have hlt := List.sizeOf_lt_of_mem h
  rw [PyValue.set.sizeOf_spec]
  omega

theorem sizeOf_lt_frozenset (h : v ∈ l) : sizeOf v < sizeOf (PyValue.frozenset l) := by
  have hlt := List.sizeOf_lt_of_mem h
  rw [PyValue.frozenset.sizeOf_spec]
  omega

theorem sizeOf_lt_dict {items : List (String × PyValue)} {e : String × PyValue} (h : e ∈ items) :
    sizeOf e.2 < sizeOf (PyValue.dict items) := by
  have hlt := sizeOf_item h
  rw [PyValue.dict.sizeOf_spec]
  omega

/-- The values that a dict holds, or would hold when it is read as an encoded object. -/
def ReadFrom (old : List (String × PyValue)) (v : PyValue) : Prop :=
  (∃ e ∈ old, v = e.2) ∨
  (∃ items, dictView old = .plain items ∧ ∃ e ∈ items, v = e.2) ∨
  ∃ classname version value, dictView old = .tagged classname version value ∧
    (v = value ∨ ∃ items, value = .dict items ∧ ∃ e ∈ items, v = e.2)

/-- A value that holds no others. -/
def isAtom : PyValue → Bool
  | .list _ | .tuple _ | .set _ | .frozenset _ | .dict _ => false
  | _ => true

/-- The cases of an induction over a value. -/
structure Cases (motive : PyValue → Prop) : Prop where
  atom : ∀ v, v.isAtom → motive v
  list : ∀ l, (∀ v ∈ l, motive v) → motive (.list l)
  tuple : ∀ l, (∀ v ∈ l, motive v) → motive (.tuple l)
  set : ∀ l, (∀ v ∈ l, motive v) → motive (.set l)
  frozenset : ∀ l, (∀ v ∈ l, motive v) → motive (.frozenset l)
  dict : ∀ old, (∀ v, ReadFrom old v → motive v) → motive (.dict old)

theorem sizeOf_readFrom {old : List (String × PyValue)} (h : ReadFrom old v) :
    sizeOf v < sizeOf (PyValue.dict old) := by
  rcases h with ⟨e, he, rfl⟩ | ⟨items, hview, e, he, rfl⟩ |
    ⟨classname, version, value, hview, rfl | ⟨items, rfl, e, he, rfl⟩⟩
  · exact sizeOf_lt_dict he
  · exact dictView_plain_size hview he
  · exact dictView_tagged_size hview
  · exact Nat.lt_trans (sizeOf_lt_dict he) (dictView_tagged_size hview)

/-- Induction over a value, through collections and through dicts however they are read. -/
theorem induction {motive : PyValue → Prop} (cases : Cases motive) : ∀ v, motive v
  | .list l => cases.list l fun v _ => induction cases v
  | .tuple l => cases.tuple l fun v _ => induction cases v
  | .set l => cases.set l fun v _ => induction cases v
  | .frozenset l => cases.frozenset l fun v _ => induction cases v
  | .dict old => cases.dict old fun v _ => induction cases v
  | .none => cases.atom _ rfl
  | .bool _ => cases.atom _ rfl
  | .int _ => cases.atom _ rfl
  | .float _ => cases.atom _ rfl
  | .str _ => cases.atom _ rfl
  | .object _ => cases.atom _ rfl
termination_by v => sizeOf v
decreasing_by
  · exact sizeOf_lt_list ‹_›
  · exact sizeOf_lt_tuple ‹_›
  · exact sizeOf_lt_set ‹_›
  · exact sizeOf_lt_frozenset ‹_›
  · exact sizeOf_readFrom ‹_›

end PyValue

/-! ## The branches of `deserialize` -/

section
variable {registry : Registry} {full : Bool}

/-- The elements of a collection, deserialized. -/
def elements (registry : Registry) (l : List PyValue) : Loading (List PyValue) :=
  Traced.sequence (l.map (deserialize registry true))

/-- The items of a dict, deserialized. -/
def entries (registry : Registry) (full : Bool) (items : List (String × PyValue)) :
    Loading (List (String × PyValue)) :=
  Traced.sequence (items.map fun e => (deserialize registry full e.2).map fun v => (e.1, v))

theorem deserialize_atom {o : PyValue} (h : o.isAtom) : deserialize registry full o = .pure o := by
  cases o <;> simp [PyValue.isAtom] at h <;> rw [deserialize] <;> simp

theorem deserialize_list (l : List PyValue) :
    deserialize registry full (.list l) = (elements registry l).map .list := by
  rw [deserialize]; rfl

theorem deserialize_tuple (l : List PyValue) :
    deserialize registry full (.tuple l) = (elements registry l).map .tuple := by
  rw [deserialize]; rfl

theorem deserialize_set (l : List PyValue) :
    deserialize registry full (.set l) =
      (elements registry l).bind fun col => .lift (PyValue.toSet .set col) := by
  rw [deserialize]; rfl

theorem deserialize_frozenset (l : List PyValue) :
    deserialize registry full (.frozenset l) = (elements registry l).map .list := by
  rw [deserialize]; rfl

variable {old : List (String × PyValue)}

theorem deserialize_plain {items : List (String × PyValue)} (h : dictView old = .plain items) :
    deserialize registry full (.dict old) = (entries registry full items).map .dict := by
  rw [deserialize]
  split
  · next e he => cases h.symm.trans he
  · next he => cases h.symm.trans he
  · next items' he =>
    cases h.symm.trans he
    let f (e : String × PyValue) := (deserialize registry full e.2).map fun v => (e.1, v)
    have hmap : items.attach.map (fun e => f e.1) = items.map f := List.attach_map_val
    exact congrArg (fun ts => (Traced.sequence ts).map PyValue.dict) hmap
  · next he => cases h.symm.trans he

theorem deserialize_notADict {e : PyError} (h : dictView old = .notADict e) :
    deserialize registry full (.dict old) = .fail e := by
  rw [deserialize]
  split
  · next he => cases h.symm.trans he; rfl
  · next he => cases h.symm.trans he
  · next he => cases h.symm.trans he
  · next he => cases h.symm.trans he

theorem deserialize_undecodable (h : dictView old = .undecodable) :
    deserialize registry full (.dict old) = .fail .valueError := by
  rw [deserialize]
  split
  · next he => cases h.symm.trans he
  · rfl
  · next he => cases h.symm.trans he
  · next he => cases h.symm.trans he

/-- Loading an encoded object: what `deserialize` does with it in full. -/
def load (registry : Registry) (classname : String) (version : Int) (value : PyValue) :
    Loading PyValue :=
  (Traced.lift (registry.importClass classname)).bind fun cls =>
    match registry.registered classname with
    | some deserializer =>
      (deserialize registry true value).bind fun data =>
        .emit (.deserializer classname) (.lift (deserializer version data))
    | none =>
      match cls.deserialize, cls.construct with
      | some deserializer, _ =>
        (deserialize registry true value).bind fun data =>
          .emit (.deserializer classname) (.lift ((deserializer data version).map .object))
      | none, some construct =>
        if version > cls.version then .fail .typeError
        else
          (deserialize registry true value).bind fun data =>
            .lift ((construct data).map .object)
      | none, none => .fail .typeError

theorem deserialize_tagged {classname : String} {version : Int} {value : PyValue}
    (h : dictView old = .tagged classname version value) :
    deserialize registry full (.dict old) =
      if classname = "" then .fail .typeError
      else if !full then (stringify registry classname version value).map .str
      else if !registry.allowed classname then .fail (.importError classname)
      else .emit (.importString classname) (load registry classname version value) := by
  rw [deserialize]
  split
  · next he => cases h.symm.trans he
  · next he => cases h.symm.trans he
  · next he => cases h.symm.trans he
  · next he =>
    cases h.symm.trans he
    rfl

end

end Airflow.Serde
