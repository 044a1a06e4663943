import Airflow.Serialization.Proof.Values

/-!
# Deserialization for display

What `deserialize(o, full=False)` loads. `firstMet` reads a value in the order of its text and says
what is met first: an encoded object of an allowed class where the elements of a collection are
deserialized in full, something that is an error, or neither. Deserialization starts with that
(`deserialize_start`), so that it loads nothing unless an encoded object is met first
(`display_loads_nothing`).
-/

namespace Airflow.Serde

open Traced (Start)

/-! ## What is met first -/

/-- What is hashable when it is deserialized without loading anything: a frozenset becomes a
list. -/
def hashableAfter : PyValue → Bool
  | .tuple l => l.attach.all fun v => hashableAfter v.1
  | .list _ | .set _ | .frozenset _ | .dict _ => false
  | _ => true
termination_by v => sizeOf v
decreasing_by exact PyValue.sizeOf_lt_tuple v.2

mutual

/-- What is met first in what is deserialized. -/
def firstMet (registry : Registry) (full : Bool) (o : PyValue) : Start :=
  match o with
  | .list l | .tuple l | .frozenset l => .first (l.map fun d => firstMet registry true d)
  | .set l =>
    (Start.first (l.map fun d => firstMet registry true d)).andThen
      (if l.all hashableAfter then .nothing else .error)
  | .dict old =>
    match _h : dictView old with
    | .notADict _ | .undecodable => .error
    | .plain items => .first (items.attach.map fun e => firstMet registry full e.1.2)
    | .tagged classname version value =>
      if classname = "" then .error
      else if full then if registry.allowed classname then .event else .error
      else firstMetIn registry classname version value
  | _ => .nothing
termination_by (sizeOf o, 0)
decreasing_by
  all_goals first
    | exact Prod.Lex.left _ _ (dictView_tagged_size _h)
    | exact Prod.Lex.left _ _ (dictView_plain_size _h e.2)
    | exact Prod.Lex.left _ _ (PyValue.sizeOf_lt_list ‹_›)

/-- What is met first in what `_stringify` shows. -/
def firstMetIn (registry : Registry) (classname : String) (version : Int) (value : PyValue) :
    Start :=
  match registry.stringify classname with
  | some f =>
    match f version value with
    | .ok _ => .nothing
    | .error _ => .error
  | none =>
    if value.isCollection then firstMet registry false value
    else
      match value with
      | .dict items => .first (items.map fun e => firstMet registry false e.2)
      | _ => .nothing
termination_by (sizeOf value, 1)
decreasing_by
  · exact Prod.Lex.right _ Nat.zero_lt_one
  · exact Prod.Lex.left _ _ (PyValue.sizeOf_lt_dict ‹_›)

end

section
variable {registry : Registry} {full : Bool} {old : List (String × PyValue)}

theorem firstMet_plain {items : List (String × PyValue)} (h : dictView old = .plain items) :
    firstMet registry full (.dict old) =
      .first (items.map fun e => firstMet registry full e.2) := by
  rw [firstMet]
  split
  · next he => cases h.symm.trans he
  · next he => cases h.symm.trans he
  · next he =>
    cases h.symm.trans he
    let f (e : String × PyValue) := firstMet registry full e.2
    have hmap : items.attach.map (fun e => f e.1) = items.map f := List.attach_map_val
    exact congrArg Start.first hmap
  · next he => cases h.symm.trans he

theorem firstMet_tagged {classname : String} {version : Int} {value : PyValue}
    (h : dictView old = .tagged classname version value) :
    firstMet registry full (.dict old) =
      if classname = "" then .error
      else if full then if registry.allowed classname then .event else .error
      else firstMetIn registry classname version value := by
  rw [firstMet]
  split
  · next he => cases h.symm.trans he
  · next he => cases h.symm.trans he
  · next he => cases h.symm.trans he
  · next he =>
    cases h.symm.trans he
    rfl

theorem firstMet_notADict {e : PyError} (h : dictView old = .notADict e) :
    firstMet registry full (.dict old) = .error := by
  rw [firstMet]
  split
  · rfl
  · rfl
  · next he => cases h.symm.trans he
  · next he => cases h.symm.trans he

theorem firstMet_undecodable (h : dictView old = .undecodable) :
    firstMet registry full (.dict old) = .error := by
  rw [firstMet]
  split
  · rfl
  · rfl
  · next he => cases h.symm.trans he
  · next he => cases h.symm.trans he

/-! ## Deserialization starts with it -/

theorem elements_start {l : List PyValue}
    (h : ∀ v ∈ l, (deserialize registry true v).start = firstMet registry true v) :
    (elements registry l).start = .first (l.map fun v => firstMet registry true v) := by
  rw [elements, Traced.start_sequence, List.map_map]
  exact congrArg Start.first (List.map_congr_left h)

theorem entries_start {items : List (String × PyValue)}
    (h : ∀ e ∈ items, (deserialize registry full e.2).start = firstMet registry full e.2) :
    (entries registry full items).start =
      .first (items.map fun e => firstMet registry full e.2) := by
  rw [entries, Traced.start_sequence, List.map_map]
  refine congrArg Start.first (List.map_congr_left fun e he => ?_)
  show ((deserialize registry full e.2).map _).start = _
  rw [Traced.start_map, h e he]

theorem forall₂_deserialize {l col : List PyValue} (h : (elements registry l).result = .ok col) :
    List.Forall₂ (fun v w => (deserialize registry true v).result = .ok w) l col :=
  List.forall₂_map_left_iff.mp (Traced.sequence_result_ok.mp h)

theorem hashableAll_elements {l col : List PyValue}
    (hcol : List.Forall₂ (fun v w => (deserialize registry true v).result = .ok w) l col)
    (ih : ∀ v ∈ l, ∀ w, (deserialize registry true v).result = .ok w →
      w.hashable = hashableAfter v) :
    PyValue.hashableAll col = l.all hashableAfter := by
  induction hcol with
  | nil => rfl
  | cons hw _ ihl =>
    rw [PyValue.hashableAll, List.all_cons, ih _ List.mem_cons_self _ hw,
      ihl fun v hv => ih v (List.mem_cons_of_mem _ hv)]

/-- What is deserialized in full without loading anything is hashable if `hashableAfter` says
so. -/
theorem hashable_deserialize (o : PyValue) :
    firstMet registry true o = .nothing →
      ∀ v, (deserialize registry true o).result = .ok v → v.hashable = hashableAfter o := by
  refine PyValue.induction (motive := fun o => firstMet registry true o = .nothing →
    ∀ v, (deserialize registry true o).result = .ok v → v.hashable = hashableAfter o) ?_ o
  refine ⟨?atom, ?list, ?tuple, ?set, ?frozenset, ?dict⟩
  case atom =>
    intro o ho _ v hv
    rw [deserialize_atom ho] at hv
    cases hv
    cases o <;> simp [PyValue.isAtom] at ho <;> rw [hashableAfter] <;> simp [PyValue.hashable]
  case list =>
    intro l _ _ v hv
    rw [deserialize_list] at hv
    obtain ⟨col, -, rfl⟩ := Traced.map_result_ok.mp hv
    rw [hashableAfter, PyValue.hashable]
  case tuple =>
    intro l ih hmet v hv
    rw [deserialize_tuple] at hv
    obtain ⟨col, hcol, rfl⟩ := Traced.map_result_ok.mp hv
    rw [firstMet, Traced.Start.first_eq_nothing] at hmet
    have hall := hashableAll_elements (forall₂_deserialize hcol) fun v hv =>
      ih v hv (hmet _ (List.mem_map_of_mem hv))
    rw [PyValue.hashable, hall, hashableAfter]
    simp
  case set =>
    intro l _ _ v hv
    rw [deserialize_set] at hv
    obtain ⟨col, -, hset⟩ := Traced.bind_result_ok.mp hv
    rw [Traced.lift, PyValue.toSet] at hset
    split at hset <;> cases hset
    rw [hashableAfter, PyValue.hashable]
  case frozenset =>
    intro l _ _ v hv
    rw [deserialize_frozenset] at hv
    obtain ⟨col, -, rfl⟩ := Traced.map_result_ok.mp hv
    rw [hashableAfter, PyValue.hashable]
  case dict =>
    intro old _ hmet v hv
    cases hview : dictView old with
    | notADict e => rw [firstMet_notADict hview] at hmet; cases hmet
    | undecodable => rw [firstMet_undecodable hview] at hmet; cases hmet
    | plain items =>
      rw [deserialize_plain hview] at hv
      obtain ⟨items', -, rfl⟩ := Traced.map_result_ok.mp hv
      rw [hashableAfter, PyValue.hashable]
    | tagged classname version value =>
      rw [firstMet_tagged hview, if_pos rfl] at hmet
      split at hmet
      · cases hmet
      · split at hmet <;> cases hmet

theorem stringify_start {classname : String} {version : Int} {value : PyValue}
    (hvalue : (deserialize registry false value).start = firstMet registry false value)
    (hitems : ∀ items, value = .dict items → ∀ e ∈ items,
      (deserialize registry false e.2).start = firstMet registry false e.2) :
    (stringify registry classname version value).start =
      firstMetIn registry classname version value := by
  rw [stringify.eq_def, firstMetIn.eq_def]
  cases registry.stringify classname with
  | some f =>
    cases hf : f version value <;> simp [Traced.lift, Traced.start, hf]
  | none =>
    cases value with
    | list l => simpa [PyValue.isPrimitive, PyValue.isCollection] using hvalue
    | tuple l => simpa [PyValue.isPrimitive, PyValue.isCollection] using hvalue
    | set l => simpa [PyValue.isPrimitive, PyValue.isCollection] using hvalue
    | frozenset l => simpa [PyValue.isPrimitive, PyValue.isCollection] using hvalue
    | dict items =>
      show ((Traced.sequence _).map _).start = _
      rw [Traced.start_map, Traced.start_sequence, List.map_map]
      refine congrArg Start.first (List.map_congr_left fun e he => ?_)
      show ((deserialize registry false e.2).map _).start = _
      rw [Traced.start_map, hitems items rfl e he]
    | _ => rfl

/-- **Deserialization starts with what is met first.** -/
theorem deserialize_start (o : PyValue) :
    ∀ full, (deserialize registry full o).start = firstMet registry full o := by
  refine PyValue.induction
    (motive := fun o => ∀ full, (deserialize registry full o).start = firstMet registry full o) ?_ o
  refine ⟨?atom, ?list, ?tuple, ?set, ?frozenset, ?dict⟩
  case atom =>
    intro o ho full
    rw [deserialize_atom ho]
    cases o <;> simp [PyValue.isAtom] at ho <;> rw [firstMet] <;> simp
  case list =>
    intro l ih full
    rw [deserialize_list, Traced.start_map, elements_start fun v hv => ih v hv true, firstMet]
  case tuple =>
    intro l ih full
    rw [deserialize_tuple, Traced.start_map, elements_start fun v hv => ih v hv true, firstMet]
  case frozenset =>
    intro l ih full
    rw [deserialize_frozenset, Traced.start_map, elements_start fun v hv => ih v hv true, firstMet]
  case set =>
    intro l ih full
    have hstart := elements_start fun v hv => ih v hv true
    rw [deserialize_set, firstMet, ← hstart]
    refine Traced.start_bind fun col htrace hcol => ?_
    -- nothing is met in the elements, so that the collection is hashable if all of them stay so
    have hmet : Start.first (l.map fun v => firstMet registry true v) = .nothing := by
      rw [← hstart]
      exact Traced.start_eq_nothing.mpr ⟨htrace, col, hcol⟩
    rw [Traced.Start.first_eq_nothing] at hmet
    have hall := hashableAll_elements (forall₂_deserialize hcol) fun v hv =>
      hashable_deserialize v (hmet _ (List.mem_map_of_mem hv))
    rw [PyValue.toSet, hall]
    split <;> rfl
  case dict =>
    intro old ih full
    cases hview : dictView old with
    | notADict e => rw [deserialize_notADict hview, firstMet_notADict hview, Traced.start_fail]
    | undecodable =>
      rw [deserialize_undecodable hview, firstMet_undecodable hview, Traced.start_fail]
    | plain items =>
      rw [deserialize_plain hview, firstMet_plain hview, Traced.start_map]
      exact entries_start fun e he => ih e.2 (.inr (.inl ⟨items, hview, e, he, rfl⟩)) full
    | tagged classname version value =>
      have hread : ∀ v, (v = value ∨ ∃ items, value = .dict items ∧ ∃ e ∈ items, v = e.2) →
          ∀ full, (deserialize registry full v).start = firstMet registry full v := fun v hv =>
        ih v (.inr (.inr ⟨classname, version, value, hview, hv⟩))
      rw [deserialize_tagged hview, firstMet_tagged hview]
      split
      · rfl
      · cases full with
        | false =>
          show ((stringify registry classname version value).map _).start = firstMetIn _ _ _ _
          rw [Traced.start_map]
          exact stringify_start (hread value (.inl rfl) false)
            fun items hi e he => hread e.2 (.inr ⟨items, hi, e, he, rfl⟩) false
        | true =>
          show (if !registry.allowed classname then _ else _ : Loading PyValue).start =
            if registry.allowed classname then Start.event else Start.error
          cases registry.allowed classname <;> rfl

end

/-- **Deserialization for display loads nothing unless an encoded object of an allowed class is
met first** where the elements of a collection are deserialized in full. -/
theorem display_loads_nothing (registry : Registry) (o : PyValue) :
    (deserialize registry false o).trace = [] ↔ firstMet registry false o ≠ .event := by
  rw [← deserialize_start, ne_eq, Traced.start_eq_event, not_not]

/-! ### An encoded tuple in a list -/

/-- `encode("builtins.tuple", 1, [])`. -/
def encodedTuple : PyValue :=
  .dict [(CLASSNAME, .str "builtins.tuple"), (VERSION, .int 1), (DATA, .list [])]

/-- The tuple in the list is imported and built although only its text is asked for. -/
theorem listedTuple_loads :
    (deserialize stockRegistry false (.list [encodedTuple])).trace =
      [.importString "builtins.tuple", .deserializer "builtins.tuple"] := by
  have hview : dictView [(CLASSNAME, .str "builtins.tuple"), (VERSION, .int 1), (DATA, .list [])] =
      .tagged "builtins.tuple" 1 (.list []) := by
    simp [dictView, convert, decode, getKey, hasKey, CLASSNAME, VERSION, DATA, OLD_TYPE, OLD_DATA]
  have hnil : deserialize stockRegistry true (.list []) = .pure (.list []) := by
    rw [deserialize_list]
    rfl
  have hallowed : stockRegistry.allowed "builtins.tuple" = true := by
    simp [Registry.allowed, builtinClasses]
  have hload : (load stockRegistry "builtins.tuple" 1 (.list [])).trace =
      [.deserializer "builtins.tuple"] := by
    rw [load, hnil]
    simp [Registry.importClass, Registry.registered, builtinClasses, Traced.lift, Traced.bind,
      Traced.pure, Traced.emit]
  rw [deserialize_list, elements, encodedTuple]
  simp only [List.map_cons, List.map_nil, deserialize_tagged hview, hallowed, Traced.sequence]
  simp only [Traced.map, Traced.bind, Traced.emit]
  cases (load stockRegistry "builtins.tuple" 1 (.list [])).result <;> simp [hload, Traced.pure]

end Airflow.Serde
