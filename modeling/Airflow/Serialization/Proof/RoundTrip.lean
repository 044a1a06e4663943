import Airflow.Serialization.XCom
import Airflow.Serialization.Proof.Shrink

/-!
# XCom values through their JSON form

`PyValue.Faithful` describes the values that the decoder gives back as they were. What a value
is decoded to is the value, if it is faithful, or lighter, whether `serialize` writes it
(`decodes_serialize`) or the `json` module (`decodes_iterencode`).
-/

namespace Airflow.Serde

open PyValue

/-! ## Faithful values -/

/-- The value is decoded to itself. `inSerialize` says that it is written by `serialize`, which
keeps tuples, and not by the `json` module, which does not. What a dict or a collection with a
class tag holds is deserialized once more. -/
def PyValue.Faithful (inSerialize : Bool) : PyValue → Prop
  | .list l => ∀ v ∈ l, Faithful inSerialize v
  | .tuple l => inSerialize ∧ ∀ v ∈ l, Faithful true v ∧ v.Stable
  | .set l | .frozenset l => ∀ v ∈ l, Faithful true v ∧ v.Stable
  | .dict items => plain items ∧ ∀ e ∈ items, Faithful inSerialize e.2 ∧ e.2.Stable
  | _ => True
termination_by v => sizeOf v
decreasing_by
  · exact sizeOf_lt_list ‹_›
  · exact sizeOf_lt_tuple ‹_›
  · exact sizeOf_lt_set ‹_›
  · exact sizeOf_lt_frozenset ‹_›
  · exact sizeOf_lt_dict ‹_›

/-- `r` is what `v` is decoded to: `v` itself, if it is faithful, or a lighter value. -/
def Decodes (inSerialize : Bool) (v : PyValue) (r : Except PyError PyValue) : Prop :=
  (v.Faithful inSerialize → r = .ok v) ∧
  ∀ z, r = .ok z → (z = v ∧ v.Faithful inSerialize) ∨ weight z < weight v

section
variable {registry : Registry} {hook : List (String × PyValue) → Except PyError PyValue}
  {inSerialize : Bool}

theorem decodes_atom {v : PyValue} (h : v.isAtom) : Decodes inSerialize v (.ok v) := by
  refine ⟨fun _ => rfl, fun z hz => ?_⟩
  cases hz
  refine .inl ⟨rfl, ?_⟩
  cases v <;> simp [isAtom] at h <;> simp [PyValue.Faithful]

theorem decodes_all {l : List PyValue} {js : List Json}
    (h : List.Forall₂ (fun v j => Decodes inSerialize v (loads hook j)) l js) :
    ((∀ v ∈ l, v.Faithful inSerialize) → js.mapM (loads hook) = .ok l) ∧
    ∀ zs, js.mapM (loads hook) = .ok zs →
      (zs = l ∧ ∀ v ∈ l, v.Faithful inSerialize) ∨ weightAll zs < weightAll l := by
  simp only [Traced.mapM_eq_ok]
  induction h with
  | nil => simp
  | @cons v j l js hv _ ih =>
    constructor
    · intro hl
      rw [List.forall_mem_cons] at hl
      exact .cons (hv.1 hl.1) (ih.1 hl.2)
    · intro zs hzs
      cases hzs with
      | @cons _ z _ zs hz hzs =>
        simp only [weightAll, List.forall_mem_cons]
        rcases hv.2 z hz with ⟨rfl, hfv⟩ | hlt
        · rcases ih.2 zs hzs with ⟨rfl, hfl⟩ | hlt
          · exact .inl ⟨rfl, hfv, hfl⟩
          · exact .inr (by omega)
        · rcases ih.2 zs hzs with ⟨rfl, -⟩ | hlt' <;> exact .inr (by omega)

theorem decodes_items {items : List (String × PyValue)} {js : List (String × Json)}
    (h : List.Forall₂ (fun d e => e.1 = d.1 ∧ Decodes inSerialize d.2 (loads hook e.2)) items js) :
    ((∀ e ∈ items, e.2.Faithful inSerialize) →
      js.mapM (fun e => (loads hook e.2).map fun v => (e.1, v)) = .ok items) ∧
    ∀ zs, js.mapM (fun e => (loads hook e.2).map fun v => (e.1, v)) = .ok zs →
      (zs = items ∧ ∀ e ∈ items, e.2.Faithful inSerialize) ∨
        weightItems zs < weightItems items := by
  simp only [Traced.mapM_eq_ok]
  induction h with
  | nil => simp
  | @cons d e items js hd _ ih =>
    obtain ⟨k, v⟩ := d
    obtain ⟨k', j⟩ := e
    obtain ⟨hk, hv⟩ := hd
    cases hk
    constructor
    · intro hl
      rw [List.forall_mem_cons] at hl
      exact .cons (Traced.map_eq_ok.mpr ⟨v, hv.1 hl.1, rfl⟩) (ih.1 hl.2)
    · intro zs hzs
      cases hzs with
      | @cons _ z _ zs hz hzs =>
        obtain ⟨w, hw, rfl⟩ := Traced.map_eq_ok.mp hz
        simp only [weightItems, List.forall_mem_cons]
        rcases hv.2 w hw with ⟨rfl, hfv⟩ | hlt
        · rcases ih.2 zs hzs with ⟨rfl, hfl⟩ | hlt
          · exact .inl ⟨rfl, hfv, hfl⟩
          · exact .inr (by omega)
        · simp only at hlt
          rcases ih.2 zs hzs with ⟨rfl, -⟩ | hlt' <;> exact .inr (by omega)

/-! ## The branches of the decoder -/

theorem decodes_list {l : List PyValue} {js : List Json}
    (h : List.Forall₂ (fun v j => Decodes inSerialize v (loads hook j)) l js) :
    Decodes inSerialize (.list l) (loads hook (.arr js)) := by
  obtain ⟨hfaith, hback⟩ := decodes_all h
  rw [Decodes, loads, PyValue.Faithful]
  constructor
  · intro hl
    exact Traced.map_eq_ok.mpr ⟨l, hfaith hl, rfl⟩
  · intro z hz
    obtain ⟨zs, hzs, rfl⟩ := Traced.map_eq_ok.mp hz
    refine (hback zs hzs).imp (fun hl => ⟨congrArg _ hl.1, hl.2⟩) fun hlt => ?_
    simp only [weight]
    omega

/-- A tuple that the `json` module writes is decoded to a list. -/
theorem decodes_writtenTuple {l : List PyValue} {js : List Json}
    (h : List.Forall₂ (fun v j => Decodes false v (loads hook j)) l js) :
    Decodes false (.tuple l) (loads hook (.arr js)) := by
  obtain ⟨-, hback⟩ := decodes_all h
  rw [Decodes, loads, PyValue.Faithful]
  constructor
  · intro hl
    cases hl.1
  · intro z hz
    obtain ⟨zs, hzs, rfl⟩ := Traced.map_eq_ok.mp hz
    refine .inr ?_
    simp only [weight]
    rcases hback zs hzs with ⟨rfl, -⟩ | hlt <;> omega

theorem decodes_dict {items : List (String × PyValue)} {js : List (String × Json)}
    (hwf : (PyValue.dict items).WellFormed)
    (h : List.Forall₂ (fun d e => e.1 = d.1 ∧
      Decodes inSerialize d.2 (loads (objectHook registry) e.2)) items js) :
    Decodes inSerialize (.dict items) (loads (objectHook registry) (.obj js)) := by
  obtain ⟨hfaith, hback⟩ := decodes_items h
  rw [Decodes, loads]
  constructor
  · intro hl
    rw [PyValue.Faithful] at hl
    refine Traced.bind_eq_ok.mpr ⟨items, hfaith fun e he => (hl.2 e he).1, ?_⟩
    refine deserialize_stable _ hwf ?_
    rw [Stable]
    exact ⟨hl.1, fun e he => (hl.2 e he).2⟩
  · intro z hz
    obtain ⟨zs, hzs, hz⟩ := Traced.bind_eq_ok.mp hz
    have hhook := deserialize_shrinks (.dict zs) z hz
    rcases hback zs hzs with ⟨rfl, hl⟩ | hlt
    · refine hhook.imp (fun heq => ⟨heq, ?_⟩) id
      rw [heq] at hz
      have hstable := stable_of_deserialize _ hz
      rw [Stable] at hstable
      rw [PyValue.Faithful]
      exact ⟨hstable.1, fun e he => ⟨hl e he, hstable.2 e he⟩⟩
    · refine .inr ?_
      rcases hhook with rfl | hhook
      · simp only [weight]
        omega
      · simp only [weight] at hhook ⊢
        omega

/-! ## Encoded collections -/

theorem dictView_encoded (classname : String) (version : Int) (data : PyValue) :
    dictView [(CLASSNAME, .str classname), (VERSION, .int version), (DATA, data)] =
      .tagged classname version data := by
  simp [dictView, convert, decode, getKey, hasKey, CLASSNAME, VERSION, DATA, OLD_TYPE, OLD_DATA]

/-- What the hook makes of an encoded built-in collection. -/
theorem objectHook_encoded {classname : String} (h : classname ∈ builtinClasses) (version : Int)
    (l : List PyValue) :
    objectHook registry [(CLASSNAME, .str classname), (VERSION, .int version), (DATA, .list l)] =
      (elements registry l).result.bind fun col =>
        builtinDeserialize classname version (.list col) := by
  have hname : classname ≠ "" := by
    rintro rfl
    simp [builtinClasses] at h
  have hallowed : registry.allowed classname = true := by simp [Registry.allowed, h]
  have hload : (load registry classname version (.list l)).result =
      (elements registry l).result.bind fun col =>
        builtinDeserialize classname version (.list col) := by
    rw [load, Registry.importClass, if_pos h, Registry.registered, if_pos h]
    simp only [Traced.bind_result, Traced.lift, Traced.emit]
    rw [deserialize_list]
    show Except.bind ((elements registry l).result.map PyValue.list) _ = _
    cases (elements registry l).result <;> rfl
  rw [objectHook, deserialize_tagged (dictView_encoded _ _ _), if_neg hname, if_neg (by simp),
    hallowed]
  exact hload

/-- What an encoded collection is decoded to, when `builtin.deserialize` makes the collection
again from its elements. -/
theorem decodes_encoded {classname : String} (h : classname ∈ builtinClasses)
    {wrap : List PyValue → PyValue} {l : List PyValue} {js : List Json}
    (hl : List.Forall₂ (fun v j => Decodes true v (loads (objectHook registry) j)) l js)
    (hwf : ∀ v ∈ l, v.WellFormed)
    (hweight : ∀ l, weight (wrap l) = 2 + weightAll l)
    (hfaithful : (wrap l).Faithful inSerialize ↔ ∀ v ∈ l, v.Faithful true ∧ v.Stable)
    (hagain : builtinDeserialize classname builtinVersion (.list l) = .ok (wrap l))
    (hpart : ∀ col z, builtinDeserialize classname builtinVersion (.list col) = .ok z →
      ∃ l', l'.Sublist col ∧ z = wrap l') :
    Decodes inSerialize (wrap l)
      (loads (objectHook registry) (encode classname builtinVersion (.arr js))) := by
  obtain ⟨hfaith, hback⟩ := decodes_all hl
  have hloads : loads (objectHook registry) (encode classname builtinVersion (.arr js)) =
      (js.mapM (loads (objectHook registry))).bind fun vals =>
        (elements registry vals).result.bind fun col =>
          builtinDeserialize classname builtinVersion (.list col) := by
    simp only [encode, loads, List.mapM_cons, List.mapM_nil]
    simp only [← objectHook_encoded h]
    cases js.mapM (loads (objectHook registry)) <;> rfl
  rw [hloads]
  constructor
  · intro hf
    rw [hfaithful] at hf
    refine Traced.bind_eq_ok.mpr ⟨l, hfaith fun v hv => (hf v hv).1, ?_⟩
    refine Traced.bind_eq_ok.mpr ⟨l, ?_, hagain⟩
    exact elements_stable hwf (fun v hv => (hf v hv).2) fun v _ => deserialize_stable v
  · intro z hz
    obtain ⟨vals, hvals, hz⟩ := Traced.bind_eq_ok.mp hz
    obtain ⟨col, hcol, hz⟩ := Traced.bind_eq_ok.mp hz
    obtain ⟨l', hl', rfl⟩ := hpart col z hz
    -- three steps, each of which keeps the elements or makes them lighter
    rw [hweight, hweight, hfaithful]
    rcases hback vals hvals with ⟨rfl, hf⟩ | hlt
    · rcases elements_shrinks hcol with rfl | hlt
      · rcases weightAll_sublist hl' with rfl | hlt
        · refine .inl ⟨rfl, fun v hv => ⟨hf v hv, ?_⟩⟩
          exact forall_of_elements hcol (fun v _ => stable_of_deserialize v) v hv
        · exact .inr (by omega)
      · rcases weightAll_sublist hl' with rfl | hlt' <;> exact .inr (by omega)
    · rcases elements_shrinks hcol with rfl | hlt' <;>
        rcases weightAll_sublist hl' with rfl | hlt'' <;> exact .inr (by omega)

theorem hashable_wellFormed {wrap : List PyValue → PyValue} {l : List PyValue}
    (h : (PyValue.set l).WellFormed) : toSet wrap l = .ok (wrap l) ∧ ∀ v ∈ l, v.WellFormed := by
  rw [WellFormed] at h
  exact ⟨toSet_of_pairwise h.1, h.2⟩

theorem toSet_part {wrap : List PyValue → PyValue} {col : List PyValue} {z : PyValue}
    (h : toSet wrap col = .ok z) : ∃ l', l'.Sublist col ∧ z = wrap l' :=
  ⟨distinct col, distinct_sublist col, (toSet_eq_ok.mp h).2⟩

theorem decodes_tuple {l : List PyValue} {js : List Json} (hwf : (PyValue.tuple l).WellFormed)
    (hl : List.Forall₂ (fun v j => Decodes true v (loads (objectHook registry) j)) l js) :
    Decodes true (.tuple l)
      (loads (objectHook registry) (encode "builtins.tuple" builtinVersion (.arr js))) := by
  rw [WellFormed] at hwf
  refine decodes_encoded (by decide) hl hwf (fun l => by rw [weight]) ?_ rfl ?_
  · rw [PyValue.Faithful]
    simp
  · intro col z hz
    cases hz
    exact ⟨col, List.Sublist.refl col, rfl⟩

theorem decodes_set {l : List PyValue} {js : List Json} (hwf : (PyValue.set l).WellFormed)
    (hl : List.Forall₂ (fun v j => Decodes true v (loads (objectHook registry) j)) l js) :
    Decodes inSerialize (.set l)
      (loads (objectHook registry) (encode "builtins.set" builtinVersion (.arr js))) := by
  obtain ⟨hset, hall⟩ := hashable_wellFormed hwf
  refine decodes_encoded (by decide) hl hall (fun l => by rw [weight]) ?_ hset ?_
  · rw [PyValue.Faithful]
  · intro col z hz
    exact toSet_part (show toSet .set col = .ok z from hz)

theorem decodes_frozenset {l : List PyValue} {js : List Json}
    (hwf : (PyValue.frozenset l).WellFormed)
    (hl : List.Forall₂ (fun v j => Decodes true v (loads (objectHook registry) j)) l js) :
    Decodes inSerialize (.frozenset l)
      (loads (objectHook registry) (encode "builtins.frozenset" builtinVersion (.arr js))) := by
  have hset : (PyValue.set l).WellFormed := by
    rw [WellFormed] at hwf
    rw [WellFormed]
    exact hwf
  obtain ⟨hset, hall⟩ := hashable_wellFormed hset
  refine decodes_encoded (by decide) hl hall (fun l => by rw [weight]) ?_ hset ?_
  · rw [PyValue.Faithful]
  · intro col z hz
    exact toSet_part (show toSet .frozenset col = .ok z from hz)

/-! ## The encoders -/

theorem serialize_list_eq_ok {n : Nat} {l : List PyValue} {j : Json} :
    serialize registry n (.list l) = .ok j ↔
      ∃ m js, n = m + 1 ∧ l.mapM (serialize registry m) = .ok js ∧ j = .arr js := by
  cases n with
  | zero => simp [serialize]
  | succ n =>
    rw [serialize, Traced.map_eq_ok]
    constructor
    · rintro ⟨js, hjs, rfl⟩
      exact ⟨n, js, rfl, hjs, rfl⟩
    · rintro ⟨m, js, hn, hjs, rfl⟩
      cases hn
      exact ⟨js, hjs, rfl⟩

/-- A collection that `serialize` writes holds what it writes for the elements. -/
theorem elements_of_serialize {wrap : List PyValue → PyValue} {classname : String} {n : Nat}
    {l : List PyValue} {j : Json}
    (hwrap : ∀ n, serialize registry (n + 1) (wrap l) =
      (serialize registry n (.list l)).map (encode classname builtinVersion))
    (h : serialize registry n (wrap l) = .ok j) :
    ∃ m js, n = m + 2 ∧ l.mapM (serialize registry m) = .ok js ∧
      j = encode classname builtinVersion (.arr js) := by
  cases n with
  | zero => rw [serialize] at h; cases h
  | succ n =>
    rw [hwrap] at h
    obtain ⟨arr, harr, rfl⟩ := Traced.map_eq_ok.mp h
    obtain ⟨m, js, rfl, hjs, rfl⟩ := serialize_list_eq_ok.mp harr
    exact ⟨m, js, rfl, hjs, rfl⟩

theorem iterencode_set (l : List PyValue) : iterencode registry (.set l) =
    serialize registry registry.maxRecursionDepth (.set l) := by
  rw [iterencode] <;> simp

theorem iterencode_frozenset (l : List PyValue) : iterencode registry (.frozenset l) =
    serialize registry registry.maxRecursionDepth (.frozenset l) := by
  rw [iterencode] <;> simp

theorem forall₂_decodes {α β : Type} {f : α → Except PyError β} {l : List α} {js : List β}
    {R : α → β → Prop} (h : l.mapM f = .ok js) (ih : ∀ v ∈ l, ∀ j, f v = .ok j → R v j) :
    List.Forall₂ R l js :=
  ((List.forall₂_and_left _ _).mpr ⟨ih, Traced.mapM_eq_ok.mp h⟩).imp fun _ j h => h.1 j h.2

/-- **What `serialize` writes is decoded to the value or a lighter one.** -/
theorem decodes_serialize (v : PyValue) : v.WellFormed → ∀ n j, serialize registry n v = .ok j →
    Decodes true v (loads (objectHook registry) j) := by
  let Back (v : PyValue) : Prop := v.WellFormed → ∀ n j, serialize registry n v = .ok j →
    Decodes true v (loads (objectHook registry) j)
  have hall : ∀ l : List PyValue, (∀ v ∈ l, Back v) → (∀ v ∈ l, v.WellFormed) → ∀ n js,
      l.mapM (serialize registry n) = .ok js →
      List.Forall₂ (fun v j => Decodes true v (loads (objectHook registry) j)) l js :=
    fun _ ih hwf n _ h => forall₂_decodes h fun _ hv => ih _ hv (hwf _ hv) n
  refine PyValue.induction (motive := Back) ?_ v
  refine ⟨?atom, ?list, ?tuple, ?set, ?frozenset, ?dict⟩
  case atom =>
    intro v hv hwf n j hj
    cases n with
    | zero => cases hj
    | succ n =>
      cases v <;> simp [isAtom] at hv <;> simp [WellFormed] at hwf <;> cases hj <;>
        rw [loads] <;> exact decodes_atom rfl
  case list =>
    intro l ih hwf n j hj
    rw [WellFormed] at hwf
    obtain ⟨m, js, -, hjs, rfl⟩ := serialize_list_eq_ok.mp hj
    exact decodes_list (hall l ih hwf m js hjs)
  case tuple =>
    intro l ih hwf n j hj
    obtain ⟨m, js, -, hjs, rfl⟩ := elements_of_serialize (fun n => by rw [serialize]) hj
    refine decodes_tuple hwf (hall l ih ?_ m js hjs)
    rw [WellFormed] at hwf
    exact hwf
  case set =>
    intro l ih hwf n j hj
    obtain ⟨m, js, -, hjs, rfl⟩ := elements_of_serialize (fun n => by rw [serialize]) hj
    refine decodes_set hwf (hall l ih ?_ m js hjs)
    rw [WellFormed] at hwf
    exact hwf.2
  case frozenset =>
    intro l ih hwf n j hj
    obtain ⟨m, js, -, hjs, rfl⟩ := elements_of_serialize (fun n => by rw [serialize]) hj
    refine decodes_frozenset hwf (hall l ih ?_ m js hjs)
    rw [WellFormed] at hwf
    exact hwf.2
  case dict =>
    intro items ih hwf n j hj
    cases n with
    | zero => cases hj
    | succ n =>
      rw [serialize] at hj
      split at hj
      · cases hj
      · obtain ⟨js, hjs, rfl⟩ := Traced.map_eq_ok.mp hj
        refine decodes_dict hwf (forall₂_decodes hjs fun d hd e he => ?_)
        obtain ⟨j, hj, rfl⟩ := Traced.map_eq_ok.mp he
        rw [WellFormed] at hwf
        exact ⟨rfl, ih d.2 (.inl ⟨d, hd, rfl⟩) (hwf.2 d hd) n j hj⟩

/-- **What the `json` module writes is decoded to the value or a lighter one.** -/
theorem decodes_iterencode (v : PyValue) : v.WellFormed → ∀ j, iterencode registry v = .ok j →
    Decodes false v (loads (objectHook registry) j) := by
  refine PyValue.induction (motive := fun v => v.WellFormed → ∀ j,
    iterencode registry v = .ok j → Decodes false v (loads (objectHook registry) j)) ?_ v
  refine ⟨?atom, ?list, ?tuple, ?set, ?frozenset, ?dict⟩
  case atom =>
    intro v hv hwf j hj
    cases v <;> simp [isAtom] at hv <;> simp [WellFormed] at hwf <;> rw [iterencode] at hj <;>
      cases hj <;> rw [loads] <;> exact decodes_atom rfl
  case list =>
    intro l ih hwf j hj
    rw [WellFormed] at hwf
    rw [iterencode] at hj
    obtain ⟨js, hjs, rfl⟩ := Traced.map_eq_ok.mp hj
    exact decodes_list (forall₂_decodes hjs fun v hv j hj => ih v hv (hwf v hv) j hj)
  case tuple =>
    intro l ih hwf j hj
    rw [WellFormed] at hwf
    rw [iterencode] at hj
    obtain ⟨js, hjs, rfl⟩ := Traced.map_eq_ok.mp hj
    exact decodes_writtenTuple (forall₂_decodes hjs fun v hv j hj => ih v hv (hwf v hv) j hj)
  case set =>
    intro l _ hwf j hj
    rw [iterencode_set] at hj
    have hback := decodes_serialize _ hwf _ j hj
    rw [Decodes, PyValue.Faithful] at hback ⊢
    exact hback
  case frozenset =>
    intro l _ hwf j hj
    rw [iterencode_frozenset] at hj
    have hback := decodes_serialize _ hwf _ j hj
    rw [Decodes, PyValue.Faithful] at hback ⊢
    exact hback
  case dict =>
    intro items ih hwf j hj
    rw [iterencode] at hj
    obtain ⟨js, hjs, rfl⟩ := Traced.map_eq_ok.mp hj
    refine decodes_dict hwf (forall₂_decodes hjs fun d hd e he => ?_)
    obtain ⟨j, hj, rfl⟩ := Traced.map_eq_ok.mp he
    rw [WellFormed] at hwf
    exact ⟨rfl, ih d.2 (.inl ⟨d, hd, rfl⟩) (hwf.2 d hd) j hj⟩

end

end Airflow.Serde
