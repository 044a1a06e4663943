import Airflow.Serialization.Proof.Values

/-!
# Deserialization gives back the value or a lighter one

`PyValue.weight` counts what a value is made of. A second deserialization of a value either leaves
it as it is or makes it lighter (`deserialize_shrinks`), so that what a value becomes is the value
only if no step on the way changes it. `PyValue.Stable` says which values it leaves as they are
(`deserialize_stable`, `stable_of_deserialize`).
-/

namespace Airflow.Serde

/-! ## Weights -/

namespace PyValue

/-- A string weighs no less than the tuple of its characters, but for a constant. -/
def strWeight (s : String) : Nat := 2 * s.length - 1

mutual

def weight : PyValue → Nat
  | .str s => strWeight s
  | .list l => 1 + weightAll l
  | .tuple l | .set l | .frozenset l => 2 + weightAll l
  | .dict items => 1 + weightItems items
  | _ => 0

def weightAll : List PyValue → Nat
  | [] => 0
  | v :: l => 1 + weight v + weightAll l

def weightItems : List (String × PyValue) → Nat
  | [] => 0
  | (k, v) :: items => 1 + strWeight k + weight v + weightItems items

end

theorem weightAll_of_forall₂ {l l' : List PyValue}
    (h : List.Forall₂ (fun v w => w = v ∨ weight w < weight v) l l') :
    l' = l ∨ weightAll l' < weightAll l := by
  induction h with
  | nil => exact .inl rfl
  | cons hw _ ih =>
    rcases hw with rfl | hw
    · rcases ih with rfl | ih
      · exact .inl rfl
      · refine .inr ?_
        simp only [weightAll]
        omega
    · refine .inr ?_
      simp only [weightAll]
      rcases ih with rfl | ih <;> omega

theorem weightItems_of_forall₂ {items items' : List (String × PyValue)}
    (h : List.Forall₂ (fun d e => e.1 = d.1 ∧ (e.2 = d.2 ∨ weight e.2 < weight d.2)) items items') :
    items' = items ∨ weightItems items' < weightItems items := by
  induction h with
  | nil => exact .inl rfl
  | @cons d e _ _ he _ ih =>
    obtain ⟨k, v⟩ := d
    obtain ⟨k', w⟩ := e
    obtain ⟨hk, hw⟩ := he
    cases hk
    rcases hw with hw | hw
    · cases hw
      rcases ih with rfl | ih
      · exact .inl rfl
      · refine .inr ?_
        simp only [weightItems]
        omega
    · refine .inr ?_
      simp only [weightItems]
      simp only at hw
      rcases ih with rfl | ih <;> omega

theorem weightAll_sublist {l l' : List PyValue} (h : l'.Sublist l) :
    l' = l ∨ weightAll l' < weightAll l := by
  induction h with
  | slnil => exact .inl rfl
  | cons v _ ih =>
    refine .inr ?_
    rw [weightAll]
    rcases ih with rfl | ih <;> omega
  | cons_cons v _ ih =>
    rcases ih with rfl | ih
    · exact .inl rfl
    · refine .inr ?_
      simp only [weightAll]
      omega

theorem distinct_sublist (l : List PyValue) : (distinct l).Sublist l := by
  induction l with
  | nil => exact List.Sublist.slnil
  | cons v l ih => exact ((List.filter_sublist).trans ih).cons_cons v

theorem toSet_eq_ok {wrap : List PyValue → PyValue} {l : List PyValue} {v : PyValue} :
    toSet wrap l = .ok v ↔ hashableAll l = true ∧ v = wrap (distinct l) := by
  rw [toSet]
  split
  · next h => simp [h, eq_comm]
  · next h => simp [h]

theorem weight_getKey {items : List (String × PyValue)} {k : String} {v : PyValue}
    (h : getKey items k = some v) : 1 + strWeight k + weight v ≤ weightItems items := by
  obtain ⟨e, he, rfl⟩ := Option.map_eq_some_iff.mp h
  have hkey : e.1 = k := by simpa using List.find?_some he
  have hmem := List.mem_of_find?_eq_some he
  clear he h
  subst hkey
  induction items with
  | nil => cases hmem
  | cons d items ih =>
    obtain ⟨k, v⟩ := d
    rw [weightItems]
    rcases List.mem_cons.mp hmem with rfl | hmem
    · show 1 + strWeight k + weight v ≤ _
      omega
    · have hle := ih hmem
      omega

/-- The elements that iterating gives weigh no more than the value. -/
theorem weightAll_iterate {v : PyValue} {l : List PyValue} (h : v.iterate = some l) :
    weightAll l ≤ weight v + 1 := by
  have hchars : ∀ cs : List Char,
      weightAll (cs.map fun c => .str (String.singleton c)) = 2 * cs.length := by
    intro cs
    induction cs with
    | nil => rfl
    | cons c cs ih =>
      rw [List.map_cons, weightAll, ih, List.length_cons, weight, strWeight,
        String.length_singleton]
      omega
  have hkeys : ∀ items : List (String × PyValue),
      weightAll (items.map fun e => .str e.1) ≤ weightItems items := by
    intro items
    induction items with
    | nil => exact Nat.le_refl 0
    | cons e items ih =>
      obtain ⟨k, v⟩ := e
      rw [List.map_cons, weightAll, weight, weightItems]
      show 1 + strWeight k + _ ≤ _
      omega
  cases v with
  | list l' => cases h; rw [weight]; omega
  | tuple l' => cases h; rw [weight]; omega
  | set l' => cases h; rw [weight]; omega
  | frozenset l' => cases h; rw [weight]; omega
  | str s =>
    cases h
    rw [hchars, weight, strWeight, String.length_toList]
    omega
  | dict items =>
    cases h
    have hle := hkeys items
    rw [weight]
    omega
  | _ => cases h

end PyValue

open PyValue

/-! ## What `deserialize` takes a dict for -/

theorem dictView_plain_weight {old items : List (String × PyValue)}
    (h : dictView old = .plain items) :
    items = old ∨ weightItems items < weightItems old := by
  unfold dictView at h
  split at h
  · next o ho =>
    split at h
    · exact absurd h (decode_not_plain o items)
    · next htag =>
      cases h
      rcases convert_cases old with hc | ⟨type, data, -, hdata, hc | hc⟩
      · rw [hc] at ho
        cases ho
        exact .inl rfl
      · rw [hc] at ho
        subst ho
        have hle := weight_getKey hdata
        rw [weight] at hle
        exact .inr (by omega)
      · rw [hc] at ho
        cases ho
        exact absurd rfl htag
  · cases h

theorem strWeight_classname : strWeight CLASSNAME = 25 := by decide
theorem strWeight_data : strWeight DATA = 15 := by decide
theorem strWeight_oldData : strWeight OLD_DATA = 9 := by decide

theorem dictView_tagged_weight {old : List (String × PyValue)} {classname : String} {version : Int}
    {value : PyValue} (h : dictView old = .tagged classname version value) :
    weight value + 3 < weight (.dict old) := by
  have hdecode : ∀ o, hasKey o CLASSNAME = true → decode o = .tagged classname version value →
      weight value + 3 < 1 + weightItems o := by
    intro o hkey ho
    rw [decode_tagged ho]
    cases hdata : getKey o DATA with
    | some v =>
      have hle := weight_getKey hdata
      rw [strWeight_data] at hle
      show weight v + 3 < _
      omega
    | none =>
      have hclass : ∃ c, getKey o CLASSNAME = some c := by
        unfold decode at ho
        split at ho
        · next hc _ => exact ⟨_, hc⟩
        · next hc _ => exact ⟨_, hc⟩
        · cases ho
      obtain ⟨c, hc⟩ := hclass
      have hle := weight_getKey hc
      rw [strWeight_classname] at hle
      show 0 + 3 < _
      omega
  unfold dictView at h
  split at h
  · next o ho =>
    split at h
    · next hkeys =>
      rw [Bool.and_eq_true] at hkeys
      rw [weight]
      rcases convert_cases old with hc | ⟨type, data, -, hdata, hc | hc⟩
      · rw [hc] at ho
        cases ho
        exact hdecode old hkeys.1 h
      · rw [hc] at ho
        subst ho
        have hlt := hdecode o hkeys.1 h
        have hle := weight_getKey hdata
        rw [weight] at hle
        omega
      · rw [hc] at ho
        cases ho
        have hvalue : value = data := decode_tagged h
        have hle := weight_getKey hdata
        rw [strWeight_oldData] at hle
        rw [hvalue]
        omega
    · cases h
  · cases h

/-! ## Loading -/

section
variable {registry : Registry}

/-- What `builtin.deserialize` returns: a collection of some of what it iterates over. -/
theorem builtinDeserialize_cases {classname : String} {version : Int} {data z : PyValue}
    (h : builtinDeserialize classname version data = .ok z) :
    ∃ l l', data.iterate = some l ∧ l'.Sublist l ∧
      (z = .tuple l' ∨ z = .set l' ∨ z = .frozenset l') := by
  unfold builtinDeserialize at h
  split at h
  · cases h
  · split at h
    · cases h
    · next l hl =>
      split at h
      · cases h
        exact ⟨l, l, hl, List.Sublist.refl l, .inl rfl⟩
      · split at h
        · obtain ⟨-, rfl⟩ := toSet_eq_ok.mp h
          exact ⟨l, distinct l, hl, distinct_sublist l, .inr (.inl rfl)⟩
        · split at h
          · obtain ⟨-, rfl⟩ := toSet_eq_ok.mp h
            exact ⟨l, distinct l, hl, distinct_sublist l, .inr (.inr rfl)⟩
          · cases h

/-- What is loaded: an object, or what `builtin.deserialize` makes of the deserialized data. -/
theorem load_cases {classname : String} {version : Int} {value z : PyValue}
    (h : (load registry classname version value).result = .ok z) :
    (∃ id, z = .object id) ∨
    ∃ data, (deserialize registry true value).result = .ok data ∧
      builtinDeserialize classname version data = .ok z := by
  unfold load at h
  obtain ⟨cls, -, h⟩ := Traced.bind_result_ok.mp h
  split at h
  · next deserializer hreg =>
    obtain ⟨data, hdata, h⟩ := Traced.bind_result_ok.mp h
    unfold Registry.registered at hreg
    split at hreg
    · cases hreg
      exact .inr ⟨data, hdata, h⟩
    · obtain ⟨f, -, rfl⟩ := Option.map_eq_some_iff.mp hreg
      obtain ⟨id, -, rfl⟩ := Traced.map_eq_ok.mp h
      exact .inl ⟨id, rfl⟩
  · split at h
    · obtain ⟨data, -, h⟩ := Traced.bind_result_ok.mp h
      obtain ⟨id, -, rfl⟩ := Traced.map_eq_ok.mp h
      exact .inl ⟨id, rfl⟩
    · split at h
      · cases h
      · obtain ⟨data, -, h⟩ := Traced.bind_result_ok.mp h
        obtain ⟨id, -, rfl⟩ := Traced.map_eq_ok.mp h
        exact .inl ⟨id, rfl⟩
    · cases h

/-- What a dict becomes that is read as an encoded object. -/
theorem deserialize_tagged_cases {old : List (String × PyValue)} {classname : String}
    {version : Int} {value z : PyValue} (hview : dictView old = .tagged classname version value)
    (h : (deserialize registry true (.dict old)).result = .ok z) :
    (∃ id, z = .object id) ∨
    ∃ data, (deserialize registry true value).result = .ok data ∧
      builtinDeserialize classname version data = .ok z := by
  rw [deserialize_tagged hview] at h
  split at h
  · cases h
  · rw [if_neg (by simp)] at h
    split at h
    · cases h
    · exact load_cases h

/-! ## Deserialization -/

theorem elements_eq_ok {l col : List PyValue} : (elements registry l).result = .ok col ↔
    List.Forall₂ (fun v w => (deserialize registry true v).result = .ok w) l col := by
  rw [elements, Traced.sequence_result_ok, List.forall₂_map_left_iff]

theorem entries_eq_ok {full : Bool} {items items' : List (String × PyValue)} :
    (entries registry full items).result = .ok items' ↔
      List.Forall₂ (fun d e => e.1 = d.1 ∧ (deserialize registry full d.2).result = .ok e.2)
        items items' := by
  rw [entries, Traced.sequence_result_ok, List.forall₂_map_left_iff]
  have hentry : ∀ d e : String × PyValue,
      ((deserialize registry full d.2).map fun v => (d.1, v)).result = .ok e ↔
        e.1 = d.1 ∧ (deserialize registry full d.2).result = .ok e.2 := by
    intro d e
    rw [Traced.map_result_ok]
    constructor
    · rintro ⟨v, hv, rfl⟩
      exact ⟨rfl, hv⟩
    · rintro ⟨hk, hv⟩
      exact ⟨e.2, hv, by rw [← hk]⟩
  simp only [hentry]

/-- **Deserializing a value gives the value or a lighter one.** -/
theorem deserialize_shrinks (o : PyValue) :
    ∀ z, (deserialize registry true o).result = .ok z → z = o ∨ weight z < weight o := by
  let Shrinks (v : PyValue) : Prop :=
    ∀ z, (deserialize registry true v).result = .ok z → z = v ∨ weight z < weight v
  have hall : ∀ l : List PyValue, (∀ v ∈ l, Shrinks v) → ∀ col,
      (elements registry l).result = .ok col → col = l ∨ weightAll col < weightAll l := by
    intro l ih col hcol
    refine weightAll_of_forall₂ ?_
    exact ((List.forall₂_and_left _ _).mpr ⟨ih, elements_eq_ok.mp hcol⟩).imp fun v w h => h.1 w h.2
  have hitems : ∀ items : List (String × PyValue), (∀ e ∈ items, Shrinks e.2) → ∀ items',
      (entries registry true items).result = .ok items' →
      items' = items ∨ weightItems items' < weightItems items := by
    intro items ih items' h
    refine weightItems_of_forall₂ ?_
    refine ((List.forall₂_and_left _ _).mpr ⟨ih, entries_eq_ok.mp h⟩).imp fun d e h => ?_
    exact ⟨h.2.1, h.1 e.2 h.2.2⟩
  refine PyValue.induction (motive := Shrinks) ?_ o
  refine ⟨?atom, ?list, ?tuple, ?set, ?frozenset, ?dict⟩
  case atom =>
    intro v hv z hz
    rw [deserialize_atom hv] at hz
    cases hz
    exact .inl rfl
  case list =>
    intro l ih z hz
    rw [deserialize_list] at hz
    obtain ⟨col, hcol, rfl⟩ := Traced.map_result_ok.mp hz
    exact (hall l ih col hcol).imp (congrArg _) fun hlt => by simp only [weight]; omega
  case tuple =>
    intro l ih z hz
    rw [deserialize_tuple] at hz
    obtain ⟨col, hcol, rfl⟩ := Traced.map_result_ok.mp hz
    exact (hall l ih col hcol).imp (congrArg _) fun hlt => by simp only [weight]; omega
  case set =>
    intro l ih z hz
    rw [deserialize_set] at hz
    obtain ⟨col, hcol, hset⟩ := Traced.bind_result_ok.mp hz
    obtain ⟨-, rfl⟩ := toSet_eq_ok.mp hset
    simp only [weight, PyValue.set.injEq]
    rcases weightAll_sublist (distinct_sublist col) with hd | hd
    · rw [hd]
      exact (hall l ih col hcol).imp id fun hlt => by omega
    · rcases hall l ih col hcol with rfl | hlt <;> exact .inr (by omega)
  case frozenset =>
    intro l ih z hz
    rw [deserialize_frozenset] at hz
    obtain ⟨col, hcol, rfl⟩ := Traced.map_result_ok.mp hz
    refine .inr ?_
    simp only [weight]
    rcases hall l ih col hcol with rfl | hlt <;> omega
  case dict =>
    intro old ih z hz
    cases hview : dictView old with
    | notADict e => rw [deserialize_notADict hview] at hz; cases hz
    | undecodable => rw [deserialize_undecodable hview] at hz; cases hz
    | plain items =>
      rw [deserialize_plain hview] at hz
      obtain ⟨items', hitems', rfl⟩ := Traced.map_result_ok.mp hz
      have hle := hitems items (fun e he => ih e.2 (.inr (.inl ⟨items, hview, e, he, rfl⟩)))
        items' hitems'
      simp only [weight, PyValue.dict.injEq]
      rcases dictView_plain_weight hview with rfl | hlt
      · exact hle.imp id fun hlt => by omega
      · rcases hle with rfl | hle <;> exact .inr (by omega)
    | tagged classname version value =>
      refine .inr ?_
      have hlt := dictView_tagged_weight hview
      rcases deserialize_tagged_cases hview hz with ⟨id, rfl⟩ | ⟨data, hdata, hbuiltin⟩
      · show 0 < weight (.dict old)
        omega
      · have hdata' : weight data ≤ weight value := by
          rcases ih value (.inr (.inr ⟨classname, version, value, hview, .inl rfl⟩)) data hdata with
            rfl | hlt' <;> omega
        obtain ⟨l, l', hl, hsub, hz⟩ := builtinDeserialize_cases hbuiltin
        have hle := weightAll_iterate hl
        have hz' : weight z = 2 + weightAll l' := by
          rcases hz with rfl | rfl | rfl <;> rw [weight]
        rcases weightAll_sublist hsub with rfl | hlt' <;> omega

theorem elements_shrinks {l col : List PyValue} (h : (elements registry l).result = .ok col) :
    col = l ∨ weightAll col < weightAll l :=
  weightAll_of_forall₂ ((elements_eq_ok.mp h).imp fun v w hw => deserialize_shrinks v w hw)

end

/-! ## What is left as it is -/

/-- A dict that is not read as something else. -/
def plain (items : List (String × PyValue)) : Bool :=
  !(hasKey items CLASSNAME && hasKey items VERSION) &&
    !(hasKey items OLD_TYPE && hasKey items OLD_DATA)

namespace PyValue

/-- Deserialization leaves the value as it is: it has no frozenset and only plain dicts. -/
def Stable : PyValue → Prop
  | .list l | .tuple l | .set l => ∀ v ∈ l, Stable v
  | .frozenset _ => False
  | .dict items => plain items ∧ ∀ e ∈ items, Stable e.2
  | _ => True
termination_by v => sizeOf v
decreasing_by
  · exact sizeOf_lt_list ‹_›
  · exact sizeOf_lt_tuple ‹_›
  · exact sizeOf_lt_set ‹_›
  · exact sizeOf_lt_dict ‹_›

/-- A value as Python can build it from `None`, booleans, integers, strings and collections. -/
def WellFormed : PyValue → Prop
  | .list l | .tuple l => ∀ v ∈ l, WellFormed v
  | .set l | .frozenset l =>
    (hashableAll l ∧ l.Pairwise fun v w => pyEq v w = false) ∧ ∀ v ∈ l, WellFormed v
  | .dict items => (items.map Prod.fst).Nodup ∧ ∀ e ∈ items, WellFormed e.2
  | .float _ | .object _ => False
  | _ => True
termination_by v => sizeOf v
decreasing_by
  · exact sizeOf_lt_list ‹_›
  · exact sizeOf_lt_tuple ‹_›
  · exact sizeOf_lt_set ‹_›
  · exact sizeOf_lt_frozenset ‹_›
  · exact sizeOf_lt_dict ‹_›

theorem distinct_of_pairwise {l : List PyValue} (h : l.Pairwise fun v w => pyEq v w = false) :
    distinct l = l := by
  induction h with
  | nil => rfl
  | cons hv _ ih =>
    rw [distinct, ih, List.filter_eq_self.mpr]
    intro w hw
    rw [hv w hw]
    rfl

/-- A set of distinct hashable elements is what `set` makes of them. -/
theorem toSet_of_pairwise {wrap : List PyValue → PyValue} {l : List PyValue}
    (h : hashableAll l ∧ l.Pairwise fun v w => pyEq v w = false) : toSet wrap l = .ok (wrap l) :=
  toSet_eq_ok.mpr ⟨h.1, by rw [distinct_of_pairwise h.2]⟩

end PyValue

theorem hasKey_iff {α : Type} {items : List (String × α)} {k : String} :
    hasKey items k = true ↔ ∃ v, getKey items k = some v := by
  rw [hasKey, getKey, List.any_eq_true]
  constructor
  · rintro ⟨e, he, hk⟩
    have hsome : (items.find? (·.1 = k)).isSome := List.find?_isSome.mpr ⟨e, he, hk⟩
    obtain ⟨d, hd⟩ := Option.isSome_iff_exists.mp hsome
    exact ⟨d.2, by rw [hd]; rfl⟩
  · rintro ⟨v, hv⟩
    obtain ⟨e, he, -⟩ := Option.map_eq_some_iff.mp hv
    have hk := List.find?_some he
    exact ⟨e, List.mem_of_find?_eq_some he, hk⟩

theorem dictView_of_plain {items : List (String × PyValue)} (h : plain items = true) :
    dictView items = .plain items := by
  simp only [plain, Bool.and_eq_true, Bool.not_eq_true', Bool.and_eq_false_iff] at h
  have hconvert : convert items = .dict items := by
    rcases convert_cases items with hc | ⟨type, data, htype, hdata, -⟩
    · exact hc
    · have h1 := hasKey_iff.mpr ⟨type, htype⟩
      have h2 := hasKey_iff.mpr ⟨data, hdata⟩
      rcases h.2 with h' | h'
      · rw [h1] at h'; cases h'
      · rw [h2] at h'; cases h'
  rw [dictView, hconvert]
  rcases h.1 with h' | h' <;> simp [h']

theorem plain_of_dictView {items : List (String × PyValue)} (h : dictView items = .plain items) :
    plain items = true := by
  have hconvert : convert items = .dict items ∧
      (hasKey items CLASSNAME && hasKey items VERSION) = false := by
    unfold dictView at h
    split at h
    · next o ho =>
      split at h
      · exact absurd h (decode_not_plain o items)
      · next htag =>
        cases h
        exact ⟨ho, by simpa using htag⟩
    · cases h
  have hold : (hasKey items OLD_TYPE && hasKey items OLD_DATA) = false := by
    refine Bool.eq_false_iff.mpr fun hboth => ?_
    rw [Bool.and_eq_true] at hboth
    obtain ⟨type, htype⟩ := hasKey_iff.mp hboth.1
    obtain ⟨data, hdata⟩ := hasKey_iff.mp hboth.2
    have hc := hconvert.1
    simp only [convert, htype, hdata] at hc
    split at hc
    · -- a dict is no value of its own
      have hlt := sizeOf_getKey hdata
      rw [hc, PyValue.dict.sizeOf_spec] at hlt
      omega
    · cases hc
      exact absurd hconvert.2 (by simp [hasKey])
  rw [plain, hconvert.2, hold]
  rfl

section
variable {registry : Registry}

theorem elements_stable {l : List PyValue} (hwf : ∀ v ∈ l, v.WellFormed)
    (h : ∀ v ∈ l, v.Stable)
    (ih : ∀ v ∈ l, v.WellFormed → v.Stable → (deserialize registry true v).result = .ok v) :
    (elements registry l).result = .ok l :=
  elements_eq_ok.mpr <| List.forall₂_same.mpr fun v hv => ih v hv (hwf v hv) (h v hv)

theorem deserialize_stable (o : PyValue) : o.WellFormed → o.Stable →
    (deserialize registry true o).result = .ok o := by
  refine PyValue.induction (motive := fun o => o.WellFormed → o.Stable →
    (deserialize registry true o).result = .ok o) ?_ o
  refine ⟨?atom, ?list, ?tuple, ?set, ?frozenset, ?dict⟩
  case atom =>
    intro v hv _ _
    rw [deserialize_atom hv]
    rfl
  case list =>
    intro l ih hwf h
    rw [WellFormed] at hwf
    rw [Stable] at h
    rw [deserialize_list]
    exact Traced.map_result_ok.mpr ⟨l, elements_stable hwf h ih, rfl⟩
  case tuple =>
    intro l ih hwf h
    rw [WellFormed] at hwf
    rw [Stable] at h
    rw [deserialize_tuple]
    exact Traced.map_result_ok.mpr ⟨l, elements_stable hwf h ih, rfl⟩
  case set =>
    intro l ih hwf h
    rw [WellFormed] at hwf
    rw [Stable] at h
    rw [deserialize_set]
    exact Traced.bind_result_ok.mpr ⟨l, elements_stable hwf.2 h ih, toSet_of_pairwise hwf.1⟩
  case frozenset =>
    intro l _ _ h
    rw [Stable] at h
    cases h
  case dict =>
    intro items ih hwf h
    rw [WellFormed] at hwf
    rw [Stable] at h
    rw [deserialize_plain (dictView_of_plain h.1)]
    refine Traced.map_result_ok.mpr ⟨items, entries_eq_ok.mpr ?_, rfl⟩
    exact List.forall₂_same.mpr fun e he =>
      ⟨rfl, ih e.2 (.inl ⟨e, he, rfl⟩) (hwf.2 e he) (h.2 e he)⟩

theorem forall_of_elements {l : List PyValue} (h : (elements registry l).result = .ok l)
    {p : PyValue → Prop} (ih : ∀ v ∈ l, (deserialize registry true v).result = .ok v → p v) :
    ∀ v ∈ l, p v := fun v hv =>
  ih v hv (List.forall₂_same.mp (elements_eq_ok.mp h) v hv)

theorem stable_of_deserialize (o : PyValue) :
    (deserialize registry true o).result = .ok o → o.Stable := by
  refine PyValue.induction (motive := fun o =>
    (deserialize registry true o).result = .ok o → o.Stable) ?_ o
  refine ⟨?atom, ?list, ?tuple, ?set, ?frozenset, ?dict⟩
  case atom =>
    intro v hv _
    cases v <;> simp [isAtom] at hv <;> simp [Stable]
  case list =>
    intro l ih h
    rw [deserialize_list] at h
    obtain ⟨col, hcol, heq⟩ := Traced.map_result_ok.mp h
    cases heq
    rw [Stable]
    exact forall_of_elements hcol ih
  case tuple =>
    intro l ih h
    rw [deserialize_tuple] at h
    obtain ⟨col, hcol, heq⟩ := Traced.map_result_ok.mp h
    cases heq
    rw [Stable]
    exact forall_of_elements hcol ih
  case set =>
    intro l ih h
    rw [deserialize_set] at h
    obtain ⟨col, hcol, hset⟩ := Traced.bind_result_ok.mp h
    obtain ⟨-, heq⟩ := toSet_eq_ok.mp hset
    -- as many elements as before, so that none was dropped as equal to another
    have hl : l = distinct col := PyValue.set.inj heq
    have hlen : (distinct col).length = col.length := hl ▸ (elements_eq_ok.mp hcol).length_eq
    have hdistinct := (distinct_sublist col).eq_of_length hlen
    rw [hl.trans hdistinct] at ih hcol ⊢
    rw [Stable]
    exact forall_of_elements hcol ih
  case frozenset =>
    intro l _ h
    rw [deserialize_frozenset] at h
    obtain ⟨col, -, heq⟩ := Traced.map_result_ok.mp h
    cases heq
  case dict =>
    intro old ih h
    cases hview : dictView old with
    | notADict e => rw [deserialize_notADict hview] at h; cases h
    | undecodable => rw [deserialize_undecodable hview] at h; cases h
    | tagged classname version value =>
      rcases deserialize_tagged_cases hview h with ⟨id, hid⟩ | ⟨data, -, hbuiltin⟩
      · cases hid
      · obtain ⟨l, l', -, -, hz | hz | hz⟩ := builtinDeserialize_cases hbuiltin <;> cases hz
    | plain items =>
      rw [deserialize_plain hview] at h
      obtain ⟨items', hitems', heq⟩ := Traced.map_result_ok.mp h
      cases heq
      have hentries := entries_eq_ok.mp hitems'
      have hle := weightItems_of_forall₂
        (hentries.imp fun d e h => ⟨h.1, deserialize_shrinks d.2 e.2 h.2⟩)
      rcases dictView_plain_weight hview with rfl | hlt
      · rw [Stable]
        exact ⟨plain_of_dictView hview, fun e he =>
          ih e.2 (.inl ⟨e, he, rfl⟩) (List.forall₂_same.mp hentries e he).2⟩
      · rcases hle with rfl | hle <;> omega

end

end Airflow.Serde
