import Airflow.Serialization.Params
import Airflow.Serialization.Proof.Shrink

/-!
# Which params survive serialization

`deserialize` is an inverse of `serialize` on values of built-in types (`deserialize_serialize`).
`_deserialize_param` calls it for a list only if every item looks encoded, and otherwise keeps what
was stored, which is larger than the list was unless the list is plain (`lt_size_serialize`).
-/

namespace Airflow.Params

open Serde

variable {other : PyValue → PyValue} {v w : PyValue} {l : List PyValue}
  {items : List (String × PyValue)}

/-! ## `sorted` -/

theorem eq_map_str_of_strings {ss : List String} (h : strings l = some ss) : l = ss.map .str := by
  induction l generalizing ss with
  | nil =>
    obtain rfl : [] = ss := Option.some.inj h
    rfl
  | cons v l ih =>
    rw [strings, List.mapM_cons] at h
    cases v with
    | str s =>
      cases htail : l.mapM text with
      | none =>
        rw [htail] at h
        cases h
      | some tail =>
        rw [htail] at h
        obtain rfl := Option.some.inj h
        rw [ih htail]
        rfl
    | _ => cases h

theorem sortedOrAsIs_perm (l : List PyValue) : (sortedOrAsIs l).Perm l := by
  unfold sortedOrAsIs
  split
  · exact List.mergeSort_perm l _
  · split
    · rename_i ss hss
      rw [eq_map_str_of_strings hss]
      exact (List.mergeSort_perm ss _).map _
    · exact List.Perm.refl l

/-! ## Lists of values -/

theorem basicAll_iff : BasicAll l ↔ ∀ v ∈ l, Basic v := by
  induction l with
  | nil => simp [BasicAll]
  | cons v l ih => simp [BasicAll, ih]

theorem plainAll_iff : PlainAll l ↔ ∀ v ∈ l, Plain v := by
  induction l with
  | nil => simp [PlainAll]
  | cons v l ih => simp [PlainAll, ih]

theorem hashableAll_iff : PyValue.hashableAll l = true ↔ ∀ v ∈ l, v.hashable = true := by
  induction l with
  | nil => simp [PyValue.hashableAll]
  | cons v l ih => simp [PyValue.hashableAll, ih]

theorem deserializeAll_cons {v' : PyValue} {l' : List PyValue} (hv : deserialize v = .ok v')
    (hl : deserializeAll l = .ok l') : deserializeAll (v :: l) = .ok (v' :: l') := by
  rw [deserializeAll, hv, hl]
  rfl

theorem of_deserializeAll_cons {l' : List PyValue} (h : deserializeAll (v :: l) = .ok l') :
    ∃ v' tail, deserialize v = .ok v' ∧ deserializeAll l = .ok tail ∧ l' = v' :: tail := by
  rw [deserializeAll] at h
  cases hv : deserialize v with
  | error e =>
    rw [hv] at h
    cases h
  | ok v' =>
    cases htail : deserializeAll l with
    | error e =>
      rw [hv, htail] at h
      cases h
    | ok tail =>
      rw [hv, htail] at h
      exact ⟨v', tail, rfl, rfl, (Except.ok.inj h).symm⟩

/-- Stored in another order, the values come back in another order. -/
theorem deserializeAll_perm {a b l' : List PyValue} (hperm : a.Perm b)
    (h : deserializeAll a = .ok l') : ∃ l'', deserializeAll b = .ok l'' ∧ l''.Perm l' := by
  induction hperm generalizing l' with
  | nil => exact ⟨l', h, .refl l'⟩
  | cons v _ ih =>
    obtain ⟨v', tail, hv, htail, rfl⟩ := of_deserializeAll_cons h
    obtain ⟨tail', htail', hperm'⟩ := ih htail
    exact ⟨v' :: tail', deserializeAll_cons hv htail', hperm'.cons v'⟩
  | swap v w a =>
    obtain ⟨w', rest, hw, hrest, rfl⟩ := of_deserializeAll_cons h
    obtain ⟨v', tail, hv, htail, rfl⟩ := of_deserializeAll_cons hrest
    exact ⟨v' :: w' :: tail, deserializeAll_cons hv (deserializeAll_cons hw htail),
      .swap w' v' tail⟩
  | trans _ _ ih ih' =>
    obtain ⟨b', hb, hperm⟩ := ih h
    obtain ⟨c', hc, hperm'⟩ := ih' hb
    exact ⟨c', hc, hperm'.trans hperm⟩

/-! ## Sets -/

mutual

/-- `==` of values of built-in types is symmetric. -/
theorem pyEq_comm : ∀ v w : PyValue, Basic v → Basic w → PyValue.pyEq v w = PyValue.pyEq w v
  | .tuple a, .tuple b, ha, hb => by
    simp only [PyValue.pyEq]
    exact pyEqAll_comm a b ha hb
  | .none, w, _, _ => by cases w <;> simp [PyValue.pyEq, PyValue.number]
  | .bool a, w, _, _ => by cases w <;> simp [PyValue.pyEq, PyValue.number, eq_comm]
  | .int a, w, _, _ => by cases w <;> simp [PyValue.pyEq, PyValue.number, eq_comm]
  | .str a, w, _, _ => by cases w <;> simp [PyValue.pyEq, PyValue.number, eq_comm]
  | .list a, w, _, _ => by cases w <;> simp [PyValue.pyEq, PyValue.number]
  | .set a, w, _, _ => by cases w <;> simp [PyValue.pyEq, PyValue.number]
  | .dict a, w, _, _ => by cases w <;> simp [PyValue.pyEq, PyValue.number]
  | .tuple a, .none, _, _ | .tuple a, .bool _, _, _ | .tuple a, .int _, _, _
  | .tuple a, .str _, _, _ | .tuple a, .list _, _, _ | .tuple a, .set _, _, _
  | .tuple a, .dict _, _, _ => by simp [PyValue.pyEq, PyValue.number]

theorem pyEqAll_comm : ∀ a b : List PyValue, BasicAll a → BasicAll b →
    PyValue.pyEqAll a b = PyValue.pyEqAll b a
  | [], [], _, _ => rfl
  | [], _ :: _, _, _ => rfl
  | _ :: _, [], _, _ => rfl
  | v :: a, w :: b, ha, hb => by
    simp only [PyValue.pyEqAll]
    rw [pyEq_comm v w ha.1 hb.1, pyEqAll_comm a b ha.2 hb.2]

end

/-- The elements of a set are those of a set in any order. -/
theorem basic_set_of_perm {l' : List PyValue} (h : Basic (.set l)) (hperm : l'.Perm l) :
    Basic (.set l') := by
  obtain ⟨hhash, hpairwise, hbasic⟩ := h
  rw [basicAll_iff] at hbasic
  have hboth : l.Pairwise fun v w => PyValue.pyEq v w = false ∧ PyValue.pyEq w v = false := by
    refine hpairwise.imp_of_mem fun hv hw hne => ⟨hne, ?_⟩
    rwa [pyEq_comm _ _ (hbasic _ hw) (hbasic _ hv)]
  have hboth' := (hperm.pairwise_iff fun {v w} hvw => ⟨hvw.2, hvw.1⟩).mpr hboth
  refine ⟨hashableAll_iff.mpr fun v hv => ?_, hboth'.imp fun hvw => hvw.1, ?_⟩
  · exact hashableAll_iff.mp hhash v (hperm.mem_iff.mp hv)
  · exact basicAll_iff.mpr fun v hv => hbasic v (hperm.mem_iff.mp hv)

/-- The elements of a set, in another order, make a set again. -/
theorem toSet_of_perm {l' : List PyValue} (h : Basic (.set l)) (hperm : l'.Perm l) :
    toSet l' = .ok (.set l') := by
  obtain ⟨hhash, hpairwise, -⟩ := basic_set_of_perm h hperm
  rw [toSet, PyValue.toSet_of_pairwise ⟨hhash, hpairwise⟩]

/-! ## The round trip -/

theorem deserialize_encode_list {type_ : String} (l : List PyValue) :
    deserialize (encode (.list l) type_) = decode type_ (.list l) := rfl

theorem deserialize_encode_dict (items : List (String × PyValue)) :
    deserialize (encode (.dict items) "dict") = .dict <$> deserializeItems items := rfl

mutual

/-- A hashable value comes back as it was. -/
theorem deserialize_serialize_hashable : ∀ v : PyValue, Basic v → v.hashable = true →
    deserialize (serialize other v) = .ok v
  | .tuple l, hbasic, hhash => by
    rw [serialize, deserialize_encode_list, decode, if_neg (by decide), if_pos rfl,
      deserializeAll_serializeAll_hashable l hbasic hhash]
    rfl
  | .none, _, _ | .bool _, _, _ | .int _, _, _ | .str _, _, _ => rfl

theorem deserializeAll_serializeAll_hashable : ∀ l : List PyValue, BasicAll l →
    PyValue.hashableAll l = true → deserializeAll (serializeAll other l) = .ok l
  | [], _, _ => rfl
  | v :: l, hbasic, hhash => by
    simp only [PyValue.hashableAll, Bool.and_eq_true] at hhash
    exact deserializeAll_cons (deserialize_serialize_hashable v hbasic.1 hhash.1)
      (deserializeAll_serializeAll_hashable l hbasic.2 hhash.2)

end

mutual

/-- **`deserialize` is an inverse of `serialize`.** -/
theorem deserialize_serialize : ∀ v : PyValue, Basic v →
    ∃ v', deserialize (serialize other v) = .ok v' ∧ Same v' v
  | .none, _ => ⟨_, rfl, trivial⟩
  | .bool b, _ => ⟨_, rfl, rfl⟩
  | .int i, _ => ⟨_, rfl, rfl⟩
  | .str s, _ => ⟨_, rfl, rfl⟩
  | .list l, hbasic => by
    obtain ⟨l', hl', hsame⟩ := deserializeAll_serializeAll l hbasic
    refine ⟨.list l', ?_, hsame⟩
    rw [serialize, deserialize, hl']
    rfl
  | .tuple l, hbasic => by
    obtain ⟨l', hl', hsame⟩ := deserializeAll_serializeAll l hbasic
    refine ⟨.tuple l', ?_, hsame⟩
    rw [serialize, deserialize_encode_list, decode, if_neg (by decide), if_pos rfl, hl']
    rfl
  | .set l, hbasic => by
    have hexact := @deserializeAll_serializeAll_hashable other l hbasic.2.2 hbasic.1
    obtain ⟨l', hl', hperm⟩ := deserializeAll_perm (sortedOrAsIs_perm _).symm hexact
    refine ⟨.set l', ?_, hperm⟩
    rw [serialize, deserialize_encode_list, decode, if_pos rfl, hl']
    exact toSet_of_perm hbasic hperm
  | .dict items, hbasic => by
    obtain ⟨items', hitems', hsame⟩ := deserializeItems_serializeItems items hbasic.2
    refine ⟨.dict items', ?_, hsame⟩
    rw [serialize, deserialize_encode_dict, hitems']
    rfl

theorem deserializeAll_serializeAll : ∀ l : List PyValue, BasicAll l →
    ∃ l', deserializeAll (serializeAll other l) = .ok l' ∧ SameAll l' l
  | [], _ => ⟨[], rfl, trivial⟩
  | v :: l, hbasic => by
    obtain ⟨v', hv', hsame⟩ := deserialize_serialize v hbasic.1
    obtain ⟨l', hl', hsames⟩ := deserializeAll_serializeAll l hbasic.2
    exact ⟨v' :: l', deserializeAll_cons hv' hl', hsame, hsames⟩

theorem deserializeItems_serializeItems : ∀ items : List (String × PyValue), BasicItems items →
    ∃ items', deserializeItems (serializeItems other items) = .ok items' ∧ SameItems items' items
  | [], _ => ⟨[], rfl, trivial⟩
  | (k, v) :: items, hbasic => by
    obtain ⟨v', hv', hsame⟩ := deserialize_serialize v hbasic.1
    obtain ⟨items', hitems', hsames⟩ := deserializeItems_serializeItems items hbasic.2
    refine ⟨(k, v') :: items', ?_, rfl, hsame, hsames⟩
    rw [serializeItems, deserializeItems, hv', hitems']
    rfl

end

/-! ## What is kept as it was stored -/

mutual

/-- The number of values in a value. -/
def size : PyValue → Nat
  | .list l | .tuple l | .set l => 1 + sizeAll l
  | .dict items => 1 + sizeItems items
  | _ => 1

def sizeAll : List PyValue → Nat
  | [] => 0
  | v :: l => size v + sizeAll l

def sizeItems : List (String × PyValue) → Nat
  | [] => 0
  | (_, v) :: items => size v + sizeItems items

end

theorem sizeAll_perm {a b : List PyValue} (h : a.Perm b) : sizeAll a = sizeAll b := by
  induction h with
  | nil => rfl
  | cons v _ ih => rw [sizeAll, sizeAll, ih]
  | swap v w a =>
    simp only [sizeAll]
    omega
  | trans _ _ ih ih' => exact ih.trans ih'

mutual

theorem size_eq_of_same : ∀ v w : PyValue, Same v w → size v = size w
  | .list a, .list b, h => by rw [size, size, sizeAll_eq_of_same a b h]
  | .tuple a, .tuple b, h => by rw [size, size, sizeAll_eq_of_same a b h]
  | .set a, .set b, h => by rw [size, size, sizeAll_perm h]
  | .dict a, .dict b, h => by rw [size, size, sizeItems_eq_of_same a b h]
  | .none, .none, _ | .bool _, .bool _, _ | .int _, .int _, _ | .str _, .str _, _ => rfl

theorem sizeAll_eq_of_same : ∀ a b : List PyValue, SameAll a b → sizeAll a = sizeAll b
  | [], [], _ => rfl
  | v :: a, w :: b, h => by
    rw [sizeAll, sizeAll, size_eq_of_same v w h.1, sizeAll_eq_of_same a b h.2]

theorem sizeItems_eq_of_same : ∀ a b : List (String × PyValue), SameItems a b →
    sizeItems a = sizeItems b
  | [], [], _ => rfl
  | (_, v) :: a, (_, w) :: b, h => by
    rw [sizeItems, sizeItems, size_eq_of_same v w h.2.1, sizeItems_eq_of_same a b h.2.2]

end

theorem size_encode (x : PyValue) (type_ : String) : size (encode x type_) = size x + 2 := by
  simp only [encode, size, sizeItems]
  omega

mutual

theorem size_le_serialize : ∀ v : PyValue, Basic v → size v ≤ size (serialize other v)
  | .list l, h => by
    rw [serialize, size, size]
    exact Nat.add_le_add_left (sizeAll_le_serializeAll l h) 1
  | .tuple l, h => by
    have := sizeAll_le_serializeAll l h
    rw [serialize, size_encode, size, size]
    omega
  | .set l, h => by
    have := sizeAll_le_serializeAll l h.2.2
    rw [serialize, size_encode, size, size, sizeAll_perm (sortedOrAsIs_perm _)]
    omega
  | .dict items, h => by
    have := sizeItems_le_serializeItems items h.2
    rw [serialize, size_encode, size, size]
    omega
  | .none, _ | .bool _, _ | .int _, _ | .str _, _ => Nat.le_refl _

theorem sizeAll_le_serializeAll : ∀ l : List PyValue, BasicAll l →
    sizeAll l ≤ sizeAll (serializeAll other l)
  | [], _ => Nat.le_refl _
  | v :: l, h => Nat.add_le_add (size_le_serialize v h.1) (sizeAll_le_serializeAll l h.2)

theorem sizeItems_le_serializeItems : ∀ items : List (String × PyValue), BasicItems items →
    sizeItems items ≤ sizeItems (serializeItems other items)
  | [], _ => Nat.le_refl _
  | (_, v) :: items, h =>
    Nat.add_le_add (size_le_serialize v h.1) (sizeItems_le_serializeItems items h.2)

end

mutual

/-- What is stored for a value that is not plain is larger than the value. -/
theorem lt_size_serialize : ∀ v : PyValue, Basic v → ¬Plain v →
    size v < size (serialize other v)
  | .list l, h, hplain => by
    rw [serialize, size, size]
    exact Nat.add_lt_add_left (lt_sizeAll_serializeAll l h hplain) 1
  | .tuple l, h, _ => by
    have := @sizeAll_le_serializeAll other l h
    rw [serialize, size_encode, size, size]
    omega
  | .set l, h, _ => by
    have := @sizeAll_le_serializeAll other l h.2.2
    rw [serialize, size_encode, size, size, sizeAll_perm (sortedOrAsIs_perm _)]
    omega
  | .dict items, h, _ => by
    have := @sizeItems_le_serializeItems other items h.2
    rw [serialize, size_encode, size, size]
    omega
  | .none, _, hplain | .bool _, _, hplain | .int _, _, hplain | .str _, _, hplain =>
    absurd trivial hplain

theorem lt_sizeAll_serializeAll : ∀ l : List PyValue, BasicAll l → ¬PlainAll l →
    sizeAll l < sizeAll (serializeAll other l)
  | [], _, hplain => absurd trivial hplain
  | v :: l, h, hplain => by
    by_cases hv : Plain v
    · have hrest := lt_sizeAll_serializeAll l h.2 fun hl => hplain ⟨hv, hl⟩
      exact Nat.add_lt_add_of_le_of_lt (size_le_serialize v h.1) hrest
    · exact Nat.add_lt_add_of_lt_of_le (lt_size_serialize v h.1 hv) (sizeAll_le_serializeAll l h.2)

end

mutual

theorem serialize_of_plain : ∀ v : PyValue, Basic v → Plain v → serialize other v = v
  | .list l, h, hplain => by rw [serialize, serializeAll_of_plain l h hplain]
  | .none, _, _ | .bool _, _, _ | .int _, _, _ | .str _, _, _ => rfl

theorem serializeAll_of_plain : ∀ l : List PyValue, BasicAll l → PlainAll l →
    serializeAll other l = l
  | [], _, _ => rfl
  | v :: l, h, hplain => by
    rw [serializeAll, serialize_of_plain v h.1 hplain.1, serializeAll_of_plain l h.2 hplain.2]

end

mutual

theorem same_refl : ∀ v : PyValue, Basic v → Same v v
  | .list l, h | .tuple l, h => sameAll_refl l h
  | .set l, _ => List.Perm.refl l
  | .dict items, h => sameItems_refl items h.2
  | .none, _ => trivial
  | .bool _, _ | .int _, _ | .str _, _ => rfl

theorem sameAll_refl : ∀ l : List PyValue, BasicAll l → SameAll l l
  | [], _ => trivial
  | v :: l, h => ⟨same_refl v h.1, sameAll_refl l h.2⟩

theorem sameItems_refl : ∀ items : List (String × PyValue), BasicItems items →
    SameItems items items
  | [], _ => trivial
  | (_, v) :: items, h => ⟨rfl, same_refl v h.1, sameItems_refl items h.2⟩

end

/-! ## `_deserialize_param` -/

theorem looksEncoded_serialize (h : Basic v) :
    looksEncoded (serialize other v) = true ↔ IsEncoded v := by
  cases v <;> first
    | exact h.elim
    | simp [serialize, looksEncoded, IsEncoded, encode, hasKey, TYPE, VAR]

theorem all_looksEncoded (h : BasicAll l) :
    (serializeAll other l).all looksEncoded = true ↔ ∀ v ∈ l, IsEncoded v := by
  induction l with
  | nil => simp [serializeAll]
  | cons v l ih =>
    rw [serializeAll, List.all_cons, Bool.and_eq_true, looksEncoded_serialize h.1, ih h.2,
      List.forall_mem_cons]

/-- **An attribute comes back with the same value exactly if it is restorable.** -/
theorem restore_serialize (h : Basic v) :
    ∃ v', restore (serialize other v) = .ok v' ∧ (Same v' v ↔ Restorable v) := by
  have hdecoded : isSerialized (serialize other v) = true → Restorable v →
      ∃ v', restore (serialize other v) = .ok v' ∧ (Same v' v ↔ Restorable v) := by
    intro hserialized hrestorable
    obtain ⟨v', hv', hsame⟩ := @deserialize_serialize other v h
    refine ⟨v', ?_, fun _ => hrestorable, fun _ => hsame⟩
    rw [restore, if_pos hserialized, hv']
  cases v with
  | list l =>
    by_cases hencoded : ∀ v ∈ l, IsEncoded v
    · exact hdecoded ((all_looksEncoded h).mpr hencoded) (.inl hencoded)
    · have hnot : ¬isSerialized (serialize other (.list l)) = true :=
        fun hall => hencoded ((all_looksEncoded h).mp hall)
      refine ⟨serialize other (.list l), by rw [restore, if_neg hnot], fun hsame => ?_, fun hr => ?_⟩
      · refine .inr (Classical.byContradiction fun hplain => ?_)
        have hlt := @lt_size_serialize other (.list l) h hplain
        rw [size_eq_of_same _ _ hsame] at hlt
        exact Nat.lt_irrefl _ hlt
      · have hplain := hr.resolve_left hencoded
        rw [@serialize_of_plain other (.list l) h hplain]
        exact same_refl _ h
  | dict items => exact hdecoded rfl trivial
  | tuple l => exact hdecoded rfl trivial
  | set l => exact hdecoded rfl trivial
  | none => exact ⟨_, rfl, fun _ => trivial, fun _ => trivial⟩
  | bool b => exact ⟨_, rfl, fun _ => trivial, fun _ => rfl⟩
  | int i => exact ⟨_, rfl, fun _ => trivial, fun _ => rfl⟩
  | str s => exact ⟨_, rfl, fun _ => trivial, fun _ => rfl⟩
  | float _ => exact h.elim
  | frozenset _ => exact h.elim
  | object _ => exact h.elim

/-- **A param survives serialization exactly if its value, its description and its schema are
restorable.** -/
theorem deserializeParam_iff (other : PyValue → PyValue) (param : Param) (hvalue : Basic param.value)
    (hdescription : Basic param.description) (hschema : Basic param.schema) :
    (∃ restored, deserializeParam (serializeParam other param) = .ok restored ∧
      Same restored.value param.value ∧ Same restored.description param.description ∧
      Same restored.schema param.schema) ↔
    Restorable param.value ∧ Restorable param.description ∧ Restorable param.schema := by
  obtain ⟨value, hv, hvsame⟩ := @restore_serialize other param.value hvalue
  obtain ⟨description, hd, hdsame⟩ := @restore_serialize other param.description hdescription
  obtain ⟨schema, hs, hssame⟩ := @restore_serialize other param.schema hschema
  have hrun : deserializeParam (serializeParam other param) = .ok ⟨value, description, schema⟩ := by
    simp only [deserializeParam, serializeParam, getKey, List.find?, kwargsOf, Option.map,
      decide_true, decide_false, reduceCtorEq, String.reduceEq, hv, hd, hs]
    rfl
  rw [← hvsame, ← hdsame, ← hssame]
  constructor
  · rintro ⟨restored, hrestored, hsame⟩
    rw [hrun] at hrestored
    obtain rfl := Except.ok.inj hrestored
    exact hsame
  · exact fun hsame => ⟨_, hrun, hsame⟩

theorem dictParam_survives :
    ∃ restored, deserializeParam (serializeParam id
        ⟨.dict [("a", .tuple [.int 1])], .none, .dict []⟩) = .ok restored ∧
      Same restored.value (.dict [("a", .tuple [.int 1])]) ∧ Same restored.description .none ∧
      Same restored.schema (.dict []) :=
  (deserializeParam_iff id ⟨.dict [("a", .tuple [.int 1])], .none, .dict []⟩
    ⟨by decide, ⟨trivial, trivial⟩, trivial⟩ trivial ⟨by decide, trivial⟩).mpr
    ⟨trivial, trivial, trivial⟩

/-- A list of a number and a tuple. -/
theorem mixedList_not_same :
    ¬∃ restored, deserializeParam (serializeParam id
        ⟨.list [.int 1, .tuple [.int 2]], .none, .dict []⟩) = .ok restored ∧
      Same restored.value (.list [.int 1, .tuple [.int 2]]) ∧ Same restored.description .none ∧
      Same restored.schema (.dict []) := by
  rintro ⟨restored, hrestored, hsame, -⟩
  cases hrestored
  exact hsame.2.1

end Airflow.Params
