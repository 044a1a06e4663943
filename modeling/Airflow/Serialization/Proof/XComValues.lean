import Airflow.Serialization.Proof.RoundTrip

/-!
# Which XCom values round-trip

`RoundTrips` says that the encoder raises on a value or the decoder gives it back. It holds if and
only if the value is rejected, because of a reserved key or its depth, or faithful
(`xcom_roundTrips`).
-/

namespace Airflow.Serde

open PyValue

/-! ## What the encoder raises on -/

namespace PyValue

/-- How many levels deep `serialize` goes. -/
def height : PyValue → Nat
  | .list l => 1 + (l.map height).foldr max 0
  | .tuple l | .set l | .frozenset l => 2 + (l.map height).foldr max 0
  | .dict items => 1 + (items.map fun e => height e.2).foldr max 0
  | _ => 1
termination_by v => sizeOf v
decreasing_by
  · exact sizeOf_lt_list ‹_›
  · exact sizeOf_lt_tuple ‹_›
  · exact sizeOf_lt_set ‹_›
  · exact sizeOf_lt_frozenset ‹_›
  · exact sizeOf_lt_dict ‹_›

/-- No dict in the value has a reserved key. -/
def Unreserved : PyValue → Prop
  | .list l | .tuple l | .set l | .frozenset l => ∀ v ∈ l, Unreserved v
  | .dict items =>
    (hasKey items CLASSNAME || hasKey items SCHEMA_ID) = false ∧ ∀ e ∈ items, Unreserved e.2
  | _ => True
termination_by v => sizeOf v
decreasing_by
  · exact sizeOf_lt_list ‹_›
  · exact sizeOf_lt_tuple ‹_›
  · exact sizeOf_lt_set ‹_›
  · exact sizeOf_lt_frozenset ‹_›
  · exact sizeOf_lt_dict ‹_›

/-- `serialize` accepts the value. -/
def Accepted (limit : Nat) (v : PyValue) : Prop := v.Unreserved ∧ v.height ≤ limit

/-- `serialize` accepts the sets among what the `json` module writes. -/
def AcceptedInside (limit : Nat) : PyValue → Prop
  | .list l | .tuple l => ∀ v ∈ l, AcceptedInside limit v
  | .set l => Accepted limit (.set l)
  | .frozenset l => Accepted limit (.frozenset l)
  | .dict items => ∀ e ∈ items, AcceptedInside limit e.2
  | _ => True
termination_by v => sizeOf v
decreasing_by
  · exact sizeOf_lt_list ‹_›
  · exact sizeOf_lt_tuple ‹_›
  · exact sizeOf_lt_dict ‹_›

end PyValue

theorem foldr_max_le {α : Type} {f : α → Nat} {l : List α} {n : Nat} :
    (l.map f).foldr max 0 ≤ n ↔ ∀ a ∈ l, f a ≤ n := by
  induction l with
  | nil => simp
  | cons a l ih =>
    rw [List.map_cons, List.foldr_cons, List.forall_mem_cons, ← ih]
    exact Nat.max_le

section
variable {registry : Registry}

theorem isOk_map {α β : Type} {r : Except PyError α} {f : α → β} :
    (∃ b, r.map f = .ok b) ↔ ∃ a, r = .ok a := by
  cases r <;> simp [Except.map]

/-- **`serialize` accepts what has no reserved key and is not too deep.** -/
theorem serialize_isOk (v : PyValue) : v.WellFormed → ∀ n,
    (∃ j, serialize registry n v = .ok j) ↔ v.Accepted n := by
  let Decides (v : PyValue) : Prop := v.WellFormed → ∀ n,
    (∃ j, serialize registry n v = .ok j) ↔ v.Accepted n
  have hzero : ∀ v : PyValue, 1 ≤ v.height →
      ((∃ j, serialize registry 0 v = .ok j) ↔ v.Accepted 0) := by
    intro v hv
    simp only [serialize, Accepted]
    constructor
    · rintro ⟨j, hj⟩
      cases hj
    · rintro ⟨-, hle⟩
      omega
  have hmap : ∀ {l : List PyValue}, (∀ v ∈ l, Decides v) → (∀ v ∈ l, v.WellFormed) → ∀ n,
      (∃ js, l.mapM (serialize registry n) = .ok js) ↔
        (∀ v ∈ l, v.Unreserved) ∧ (l.map height).foldr max 0 ≤ n := by
    intro l ih hwf n
    rw [Traced.exists_mapM_eq_ok, foldr_max_le, ← forall₂_and]
    exact forall₂_congr fun v hv => ih v hv (hwf v hv) n
  -- a tuple or a set is written as the list of its elements, one level deeper
  have hwrap : ∀ (wrap : List PyValue → PyValue) {classname : String} {l : List PyValue},
      (∀ v ∈ l, Decides v) → (∀ v ∈ l, v.WellFormed) →
      (∀ n, serialize registry (n + 1) (wrap l) =
        (serialize registry n (.list l)).map (encode classname builtinVersion)) →
      (wrap l).height = 2 + (l.map height).foldr max 0 →
      ((wrap l).Unreserved ↔ ∀ v ∈ l, v.Unreserved) →
      ∀ n, (∃ j, serialize registry n (wrap l) = .ok j) ↔ (wrap l).Accepted n := by
    intro wrap classname l ih hwf hser hheight hunres n
    rcases n with _ | _ | n
    · exact hzero _ (by omega)
    · rw [hser, isOk_map, Accepted, hheight]
      simp only [serialize]
      constructor
      · rintro ⟨j, hj⟩
        cases hj
      · rintro ⟨-, hle⟩
        omega
    · rw [hser, isOk_map, serialize, isOk_map, hmap ih hwf, Accepted, hheight, hunres]
      exact and_congr_right fun _ => by omega
  refine PyValue.induction (motive := Decides) ?_ v
  refine ⟨?atom, ?list, ?tuple, ?set, ?frozenset, ?dict⟩
  case atom =>
    intro v hv hwf n
    have hacc : v.Unreserved ∧ v.height = 1 := by
      cases v <;> simp [isAtom] at hv <;> simp [Unreserved, height]
    cases n with
    | zero => exact hzero v (by omega)
    | succ n =>
      rw [Accepted, hacc.2]
      refine iff_of_true ?_ ⟨hacc.1, by omega⟩
      cases v <;> simp [isAtom] at hv <;> simp [WellFormed] at hwf <;> exact ⟨_, rfl⟩
  case list =>
    intro l ih hwf n
    rw [WellFormed] at hwf
    cases n with
    | zero => exact hzero _ (by rw [height]; omega)
    | succ n =>
      rw [serialize, isOk_map, hmap ih hwf, Accepted, height, Unreserved]
      exact and_congr_right fun _ => by omega
  case tuple =>
    intro l ih hwf n
    rw [WellFormed] at hwf
    exact hwrap .tuple ih hwf (fun n => by rw [serialize]) (by rw [height])
      (by rw [Unreserved]) n
  case set =>
    intro l ih hwf n
    rw [WellFormed] at hwf
    exact hwrap .set ih hwf.2 (fun n => by rw [serialize]) (by rw [height])
      (by rw [Unreserved]) n
  case frozenset =>
    intro l ih hwf n
    rw [WellFormed] at hwf
    exact hwrap .frozenset ih hwf.2 (fun n => by rw [serialize]) (by rw [height])
      (by rw [Unreserved]) n
  case dict =>
    intro items ih hwf n
    rw [WellFormed] at hwf
    cases n with
    | zero => exact hzero _ (by rw [height]; omega)
    | succ n =>
      rw [serialize, Accepted, height, Unreserved]
      cases hasKey items CLASSNAME || hasKey items SCHEMA_ID with
      | true => simp
      | false =>
        have hitems : (∀ e ∈ items, ∃ j, serialize registry n e.2 = .ok j) ↔
            (∀ e ∈ items, e.2.Unreserved) ∧ (items.map fun e => height e.2).foldr max 0 ≤ n := by
          rw [foldr_max_le, ← forall₂_and]
          exact forall₂_congr fun e he => ih e.2 (.inl ⟨e, he, rfl⟩) (hwf.2 e he) n
        simp only [Bool.false_eq_true, if_false, isOk_map, Traced.exists_mapM_eq_ok]
        rw [hitems, true_and]
        exact and_congr_right fun _ => by omega

/-- The `json` module writes a value if `serialize` accepts the sets in it. -/
theorem iterencode_isOk (v : PyValue) : v.WellFormed →
    ((∃ j, iterencode registry v = .ok j) ↔ v.AcceptedInside registry.maxRecursionDepth) := by
  refine PyValue.induction (motive := fun v => v.WellFormed →
    ((∃ j, iterencode registry v = .ok j) ↔ v.AcceptedInside registry.maxRecursionDepth)) ?_ v
  refine ⟨?atom, ?list, ?tuple, ?set, ?frozenset, ?dict⟩
  case atom =>
    intro v hv hwf
    cases v <;> simp [isAtom] at hv <;> simp [WellFormed] at hwf <;>
      simp [iterencode, AcceptedInside]
  case list =>
    intro l ih hwf
    rw [WellFormed] at hwf
    rw [iterencode, isOk_map, Traced.exists_mapM_eq_ok, AcceptedInside]
    exact forall₂_congr fun v hv => ih v hv (hwf v hv)
  case tuple =>
    intro l ih hwf
    rw [WellFormed] at hwf
    rw [iterencode, isOk_map, Traced.exists_mapM_eq_ok, AcceptedInside]
    exact forall₂_congr fun v hv => ih v hv (hwf v hv)
  case set =>
    intro l _ hwf
    rw [iterencode_set, serialize_isOk _ hwf, AcceptedInside]
  case frozenset =>
    intro l _ hwf
    rw [iterencode_frozenset, serialize_isOk _ hwf, AcceptedInside]
  case dict =>
    intro items ih hwf
    rw [WellFormed] at hwf
    rw [iterencode, isOk_map, Traced.exists_mapM_eq_ok, AcceptedInside]
    simp only [isOk_map]
    exact forall₂_congr fun e he => ih e.2 (.inl ⟨e, he, rfl⟩) (hwf.2 e he)

end

/-! ## Equality -/

namespace PyValue

mutual

/-- `v == w` with the same types at every depth. -/
def Same : PyValue → PyValue → Prop
  | .list a, .list b => SameAll a b
  | .tuple a, .tuple b => SameAll a b
  | .set a, .set b => ∃ b', b'.Perm b ∧ SameAll a b'
  | .frozenset a, .frozenset b => ∃ b', b'.Perm b ∧ SameAll a b'
  | .dict a, .dict b => ∃ b', b'.Perm b ∧ SameItems a b'
  | v, w => v = w

def SameAll : List PyValue → List PyValue → Prop
  | [], [] => True
  | v :: a, w :: b => Same v w ∧ SameAll a b
  | _, _ => False

def SameItems : List (String × PyValue) → List (String × PyValue) → Prop
  | [], [] => True
  | (k, v) :: a, (l, w) :: b => k = l ∧ Same v w ∧ SameItems a b
  | _, _ => False

end

theorem sameAll_refl {l : List PyValue} (h : ∀ v ∈ l, Same v v) : SameAll l l := by
  induction l with
  | nil => trivial
  | cons v l ih =>
    rw [List.forall_mem_cons] at h
    exact ⟨h.1, ih h.2⟩

theorem sameItems_refl {items : List (String × PyValue)} (h : ∀ e ∈ items, Same e.2 e.2) :
    SameItems items items := by
  induction items with
  | nil => trivial
  | cons e items ih =>
    rw [List.forall_mem_cons] at h
    exact ⟨rfl, h.1, ih h.2⟩

theorem same_refl (v : PyValue) : Same v v := by
  refine PyValue.induction (motive := fun v => Same v v) ?_ v
  refine ⟨?atom, ?list, ?tuple, ?set, ?frozenset, ?dict⟩
  case atom =>
    intro v hv
    cases v <;> first | rfl | cases hv
  case list => exact fun l ih => sameAll_refl ih
  case tuple => exact fun l ih => sameAll_refl ih
  case set => exact fun l ih => ⟨l, List.Perm.refl l, sameAll_refl ih⟩
  case frozenset => exact fun l ih => ⟨l, List.Perm.refl l, sameAll_refl ih⟩
  case dict =>
    exact fun items ih => ⟨items, List.Perm.refl items, sameItems_refl fun e he =>
      ih e.2 (.inl ⟨e, he, rfl⟩)⟩

theorem weightAll_perm {l l' : List PyValue} (h : l.Perm l') : weightAll l = weightAll l' := by
  induction h with
  | nil => rfl
  | cons v _ ih => simp only [weightAll, ih]
  | swap v w l =>
    simp only [weightAll]
    omega
  | trans _ _ ih ih' => exact ih.trans ih'

theorem weightItems_perm {l l' : List (String × PyValue)} (h : l.Perm l') :
    weightItems l = weightItems l' := by
  induction h with
  | nil => rfl
  | cons v _ ih => simp only [weightItems, ih]
  | swap v w l =>
    simp only [weightItems]
    omega
  | trans _ _ ih ih' => exact ih.trans ih'

theorem weightAll_of_same : ∀ {a b : List PyValue},
    (∀ v ∈ a, ∀ w, Same v w → weight v = weight w) → SameAll a b → weightAll a = weightAll b
  | [], [], _, _ => rfl
  | v :: a, w :: b, ih, h => by
    rw [List.forall_mem_cons] at ih
    rw [weightAll, weightAll, ih.1 w h.1, weightAll_of_same ih.2 h.2]
  | [], _ :: _, _, h => by cases h
  | _ :: _, [], _, h => by cases h

theorem weightItems_of_same : ∀ {a b : List (String × PyValue)},
    (∀ e ∈ a, ∀ w, Same e.2 w → weight e.2 = weight w) → SameItems a b →
    weightItems a = weightItems b
  | [], [], _, _ => rfl
  | (k, v) :: a, (l, w) :: b, ih, h => by
    rw [List.forall_mem_cons] at ih
    rw [weightItems, weightItems, h.1, ih.1 w h.2.1, weightItems_of_same ih.2 h.2.2]
  | [], _ :: _, _, h => by cases h
  | _ :: _, [], _, h => by cases h

/-- Equal values have the same weight. -/
theorem weight_of_same (v : PyValue) : ∀ w, Same v w → weight v = weight w := by
  refine PyValue.induction (motive := fun v => ∀ w, Same v w → weight v = weight w) ?_ v
  refine ⟨?atom, ?list, ?tuple, ?set, ?frozenset, ?dict⟩
  case atom =>
    intro v hv w h
    have heq : v = w := by
      cases v <;> simp [isAtom] at hv <;> cases w <;> exact h
    rw [heq]
  case list =>
    intro l ih w h
    cases w with
    | list l' => rw [weight, weight, weightAll_of_same ih h]
    | _ => cases h
  case tuple =>
    intro l ih w h
    cases w with
    | tuple l' => rw [weight, weight, weightAll_of_same ih h]
    | _ => cases h
  case set =>
    intro l ih w h
    cases w with
    | set l' =>
      obtain ⟨b, hperm, hall⟩ := h
      rw [weight, weight, weightAll_of_same ih hall, weightAll_perm hperm]
    | _ => cases h
  case frozenset =>
    intro l ih w h
    cases w with
    | frozenset l' =>
      obtain ⟨b, hperm, hall⟩ := h
      rw [weight, weight, weightAll_of_same ih hall, weightAll_perm hperm]
    | _ => cases h
  case dict =>
    intro items ih w h
    cases w with
    | dict items' =>
      obtain ⟨b, hperm, hall⟩ := h
      rw [weight, weight, weightItems_of_same (fun e he => ih e.2 (.inl ⟨e, he, rfl⟩)) hall,
        weightItems_perm hperm]
    | _ => cases h

end PyValue

/-! ## The round trip -/

/-- A value of an XCom. -/
structure XComValue where
  value : PyValue
  wellFormed : value.WellFormed

/-- The encoder raises, or the decoder gives back an equal value of the same types. -/
def RoundTrips (registry : Registry) (v : PyValue) : Prop :=
  (∃ e, serializeValue registry v = .error e) ∨
  ∃ j z, serializeValue registry v = .ok j ∧ deserializeValue registry false j = .ok z ∧ Same z v

/-- The encoder raises on the value: on a reserved key of the outermost dict, or where `serialize`
does. -/
def Rejected (limit : Nat) : PyValue → Prop
  | .dict items =>
    (hasKey items CLASSNAME || hasKey items SCHEMA_ID) ∨
      ¬ (PyValue.dict items).AcceptedInside limit
  | .tuple l => ¬ (PyValue.tuple l).Accepted limit
  | v => ¬ v.AcceptedInside limit

/-- The outermost value is written by `serialize`. -/
def isTuple : PyValue → Bool
  | .tuple _ => true
  | _ => false

section
variable {registry : Registry}

theorem serializeValue_isOk {v : PyValue} (hwf : v.WellFormed) :
    (∃ j, serializeValue registry v = .ok j) ↔ ¬ Rejected registry.maxRecursionDepth v := by
  cases v with
  | tuple l =>
    rw [serializeValue, xcomEncode, Rejected, not_not, serialize_isOk _ hwf]
  | dict items =>
    rw [serializeValue, xcomEncode, Rejected, not_or, not_not]
    cases hasKey items CLASSNAME || hasKey items SCHEMA_ID with
    | true => simp
    | false => simpa using iterencode_isOk _ hwf
  | _ =>
    simp only [serializeValue, xcomEncode, Rejected, not_not]
    exact iterencode_isOk _ hwf

theorem decodes_serializeValue {v : PyValue} (hwf : v.WellFormed) {j : Json}
    (h : serializeValue registry v = .ok j) :
    Decodes (isTuple v) v (deserializeValue registry false j) := by
  cases v with
  | tuple l => exact decodes_serialize _ hwf _ j h
  | dict items =>
    rw [serializeValue, xcomEncode] at h
    split at h
    · cases h
    · exact decodes_iterencode _ hwf j h
  | _ => exact decodes_iterencode _ hwf j h

end

/-- **A value round-trips if and only if it is rejected or faithful.** -/
theorem xcom_roundTrips (registry : Registry) (v : XComValue) :
    RoundTrips registry v.value ↔
      Rejected registry.maxRecursionDepth v.value ∨ v.value.Faithful (isTuple v.value) := by
  have hok : (∃ j, serializeValue registry v.value = .ok j) ↔ _ :=
    serializeValue_isOk v.wellFormed
  constructor
  · rintro (⟨e, he⟩ | ⟨j, z, hj, hz, hsame⟩)
    · refine .inl (not_not.mp fun hrej => ?_)
      obtain ⟨j, hj⟩ := hok.mpr hrej
      rw [he] at hj
      cases hj
    · refine .inr ?_
      rcases (decodes_serializeValue v.wellFormed hj).2 z hz with ⟨-, hf⟩ | hlt
      · exact hf
      · rw [weight_of_same z _ hsame] at hlt
        exact absurd hlt (Nat.lt_irrefl _)
  · intro h
    cases hj : serializeValue registry v.value with
    | error e => exact .inl ⟨e, hj⟩
    | ok j =>
      rcases h with hrej | hf
      · exact absurd hrej (hok.mp ⟨j, hj⟩)
      · exact .inr ⟨j, v.value, hj, (decodes_serializeValue v.wellFormed hj).1 hf, same_refl _⟩

/-! ### A tuple and a dict inside a list -/

theorem not_roundTrips {registry : Registry} {v z : PyValue} {j : Json}
    (hj : serializeValue registry v = .ok j) (hz : deserializeValue registry false j = .ok z)
    (h : ¬ Same z v) : ¬ RoundTrips registry v := by
  rintro (⟨e, he⟩ | ⟨j', z', hj', hz', hsame⟩)
  · rw [hj] at he
    cases he
  · cases hj.symm.trans hj'
    cases hz.symm.trans hz'
    exact h hsame

/-- `[(1,)]`. -/
def tupleInList : XComValue where
  value := .list [.tuple [.int 1]]
  wellFormed := by simp [WellFormed]

/-- `[{"__classname__": "builtins.tuple", "__version__": 1, "__data__": []}]`. -/
def tagInList : XComValue where
  value := .list [.dict [(CLASSNAME, .str "builtins.tuple"), (VERSION, .int 1), (DATA, .list [])]]
  wellFormed := by simp [WellFormed, CLASSNAME, VERSION, DATA]

/-- The tuple comes back as a list, and the dict as a tuple. -/
theorem insideList_changed : ¬ RoundTrips stockRegistry tupleInList.value ∧
    ¬ RoundTrips stockRegistry tagInList.value := by
  constructor
  · refine not_roundTrips (j := .arr [.arr [.int 1]]) (z := .list [.list [.int 1]]) ?_ ?_ ?_
    · show xcomEncode stockRegistry (.list [.tuple [.int 1]]) = _
      simp [xcomEncode, iterencode, Except.map, Pure.pure, Except.pure, Bind.bind, Except.bind]
    · simp [deserializeValue, loads, Except.map, Pure.pure, Except.pure, Bind.bind, Except.bind]
    · rintro ⟨h, -⟩
      cases h
  · refine not_roundTrips (j := .arr [encode "builtins.tuple" 1 (.arr [])])
      (z := .list [.tuple []]) ?_ ?_ ?_
    · show xcomEncode stockRegistry (.list [.dict _]) = _
      simp [xcomEncode, iterencode, encode, Except.map, Pure.pure, Except.pure, Bind.bind,
        Except.bind]
    · have hhook : objectHook stockRegistry [(CLASSNAME, .str "builtins.tuple"),
          (VERSION, .int 1), (DATA, .list [])] = .ok (.tuple []) :=
        objectHook_encoded (by decide) 1 []
      simp [deserializeValue, loads, encode, Except.map, Pure.pure, Except.pure, Bind.bind,
        Except.bind, hhook]
    · rintro ⟨h, -⟩
      cases h

end Airflow.Serde
