import Airflow.Serialization.ExtendedJson
import Airflow.Serialization.Proof.Params

/-!
# The arguments of a deferred task

A value of built-in types comes back from `BaseSerialization`, and from an `ExtendedJSON` column, as
the same value (`roundTrips`); so the arguments with which a task defers reach its trigger and the
method that resumes it (`roundTrips_and_delivers`).
-/

namespace Airflow.ExtendedJson

open Params
open Serde (PyValue hasKey)
open JsonFormat (dumps loads loads_dumps)

variable {other : PyValue → PyValue} {v w : PyValue} {l : List PyValue}

/-! ## Dicts -/

theorem setItem_of_not_mem {d : List (String × PyValue)} {k : String} (h : k ∉ d.map Prod.fst)
    (v : PyValue) : setItem d k v = d ++ [(k, v)] := by
  have hkey : ¬hasKey d k = true := by
    intro hkey
    simp only [hasKey, List.any_eq_true, decide_eq_true_eq] at hkey
    obtain ⟨e, he, rfl⟩ := hkey
    exact h (List.mem_map_of_mem he)
  rw [setItem, if_neg hkey]

theorem setItem_of_mem {d : List (String × PyValue)} {k : String} (h : k ∈ d.map Prod.fst)
    (v : PyValue) : setItem d k v = d.map fun e => if e.1 = k then (k, v) else e := by
  have hkey : hasKey d k = true := by simpa [hasKey] using h
  rw [setItem, if_pos hkey]

/-! ## What is stored is a document -/

/-- A value that `json` writes and reads back as it is. -/
def IsDocument (x : PyValue) : Prop := ∃ j, toJson x = some j ∧ fromJson j = x

theorem exists_toJsonAll (h : ∀ x ∈ l, IsDocument x) :
    ∃ js, toJsonAll l = some js ∧ fromJsonAll js = l := by
  induction l with
  | nil => exact ⟨[], rfl, rfl⟩
  | cons x l ih =>
    obtain ⟨j, hj, hback⟩ := h x List.mem_cons_self
    obtain ⟨js, hjs, hbacks⟩ := ih fun y hy => h y (List.mem_cons_of_mem x hy)
    exact ⟨j :: js, by simp [toJsonAll, hj, hjs], by rw [fromJsonAll, hback, hbacks]⟩

theorem IsDocument.list (h : ∀ x ∈ l, IsDocument x) : IsDocument (.list l) := by
  obtain ⟨js, hjs, hback⟩ := exists_toJsonAll h
  refine ⟨.arr js, ?_, ?_⟩
  · rw [toJson, hjs]
    rfl
  · rw [fromJson, hback]

theorem exists_toJsonItems {items : List (String × PyValue)} (h : ∀ e ∈ items, IsDocument e.2)
    {d : List (String × PyValue)} (hnodup : ((d ++ items).map Prod.fst).Nodup) :
    ∃ js, toJsonItems items = some js ∧ fromJsonItems d js = d ++ items := by
  induction items generalizing d with
  | nil => exact ⟨[], rfl, by rw [fromJsonItems, List.append_nil]⟩
  | cons e items ih =>
    obtain ⟨k, x⟩ := e
    have hk : k ∉ d.map Prod.fst := by
      intro hk
      rw [List.map_append, List.nodup_append] at hnodup
      exact hnodup.2.2 k hk k List.mem_cons_self rfl
    have hassoc : d ++ (k, x) :: items = d ++ [(k, x)] ++ items := by simp
    obtain ⟨j, hj, hback⟩ := h _ List.mem_cons_self
    obtain ⟨js, hjs, hbacks⟩ :=
      ih (fun e he => h e (List.mem_cons_of_mem _ he)) (d := d ++ [(k, x)]) (hassoc ▸ hnodup)
    refine ⟨(k, j) :: js, by simp [toJsonItems, hj, hjs], ?_⟩
    rw [fromJsonItems, hback, setItem_of_not_mem hk, hbacks, hassoc]

theorem IsDocument.dict {items : List (String × PyValue)} (h : ∀ e ∈ items, IsDocument e.2)
    (hnodup : (items.map Prod.fst).Nodup) : IsDocument (.dict items) := by
  obtain ⟨js, hjs, hback⟩ := exists_toJsonItems (d := []) h hnodup
  refine ⟨.obj js, ?_, ?_⟩
  · rw [toJson, hjs]
    rfl
  · rw [fromJson, hback, List.nil_append]

theorem IsDocument.encode {x : PyValue} (h : IsDocument x) (type_ : String) :
    IsDocument (encode x type_) := by
  have hkeys : ([VAR, TYPE]).Nodup := by decide
  refine .dict (List.forall_mem_cons.mpr ⟨h, ?_⟩) hkeys
  simp only [List.mem_singleton, forall_eq]
  exact ⟨.str type_, rfl, rfl⟩

theorem map_fst_serializeItems (items : List (String × PyValue)) :
    (serializeItems other items).map Prod.fst = items.map Prod.fst := by
  induction items with
  | nil => rfl
  | cons e items ih => rw [serializeItems, List.map_cons, List.map_cons, ih]

mutual

/-- What is stored for a value of built-in types is a document. -/
theorem isDocument_serialize : ∀ v : PyValue, Basic v → IsDocument (serialize other v)
  | .none, _ => ⟨.null, rfl, rfl⟩
  | .bool b, _ => ⟨.bool b, rfl, rfl⟩
  | .int i, _ => ⟨.int i, rfl, rfl⟩
  | .str s, _ => ⟨.str s, rfl, rfl⟩
  | .list l, h => by
    rw [serialize]
    exact .list (isDocument_serializeAll l h)
  | .tuple l, h => by
    rw [serialize]
    exact (IsDocument.list (isDocument_serializeAll l h)).encode _
  | .set l, h => by
    rw [serialize]
    refine (IsDocument.list fun x hx => ?_).encode _
    exact isDocument_serializeAll l h.2.2 x ((sortedOrAsIs_perm _).mem_iff.mp hx)
  | .dict items, h => by
    have hkeys := h.1
    rw [← @map_fst_serializeItems other] at hkeys
    rw [serialize]
    exact (IsDocument.dict (isDocument_serializeItems items h.2) hkeys).encode _

theorem isDocument_serializeAll : ∀ l : List PyValue, BasicAll l →
    ∀ x ∈ serializeAll other l, IsDocument x
  | [], _ => by simp [serializeAll]
  | v :: l, h => by
    rw [serializeAll]
    exact List.forall_mem_cons.mpr ⟨isDocument_serialize v h.1, isDocument_serializeAll l h.2⟩

theorem isDocument_serializeItems : ∀ items : List (String × PyValue), BasicItems items →
    ∀ e ∈ serializeItems other items, IsDocument e.2
  | [], _ => by simp [serializeItems]
  | (k, v) :: items, h => by
    rw [serializeItems]
    exact List.forall_mem_cons.mpr ⟨isDocument_serialize v h.1, isDocument_serializeItems items h.2⟩

end

/-! ## The round trip -/

theorem processResultValue_dumps (j : JsonFormat.Value) :
    processResultValue (some (dumps j)) = (deserialize (fromJson j)).mapError .value := by
  rw [processResultValue, loads_dumps]
  cases j <;> rfl

/-- **A value comes back, and so it does from the column.** -/
theorem roundTrips (h : Basic v) : RoundTrips other v := by
  obtain ⟨v', hv', hsame⟩ := @deserialize_serialize other v h
  refine ⟨v', hv', hsame, ?_⟩
  have hstored : ∀ value, value = v → value ≠ .none →
      ∃ cell, processBindParam other value = .ok cell ∧ processResultValue cell = .ok v' := by
    intro value hvalue hnone
    subst hvalue
    obtain ⟨j, hj, hback⟩ := @isDocument_serialize other value h
    refine ⟨some (dumps j), ?_, ?_⟩
    · rw [processBindParam, hj]
      exact hnone
    · rw [processResultValue_dumps, hback, hv']
      rfl
  by_cases hnone : v = .none
  · subst hnone
    refine ⟨none, rfl, ?_⟩
    rw [← Except.ok.inj hv']
    rfl
  · exact hstored v rfl hnone

/-! ## Values that are the same -/

theorem keys_eq_of_sameItems {a b : List (String × PyValue)} (h : SameItems a b) :
    a.map Prod.fst = b.map Prod.fst := by
  induction a generalizing b with
  | nil =>
    cases b with
    | nil => rfl
    | cons e b => exact h.elim
  | cons e a ih =>
    cases b with
    | nil => exact h.elim
    | cons e' b => rw [List.map_cons, List.map_cons, h.1, ih h.2.2]

mutual

/-- What is the same value as one that Python can build can be built. -/
theorem basic_of_same : ∀ v w : PyValue, Same v w → Basic w → Basic v
  | .list a, .list b, h, hb => basicAll_of_same a b h hb
  | .tuple a, .tuple b, h, hb => basicAll_of_same a b h hb
  | .set _, .set _, h, hb => basic_set_of_perm hb h
  | .dict a, .dict b, h, hb => by
    refine ⟨?_, basicItems_of_same a b h hb.2⟩
    rw [keys_eq_of_sameItems h]
    exact hb.1
  | .none, .none, _, _ | .bool _, .bool _, _, _ | .int _, .int _, _, _
  | .str _, .str _, _, _ => trivial

theorem basicAll_of_same : ∀ a b : List PyValue, SameAll a b → BasicAll b → BasicAll a
  | [], [], _, _ => trivial
  | v :: a, w :: b, h, hb => ⟨basic_of_same v w h.1 hb.1, basicAll_of_same a b h.2 hb.2⟩

theorem basicItems_of_same : ∀ a b : List (String × PyValue), SameItems a b → BasicItems b →
    BasicItems a
  | [], [], _, _ => trivial
  | (_, v) :: a, (_, w) :: b, h, hb =>
    ⟨basic_of_same v w h.2.1 hb.1, basicItems_of_same a b h.2.2 hb.2⟩

end

mutual

theorem same_trans : ∀ u v w : PyValue, Same u v → Same v w → Same u w
  | .list a, .list b, .list c, h, h' => sameAll_trans a b c h h'
  | .tuple a, .tuple b, .tuple c, h, h' => sameAll_trans a b c h h'
  | .set _, .set _, .set _, h, h' => List.Perm.trans h h'
  | .dict a, .dict b, .dict c, h, h' => sameItems_trans a b c h h'
  | .none, .none, .none, _, _ => trivial
  | .bool _, .bool _, .bool _, h, h' | .int _, .int _, .int _, h, h'
  | .str _, .str _, .str _, h, h' => Eq.trans h h'

theorem sameAll_trans : ∀ a b c : List PyValue, SameAll a b → SameAll b c → SameAll a c
  | [], [], [], _, _ => trivial
  | u :: a, v :: b, w :: c, h, h' => ⟨same_trans u v w h.1 h'.1, sameAll_trans a b c h.2 h'.2⟩

theorem sameItems_trans : ∀ a b c : List (String × PyValue), SameItems a b → SameItems b c →
    SameItems a c
  | [], [], [], _, _ => trivial
  | (_, u) :: a, (_, v) :: b, (_, w) :: c, h, h' =>
    ⟨h.1.trans h'.1, same_trans u v w h.2.1 h'.2.1, sameItems_trans a b c h.2.2 h'.2.2⟩

end

/-! ### Setting an item -/

theorem basicItems_iff {items : List (String × PyValue)} :
    BasicItems items ↔ ∀ e ∈ items, Basic e.2 := by
  induction items with
  | nil => simp [BasicItems]
  | cons e items ih => rw [BasicItems, ih, List.forall_mem_cons]

theorem basic_setItem {d : List (String × PyValue)} (hd : Basic (.dict d)) (hv : Basic v)
    (k : String) : Basic (.dict (setItem d k v)) := by
  obtain ⟨hnodup, hitems⟩ := hd
  rw [basicItems_iff] at hitems
  by_cases hk : k ∈ d.map Prod.fst
  · rw [setItem_of_mem hk]
    constructor
    · have hkeys : (d.map fun e => if e.1 = k then (k, v) else e).map Prod.fst =
          d.map Prod.fst := by
        rw [List.map_map]
        refine List.map_congr_left fun e _ => ?_
        by_cases he : e.1 = k <;> simp [he]
      rwa [hkeys]
    · refine basicItems_iff.mpr fun e he => ?_
      obtain ⟨e', he', rfl⟩ := List.mem_map.mp he
      split
      · exact hv
      · exact hitems e' he'
  · rw [setItem_of_not_mem hk]
    constructor
    · rw [List.map_append, List.nodup_append]
      refine ⟨hnodup, by simp, fun a ha b hb => ?_⟩
      obtain rfl : b = k := by simpa using hb
      exact fun hab => hk (hab ▸ ha)
    · refine basicItems_iff.mpr fun e he => ?_
      obtain he | he := List.mem_append.mp he
      · exact hitems e he
      · obtain rfl : e = (k, v) := by simpa using he
        exact hv

theorem sameItems_append_singleton {k : String} (hv : Basic v) {a b : List (String × PyValue)}
    (h : SameItems a b) : SameItems (a ++ [(k, v)]) (b ++ [(k, v)]) := by
  induction a generalizing b with
  | nil =>
    cases b with
    | nil => exact ⟨rfl, same_refl v hv, trivial⟩
    | cons e b => exact h.elim
  | cons e a ih =>
    cases b with
    | nil => exact h.elim
    | cons e' b => exact ⟨h.1, h.2.1, ih h.2.2⟩

theorem sameItems_replace {k : String} (hv : Basic v) {a b : List (String × PyValue)}
    (h : SameItems a b) : SameItems (a.map fun e => if e.1 = k then (k, v) else e)
      (b.map fun e => if e.1 = k then (k, v) else e) := by
  induction a generalizing b with
  | nil =>
    cases b with
    | nil => trivial
    | cons e b => exact h.elim
  | cons e a ih =>
    cases b with
    | nil => exact h.elim
    | cons e' b =>
      obtain ⟨hkey, hsame, hrest⟩ := h
      by_cases hk : e.1 = k
      · have hk' : e'.1 = k := hkey ▸ hk
        simp only [List.map_cons, if_pos hk, if_pos hk']
        exact ⟨rfl, same_refl v hv, ih hrest⟩
      · have hk' : ¬e'.1 = k := hkey ▸ hk
        simp only [List.map_cons, if_neg hk, if_neg hk']
        exact ⟨hkey, hsame, ih hrest⟩

theorem same_setItem {a b : List (String × PyValue)} (h : SameItems a b) (hv : Basic v)
    (k : String) : SameItems (setItem a k v) (setItem b k v) := by
  have hkeys := keys_eq_of_sameItems h
  by_cases hk : k ∈ a.map Prod.fst
  · rw [setItem_of_mem hk, setItem_of_mem (hkeys ▸ hk)]
    exact sameItems_replace hv h
  · rw [setItem_of_not_mem hk, setItem_of_not_mem (hkeys ▸ hk)]
    exact sameItems_append_singleton hv h

/-! ## Deferred tasks -/

/-- A dict comes back from the column as a dict. -/
theorem column_dict {items : List (String × PyValue)} (h : Basic (.dict items)) :
    ∃ cell items', processBindParam other (.dict items) = .ok cell ∧
      processResultValue cell = .ok (.dict items') ∧ SameItems items' items := by
  obtain ⟨v', -, hsame, cell, hbind, hresult⟩ := @roundTrips other _ h
  cases v' with
  | dict items' => exact ⟨cell, items', hbind, hresult, hsame⟩
  | _ => exact hsame.elim

/-- **The arguments of a deferred task arrive.** -/
theorem delivers {defer : TaskDeferred} {payload : PyValue}
    (htrigger : Basic (.dict defer.triggerKwargs)) (hkwargs : Basic (.dict (defer.kwargs.getD [])))
    (hpayload : Basic payload) : Delivers other defer payload := by
  obtain ⟨cell, triggerKwargs, hbind, hresult, hsame⟩ := @column_dict other _ htrigger
  obtain ⟨cell₁, kwargs₁, hbind₁, hresult₁, hsame₁⟩ := @column_dict other _ hkwargs
  have hbasic₁ : Basic (.dict kwargs₁) := basic_of_same _ (.dict _) hsame₁ hkwargs
  obtain ⟨cell₂, kwargs₂, hbind₂, hresult₂, hsame₂⟩ :=
    @column_dict other _ (basic_setItem hbasic₁ hpayload "event")
  have hnext₁ : nextKwargsOf cell₁ = .ok kwargs₁ := by
    rw [nextKwargsOf, hresult₁]
    rfl
  have hnext₂ : nextKwargsOf cell₂ = .ok kwargs₂ := by
    rw [nextKwargsOf, hresult₂]
    rfl
  refine ⟨⟨defer.classpath, cell, defer.methodName, cell₁⟩,
    ⟨defer.classpath, cell, defer.methodName, cell₂⟩, triggerKwargs, kwargs₂, ?_, hresult, hsame,
    ?_, rfl, hnext₂, ?_⟩
  · rw [deferTask, hbind, hbind₁]
    rfl
  · simp only [submitEvent, hnext₁, bind, Except.bind, hbind₂, pure, Except.pure]
  · exact sameItems_trans _ _ _ hsame₂ (same_setItem hsame₁ hpayload "event")

/-- **Values of built-in types come back, from the column too, and those with which a task defers
reach its trigger and the method that resumes it.** -/
theorem roundTrips_and_delivers (other : PyValue → PyValue) :
    (∀ v, Basic v → RoundTrips other v) ∧
    ∀ defer payload, Basic (.dict defer.triggerKwargs) → Basic (.dict (defer.kwargs.getD [])) →
      Basic payload → Delivers other defer payload :=
  ⟨fun _ => roundTrips, fun _ _ => delivers⟩

/-- A dict that looks like an encoding, with a set and a tuple in it. -/
theorem encodingLookalike_roundTrips :
    RoundTrips id (.dict [("__type", .str "set"), ("__var", .set [.tuple [.int 1], .str "a"])]) ∧
      Delivers id ⟨"trigger.Path", [("x", .none)], "execute_complete", some [("y", .int 2)]⟩
        (.bool true) :=
  ⟨(roundTrips_and_delivers id).1 _
    ⟨by decide, trivial, ⟨rfl, by decide, ⟨trivial, trivial⟩, trivial, trivial⟩, trivial⟩,
   (roundTrips_and_delivers id).2 _ _ ⟨by decide, trivial, trivial⟩ ⟨by decide, trivial, trivial⟩
    trivial⟩

end Airflow.ExtendedJson
