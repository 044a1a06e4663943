import Airflow.XCom.Proof.Resolve

/-!
# The elements of a mapped or zipped reference

What `map`, `zip` and `zip_longest` make of the values that were pushed (`XComArg.items`), compared
with what the scheduler counts and with what the worker gets. `sized_iff` says when all three
agree: no referenced task is in a mapped task group, and a dict is not asked for a position at which
its subscript and its iteration differ.
-/

namespace Airflow.XCom

variable {F : Type}

/-! ## `map`, `zip` and `zip_longest` -/

/-- The length of the shortest, or with a fill value of the longest. -/
def zipLength (fillvalue : Option Value) (first : Nat) (rest : List Nat) : Nat :=
  if fillvalue.isSome then rest.foldl max first else rest.foldl min first

/-- `zip(first, *rest)`, or `zip_longest(first, *rest, fillvalue=fillvalue)`, of lists whose
elements may raise. -/
def zipItems (fillvalue : Option Value) (first : List (Except PyError Value))
    (rest : List (List (Except PyError Value))) : List (Except PyError Value) :=
  (List.range (zipLength fillvalue first.length (rest.map List.length))).map fun i => do
    return .tuple (← (first :: rest).mapM fun items =>
      items[i]?.getD (.ok (fillvalue.getD .notset)))

section
variable (call : F → Value → Except PyError Value) (pushes : TaskId → List Value)

mutual

/-- The elements of a reference: `map`, `zip` and `zip_longest` over what the pushed values iterate
over. -/
def XComArg.items : XComArg F → List (Except PyError Value)
  | .plain operator _ => (contents pushes operator).iterated.map .ok
  | .map arg callables => arg.items.map fun item => item >>= applyAll call callables
  | .zip arg others fillvalue => zipItems fillvalue arg.items (XComArg.allItems others)

def XComArg.allItems : List (XComArg F) → List (List (Except PyError Value))
  | [] => []
  | arg :: args => arg.items :: XComArg.allItems args

end

mutual

/-- The length of what was pushed. -/
def XComArg.size : XComArg F → Nat
  | .plain operator _ => (contents pushes operator).len
  | .map arg _ => arg.size
  | .zip arg others fillvalue => zipLength fillvalue arg.size (XComArg.sizes others)

def XComArg.sizes : List (XComArg F) → List Nat
  | [] => []
  | arg :: args => arg.size :: XComArg.sizes args

end

/-- The subscript of a value gives what its iteration gives at the index, where a fill value is
taken if there is nothing. -/
def Value.ReadsAlike (value : Value) (i : Nat) : Option Value → Prop
  | .none => (value.getItem i).toOption = value.iterated[i]?
  | .some fillvalue => (value.getItem i).toOption.getD fillvalue = value.iterated[i]?.getD fillvalue

mutual

/-- The pushed values that the element at index `i` is made of read alike. A fill value is taken in
place of what `zip` finds nothing of. -/
def XComArg.ReadsAlike (i : Nat) : XComArg F → Option Value → Prop
  | .plain operator _, fillvalue => (contents pushes operator).ReadsAlike i fillvalue
  | .map arg [], fillvalue => arg.ReadsAlike i fillvalue
  | .map arg (_ :: _), _ => arg.ReadsAlike i none
  | .zip arg others fillvalue, _ =>
    i < zipLength fillvalue (arg.size pushes) (XComArg.sizes pushes others) →
      arg.ReadsAlike i (some (fillvalue.getD .notset)) ∧
        XComArg.AllReadAlike i others (some (fillvalue.getD .notset))

def XComArg.AllReadAlike (i : Nat) : List (XComArg F) → Option Value → Prop
  | [], _ => True
  | arg :: args, fillvalue =>
    arg.ReadsAlike i fillvalue ∧ XComArg.AllReadAlike i args fillvalue

end

mutual

/-- A resolved reference, with the pushed values in it. -/
def XComArg.denote : XComArg F → Resolved F
  | .plain operator _ => .value (contents pushes operator)
  | .map arg callables => .mapResult arg.denote callables
  | .zip arg others fillvalue => .zipResult arg.denote (XComArg.denoteAll others) fillvalue

def XComArg.denoteAll : List (XComArg F) → List (Resolved F)
  | [] => []
  | arg :: args => arg.denote :: XComArg.denoteAll args

end

end

/-! ## Lengths -/

section
variable {call : F → Value → Except PyError Value} {pushes : TaskId → List Value}

mutual

theorem len_denote : (arg : XComArg F) → (arg.denote pushes).len = arg.size pushes
  | .plain operator key => rfl
  | .map arg callables => by
    rw [XComArg.denote, Resolved.len, XComArg.size]
    exact len_denote arg
  | .zip arg others fillvalue => by
    rw [XComArg.denote, Resolved.len, XComArg.size, zipLength, len_denote arg, lens_denoteAll others]

theorem lens_denoteAll : (args : List (XComArg F)) →
    Resolved.lens (XComArg.denoteAll pushes args) = XComArg.sizes pushes args
  | [] => rfl
  | arg :: args => by
    rw [XComArg.denoteAll, Resolved.lens, XComArg.sizes, len_denote arg, lens_denoteAll args]

end

mutual

theorem length_items : (arg : XComArg F) → (arg.items call pushes).length = arg.size pushes
  | .plain operator key => by
    rw [XComArg.items, List.length_map]
    rfl
  | .map arg callables => by
    rw [XComArg.items, List.length_map, XComArg.size]
    exact length_items arg
  | .zip arg others fillvalue => by
    rw [XComArg.items, zipItems, List.length_map, List.length_range, XComArg.size,
      length_items arg, map_length_allItems others]

theorem map_length_allItems : (args : List (XComArg F)) →
    (XComArg.allItems call pushes args).map List.length = XComArg.sizes pushes args
  | [] => rfl
  | arg :: args => by
    rw [XComArg.allItems, List.map_cons, XComArg.sizes, length_items arg,
      map_length_allItems args]

end

end

/-! ## What a reference resolves to -/

/-- A resolved reference that has the length and the elements of another. -/
structure Resolved.Like (r r' : Resolved F) : Prop where
  isSequenceOrDict : r.isSequenceOrDict = true
  len : r.len = r'.len
  getItem : ∀ call i, r.getItem call i = r'.getItem call i

theorem lens_congr {rs rs' : List (Resolved F)} (h : List.Forall₂ Resolved.Like rs rs') :
    Resolved.lens rs = Resolved.lens rs' := by
  induction h with
  | nil => rfl
  | cons h _ ih => rw [Resolved.lens, Resolved.lens, h.len, ih]

theorem getItems_congr {rs rs' : List (Resolved F)} (h : List.Forall₂ Resolved.Like rs rs')
    (call : F → Value → Except PyError Value) (fillvalue : Value) (i : Nat) :
    Resolved.getItems call fillvalue i rs = Resolved.getItems call fillvalue i rs' := by
  induction h with
  | nil => rfl
  | cons h _ ih => rw [Resolved.getItems, Resolved.getItems, h.getItem, ih]

theorem Resolved.Like.mapResult {r r' : Resolved F} (h : r.Like r') (callables : List F) :
    (Resolved.mapResult r callables).Like (.mapResult r' callables) := by
  refine ⟨rfl, h.len, fun call i => ?_⟩
  rw [Resolved.getItem, Resolved.getItem, h.getItem]

theorem Resolved.Like.zipResult {r r' : Resolved F} {rs rs' : List (Resolved F)} (h : r.Like r')
    (hrs : List.Forall₂ Resolved.Like rs rs') (fillvalue : Option Value) :
    (Resolved.zipResult r rs fillvalue).Like (.zipResult r' rs' fillvalue) := by
  have hlen : (Resolved.zipResult r rs fillvalue).len =
      (Resolved.zipResult r' rs' fillvalue).len := by
    rw [Resolved.len, Resolved.len, h.len, lens_congr hrs]
  refine ⟨rfl, hlen, fun call i => ?_⟩
  rw [Resolved.getItem, Resolved.getItem, hlen, h.getItem, getItems_congr hrs]

/-- The referenced task instances pushed their return values. -/
def Ready (tables : Tables) (s : Session) (maxMapLength : Nat) (pushes : TaskId → List Value)
    (refs : List (Operator × String)) : Prop :=
  ∀ ref ∈ refs, ref.2 = XCOM_RETURN_KEY ∧ Pushed tables s maxMapLength pushes ref.1

/-- No referenced task is in a mapped task group. -/
def Ungrouped (refs : List (Operator × String)) : Prop := ∀ ref ∈ refs, ref.1.mappedTaskGroups = []

section
variable {tables : Tables} {s : Session} {context : Context} {maxMapLength : Nat}
  {pushes : TaskId → List Value} {refs refs' : List (Operator × String)}

theorem Ready.left (h : Ready tables s maxMapLength pushes (refs ++ refs')) :
    Ready tables s maxMapLength pushes refs :=
  fun ref hmem => h ref (List.mem_append_left _ hmem)

theorem Ready.right (h : Ready tables s maxMapLength pushes (refs ++ refs')) :
    Ready tables s maxMapLength pushes refs' :=
  fun ref hmem => h ref (List.mem_append_right _ hmem)

theorem Ungrouped.left (h : Ungrouped (refs ++ refs')) : Ungrouped refs :=
  fun ref hmem => h ref (List.mem_append_left _ hmem)

theorem Ungrouped.right (h : Ungrouped (refs ++ refs')) : Ungrouped refs' :=
  fun ref hmem => h ref (List.mem_append_right _ hmem)

mutual

theorem resolve_like : (arg : XComArg F) → Ready tables s maxMapLength pushes arg.iterReferences →
    Ungrouped arg.iterReferences →
    ∃ r, arg.resolve tables s context = .ok r ∧ r.Like (arg.denote pushes)
  | .plain operator key, hready, hungrouped => by
    obtain ⟨hkey, hpushed⟩ := hready (operator, key) (List.mem_singleton_self _)
    obtain ⟨r, hr, hlike⟩ := @Pushed.resolvePlain _ _ _ _ _ context F hpushed
      (hungrouped (operator, key) (List.mem_singleton_self _))
    refine ⟨r, ?_, hlike.isSequenceOrDict, hlike.len, hlike.getItem⟩
    rw [XComArg.resolve, show key = XCOM_RETURN_KEY from hkey]
    exact hr
  | .map arg callables, hready, hungrouped => by
    obtain ⟨r, hr, hlike⟩ := resolve_like arg hready hungrouped
    refine ⟨.mapResult r callables, ?_, hlike.mapResult callables⟩
    rw [XComArg.resolve, hr]
    simp [bind, Except.bind, hlike.isSequenceOrDict]
    rfl
  | .zip arg others fillvalue, hready, hungrouped => by
    obtain ⟨r, hr, hlike⟩ := resolve_like arg hready.left hungrouped.left
    obtain ⟨rs, hrs, hlikes, hall⟩ := resolveAll_like others hready.right hungrouped.right
    refine ⟨.zipResult r rs fillvalue, ?_, hlike.zipResult hlikes fillvalue⟩
    rw [XComArg.resolve, hr, hrs]
    simp [bind, Except.bind, hlike.isSequenceOrDict, hall]
    rfl

theorem resolveAll_like : (args : List (XComArg F)) →
    Ready tables s maxMapLength pushes (XComArg.allReferences args) →
    Ungrouped (XComArg.allReferences args) →
    ∃ rs, XComArg.resolveAll tables s context args = .ok rs ∧
      List.Forall₂ Resolved.Like rs (XComArg.denoteAll pushes args) ∧
        rs.all (·.isSequenceOrDict) = true
  | [], _, _ => ⟨[], rfl, .nil, rfl⟩
  | arg :: args, hready, hungrouped => by
    obtain ⟨r, hr, hlike⟩ := resolve_like arg hready.left hungrouped.left
    obtain ⟨rs, hrs, hlikes, hall⟩ := resolveAll_like args hready.right hungrouped.right
    refine ⟨r :: rs, ?_, .cons hlike hlikes, ?_⟩
    · rw [XComArg.resolveAll, hr, hrs]
      rfl
    · rw [List.all_cons, hlike.isSequenceOrDict, hall]
      rfl

end

/-! ## What the scheduler counts -/

theorem zip_max_min (longest : Option Value) (n : Nat) (l : List Nat) :
    (if longest.isSome then (n :: l).max? else (n :: l).min?) = some (zipLength longest n l) := by
  rw [zipLength]
  split
  · exact List.max?_cons'
  · exact List.min?_cons'

mutual

theorem getTaskMapLength_eq : (arg : XComArg F) →
    Ready tables s maxMapLength pushes arg.iterReferences → Ungrouped arg.iterReferences →
    arg.getTaskMapLength tables s = some (arg.size pushes)
  | .plain operator key, hready, hungrouped => by
    obtain ⟨hkey, hpushed⟩ := hready (operator, key) (List.mem_singleton_self _)
    exact @Pushed.getTaskMapLength_plain _ _ _ _ _ F hpushed
      (hungrouped (operator, key) (List.mem_singleton_self _))
  | .map arg callables, hready, hungrouped => by
    have ih := getTaskMapLength_eq arg hready hungrouped
    rw [XComArg.getTaskMapLength] at ih ⊢
    rw [XComArg.toArg, Airflow.XComArg.getTaskMapLength, XComArg.size]
    exact ih
  | .zip arg others fillvalue, hready, hungrouped => by
    have ih := getTaskMapLength_eq arg hready.left hungrouped.left
    have ihs := getTaskMapLengths_eq others hready.right hungrouped.right
    rw [XComArg.getTaskMapLength] at ih ⊢
    rw [XComArg.toArg, Airflow.XComArg.getTaskMapLength, Airflow.XComArg.getTaskMapLengths, ih, ihs,
      XComArg.size]
    exact zip_max_min fillvalue _ _

theorem getTaskMapLengths_eq : (args : List (XComArg F)) →
    Ready tables s maxMapLength pushes (XComArg.allReferences args) →
    Ungrouped (XComArg.allReferences args) →
    Airflow.XComArg.getTaskMapLengths tables.runData s (XComArg.toArgs args) =
      some (XComArg.sizes pushes args)
  | [], _, _ => rfl
  | arg :: args, hready, hungrouped => by
    have ih := getTaskMapLength_eq arg hready.left hungrouped.left
    have ihs := getTaskMapLengths_eq args hready.right hungrouped.right
    rw [XComArg.getTaskMapLength] at ih
    rw [XComArg.toArgs, Airflow.XComArg.getTaskMapLengths, ih, ihs]
    rfl

end

theorem getTaskMapLengths_cons {run : RunData} {arg : Airflow.XComArg}
    {args : List Airflow.XComArg} {lengths : List Nat}
    (h : Airflow.XComArg.getTaskMapLengths run s (arg :: args) = some lengths) :
    (∃ n, arg.getTaskMapLength run s = some n) ∧
      ∃ ns, Airflow.XComArg.getTaskMapLengths run s args = some ns := by
  rw [Airflow.XComArg.getTaskMapLengths] at h
  cases harg : arg.getTaskMapLength run s with
  | none => simp [harg] at h
  | some n =>
    cases hargs : Airflow.XComArg.getTaskMapLengths run s args with
    | none => simp [harg, hargs] at h
    | some ns => exact ⟨⟨n, rfl⟩, ns, rfl⟩

theorem Ungrouped.append (h : Ungrouped refs) (h' : Ungrouped refs') :
    Ungrouped (refs ++ refs') := by
  intro ref href
  rcases List.mem_append.mp href with href | href
  · exact h ref href
  · exact h' ref href

mutual

theorem ungrouped_of_length : (arg : XComArg F) →
    Ready tables s maxMapLength pushes arg.iterReferences →
    ∀ n, arg.getTaskMapLength tables s = some n → Ungrouped arg.iterReferences
  | .plain operator key, hready, n, hn => by
    obtain ⟨hkey, hpushed⟩ := hready (operator, key) (List.mem_singleton_self _)
    intro ref href
    rw [List.mem_singleton.mp href]
    by_contra hgroups
    have hnone := @Pushed.getTaskMapLength_grouped _ _ _ _ _ F hpushed hgroups
    rw [XComArg.getTaskMapLength, XComArg.toArg] at hn hnone
    rw [hnone] at hn
    cases hn
  | .map arg callables, hready, n, hn => by
    rw [XComArg.getTaskMapLength, XComArg.toArg, Airflow.XComArg.getTaskMapLength] at hn
    exact ungrouped_of_length arg hready n hn
  | .zip arg others fillvalue, hready, n, hn => by
    rw [XComArg.getTaskMapLength, XComArg.toArg, Airflow.XComArg.getTaskMapLength] at hn
    obtain ⟨lengths, hlengths, -⟩ := Option.bind_eq_some_iff.mp hn
    obtain ⟨⟨k, hk⟩, ns, hns⟩ := getTaskMapLengths_cons hlengths
    exact (ungrouped_of_length arg hready.left k hk).append
      (ungrouped_of_lengths others hready.right ns hns)

theorem ungrouped_of_lengths : (args : List (XComArg F)) →
    Ready tables s maxMapLength pushes (XComArg.allReferences args) →
    ∀ lengths, Airflow.XComArg.getTaskMapLengths tables.runData s (XComArg.toArgs args) =
      some lengths → Ungrouped (XComArg.allReferences args)
  | [], _, _, _ => fun _ href => absurd href List.not_mem_nil
  | arg :: args, hready, lengths, hlengths => by
    obtain ⟨⟨n, hn⟩, ns, hns⟩ := getTaskMapLengths_cons hlengths
    exact (ungrouped_of_length arg hready.left n hn).append
      (ungrouped_of_lengths args hready.right ns hns)

end

end

/-! ## Elements -/

/-- The result is an error that `_get_or_fill` catches. -/
def IsLookupError (result : Except PyError Value) : Prop :=
  result = .error .indexError ∨ result = .error .keyError

/-- The subscript gives what the iteration has there. Where it has nothing, the subscript fails, or
the fill value is taken. Nothing is said where the callables raise. -/
def Reads (fillvalue : Option Value) (result : Except PyError Value) :
    Option (Except PyError Value) → Prop
  | some (.ok value) => (fillvalue.elim result (getOrFill · result)) = .ok value
  | some (.error _) => True
  | none =>
    match fillvalue with
    | none => IsLookupError result
    | some fillvalue => getOrFill fillvalue result = .ok fillvalue

section
variable {call : F → Value → Except PyError Value} {pushes : TaskId → List Value}
  {result : Except PyError Value} {item : Option (Except PyError Value)} {value : Value}

theorem IsLookupError.getOrFill (h : IsLookupError result) (fillvalue : Value) :
    getOrFill fillvalue result = .ok fillvalue := by
  rcases h with rfl | rfl <;> rfl

theorem Reads.of_none (h : Reads none result item) (fillvalue : Option Value) :
    Reads fillvalue result item := by
  cases fillvalue with
  | none => exact h
  | some fillvalue =>
    cases item with
    | none => exact IsLookupError.getOrFill h fillvalue
    | some item =>
      cases item with
      | error e => exact h
      | ok value =>
        have hresult : result = .ok value := h
        subst hresult
        rfl

theorem Reads.bind (h : Reads none result item) (f : Value → Except PyError Value) :
    Reads none (result >>= f) (item.map (· >>= f)) := by
  cases item with
  | none =>
    have hresult : IsLookupError result := h
    rcases hresult with rfl | rfl
    · exact .inl rfl
    · exact .inr rfl
  | some item =>
    cases item with
    | error e => trivial
    | ok value =>
      have hresult : result = .ok value := h
      subst hresult
      show Reads none (f value) (some (f value))
      cases f value <;> trivial

/-- What `zip` takes of a reference that reads alike. -/
theorem Reads.take {fillvalue : Value} (h : Reads (some fillvalue) result item)
    (hvalue : item.getD (.ok fillvalue) = .ok value) : getOrFill fillvalue result = .ok value := by
  cases item with
  | none =>
    cases hvalue
    exact h
  | some item =>
    have hitem : item = .ok value := hvalue
    subst hitem
    exact h

theorem getItem_error {i : Nat} {e : PyError} (hmappable : value.isMappable = true)
    (h : value.getItem i = .error e) : IsLookupError (.error e) := by
  cases value with
  | list items | tuple items =>
    rw [Value.getItem, Value.subscript] at h
    cases hitem : items[i]? with
    | none =>
      rw [hitem] at h
      cases h
      exact .inl rfl
    | some item =>
      rw [hitem] at h
      cases h
  | dict items =>
    rw [Value.getItem] at h
    cases hitem : items.find? (·.1.isKey i) with
    | none =>
      rw [hitem] at h
      cases h
      exact .inr rfl
    | some item =>
      rw [hitem] at h
      cases h
  | _ => cases hmappable

theorem value_reads {i : Nat} {fillvalue : Option Value} (hmappable : value.isMappable = true)
    (h : value.ReadsAlike i fillvalue) :
    Reads fillvalue (value.getItem i) (value.iterated.map Except.ok)[i]? := by
  rw [List.getElem?_map]
  cases hresult : value.getItem i with
  | ok w =>
    cases fillvalue with
    | none =>
      have heq : some w = value.iterated[i]? := by rw [← show _ = _ from h, hresult]; rfl
      rw [← heq]
      rfl
    | some fillvalue =>
      have heq : w = value.iterated[i]?.getD fillvalue := by rw [← show _ = _ from h, hresult]; rfl
      cases hitem : value.iterated[i]? with
      | none =>
        rw [hitem] at heq
        exact congrArg Except.ok heq
      | some item =>
        rw [hitem] at heq
        exact congrArg Except.ok heq
  | error e =>
    have herror := getItem_error hmappable hresult
    cases fillvalue with
    | none =>
      have heq : none = value.iterated[i]? := by rw [← show _ = _ from h, hresult]; rfl
      rw [← heq]
      exact herror
    | some fillvalue =>
      have heq : fillvalue = value.iterated[i]?.getD fillvalue := by
        rw [← show _ = _ from h, hresult]
        rfl
      cases hitem : value.iterated[i]? with
      | none => exact herror.getOrFill fillvalue
      | some item =>
        rw [hitem] at heq
        exact (herror.getOrFill fillvalue).trans (congrArg Except.ok heq)

/-- Every reference is to a sequence or dict. -/
def Mappable (pushes : TaskId → List Value) (refs : List (Operator × String)) : Prop :=
  ∀ ref ∈ refs, (contents pushes ref.1).isMappable = true

theorem getElem?_zipItems {fillvalue : Option Value} {first : List (Except PyError Value)}
    {rest : List (List (Except PyError Value))} {i : Nat} :
    (zipItems fillvalue first rest)[i]? =
      if i < zipLength fillvalue first.length (rest.map List.length) then some (do
        return .tuple (← (first :: rest).mapM fun items =>
          items[i]?.getD (.ok (fillvalue.getD .notset))))
      else none := by
  rw [zipItems, List.getElem?_map]
  split
  · rename_i h
    rw [List.getElem?_range h]
    rfl
  · rename_i h
    rw [List.getElem?_eq_none (by simpa using h)]
    rfl

theorem getItem_zipResult {first : Resolved F} {rest : List (Resolved F)}
    {fillvalue : Option Value} {i : Nat} (h : i < (Resolved.zipResult first rest fillvalue).len) :
    (Resolved.zipResult first rest fillvalue).getItem call i = (do
      return .tuple
        (← Resolved.getItems call (fillvalue.getD .notset) i (first :: rest))) := by
  rw [Resolved.getItem, if_neg (by omega), Resolved.getItems]
  cases getOrFill (fillvalue.getD .notset) (first.getItem call i) with
  | error e => rfl
  | ok item =>
    simp only [bind, Except.bind]
    cases Resolved.getItems call (fillvalue.getD .notset) i rest <;> rfl

theorem mapM_cons_ok {α β : Type} {f : α → Except PyError β} {a : α} {l : List α} {bs : List β}
    (h : (a :: l).mapM f = .ok bs) :
    ∃ b rest, f a = .ok b ∧ l.mapM f = .ok rest ∧ bs = b :: rest := by
  rw [List.mapM_cons] at h
  cases ha : f a with
  | error e => simp [ha, bind, Except.bind] at h
  | ok b =>
    cases hl : l.mapM f with
    | error e => simp [ha, hl, bind, Except.bind] at h
    | ok rest =>
      simp only [ha, hl] at h
      cases h
      exact ⟨b, rest, rfl, rfl, rfl⟩

mutual

/-- **Where the pushed values read alike, the element that is computed is that of the iteration.** -/
theorem reads : (arg : XComArg F) → Mappable pushes arg.iterReferences → ∀ fillvalue i,
    arg.ReadsAlike pushes i fillvalue →
    Reads fillvalue ((arg.denote pushes).getItem call i) (arg.items call pushes)[i]?
  | .plain operator key, hmappable, fillvalue, i, h =>
    value_reads (hmappable (operator, key) (List.mem_singleton_self _)) h
  | .map arg [], hmappable, fillvalue, i, h => by
    have ih := reads arg hmappable fillvalue i h
    rw [XComArg.denote, XComArg.items, Resolved.getItem, List.getElem?_map]
    have hid : ∀ r : Except PyError Value, r >>= applyAll call [] = r := bind_pure
    rw [hid]
    simpa [hid] using ih
  | .map arg (f :: fs), hmappable, fillvalue, i, h => by
    have ih := reads arg hmappable none i h
    rw [XComArg.denote, XComArg.items, Resolved.getItem, List.getElem?_map]
    exact (ih.bind (applyAll call (f :: fs))).of_none fillvalue
  | .zip arg others zipFill, hmappable, fillvalue, i, h => by
    refine Reads.of_none ?_ fillvalue
    rw [XComArg.denote, XComArg.items, getElem?_zipItems, length_items, map_length_allItems]
    have hlen : (Resolved.zipResult (arg.denote pushes) (XComArg.denoteAll pushes others)
        zipFill).len = zipLength zipFill (arg.size pushes) (XComArg.sizes pushes others) :=
      len_denote (.zip arg others zipFill)
    split
    · rename_i hi
      obtain ⟨harg, hothers⟩ := h hi
      rw [getItem_zipResult (hlen ▸ hi)]
      cases hitems : (arg.items call pushes :: XComArg.allItems call pushes others).mapM
          fun items => items[i]?.getD (.ok (zipFill.getD .notset)) with
      | error e => trivial
      | ok values =>
        obtain ⟨value, rest, hfirst, hrest, rfl⟩ := mapM_cons_ok hitems
        have ih := (reads arg (List.forall_mem_append.mp hmappable).1 _ i harg).take hfirst
        have ihs := readsAll others (List.forall_mem_append.mp hmappable).2 _ i hothers hrest
        rw [Resolved.getItems, ih, ihs]
        rfl
    · rename_i hi
      rw [Resolved.getItem, if_pos (by omega)]
      exact .inl rfl

theorem readsAll : (args : List (XComArg F)) → Mappable pushes (XComArg.allReferences args) →
    ∀ (fillvalue : Value) (i : Nat) {values : List Value},
    XComArg.AllReadAlike pushes i args (some fillvalue) →
    (XComArg.allItems call pushes args).mapM
      (fun items => items[i]?.getD (.ok fillvalue)) = .ok values →
    Resolved.getItems call fillvalue i (XComArg.denoteAll pushes args) = .ok values
  | [], _, _, _, _, _, hvalues => by
    cases hvalues
    rfl
  | arg :: args, hmappable, fillvalue, i, values, h, hvalues => by
    rw [XComArg.allItems] at hvalues
    obtain ⟨value, rest, hfirst, hrest, rfl⟩ := mapM_cons_ok hvalues
    have ih := (reads arg (List.forall_mem_append.mp hmappable).1 _ i h.1).take hfirst
    have ihs := readsAll args (List.forall_mem_append.mp hmappable).2 fillvalue i h.2 hrest
    rw [XComArg.denoteAll, Resolved.getItems, ih, ihs]
    rfl

end

end

/-! ## Callables that tell all values apart -/

/-- A value that is none of `fills`, from which the value can be told. -/
def wrap (fills : List Value) (value : Value) : Value := .tuple [value, .tuple fills]

/-- Every callable wraps its argument. -/
def wrapAll (fills : List Value) : F → Value → Except PyError Value :=
  fun _ value => .ok (wrap fills value)

theorem wrap_notMem (fills : List Value) (value : Value) : wrap fills value ∉ fills := by
  intro hmem
  have hlt := List.sizeOf_lt_of_mem hmem
  simp only [wrap, Value.tuple.sizeOf_spec, List.cons.sizeOf_spec, List.nil.sizeOf_spec] at hlt
  omega

theorem wrap_injective (fills : List Value) : Function.Injective (wrap fills) := by
  intro a b h
  simpa [wrap] using h

theorem applyAll_wrapAll (fills : List Value) (callables : List F) (value : Value) :
    applyAll (wrapAll fills) callables value = .ok ((wrap fills)^[callables.length] value) := by
  induction callables generalizing value with
  | nil => rfl
  | cons f fs ih =>
    rw [List.length_cons, Function.iterate_succ_apply, ← ih]
    rfl

mutual

/-- What `_get_or_fill` may return in place of an element. -/
def XComArg.fillvalues : XComArg F → List Value
  | .plain _ _ => []
  | .map arg _ => arg.fillvalues
  | .zip arg others fillvalue =>
    fillvalue.getD .notset :: (arg.fillvalues ++ XComArg.allFillvalues others)

def XComArg.allFillvalues : List (XComArg F) → List Value
  | [] => []
  | arg :: args => arg.fillvalues ++ XComArg.allFillvalues args

end

section
variable {fills : List Value} {pushes : TaskId → List Value} {result : Except PyError Value}
  {item : Option (Except PyError Value)}

/-- The subscript gives what the iteration has, up to the fill value. -/
def Agrees (result : Except PyError Value) (item : Option (Except PyError Value)) :
    Option Value → Prop
  | none => result.toOption = item.bind Except.toOption
  | some fillvalue =>
    result.toOption.getD fillvalue = (item.bind Except.toOption).getD fillvalue

/-- Callables that wrap hide no difference. -/
theorem Agrees.of_wrapAll {fillvalue : Option Value} {f : F} {fs : List F}
    (hfill : ∀ v ∈ fillvalue, v ∈ fills)
    (h : Agrees (result >>= applyAll (wrapAll fills) (f :: fs))
      (item.map (· >>= applyAll (wrapAll fills) (f :: fs))) fillvalue) :
    Agrees result item none := by
  have happly : applyAll (wrapAll fills) (f :: fs) =
      fun value => .ok ((wrap fills)^[fs.length + 1] value) :=
    funext fun value => applyAll_wrapAll fills (f :: fs) value
  have hinj : Function.Injective (wrap fills)^[fs.length + 1] := (wrap_injective fills).iterate _
  have hnot : ∀ value, (wrap fills)^[fs.length + 1] value ∉ fills := by
    intro value
    rw [Function.iterate_succ_apply']
    exact wrap_notMem fills _
  have hresult : (result >>= applyAll (wrapAll fills) (f :: fs)).toOption =
      result.toOption.map (wrap fills)^[fs.length + 1] := by
    rw [happly]
    cases result <;> rfl
  have hitem : (item.map (· >>= applyAll (wrapAll fills) (f :: fs))).bind Except.toOption =
      (item.bind Except.toOption).map (wrap fills)^[fs.length + 1] := by
    rw [happly]
    cases item with
    | none => rfl
    | some item => cases item <;> rfl
  cases fillvalue with
  | none =>
    have heq : (result >>= applyAll (wrapAll fills) (f :: fs)).toOption = _ := h
    rw [hresult, hitem] at heq
    exact Option.map_injective hinj heq
  | some fillvalue =>
    have heq : (result >>= applyAll (wrapAll fills) (f :: fs)).toOption.getD fillvalue = _ := h
    rw [hresult, hitem] at heq
    have hfillvalue := hfill fillvalue rfl
    show result.toOption = item.bind Except.toOption
    cases ha : result.toOption with
    | none =>
      cases hb : item.bind Except.toOption with
      | none => rfl
      | some b =>
        rw [ha, hb] at heq
        have hwrapped : fillvalue = (wrap fills)^[fs.length + 1] b := heq
        exact absurd (hwrapped ▸ hfillvalue) (hnot b)
    | some a =>
      cases hb : item.bind Except.toOption with
      | none =>
        rw [ha, hb] at heq
        have hwrapped : (wrap fills)^[fs.length + 1] a = fillvalue := heq
        exact absurd (hwrapped ▸ hfillvalue) (hnot a)
      | some b =>
        rw [ha, hb] at heq
        exact congrArg some (hinj heq)

/-! ### Nothing else fails -/

theorem getOrFill_ok (fillvalue : Value)
    (h : ∀ e, result = .error e → IsLookupError (.error e)) :
    ∃ value, getOrFill fillvalue result = .ok value := by
  cases result with
  | ok value => exact ⟨value, rfl⟩
  | error e => exact ⟨fillvalue, (h e rfl).getOrFill fillvalue⟩

mutual

theorem lookupError : (arg : XComArg F) → Mappable pushes arg.iterReferences → ∀ i e,
    (arg.denote pushes).getItem (wrapAll fills) i = .error e → IsLookupError (.error e)
  | .plain operator key, hmappable, i, e, h =>
    getItem_error (hmappable (operator, key) (List.mem_singleton_self _)) h
  | .map arg callables, hmappable, i, e, h => by
    rw [XComArg.denote, Resolved.getItem] at h
    cases hitem : (arg.denote pushes).getItem (wrapAll fills) i with
    | error e' =>
      have herror := lookupError arg hmappable i e' hitem
      rw [hitem] at h
      cases h
      exact herror
    | ok value =>
      rw [hitem] at h
      have happly : applyAll (wrapAll fills) callables value = .error e := h
      rw [applyAll_wrapAll] at happly
      cases happly
  | .zip arg others fillvalue, hmappable, i, e, h => by
    have hlookup := lookupError arg (List.forall_mem_append.mp hmappable).1 i
    obtain ⟨value, hvalue⟩ := getOrFill_ok (fillvalue.getD .notset) hlookup
    obtain ⟨values, hvalues⟩ := getItems_ok others (List.forall_mem_append.mp hmappable).2
      (fillvalue.getD .notset) i
    rw [XComArg.denote, Resolved.getItem, hvalue, hvalues] at h
    split at h
    · cases h
      exact .inl rfl
    · cases h

theorem getItems_ok : (args : List (XComArg F)) → Mappable pushes (XComArg.allReferences args) →
    ∀ fillvalue i, ∃ values, Resolved.getItems (wrapAll fills) fillvalue i
      (XComArg.denoteAll pushes args) = .ok values
  | [], _, _, _ => ⟨[], rfl⟩
  | arg :: args, hmappable, fillvalue, i => by
    obtain ⟨value, hvalue⟩ := getOrFill_ok fillvalue
      (lookupError arg (List.forall_mem_append.mp hmappable).1 i)
    obtain ⟨values, hvalues⟩ := getItems_ok args (List.forall_mem_append.mp hmappable).2 fillvalue i
    refine ⟨value :: values, ?_⟩
    rw [XComArg.denoteAll, Resolved.getItems, hvalue, hvalues]
    rfl

end

theorem exists_mapM_ok {α β : Type} {f : α → Except PyError β} {l : List α}
    (h : ∀ a ∈ l, ∃ b, f a = .ok b) : ∃ bs, l.mapM f = .ok bs := by
  induction l with
  | nil => exact ⟨[], rfl⟩
  | cons a l ih =>
    rw [List.forall_mem_cons] at h
    obtain ⟨b, hb⟩ := h.1
    obtain ⟨bs, hbs⟩ := ih h.2
    refine ⟨b :: bs, ?_⟩
    rw [List.mapM_cons, hb, hbs]
    rfl

theorem exists_getD_ok {items : List (Except PyError Value)} (h : ∀ x ∈ items, ∃ v, x = .ok v)
    (fillvalue : Value) (i : Nat) : ∃ v, items[i]?.getD (.ok fillvalue) = .ok v := by
  cases hitem : items[i]? with
  | none => exact ⟨fillvalue, rfl⟩
  | some x => exact h x (List.mem_of_getElem? hitem)

mutual

theorem items_ok : (arg : XComArg F) → ∀ x ∈ arg.items (wrapAll fills) pushes, ∃ v, x = .ok v
  | .plain operator key => by
    rw [XComArg.items, List.forall_mem_map]
    exact fun v _ => ⟨v, rfl⟩
  | .map arg callables => by
    rw [XComArg.items, List.forall_mem_map]
    intro x hx
    obtain ⟨v, rfl⟩ := items_ok arg x hx
    exact ⟨_, applyAll_wrapAll fills callables v⟩
  | .zip arg others fillvalue => by
    rw [XComArg.items, zipItems, List.forall_mem_map]
    intro i _
    have hall := items_ok arg
    have halls := allItems_ok others
    obtain ⟨values, hvalues⟩ := exists_mapM_ok (l := arg.items (wrapAll fills) pushes ::
        XComArg.allItems (wrapAll fills) pushes others)
      (f := fun items => items[i]?.getD (.ok (fillvalue.getD .notset))) fun items hitems => by
        rcases List.mem_cons.mp hitems with rfl | hitems
        · exact exists_getD_ok hall _ i
        · exact exists_getD_ok (halls items hitems) _ i
    rw [hvalues]
    exact ⟨.tuple values, rfl⟩

theorem allItems_ok : (args : List (XComArg F)) →
    ∀ items ∈ XComArg.allItems (wrapAll fills) pushes args, ∀ x ∈ items, ∃ v, x = .ok v
  | [] => fun _ h => absurd h List.not_mem_nil
  | arg :: args => by
    have hall := items_ok arg
    have halls := allItems_ok args
    intro items hitems
    rcases List.mem_cons.mp hitems with rfl | hitems
    · exact hall
    · exact halls items hitems

end

/-! ### What agrees with all callables reads alike -/

theorem Agrees.of_ok {fillvalue value : Value} (hresult : getOrFill fillvalue result = .ok value)
    (hitem : item.getD (.ok fillvalue) = .ok value) : Agrees result item (some fillvalue) := by
  have hleft : result.toOption.getD fillvalue = value := by
    cases result with
    | ok v =>
      cases hresult
      rfl
    | error e => cases e <;> cases hresult <;> rfl
  have hright : (item.bind Except.toOption).getD fillvalue = value := by
    cases item with
    | none =>
      cases hitem
      rfl
    | some x =>
      have hx : x = .ok value := hitem
      subst hx
      rfl
  exact hleft.trans hright.symm

theorem getItems_eq_mapM {call : F → Value → Except PyError Value} {fillvalue : Value} {i : Nat}
    (rs : List (Resolved F)) : Resolved.getItems call fillvalue i rs =
      rs.mapM fun r => getOrFill fillvalue (r.getItem call i) := by
  induction rs with
  | nil => rfl
  | cons r rs ih =>
    rw [Resolved.getItems, List.mapM_cons, ih]

theorem Agrees.tuple_inj {fillvalue : Option Value} {values values' : List Value}
    (h : Agrees (.ok (.tuple values)) (some (.ok (.tuple values'))) fillvalue) :
    values = values' := by
  cases fillvalue with
  | none =>
    have heq : some (Value.tuple values) = some (.tuple values') := h
    simpa using heq
  | some fillvalue =>
    have heq : Value.tuple values = .tuple values' := h
    simpa using heq

mutual

theorem readsAlike_of_agrees : (arg : XComArg F) → Mappable pushes arg.iterReferences →
    (∀ v ∈ arg.fillvalues, v ∈ fills) → ∀ fillvalue i, (∀ v ∈ fillvalue, v ∈ fills) →
    Agrees ((arg.denote pushes).getItem (wrapAll fills) i)
      (arg.items (wrapAll fills) pushes)[i]? fillvalue → arg.ReadsAlike pushes i fillvalue
  | .plain operator key, hmappable, _, fillvalue, i, _, h => by
    rw [XComArg.items, List.getElem?_map] at h
    have hbind : ((contents pushes operator).iterated[i]?.map
        fun v => (Except.ok v : Except PyError Value)).bind Except.toOption =
          (contents pushes operator).iterated[i]? := by
      cases (contents pushes operator).iterated[i]? <;> rfl
    cases fillvalue with
    | none => exact (show _ = _ from h).trans hbind
    | some fillvalue => exact (show _ = _ from h).trans (congrArg (Option.getD · fillvalue) hbind)
  | .map arg [], hmappable, hfills, fillvalue, i, hfill, h => by
    refine readsAlike_of_agrees arg hmappable hfills fillvalue i hfill ?_
    rw [XComArg.denote, XComArg.items, Resolved.getItem, List.getElem?_map] at h
    have hid : ∀ r : Except PyError Value, r >>= applyAll (F := F) (wrapAll fills) [] = r :=
      bind_pure
    rw [hid] at h
    simpa [hid] using h
  | .map arg (f :: fs), hmappable, hfills, fillvalue, i, hfill, h => by
    rw [XComArg.denote, XComArg.items, Resolved.getItem, List.getElem?_map] at h
    exact readsAlike_of_agrees arg hmappable hfills none i (fun _ hv => nomatch hv)
      (h.of_wrapAll hfill)
  | .zip arg others zipFill, hmappable, hfills, fillvalue, i, _, h => by
    intro hi
    have hlen : (Resolved.zipResult (arg.denote pushes) (XComArg.denoteAll pushes others)
        zipFill).len = zipLength zipFill (arg.size pushes) (XComArg.sizes pushes others) :=
      len_denote (.zip arg others zipFill)
    rw [XComArg.denote, XComArg.items, getElem?_zipItems, length_items, map_length_allItems,
      if_pos hi, getItem_zipResult (hlen ▸ hi)] at h
    obtain ⟨values, hvalues⟩ := @getItems_ok F fills pushes (arg :: others) hmappable
      (zipFill.getD .notset) i
    obtain ⟨values', hvalues'⟩ := exists_mapM_ok
      (f := fun items : List (Except PyError Value) => items[i]?.getD (.ok (zipFill.getD .notset)))
      fun items hitems => exists_getD_ok
        (@allItems_ok F fills pushes (arg :: others) items hitems) (zipFill.getD .notset) i
    rw [XComArg.denoteAll] at hvalues
    rw [XComArg.allItems] at hvalues'
    rw [hvalues, hvalues'] at h
    have heq := h.tuple_inj
    rw [getItems_eq_mapM] at hvalues
    obtain ⟨value, rest, hfirst, hrest, rfl⟩ := mapM_cons_ok hvalues
    obtain ⟨value', rest', hfirst', hrest', rfl⟩ := mapM_cons_ok hvalues'
    obtain ⟨rfl, rfl⟩ := List.cons.inj heq
    rw [← getItems_eq_mapM] at hrest
    obtain ⟨hzip, hfills⟩ := List.forall_mem_cons.mp hfills
    obtain ⟨hleft, hright⟩ := List.forall_mem_append.mp hfills
    refine ⟨readsAlike_of_agrees arg (List.forall_mem_append.mp hmappable).1 hleft _ i ?_
      (.of_ok hfirst hfirst'), allReadAlike_of_ok others (List.forall_mem_append.mp hmappable).2
        hright _ i hzip rest hrest hrest'⟩
    exact fun v hv => Option.mem_some_iff.mp hv ▸ hzip

theorem allReadAlike_of_ok : (args : List (XComArg F)) →
    Mappable pushes (XComArg.allReferences args) →
    (∀ v ∈ XComArg.allFillvalues args, v ∈ fills) → ∀ (fillvalue : Value) (i : Nat),
    fillvalue ∈ fills → ∀ values,
    Resolved.getItems (wrapAll fills) fillvalue i (XComArg.denoteAll pushes args) = .ok values →
    (XComArg.allItems (wrapAll fills) pushes args).mapM
      (fun items => items[i]?.getD (.ok fillvalue)) = .ok values →
    XComArg.AllReadAlike pushes i args (some fillvalue)
  | [], _, _, _, _, _, _, _, _ => trivial
  | arg :: args, hmappable, hfills, fillvalue, i, hfill, values, hresult, hitems => by
    rw [XComArg.allItems] at hitems
    obtain ⟨value, rest, hfirst, hrest, rfl⟩ := mapM_cons_ok hitems
    rw [XComArg.denoteAll, getItems_eq_mapM] at hresult
    obtain ⟨value', rest', hfirst', hrest', heq⟩ := mapM_cons_ok hresult
    obtain ⟨rfl, rfl⟩ := List.cons.inj heq
    rw [← getItems_eq_mapM] at hrest'
    obtain ⟨hleft, hright⟩ := List.forall_mem_append.mp hfills
    refine ⟨readsAlike_of_agrees arg (List.forall_mem_append.mp hmappable).1 hleft _ i ?_
      (.of_ok hfirst' hfirst), allReadAlike_of_ok args (List.forall_mem_append.mp hmappable).2
        hright fillvalue i hfill rest hrest' hrest⟩
    exact fun v hv => Option.mem_some_iff.mp hv ▸ hfill

end

end

/-! ## The length and the elements -/

/-- The scheduler's length, the length of the resolved value and that of what `map`, `zip` and
`zip_longest` give are the same, and the resolved value has their elements, those whose callables do
not raise. -/
def SizedLikeValue (tables : Tables) (s : Session) (context : Context)
    (pushes : TaskId → List Value) (call : F → Value → Except PyError Value) (arg : XComArg F) :
    Prop :=
  ∃ n r, arg.getTaskMapLength tables s = some n ∧ arg.resolve tables s context = .ok r ∧
    r.len = n ∧ (arg.items call pushes).length = n ∧
    ∀ i < n, ∀ value, (arg.items call pushes)[i]? = some (.ok value) →
      r.getItem call i = .ok value

section
variable {tables : Tables} {s : Session} {context : Context} {maxMapLength : Nat}
  {pushes : TaskId → List Value} {arg : XComArg F}

theorem Pushed.isMappable {operator : Operator}
    (h : Pushed tables s maxMapLength pushes operator) :
    (contents pushes operator).isMappable = true := by
  rw [contents]
  cases hexpansion : operator.needsExpansion with
  | true => rfl
  | false =>
    obtain ⟨value, hvalue, hmappable, -⟩ := h.value hexpansion
    rw [if_neg (by simp), hvalue]
    exact hmappable

theorem Ready.mappable {refs : List (Operator × String)}
    (h : Ready tables s maxMapLength pushes refs) : Mappable pushes refs :=
  fun ref href => (h ref href).2.isMappable

/-- **A reference to pushed values is sized like its value and has its elements, whatever the
callables, exactly when no referenced task is in a mapped task group and the pushed values read
alike at every index.** -/
theorem sized_iff (hready : Ready tables s maxMapLength pushes arg.iterReferences) :
    (∀ call, SizedLikeValue tables s context pushes call arg) ↔
      Ungrouped arg.iterReferences ∧
        ∀ i < arg.size pushes, arg.ReadsAlike pushes i none := by
  constructor
  · intro h
    obtain ⟨n, r, hn, hr, -, -, hitems⟩ := h (wrapAll arg.fillvalues)
    have hungrouped := ungrouped_of_length arg hready n hn
    refine ⟨hungrouped, fun i hi => ?_⟩
    have hsize : n = arg.size pushes := by
      rw [getTaskMapLength_eq arg hready hungrouped] at hn
      exact (Option.some.inj hn).symm
    obtain ⟨r', hr', hlike⟩ := @resolve_like F tables s context _ _ arg hready hungrouped
    obtain rfl : r = r' := Except.ok.inj (hr.symm.trans hr')
    refine readsAlike_of_agrees arg hready.mappable (fun v hv => hv) none i
      (fun _ hv => nomatch hv) ?_
    cases hitem : (arg.items (wrapAll arg.fillvalues) pushes)[i]? with
    | none =>
      rw [List.getElem?_eq_none_iff, length_items] at hitem
      omega
    | some x =>
      obtain ⟨value, rfl⟩ := items_ok arg x (List.mem_of_getElem? hitem)
      have hget := hitems i (hsize ▸ hi) value hitem
      rw [hlike.getItem] at hget
      rw [hget]
      rfl
  · rintro ⟨hungrouped, halike⟩ call
    obtain ⟨r, hr, hlike⟩ := @resolve_like F tables s context _ _ arg hready hungrouped
    refine ⟨arg.size pushes, r, getTaskMapLength_eq arg hready hungrouped, hr, ?_,
      length_items arg, fun i hi value hvalue => ?_⟩
    · rw [hlike.len, len_denote]
    · have hreads := @reads F call pushes arg hready.mappable none i (halike i hi)
      rw [hvalue] at hreads
      rw [hlike.getItem]
      exact hreads

end

/-! ## A list and a dict -/

theorem list_readsAlike (items : List Value) (i : Nat) (fillvalue : Option Value) :
    (Value.list items).ReadsAlike i fillvalue := by
  have hread : ((Value.list items).getItem i).toOption = items[i]? := by
    rw [Value.getItem, Value.subscript]
    cases items[i]? <;> rfl
  cases fillvalue with
  | none => exact hread
  | some fillvalue => exact congrArg (Option.getD · fillvalue) hread

/-- A dict whose keys are strings reads alike only where it ends. -/
theorem strDict_readsAlike_iff {items : List (Value × Value)}
    (hkeys : ∀ kv ∈ items, ∃ k, kv.1 = .str k) (i : Nat) :
    (Value.dict items).ReadsAlike i none ↔ items.length ≤ i := by
  have hfind : items.find? (·.1.isKey i) = none := by
    rw [List.find?_eq_none]
    intro kv hkv
    obtain ⟨k, hk⟩ := hkeys kv hkv
    rw [hk]
    simp [Value.isKey]
  have hread : ((Value.dict items).getItem i).toOption = none := by
    rw [Value.getItem, hfind]
    rfl
  rw [Value.ReadsAlike, hread, Value.iterated, eq_comm, List.getElem?_eq_none_iff, List.length_map]

/-- Every task has one instance, which succeeded. -/
def finishedSession : Session :=
  ⟨fun _ => [⟨-1, some .success, some .success, false, false, false, false⟩]⟩

def producer : Operator := { taskId := 0, deps_mapped := baseOperatorDeps_unmapped }

def consumer : Operator :=
  { taskId := 1, upstreamTaskIds := [0], deps_mapped := baseOperatorDeps_unmapped }

def consumerContext : Context := ⟨⟨1, 0⟩, consumer, none, fun _ => false⟩

/-- What `producer` leaves when it returns `value`. -/
def pushedTables (value : Value) : Tables where
  xcoms := [⟨0, -1, XCOM_RETURN_KEY, value⟩]
  taskMaps := [⟨0, -1, value.len⟩]

theorem producer_pushed {value : Value} (hmappable : value.isMappable = true)
    (hlength : value.len ≤ 1024) :
    Pushed (pushedTables value) finishedSession 1024 (fun _ => [value]) producer := by
  have hrecord : recordTaskMapForDownstreams 1024 producer (-1) value =
      .ok (some ⟨0, -1, value.len⟩) := by
    rw [recordTaskMapForDownstreams, if_neg (by decide), if_neg (by cases value <;> simp_all
      [Value.isMappable, Value.isNone]), if_neg (by simp [hmappable]), if_neg (by omega)]
    rfl
  have hinstances : instances (fun _ => [value]) producer = [(-1, value)] := rfl
  refine ⟨fun _ => rfl, fun row hrow => ?_, by simp, fun _ => rfl, fun ti hti => ?_, ?_, ?_⟩
  · rw [List.mem_singleton.mp hrow]
  · rw [hinstances] at hti
    rw [List.mem_singleton.mp hti]
    exact ⟨_, hrecord⟩
  · exact .refl _
  · rw [hinstances]
    simp only [List.filterMap_cons, hrecord, Except.toOption, Option.join_some, List.filterMap_nil]
    exact .refl _

/-- `producer.output.map(f)`. -/
def mapped : XComArg Unit := .map (.plain producer XCOM_RETURN_KEY) [()]

theorem mapped_ready {value : Value} (hmappable : value.isMappable = true)
    (hlength : value.len ≤ 1024) : Ready (pushedTables value) finishedSession 1024
      (fun _ => [value]) mapped.iterReferences := by
  intro ref href
  rw [List.mem_singleton.mp href]
  exact ⟨rfl, producer_pushed hmappable hlength⟩

/-- The callable puts its argument in a tuple. -/
def toTuple : Unit → Value → Except PyError Value := fun _ value => .ok (.tuple [value])

/-- A list is mapped over as Python does. -/
theorem list_sized :
    SizedLikeValue (pushedTables (.list [.int 7, .int 8])) finishedSession consumerContext
      (fun _ => [.list [.int 7, .int 8]]) toTuple mapped := by
  refine (sized_iff (mapped_ready rfl (by decide))).mpr ⟨fun ref href => ?_, fun i _ => ?_⟩ toTuple
  · rw [List.mem_singleton.mp href]
    rfl
  · exact list_readsAlike [.int 7, .int 8] i none

/-- The only element of a mapped dict raises `KeyError`. -/
theorem dict_keyError :
    Ready (pushedTables (.dict [(.str "a", .int 7)])) finishedSession 1024
        (fun _ => [.dict [(.str "a", .int 7)]]) mapped.iterReferences ∧
      mapped.getTaskMapLength (pushedTables (.dict [(.str "a", .int 7)])) finishedSession =
        some 1 ∧
      (∃ r, mapped.resolve (pushedTables (.dict [(.str "a", .int 7)])) finishedSession
          consumerContext = .ok r ∧ r.len = 1 ∧ r.getItem toTuple 0 = .error .keyError) ∧
      (mapped.items toTuple fun _ => [.dict [(.str "a", .int 7)]])[0]? =
        some (.ok (.tuple [.str "a"])) :=
  ⟨mapped_ready rfl (by decide), rfl,
    ⟨.mapResult (.value (.dict [(.str "a", .int 7)])) [()], rfl, rfl, rfl⟩, rfl⟩

end Airflow.XCom
