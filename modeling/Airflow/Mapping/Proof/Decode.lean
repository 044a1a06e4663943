import Airflow.Lib.Radix
import Airflow.Lib.Traced
import Airflow.Mapping.ExpandInput

/-!
# Decoding nested mapped groups

The instances of a mapped group are the combinations of its arguments, the last argument fastest
(`combinations`); the instances of a task in nested groups are numbered with the closest group
fastest. `resolve` reads the arguments of a group off the whole `map_index`, without dividing by
the groups nested inside (`resolve_eq`), while the upstream instances are found by dividing
(`relevantUpstream_eq`). The two agree for every instance exactly if nothing that varies is
nested outside something that varies (`decodesNested_iff`).
-/

namespace Airflow.Mapping

variable {Value : Type}

/-! ## The combinations of a group -/

section
variable {α β γ : Type}

theorem getElem?_flatMap_map (xs : List α) (ys : List β) (f : α → β → γ) (c : Nat)
    (hys : 0 < ys.length) :
    (xs.flatMap fun x => ys.map (f x))[c]? =
      xs[c / ys.length]?.bind fun x => ys[c % ys.length]?.map (f x) := by
  induction xs generalizing c with
  | nil => simp
  | cons x xs ih =>
    rw [List.flatMap_cons, List.getElem?_append, List.length_map]
    by_cases hc : c < ys.length
    · rw [if_pos hc, Nat.div_eq_of_lt hc, Nat.mod_eq_of_lt hc]
      simp
    · have hle : ys.length ≤ c := Nat.le_of_not_lt hc
      rw [if_neg hc, ih, Nat.div_eq_sub_div hys hle, Nat.mod_eq_sub_mod hle]
      simp

end

/-- The combinations of the arguments of a group, in the order of its instances. -/
def combinations : List (String × Literal Value) → List (List (String × Resolved Value))
  | [] => [[]]
  | (key, argument) :: rest =>
    argument.items.flatMap fun x => (combinations rest).map fun row => (key, x) :: row

/-- The argument `key` of the instance `c` of a group. -/
def DictOfListsExpandInput.argumentAt (self : DictOfListsExpandInput Value) (key : String)
    (c : Nat) : Option (Resolved Value) :=
  (combinations self.value.entries)[c]?.bind (·.lookup key)

/-- The lengths of arguments, the last one first. -/
def fastFirst (arguments : List (String × Literal Value)) : List Nat :=
  (arguments.map (·.2.length)).reverse

/-- The place of an argument that `after` follows. -/
def placeOf (argument : Literal Value) (after : List (String × Literal Value)) : Nat × Nat :=
  ((fastFirst after).prod, argument.length)

section
variable {before after arguments : List (String × Literal Value)} {key : String}
  {argument : Literal Value}

theorem fastFirst_cons (e : String × Literal Value) :
    fastFirst (e :: arguments) = fastFirst arguments ++ [e.2.length] := by
  simp [fastFirst]

theorem prod_fastFirst_cons (e : String × Literal Value) :
    (fastFirst (e :: arguments)).prod = (fastFirst arguments).prod * e.2.length := by
  rw [fastFirst_cons, List.prod_append, List.prod_singleton]

theorem prod_fastFirst_split : (fastFirst (before ++ (key, argument) :: after)).prod =
    (fastFirst after).prod * (argument.length * (fastFirst before).prod) := by
  simp [fastFirst]

theorem mem_places_fastFirst {p : Nat × Nat} : p ∈ Radix.places 1 (fastFirst arguments) ↔
    ∃ before key argument after,
      arguments = before ++ (key, argument) :: after ∧ p = placeOf argument after := by
  rw [Radix.mem_places]
  constructor
  · rintro ⟨pre, post, hsplit, hw⟩
    have hrev : arguments.map (·.2.length) = post.reverse ++ p.2 :: pre.reverse := by
      rw [← List.reverse_reverse (arguments.map _)]
      show (fastFirst arguments).reverse = _
      simp [hsplit]
    obtain ⟨before, rest, rfl, hbefore, hrest⟩ := List.map_eq_append_iff.mp hrev
    obtain ⟨⟨key, argument⟩, after, rfl, hlen, hafter⟩ := List.map_eq_cons_iff.mp hrest
    refine ⟨before, key, argument, after, rfl, Prod.ext ?_ hlen.symm⟩
    rw [hw, Nat.one_mul, placeOf, fastFirst, hafter, List.reverse_reverse]
  · rintro ⟨before, key, argument, after, rfl, rfl⟩
    refine ⟨fastFirst after, fastFirst before, ?_, (Nat.one_mul _).symm⟩
    simp [fastFirst, placeOf]

theorem length_combinations : (combinations arguments).length = (fastFirst arguments).prod := by
  induction arguments with
  | nil => simp [combinations, fastFirst]
  | cons e arguments ih =>
    obtain ⟨key, argument⟩ := e
    rw [prod_fastFirst_cons, combinations, List.length_flatMap]
    simp only [List.length_map, ih, List.map_const', List.sum_replicate_nat,
      Literal.length_items]
    exact Nat.mul_comm _ _

/-- **A combination holds, for each argument, what the place of the argument reads.** -/
theorem lookup_combinations (hkey : key ∉ before.map Prod.fst) {c : Nat}
    (hc : c < (fastFirst (before ++ (key, argument) :: after)).prod) :
    (combinations (before ++ (key, argument) :: after))[c]?.bind (·.lookup key) =
      argument.items[Radix.digit (placeOf argument after) c]? := by
  induction before generalizing c with
  | nil =>
    rw [List.nil_append, prod_fastFirst_cons] at hc
    have hpos : 0 < (fastFirst after).prod := Nat.pos_of_mul_pos_right (Nat.zero_lt_of_lt hc)
    have hdiv : c / (fastFirst after).prod < argument.length := by
      apply Nat.div_lt_of_lt_mul hc
    have hmod : c % (fastFirst after).prod < (combinations after).length := by
      rw [length_combinations]
      exact Nat.mod_lt _ hpos
    rw [List.nil_append, combinations,
      getElem?_flatMap_map _ _ _ _ (by rwa [length_combinations]),
      length_combinations]
    show _ = argument.items[c / (fastFirst after).prod % argument.length]?
    rw [Nat.mod_eq_of_lt hdiv, List.getElem?_eq_getElem hmod]
    cases argument.items[c / (fastFirst after).prod]? <;> simp
  | cons e before ih =>
    obtain ⟨key', argument'⟩ := e
    rw [List.map_cons, List.mem_cons, not_or] at hkey
    rw [List.cons_append, prod_fastFirst_cons] at hc
    generalize hrest : before ++ (key, argument) :: after = rest at *
    have hpos : 0 < (fastFirst rest).prod := Nat.pos_of_mul_pos_right (Nat.zero_lt_of_lt hc)
    have hdiv : c / (fastFirst rest).prod < argument'.items.length := by
      rw [Literal.length_items]
      exact Nat.div_lt_of_lt_mul hc
    have hplace : placeOf argument after ∈ Radix.places 1 (fastFirst rest) :=
      mem_places_fastFirst.mpr ⟨before, key, argument, after, hrest.symm, rfl⟩
    have hih := ih hkey.2 (Nat.mod_lt c hpos)
    rw [Radix.digit_mod_prod hplace] at hih
    rw [List.cons_append, hrest, combinations,
      getElem?_flatMap_map _ _ _ _ (by rwa [length_combinations]),
      length_combinations, List.getElem?_eq_getElem hdiv, ← hih]
    have hne : (key == key') = false := by simpa using hkey.1
    cases (combinations rest)[c % (fastFirst rest).prod]? <;> simp [List.lookup_cons, hne]

end

/-! ## What `resolve` reads -/

namespace DictOfListsExpandInput

/-- The walk reads the place of the argument off the index it is started with. -/
theorem findIndexForThisField_eq {key : String} {n : Nat} {pre post : List (String × Nat)}
    (hkey : key ∉ pre.map Prod.fst) (hpre : ∀ e ∈ pre, 0 < e.2) (hn : 0 < n) (index : Nat) :
    findIndexForThisField key (pre ++ (key, n) :: post) index =
      .ok (some (Radix.digit ((pre.map Prod.snd).prod, n) index)) := by
  induction pre generalizing index with
  | nil => simp [findIndexForThisField, Radix.digit, Nat.not_lt.mpr hn]
  | cons e pre ih =>
    obtain ⟨mappedKey, mappedLength⟩ := e
    rw [List.map_cons, List.mem_cons, not_or] at hkey
    rw [List.forall_mem_cons] at hpre
    rw [List.cons_append, findIndexForThisField, if_neg (Nat.not_lt.mpr hpre.1),
      if_neg (Ne.symm hkey.1), ih hkey.2 hpre.2]
    simp only [Radix.digit, List.map_cons, List.prod_cons, Nat.div_div_eq_div_mul]

variable {self : DictOfListsExpandInput Value}

theorem getTotalMapLength_eq (h : self.value.entries ≠ []) :
    self.getTotalMapLength = (fastFirst self.value.entries).prod := by
  rw [getTotalMapLength, if_neg h, fastFirst, List.prod_reverse, List.prod_eq_foldl, getMapLengths,
    List.map_map]
  rfl

theorem length_pos (h : 0 < self.getTotalMapLength) :
    ∀ e ∈ self.value.entries, 0 < e.2.length := by
  intro e he
  rw [getTotalMapLength_eq (List.ne_nil_of_mem he), fastFirst, List.prod_reverse,
    List.prod_pos_iff_forall_pos_nat] at h
  apply h
  exact List.mem_map_of_mem he

variable {before after : List (String × Literal Value)} {key : String} {argument : Literal Value}

theorem key_not_mem (hsplit : self.value.entries = before ++ (key, argument) :: after) :
    key ∉ before.map Prod.fst ∧ key ∉ after.map Prod.fst := by
  have hnodup := self.value.keys_nodup
  rw [hsplit, List.map_append, List.map_cons, List.nodup_append, List.nodup_cons] at hnodup
  obtain ⟨-, ⟨hafter, -⟩, hbefore⟩ := hnodup
  exact ⟨fun hk => hbefore _ hk _ List.mem_cons_self rfl, hafter⟩

theorem getTotalMapLength_split (hsplit : self.value.entries = before ++ (key, argument) :: after) :
    self.getTotalMapLength = (fastFirst (before ++ (key, argument) :: after)).prod := by
  rw [← hsplit]
  apply getTotalMapLength_eq
  simp [hsplit]

theorem placeOf_mem (hsplit : self.value.entries = before ++ (key, argument) :: after) :
    placeOf argument after ∈ Radix.places 1 (fastFirst self.value.entries) :=
  mem_places_fastFirst.mpr ⟨before, key, argument, after, hsplit, rfl⟩

/-- The argument of an instance, and of no later one: the index is taken modulo the length. -/
theorem argumentAt_mod (hsplit : self.value.entries = before ++ (key, argument) :: after)
    (hpos : 0 < self.getTotalMapLength) (c : Nat) :
    self.argumentAt key (c % self.getTotalMapLength) =
      argument.items[Radix.digit (placeOf argument after) c]? := by
  have hlt := Nat.mod_lt c hpos
  rw [getTotalMapLength_split hsplit] at hlt ⊢
  rw [argumentAt, hsplit, lookup_combinations (key_not_mem hsplit).1 hlt]
  rw [Radix.digit_mod_prod (hsplit ▸ placeOf_mem hsplit)]

theorem digit_lt (after : List (String × Literal Value)) (hpos : 0 < argument.length) (c : Nat) :
    Radix.digit (placeOf argument after) c < argument.items.length := by
  rw [Literal.length_items]
  exact Nat.mod_lt _ hpos

/-- An argument is expanded to what its place reads off the whole `map_index`. -/
theorem expandMappedField_eq (hsplit : self.value.entries = before ++ (key, argument) :: after)
    (hpos : 0 < self.getTotalMapLength) (i : Nat) : ∃ v,
      self.expandMappedField key argument i = .ok v ∧
        argument.items[Radix.digit (placeOf argument after) i]? = some v := by
  have hlen := length_pos hpos
  rw [hsplit] at hlen
  have hargument : 0 < argument.length := hlen (key, argument) (by simp)
  have hlt := digit_lt after hargument i
  refine ⟨_, ?_, List.getElem?_eq_getElem hlt⟩
  have hrev : self.getMapLengths.reverse =
      (after.map fun e => (e.1, e.2.length)).reverse ++
        (key, argument.length) :: (before.map fun e => (e.1, e.2.length)).reverse := by
    simp [getMapLengths, hsplit]
  have hkey : key ∉ ((after.map fun e => (e.1, e.2.length)).reverse).map Prod.fst := by
    have := (key_not_mem hsplit).2
    simpa using this
  have hpre : ∀ e ∈ (after.map fun e => (e.1, e.2.length)).reverse, 0 < e.2 := by
    intro e he
    rw [List.mem_reverse, List.mem_map] at he
    obtain ⟨e', he', rfl⟩ := he
    exact hlen e' (by simp [he'])
  have hplace : (((after.map fun e => (e.1, e.2.length)).reverse).map Prod.snd).prod =
      (fastFirst after).prod := by
    simp [fastFirst, Function.comp_def]
  rw [expandMappedField, if_neg (by omega), hrev, Int.toNat_natCast,
    findIndexForThisField_eq hkey hpre hargument, hplace]
  have hget : argument.items[Radix.digit ((fastFirst after).prod, argument.length) i]? =
      some argument.items[Radix.digit (placeOf argument after) i] :=
    List.getElem?_eq_getElem hlt
  simp only [hget]

end DictOfListsExpandInput

theorem lookup_mapM {α β ε : Type} {f : String × α → Except ε β} {entries : List (String × α)}
    {data : List (String × β)} (hdata : entries.mapM (fun e => (e.1, ·) <$> f e) = .ok data)
    {key : String} {a : α} {b : β} (hnodup : (entries.map Prod.fst).Nodup)
    (hmem : (key, a) ∈ entries) (hb : f (key, a) = .ok b) : data.lookup key = some b := by
  have hall := Traced.mapM_eq_ok.mp hdata
  clear hdata
  induction hall with
  | nil => simp at hmem
  | @cons e d entries data he hrest ih =>
    obtain ⟨v, hv, rfl⟩ := Traced.map_eq_ok.mp he
    rw [List.map_cons, List.nodup_cons] at hnodup
    rcases List.mem_cons.mp hmem with rfl | hmem
    · rw [hb] at hv
      cases hv
      simp
    · have hne : (key == e.1) = false := by
        rw [beq_eq_false_iff_ne]
        intro heq
        exact hnodup.1 (heq ▸ List.mem_map_of_mem hmem)
      rw [List.lookup_cons, hne]
      exact ih hnodup.2 hmem

/-- **`resolve` reads the place of the argument off the whole `map_index`.** -/
theorem resolve_eq {input : DictOfListsExpandInput Value}
    {before after : List (String × Literal Value)} {key : String} {argument : Literal Value}
    (hsplit : input.value.entries = before ++ (key, argument) :: after)
    (hpos : 0 < input.getTotalMapLength) (i : Nat) : ∃ v,
      MappedArgument.resolve ⟨input, key⟩ i = .ok v ∧
        argument.items[Radix.digit (placeOf argument after) i]? = some v := by
  obtain ⟨v, hv, hitem⟩ := DictOfListsExpandInput.expandMappedField_eq hsplit hpos i
  have hsome : ∃ data, input.resolve i = .ok data := by
    apply Traced.exists_mapM_eq_ok.mpr
    intro e he
    obtain ⟨before', after', hsplit'⟩ := List.mem_iff_append.mp he
    obtain ⟨v', hv', -⟩ := DictOfListsExpandInput.expandMappedField_eq hsplit' hpos i
    exact ⟨_, Traced.map_eq_ok.mpr ⟨v', hv', rfl⟩⟩
  obtain ⟨data, hdata⟩ := hsome
  have hlookup : data.lookup key = some v := by
    apply lookup_mapM hdata input.value.keys_nodup _ hv
    simp [hsplit]
  refine ⟨v, ?_, hitem⟩
  rw [MappedArgument.resolve, hdata]
  simp only [hlookup, Option.elim_some]

/-! ## The instances of a task -/

/-- The instances that the groups closer to the task than a given one make of one instance. -/
def innerCount (inner : List (MappedTaskGroup Value)) : Nat := (inner.map (·.mapLength)).prod

/-- The arguments of all groups around the task, as an instance resolves them. -/
def Operator.resolvedArguments (task : Operator Value) (i : Nat) :
    List (List (Except ExpandError (Resolved Value))) :=
  task.iterMappedTaskGroups.map fun g =>
    g.expandInput.value.keys.map fun key => MappedArgument.resolve ⟨g.expandInput, key⟩ i

/-- At every level, an instance resolves the arguments of its ancestor there, which is also the
one whose upstream instances it depends on. -/
def ResolvesAncestors (task : Operator Value) : Prop :=
  ∀ tiCount i, task.getMappedTiCount = some tiCount → i < tiCount →
    ∀ inner g outer, task.iterMappedTaskGroups = inner ++ g :: outer →
      (∀ key ∈ g.expandInput.value.keys, ∃ v,
        MappedArgument.resolve ⟨g.expandInput, key⟩ i = .ok v ∧
        g.expandInput.argumentAt key (i / innerCount inner % g.mapLength) = some v) ∧
      ∀ upstream, findCommonAncestorMappedGroup task upstream = some g →
        getRelevantUpstreamMapIndexes task i upstream (some tiCount) = .ok (
          if isFurtherMappedInside upstream g then
            .range ((i / innerCount inner * innerCount inner : Nat))
              ((i / innerCount inner * innerCount inner + innerCount inner : Nat))
          else .index ((i / innerCount inner : Nat)))

/-- No two instances resolve the same arguments, if no argument repeats an element. -/
def DistinguishesInstances (task : Operator Value) : Prop :=
  (∀ g ∈ task.iterMappedTaskGroups, ∀ e ∈ g.expandInput.value.entries, e.2.items.Nodup) →
    ∀ tiCount i j, task.getMappedTiCount = some tiCount → i < tiCount → j < tiCount →
      task.resolvedArguments i = task.resolvedArguments j → i = j

/-- All elements of an argument are the same. -/
def Literal.Constant (argument : Literal Value) : Prop :=
  ∀ x ∈ argument.items, ∀ y ∈ argument.items, x = y

/-- Nothing that varies has anything that is expanded nested inside, or there are no instances. -/
def VariesOnlyInside (task : Operator Value) : Prop :=
  task.getMappedTiCount = some 0 ∨
    ∀ inner g outer, task.iterMappedTaskGroups = inner ++ g :: outer →
      innerCount inner = 1 ∨ ∀ e ∈ g.expandInput.value.entries, e.2.Constant

section
variable {task : Operator Value} {inner outer : List (MappedTaskGroup Value)}
  {g : MappedTaskGroup Value} {tiCount : Nat}

theorem foldl_mul (l : List Nat) (n : Nat) : l.foldl (· * ·) n = n * l.prod := by
  induction l generalizing n with
  | nil => simp
  | cons m l ih => rw [List.foldl_cons, ih, List.prod_cons, Nat.mul_assoc]

theorem getMappedTiCount_group : g.getMappedTiCount = innerCount g.iterMappedTaskGroups := by
  rw [MappedTaskGroup.getMappedTiCount, foldl_mul, innerCount,
    MappedTaskGroup.iterMappedTaskGroups, List.map_cons, List.prod_cons]

theorem innerCount_append (inner outer : List (MappedTaskGroup Value)) :
    innerCount (inner ++ outer) = innerCount inner * innerCount outer := by
  rw [innerCount, List.map_append, List.prod_append]
  rfl

/-- The mapped groups around a mapped group are those after it. -/
theorem iterMappedTaskGroups_suffix {group : TaskGroup Value}
    (h : group.iterMappedTaskGroups = inner ++ g :: outer) :
    g.iterMappedTaskGroups = g :: outer := by
  induction group generalizing inner with
  | root => simp [TaskGroup.iterMappedTaskGroups] at h
  | child groupId expandInput parentGroup ih =>
    cases expandInput with
    | none => exact ih h
    | some expandInput =>
      rw [TaskGroup.iterMappedTaskGroups] at h
      cases inner with
      | nil =>
        obtain ⟨rfl, hrest⟩ := List.cons.inj h
        rw [MappedTaskGroup.iterMappedTaskGroups, hrest]
      | cons g' inner => exact ih (List.cons.inj h).2

theorem getMappedTiCount_eq (h : task.iterMappedTaskGroups ≠ []) :
    task.getMappedTiCount = some (innerCount task.iterMappedTaskGroups) := by
  have hnone : task.expandInput = none := by
    rw [← Option.not_isSome_iff_eq_none]
    exact fun hsome => h (task.notInMappedGroup hsome)
  obtain ⟨g, outer, hlevels⟩ := List.exists_cons_of_ne_nil h
  have hsplit : task.taskGroup.iterMappedTaskGroups = [] ++ g :: outer := hlevels
  have hgroup := iterMappedTaskGroups_suffix hsplit
  simp only [Operator.getMappedTiCount, hnone, hlevels, List.head?_cons, Option.map_some,
    getMappedTiCount_group, hgroup]

/-- **The upstream instances are those of the ancestor in the group.** -/
theorem relevantUpstream_eq (hsplit : task.iterMappedTaskGroups = inner ++ g :: outer)
    (hcount : task.getMappedTiCount = some tiCount) (hpos : 0 < tiCount) (i : Nat)
    {upstream : Operator Value} (hcommon : findCommonAncestorMappedGroup task upstream = some g) :
    getRelevantUpstreamMapIndexes task i upstream (some tiCount) = .ok (
      if isFurtherMappedInside upstream g then
        .range ((i / innerCount inner * innerCount inner : Nat))
          ((i / innerCount inner * innerCount inner + innerCount inner : Nat))
      else .index ((i / innerCount inner : Nat))) := by
  rw [getMappedTiCount_eq (by simp [hsplit]), hsplit, innerCount_append, Option.some_inj] at hcount
  have hgroup : g.getMappedTiCount = innerCount (g :: outer) := by
    rw [getMappedTiCount_group, iterMappedTaskGroups_suffix hsplit]
  have hancestor : 0 < innerCount (g :: outer) := by
    apply Nat.pos_of_mul_pos_left (a := innerCount inner)
    omega
  have hindex : (i : Int) * (innerCount (g :: outer) : Nat) / (tiCount : Nat) =
      (i / innerCount inner : Nat) := by
    rw [← hcount]
    exact_mod_cast Nat.mul_div_mul_right i (innerCount inner) hancestor
  have hfurther : tiCount / innerCount (g :: outer) = innerCount inner := by
    rw [← hcount, Nat.mul_div_cancel _ hancestor]
  simp only [getRelevantUpstreamMapIndexes, Option.getD_some, if_neg (Nat.ne_of_gt hpos), hcommon,
    hgroup, hindex, hfurther, if_neg (Nat.ne_of_gt hancestor)]
  cases isFurtherMappedInside upstream g <;> simp

/-- Where there are instances, each group around the task has some. -/
theorem mapLength_pos (hsplit : task.iterMappedTaskGroups = inner ++ g :: outer)
    (hcount : task.getMappedTiCount = some tiCount) (hpos : 0 < tiCount) : 0 < g.mapLength := by
  rw [getMappedTiCount_eq (by simp [hsplit]), Option.some_inj] at hcount
  rw [← hcount, innerCount, List.prod_pos_iff_forall_pos_nat] at hpos
  apply hpos
  apply List.mem_map_of_mem
  simp [hsplit]

theorem innerCount_pos (hsplit : task.iterMappedTaskGroups = inner ++ g :: outer)
    (hcount : task.getMappedTiCount = some tiCount) (hpos : 0 < tiCount) :
    0 < innerCount inner := by
  rw [getMappedTiCount_eq (by simp [hsplit]), hsplit, innerCount_append, Option.some_inj] at hcount
  exact Nat.pos_of_mul_pos_right (hcount ▸ hpos)

theorem mapLength_mul_innerCount_le (hsplit : task.iterMappedTaskGroups = inner ++ g :: outer)
    (hcount : task.getMappedTiCount = some tiCount) (hpos : 0 < tiCount) :
    g.mapLength ≤ tiCount := by
  rw [getMappedTiCount_eq (by simp [hsplit]), Option.some_inj] at hcount
  apply Nat.le_of_dvd hpos
  rw [← hcount, hsplit, innerCount_append]
  apply Nat.dvd_mul_left_of_dvd
  exact ⟨innerCount outer, by simp [innerCount]⟩

end

/-- Elements that are all like an earlier one are like the first one. -/
theorem getElem?_eq_first {α : Type} {items : List α} {m : Nat} (hm : 1 < m)
    (h : ∀ k < items.length, items[k]? = items[k / m]?) :
    ∀ k < items.length, items[k]? = items[0]? := by
  intro k
  induction k using Nat.strongRecOn with
  | ind k ih =>
    intro hk
    rcases Nat.eq_zero_or_pos k with rfl | hpos
    · rfl
    · have hlt : k / m < k := Nat.div_lt_self hpos hm
      rw [h k hk]
      exact ih _ hlt (by omega)

theorem Literal.Constant.of_getElem? {argument : Literal Value}
    (h : ∀ k < argument.items.length, argument.items[k]? = argument.items[0]?) :
    argument.Constant := by
  have hfirst : ∀ x ∈ argument.items, argument.items[0]? = some x := by
    intro x hx
    obtain ⟨k, hk, rfl⟩ := List.mem_iff_getElem.mp hx
    rw [← h k hk, List.getElem?_eq_getElem hk]
  intro x hx y hy
  exact Option.some_inj.mp ((hfirst x hx).symm.trans (hfirst y hy))

theorem Literal.Constant.getElem?_eq {argument : Literal Value} (h : argument.Constant) {k k' : Nat}
    (hk : k < argument.items.length) (hk' : k' < argument.items.length) :
    argument.items[k]? = argument.items[k']? := by
  rw [List.getElem?_eq_getElem hk, List.getElem?_eq_getElem hk', Option.some_inj]
  exact h _ (List.getElem_mem hk) _ (List.getElem_mem hk')

section
variable {task : Operator Value} (hlevels : task.iterMappedTaskGroups ≠ [])
include hlevels

theorem ResolvesAncestors.variesOnlyInside (h : ResolvesAncestors task) :
    VariesOnlyInside task := by
  have hcount := getMappedTiCount_eq hlevels
  rcases Nat.eq_zero_or_pos (innerCount task.iterMappedTaskGroups) with hzero | hpos
  · exact .inl (hzero ▸ hcount)
  refine .inr fun inner g outer hsplit => ?_
  rcases Nat.lt_or_ge 1 (innerCount inner) with hm | hm
  · right
    intro e he
    obtain ⟨before, after, hentries⟩ := List.mem_iff_append.mp he
    have hlen := mapLength_pos hsplit hcount hpos
    have hle := mapLength_mul_innerCount_le hsplit hcount hpos
    have htotal : g.mapLength =
        (fastFirst after).prod * (e.2.length * (fastFirst before).prod) := by
      rw [MappedTaskGroup.mapLength, DictOfListsExpandInput.getTotalMapLength_split hentries,
        prod_fastFirst_split]
    have hw : 0 < (fastFirst after).prod := Nat.pos_of_mul_pos_right (htotal ▸ hlen)
    have hbefore : 0 < e.2.length * (fastFirst before).prod :=
      Nat.pos_of_mul_pos_left (htotal ▸ hlen)
    apply Literal.Constant.of_getElem?
    apply getElem?_eq_first hm
    intro k hk
    -- the instance whose argument, read off the whole index, is the element `k`
    have hi : (fastFirst after).prod * k < innerCount task.iterMappedTaskGroups := by
      apply Nat.lt_of_lt_of_le _ (htotal ▸ hle)
      apply Nat.mul_lt_mul_of_pos_left _ hw
      rw [Literal.length_items] at hk
      exact Nat.lt_of_lt_of_le hk (Nat.le_mul_of_pos_right _ (Nat.pos_of_mul_pos_left hbefore))
    obtain ⟨hargs, -⟩ := h _ _ hcount hi inner g outer hsplit
    obtain ⟨v, hv, hdigit⟩ := hargs e.1 (List.mem_map_of_mem he)
    obtain ⟨v', hv', hitem⟩ := resolve_eq hentries hlen ((fastFirst after).prod * k)
    rw [hv] at hv'
    cases hv'
    rw [MappedTaskGroup.mapLength, DictOfListsExpandInput.argumentAt_mod hentries hlen, ← hitem]
      at hdigit
    have hk' : k < e.2.length := Literal.length_items e.2 ▸ hk
    have hread : Radix.digit (placeOf e.2 after) ((fastFirst after).prod * k) = k := by
      show (fastFirst after).prod * k / (fastFirst after).prod % e.2.length = k
      rw [Nat.mul_div_cancel_left k hw, Nat.mod_eq_of_lt hk']
    have hread' : Radix.digit (placeOf e.2 after)
        ((fastFirst after).prod * k / innerCount inner) = k / innerCount inner := by
      show (fastFirst after).prod * k / innerCount inner / (fastFirst after).prod % e.2.length = _
      rw [Nat.div_div_eq_div_mul, Nat.mul_comm (innerCount inner), ← Nat.div_div_eq_div_mul,
        Nat.mul_div_cancel_left k hw]
      exact Nat.mod_eq_of_lt (Nat.lt_of_le_of_lt (Nat.div_le_self _ _) hk')
    rw [hread, hread'] at hdigit
    exact hdigit.symm
  · left
    have := innerCount_pos hsplit hcount hpos
    omega

omit hlevels in
theorem VariesOnlyInside.resolvesAncestors (h : VariesOnlyInside task) :
    ResolvesAncestors task := by
  intro tiCount i hcount hi inner g outer hsplit
  have hpos : 0 < tiCount := Nat.zero_lt_of_lt hi
  have hlen := mapLength_pos hsplit hcount hpos
  refine ⟨fun key hkey => ?_, fun upstream hcommon =>
    relevantUpstream_eq hsplit hcount hpos i hcommon⟩
  obtain ⟨e, he, rfl⟩ := List.mem_map.mp hkey
  obtain ⟨before, after, hentries⟩ := List.mem_iff_append.mp he
  obtain ⟨v, hv, hitem⟩ := resolve_eq hentries hlen i
  refine ⟨v, hv, ?_⟩
  rw [MappedTaskGroup.mapLength, DictOfListsExpandInput.argumentAt_mod hentries hlen, ← hitem]
  have hargument := DictOfListsExpandInput.length_pos hlen e he
  rcases h with hzero | h
  · rw [hcount, Option.some_inj] at hzero
    omega
  rcases h inner g outer hsplit with hinner | hconstant
  · rw [hinner, Nat.div_one]
  · exact (hconstant e he).getElem?_eq (DictOfListsExpandInput.digit_lt after hargument _)
      (DictOfListsExpandInput.digit_lt after hargument _)

omit hlevels in
/-- Instances that resolve the same distinct elements at a level have the same ancestor there. -/
theorem ancestor_eq (h : ResolvesAncestors task) {tiCount i j : Nat}
    (hcount : task.getMappedTiCount = some tiCount) (hi : i < tiCount) (hj : j < tiCount)
    {inner outer : List (MappedTaskGroup Value)} {g : MappedTaskGroup Value}
    (hsplit : task.iterMappedTaskGroups = inner ++ g :: outer)
    (hnodup : ∀ e ∈ g.expandInput.value.entries, e.2.items.Nodup)
    (hsame : ∀ key ∈ g.expandInput.value.keys,
      MappedArgument.resolve ⟨g.expandInput, key⟩ i =
        MappedArgument.resolve ⟨g.expandInput, key⟩ j) :
    i / innerCount inner % g.mapLength = j / innerCount inner % g.mapLength := by
  have hlen := mapLength_pos hsplit hcount (Nat.zero_lt_of_lt hi)
  have hne : g.expandInput.value.entries ≠ [] := by
    intro hnil
    simp [MappedTaskGroup.mapLength, DictOfListsExpandInput.getTotalMapLength, hnil] at hlen
  have htotal := DictOfListsExpandInput.getTotalMapLength_eq hne
  rw [MappedTaskGroup.mapLength, htotal]
  apply Radix.mod_eq_of_digits
  intro p hp
  obtain ⟨before, key, argument, after, hentries, rfl⟩ := mem_places_fastFirst.mp hp
  have he : (key, argument) ∈ g.expandInput.value.entries := by simp [hentries]
  have hargument : 0 < argument.length := DictOfListsExpandInput.length_pos hlen _ he
  have hkey : key ∈ g.expandInput.value.keys := List.mem_map_of_mem he
  obtain ⟨v, hv, hdigit⟩ := (h _ _ hcount hi inner g outer hsplit).1 key hkey
  obtain ⟨v', hv', hdigit'⟩ := (h _ _ hcount hj inner g outer hsplit).1 key hkey
  have hvv : v = v' := by
    have := hsame key hkey
    rw [hv, hv'] at this
    exact Except.ok.inj this
  rw [MappedTaskGroup.mapLength, DictOfListsExpandInput.argumentAt_mod hentries hlen]
    at hdigit hdigit'
  rw [← hvv, ← hdigit] at hdigit'
  apply (List.getElem?_inj (DictOfListsExpandInput.digit_lt after hargument _) (hnodup _ he)).mp
  exact hdigit'.symm

theorem ResolvesAncestors.distinguishesInstances (h : ResolvesAncestors task) :
    DistinguishesInstances task := by
  intro hnodup tiCount i j hcount hi hj hsame
  have hprod := hcount
  rw [getMappedTiCount_eq hlevels, Option.some_inj, innerCount] at hprod
  apply Radix.eq_of_digits (hprod ▸ hi) (hprod ▸ hj)
  intro p hp
  obtain ⟨pre, post, hsplit, hw⟩ := Radix.mem_places.mp hp
  obtain ⟨inner, rest, hlevels', rfl, hrest⟩ := List.map_eq_append_iff.mp hsplit
  obtain ⟨g, outer, rfl, hg, -⟩ := List.map_eq_cons_iff.mp hrest
  have hmem : g ∈ task.iterMappedTaskGroups := by simp [hlevels']
  have hgroup := List.map_inj_left.mp hsame g hmem
  rw [Radix.digit, Radix.digit, hw, ← hg, Nat.one_mul]
  exact ancestor_eq h hcount hi hj hlevels' (hnodup g hmem) (List.map_inj_left.mp hgroup)

/-- **The two computations decode one combination exactly where nothing varies outside something
that is expanded.** -/
theorem decodesNested_iff :
    ResolvesAncestors task ∧ DistinguishesInstances task ↔ VariesOnlyInside task := by
  constructor
  · exact fun h => ResolvesAncestors.variesOnlyInside hlevels h.1
  · intro h
    have hresolves := VariesOnlyInside.resolvesAncestors h
    exact ⟨hresolves, ResolvesAncestors.distinguishesInstances hlevels hresolves⟩

end

/-! ## Two levels -/

/-- The one argument `x`, a sequence. -/
def overSequence (values : List Nat) : DictOfListsExpandInput Nat :=
  ⟨⟨[("x", .sequence values)], by simp⟩⟩

/-- A group mapped over one sequence. -/
def mappedOver (groupId : String) (values : List Nat) (parentGroup : TaskGroup Nat) :
    TaskGroup Nat :=
  .child groupId (some (overSequence values)) parentGroup

/-- A task in a group mapped over `inner`, in a group mapped over `outer`. -/
def twoLevels (outer inner : List Nat) : Operator Nat where
  taskId := "outer.inner.task"
  dagId := some "dag"
  taskGroup := mappedOver "outer.inner" inner (mappedOver "outer" outer .root)
  expandInput := none
  notInMappedGroup := by simp

/-- Of two by two instances, the second one is in the first instance of the outer group and
resolves the argument of the second one. -/
theorem twoByTwo_not_decoded :
    ¬ (ResolvesAncestors (twoLevels [10, 20] [1, 2]) ∧
      DistinguishesInstances (twoLevels [10, 20] [1, 2])) := by
  rintro ⟨h, -⟩
  obtain ⟨hargs, -⟩ := h 4 1 rfl (by decide) [_] _ [] rfl
  obtain ⟨v, hv, hdigit⟩ := hargs "x" (by decide)
  have hresolved : MappedArgument.resolve ⟨overSequence [10, 20], "x"⟩ (1 : Nat) =
      .ok (.value 20) := rfl
  cases hresolved.symm.trans hv
  cases hdigit

/-- An outer group of one instance does no harm. -/
theorem oneByThree_decoded :
    ResolvesAncestors (twoLevels [10] [1, 2, 3]) ∧
      DistinguishesInstances (twoLevels [10] [1, 2, 3]) := by
  have hlevels : (twoLevels [10] [1, 2, 3]).iterMappedTaskGroups ≠ [] := by
    simp [twoLevels, mappedOver, Operator.iterMappedTaskGroups, TaskGroup.iterMappedTaskGroups]
  apply (decodesNested_iff hlevels).mpr
  refine .inr fun inner g outer hsplit => ?_
  cases inner with
  | nil => exact .inl rfl
  | cons g' inner =>
    obtain ⟨-, hsplit⟩ := List.cons.inj hsplit
    cases inner with
    | nil =>
      obtain ⟨rfl, -⟩ := List.cons.inj hsplit
      right
      simp [overSequence, Literal.Constant, Literal.items]
    | cons g'' inner =>
      have hnil := (List.cons.inj hsplit).2
      simp [TaskGroup.iterMappedTaskGroups] at hnil

end Airflow.Mapping
