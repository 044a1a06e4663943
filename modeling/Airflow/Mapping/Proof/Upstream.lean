import Airflow.Mapping.Proof.Decode

/-!
# The upstream instances in the same instance of a common group

An instance of a task in a mapped group lies in one instance of the group (`instanceOf`).
`get_relevant_upstream_map_indexes` finds the instance of the common group, and then takes the
upstream to be expanded inside it as often as the task itself is. What it returns is exact if the
upstream is not expanded inside, or as often as the task (`selectsSameInstance_iff`).
-/

namespace Airflow.Mapping

variable {Value : Type}

/-! ## Groups with one name each -/

/-- A group and the groups around it, with their ids. -/
def TaskGroup.groups : TaskGroup Value → List (String × TaskGroup Value)
  | .root => []
  | .child groupId expandInput parentGroup =>
    (groupId, .child groupId expandInput parentGroup) :: parentGroup.groups

/-- A DAG has one group of an id (`DuplicateTaskIdFound`). -/
def UniquelyNamed (groups : List (String × TaskGroup Value)) : Prop :=
  ∀ p ∈ groups, ∀ q ∈ groups, p.1 = q.1 → p = q

theorem UniquelyNamed.of_subset {groups groups' : List (String × TaskGroup Value)}
    (h : UniquelyNamed groups) (hsub : groups' ⊆ groups) : UniquelyNamed groups' :=
  fun p hp q hq => h p (hsub hp) q (hsub hq)

/-- A mapped group as a group. -/
def MappedTaskGroup.toGroup (self : MappedTaskGroup Value) : String × TaskGroup Value :=
  (self.groupId, .child self.groupId (some self.expandInput) self.parentGroup)

theorem MappedTaskGroup.toGroup_inj {g h : MappedTaskGroup Value} (heq : g.toGroup = h.toGroup) :
    g = h := by
  simp only [toGroup, Prod.mk.injEq, TaskGroup.child.injEq, Option.some.injEq] at heq
  obtain ⟨hid, -, hinput, hparent⟩ := heq
  cases g
  cases h
  simp_all

theorem toGroup_mem {group : TaskGroup Value} {g : MappedTaskGroup Value}
    (hg : g ∈ group.iterMappedTaskGroups) : g.toGroup ∈ group.groups := by
  induction group with
  | root => cases hg
  | child groupId expandInput parentGroup ih =>
    cases expandInput with
    | none => exact List.mem_cons_of_mem _ (ih hg)
    | some expandInput =>
      rcases List.mem_cons.mp hg with rfl | hg
      · exact List.mem_cons_self
      · exact List.mem_cons_of_mem _ (ih hg)

theorem UniquelyNamed.eq_of_groupId {groups : List (String × TaskGroup Value)}
    (h : UniquelyNamed groups) {g g' : MappedTaskGroup Value} (hg : g.toGroup ∈ groups)
    (hg' : g'.toGroup ∈ groups) (hid : g.groupId = g'.groupId) : g = g' :=
  MappedTaskGroup.toGroup_inj (h _ hg _ hg' hid)

/-! ## The groups inside a container -/

/-- The mapped groups around a task that are inside the container. -/
def Operator.mappedInside (self : Operator Value) (container : MappedTaskGroup Value) :
    List (MappedTaskGroup Value) :=
  self.iterMappedTaskGroups.takeWhile (·.groupId ≠ container.groupId)

/-- The instances of a task in one instance of the container. -/
def Operator.furtherCount (self : Operator Value) (container : MappedTaskGroup Value) : Nat :=
  innerCount (self.mappedInside container)

/-- The instance of the container in which the instance `i` of the task lies. -/
def Operator.instanceOf (self : Operator Value) (container : MappedTaskGroup Value) (i : Nat) :
    Nat :=
  i / self.furtherCount container

/-- A task is in the groups inside a container around it, in the container, and in the groups
around that. -/
theorem mappedInside_append {op : Operator Value} (hnamed : UniquelyNamed op.taskGroup.groups)
    {g : MappedTaskGroup Value} (hg : g ∈ op.iterMappedTaskGroups) :
    op.iterMappedTaskGroups = op.mappedInside g ++ g.iterMappedTaskGroups := by
  obtain ⟨inner, outer, hsplit⟩ := List.mem_iff_append.mp hg
  have hsuffix : g.iterMappedTaskGroups = g :: outer := iterMappedTaskGroups_suffix hsplit
  have hinner : ∀ h ∈ inner, h.groupId ≠ g.groupId := by
    intro h hh hid
    have hmem : h ∈ op.iterMappedTaskGroups := by simp [hsplit, hh]
    have heq : h = g := hnamed.eq_of_groupId (toGroup_mem hmem) (toGroup_mem hg) hid
    obtain ⟨pre, post, hpre⟩ := List.mem_iff_append.mp (heq ▸ hh)
    -- the group would be around itself
    have hagain : op.iterMappedTaskGroups = pre ++ g :: (post ++ g :: outer) := by
      rw [hsplit, hpre, List.append_assoc, List.cons_append]
    have hlong := iterMappedTaskGroups_suffix hagain
    have hlengths := congrArg List.length (hsuffix.symm.trans hlong)
    simp at hlengths
    omega
  have hinside : op.mappedInside g = inner := by
    rw [Operator.mappedInside, hsplit,
      List.takeWhile_append_of_pos (by simpa using hinner), List.takeWhile_cons_of_neg (by simp),
      List.append_nil]
  rw [hinside, hsuffix, hsplit]

/-- Where the walk to the container meets no mapped group, there is none. -/
theorem takeWhile_eq_nil {group : TaskGroup Value} (hnamed : UniquelyNamed group.groups)
    {g : MappedTaskGroup Value} (hg : g ∈ group.iterMappedTaskGroups)
    (h : group.isMappedBelow g.groupId = false) :
    group.iterMappedTaskGroups.takeWhile (·.groupId ≠ g.groupId) = [] := by
  induction group with
  | root => rfl
  | child groupId expandInput parentGroup ih =>
    have hrest : UniquelyNamed parentGroup.groups :=
      hnamed.of_subset fun p hp => List.mem_cons_of_mem _ hp
    by_cases hid : groupId = g.groupId
    · subst hid
      have heq := hnamed _ List.mem_cons_self _ (toGroup_mem hg) rfl
      simp only [MappedTaskGroup.toGroup, Prod.mk.injEq, TaskGroup.child.injEq, true_and] at heq
      rw [heq.1, TaskGroup.iterMappedTaskGroups]
      simp
    · cases expandInput with
      | none =>
        apply ih hrest hg
        simpa [TaskGroup.isMappedBelow, hid] using h
      | some expandInput => simp [TaskGroup.isMappedBelow, hid] at h

theorem mappedInside_eq_nil {op : Operator Value} (hnamed : UniquelyNamed op.taskGroup.groups)
    {g : MappedTaskGroup Value} (hg : g ∈ op.iterMappedTaskGroups)
    (h : isFurtherMappedInside op g = false) : op.mappedInside g = [] := by
  rw [isFurtherMappedInside, Bool.or_eq_false_iff] at h
  exact takeWhile_eq_nil hnamed hg h.2

/-! ## The common group -/

/-- The tasks are in one DAG, whose groups have one name each. -/
def WellNamed (task upstream : Operator Value) : Prop :=
  UniquelyNamed (task.taskGroup.groups ++ upstream.taskGroup.groups)

section
variable {task upstream : Operator Value} {g : MappedTaskGroup Value}

theorem commonGroup_mem (hnamed : WellNamed task upstream)
    (hcommon : findCommonAncestorMappedGroup task upstream = some g) :
    g ∈ task.iterMappedTaskGroups ∧ g ∈ upstream.iterMappedTaskGroups := by
  rw [findCommonAncestorMappedGroup] at hcommon
  split at hcommon
  · cases hcommon
  have hmem := List.mem_of_find?_eq_some hcommon
  have hid := List.find?_some hcommon
  rw [decide_eq_true_iff, List.mem_map] at hid
  obtain ⟨g', hg', hid⟩ := hid
  have heq : g' = g := hnamed.eq_of_groupId (List.mem_append_left _ (toGroup_mem hg'))
    (List.mem_append_right _ (toGroup_mem hmem)) hid
  exact ⟨heq ▸ hg', hmem⟩

theorem WellNamed.left (h : WellNamed task upstream) : UniquelyNamed task.taskGroup.groups :=
  h.of_subset (List.subset_append_left _ _)

theorem WellNamed.right (h : WellNamed task upstream) : UniquelyNamed upstream.taskGroup.groups :=
  h.of_subset (List.subset_append_right _ _)

theorem getMappedTiCount_inside (hnamed : UniquelyNamed task.taskGroup.groups)
    (hg : g ∈ task.iterMappedTaskGroups) :
    task.getMappedTiCount = some (task.furtherCount g * g.getMappedTiCount) := by
  rw [getMappedTiCount_eq (List.ne_nil_of_mem hg), mappedInside_append hnamed hg, innerCount_append,
    getMappedTiCount_group]
  rfl

end

/-! ## What is selected -/

/-- The map indexes that are selected. -/
def MapIndexes.Selects : MapIndexes → Int → Prop
  | .index mapIndex, j => j = mapIndex
  | .range start stop, j => start ≤ j ∧ j < stop
  | .all, _ => True

/-- One index if the upstream is not mapped further inside, a range otherwise. -/
def MapIndexes.HasShape (furtherMapped : Bool) : MapIndexes → Prop
  | .index _ => furtherMapped = false
  | .range _ _ => furtherMapped = true
  | .all => False

/-- What is returned for the instance `i` of the task selects the instances of the upstream in
the same instance of the common group. -/
def SelectsSameInstance (task upstream : Operator Value) (g : MappedTaskGroup Value) (i : Nat) :
    Prop :=
  ∃ indexes, getRelevantUpstreamMapIndexes task i upstream task.getMappedTiCount = .ok indexes ∧
    indexes.HasShape (isFurtherMappedInside upstream g) ∧
    ∀ j : Int, indexes.Selects j ↔ ∃ k : Nat, j = k ∧
      (∃ tiCount, upstream.getMappedTiCount = some tiCount ∧ k < tiCount) ∧
      upstream.instanceOf g k = task.instanceOf g i

section
variable {task upstream : Operator Value} {g : MappedTaskGroup Value}

/-- The instances of the upstream in the instance `a` of the group are a block of indexes. -/
theorem sameInstance_iff (hnamed : WellNamed task upstream)
    (hcommon : findCommonAncestorMappedGroup task upstream = some g)
    (hpos : 0 < upstream.furtherCount g) {a : Nat} (ha : a < g.getMappedTiCount) {j : Int} :
    (∃ k : Nat, j = k ∧ (∃ tiCount, upstream.getMappedTiCount = some tiCount ∧ k < tiCount) ∧
      upstream.instanceOf g k = a) ↔
      ((a * upstream.furtherCount g : Nat) : Int) ≤ j ∧
        j < ((a * upstream.furtherCount g + upstream.furtherCount g : Nat) : Int) := by
  have hcount := getMappedTiCount_inside hnamed.right (commonGroup_mem hnamed hcommon).2
  constructor
  · rintro ⟨k, rfl, -, hk⟩
    rw [Operator.instanceOf, Nat.div_eq_iff hpos] at hk
    omega
  · rintro ⟨hle, hlt⟩
    obtain ⟨k, rfl⟩ := Int.eq_ofNat_of_zero_le (Int.le_trans (Int.natCast_nonneg _) hle)
    refine ⟨k, rfl, ⟨_, hcount, ?_⟩, ?_⟩
    · calc k < a * upstream.furtherCount g + upstream.furtherCount g := by omega
        _ = (a + 1) * upstream.furtherCount g := (Nat.succ_mul _ _).symm
        _ ≤ g.getMappedTiCount * upstream.furtherCount g := Nat.mul_le_mul_right _ ha
        _ = upstream.furtherCount g * g.getMappedTiCount := Nat.mul_comm _ _
    · rw [Operator.instanceOf, Nat.div_eq_iff hpos]
      omega

theorem furtherCount_pos {op : Operator Value} (hlen : ∀ h ∈ op.iterMappedTaskGroups, 0 < h.mapLength) :
    0 < op.furtherCount g := by
  apply List.prod_pos_iff_forall_pos_nat.mpr
  intro n hn
  obtain ⟨h, hh, rfl⟩ := List.mem_map.mp hn
  exact hlen h (List.takeWhile_subset _ hh)

theorem instanceOf_lt (hnamed : UniquelyNamed task.taskGroup.groups)
    (hg : g ∈ task.iterMappedTaskGroups) {tiCount i : Nat}
    (hcount : task.getMappedTiCount = some tiCount) (hi : i < tiCount) :
    task.instanceOf g i < g.getMappedTiCount := by
  rw [getMappedTiCount_inside hnamed hg, Option.some_inj] at hcount
  apply Nat.div_lt_of_lt_mul
  rwa [hcount]

/-- Blocks of indexes that start at multiples of their lengths are the same only if they are of
one length. -/
theorem block_eq_iff {a m n : Nat} (hn : 0 < n) :
    (∀ j : Int, ((a * m : Nat) : Int) ≤ j ∧ j < ((a * m + m : Nat) : Int) ↔
      ((a * n : Nat) : Int) ≤ j ∧ j < ((a * n + n : Nat) : Int)) ↔ m = n := by
  constructor
  · intro h
    have hfirst := h (a * n : Nat)
    have hlast := h ((a * n + n : Nat) - 1)
    have hbefore := h ((a * n : Nat) - 1)
    have hafter := h (a * n + n : Nat)
    omega
  · rintro rfl
    exact fun _ => Iff.rfl

/-- **The upstream instances are those in the same instance of the common group if and only if
the upstream is not mapped further inside, or into as many instances as the task.** -/
theorem selectsSameInstance_iff (hnamed : WellNamed task upstream)
    (hcommon : findCommonAncestorMappedGroup task upstream = some g)
    (hlen : ∀ h ∈ task.iterMappedTaskGroups ++ upstream.iterMappedTaskGroups, 0 < h.mapLength)
    {tiCount i : Nat} (hcount : task.getMappedTiCount = some tiCount) (hi : i < tiCount) :
    SelectsSameInstance task upstream g i ↔
      (isFurtherMappedInside upstream g = true →
        task.furtherCount g = upstream.furtherCount g) := by
  obtain ⟨htask, hupstream⟩ := commonGroup_mem hnamed hcommon
  rw [List.forall_mem_append] at hlen
  have hpos : 0 < upstream.furtherCount g := furtherCount_pos hlen.2
  have ha := instanceOf_lt hnamed.left htask hcount hi
  have hsplit : task.iterMappedTaskGroups = task.mappedInside g ++ g :: _ :=
    mappedInside_append hnamed.left htask
  have hrelevant := relevantUpstream_eq hsplit hcount (Nat.zero_lt_of_lt hi) i hcommon
  simp only [SelectsSameInstance, sameInstance_iff hnamed hcommon hpos ha, hcount, hrelevant]
  cases hfurther : isFurtherMappedInside upstream g with
  | false =>
    have hone : upstream.furtherCount g = 1 := by
      rw [Operator.furtherCount, mappedInside_eq_nil hnamed.right hupstream hfurther]
      rfl
    simp only [Bool.false_eq_true, if_false, false_implies, iff_true, hone]
    refine ⟨_, rfl, rfl, fun j => ?_⟩
    show j = ((task.instanceOf g i : Nat) : Int) ↔ _
    omega
  | true =>
    simp only [if_true, true_implies]
    rw [← block_eq_iff (a := task.instanceOf g i) hpos]
    constructor
    · rintro ⟨indexes, hindexes, -, hselects⟩
      cases hindexes
      exact hselects
    · exact fun h => ⟨_, rfl, rfl, h⟩

end

/-! ## An upstream in a group of its own -/

/-- A task in the outer group only. -/
def oneLevel (outer : List Nat) : Operator Nat where
  taskId := "outer.task"
  dagId := some "dag"
  taskGroup := mappedOver "outer" outer .root
  expandInput := none
  notInMappedGroup := by simp

/-- A task in another group in the outer one. -/
def otherLevel (outer other : List Nat) : Operator Nat where
  taskId := "outer.other.task"
  dagId := some "dag"
  taskGroup := mappedOver "outer.other" other (mappedOver "outer" outer .root)
  expandInput := none
  notInMappedGroup := by simp

/-- Of three upstream instances in the second instance of the group, one of the first instance is
selected. -/
theorem oneLevel_not_sameInstance :
    findCommonAncestorMappedGroup (oneLevel [10, 20]) (otherLevel [10, 20] [1, 2, 3]) =
      some ⟨"outer", overSequence [10, 20], .root⟩ ∧
    ¬ SelectsSameInstance (oneLevel [10, 20]) (otherLevel [10, 20] [1, 2, 3])
      ⟨"outer", overSequence [10, 20], .root⟩ 1 := by
  refine ⟨rfl, ?_⟩
  rintro ⟨indexes, hindexes, -, hselects⟩
  have hrange : getRelevantUpstreamMapIndexes (oneLevel [10, 20]) (1 : Nat)
      (otherLevel [10, 20] [1, 2, 3]) (oneLevel [10, 20]).getMappedTiCount =
      .ok (.range 1 2) := rfl
  cases hrange.symm.trans hindexes
  have hthree := (hselects 3).mpr ⟨3, rfl, ⟨6, rfl, by decide⟩, by decide⟩
  exact absurd hthree.2 (by decide)

/-- Two groups of the same length in a group. -/
theorem twoLevels_sameInstance :
    SelectsSameInstance (twoLevels [10, 20] [1, 2]) (otherLevel [10, 20] [3, 4])
      ⟨"outer", overSequence [10, 20], .root⟩ 1 := by
  have hnamed : WellNamed (twoLevels [10, 20] [1, 2]) (otherLevel [10, 20] [3, 4]) := by
    intro p hp q hq
    simp only [twoLevels, otherLevel, mappedOver, TaskGroup.groups, List.cons_append,
      List.nil_append, List.mem_cons, List.not_mem_nil, or_false] at hp hq
    rcases hp with rfl | rfl | rfl | rfl <;> rcases hq with rfl | rfl | rfl | rfl <;> simp
  apply (selectsSameInstance_iff hnamed rfl _ rfl (by decide)).mpr
  · exact fun _ => rfl
  · simp [twoLevels, otherLevel, mappedOver, Operator.iterMappedTaskGroups,
      TaskGroup.iterMappedTaskGroups, overSequence, MappedTaskGroup.mapLength,
      DictOfListsExpandInput.getTotalMapLength, DictOfListsExpandInput.getMapLengths,
      Literal.length]

end Airflow.Mapping
