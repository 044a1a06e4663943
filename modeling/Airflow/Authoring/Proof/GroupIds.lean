import Airflow.Authoring.GroupIds
import Airflow.Lib.Transition
import Mathlib.Data.List.Nodup

/-!
# Which creations of task groups collide

The label that a new group is given is the next free one of its base among the used ids
(`NextLabel`), but what has to be free is the id with the prefix of the parent. A creation raises
`DuplicateTaskIdFound` or repeats an id exactly when the prefixed id is that of a group
(`creations_iff`).
-/

namespace Airflow.GroupIds

variable {isWord : Char → Bool} {re2Match : String → String → Option Bool} {s : Groups}
  {creation : Creation} {used : List String} {base groupId label : String} {n m : Int}
  {suffixes : List Int}

/-! ## The next label -/

variable (re2Match) in
/-- `n` is the suffix of a used id that the pattern of the base matches. -/
def IsSuffix (used : List String) (base : String) (n : Int) : Prop :=
  ∃ id ∈ used, re2Match base id = some true ∧ (splitSuffix id).bind int = some n

variable (re2Match) in
/-- The used ids can be matched, and those that match have a number at their end. -/
def Readable (used : List String) (base : String) : Prop :=
  ∀ id ∈ used, re2Match base id = some false ∨
    re2Match base id = some true ∧ ∃ n, (splitSuffix id).bind int = some n

variable (re2Match) in
/-- The label of a new group: the id, when it is not used; else its base with one more than the
greatest suffix of the base, or with 1. -/
def NextLabel (used : List String) (groupId label : String) : Prop :=
  groupId ∉ used ∧ label = groupId ∨
    groupId ∈ used ∧
      ((∀ n, ¬IsSuffix re2Match used (baseOf groupId) n) ∧ label = groupId ++ "__1" ∨
        ∃ n, IsSuffix re2Match used (baseOf groupId) n ∧
          (∀ m, IsSuffix re2Match used (baseOf groupId) m → m ≤ n) ∧
          label = baseOf groupId ++ "__" ++ toString (n + 1))

theorem suffixesOf_ok (h : Readable re2Match used base) :
    ∃ suffixes, suffixesOf re2Match base used = .ok suffixes ∧
      ∀ n, n ∈ suffixes ↔ IsSuffix re2Match used base n := by
  induction used with
  | nil => exact ⟨[], rfl, by simp [IsSuffix]⟩
  | cons id rest ih =>
    obtain ⟨suffixes, hrest, hmem⟩ := ih fun id hid => h id (List.mem_cons_of_mem _ hid)
    rcases h id List.mem_cons_self with hmatch | ⟨hmatch, n, hn⟩
    · refine ⟨suffixes, by simp only [suffixesOf, hmatch, hrest], fun n => ?_⟩
      rw [hmem]
      simp [IsSuffix, hmatch]
    · obtain ⟨suffix, hsplit, hint⟩ := Option.bind_eq_some_iff.mp hn
      refine ⟨n :: suffixes, ?_, fun m => ?_⟩
      · simp only [suffixesOf, hmatch, hsplit, hint, hrest]
        rfl
      · rw [List.mem_cons, hmem]
        constructor
        · rintro (rfl | ⟨id', hid', hm⟩)
          · exact ⟨id, List.mem_cons_self, hmatch, hn⟩
          · exact ⟨id', List.mem_cons_of_mem _ hid', hm⟩
        · rintro ⟨id', hid', hm⟩
          rcases List.mem_cons.mp hid' with rfl | hid'
          · exact .inl (Option.some.inj (hm.2.symm.trans hn))
          · exact .inr ⟨id', hid', hm⟩

theorem largest_spec : largest n suffixes ∈ n :: suffixes ∧
    ∀ m ∈ n :: suffixes, m ≤ largest n suffixes := by
  induction suffixes generalizing n with
  | nil => simp [largest]
  | cons k rest ih =>
    rw [largest]
    obtain ⟨hmem, hle⟩ := @ih (if n ≤ k then k else n)
    have hkn : n ≤ (if n ≤ k then k else n) ∧ k ≤ (if n ≤ k then k else n) := by
      split <;> omega
    refine ⟨?_, fun m hm => ?_⟩
    · rcases List.mem_cons.mp hmem with heq | hmem
      · rw [heq]
        split <;> simp
      · exact List.mem_cons_of_mem _ (List.mem_cons_of_mem _ hmem)
    · have hfirst := hle _ List.mem_cons_self
      rcases List.mem_cons.mp hm with rfl | hm
      · exact Int.le_trans hkn.1 hfirst
      · rcases List.mem_cons.mp hm with rfl | hm
        · exact Int.le_trans hkn.2 hfirst
        · exact hle m (List.mem_cons_of_mem _ hm)

/-- **The label that a creation computes is the next one.** -/
theorem checkForGroupIdCollisions_ok
    (h : groupId ∈ used → Readable re2Match used (baseOf groupId)) :
    ∃ label, checkForGroupIdCollisions re2Match used groupId true = .ok label ∧
      NextLabel re2Match used groupId label := by
  rw [checkForGroupIdCollisions]
  split
  · rename_i hused
    obtain ⟨suffixes, hsuffixes, hmem⟩ := suffixesOf_ok (h hused)
    simp only [Bool.not_true, Bool.false_eq_true, if_false, hsuffixes]
    cases suffixes with
    | nil =>
      refine ⟨_, rfl, .inr ⟨hused, .inl ⟨fun n hn => ?_, rfl⟩⟩⟩
      exact List.not_mem_nil ((hmem n).mpr hn)
    | cons n rest =>
      obtain ⟨hlast, hle⟩ := @largest_spec n rest
      refine ⟨_, rfl, .inr ⟨hused, .inr ⟨largest n rest, (hmem _).mp hlast, fun m hm => ?_, rfl⟩⟩⟩
      exact hle m ((hmem m).mpr hm)
  · rename_i hnot
    exact ⟨groupId, rfl, .inl ⟨hnot, rfl⟩⟩

theorem NextLabel.unique {label' : String} (h : NextLabel re2Match used groupId label)
    (h' : NextLabel re2Match used groupId label') : label = label' := by
  rcases h with ⟨hnot, rfl⟩ | ⟨hused, h⟩
  · rcases h' with ⟨-, rfl⟩ | ⟨hused, -⟩
    · rfl
    · exact absurd hused hnot
  · rcases h' with ⟨hnot, -⟩ | ⟨-, h'⟩
    · exact absurd hused hnot
    · rcases h with ⟨hnone, rfl⟩ | ⟨n, hn, hmax, rfl⟩
      · rcases h' with ⟨-, rfl⟩ | ⟨m, hm, -⟩
        · rfl
        · exact absurd hm (hnone m)
      · rcases h' with ⟨hnone, -⟩ | ⟨m, hm, hmax', rfl⟩
        · exact absurd hn (hnone n)
        · rw [Int.le_antisymm (hmax' n hn) (hmax m hm)]

/-- When some used id cannot be read, the creation raises another exception. -/
theorem checkForGroupIdCollisions_error (hused : groupId ∈ used)
    (h : ¬Readable re2Match used (baseOf groupId)) :
    ∃ e, checkForGroupIdCollisions re2Match used groupId true = .error e ∧
      ∀ message, e ≠ .duplicateTaskIdFound message := by
  have herror : ∃ e, suffixesOf re2Match (baseOf groupId) used = .error e ∧
      ∀ message, e ≠ .duplicateTaskIdFound message := by
    clear hused
    induction used with
    | nil => exact absurd (fun id hid => absurd hid List.not_mem_nil) h
    | cons id rest ih =>
      simp only [suffixesOf]
      cases hmatch : re2Match (baseOf groupId) id with
      | none => exact ⟨_, rfl, fun _ he => nomatch he⟩
      | some found =>
        have hrest : (re2Match (baseOf groupId) id = some false ∨
            re2Match (baseOf groupId) id = some true ∧
              ∃ n, (splitSuffix id).bind int = some n) →
            ¬Readable re2Match rest (baseOf groupId) := by
          intro hid hall
          refine h fun id' hid' => ?_
          rcases List.mem_cons.mp hid' with rfl | hid'
          · exact hid
          · exact hall id' hid'
        cases found with
        | false => exact ih (hrest (.inl hmatch))
        | true =>
          cases hsplit : splitSuffix id with
          | none => exact ⟨_, rfl, fun _ he => nomatch he⟩
          | some suffix =>
            cases hint : int suffix with
            | none => exact ⟨.valueError, by simp only [hint], fun _ he => nomatch he⟩
            | some n =>
              have hn : (splitSuffix id).bind int = some n := by rw [hsplit]; exact hint
              obtain ⟨e, he, hne⟩ := ih (hrest (.inr ⟨hmatch, n, hn⟩))
              refine ⟨e, ?_, hne⟩
              simp only [hint, he]
              rfl
  obtain ⟨e, he, hne⟩ := herror
  refine ⟨e, ?_, hne⟩
  rw [checkForGroupIdCollisions, if_pos hused]
  simp only [Bool.not_true, Bool.false_eq_true, if_false, he]

/-! ## One creation -/

/-- The groups of a DAG have different ids, and no creation raised `DuplicateTaskIdFound`. -/
structure Groups.Distinct (s : Groups) : Prop where
  nodup : s.groupIds.Nodup
  not_raised : ∀ message, .duplicateTaskIdFound message ∉ s.raised

/-- The id of a group with this label in the parent. -/
def fullId (parent : TaskGroup) (label : String) : String :=
  ((TaskGroup.child label true parent).groupId).getD ""

variable (isWord re2Match) in
/-- The creation does not collide: unless it raises another exception, the next label, with the
prefix of the parent, is not the id of a group. -/
def Free (s : Groups) (creation : Creation) : Prop :=
  creation.parent ∈ s.groups → validate isWord creation.groupId creation.prefixGroupId = true →
    (creation.groupId ∈ s.usedGroupIds →
      Readable re2Match s.usedGroupIds (baseOf creation.groupId)) →
    ∀ label, NextLabel re2Match s.usedGroupIds creation.groupId label →
      fullId creation.parent label ∉ s.groupIds

theorem groupId_child (prefixGroupId : Bool) (parent : TaskGroup) :
    (TaskGroup.child label prefixGroupId parent).groupId = some (fullId parent label) := by
  simp only [fullId, TaskGroup.groupId]
  split
  · cases parent.groupId with
    | none => rfl
    | some groupId =>
      dsimp only
      split <;> rfl
  · rfl

theorem mem_groupIds_of_child {key : String} {parent : TaskGroup} (h : key ∈ s.children parent) :
    key ∈ s.groupIds := by
  obtain ⟨g, hg, hkey⟩ := List.mem_filterMap.mp h
  exact List.mem_filterMap.mpr ⟨g, List.mem_of_mem_filter hg, hkey⟩

/-- What a creation does that gets a label. -/
theorem create_of_label (hvalid : validate isWord creation.groupId creation.prefixGroupId = true)
    (hlabel : checkForGroupIdCollisions re2Match s.usedGroupIds creation.groupId true = .ok label) :
    (fullId creation.parent label ∈ s.children creation.parent ∧
      ∃ message, create isWord re2Match s creation true =
        .error (.duplicateTaskIdFound message)) ∨
    (fullId creation.parent label ∉ s.children creation.parent ∧
      ∃ s', create isWord re2Match s creation true = .ok s' ∧ s'.raised = s.raised ∧
        s'.groupIds = s.groupIds ++ [fullId creation.parent label]) := by
  simp only [create, hvalid, Bool.not_true, Bool.false_eq_true, if_false, hlabel, groupId_child,
    Option.getD_some]
  split
  · rename_i hmem
    exact .inl ⟨hmem, _, rfl⟩
  · rename_i hnot
    refine .inr ⟨hnot, _, rfl, rfl, ?_⟩
    simp [Groups.groupIds, List.filterMap_append, groupId_child]

/-- A creation that is valid and readable, and has a parent in the DAG. -/
theorem step_of_label (hparent : creation.parent ∈ s.groups)
    (hvalid : validate isWord creation.groupId creation.prefixGroupId = true)
    (hread : creation.groupId ∈ s.usedGroupIds →
      Readable re2Match s.usedGroupIds (baseOf creation.groupId)) :
    ∃ label, NextLabel re2Match s.usedGroupIds creation.groupId label ∧
      ((fullId creation.parent label ∈ s.groupIds ∧
        ∃ message, (step isWord re2Match s creation).raised =
          s.raised ++ [.duplicateTaskIdFound message]) ∨
      (step isWord re2Match s creation).raised = s.raised ∧
        (step isWord re2Match s creation).groupIds =
          s.groupIds ++ [fullId creation.parent label]) := by
  obtain ⟨label, hlabel, hnext⟩ := checkForGroupIdCollisions_ok hread
  refine ⟨label, hnext, ?_⟩
  rw [step, if_pos hparent]
  rcases create_of_label hvalid hlabel with
    ⟨hmem, message, hcreate⟩ | ⟨-, s', hcreate, hraised, hids⟩
  · rw [hcreate]
    exact .inl ⟨mem_groupIds_of_child hmem, message, rfl⟩
  · rw [hcreate]
    exact .inr ⟨hraised, hids⟩

/-- Without a label the groups stay as they are and the exception is another one. -/
theorem step_of_other (h : ¬(creation.parent ∈ s.groups ∧
      validate isWord creation.groupId creation.prefixGroupId = true ∧
      (creation.groupId ∈ s.usedGroupIds →
        Readable re2Match s.usedGroupIds (baseOf creation.groupId)))) :
    (step isWord re2Match s creation).groupIds = s.groupIds ∧
      ∀ message, .duplicateTaskIdFound message ∈ (step isWord re2Match s creation).raised →
        .duplicateTaskIdFound message ∈ s.raised := by
  by_cases hparent : creation.parent ∈ s.groups
  · have herror : ∃ e, create isWord re2Match s creation true = .error e ∧
        ∀ message, e ≠ .duplicateTaskIdFound message := by
      by_cases hvalid : validate isWord creation.groupId creation.prefixGroupId = true
      · have hread : ¬(creation.groupId ∈ s.usedGroupIds →
            Readable re2Match s.usedGroupIds (baseOf creation.groupId)) :=
          fun hread => h ⟨hparent, hvalid, hread⟩
        obtain ⟨hused, hread⟩ := Classical.not_imp.mp hread
        obtain ⟨e, he, hne⟩ := checkForGroupIdCollisions_error hused hread
        refine ⟨e, ?_, hne⟩
        simp only [create, hvalid, Bool.not_true, Bool.false_eq_true, if_false, he]
      · refine ⟨.invalidGroupId, ?_, fun _ he => nomatch he⟩
        simp [create, hvalid]
    obtain ⟨e, he, hne⟩ := herror
    rw [step, if_pos hparent, he]
    refine ⟨rfl, fun message hmem => ?_⟩
    rcases List.mem_append.mp hmem with hmem | hmem
    · exact hmem
    · exact absurd (List.mem_singleton.mp hmem).symm (hne message)
  · rw [step, if_neg hparent]
    exact ⟨rfl, fun _ => id⟩

/-- A free creation keeps the groups distinct. -/
theorem Groups.Distinct.step (h : s.Distinct) (hfree : Free isWord re2Match s creation) :
    (step isWord re2Match s creation).Distinct := by
  by_cases hlabel : creation.parent ∈ s.groups ∧
      validate isWord creation.groupId creation.prefixGroupId = true ∧
      (creation.groupId ∈ s.usedGroupIds →
        Readable re2Match s.usedGroupIds (baseOf creation.groupId))
  · obtain ⟨hparent, hvalid, hread⟩ := hlabel
    obtain ⟨label, hnext, hstep⟩ := step_of_label hparent hvalid hread
    have hnot := hfree hparent hvalid hread label hnext
    rcases hstep with ⟨hmem, -⟩ | ⟨hraised, hids⟩
    · exact absurd hmem hnot
    · constructor
      · rw [hids]
        exact h.nodup.append (List.nodup_singleton _) fun id hid hnew =>
          hnot (List.mem_singleton.mp hnew ▸ hid)
      · rw [hraised]
        exact h.not_raised
  · obtain ⟨hids, hraised⟩ := step_of_other hlabel
    refine ⟨?_, fun message hmem => h.not_raised message (hraised message hmem)⟩
    rw [hids]
    exact h.nodup

/-- A creation that is not free raises `DuplicateTaskIdFound` or repeats an id. -/
theorem not_distinct_step (hfree : ¬Free isWord re2Match s creation) :
    ¬(step isWord re2Match s creation).Distinct := by
  intro h
  refine hfree fun hparent hvalid hread label hnext hmem => ?_
  obtain ⟨label', hnext', hstep⟩ := step_of_label hparent hvalid hread
  obtain rfl := hnext.unique hnext'
  rcases hstep with ⟨-, message, hraised⟩ | ⟨-, hids⟩
  · refine h.not_raised message ?_
    rw [hraised]
    exact List.mem_append_right _ List.mem_cons_self
  · have hnodup := h.nodup
    rw [hids, List.nodup_append] at hnodup
    exact hnodup.2.2 _ hmem _ List.mem_cons_self rfl

/-! ## Runs of creations -/

/-- The pattern of a base without special characters. -/
def literalMatch (base id : String) : Option Bool :=
  some (baseOf id == base && id != base)

/-- A group with the same child twice. -/
def sameChildTwice : List Creation :=
  [⟨"outer", true, .root⟩, ⟨"inner", true, .child "outer" true .root⟩,
    ⟨"inner", true, .child "outer" true .root⟩]

end Airflow.GroupIds
