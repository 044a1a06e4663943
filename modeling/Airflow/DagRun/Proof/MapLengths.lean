import Airflow.DagRun.Integrity
import Airflow.DagRun.Proof.Session

/-!
# The length of a mapped task at parse time and at run time

A length that is known when the DAG is parsed is the one that a run computes
(`Operator.getMappedTiCount_of_parseTime`), and it only matters for the others which upstream tasks
have an unfinished instance: fewer make more lengths known and change none
(`Operator.getMappedTiCount_mono`, `Operator.getMappedTiCount_unique`).
-/

namespace Airflow

/-! ## Lengths at parse time and at run time -/

section
variable {run : RunData} {s : Session}

theorem mulCounts_map_ok (counts : List Nat) :
    mulCounts (counts.map .ok) = .ok (counts.foldl (· * ·) 1) := by
  induction counts with
  | nil => rfl
  | cons n counts ih =>
    have hfold : counts.foldl (· * ·) (n * 1) = n * counts.foldl (· * ·) 1 := List.foldl_assoc
    simp only [List.map_cons, mulCounts, ih, Except.map, List.foldl_cons, Nat.one_mul]
    rw [← hfold, Nat.mul_one]

theorem mulCounts_ne_notMapped {counts : List (Except MapError Nat)}
    (h : .error .notMapped ∉ counts) : mulCounts counts ≠ .error .notMapped := by
  induction counts with
  | nil => simp [mulCounts]
  | cons c counts ih =>
    rw [List.mem_cons, not_or] at h
    cases c with
    | error e => exact fun he => h.1 he.symm
    | ok n =>
      have hrest := ih h.2
      cases hc : mulCounts counts with
      | error e =>
        rw [hc] at hrest
        rw [mulCounts, hc]
        exact hrest
      | ok m => simp [mulCounts, hc, Except.map]

/-- A count that is known of every factor is the count of the product. -/
theorem mulCounts_map_mono {α : Type} {l : List α} {f g : α → Except MapError Nat}
    (hfg : ∀ a ∈ l, ∀ n, f a = .ok n → g a = .ok n) {n : Nat} (h : mulCounts (l.map f) = .ok n) :
    mulCounts (l.map g) = .ok n := by
  induction l generalizing n with
  | nil => exact h
  | cons a l ih =>
    cases hf : f a with
    | error e => simp [mulCounts, hf] at h
    | ok k =>
      simp only [List.map_cons, mulCounts, hf] at h
      cases hrest : mulCounts (l.map f) with
      | error e => simp [hrest, Except.map] at h
      | ok m =>
        have hg := ih (fun b hb => hfg b (List.mem_cons_of_mem _ hb)) hrest
        rw [List.map_cons, hfg a List.mem_cons_self k hf, mulCounts, hg]
        rwa [hrest] at h

theorem ofLength_ne_notMapped (length : Option Nat) : ofLength length ≠ .error .notMapped := by
  cases length <;> simp [ofLength]

theorem ExpandInput.getTotalMapLength_ne_notMapped (e : ExpandInput) :
    e.getTotalMapLength run s ≠ .error .notMapped := by
  cases e with
  | listOfDicts value => exact ofLength_ne_notMapped _
  | dictOfLists value =>
    cases value with
    | nil => simp [getTotalMapLength]
    | cons v value =>
      refine mulCounts_ne_notMapped fun hmem => ?_
      obtain ⟨a, -, ha⟩ := List.mem_map.mp hmem
      exact ofLength_ne_notMapped _ ha

theorem ExpandInput.getParseTimeMappedTiCount_ne_notMapped (e : ExpandInput) :
    e.getParseTimeMappedTiCount ≠ .error .notMapped := by
  unfold getParseTimeMappedTiCount
  split
  · simp
  · dsimp only
    split <;> simp
  · simp
  · simp

theorem getLength_of_literals {value : List ExpandArgument}
    (h : (value.filterMap (·.literalLength)).length = value.length) :
    value.map (fun v => ofLength (v.getLength run s)) =
      (value.filterMap (·.literalLength)).map .ok := by
  induction value with
  | nil => rfl
  | cons v value ih =>
    cases v with
    | literal length =>
      have hlit : (ExpandArgument.literal length).literalLength = some length := rfl
      rw [List.filterMap_cons_some hlit] at h ⊢
      rw [List.map_cons, ih (Nat.succ_inj.mp h), List.map_cons]
      rfl
    | xcomArg arg =>
      have harg : (ExpandArgument.xcomArg arg).literalLength = none := rfl
      rw [List.filterMap_cons_none harg, List.length_cons] at h
      have hle := List.length_filterMap_le ExpandArgument.literalLength value
      exact absurd h (Nat.ne_of_lt (Nat.lt_succ_of_le hle))

theorem ExpandInput.getTotalMapLength_of_parseTime {e : ExpandInput} {n : Nat}
    (h : e.getParseTimeMappedTiCount = .ok n) : e.getTotalMapLength run s = .ok n := by
  cases e with
  | listOfDicts value =>
    cases value with
    | literal length => simpa [getParseTimeMappedTiCount, getTotalMapLength,
        ExpandArgument.getLength, ofLength] using h
    | xcomArg arg => simp [getParseTimeMappedTiCount] at h
  | dictOfLists value =>
    cases value with
    | nil => exact h
    | cons v value =>
      simp only [getParseTimeMappedTiCount] at h
      split at h
      · cases h
      · rename_i hlit
        rw [getTotalMapLength, getLength_of_literals (not_not.mp hlit), mulCounts_map_ok]
        · exact h
        · simp

theorem groupsMappedTiCount_eq_notMapped {groups : List MappedTaskGroup} :
    groupsMappedTiCount run s groups = .error .notMapped ↔ groups = [] := by
  unfold groupsMappedTiCount
  constructor
  · intro h
    split at h
    · rename_i hempty
      exact List.isEmpty_iff.mp hempty
    · refine absurd h (mulCounts_ne_notMapped fun hmem => ?_)
      obtain ⟨g, -, hg⟩ := List.mem_map.mp hmem
      exact g.expandInput.getTotalMapLength_ne_notMapped hg
  · rintro rfl
    rfl

theorem groupsParseTimeMappedTiCount_eq_notMapped {groups : List MappedTaskGroup} :
    groupsParseTimeMappedTiCount groups = .error .notMapped ↔ groups = [] := by
  unfold groupsParseTimeMappedTiCount
  constructor
  · intro h
    split at h
    · rename_i hempty
      exact List.isEmpty_iff.mp hempty
    · refine absurd h (mulCounts_ne_notMapped fun hmem => ?_)
      obtain ⟨g, -, hg⟩ := List.mem_map.mp hmem
      exact g.expandInput.getParseTimeMappedTiCount_ne_notMapped hg
  · rintro rfl
    rfl

theorem groupsMappedTiCount_of_parseTime {groups : List MappedTaskGroup} {n : Nat}
    (h : groupsParseTimeMappedTiCount groups = .ok n) : groupsMappedTiCount run s groups = .ok n := by
  unfold groupsParseTimeMappedTiCount at h
  unfold groupsMappedTiCount
  split at h
  · cases h
  · rename_i hne
    rw [if_neg hne]
    exact mulCounts_map_mono (fun g _ n hn => ExpandInput.getTotalMapLength_of_parseTime hn) h

/-- A task is mapped at run time exactly if it is at parse time. -/
theorem Operator.getMappedTiCount_eq_notMapped {task : Operator} :
    task.getMappedTiCount run s = .error .notMapped ↔
      task.getParseTimeMappedTiCount = .error .notMapped := by
  unfold getMappedTiCount getParseTimeMappedTiCount
  cases he : task.expandInput with
  | none =>
    dsimp only
    rw [groupsMappedTiCount_eq_notMapped, groupsParseTimeMappedTiCount_eq_notMapped]
  | some e =>
    have htotal : e.getTotalMapLength run s ≠ .error .notMapped := e.getTotalMapLength_ne_notMapped
    have hparse := e.getParseTimeMappedTiCount_ne_notMapped
    dsimp only
    constructor
    · intro h
      split at h
      · exact absurd (by rw [← h]; assumption) htotal
      · split at h <;> cases h
    · intro h
      split at h
      · exact absurd (by rw [← h]; assumption) hparse
      · split at h <;> cases h

/-- **The length known at parse time is the one at run time.** -/
theorem Operator.getMappedTiCount_of_parseTime {task : Operator} {n : Nat}
    (h : task.getParseTimeMappedTiCount = .ok n) : task.getMappedTiCount run s = .ok n := by
  unfold getParseTimeMappedTiCount at h
  unfold getMappedTiCount
  cases he : task.expandInput with
  | none =>
    rw [he] at h
    exact groupsMappedTiCount_of_parseTime h
  | some e =>
    simp only [he] at h
    cases hcur : e.getParseTimeMappedTiCount with
    | error err => simp [hcur] at h
    | ok currentCount =>
      simp only [hcur] at h
      dsimp only
      rw [ExpandInput.getTotalMapLength_of_parseTime hcur]
      cases hparent : groupsParseTimeMappedTiCount task.mappedTaskGroups with
      | ok parentCount =>
        rw [hparent] at h
        rw [groupsMappedTiCount_of_parseTime hparent]
        exact h
      | error err =>
        cases err with
        | notFullyPopulated => simp [hparent] at h
        | notMapped =>
          rw [hparent] at h
          rw [groupsMappedTiCount_eq_notMapped.mpr
            (groupsParseTimeMappedTiCount_eq_notMapped.mp hparent)]
          exact h

/-! ### Fewer unfinished instances, more lengths -/

variable {s' : Session}

mutual

theorem XComArg.getTaskMapLength_mono
    (hle : ∀ t, s'.unfinishedTiExists t = true → s.unfinishedTiExists t = true) :
    (arg : XComArg) → ∀ n, arg.getTaskMapLength run s = some n →
      arg.getTaskMapLength run s' = some n
  | .plain operator isMapped, n, h => by
    rw [XComArg.getTaskMapLength] at h ⊢
    cases isMapped with
    | false => exact h
    | true =>
      simp only [if_true] at h ⊢
      split at h
      · cases h
      · rename_i hunf
        rw [if_neg fun hunf' => hunf (hle operator hunf')]
        exact h
  | .map arg, n, h => by
    rw [XComArg.getTaskMapLength] at h ⊢
    exact XComArg.getTaskMapLength_mono hle arg n h
  | .zip args fillvalue, n, h => by
    rw [XComArg.getTaskMapLength] at h ⊢
    obtain ⟨lengths, hlengths, hn⟩ := Option.bind_eq_some_iff.mp h
    rw [XComArg.getTaskMapLengths_mono hle args lengths hlengths]
    exact hn

theorem XComArg.getTaskMapLengths_mono
    (hle : ∀ t, s'.unfinishedTiExists t = true → s.unfinishedTiExists t = true) :
    (args : List XComArg) → ∀ lengths, XComArg.getTaskMapLengths run s args = some lengths →
      XComArg.getTaskMapLengths run s' args = some lengths
  | [], _, h => h
  | arg :: args, lengths, h => by
    rw [XComArg.getTaskMapLengths] at h ⊢
    cases harg : arg.getTaskMapLength run s with
    | none => simp [harg] at h
    | some n =>
      cases hargs : XComArg.getTaskMapLengths run s args with
      | none => simp [harg, hargs] at h
      | some ns =>
        rw [harg, hargs] at h
        rw [XComArg.getTaskMapLength_mono hle arg n harg,
          XComArg.getTaskMapLengths_mono hle args ns hargs]
        exact h

end

theorem ExpandArgument.ofLength_getLength_mono
    (hle : ∀ t, s'.unfinishedTiExists t = true → s.unfinishedTiExists t = true)
    (v : ExpandArgument) {n : Nat} (h : ofLength (v.getLength run s) = .ok n) :
    ofLength (v.getLength run s') = .ok n := by
  cases v with
  | literal length => exact h
  | xcomArg arg =>
    unfold getLength at h ⊢
    dsimp only at h ⊢
    cases harg : arg.getTaskMapLength run s with
    | none => simp [harg, ofLength] at h
    | some m =>
      rw [harg] at h
      rw [XComArg.getTaskMapLength_mono hle arg m harg]
      exact h

theorem ExpandInput.getTotalMapLength_mono
    (hle : ∀ t, s'.unfinishedTiExists t = true → s.unfinishedTiExists t = true)
    (e : ExpandInput) {n : Nat} (h : e.getTotalMapLength run s = .ok n) :
    e.getTotalMapLength run s' = .ok n := by
  cases e with
  | listOfDicts value => exact value.ofLength_getLength_mono hle h
  | dictOfLists value =>
    cases value with
    | nil => exact h
    | cons v value =>
      exact mulCounts_map_mono (fun a _ n hn => a.ofLength_getLength_mono hle hn) h

theorem groupsMappedTiCount_mono
    (hle : ∀ t, s'.unfinishedTiExists t = true → s.unfinishedTiExists t = true)
    {groups : List MappedTaskGroup} {n : Nat} (h : groupsMappedTiCount run s groups = .ok n) :
    groupsMappedTiCount run s' groups = .ok n := by
  unfold groupsMappedTiCount at h ⊢
  split at h
  · cases h
  · rename_i hne
    rw [if_neg hne]
    exact mulCounts_map_mono (fun g _ n hn => g.expandInput.getTotalMapLength_mono hle hn) h

theorem Operator.getMappedTiCount_mono
    (hle : ∀ t, s'.unfinishedTiExists t = true → s.unfinishedTiExists t = true)
    {task : Operator} {n : Nat} (h : task.getMappedTiCount run s = .ok n) :
    task.getMappedTiCount run s' = .ok n := by
  unfold getMappedTiCount at h ⊢
  cases he : task.expandInput with
  | none =>
    rw [he] at h
    exact groupsMappedTiCount_mono hle h
  | some e =>
    simp only [he] at h
    cases hcur : e.getTotalMapLength run s with
    | error err => simp [hcur] at h
    | ok currentCount =>
      simp only [hcur] at h
      dsimp only
      rw [e.getTotalMapLength_mono hle hcur]
      cases hparent : groupsMappedTiCount run s task.mappedTaskGroups with
      | ok parentCount =>
        rw [hparent] at h
        rw [groupsMappedTiCount_mono hle hparent]
        exact h
      | error err =>
        cases err with
        | notFullyPopulated => simp [hparent] at h
        | notMapped =>
          rw [hparent] at h
          rw [groupsMappedTiCount_eq_notMapped.mpr (groupsMappedTiCount_eq_notMapped.mp hparent)]
          exact h

/-- **Two sessions that both know the length of a task agree on it.** -/
theorem Operator.getMappedTiCount_unique {task : Operator} {n m : Nat}
    (h : task.getMappedTiCount run s = .ok n) (h' : task.getMappedTiCount run s' = .ok m) :
    n = m := by
  -- both lengths are known where no instance is unfinished
  have hn : task.getMappedTiCount run ⟨fun _ => []⟩ = .ok n :=
    getMappedTiCount_mono (fun t ht => by cases ht) h
  have hm : task.getMappedTiCount run ⟨fun _ => []⟩ = .ok m :=
    getMappedTiCount_mono (fun t ht => by cases ht) h'
  exact Except.ok.inj (hn.symm.trans hm)

end

end Airflow
