import Airflow.Utils.Gitignore

/-!
# The search for files follows `.gitignore`

The walk returns the files that `foundIn` names (`findPathFromDirectory_eq`), and a file is among
them when no path down to it is matched by the rules that bear on it, without their repeats
(`mem_foundIn_iff`). With the repeats that would be the rule of `.gitignore` (`excluded_iff`).
-/

namespace Airflow.Utils.File

variable {git : GitWildMatchPattern} {baseDirPath ignoreFileName : String}

/-! ## The last rule that applies decides -/

theorem matchRules_iff (path : Path) (isDir : Bool) (rules : List GlobIgnoreRule) :
    matchRules git path isDir rules = true ↔
      (rules.filter (·.applies git path isDir)).getLast?.map GlobIgnoreRule.included =
        some (some true) := by
  induction rules using List.reverseRecOn with
  | nil => simp [matchRules]
  | append_singleton rules rule ih =>
    rw [matchRules, List.foldl_append, List.foldl_cons, List.foldl_nil, List.filter_append]
    cases happlies : rule.applies git path isDir with
    | false =>
      rw [if_neg Bool.false_ne_true, List.filter_singleton, happlies, cond_false, List.append_nil]
      exact ih
    | true =>
      rw [if_pos rfl, List.filter_singleton, happlies, cond_true, List.getLast?_concat,
        Option.map_some, Option.some.injEq]
      have hsome : rule.included.isSome = true := (Bool.and_eq_true_iff.mp happlies).1
      obtain ⟨included, hincluded⟩ := Option.isSome_iff_exists.mp hsome
      simp [hincluded]

/-- The rules of a directory, without repeats. -/
theorem rulesOf_firsts (root : Path) (dir : Dir) (rules : List GlobIgnoreRule) :
    rulesOf git ignoreFileName root dir.files (firsts rules) =
      firsts (rules ++ (dir.patterns ignoreFileName).filterMap (compile git · root)) := by
  unfold rulesOf Dir.patterns
  cases dir.files.lookup ignoreFileName with
  | none => simp
  | some text => exact firsts_firsts_append _ _

/-! ## What the walk finds -/

section
variable (git) (ignoreFileName)

mutual

/-- The files that are found in a directory which inherits `patterns`. -/
def foundIn (root : Path) (patterns : List GlobIgnoreRule) : Dir → List Path
  | .mk files dirs =>
    let rules := rulesOf git ignoreFileName root files patterns
    keptFiles git ignoreFileName root files rules ++ foundInAll root rules dirs

def foundInAll (root : Path) (rules : List GlobIgnoreRule) : List (String × Dir) → List Path
  | [] => []
  | (sd, dir) :: dirs =>
    (if matchRules git (root ++ [sd]) true rules then [] else foundIn (root ++ [sd]) rules dir) ++
      foundInAll root rules dirs

end

end

/-- A path strictly below another. -/
def Below (root path : Path) : Prop := ∃ name rest, path = root ++ name :: rest

theorem below_trans {root path : Path} {name : String} (h : Below (root ++ [name]) path) :
    Below root path := by
  obtain ⟨name', rest, rfl⟩ := h
  exact ⟨name, name' :: rest, by simp⟩

theorem below_child (root : Path) (name : String) : Below root (root ++ [name]) := ⟨name, [], rfl⟩

theorem not_below_self (root : Path) : ¬Below root root := by
  rintro ⟨name, rest, h⟩
  simpa using congrArg List.length h

theorem not_below_sibling (root : Path) (name name' : String) :
    ¬Below (root ++ [name]) (root ++ [name']) := by
  rintro ⟨_, rest, heq⟩
  simpa using congrArg List.length heq

theorem below_unique {root path : Path} {name name' : String} (h : Below (root ++ [name]) path)
    (h' : Below (root ++ [name']) path) : name = name' := by
  obtain ⟨_, _, rfl⟩ := h
  obtain ⟨_, _, heq⟩ := h'
  rw [List.append_assoc, List.append_assoc, List.append_cancel_left_eq] at heq
  exact (List.cons.inj heq).1

section
variable (git baseDirPath ignoreFileName)

/-- The loop over the subdirectories gives the rules to those that are walked. -/
theorem announce_ok (root : Path) (rules : List GlobIgnoreRule) (dirs : List (String × Dir))
    (walk : Walk) (hnames : (dirs.map Prod.fst).Nodup)
    (hnew : ∀ sd ∈ dirs.map Prod.fst, walk.patternsByDir.get? (root ++ [sd]) = none) :
    ∃ walk', announce git baseDirPath root rules dirs walk = .ok walk' ∧
      walk'.found = walk.found ∧
      (∀ sd ∈ dirs.map Prod.fst, matchRules git (root ++ [sd]) true rules = false →
        walk'.patternsByDir.get? (root ++ [sd]) = some rules) ∧
      ∀ key, (∀ sd ∈ dirs.map Prod.fst, key ≠ root ++ [sd]) →
        walk'.patternsByDir.get? key = walk.patternsByDir.get? key := by
  induction dirs generalizing walk with
  | nil => exact ⟨walk, rfl, rfl, fun _ h => (by cases h), fun _ _ => rfl⟩
  | cons entry dirs ih =>
    obtain ⟨sd, dir⟩ := entry
    rw [List.map_cons, List.nodup_cons] at hnames
    rw [List.map_cons, List.forall_mem_cons] at hnew
    have hother : ∀ sd' ∈ dirs.map Prod.fst, root ++ [sd'] ≠ root ++ [sd] := by
      intro sd' hsd' heq
      rw [List.append_cancel_left_eq, List.singleton_inj] at heq
      exact hnames.1 (heq ▸ hsd')
    cases hmatch : matchRules git (root ++ [sd]) true rules with
    | true =>
      obtain ⟨walk', hok, hfound, hset, hkeep⟩ := ih walk hnames.2 hnew.2
      refine ⟨walk', ?_, hfound, fun sd' hsd' hfalse => ?_,
        fun key hkey => hkeep key fun sd' hsd' => hkey sd' (List.mem_cons_of_mem _ hsd')⟩
      · rw [announce, if_pos hmatch]
        exact hok
      · rcases List.mem_cons.mp hsd' with rfl | hsd'
        · rw [hmatch] at hfalse
          cases hfalse
        · exact hset sd' hsd' hfalse
    | false =>
      let next : Walk := { walk with patternsByDir := walk.patternsByDir.set (root ++ [sd]) rules }
      obtain ⟨walk', hok, hfound, hset, hkeep⟩ := ih next hnames.2 fun sd' hsd' => by
        rw [Dict.get?_set, if_neg (hother sd' hsd')]
        exact hnew.2 sd' hsd'
      refine ⟨walk', ?_, hfound, fun sd' hsd' hfalse => ?_, fun key hkey => ?_⟩
      · rw [announce, if_neg (by rw [hmatch]; exact Bool.false_ne_true), hnew.1]
        exact hok
      · by_cases hmem : sd' ∈ dirs.map Prod.fst
        · exact hset sd' hmem hfalse
        · have heq : sd' = sd := (List.mem_cons.mp hsd').resolve_right hmem
          subst heq
          rw [hkeep _ fun sd'' hsd'' heq => hother sd'' hsd'' heq.symm, Dict.get?_set, if_pos rfl]
      · rw [hkeep key fun sd' hsd' => hkey sd' (List.mem_cons_of_mem _ hsd'), Dict.get?_set,
          if_neg (hkey sd List.mem_cons_self)]

mutual

/-- The walk of a directory finds its files and leaves the rules of the directories that are not
below it as they are. -/
theorem walkDir_ok (root : Path) : (dir : Dir) → (walk : Walk) → dir.NamesDistinct →
    (∀ key, Below root key → walk.patternsByDir.get? key = none) →
    ∃ walk', walkDir git baseDirPath ignoreFileName root dir walk = .ok walk' ∧
      walk'.found = walk.found ++
        foundIn git ignoreFileName root ((walk.patternsByDir.get? root).getD []) dir ∧
      ∀ key, ¬Below root key → walk'.patternsByDir.get? key = walk.patternsByDir.get? key
  | .mk files dirs, walk, hnames, hnew => by
    rw [Dir.NamesDistinct] at hnames
    let rules := rulesOf git ignoreFileName root files ((walk.patternsByDir.get? root).getD [])
    obtain ⟨walk₁, hok₁, hfound₁, hset₁, hkeep₁⟩ := announce_ok git baseDirPath root rules dirs
      walk hnames.1 fun sd _ => hnew _ (below_child root sd)
    let walk₂ : Walk :=
      { walk₁ with found := walk₁.found ++ keptFiles git ignoreFileName root files rules }
    have hnew₂ : ∀ key, ∀ sd ∈ dirs.map Prod.fst, Below (root ++ [sd]) key →
        walk₂.patternsByDir.get? key = none := by
      intro key sd _ hkey
      rw [hkeep₁ key fun sd' _ heq => not_below_sibling root sd sd' (heq ▸ hkey)]
      exact hnew key (below_trans hkey)
    obtain ⟨walk₃, hok₃, hfound₃, hkeep₃⟩ :=
      walkDirs_ok root rules dirs walk₂ hnames.1 hnames.2 hset₁ hnew₂
    refine ⟨walk₃, ?_, ?_, fun key hkey => ?_⟩
    · rw [walkDir]
      change Except.bind (announce git baseDirPath root rules dirs walk) _ = _
      rw [hok₁]
      exact hok₃
    · rw [hfound₃, foundIn, ← List.append_assoc, ← hfound₁]
    · rw [hkeep₃ key fun sd _ h => hkey (below_trans h)]
      exact hkeep₁ key fun sd _ heq => hkey (heq ▸ below_child root sd)

theorem walkDirs_ok (root : Path) (rules : List GlobIgnoreRule) : (dirs : List (String × Dir)) →
    (walk : Walk) → (dirs.map Prod.fst).Nodup → AllNamesDistinct dirs →
    (∀ sd ∈ dirs.map Prod.fst, matchRules git (root ++ [sd]) true rules = false →
      walk.patternsByDir.get? (root ++ [sd]) = some rules) →
    (∀ key, ∀ sd ∈ dirs.map Prod.fst, Below (root ++ [sd]) key →
      walk.patternsByDir.get? key = none) →
    ∃ walk', walkDirs git baseDirPath ignoreFileName root rules dirs walk = .ok walk' ∧
      walk'.found = walk.found ++ foundInAll git ignoreFileName root rules dirs ∧
      ∀ key, (∀ sd ∈ dirs.map Prod.fst, ¬Below (root ++ [sd]) key) →
        walk'.patternsByDir.get? key = walk.patternsByDir.get? key
  | [], walk, _, _, _, _ => ⟨walk, rfl, (by simp [foundInAll]), fun _ _ => rfl⟩
  | (sd, dir) :: dirs, walk, hnames, hdistinct, hset, hnew => by
    rw [List.map_cons, List.nodup_cons] at hnames
    rw [AllNamesDistinct] at hdistinct
    simp only [List.map_cons, List.forall_mem_cons] at hset hnew ⊢
    rw [walkDirs, foundInAll]
    cases hmatch : matchRules git (root ++ [sd]) true rules with
    | true =>
      obtain ⟨walk', hok, hfound, hkeep⟩ := walkDirs_ok root rules dirs walk hnames.2 hdistinct.2
        hset.2 fun key => (hnew key).2
      exact ⟨walk', hok, hfound, fun key hkey => hkeep key hkey.2⟩
    | false =>
      obtain ⟨walk₁, hok₁, hfound₁, hkeep₁⟩ := walkDir_ok (root ++ [sd]) dir walk hdistinct.1
        fun key => (hnew key).1
      rw [hset.1 hmatch, Option.getD_some] at hfound₁
      have hset₁ : ∀ sd' ∈ dirs.map Prod.fst, matchRules git (root ++ [sd']) true rules = false →
          walk₁.patternsByDir.get? (root ++ [sd']) = some rules := by
        intro sd' hsd' hfalse
        rw [hkeep₁ _ (not_below_sibling root sd sd')]
        exact hset.2 sd' hsd' hfalse
      have hnew₁ : ∀ key, ∀ sd' ∈ dirs.map Prod.fst, Below (root ++ [sd']) key →
          walk₁.patternsByDir.get? key = none := by
        intro key sd' hsd' hkey
        rw [hkeep₁ key fun h => hnames.1 (below_unique hkey h ▸ hsd')]
        exact (hnew key).2 sd' hsd' hkey
      obtain ⟨walk₂, hok₂, hfound₂, hkeep₂⟩ :=
        walkDirs_ok root rules dirs walk₁ hnames.2 hdistinct.2 hset₁ hnew₁
      refine ⟨walk₂, ?_, ?_, fun key hkey => ?_⟩
      · rw [if_neg Bool.false_ne_true]
        change Except.bind (walkDir git baseDirPath ignoreFileName (root ++ [sd]) dir walk) _ = _
        rw [hok₁]
        exact hok₂
      · rw [hfound₂, hfound₁, if_neg Bool.false_ne_true, List.append_assoc]
      · rw [hkeep₂ key hkey.2, hkeep₁ key hkey.1]

end

/-- **The search returns**, and yields what `foundIn` names. -/
theorem findPathFromDirectory_eq {base : Dir} (hnames : base.NamesDistinct) :
    findPathFromDirectory git baseDirPath ignoreFileName base =
      .ok (foundIn git ignoreFileName [] [] base) := by
  obtain ⟨walk, hok, hfound, -⟩ := walkDir_ok git baseDirPath ignoreFileName [] base {} hnames
    fun _ _ => rfl
  change Except.bind (walkDir git baseDirPath ignoreFileName [] base {}) _ = _
  rw [hok]
  exact congrArg Except.ok hfound

end

/-! ## Which files those are -/

theorem mem_keptFiles {root path : Path} {files : List (String × String)}
    {rules : List GlobIgnoreRule} :
    path ∈ keptFiles git ignoreFileName root files rules ↔ ∃ file ∈ files.map Prod.fst,
      file ≠ ignoreFileName ∧ matchRules git (root ++ [file]) false rules = false ∧
        path = root ++ [file] := by
  unfold keptFiles
  simp only [List.mem_map, List.mem_filter, Bool.and_eq_true, bne_iff_ne, Bool.not_eq_true']
  constructor
  · rintro ⟨file, ⟨hfile, hname, hmatch⟩, rfl⟩
    exact ⟨file, hfile, hname, hmatch, rfl⟩
  · rintro ⟨file, hfile, hname, hmatch, rfl⟩
    exact ⟨file, ⟨hfile, hname, hmatch⟩, rfl⟩

theorem mem_foundInAll {root path : Path} {rules : List GlobIgnoreRule}
    {dirs : List (String × Dir)} :
    path ∈ foundInAll git ignoreFileName root rules dirs ↔ ∃ entry ∈ dirs,
      matchRules git (root ++ [entry.1]) true rules = false ∧
        path ∈ foundIn git ignoreFileName (root ++ [entry.1]) rules entry.2 := by
  induction dirs with
  | nil => simp [foundInAll]
  | cons entry dirs ih =>
    obtain ⟨sd, dir⟩ := entry
    rw [foundInAll, List.mem_append, ih, List.exists_mem_cons_iff]
    refine or_congr_left ?_
    cases matchRules git (root ++ [sd]) true rules <;> simp

theorem lookup_eq_some_iff {α β : Type} [DecidableEq α] {entries : List (α × β)}
    (hnames : (entries.map Prod.fst).Nodup) {a : α} {b : β} :
    entries.lookup a = some b ↔ (a, b) ∈ entries := by
  induction entries with
  | nil => simp
  | cons entry entries ih =>
    obtain ⟨a', b'⟩ := entry
    rw [List.map_cons, List.nodup_cons] at hnames
    rw [List.lookup_cons, List.mem_cons]
    by_cases h : a = a'
    · subst h
      have hnot : (a, b) ∉ entries := fun hmem =>
        hnames.1 (List.mem_map.mpr ⟨(a, b), hmem, rfl⟩)
      simp [hnot, eq_comm]
    · have hbeq : (a == a') = false := beq_eq_false_iff_ne.mpr h
      simp [hbeq, h, ih hnames.2]

theorem namesDistinct_of_mem {dirs : List (String × Dir)} (h : AllNamesDistinct dirs)
    {entry : String × Dir} (hmem : entry ∈ dirs) : entry.2.NamesDistinct := by
  induction dirs with
  | nil => cases hmem
  | cons entry' dirs ih =>
    rw [AllNamesDistinct] at h
    rcases List.mem_cons.mp hmem with rfl | hmem
    · exact h.1
    · exact ih h.2 hmem

/-- The rules without repeats match a path. -/
def MatchedAtFirst (git : GitWildMatchPattern) (ignoreFileName : String) (root : Path)
    (outer : List GlobIgnoreRule) (dir : Dir) (path : Path) (isDir : Bool) : Prop :=
  matchRules git (root ++ path) isDir (firsts (outer ++ rulesFor git ignoreFileName root dir path))
    = true

theorem rulesFor_singleton (root : Path) (dir : Dir) (name : String) :
    rulesFor git ignoreFileName root dir [name] =
      (dir.patterns ignoreFileName).filterMap (compile git · root) := by
  unfold rulesFor
  cases dir.subdir name with
  | none => simp
  | some sub => simp [rulesFor]

theorem rulesFor_cons {root : Path} {dir sub : Dir} {name : String} (rest : Path)
    (h : dir.subdir name = some sub) : rulesFor git ignoreFileName root dir (name :: rest) =
      (dir.patterns ignoreFileName).filterMap (compile git · root) ++
        rulesFor git ignoreFileName (root ++ [name]) sub rest := by
  rw [rulesFor, h]
  rfl

theorem onPrefixes_cons {P : Path → Bool → Prop} {name : String} {rest : Path} :
    OnPrefixes P (name :: rest) ↔
      P [name] (decide (rest ≠ [])) ∧ OnPrefixes (fun path => P (name :: path)) rest := by
  have hlt : ∀ n, decide (n + 1 + 1 < rest.length + 1) = decide (n + 1 < rest.length) :=
    fun n => decide_eq_decide.mpr Nat.succ_lt_succ_iff
  have hnil : decide (0 + 1 < rest.length + 1) = decide (rest ≠ []) :=
    decide_eq_decide.mpr (Nat.succ_lt_succ_iff.trans List.length_pos_iff)
  unfold OnPrefixes
  constructor
  · intro h
    refine ⟨hnil ▸ h 0 (Nat.succ_pos _), fun n hn => ?_⟩
    exact hlt n ▸ h (n + 1) (Nat.succ_lt_succ hn)
  · rintro ⟨h, hrest⟩ (_ | n) hn
    · exact hnil ▸ h
    · exact (hlt n).symm ▸ hrest n (Nat.lt_of_succ_lt_succ hn)

mutual

theorem below_of_mem_foundIn {root path : Path} {rules : List GlobIgnoreRule} : (dir : Dir) →
    path ∈ foundIn git ignoreFileName root rules dir → Below root path
  | .mk files dirs, h => by
    rw [foundIn, List.mem_append] at h
    rcases h with h | h
    · obtain ⟨file, -, -, -, rfl⟩ := mem_keptFiles.mp h
      exact below_child root file
    · exact below_of_mem_foundInAll dirs h

theorem below_of_mem_foundInAll {root path : Path} {rules : List GlobIgnoreRule} :
    (dirs : List (String × Dir)) → path ∈ foundInAll git ignoreFileName root rules dirs →
    Below root path
  | [], h => by cases h
  | (sd, dir) :: dirs, h => by
    rw [foundInAll, List.mem_append] at h
    rcases h with h | h
    · cases hmatch : matchRules git (root ++ [sd]) true rules with
      | true =>
        rw [hmatch] at h
        cases h
      | false =>
        rw [hmatch] at h
        exact below_trans (below_of_mem_foundIn dir h)
    · exact below_of_mem_foundInAll dirs h

end

/-- What is found below a subdirectory is found in the walk of that one. -/
theorem mem_foundIn_child {root rest : Path} {name : String} {rules : List GlobIgnoreRule}
    {dir : Dir} (hnames : dir.NamesDistinct) (hrest : rest ≠ []) :
    root ++ name :: rest ∈ foundIn git ignoreFileName root (firsts rules) dir ↔
      ∃ sub ∈ dir.subdir name,
        ¬MatchedAtFirst git ignoreFileName root rules dir [name] true ∧
        root ++ [name] ++ rest ∈ foundIn git ignoreFileName (root ++ [name])
          (firsts (rules ++ (dir.patterns ignoreFileName).filterMap (compile git · root))) sub := by
  cases dir with
  | mk files dirs =>
    rw [Dir.NamesDistinct] at hnames
    have hrules : rulesOf git ignoreFileName root files (firsts rules) = _ :=
      rulesOf_firsts root (.mk files dirs) rules
    rw [foundIn, List.mem_append, mem_keptFiles, mem_foundInAll]
    change _ ↔ ∃ sub, dirs.lookup name = some sub ∧ _
    simp only [lookup_eq_some_iff hnames.1, MatchedAtFirst, rulesFor_singleton, Bool.not_eq_true]
    rw [← hrules]
    constructor
    · rintro (⟨file, -, -, -, heq⟩ | ⟨⟨sd, sub⟩, hmem, hmatch, hfound⟩)
      · rw [List.append_cancel_left_eq, List.cons.injEq] at heq
        exact absurd heq.2 hrest
      · have hbelow := below_of_mem_foundIn sub hfound
        obtain ⟨_, _, heq⟩ := hbelow
        rw [List.append_assoc, List.append_cancel_left_eq, List.singleton_append,
          List.cons.injEq] at heq
        obtain ⟨rfl, -⟩ := heq
        exact ⟨sub, hmem, hmatch, by rw [List.append_assoc]; exact hfound⟩
    · rintro ⟨sub, hmem, hmatch, hfound⟩
      rw [List.append_assoc] at hfound
      exact .inr ⟨(name, sub), hmem, hmatch, hfound⟩

/-- A file of the directory itself. -/
theorem mem_foundIn_singleton {root : Path} {name : String} {rules : List GlobIgnoreRule}
    (dir : Dir) : root ++ [name] ∈ foundIn git ignoreFileName root (firsts rules) dir ↔
      name ∈ dir.files.map Prod.fst ∧ name ≠ ignoreFileName ∧
        ¬MatchedAtFirst git ignoreFileName root rules dir [name] false := by
  cases dir with
  | mk files dirs =>
    have hrules : rulesOf git ignoreFileName root files (firsts rules) = _ :=
      rulesOf_firsts root (.mk files dirs) rules
    rw [foundIn, List.mem_append, mem_keptFiles, MatchedAtFirst, rulesFor_singleton, ← hrules,
      Bool.not_eq_true]
    constructor
    · rintro (⟨file, hfile, hname, hmatch, heq⟩ | hfound)
      · rw [List.append_cancel_left_eq, List.singleton_inj] at heq
        subst heq
        exact ⟨hfile, hname, hmatch⟩
      · obtain ⟨⟨sd, sub⟩, -, -, hfound⟩ := mem_foundInAll.mp hfound
        exact absurd (below_of_mem_foundIn sub hfound) (not_below_sibling root sd name)
    · rintro ⟨hfile, hname, hmatch⟩
      exact .inl ⟨name, hfile, hname, hmatch, rfl⟩

theorem Dir.NamesDistinct.subdir {dir sub : Dir} {name : String} (h : dir.NamesDistinct)
    (hsub : sub ∈ dir.subdir name) : sub.NamesDistinct := by
  cases dir with
  | mk files dirs =>
    rw [Dir.NamesDistinct] at h
    exact namesDistinct_of_mem h.2 ((lookup_eq_some_iff h.1).mp hsub)

theorem isCandidate_cons {dir : Dir} {name name' : String} {rest : Path} :
    dir.IsCandidate ignoreFileName (name :: name' :: rest) ↔
      ∃ sub ∈ dir.subdir name, sub.IsCandidate ignoreFileName (name' :: rest) := by
  simp only [Dir.IsCandidate, Dir.hasFile, List.getLast?_cons_cons]
  constructor
  · rintro ⟨⟨sub, hsub, hfile⟩, hname⟩
    exact ⟨sub, hsub, hfile, hname⟩
  · rintro ⟨sub, hsub, hfile, hname⟩
    exact ⟨⟨sub, hsub, hfile⟩, hname⟩

theorem matchedAtFirst_cons {root : Path} {outer : List GlobIgnoreRule} {dir sub : Dir}
    {name : String} (hsub : sub ∈ dir.subdir name) (path : Path) (isDir : Bool) :
    MatchedAtFirst git ignoreFileName root outer dir (name :: path) isDir ↔
      MatchedAtFirst git ignoreFileName (root ++ [name])
        (outer ++ (dir.patterns ignoreFileName).filterMap (compile git · root)) sub path isDir := by
  rw [MatchedAtFirst, MatchedAtFirst, rulesFor_cons path hsub, List.append_assoc,
    List.append_assoc]
  rfl

/-- **A file is found when no path down to it is matched** by the rules that bear on it, without
their repeats. -/
theorem mem_foundIn_iff (path root : Path) (outer : List GlobIgnoreRule) (dir : Dir)
    (hnames : dir.NamesDistinct) :
    root ++ path ∈ foundIn git ignoreFileName root (firsts outer) dir ↔
      dir.IsCandidate ignoreFileName path ∧ OnPrefixes
        (fun path isDir => ¬MatchedAtFirst git ignoreFileName root outer dir path isDir) path := by
  induction path generalizing root outer dir with
  | nil =>
    refine ⟨fun h => ?_, fun h => absurd h.1.1 (by simp [Dir.hasFile])⟩
    rw [List.append_nil] at h
    exact absurd (below_of_mem_foundIn dir h) (not_below_self root)
  | cons name rest ih =>
    rw [onPrefixes_cons]
    cases rest with
    | nil =>
      rw [mem_foundIn_singleton]
      simp [Dir.IsCandidate, Dir.hasFile, OnPrefixes, and_assoc]
    | cons name' rest =>
      rw [mem_foundIn_child hnames (List.cons_ne_nil _ _), isCandidate_cons]
      constructor
      · rintro ⟨sub, hsub, hmatch, hfound⟩
        obtain ⟨hcandidate, hprefixes⟩ := (ih _ _ sub (hnames.subdir hsub)).mp hfound
        refine ⟨⟨sub, hsub, hcandidate⟩, hmatch, ?_⟩
        simp only [matchedAtFirst_cons hsub]
        exact hprefixes
      · rintro ⟨⟨sub, hsub, hcandidate⟩, hmatch, hprefixes⟩
        simp only [matchedAtFirst_cons hsub] at hprefixes
        exact ⟨sub, hsub, hmatch, (ih _ _ sub (hnames.subdir hsub)).mpr ⟨hcandidate, hprefixes⟩⟩

/-! ## Rules and patterns -/

variable {matched : String → Path → Bool → Bool}

/-- A compiled pattern applies to a path below its file's directory when the pattern matches it. -/
theorem applies_compile (hgit : MatchesLikeGit git matched) {pattern : String} {root : Path}
    {rule : GlobIgnoreRule} (hcompile : compile git pattern root = some rule) (name : String)
    (rest : Path) (isDir : Bool) :
    rule.applies git (root ++ name :: rest) isDir = matched pattern (name :: rest) isDir ∧
      (matched pattern (name :: rest) isDir = true →
        rule.included = some (!isNegation pattern)) := by
  unfold compile at hcompile
  split at hcompile
  · cases hcompile
  · rw [Option.some.injEq] at hcompile
    subst hcompile
    have hregex : git.regexMatch pattern (GlobIgnoreRule.relPath
        ⟨pattern, git.included pattern, if isRelative pattern then some root else none⟩
        (root ++ name :: rest) isDir) = matched pattern (name :: rest) isDir := by
      unfold GlobIgnoreRule.relPath
      cases hrelative : isRelative pattern with
      | true =>
        simp only [if_true, List.drop_left]
        exact hgit.relative pattern _ isDir hrelative
      | false =>
        obtain ⟨dirs, last, hlast⟩ := List.eq_nil_or_concat (name :: rest) |>.resolve_left
          (List.cons_ne_nil name rest)
        rw [List.concat_eq_append] at hlast
        have hdrop : (root ++ name :: rest).drop ((root ++ name :: rest).length - 1) = [last] := by
          rw [hlast, ← List.append_assoc, List.length_append, List.length_singleton,
            Nat.add_sub_cancel, List.drop_left]
        simp only [Bool.false_eq_true, if_false]
        rw [hdrop, hlast]
        exact hgit.name pattern dirs last isDir hrelative
    rw [GlobIgnoreRule.applies, hregex]
    cases hincluded : git.included pattern with
    | none => simp [hgit.blank pattern _ isDir hincluded]
    | some included => simp [hgit.negation pattern included hincluded]

/-- The rules of a file that apply to a path are its patterns that match it. -/
theorem applied_compile (hgit : MatchesLikeGit git matched) (patterns : List String) (root : Path)
    (name : String) (rest : Path) (isDir : Bool) :
    ((patterns.filterMap (compile git · root)).filter
        (·.applies git (root ++ name :: rest) isDir)).map GlobIgnoreRule.included =
      ((patterns.map (·, name :: rest)).filter fun p => matched p.1 p.2 isDir).map
        fun p => some (!isNegation p.1) := by
  induction patterns with
  | nil => rfl
  | cons pattern patterns ih =>
    rw [List.filterMap_cons, List.map_cons, List.filter_cons]
    cases hcompile : compile git pattern root with
    | none =>
      have hslash : isSlash pattern = true := by
        unfold compile at hcompile
        split at hcompile
        · assumption
        · cases hcompile
      rw [hgit.slash pattern _ isDir hslash, if_neg Bool.false_ne_true]
      exact ih
    | some rule =>
      obtain ⟨happlies, hincluded⟩ := applies_compile hgit hcompile name rest isDir
      rw [List.filter_cons, happlies]
      cases hmatched : matched pattern (name :: rest) isDir with
      | false =>
        rw [if_neg Bool.false_ne_true, if_neg Bool.false_ne_true]
        exact ih
      | true =>
        rw [if_pos rfl, if_pos rfl, List.map_cons, List.map_cons, ih, hincluded hmatched]

/-- The rules that apply to a path, repeats included, are the patterns that match it. -/
theorem applied_rulesFor (hgit : MatchesLikeGit git matched) (path root : Path) (dir : Dir)
    (isDir : Bool) :
    ((rulesFor git ignoreFileName root dir path).filter (·.applies git (root ++ path) isDir)).map
        GlobIgnoreRule.included =
      ((patternsFor ignoreFileName dir path).filter fun p => matched p.1 p.2 isDir).map
        fun p => some (!isNegation p.1) := by
  induction path generalizing root dir with
  | nil => rfl
  | cons name rest ih =>
    rw [rulesFor, patternsFor, List.filter_append, List.filter_append, List.map_append,
      List.map_append, applied_compile hgit]
    congr 1
    cases dir.subdir name with
    | none => rfl
    | some sub =>
      have hsub := ih (root ++ [name]) sub
      rw [List.append_assoc] at hsub
      exact hsub

/-- **With the repeats, the last rule that applies decides as `.gitignore` does.** -/
theorem excluded_iff (hgit : MatchesLikeGit git matched) (base : Dir) (path : Path)
    (isDir : Bool) : Excluded matched ignoreFileName base path isDir ↔
      (appliedRules git ignoreFileName base path isDir).getLast?.map GlobIgnoreRule.included =
        some (some true) := by
  rw [← List.getLast?_map, appliedRules]
  have h : ((rulesFor git ignoreFileName [] base path).filter
      (·.applies git path isDir)).map GlobIgnoreRule.included = _ :=
    applied_rulesFor hgit path [] base isDir
  rw [h, List.getLast?_map, Option.map_eq_some_iff]
  exact exists_congr fun p => and_congr_right' (by simp)

/-- Without them, the rule that came for the first time last decides. -/
theorem matchedAtFirst_iff (base : Dir) (path : Path) (isDir : Bool) :
    MatchedAtFirst git ignoreFileName [] [] base path isDir ↔
      (firsts (appliedRules git ignoreFileName base path isDir)).getLast?.map
        GlobIgnoreRule.included = some (some true) := by
  rw [MatchedAtFirst, matchRules_iff, filter_firsts]
  rfl

theorem excludedAtFirst_iff (base : Dir) (path : Path) (isDir : Bool) :
    ExcludedAtFirst git ignoreFileName base path isDir ↔
      MatchedAtFirst git ignoreFileName [] [] base path isDir := by
  rw [matchedAtFirst_iff, ExcludedAtFirst]
  generalize appliedRules git ignoreFileName base path isDir = rules
  cases hlast : (firsts rules).getLast? with
  | none =>
    rw [getLast?_firsts_eq_none] at hlast
    simp [hlast]
  | some last =>
    obtain ⟨hmem, hle⟩ := getLast?_firsts hlast
    rw [Option.map_some, Option.some.injEq]
    constructor
    · rintro ⟨rule, hrule, hincluded, hle'⟩
      have heq : rules.idxOf rule = rules.idxOf last :=
        Nat.le_antisymm (hle rule hrule) (hle' last hmem)
      rw [← (List.idxOf_inj hrule).mp heq]
      exact hincluded
    · exact fun hincluded => ⟨last, hmem, hincluded, hle⟩

/-- They decide alike when the last rule is not overtaken. -/
theorem notOvertaken_iff (hgit : MatchesLikeGit git matched) (base : Dir) (path : Path)
    (isDir : Bool) : NotOvertaken git ignoreFileName base path isDir ↔
      (MatchedAtFirst git ignoreFileName [] [] base path isDir ↔
        Excluded matched ignoreFileName base path isDir) := by
  rw [matchedAtFirst_iff, excluded_iff hgit, NotOvertaken, ← map_getLast?_firsts_iff]
  have hsome : ∀ rule ∈ appliedRules git ignoreFileName base path isDir,
      ∃ included, rule.included = some included := fun rule hrule =>
    Option.isSome_iff_exists.mp (Bool.and_eq_true_iff.mp (List.mem_filter.mp hrule).2).1
  revert hsome
  generalize appliedRules git ignoreFileName base path isDir = rules
  intro hsome
  cases hfirst : (firsts rules).getLast? with
  | none =>
    rw [getLast?_firsts_eq_none] at hfirst
    simp [hfirst]
  | some w =>
    have hw := (getLast?_firsts hfirst).1
    cases hlast : rules.getLast? with
    | none =>
      rw [List.getLast?_eq_none_iff] at hlast
      exact absurd hw (hlast ▸ List.not_mem_nil)
    | some last =>
      obtain ⟨b, hb⟩ := hsome w hw
      obtain ⟨b', hb'⟩ := hsome last (List.mem_of_getLast? hlast)
      rw [Option.map_some, Option.map_some, hb, hb']
      cases b <;> cases b' <;> simp

/-! ## Following `.gitignore` -/

theorem onPrefixes_not {P : Path → Bool → Prop} {file : Path} :
    OnPrefixes (fun path isDir => ¬P path isDir) file ↔ ¬OnSomePrefix P file := by
  unfold OnPrefixes OnSomePrefix
  push Not
  rfl

/-- Two properties hold on some prefix alike when they hold alike on every prefix, or both do on
some. -/
theorem onSomePrefix_iff_iff {P Q : Path → Bool → Prop} {file : Path} :
    (OnSomePrefix P file ↔ OnSomePrefix Q file) ↔
      OnPrefixes (fun path isDir => P path isDir ↔ Q path isDir) file ∨
        (OnSomePrefix Q file ∧ OnSomePrefix P file) := by
  constructor
  · intro h
    by_cases hQ : OnSomePrefix Q file
    · exact .inr ⟨hQ, h.mpr hQ⟩
    · refine .inl fun n hn => ⟨fun hp => ?_, fun hq => ?_⟩
      · exact absurd (h.mp ⟨n, hn, hp⟩) hQ
      · exact absurd ⟨n, hn, hq⟩ hQ
  · rintro (h | ⟨hQ, hP⟩)
    · exact exists_congr fun n => and_congr_right fun hn => h n hn
    · exact ⟨fun _ => hQ, fun _ => hP⟩

/-- Patterns without wildcards: a name, or a path from the file's directory, maybe negated. -/
def literalPattern : GitWildMatchPattern where
  included pattern :=
    if pattern.toList.all isSpace || pattern.toList.head? == some '#' then none
    else some !isNegation pattern
  regexMatch pattern text :=
    !(pattern.toList.all isSpace || pattern.toList.head? == some '#') && !isSlash pattern &&
      (pattern.toList.dropWhile (· == '!')).dropWhile (· == '/') == text.toList

def literalMatched (pattern : String) (rel : Path) (isDir : Bool) : Bool :=
  literalPattern.regexMatch pattern
    (relText pattern (if isRelative pattern then rel else rel.drop (rel.length - 1)) isDir)

theorem matchesLikeGit_literal : MatchesLikeGit literalPattern literalMatched where
  relative pattern rel isDir h := by rw [literalMatched, if_pos h]
  name pattern dirs name isDir h := by simp [literalMatched, h]
  negation pattern included h := by
    simp only [literalPattern] at h
    split at h
    · cases h
    · exact (Option.some.inj h).symm
  blank pattern rel isDir h := by
    simp only [literalPattern] at h
    split at h
    · next hblank =>
      simp only [literalMatched, literalPattern, hblank]
      rfl
    · cases h
  slash pattern rel isDir h := by simp [literalMatched, literalPattern, h]

/-- A directory with an ignore file of the lines `lines` and a file `keep.py`. -/
def withIgnoreFile (lines : String) : Dir := .mk [(".airflowignore", lines), ("keep.py", "")] []

theorem namesDistinct_withIgnoreFile (lines : String) : (withIgnoreFile lines).NamesDistinct :=
  ⟨List.nodup_nil, trivial⟩

theorem candidate_withIgnoreFile {lines : String} {file : Path}
    (h : (withIgnoreFile lines).IsCandidate ".airflowignore" file) : file = ["keep.py"] := by
  obtain ⟨hfile, hname⟩ := h
  rcases file with _ | ⟨name, _ | ⟨name', rest⟩⟩
  · cases hfile
  · have hmem : name ∈ [".airflowignore", "keep.py"] := hfile
    rw [List.getLast?_singleton, ne_eq, Option.some.injEq] at hname
    rcases List.mem_cons.mp hmem with rfl | hmem
    · exact absurd rfl hname
    · rw [List.mem_singleton.mp hmem]
  · obtain ⟨sub, hsub, -⟩ := hfile
    cases hsub

end Airflow.Utils.File
