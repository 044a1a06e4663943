import Airflow.Kubernetes.Names

/-!
# When names and labels are valid

Everything between the ends is filtered or comes from a slug, so only the ends can be wrong: they
are, exactly when there is no letter or digit left to begin with and the suffix's hyphen comes first.
-/

namespace Airflow.Kubernetes

open Trim

/-! ## Characters -/

theorem isAlnum_eq (c : Char) : isAlnum c = (c.isUpper || isLowerAlnum c) := Bool.or_assoc ..

theorem isAlnum_of_isLowerAlnum {c : Char} (h : isLowerAlnum c = true) : isAlnum c = true := by
  rw [isAlnum_eq, h, Bool.or_true]

theorem isLabelChar_of_isAlnum {c : Char} (h : isAlnum c = true) : isLabelChar c = true := by
  simp [isLabelChar, h]

theorem isAlnum_hyphen : isAlnum '-' = false := by decide

theorem isLowerAlnum_toLower {c : Char} (h : isAlnum c = true) : isLowerAlnum c.toLower = true := by
  have halnum : isAlnum c = (decide ('A'.val ≤ c.val ∧ c.val ≤ 'Z'.val) || isLowerAlnum c) :=
    isAlnum_eq c
  rw [halnum, Bool.or_eq_true, decide_eq_true_iff] at h
  by_cases hupper : 'A'.val ≤ c.val ∧ c.val ≤ 'Z'.val
  · have hval : c.toLower.val = c.val + ('a'.val - 'A'.val) := by
      rw [show c.toLower = _ from dif_pos hupper]
    have hlower : 'a'.val ≤ c.toLower.val ∧ c.toLower.val ≤ 'z'.val := by
      rw [hval]
      simp only [UInt32.le_iff_toNat_le, UInt32.toNat_add] at hupper ⊢
      grind
    exact Bool.or_eq_true_iff.mpr (.inl (Bool.and_eq_true_iff.mpr
      ⟨decide_eq_true hlower.1, decide_eq_true hlower.2⟩))
  · rw [show c.toLower = c from dif_neg hupper]
    exact h.resolve_left hupper

theorem isAlnum_of_hex {c : Char} (h : c ∈ "0123456789abcdef".toList) : isAlnum c = true := by
  have hall : ("0123456789abcdef".toList).all isAlnum = true := by decide
  exact List.all_eq_true.mp hall c h

/-! ## Slices -/

theorem sliceTo_natCast (s : List Char) (n : Nat) : sliceTo s n = s.take n := by
  rw [sliceTo, if_neg (Int.not_lt.mpr (Int.natCast_nonneg n)), Int.toNat_natCast]

/-- A suffix after a hyphen ends what it is appended to. -/
theorem ends_append_hyphen {s suffix : List Char} (hs : s.head?.any isAlnum = true)
    (hne : suffix ≠ []) (hsuffix : ∀ c ∈ suffix, isAlnum c = true) :
    Ends isAlnum (s ++ '-' :: suffix) := by
  refine .append hs ?_
  have hlast : ('-' :: suffix).getLast? = some (suffix.getLast hne) := by
    rw [List.getLast?_eq_some_getLast (List.cons_ne_nil _ _), List.getLast_cons hne]
  rw [hlast]
  exact hsuffix _ (List.getLast_mem hne)

/-- What begins with a hyphen has no valid end. -/
theorem not_ends_hyphen (suffix : List Char) : ¬Ends isAlnum ('-' :: suffix) := by
  intro h
  have hhead := h.1
  rw [List.head?_cons, Option.any_some, isAlnum_hyphen] at hhead
  cases hhead

/-! ## Slugs -/

theorem Slug.text_eq_nil {slug : Slug} : slug.text = [] ↔ slug.words = [] := by
  obtain ⟨words, hword⟩ := slug
  cases words with
  | nil => exact ⟨fun _ => rfl, fun _ => rfl⟩
  | cons w ws =>
    refine ⟨fun h => ?_, fun h => by cases h⟩
    have hw : w ≠ [] := (hword w (List.mem_cons_self ..)).1
    cases ws with
    | nil =>
      rw [Slug.text, List.intercalate_singleton] at h
      exact absurd h hw
    | cons w' ws =>
      rw [Slug.text, List.intercalate_cons_cons] at h
      exact absurd (List.append_eq_nil_iff.mp (List.append_eq_nil_iff.mp h).1).1 hw

/-- The characters of a slug. -/
theorem Slug.text_chars (slug : Slug) :
    ∀ c ∈ slug.text, isLowerAlnum c = true ∨ isSeparator c = true := by
  obtain ⟨words, hword⟩ := slug
  change ∀ c ∈ ['-'].intercalate words, _
  induction words with
  | nil => exact fun c hc => absurd hc List.not_mem_nil
  | cons w ws ih =>
    have hw : ∀ c ∈ w, isLowerAlnum c = true ∨ isSeparator c = true :=
      fun c hc => .inl ((hword w (List.mem_cons_self ..)).2 c hc)
    have hws := ih fun w' hw' => hword w' (List.mem_cons_of_mem _ hw')
    cases ws with
    | nil =>
      rw [List.intercalate_singleton]
      exact hw
    | cons w' ws =>
      rw [List.intercalate_cons_cons]
      intro c hc
      rcases List.mem_append.mp hc with hc | hc
      · rcases List.mem_append.mp hc with hc | hc
        · exact hw c hc
        · rw [List.mem_singleton.mp hc]
          exact .inr (by decide)
      · exact hws c hc

/-- A slug begins with a letter or a digit. -/
theorem Slug.head?_text {slug : Slug} (h : slug.words ≠ []) :
    slug.text.head?.any isAlnum = true := by
  obtain ⟨words, hword⟩ := slug
  cases words with
  | nil => exact absurd rfl h
  | cons w ws =>
    obtain ⟨hne, hchars⟩ := hword w (List.mem_cons_self ..)
    have hhead : (Slug.text ⟨w :: ws, hword⟩).head? = some (w.head hne) := by
      cases ws with
      | nil => rw [Slug.text, List.intercalate_singleton, List.head?_eq_some_head hne]
      | cons w' ws =>
        rw [Slug.text, List.intercalate_cons_cons, List.append_assoc,
          List.head?_append_of_ne_nil _ hne, List.head?_eq_some_head hne]
    rw [hhead]
    exact isAlnum_of_isLowerAlnum (hchars _ (List.head_mem hne))

/-! ## Pod names -/

/-- Cutting and stripping keeps a string that begins with a letter or a digit, and its
characters. -/
theorem strip_take {s : List Char} {n : Nat} (hn : n ≠ 0) (hs : s.head?.any isAlnum = true)
    (hchars : ∀ c ∈ s, isLowerAlnum c = true ∨ isSeparator c = true) :
    (strip isSeparator (s.take n)).head?.any isAlnum = true ∧
      ∀ c ∈ strip isSeparator (s.take n), isLowerAlnum c = true ∨ isSeparator c = true := by
  have hsub : ∀ c ∈ strip isSeparator (s.take n), c ∈ s :=
    fun c hc => (List.take_sublist n s).subset (mem_of_mem_strip hc)
  refine ⟨?_, fun c hc => hchars c (hsub c hc)⟩
  have hmem : ∃ c ∈ s.take n, isSeparator c = false := by
    rw [← head?_take hn] at hs
    cases htake : s.take n with
    | nil =>
      rw [htake] at hs
      cases hs
    | cons c rest =>
      refine ⟨c, List.mem_cons_self .., ?_⟩
      rw [htake] at hs
      by_contra hsep
      rw [Bool.not_eq_false] at hsep
      have hc : isAlnum c = true := hs
      simp only [isSeparator, Bool.or_eq_true, beq_iff_eq] at hsep
      rcases hsep with rfl | rfl
      · exact absurd hc (by decide)
      · exact absurd hc (by decide)
  have hends := ends_strip hmem
  have hhead := hends.1
  rw [Option.any_eq_true] at hhead ⊢
  obtain ⟨c, hc, hnot⟩ := hhead
  refine ⟨c, hc, ?_⟩
  rcases hchars c (hsub c (List.mem_of_mem_head? hc)) with hlower | hsep
  · exact isAlnum_of_isLowerAlnum hlower
  · rw [hsep] at hnot
    cases hnot

/-- The name of a slug that has a word is valid; without one it is the suffix with its hyphen. -/
theorem validPodName_iff (slug : Slug) (randStr : RandStr 8) :
    ValidPodName (addPodSuffix (strip isSeparator (sliceTo slug.text podNameMaxLength)) randStr) ↔
      slug.words ≠ [] := by
  have hlength : ('-' :: randStr.chars).length = 9 := by rw [List.length_cons, randStr.length_eq]
  have hslice (s : List Char) :
      sliceTo s ((podNameMaxLength : Int) - (('-' :: randStr.chars).length : Nat)) = s.take 54 := by
    rw [hlength, ← sliceTo_natCast]
    rfl
  have hrandNe : randStr.chars ≠ [] := by
    intro h
    have hzero := randStr.length_eq
    rw [h] at hzero
    cases hzero
  unfold addPodSuffix
  simp only [hslice, sliceTo_natCast]
  constructor
  · intro h hnil
    have htext : slug.text = [] := Slug.text_eq_nil.mpr hnil
    have hends := h.ends
    rw [htext] at hends
    exact not_ends_hyphen _ hends
  · intro h
    obtain ⟨hhead, hchars⟩ := strip_take (n := 63) (by decide) (Slug.head?_text h) slug.text_chars
    obtain ⟨hhead', hchars'⟩ := strip_take (n := 54) (by decide) hhead hchars
    refine ⟨?_, fun c hc => ?_, ?_⟩
    · rw [List.length_append, hlength]
      have hle := length_strip_le isSeparator
        ((strip isSeparator (slug.text.take podNameMaxLength)).take 54)
      have htake := List.length_take_le 54 (strip isSeparator (slug.text.take podNameMaxLength))
      omega
    · rcases List.mem_append.mp hc with hc | hc
      · exact hchars' c hc
      · rcases List.mem_cons.mp hc with rfl | hc
        · exact .inr (by decide)
        · exact .inl (randStr.lower c hc)
    · exact ends_append_hyphen hhead' hrandNe fun c hc =>
        isAlnum_of_isLowerAlnum (randStr.lower c hc)

/-! ## Label values -/

theorem removeUnsafe_sublist (s : List Char) : (removeUnsafe s).Sublist s := by
  induction s with
  | nil => exact .slnil
  | cons c rest ih =>
    rw [removeUnsafe]
    split_ifs
    · exact ih.cons c
    · exact List.nil_sublist _
    · exact ih.cons_cons c

theorem isLabelChar_of_mem_removeUnsafe {s : List Char} :
    ∀ c ∈ removeUnsafe s, isLabelChar c = true := by
  induction s with
  | nil => exact fun c hc => absurd hc List.not_mem_nil
  | cons c rest ih =>
    rw [removeUnsafe]
    split_ifs with hunsafe hrun
    · exact ih
    · exact fun c hc => absurd hc List.not_mem_nil
    · intro d hd
      rcases List.mem_cons.mp hd with rfl | hd
      · rwa [Bool.not_eq_true, Bool.not_eq_false'] at hunsafe
      · exact ih d hd

/-- A letter or a digit stays. -/
theorem mem_removeUnsafe {s : List Char} {d : Char} (hd : d ∈ s) (halnum : isAlnum d = true) :
    d ∈ removeUnsafe s := by
  induction s with
  | nil => exact absurd hd List.not_mem_nil
  | cons c rest ih =>
    rw [removeUnsafe]
    split_ifs with hunsafe hrun
    · rcases List.mem_cons.mp hd with rfl | hd
      · rw [isLabelChar_of_isAlnum halnum] at hunsafe
        cases hunsafe
      · exact ih hd
    · have hnot := List.all_eq_true.mp hrun d hd
      rw [halnum] at hnot
      cases hnot
    · rcases List.mem_cons.mp hd with rfl | hd
      · exact List.mem_cons_self ..
      · exact List.mem_cons_of_mem _ (ih hd)

/-- What stays ends with a letter or a digit. -/
theorem getLast?_removeUnsafe {s : List Char} (h : removeUnsafe s ≠ []) :
    (removeUnsafe s).getLast?.any isAlnum = true := by
  induction s with
  | nil => exact absurd rfl h
  | cons c rest ih =>
    rw [removeUnsafe] at h ⊢
    split_ifs at h ⊢ with hunsafe hrun
    · exact ih h
    · exact absurd rfl h
    · by_cases hrest : removeUnsafe rest = []
      · -- a letter or digit further on would have stayed, so `c` is one
        rw [hrest, List.getLast?_singleton, Option.any_some]
        by_contra hc
        refine hrun (List.all_eq_true.mpr fun d hd => ?_)
        rw [Bool.not_eq_true']
        by_contra hd'
        rw [Bool.not_eq_false] at hd'
        rcases List.mem_cons.mp hd with rfl | hd
        · exact hc hd'
        · have hmem := mem_removeUnsafe hd hd'
          rw [hrest] at hmem
          cases hmem
      · rw [List.getLast?_cons_of_ne_nil hrest]
        exact ih hrest

/-- What stays begins with the letter or digit that is first. -/
theorem head?_removeUnsafe {s : List Char} (h : s.head?.any isAlnum = true) :
    (removeUnsafe s).head?.any isAlnum = true := by
  cases s with
  | nil => cases h
  | cons c rest =>
    have hc : isAlnum c = true := h
    rw [removeUnsafe]
    split_ifs with hunsafe hrun
    · rw [isLabelChar_of_isAlnum hc] at hunsafe
      cases hunsafe
    · have hnot := List.all_eq_true.mp hrun c (List.mem_cons_self ..)
      rw [hc] at hnot
      cases hnot
    · exact hc

/-- Without letters and digits nothing is left of a label. -/
theorem safeLabel_eq_nil {string : List Char} (h : ∀ c ∈ string, isAlnum c = false) :
    safeLabel string = [] := by
  have hdrop : string.dropWhile (!isAlnum ·) = [] := by
    rw [List.dropWhile_eq_nil_iff]
    intro c hc
    rw [h c hc]
    rfl
  rw [safeLabel, hdrop]
  rfl

theorem isLabelChar_of_mem_safeLabel {string : List Char} :
    ∀ c ∈ safeLabel string, isLabelChar c = true :=
  isLabelChar_of_mem_removeUnsafe

/-- With one, the label left begins and ends with one. -/
theorem ends_safeLabel {string : List Char} (h : ∃ c ∈ string, isAlnum c = true) :
    Ends isAlnum (safeLabel string) := by
  obtain ⟨c, hc, halnum⟩ := h
  have hdrop : string.dropWhile (!isAlnum ·) ≠ [] := by
    intro hnil
    have hnot := List.dropWhile_eq_nil_iff.mp hnil c hc
    rw [halnum] at hnot
    cases hnot
  have hfirst := List.head_dropWhile_not (!isAlnum ·) hdrop
  rw [Bool.not_eq_false'] at hfirst
  have hhead : (safeLabel string).head?.any isAlnum = true := by
    refine head?_removeUnsafe ?_
    rw [List.head?_eq_some_head hdrop, Option.any_some, hfirst]
  refine ⟨hhead, getLast?_removeUnsafe fun hnil => ?_⟩
  rw [safeLabel, hnil] at hhead
  cases hhead

/-- The label of a string is valid, if the string has a letter or a digit; without one it is a
hyphen and a hash. -/
theorem validLabel_iff (md5 : List Char → HexDigest) {string : List Char} (hne : string ≠ []) :
    ValidLabel (makeSafeLabelValue md5 string) ↔ ∃ c ∈ string, isAlnum c = true := by
  have hhash : ((md5 string).chars.take 9).length = 9 := by
    rw [List.length_take, (md5 string).length_eq]
    rfl
  have hslice (s : List Char) :
      sliceTo s ((maxLabelLen : Int) - ((md5 string).chars.take 9).length - 1) = s.take 53 := by
    rw [hhash, ← sliceTo_natCast]
    rfl
  have hhex : ∀ c ∈ (md5 string).chars.take 9, isAlnum c = true :=
    fun c hc => isAlnum_of_hex ((md5 string).hex c (List.mem_of_mem_take hc))
  have hhashNe : (md5 string).chars.take 9 ≠ [] := by
    intro h
    rw [h] at hhash
    cases hhash
  unfold makeSafeLabelValue
  simp only [hslice]
  constructor
  · intro h
    by_contra hnone
    have hall : ∀ c ∈ string, isAlnum c = false := by
      intro c hc
      by_contra halnum
      rw [Bool.not_eq_false] at halnum
      exact hnone ⟨c, hc, halnum⟩
    rw [safeLabel_eq_nil hall, if_pos (.inr hne)] at h
    exact not_ends_hyphen _ (h.ends (List.cons_ne_nil _ _))
  · intro h
    have hends := ends_safeLabel h
    split_ifs with hlong
    · refine ⟨?_, fun c hc => ?_, fun _ => ends_append_hyphen ?_ hhashNe hhex⟩
      · have htake := List.length_take_le 53 (safeLabel string)
        rw [List.length_append, List.length_cons, hhash]
        omega
      · rcases List.mem_append.mp hc with hc | hc
        · exact isLabelChar_of_mem_safeLabel c (List.mem_of_mem_take hc)
        · rcases List.mem_cons.mp hc with rfl | hc
          · decide
          · exact isLabelChar_of_isAlnum (hhex c hc)
      · rw [head?_take (by decide)]
        exact hends.1
    · refine ⟨?_, isLabelChar_of_mem_safeLabel, fun _ => hends⟩
      rw [not_or, Nat.not_lt] at hlong
      exact hlong.1

/-! ## The names of a task's pod -/

/-- The valid names of a task's pod: of the pod, and of its labels for the DAG and the task. -/
structure ValidNames (slugify : List Char → Slug) (md5 : List Char → HexDigest)
    (randStr : RandStr 8) (dagId taskId : List Char) : Prop where
  podId : ∃ name, createPodId slugify (some dagId) (some taskId) randStr = .ok name ∧
    ValidPodName name
  dagLabel : ValidLabel (makeSafeLabelValue md5 dagId)
  taskLabel : ValidLabel (makeSafeLabelValue md5 taskId)

/-- **A task's pod and its labels have valid names exactly when both ids have a letter or a
digit.** -/
theorem validNames_iff {slugify : List Char → Slug} {md5 : List Char → HexDigest}
    {dagId taskId : List Char} (randStr : RandStr 8)
    (hslugify : ∀ s, (∀ c ∈ s, isLabelChar c = true) → (∃ c ∈ s, isAlnum c = true) →
      (slugify s).words ≠ [])
    (hdag : dagId ≠ []) (htask : taskId ≠ [])
    (hdagKey : ∀ c ∈ dagId, isLabelChar c = true) (htaskKey : ∀ c ∈ taskId, isLabelChar c = true) :
    ValidNames slugify md5 randStr dagId taskId ↔
      (∃ c ∈ dagId, isAlnum c = true) ∧ ∃ c ∈ taskId, isAlnum c = true := by
  constructor
  · intro h
    exact ⟨(validLabel_iff md5 hdag).mp h.dagLabel, (validLabel_iff md5 htask).mp h.taskLabel⟩
  · intro h
    refine ⟨?_, (validLabel_iff md5 hdag).mpr h.1, (validLabel_iff md5 htask).mpr h.2⟩
    have hwords : (slugify (dagId ++ '-' :: taskId)).words ≠ [] := by
      refine hslugify _ (fun c hc => ?_) ?_
      · rcases List.mem_append.mp hc with hc | hc
        · exact hdagKey c hc
        · rcases List.mem_cons.mp hc with rfl | hc
          · decide
          · exact htaskKey c hc
      · obtain ⟨c, hc, halnum⟩ := h.1
        exact ⟨c, List.mem_append_left _ hc, halnum⟩
    refine ⟨_, ?_, (validPodName_iff _ randStr).mpr hwords⟩
    unfold createPodId
    simp only [Option.getD_some, hdag, htask, false_and, if_false, if_true]

/-! ### Fixed ids -/

theorem of_mem_splitOnP {p : Char → Bool} {s w : List Char} (hw : w ∈ s.splitOnP p) :
    ∀ c ∈ w, p c = false := by
  induction s generalizing w with
  | nil =>
    rw [List.splitOnP_nil, List.mem_singleton] at hw
    rw [hw]
    exact fun c hc => absurd hc List.not_mem_nil
  | cons d rest ih =>
    rw [List.splitOnP_cons_eq_if_modifyHead] at hw
    split_ifs at hw with hd
    · rcases List.mem_cons.mp hw with rfl | hw
      · exact fun c hc => absurd hc List.not_mem_nil
      · exact ih hw
    · cases hsplit : rest.splitOnP p with
      | nil => exact absurd hsplit (List.splitOnP_ne_nil p rest)
      | cons w' ws =>
        rw [hsplit, List.modifyHead_cons] at hw
        rw [hsplit] at ih
        rcases List.mem_cons.mp hw with rfl | hw
        · intro c hc
          rcases List.mem_cons.mp hc with rfl | hc
          · exact Bool.not_eq_true _ ▸ hd
          · exact ih (List.mem_cons_self ..) c hc
        · exact ih (List.mem_cons_of_mem _ hw)

theorem exists_mem_splitOnP {p : Char → Bool} {s : List Char} {c : Char} (hc : c ∈ s)
    (hp : p c = false) : ∃ w ∈ s.splitOnP p, c ∈ w := by
  induction s with
  | nil => exact absurd hc List.not_mem_nil
  | cons d rest ih =>
    rw [List.splitOnP_cons_eq_if_modifyHead]
    split_ifs with hd
    · rcases List.mem_cons.mp hc with rfl | hc
      · rw [hp] at hd
        cases hd
      · obtain ⟨w, hw, hcw⟩ := ih hc
        exact ⟨w, List.mem_cons_of_mem _ hw, hcw⟩
    · cases hsplit : rest.splitOnP p with
      | nil => exact absurd hsplit (List.splitOnP_ne_nil p rest)
      | cons w' ws =>
        rw [List.modifyHead_cons]
        rcases List.mem_cons.mp hc with rfl | hc
        · exact ⟨_, List.mem_cons_self .., List.mem_cons_self ..⟩
        · obtain ⟨w, hw, hcw⟩ := ih hc
          rw [hsplit] at hw
          rcases List.mem_cons.mp hw with rfl | hw
          · exact ⟨_, List.mem_cons_self .., List.mem_cons_of_mem _ hcw⟩
          · exact ⟨w, List.mem_cons_of_mem _ hw, hcw⟩

/-- `slugify(text, lowercase=True)` of ASCII text. -/
def asciiSlugify (text : List Char) : Slug where
  words := ((text.map Char.toLower).splitOnP (!isLowerAlnum ·)).filter (!List.isEmpty ·)
  word w hw := by
    obtain ⟨hsplit, hne⟩ := List.mem_filter.mp hw
    rw [Bool.not_eq_true'] at hne
    refine ⟨List.isEmpty_eq_false_iff.mp hne, fun c hc => ?_⟩
    have hsep := of_mem_splitOnP hsplit c hc
    rwa [Bool.not_eq_false'] at hsep

theorem asciiSlugify_words {s : List Char} (h : ∃ c ∈ s, isAlnum c = true) :
    (asciiSlugify s).words ≠ [] := by
  obtain ⟨c, hc, halnum⟩ := h
  have hlower := isLowerAlnum_toLower halnum
  obtain ⟨w, hw, hcw⟩ := exists_mem_splitOnP (p := (!isLowerAlnum ·)) (List.mem_map_of_mem hc)
    (by rw [hlower]; rfl)
  refine List.ne_nil_of_mem (a := w) (List.mem_filter.mpr ⟨hw, ?_⟩)
  rw [Bool.not_eq_true', List.isEmpty_eq_false_iff]
  exact List.ne_nil_of_mem hcw

/-- The hash of `"_"`. -/
def underscoreDigest : HexDigest where
  chars := "b14a7b8059d9c055954c92674ce60032".toList
  length_eq := by decide
  hex c hc := by
    have hall : ("b14a7b8059d9c055954c92674ce60032".toList).all
        (fun c => decide (c ∈ "0123456789abcdef".toList)) = true := by decide
    exact of_decide_eq_true (List.all_eq_true.mp hall c hc)

def someSuffix : RandStr 8 where
  chars := "x0y1z2a3".toList
  length_eq := by decide
  lower := List.all_eq_true.mp (by decide)

theorem names_of_underscore :
    createPodId asciiSlugify (some ['_']) (some ['_']) someSuffix = .ok "-x0y1z2a3".toList ∧
      makeSafeLabelValue (fun _ => underscoreDigest) ['_'] = "-b14a7b805".toList ∧
      ¬ValidNames asciiSlugify (fun _ => underscoreDigest) someSuffix ['_'] ['_'] := by
  refine ⟨rfl, by decide, ?_⟩
  intro h
  have hends := h.dagLabel.ends (by decide)
  revert hends
  decide

theorem validNames_of_dashed :
    ValidNames asciiSlugify (fun _ => underscoreDigest) someSuffix "etl_1.".toList "-a".toList :=
  (validNames_iff someSuffix (fun _ _ h => asciiSlugify_words h) (by decide) (by decide)
    (List.all_eq_true.mp (by decide)) (List.all_eq_true.mp (by decide))).mpr ⟨⟨'e', by decide, by decide⟩, 'a', by decide, by decide⟩

end Airflow.Kubernetes
