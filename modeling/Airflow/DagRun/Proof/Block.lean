import Airflow.DagRun.Proof.MappedPass

/-!
# Blocks of map indexes

The map indexes of a task are a block `0, …, k - 1` (`IsBlock`) all along a pass: an expansion fills
the indexes above the highest one and a revision those that are missing. `block_since` says that the
block has the length of the task when a visit has expanded or revised it.
-/

namespace Airflow

/-! ## Indexes of rows -/

/-- A row of the table has map index `i`. -/
def LiveIndex (rows : List TaskInstance) (i : Int) : Prop :=
  ∃ a ∈ rows, a.deleted = false ∧ a.mapIndex = i

/-- The map indexes of the rows are `0, …, k - 1`, but for an unexpanded row. -/
def IsBlock (rows : List TaskInstance) (k : Nat) : Prop :=
  ∀ i : Int, 0 ≤ i → (LiveIndex rows i ↔ i < k)

section
variable {n k : Nat} {i : Int} {j : Nat} {rows rows' : List TaskInstance} {a : TaskInstance}
  {state : TIState}

theorem liveIndex_append :
    LiveIndex (rows ++ rows') i ↔ LiveIndex rows i ∨ LiveIndex rows' i := by
  constructor
  · rintro ⟨a, ha, hlive⟩
    rcases List.mem_append.mp ha with ha | ha
    · exact .inl ⟨a, ha, hlive⟩
    · exact .inr ⟨a, ha, hlive⟩
  · rintro (⟨a, ha, hlive⟩ | ⟨a, ha, hlive⟩)
    · exact ⟨a, List.mem_append_left _ ha, hlive⟩
    · exact ⟨a, List.mem_append_right _ ha, hlive⟩

theorem liveIndex_map {f : TaskInstance → TaskInstance} (hidx : ∀ a, (f a).mapIndex = a.mapIndex)
    (hdel : ∀ a, (f a).deleted = a.deleted) : LiveIndex (rows.map f) i ↔ LiveIndex rows i := by
  constructor
  · rintro ⟨b, hb, hlive, hi⟩
    obtain ⟨a, ha, rfl⟩ := List.mem_map.mp hb
    exact ⟨a, ha, hdel a ▸ hlive, hidx a ▸ hi⟩
  · rintro ⟨a, ha, hlive, hi⟩
    exact ⟨f a, List.mem_map_of_mem ha, (hdel a).trans hlive, (hidx a).trans hi⟩

theorem liveIndex_modify {f : TaskInstance → TaskInstance}
    (hf : ∀ a, rows[j]? = some a → a.deleted = false → a.mapIndex ≠ i)
    (hf' : ∀ a, rows[j]? = some a → (f a).deleted = false → (f a).mapIndex ≠ i) :
    LiveIndex (rows.modify j f) i ↔ LiveIndex rows i := by
  constructor
  · rintro ⟨b, hb, hlive, hi⟩
    obtain ⟨l, hl⟩ := List.mem_iff_getElem?.mp hb
    rw [List.getElem?_modify] at hl
    obtain ⟨a, ha, rfl⟩ := Option.map_eq_some_iff.mp hl
    by_cases hj : j = l
    · subst hj
      rw [if_pos rfl] at hlive hi
      exact absurd hi (hf' a ha hlive)
    · rw [if_neg hj] at hlive hi
      exact ⟨a, List.mem_of_getElem? ha, hlive, hi⟩
  · rintro ⟨a, ha, hlive, hi⟩
    obtain ⟨l, hl⟩ := List.mem_iff_getElem?.mp ha
    have hj : j ≠ l := fun heq => hf a (heq ▸ hl) hlive hi
    refine ⟨a, List.mem_iff_getElem?.mpr ⟨l, ?_⟩, hlive, hi⟩
    simp only [List.getElem?_modify, hl, Option.map_eq_map, Option.map_some, if_neg hj]

theorem liveIndex_setState (j : Nat) (e : TIState) :
    LiveIndex (rows.modify j (.setState e)) i ↔ LiveIndex rows i := by
  constructor
  · rintro ⟨b, hb, hlive, hi⟩
    obtain ⟨l, hl⟩ := List.mem_iff_getElem?.mp hb
    rw [List.getElem?_modify] at hl
    obtain ⟨a, ha, rfl⟩ := Option.map_eq_some_iff.mp hl
    refine ⟨a, List.mem_of_getElem? ha, ?_, ?_⟩
    · rw [← hlive]
      split <;> rfl
    · rw [← hi]
      split <;> rfl
  · rintro ⟨a, ha, hlive, hi⟩
    obtain ⟨l, hl⟩ := List.mem_iff_getElem?.mp ha
    refine ⟨if j = l then a.setState e else a, List.mem_iff_getElem?.mpr ⟨l, ?_⟩, ?_, ?_⟩
    · exact modify_setState_getElem? j e hl
    · split <;> exact hlive
    · split <;> exact hi

theorem IsBlock.congr (h : IsBlock rows k)
    (heq : ∀ i, 0 ≤ i → (LiveIndex rows' i ↔ LiveIndex rows i)) : IsBlock rows' k :=
  fun i hi => (heq i hi).trans (h i hi)

/-! ## Revision -/

theorem liveIndex_revise (n : Nat) (rows : List TaskInstance) (hi : 0 ≤ i) :
    LiveIndex (reviseRows n rows) i ↔ LiveIndex rows i ∨ i < n := by
  rw [reviseRows, liveIndex_append, liveIndex_map (fun a => (removeOutsideRow_fields n a).1)
    fun a => (removeOutsideRow_fields n a).2]
  constructor
  · rintro (h | ⟨b, hb, -, rfl⟩)
    · exact .inl h
    · obtain ⟨l, hl, rfl⟩ := List.mem_map.mp hb
      have := (mem_missingIndexes.mp hl).1
      exact .inr (by dsimp only [newRow]; omega)
  · rintro (h | h)
    · exact .inl h
    · by_cases hlive : LiveIndex rows i
      · exact .inl hlive
      · refine .inr ⟨newRow none i, List.mem_map.mpr ⟨i.toNat, mem_missingIndexes.mpr ⟨by omega,
          fun a ha hla heq => hlive ⟨a, ha, hla, by omega⟩⟩, ?_⟩, rfl, rfl⟩
        rw [Int.toNat_of_nonneg hi]

theorem IsBlock.revise (h : IsBlock rows k) (n : Nat) : IsBlock (reviseRows n rows) (max k n) := by
  intro i hi
  rw [liveIndex_revise n rows hi, h i hi]
  omega

/-! ## Expansion -/

theorem foldl_max_mem (rows : List TaskInstance) (m : Int) :
    rows.foldl (fun m ti => if ti.mapIndex > m then ti.mapIndex else m) m = m ∨
      ∃ a ∈ rows, a.mapIndex =
        rows.foldl (fun m ti => if ti.mapIndex > m then ti.mapIndex else m) m := by
  induction rows generalizing m with
  | nil => exact .inl rfl
  | cons a rows ih =>
    rw [List.foldl_cons]
    rcases ih (if a.mapIndex > m then a.mapIndex else m) with h | ⟨b, hb, h⟩
    · rw [h]
      split
      · exact .inr ⟨a, List.mem_cons_self, rfl⟩
      · exact .inl rfl
    · exact .inr ⟨b, List.mem_cons_of_mem _ hb, h⟩

/-- The highest index of a block is its last one. -/
theorem IsBlock.maxIndex_eq (h : IsBlock rows k) : maxIndex rows = (k : Int) - 1 := by
  have hge := maxIndex_ge rows
  have hle : maxIndex rows < k := by
    rcases foldl_max_mem (rows.filter fun ti => !ti.deleted) (-1) with hm | ⟨a, ha, hm⟩
    · rw [maxIndex, hm]
      omega
    · rcases Int.lt_or_le (maxIndex rows) 0 with hneg | hpos
      · omega
      · obtain ⟨hmem, hlive⟩ := List.mem_filter.mp ha
        exact (h _ hpos).mp ⟨a, hmem, by simpa using hlive, hm⟩
  rcases Nat.eq_zero_or_pos k with rfl | hk
  · omega
  · obtain ⟨a, ha, hlive, hi⟩ := (h ((k : Int) - 1) (by omega)).mpr (by omega)
    have := le_maxIndex ha hlive
    omega

theorem liveIndex_fill (n : Nat) (state : TIState) (rows : List TaskInstance) :
    LiveIndex (fillRows n state rows) i ↔ LiveIndex rows i ∨ maxIndex rows < i ∧ i < n := by
  rw [fillRows, liveIndex_map (fun a => (removeFromRow_fields n a).1)
    fun a => (removeFromRow_fields n a).2, liveIndex_append]
  refine or_congr_right ⟨?_, ?_⟩
  · rintro ⟨b, hb, -, rfl⟩
    obtain ⟨l, hl, rfl⟩ := List.mem_map.mp hb
    have := List.mem_range.mp hl
    dsimp only [newRow]
    omega
  · rintro ⟨hlt, hn⟩
    refine ⟨newRow state i, List.mem_map.mpr ⟨(i - (maxIndex rows + 1)).toNat, ?_, ?_⟩, rfl, rfl⟩
    · rw [List.mem_range]
      omega
    · rw [Int.toNat_of_nonneg (by omega)]
      congr 1
      omega

theorem IsBlock.fill (h : IsBlock rows k) (n : Nat) (state : TIState) :
    IsBlock (fillRows n state rows) (max k n) := by
  intro i hi
  rw [liveIndex_fill, h i hi, h.maxIndex_eq]
  omega

/-- The unexpanded row goes, or becomes index 0 where there was none. -/
theorem IsBlock.unmapped (h : IsBlock rows k) (hn : 1 ≤ n) (found : Option TIRef)
    (hfound : ∀ u, found = some u → ∃ a, rows[u.pos]? = some a ∧ a.deleted = false ∧
      a.mapIndex = -1) :
    ∃ k', k ≤ k' ∧ IsBlock (unmappedRows n found rows) k' := by
  cases found with
  | none => exact ⟨k, Nat.le_refl k, h⟩
  | some u =>
    obtain ⟨a, ha, hlive, hneg⟩ := hfound u rfl
    have hold : ∀ i : Int, 0 ≤ i → ∀ b, rows[u.pos]? = some b → b.deleted = false →
        b.mapIndex ≠ i := by
      intro i hi b hb _ heq
      rw [ha] at hb
      cases hb
      omega
    cases hzero : rows.any fun ti => !ti.deleted ∧ ti.mapIndex = 0 with
    | true =>
      refine ⟨k, Nat.le_refl k, h.congr fun i hi => liveIndex_modify (hold i hi) ?_⟩
      intro b _ hlb
      rw [expandRow, if_neg (by omega), if_pos hzero] at hlb
      cases hlb
    | false =>
      have hex : ∀ b, expandRow n rows b = { b with mapIndex := 0 } := by
        intro b
        rw [expandRow, if_neg (by omega), hzero, if_neg Bool.false_ne_true]
      have hk : k = 0 := by
        rcases Nat.eq_zero_or_pos k with hk | hk
        · exact hk
        · obtain ⟨b, hb, hlb, hi⟩ := (h 0 (Int.le_refl 0)).mpr (by omega)
          have := List.any_eq_false.mp hzero b hb
          simp [hlb, hi] at this
      subst hk
      refine ⟨1, by omega, fun i hi => ?_⟩
      by_cases hi0 : i = 0
      · subst hi0
        refine iff_of_true ⟨{ a with mapIndex := 0 }, ?_, hlive, rfl⟩ (by omega)
        refine List.mem_iff_getElem?.mpr ⟨u.pos, ?_⟩
        simp only [unmappedRows, List.getElem?_modify, ha, Option.map_eq_map, Option.map_some,
          if_pos, hex]
      · have hno : ¬LiveIndex rows i := fun hl => by
          have := (h i hi).mp hl
          omega
        have hsame : LiveIndex (unmappedRows n (some u) rows) i ↔ LiveIndex rows i := by
          refine liveIndex_modify (hold i hi) fun b _ _ => ?_
          rw [hex b]
          exact Ne.symm hi0
        rw [hsame]
        exact iff_of_false hno (by omega)

/-- **A visit keeps the block.** -/
theorem MappedVisit.block {p p' : ReadyPass} {d : DepState} {r : TIRef}
    (h : MappedVisit n p d r p') (hw : Session.Written r p.session d.session) (hn : 1 ≤ n)
    (hblock : IsBlock (p.session.view r.taskId) k) :
    ∃ k', k ≤ k' ∧ IsBlock (p'.session.view r.taskId) k' ∧
      (d.met = true → (p.session.mapIndex r < 0 ∨
        State.isScheduleable (d.session.state r) = true ∧ r.taskId ∉ p.revisedMapIndexTaskIds) →
        n ≤ k') := by
  have hset : IsBlock ((p.session.view r.taskId).modify r.pos (.setState (d.session.state r))) k :=
    hblock.congr fun i _ => liveIndex_setState _ _
  cases h with
  | quiet h view ready additional revised =>
    refine ⟨k, Nat.le_refl k, view ▸ hset, fun hmet hor => ?_⟩
    rcases h with h | ⟨hge, hsched⟩
    · rw [hmet] at h
      cases h
    · rcases hor with hneg | ⟨hs, -⟩
      · omega
      · rw [hs] at hsched
        cases hsched
  | append hmet hidx hsched hold view ready additional revised =>
    refine ⟨k, Nat.le_refl k, view ▸ hset, fun _ hor => ?_⟩
    rcases hor with hneg | ⟨-, hnew⟩
    · omega
    · exact absurd hold hnew
  | revise hmet hidx hsched hnew view ready additional revised =>
    exact ⟨max k n, by omega, view ▸ hset.revise n, fun _ _ => by omega⟩
  | expand hmet hneg state unmapped k₀ view hunmapped hnodup ready additional revised =>
    obtain ⟨k', hk, hblock'⟩ := hset.unmapped hn (d.session.findUnmapped r.taskId) fun u hu => by
      obtain ⟨hid, ti, hti, hlive, hidx, -⟩ := findUnmapped_spec hu
      refine ⟨ti.flushed, ?_, hlive, hidx⟩
      rw [← view_written hw, ← hid, view_getElem?, hti]
      rfl
    exact ⟨max k' n, by omega, view ▸ hblock'.fill n state, fun _ _ => by omega⟩

end

/-! ## Blocks in a pass -/

section
variable {dag : Dag} {run : RunData} {table : TaskInstanceTable} {v w : List TIRef} {r : TIRef}
  {task : Operator} {n k : Nat}

theorem IsVisit.block (h : IsVisit dag run table v r) (htask : dag.getTask r.taskId = some task)
    (hcount : task.getMappedTiCount run (filterTis dag table) = .ok n) (hn : 1 ≤ n)
    (hblock : IsBlock ((roundAfter dag run table v).session.view r.taskId) k) :
    ∃ k', k ≤ k' ∧ IsBlock ((roundAfter dag run table (v ++ [r])).session.view r.taskId) k' ∧
      (Expands dag run table v r ∨ Revises dag run table v r → n ≤ k') := by
  obtain ⟨k', hk, hblock', hlen⟩ := (h.mapped htask hcount).block (IsVisit.written dag run table v r)
    hn hblock
  refine ⟨k', hk, hblock', ?_⟩
  rintro (hexp | hrev)
  · exact hlen hexp.met (.inl hexp.unmapped)
  · exact hlen hrev.met (.inr ⟨hrev.schedulable, hrev.first⟩)

/-- **The block after the visits.** -/
theorem block_since (htask : dag.getTask task.taskId = some task)
    (hcount : task.getMappedTiCount run (filterTis dag table) = .ok n) (hn : 1 ≤ n)
    (hv : v ++ w <+: roundVisits dag run table)
    (hblock : IsBlock ((roundAfter dag run table v).session.view task.taskId) k) :
    ∃ k', k ≤ k' ∧ IsBlock ((roundAfter dag run table (v ++ w)).session.view task.taskId) k' := by
  induction w using List.reverseRecOn with
  | nil => exact ⟨k, Nat.le_refl k, by rwa [List.append_nil]⟩
  | append_singleton w r ih =>
    rw [← List.append_assoc] at hv ⊢
    obtain ⟨k₁, hk₁, hblock₁⟩ := ih ((List.prefix_append _ [r]).trans hv)
    by_cases hid : r.taskId = task.taskId
    · rw [← hid] at hblock₁ htask ⊢
      obtain ⟨k₂, hk₂, hblock₂, -⟩ := IsVisit.block hv htask hcount hn hblock₁
      exact ⟨k₂, Nat.le_trans hk₁ hk₂, hblock₂⟩
    · rw [IsVisit.other _ hid]
      exact ⟨k₁, hk₁, hblock₁⟩

end

end Airflow
