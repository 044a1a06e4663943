import Airflow.Authoring.Nodes

/-!
# What setting a dependency on a group changes

`get_leaves` walks back from the teardowns at the end of a group while the dependencies of the
tasks that it yields are set. `Leaf` says which tasks these are in the dependencies from before,
and `setDownstream_spec` that exactly they get the new dependencies; `setUpstream_spec` says so of
the roots.
-/

namespace Airflow.Authoring

/-- No task is downstream of itself. -/
def Edges.Acyclic (e : Edges) : Prop := Closure.Acyclic e.downstreamTaskIds

/-- The dependencies are among the tasks of the DAG. -/
def Edges.Within (e : Edges) (dag : Dag) : Prop :=
  ∀ a b, b ∈ e.downstreamTaskIds a → a ∈ dag.taskIds ∧ b ∈ dag.taskIds

/-! ## New dependencies -/

/-- `e` has the dependencies of `e₀` and the new ones. -/
def Adds (e₀ e : Edges) (new : String → String → Prop) : Prop :=
  ∀ a b, b ∈ e.downstreamTaskIds a ↔ b ∈ e₀.downstreamTaskIds a ∨ new a b

section
variable {e₀ e e' : Edges} {new : String → String → Prop} {others : List String}
  {a b self x y : String}

theorem Adds.upstream (h : Adds e₀ e new) :
    a ∈ e.upstreamTaskIds b ↔ a ∈ e₀.upstreamTaskIds b ∨ new a b := by
  rw [← e.mirror, ← e₀.mirror]
  exact h a b

theorem Adds.refl : Adds e₀ e₀ fun _ _ => False := fun _ _ => (or_false _).symm.to_iff

theorem Adds.congr {new' : String → String → Prop} (h : Adds e₀ e new)
    (hnew : ∀ a b, new a b ↔ new' a b) : Adds e₀ e new' := by
  intro a b
  rw [h a b, hnew]

theorem mem_downstream_add :
    y ∈ (e.add a b).downstreamTaskIds x ↔ y ∈ e.downstreamTaskIds x ∨ x = a ∧ y = b := by
  simp only [Edges.add, Function.update_apply]
  split
  · rename_i h
    subst h
    simp [or_comm]
  · rename_i h
    simp [h]

theorem mem_downstream_setDownstream :
    y ∈ (e.setDownstream self others).downstreamTaskIds x ↔
      y ∈ e.downstreamTaskIds x ∨ x = self ∧ y ∈ others := by
  rw [Edges.setDownstream, Edges.setRelatives]
  induction others generalizing e with
  | nil => simp
  | cons other others ih =>
    rw [List.foldl_cons, ih, if_neg (by simp), mem_downstream_add, List.mem_cons]
    tauto

theorem mem_downstream_setUpstream :
    y ∈ (e.setUpstream self others).downstreamTaskIds x ↔
      y ∈ e.downstreamTaskIds x ∨ y = self ∧ x ∈ others := by
  rw [Edges.setUpstream, Edges.setRelatives]
  induction others generalizing e with
  | nil => simp
  | cons other others ih =>
    rw [List.foldl_cons, ih, if_pos rfl, mem_downstream_add, List.mem_cons]
    tauto

/-- Tasks are given all of `others` as downstream tasks. -/
def Below (given : Set String) (others : List String) (a b : String) : Prop :=
  a ∈ given ∧ b ∈ others

/-- Tasks are given all of `others` as upstream tasks. -/
def Above (given : Set String) (others : List String) (a b : String) : Prop :=
  b ∈ given ∧ a ∈ others

variable {given : Set String}

theorem Adds.setDownstream (h : Adds e₀ e (Below given others)) :
    Adds e₀ (e.setDownstream self others) (Below (insert self given) others) := by
  intro a b
  rw [mem_downstream_setDownstream, h a b, Below, Below, Set.mem_insert_iff]
  tauto

theorem Adds.setUpstream (h : Adds e₀ e (Above given others)) :
    Adds e₀ (e.setUpstream self others) (Above (insert self given) others) := by
  intro a b
  rw [mem_downstream_setUpstream, h a b, Above, Above, Set.mem_insert_iff]
  tauto

end

/-! ## Leaves and roots -/

section
variable (dag : Dag) (ids : List String) (e : Edges)

/-- What the walk back from the teardown `task` yields: the first tasks that are no teardowns, but
no setup and none with another such task of the group after it. -/
inductive FirstNonTeardown : String → String → Prop
  | here {task t : String} (upstream : t ∈ e.upstreamTaskIds task) (mem : t ∈ ids)
      (not_teardown : dag.isTeardown t = false)
      (not_setup : dag.isTeardown task = true → dag.isSetup t = false)
      (last : hasNonTeardownDownstream dag ids e t task = false) : FirstNonTeardown task t
  | further {task other t : String} (upstream : other ∈ e.upstreamTaskIds task) (mem : other ∈ ids)
      (teardown : dag.isTeardown other = true) (first : FirstNonTeardown other t) :
      FirstNonTeardown task t

/-- The task has no downstream task in the group. -/
def IsLast (t : String) : Prop := ∀ d ∈ e.downstreamTaskIds t, d ∉ ids

/-- What `get_leaves` yields. -/
def Leaf (t : String) : Prop :=
  ∃ last ∈ ids, IsLast ids e last ∧
    if dag.isTeardown last then FirstNonTeardown dag ids e last t else t = last

/-- What `get_roots` yields. -/
def Root (t : String) : Prop := t ∈ ids ∧ ∀ u ∈ e.upstreamTaskIds t, u ∉ ids

end

section
variable {dag : Dag} {ids others : List String} {e₀ e e' : Edges} {given : Set String}
  {task t : String}

theorem FirstNonTeardown.not_teardown_mem (h : FirstNonTeardown dag ids e task t) :
    dag.isTeardown t = false ∧ t ∈ ids := by
  induction h with
  | here _ hmem hteardown _ _ => exact ⟨hteardown, hmem⟩
  | further _ _ _ _ ih => exact ih

theorem Leaf.not_teardown (h : Leaf dag ids e t) : dag.isTeardown t = false := by
  obtain ⟨last, -, -, h⟩ := h
  split at h
  · exact h.not_teardown_mem.1
  · rename_i hlast
    rw [h]
    simpa using hlast

theorem hasNonTeardownDownstream_eq_true {exclude : String} :
    hasNonTeardownDownstream dag ids e t exclude = true ↔
      ∃ d ∈ e.downstreamTaskIds t, d ≠ exclude ∧ d ∈ ids ∧ dag.isTeardown d = false := by
  simp [hasNonTeardownDownstream, and_assoc]

theorem isLast_iff : (e.downstreamTaskIds t).any ids.contains = false ↔ IsLast ids e t := by
  simp [IsLast]

/-! ### The walk back from a teardown -/

/-- After some steps: the tasks yielded so far were given the dependencies. -/
structure Yields (dag : Dag) (ids others : List String) (e₀ : Edges) (source : String → Prop)
    (given given' : Set String) (e' : Edges) : Prop where
  adds : Adds e₀ e' (Below given' others)
  grows : given ⊆ given'
  source : ∀ s ∈ given', s ∈ given ∨ source s
  not_teardown : ∀ s ∈ given', s ∈ ids → dag.isTeardown s = false

theorem Yields.trans {source : String → Prop} {given₁ given₂ : Set String} {e₁ e₂ : Edges}
    (h₁ : Yields dag ids others e₀ source given given₁ e₁)
    (h₂ : Yields dag ids others e₀ source given₁ given₂ e₂) :
    Yields dag ids others e₀ source given given₂ e₂ := by
  refine ⟨h₂.adds, h₁.grows.trans h₂.grows, fun s hs => ?_, h₂.not_teardown⟩
  rcases h₂.source s hs with hs | hs
  · exact h₁.source s hs
  · exact .inr hs

theorem Yields.refl {source : String → Prop} (hadds : Adds e₀ e (Below given others))
    (hgiven : ∀ s ∈ given, s ∈ ids → dag.isTeardown s = false) :
    Yields dag ids others e₀ source given given e :=
  ⟨hadds, subset_rfl, fun _ hs => .inl hs, hgiven⟩

theorem Yields.mono {source source' : String → Prop} {given' : Set String}
    (h : Yields dag ids others e₀ source given given' e')
    (hsource : ∀ s, source s → source' s) : Yields dag ids others e₀ source' given given' e' :=
  ⟨h.adds, h.grows, fun s hs => (h.source s hs).imp_right (hsource s), h.not_teardown⟩

/-- A task of the group that is no teardown is yielded. -/
theorem Yields.single {source : String → Prop} (hadds : Adds e₀ e (Below given others))
    (hgiven : ∀ s ∈ given, s ∈ ids → dag.isTeardown s = false)
    (ht : dag.isTeardown t = false) (hsource : t ∈ given ∨ source t) :
    Yields dag ids others e₀ source given (insert t given) (e.setDownstream t others) := by
  refine ⟨hadds.setDownstream, Set.subset_insert _ _, fun s hs => ?_, fun s hs hmem => ?_⟩
  · rcases Set.mem_insert_iff.mp hs with rfl | hs
    · exact hsource
    · exact .inl hs
  · rcases Set.mem_insert_iff.mp hs with rfl | hs
    · exact ht
    · exact hgiven s hs hmem

/-- New dependencies of tasks that were given them do not hide other tasks. -/
theorem not_hasNonTeardownDownstream {exclude : String}
    (hadds : Adds e₀ e (Below given others)) (hnot : t ∉ given) :
    hasNonTeardownDownstream dag ids e t exclude =
      hasNonTeardownDownstream dag ids e₀ t exclude := by
  rw [Bool.eq_iff_iff, hasNonTeardownDownstream_eq_true, hasNonTeardownDownstream_eq_true]
  simp only [hadds t, Below, hnot, false_and, or_false]

/-- What the visit of an upstream task of `task` is to yield. -/
def Visited (dag : Dag) (ids : List String) (e₀ : Edges) (task up : String)
    (given' : Set String) : Prop :=
  up ∈ e₀.upstreamTaskIds task → up ∈ ids →
    if dag.isTeardown up then ∀ t, FirstNonTeardown dag ids e₀ up t → t ∈ given'
    else (dag.isTeardown task = true → dag.isSetup up = false) →
      hasNonTeardownDownstream dag ids e₀ up task = false → up ∈ given'

theorem Visited.mono {up : String} {given' : Set String} (h : Visited dag ids e₀ task up given)
    (hsub : given ⊆ given') : Visited dag ids e₀ task up given' := by
  intro hup hmem
  have h := h hup hmem
  split at h
  · rename_i hteardown
    rw [if_pos hteardown]
    exact fun t ht => hsub (h t ht)
  · rename_i hteardown
    rw [if_neg hteardown]
    exact fun hsetup hlast => hsub (h hsetup hlast)

/-- A call that gives the dependencies to what the walk back from each teardown finds. -/
def WalksBack (dag : Dag) (ids others : List String) (e₀ : Edges)
    (recurse : String → Edges → Option Edges) : Prop :=
  ∀ task e e' given, Adds e₀ e (Below given others) →
    (∀ s ∈ given, s ∈ ids → dag.isTeardown s = false) → recurse task e = some e' →
    ∃ given', Yields dag ids others e₀ (FirstNonTeardown dag ids e₀ task) given given' e' ∧
      ∀ t, FirstNonTeardown dag ids e₀ task t → t ∈ given'

/-- The visit of an upstream task that is no teardown. -/
theorem visit_other {up : String} (hadds : Adds e₀ e (Below given others))
    (hgiven : ∀ s ∈ given, s ∈ ids → dag.isTeardown s = false)
    (hup : up ∈ e₀.upstreamTaskIds task ∨ up ∈ given) (hmem : up ∈ ids)
    (hteardown : dag.isTeardown up = false)
    (h : (if dag.isTeardown task && dag.isSetup up then some e
      else if hasNonTeardownDownstream dag ids e up task then some e
      else some (e.setDownstream up others)) = some e') :
    ∃ given', Yields dag ids others e₀ (FirstNonTeardown dag ids e₀ task) given given' e' ∧
      Visited dag ids e₀ task up given' := by
  rw [show Visited dag ids e₀ task up = fun given' => up ∈ e₀.upstreamTaskIds task → up ∈ ids →
    (dag.isTeardown task = true → dag.isSetup up = false) →
      hasNonTeardownDownstream dag ids e₀ up task = false → up ∈ given' by
    funext given'
    simp [Visited, hteardown]]
  by_cases hin : up ∈ given
  · -- it was given the dependencies before
    split at h
    · cases h
      exact ⟨given, .refl hadds hgiven, fun _ _ _ _ => hin⟩
    · split at h
      · cases h
        exact ⟨given, .refl hadds hgiven, fun _ _ _ _ => hin⟩
      · cases h
        exact ⟨_, .single hadds hgiven hteardown (.inl hin), fun _ _ _ _ => Set.mem_insert _ _⟩
  · have hold := hup.resolve_right hin
    rw [not_hasNonTeardownDownstream hadds hin] at h
    split at h
    · rename_i hsetup
      cases h
      rw [Bool.and_eq_true] at hsetup
      refine ⟨given, .refl hadds hgiven, fun _ _ hnot _ => ?_⟩
      rw [hnot hsetup.1] at hsetup
      cases hsetup.2
    · rename_i hsetup
      split at h
      · rename_i hlast
        cases h
        refine ⟨given, .refl hadds hgiven, fun _ _ _ hnot => ?_⟩
        rw [hnot] at hlast
        cases hlast
      · rename_i hlast
        cases h
        have hfirst : FirstNonTeardown dag ids e₀ task up :=
          .here hold hmem hteardown (by simpa using hsetup) (by simpa using hlast)
        exact ⟨_, .single hadds hgiven hteardown (.inr hfirst), fun _ _ _ _ => Set.mem_insert _ _⟩

theorem visit_spec {recurse : String → Edges → Option Edges} {up : String}
    (hrecurse : WalksBack dag ids others e₀ recurse) (hadds : Adds e₀ e (Below given others))
    (hgiven : ∀ s ∈ given, s ∈ ids → dag.isTeardown s = false)
    (hup : up ∈ e₀.upstreamTaskIds task ∨ up ∈ given)
    (h : visitUpstream dag ids (fun t e => e.setDownstream t others) recurse task e up = some e') :
    ∃ given', Yields dag ids others e₀ (FirstNonTeardown dag ids e₀ task) given given' e' ∧
      Visited dag ids e₀ task up given' := by
  rw [visitUpstream] at h
  by_cases hmem : up ∈ ids
  · simp only [List.contains_eq_mem, hmem, decide_true, Bool.not_true, Bool.false_eq_true,
      if_false] at h
    cases hteardown : dag.isTeardown up with
    | true =>
      have hold : up ∈ e₀.upstreamTaskIds task := by
        refine hup.resolve_right fun hin => ?_
        rw [hgiven up hin hmem] at hteardown
        cases hteardown
      rw [hteardown, if_pos rfl] at h
      obtain ⟨given', hyields, hcovers⟩ := hrecurse up e e' given hadds hgiven h
      refine ⟨given', hyields.mono fun s hs => .further hold hmem hteardown hs, fun _ _ => ?_⟩
      rw [if_pos hteardown]
      exact hcovers
    | false =>
      rw [hteardown, if_neg (by simp)] at h
      exact visit_other hadds hgiven hup hmem hteardown h
  · simp only [List.contains_eq_mem, hmem, decide_false, Bool.not_false, if_true] at h
    cases h
    exact ⟨given, .refl hadds hgiven, fun _ h => absurd h hmem⟩

/-- The loop over upstream tasks. -/
theorem visits_spec {recurse : String → Edges → Option Edges} {ups : List String}
    (hrecurse : WalksBack dag ids others e₀ recurse) (hadds : Adds e₀ e (Below given others))
    (hgiven : ∀ s ∈ given, s ∈ ids → dag.isTeardown s = false)
    (hups : ∀ up ∈ ups, up ∈ e₀.upstreamTaskIds task ∨ up ∈ given)
    (h : ups.foldlM (visitUpstream dag ids (fun t e => e.setDownstream t others) recurse task) e =
      some e') :
    ∃ given', Yields dag ids others e₀ (FirstNonTeardown dag ids e₀ task) given given' e' ∧
      ∀ up ∈ ups, Visited dag ids e₀ task up given' := by
  induction ups generalizing e given with
  | nil =>
    cases h
    exact ⟨given, .refl hadds hgiven, fun _ hup => absurd hup List.not_mem_nil⟩
  | cons up ups ih =>
    rw [List.forall_mem_cons] at hups
    rw [List.foldlM_cons] at h
    obtain ⟨e₁, hstep, hrest⟩ := Option.bind_eq_some_iff.mp h
    obtain ⟨given₁, hyields₁, hvisited⟩ := visit_spec hrecurse hadds hgiven hups.1 hstep
    obtain ⟨given₂, hyields₂, hall⟩ := ih hyields₁.adds hyields₁.not_teardown
      (fun up' hup' => (hups.2 up' hup').imp_right fun h => hyields₁.grows h) hrest
    refine ⟨given₂, hyields₁.trans hyields₂, ?_⟩
    exact List.forall_mem_cons.mpr ⟨hvisited.mono hyields₂.grows, hall⟩

/-- **The walk back from a teardown gives the dependencies to what it first finds there in the
dependencies from before.** -/
theorem recurse_spec (fuel : Nat) : WalksBack dag ids others e₀
    (recurseForFirstNonTeardown dag ids (fun t e => e.setDownstream t others) fuel) := by
  induction fuel with
  | zero => exact fun _ _ _ _ _ _ h => nomatch h
  | succ fuel ih =>
    intro task e e' given hadds hgiven h
    rw [recurseForFirstNonTeardown] at h
    obtain ⟨given', hyields, hall⟩ := visits_spec ih hadds hgiven
      (fun up hup => (hadds.upstream.mp hup).imp_right And.left) h
    refine ⟨given', hyields, fun t ht => ?_⟩
    cases ht with
    | here hup hmem hteardown hsetup hlast =>
      have hvisited := hall t (hadds.upstream.mpr (.inl hup)) hup hmem
      rw [if_neg (by simp [hteardown])] at hvisited
      exact hvisited hsetup hlast
    | further hup hmem hteardown hfirst =>
      have hvisited := hall _ (hadds.upstream.mpr (.inl hup)) hup hmem
      rw [if_pos hteardown] at hvisited
      exact hvisited t hfirst

/-! ### The loop over the tasks of a group -/

/-- The tasks of `tasks` that are last in the group yield these leaves. -/
def LeafOf (dag : Dag) (ids : List String) (e : Edges) (tasks : List String) (t : String) : Prop :=
  ∃ last ∈ tasks, IsLast ids e last ∧
    if dag.isTeardown last then FirstNonTeardown dag ids e last t else t = last

theorem visitTask_spec {fuel : Nat} (htask : task ∈ ids) (hadds : Adds e₀ e (Below given others))
    (hgiven : ∀ s ∈ given, s ∈ ids → dag.isTeardown s = false)
    (h : visitTask dag ids (fun t e => e.setDownstream t others) fuel e task = some e') :
    ∃ given', Yields dag ids others e₀ (LeafOf dag ids e₀ [task]) given given' e' ∧
      ∀ t, LeafOf dag ids e₀ [task] t → t ∈ given' := by
  rw [visitTask] at h
  have hsub : ∀ d ∈ e₀.downstreamTaskIds task, d ∈ e.downstreamTaskIds task :=
    fun d hd => (hadds task d).mpr (.inl hd)
  have hleaf : ∀ t, LeafOf dag ids e₀ [task] t ↔ IsLast ids e₀ task ∧
      if dag.isTeardown task then FirstNonTeardown dag ids e₀ task t else t = task := by
    simp [LeafOf]
  by_cases hlast : IsLast ids e task
  · have hlast₀ : IsLast ids e₀ task := fun d hd => hlast d (hsub d hd)
    rw [isLast_iff.mpr hlast, if_neg (by simp)] at h
    cases hteardown : dag.isTeardown task with
    | false =>
      rw [hteardown, Bool.not_false, if_pos rfl] at h
      cases h
      refine ⟨_, .single hadds hgiven hteardown (.inr ((hleaf task).mpr ⟨hlast₀, ?_⟩)),
        fun t ht => ?_⟩
      · rw [if_neg (by simp [hteardown])]
      · have heq := ((hleaf t).mp ht).2
        rw [if_neg (by simp [hteardown])] at heq
        exact heq ▸ Set.mem_insert _ _
    | true =>
      rw [hteardown, if_neg (by simp)] at h
      obtain ⟨given', hyields, hcovers⟩ := recurse_spec fuel task e e' given hadds hgiven h
      refine ⟨given', hyields.mono fun s hs => (hleaf s).mpr ⟨hlast₀, ?_⟩, fun t ht => ?_⟩
      · rwa [if_pos hteardown]
      · have hfirst := ((hleaf t).mp ht).2
        rw [if_pos hteardown] at hfirst
        exact hcovers t hfirst
  · have hany : (e.downstreamTaskIds task).any ids.contains = true := by
      rw [← Bool.not_eq_false]
      exact fun h => hlast (isLast_iff.mp h)
    rw [hany, if_pos rfl] at h
    cases h
    refine ⟨given, .refl hadds hgiven, fun t ht => ?_⟩
    obtain ⟨hlast₀, ht⟩ := (hleaf t).mp ht
    -- its new downstream tasks were given to it before
    have hin : task ∈ given := by
      by_contra hnot
      refine hlast fun d hd => hlast₀ d ?_
      rcases (hadds task d).mp hd with hd | hd
      · exact hd
      · exact absurd hd.1 hnot
    rw [if_neg (by simp [hgiven task hin htask])] at ht
    exact ht ▸ hin

theorem leavesLoop_spec {fuel : Nat} {tasks : List String} (htasks : ∀ t ∈ tasks, t ∈ ids)
    (hadds : Adds e₀ e (Below given others))
    (hgiven : ∀ s ∈ given, s ∈ ids → dag.isTeardown s = false)
    (h : tasks.foldlM (visitTask dag ids (fun t e => e.setDownstream t others) fuel) e = some e') :
    ∃ given', Yields dag ids others e₀ (LeafOf dag ids e₀ tasks) given given' e' ∧
      ∀ t, LeafOf dag ids e₀ tasks t → t ∈ given' := by
  induction tasks generalizing e given with
  | nil =>
    cases h
    exact ⟨given, .refl hadds hgiven, fun t ⟨_, hmem, _⟩ => absurd hmem List.not_mem_nil⟩
  | cons task tasks ih =>
    rw [List.forall_mem_cons] at htasks
    rw [List.foldlM_cons] at h
    obtain ⟨e₁, hstep, hrest⟩ := Option.bind_eq_some_iff.mp h
    obtain ⟨given₁, hyields₁, hcovers₁⟩ := visitTask_spec htasks.1 hadds hgiven hstep
    obtain ⟨given₂, hyields₂, hcovers₂⟩ := ih htasks.2 hyields₁.adds hyields₁.not_teardown hrest
    refine ⟨given₂, (hyields₁.mono ?_).trans (hyields₂.mono ?_), ?_⟩
    · rintro s ⟨last, hmem, hs⟩
      exact ⟨last, List.mem_cons.mpr (.inl (List.mem_singleton.mp hmem)), hs⟩
    · rintro s ⟨last, hmem, hs⟩
      exact ⟨last, List.mem_cons_of_mem _ hmem, hs⟩
    · rintro t ⟨last, hmem, ht⟩
      rcases List.mem_cons.mp hmem with rfl | hmem
      · exact hyields₂.grows (hcovers₁ t ⟨last, List.mem_singleton_self _, ht⟩)
      · exact hcovers₂ t ⟨last, hmem, ht⟩

/-- **Exactly the leaves of a group are given the dependencies.** -/
theorem forLeaves_spec {fuel : Nat} (hadds : Adds e₀ e (Below given others))
    (hgiven : ∀ s ∈ given, s ∈ ids → dag.isTeardown s = false)
    (h : forLeaves dag ids (fun t e => e.setDownstream t others) fuel e = some e') :
    ∃ given', Adds e₀ e' (Below given' others) ∧
      ∀ t, t ∈ given' ↔ t ∈ given ∨ Leaf dag ids e₀ t := by
  obtain ⟨given', hyields, hcovers⟩ := leavesLoop_spec (fun _ h => h) hadds hgiven h
  refine ⟨given', hyields.adds, fun t => ⟨hyields.source t, ?_⟩⟩
  rintro (ht | ht)
  · exact hyields.grows ht
  · exact hcovers t ht

/-! ### The loop ends -/

/-- The call ends, whatever was given so far. -/
def Ends (dag : Dag) (ids others : List String) (e₀ : Edges) (call : Edges → Option Edges) : Prop :=
  ∀ e given, Adds e₀ e (Below given others) →
    (∀ s ∈ given, s ∈ ids → dag.isTeardown s = false) → ∃ e', call e = some e'

theorem visits_end {recurse : String → Edges → Option Edges} {ups : List String}
    (hrecurse : WalksBack dag ids others e₀ recurse) (hadds : Adds e₀ e (Below given others))
    (hgiven : ∀ s ∈ given, s ∈ ids → dag.isTeardown s = false)
    (hups : ∀ up ∈ ups, up ∈ e₀.upstreamTaskIds task ∨ up ∈ given)
    (hends : ∀ up ∈ e₀.upstreamTaskIds task, Ends dag ids others e₀ (recurse up)) :
    ∃ e', ups.foldlM (visitUpstream dag ids (fun t e => e.setDownstream t others) recurse task) e =
      some e' := by
  induction ups generalizing e given with
  | nil => exact ⟨e, rfl⟩
  | cons up ups ih =>
    rw [List.forall_mem_cons] at hups
    have hone : ∃ e₁, visitUpstream dag ids (fun t e => e.setDownstream t others) recurse task e up =
        some e₁ := by
      rw [visitUpstream]
      split
      · exact ⟨_, rfl⟩
      · rename_i hmem
        split
        · rename_i hteardown
          have hold : up ∈ e₀.upstreamTaskIds task := by
            refine hups.1.resolve_right fun hin => ?_
            rw [hgiven up hin (by simpa using hmem)] at hteardown
            cases hteardown
          exact hends up hold e given hadds hgiven
        · split
          · exact ⟨_, rfl⟩
          · split <;> exact ⟨_, rfl⟩
    obtain ⟨e₁, hstep⟩ := hone
    obtain ⟨given₁, hyields, -⟩ := visit_spec hrecurse hadds hgiven hups.1 hstep
    obtain ⟨e', hrest⟩ := ih hyields.adds hyields.not_teardown
      fun up' hup' => (hups.2 up' hup').imp_right fun h => hyields.grows h
    refine ⟨e', ?_⟩
    rw [List.foldlM_cons, hstep]
    exact hrest

/-- Bounds for the elements of a list have a common bound. -/
theorem exists_common_bound {α : Type} {l : List α} {p : α → Nat → Prop}
    (h : ∀ a ∈ l, ∃ n, ∀ m ≥ n, p a m) : ∃ n, ∀ m ≥ n, ∀ a ∈ l, p a m := by
  induction l with
  | nil => exact ⟨0, fun _ _ _ h => absurd h List.not_mem_nil⟩
  | cons a l ih =>
    rw [List.forall_mem_cons] at h
    obtain ⟨n, hn⟩ := h.1
    obtain ⟨k, hk⟩ := ih h.2
    refine ⟨max n k, fun m hm => List.forall_mem_cons.mpr ⟨?_, ?_⟩⟩
    · exact hn m (by omega)
    · exact hk m (by omega)

/-- In an acyclic DAG of finitely many tasks, walks along the upstream tasks end. -/
theorem Edges.Acyclic.upstream_wellFounded (hacyclic : e₀.Acyclic) (hwithin : e₀.Within dag) :
    WellFounded fun b a => b ∈ e₀.upstreamTaskIds a := by
  have hup : Closure.Acyclic e₀.upstreamTaskIds := by
    intro a ha
    have hswap : Closure.Step e₀.upstreamTaskIds =
        Function.swap (Closure.Step e₀.downstreamTaskIds) := by
      funext x y
      exact propext (e₀.mirror y x).symm
    rw [hswap, Relation.transGen_swap] at ha
    exact hacyclic a ha
  exact hup.wellFounded fun a b hab => (hwithin b a ((e₀.mirror b a).mpr hab)).2

theorem recurse_ends (hacyclic : e₀.Acyclic) (hwithin : e₀.Within dag) (task : String) :
    ∃ n, ∀ fuel ≥ n, Ends dag ids others e₀
      (recurseForFirstNonTeardown dag ids (fun t e => e.setDownstream t others) fuel task) := by
  induction task using (hacyclic.upstream_wellFounded hwithin).induction with
  | _ task ih =>
    obtain ⟨n, hn⟩ := exists_common_bound ih
    refine ⟨n + 1, fun fuel hfuel e given hadds hgiven => ?_⟩
    obtain ⟨fuel, rfl⟩ := Nat.exists_eq_add_one_of_ne_zero (Nat.ne_of_gt (Nat.zero_lt_of_lt hfuel))
    rw [recurseForFirstNonTeardown]
    exact visits_end (recurse_spec fuel) hadds hgiven
      (fun up hup => (hadds.upstream.mp hup).imp_right And.left) (hn fuel (by omega))

theorem leavesLoop_ends {fuel : Nat} {tasks : List String} (htasks : ∀ t ∈ tasks, t ∈ ids)
    (hrecurse : ∀ task ∈ ids, Ends dag ids others e₀
      (recurseForFirstNonTeardown dag ids (fun t e => e.setDownstream t others) fuel task)) :
    Ends dag ids others e₀
      (tasks.foldlM (visitTask dag ids (fun t e => e.setDownstream t others) fuel)) := by
  induction tasks with
  | nil => exact fun e _ _ _ => ⟨e, rfl⟩
  | cons task tasks ih =>
    intro e given hadds hgiven
    rw [List.forall_mem_cons] at htasks
    have hone : ∃ e₁, visitTask dag ids (fun t e => e.setDownstream t others) fuel e task =
        some e₁ := by
      rw [visitTask]
      split
      · exact ⟨_, rfl⟩
      · split
        · exact ⟨_, rfl⟩
        · exact hrecurse task htasks.1 e given hadds hgiven
    obtain ⟨e₁, hstep⟩ := hone
    obtain ⟨given₁, hyields, -⟩ := visitTask_spec htasks.1 hadds hgiven hstep
    obtain ⟨e', hrest⟩ := ih htasks.2 e₁ given₁ hyields.adds hyields.not_teardown
    refine ⟨e', ?_⟩
    show List.foldlM _ e (task :: tasks) = some e'
    rw [List.foldlM_cons, hstep]
    exact hrest

/-- **The loop of `get_leaves` ends in an acyclic DAG.** -/
theorem forLeaves_ends (hacyclic : e₀.Acyclic) (hwithin : e₀.Within dag) :
    ∃ n, ∀ fuel ≥ n, Ends dag ids others e₀
      (forLeaves dag ids (fun t e => e.setDownstream t others) fuel) := by
  obtain ⟨n, hn⟩ := exists_common_bound fun task (_ : task ∈ ids) =>
    @recurse_ends dag ids others e₀ hacyclic hwithin task
  exact ⟨n, fun fuel hfuel => leavesLoop_ends (fun _ h => h) (hn fuel hfuel)⟩

end

/-! ### The loop over the roots -/

section
variable {ids others : List String} {e₀ e : Edges} {given : Set String}

theorem rootsLoop_spec {tasks : List String} (hadds : Adds e₀ e (Above given others)) :
    ∃ given', Adds e₀ (tasks.foldl (fun e task =>
      if (e.upstreamTaskIds task).any ids.contains then e else e.setUpstream task others) e)
        (Above given' others) ∧
      given ⊆ given' ∧
      (∀ s ∈ given', s ∈ given ∨ s ∈ tasks ∧ ∀ u ∈ e₀.upstreamTaskIds s, u ∉ ids) ∧
      ∀ t ∈ tasks, (∀ u ∈ e₀.upstreamTaskIds t, u ∉ ids) → t ∈ given' := by
  induction tasks generalizing e given with
  | nil =>
    exact ⟨given, hadds, subset_rfl, fun s hs => .inl hs, fun _ h => absurd h List.not_mem_nil⟩
  | cons task tasks ih =>
    rw [List.foldl_cons]
    by_cases hany : (e.upstreamTaskIds task).any ids.contains = true
    · rw [if_pos hany]
      obtain ⟨given', hadds', hsub, hsource, hcovers⟩ := ih hadds
      refine ⟨given', hadds', hsub, fun s hs => ?_, fun t ht hroot => ?_⟩
      · exact (hsource s hs).imp_right fun h => ⟨List.mem_cons_of_mem _ h.1, h.2⟩
      · rcases List.mem_cons.mp ht with rfl | ht
        · -- its new upstream tasks were given to it before
          obtain ⟨u, hu, hmem⟩ := List.any_eq_true.mp hany
          rcases hadds.upstream.mp hu with hold | hnew
          · exact absurd (List.contains_iff_mem.mp hmem) (hroot u hold)
          · exact hsub hnew.1
        · exact hcovers t ht hroot
    · rw [if_neg hany]
      have hnext : Adds e₀ (e.setUpstream task others) (Above (insert task given) others) :=
        hadds.setUpstream
      obtain ⟨given', hadds', hsub, hsource, hcovers⟩ := ih hnext
      have hroot : ∀ u ∈ e₀.upstreamTaskIds task, u ∉ ids := by
        intro u hu hmem
        apply hany
        exact List.any_eq_true.mpr
          ⟨u, hadds.upstream.mpr (.inl hu), List.contains_iff_mem.mpr hmem⟩
      refine ⟨given', hadds', (Set.subset_insert _ _).trans hsub, fun s hs => ?_,
        fun t ht hroot => ?_⟩
      · rcases hsource s hs with hs | hs
        · rcases Set.mem_insert_iff.mp hs with rfl | hs
          · exact .inr ⟨List.mem_cons_self, hroot⟩
          · exact .inl hs
        · exact .inr ⟨List.mem_cons_of_mem _ hs.1, hs.2⟩
      · rcases List.mem_cons.mp ht with rfl | ht
        · exact hsub (Set.mem_insert _ _)
        · exact hcovers t ht hroot

/-- **Exactly the roots of a group are given the dependencies.** -/
theorem forRoots_spec (hadds : Adds e₀ e (Above given others)) :
    ∃ given', Adds e₀ (forRoots ids (fun t e => e.setUpstream t others) e)
        (Above given' others) ∧
      ∀ t, t ∈ given' ↔ t ∈ given ∨ Root ids e₀ t := by
  obtain ⟨given', hadds', hsub, hsource, hcovers⟩ := @rootsLoop_spec ids others e₀ e given ids hadds
  refine ⟨given', hadds', fun t => ⟨fun ht => hsource t ht, ?_⟩⟩
  rintro (ht | ht)
  · exact hsub ht
  · exact hcovers t ht.1 ht.2

end

end Airflow.Authoring
