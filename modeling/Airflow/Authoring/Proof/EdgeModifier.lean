import Airflow.Authoring.EdgeModifier
import Airflow.Authoring.Proof.Leaves

/-!
# What a label does to the dependencies

A label replaces the tasks that it collected by their groups, unless all of them are in one group,
and connects the side that was declared first: then the leaves of the groups of the upstream tasks
are connected, or the roots of those of the downstream tasks. `labelled_same_iff` says when these
are the dependencies of the form without a label.
-/

namespace Airflow.Authoring

/-- Every task has the same `upstream_task_ids` and the same `downstream_task_ids`. -/
def Edges.Same (e e' : Edges) : Prop :=
  ∀ t, (∀ u, u ∈ e.upstreamTaskIds t ↔ u ∈ e'.upstreamTaskIds t) ∧
    ∀ d, d ∈ e.downstreamTaskIds t ↔ d ∈ e'.downstreamTaskIds t

/-- Both statements run and leave the same dependencies. -/
def SameResult (r r' : Option Edges) : Prop :=
  ∃ e e', r = some e ∧ r' = some e' ∧ e.Same e'

/-- All the tasks are in one group, going by its id. -/
def SameGroup (dag : Dag) (ts : List String) : Prop :=
  ∃ groupId, ∀ t ∈ ts, (Node.task t).groupId dag = groupId

/-- What is connected in place of the upstream tasks when these are replaced by their groups. -/
def Departs (dag : Dag) (e₀ : Edges) (us : List String) (a : String) : Prop :=
  ∃ u ∈ us, if (dag.taskGroup u).isRoot then a = u
    else Leaf dag (dag.tasksOf (dag.taskGroup u)) e₀ a

/-- What is connected in place of the downstream tasks. -/
def Arrives (dag : Dag) (e₀ : Edges) (ds : List String) (b : String) : Prop :=
  ∃ d ∈ ds, if (dag.taskGroup d).isRoot then b = d
    else Root (dag.tasksOf (dag.taskGroup d)) e₀ b

/-- The upstream tasks are what is connected in their place, up to dependencies from before. -/
def KeepsUpstream (dag : Dag) (e₀ : Edges) (us ds : List String) : Prop :=
  SameGroup dag (us ++ ds) ∨
    ∀ d ∈ ds, ∀ a, d ∉ e₀.downstreamTaskIds a → (Departs dag e₀ us a ↔ a ∈ us)

/-- The downstream tasks are what is connected in their place. -/
def KeepsDownstream (dag : Dag) (e₀ : Edges) (us ds : List String) : Prop :=
  SameGroup dag (us ++ ds) ∨
    ∀ u ∈ us, ∀ b, b ∉ e₀.downstreamTaskIds u → (Arrives dag e₀ ds b ↔ b ∈ ds)

section
variable {dag : Dag} {e₀ e e' : Edges} {new new' : String → String → Prop}

theorem Edges.same_iff :
    e.Same e' ↔ ∀ a b, b ∈ e.downstreamTaskIds a ↔ b ∈ e'.downstreamTaskIds a := by
  constructor
  · exact fun h a => (h a).2
  · intro h t
    refine ⟨fun u => ?_, h t⟩
    rw [← e.mirror, ← e'.mirror]
    exact h u t

theorem Adds.same_iff (h : Adds e₀ e new) (h' : Adds e₀ e' new') :
    e.Same e' ↔ ∀ a b, b ∉ e₀.downstreamTaskIds a → (new a b ↔ new' a b) := by
  rw [Edges.same_iff]
  refine forall_congr' fun a => forall_congr' fun b => ?_
  rw [h a b, h' a b]
  tauto

/-! ## The streams of a label -/

theorem length_dedup_eq_one_iff {α : Type} [DecidableEq α] {l : List α} (h : l ≠ []) :
    l.dedup.length = 1 ↔ ∃ a, ∀ b ∈ l, b = a := by
  constructor
  · intro hlength
    obtain ⟨a, ha⟩ := List.length_eq_one_iff.mp hlength
    refine ⟨a, fun b hb => ?_⟩
    have hmem : b ∈ l.dedup := List.mem_dedup.mpr hb
    rw [ha] at hmem
    exact List.mem_singleton.mp hmem
  · rintro ⟨a, ha⟩
    obtain ⟨b, hb⟩ := List.exists_mem_of_ne_nil l h
    have hall : ∀ c ∈ l.dedup, c = a := fun c hc => ha c (List.mem_dedup.mp hc)
    have hreplicate : l.dedup = List.replicate l.dedup.length a := List.eq_replicate_of_mem hall
    have hnodup : (List.replicate l.dedup.length a).Nodup := hreplicate ▸ List.nodup_dedup l
    have hle : l.dedup.length ≤ 1 := List.nodup_replicate.mp hnodup
    have hpos : 0 < l.dedup.length := List.length_pos_of_mem (List.mem_dedup.mpr hb)
    omega

/-- What a label has collected. -/
def collected (us ds : List String) : EdgeModifier := ⟨us.map .task, ds.map .task⟩

theorem convert_of_sameGroup {us ds : List String} (h : SameGroup dag (us ++ ds)) :
    (collected us ds).convertStreamsToTaskGroups dag = collected us ds := by
  rw [EdgeModifier.convertStreamsToTaskGroups]
  split
  · rfl
  · rename_i hempty
    rw [if_neg]
    rw [not_not, EdgeModifier.groupIds, length_dedup_eq_one_iff]
    · obtain ⟨groupId, hall⟩ := h
      refine ⟨groupId, fun b hb => ?_⟩
      rw [collected, ← List.map_append, List.map_map] at hb
      obtain ⟨t, ht, rfl⟩ := List.mem_map.mp hb
      exact hall t ht
    · intro hnil
      simp [collected] at hnil hempty
      exact hempty.1 hnil.1

theorem convert_of_nil {us ds : List String} (h : us = [] ∨ ds = []) :
    (collected us ds).convertStreamsToTaskGroups dag = collected us ds := by
  rw [EdgeModifier.convertStreamsToTaskGroups, if_pos]
  rcases h with rfl | rfl
  · rfl
  · simp [collected]

theorem convert_of_not_sameGroup {us ds : List String} (hus : us ≠ []) (hds : ds ≠ [])
    (h : ¬SameGroup dag (us ++ ds)) :
    (collected us ds).convertStreamsToTaskGroups dag =
      ⟨us.map fun t => (Node.task t).convert dag, ds.map fun t => (Node.task t).convert dag⟩ := by
  have hmany : ((collected us ds).groupIds dag).length ≠ 1 := by
    rw [EdgeModifier.groupIds, ne_eq, length_dedup_eq_one_iff (by simp [collected, hus])]
    rintro ⟨groupId, hall⟩
    refine h ⟨groupId, fun t ht => hall _ ?_⟩
    rw [collected, ← List.map_append, List.map_map]
    exact List.mem_map.mpr ⟨t, ht, rfl⟩
  rw [EdgeModifier.convertStreamsToTaskGroups, if_neg (by simp [collected, hus, hds]),
    if_pos hmany, collected, List.map_map, List.map_map]
  rfl

variable {upstream downstream : Side}

/-- Before the second side is declared, a label only collects. -/
theorem new_setUpstream :
    EdgeModifier.new.setUpstream dag upstream e = (⟨upstream.makeList.map .task, []⟩, e) := by
  simp [EdgeModifier.setUpstream, EdgeModifier.new, EdgeModifier.convertStreamsToTaskGroups]

theorem new_setDownstream {fuel : Nat} :
    EdgeModifier.new.setDownstream dag downstream fuel e =
      some (⟨[], downstream.makeList.map .task⟩, e) := by
  simp [EdgeModifier.setDownstream, EdgeModifier.new, EdgeModifier.convertStreamsToTaskGroups]

theorem labelled_eq {fuel : Nat} :
    labelled dag upstream downstream fuel e =
      List.foldlM (fun e node => node.setDownstream dag downstream.makeList fuel e) e
        ((collected upstream.makeList downstream.makeList).convertStreamsToTaskGroups
          dag).upstream := by
  rw [labelled, new_setUpstream]
  simp only [EdgeModifier.setDownstream, List.nil_append]
  rw [← collected]
  cases List.foldlM (fun e node => node.setDownstream dag downstream.makeList fuel e) e
    ((collected upstream.makeList downstream.makeList).convertStreamsToTaskGroups dag).upstream <;>
    rfl

theorem labelledBack_eq {fuel : Nat} :
    labelledBack dag upstream downstream fuel e = some
      (List.foldl (fun e node => node.setUpstream dag upstream.makeList e) e
        ((collected upstream.makeList downstream.makeList).convertStreamsToTaskGroups
          dag).downstream) := by
  rw [labelledBack, new_setDownstream, Option.map_some]
  simp only [EdgeModifier.setUpstream, List.nil_append]
  rw [← collected]

/-! ## Nodes one after the other -/

/-- The tasks that a node gives new downstream tasks. -/
def Node.Below (dag : Dag) (e₀ : Edges) : Node → String → Prop
  | .task t, a => a = t
  | .taskGroup group, a => Leaf dag (dag.tasksOf group) e₀ a

/-- The tasks that a node gives new upstream tasks. -/
def Node.Above (dag : Dag) (e₀ : Edges) : Node → String → Prop
  | .task t, b => b = t
  | .taskGroup group, b => Root (dag.tasksOf group) e₀ b

/-- No teardown of one of the groups was given new downstream tasks. -/
def NoTeardown (dag : Dag) (nodes : List Node) (given : Set String) : Prop :=
  ∀ group, .taskGroup group ∈ nodes → ∀ s ∈ given, s ∈ dag.tasksOf group → dag.isTeardown s = false

/-- No task of the nodes is in one of the groups. -/
def Apart (dag : Dag) (nodes : List Node) : Prop :=
  ∀ t group, .task t ∈ nodes → .taskGroup group ∈ nodes → t ∉ dag.tasksOf group

variable {node : Node} {nodes : List Node} {others : List String} {given : Set String}

theorem Node.setDownstream_ends (hacyclic : e₀.Acyclic) (hwithin : e₀.Within dag) (node : Node) :
    ∃ n, ∀ fuel ≥ n, ∀ e given, Adds e₀ e (Authoring.Below given others) →
      NoTeardown dag [node] given → ∃ e', node.setDownstream dag others fuel e = some e' := by
  cases node with
  | task t => exact ⟨0, fun _ _ e _ _ _ => ⟨_, rfl⟩⟩
  | taskGroup group =>
    obtain ⟨n, hn⟩ := @forLeaves_ends dag (dag.tasksOf group) others e₀ hacyclic hwithin
    refine ⟨n, fun fuel hfuel e given hadds hgiven => ?_⟩
    exact hn fuel hfuel e given hadds (hgiven group (List.mem_singleton_self _))

theorem Node.setDownstream_spec {fuel : Nat} (hadds : Adds e₀ e (Authoring.Below given others))
    (hgiven : NoTeardown dag [node] given) (h : node.setDownstream dag others fuel e = some e') :
    ∃ given', Adds e₀ e' (Authoring.Below given' others) ∧
      ∀ t, t ∈ given' ↔ t ∈ given ∨ node.Below dag e₀ t := by
  cases node with
  | task t =>
    cases h
    refine ⟨insert t given, hadds.setDownstream, fun s => ?_⟩
    rw [Set.mem_insert_iff, or_comm, Node.Below]
  | taskGroup group =>
    exact forLeaves_spec hadds (hgiven group (List.mem_singleton_self _)) h

theorem NoTeardown.head (h : NoTeardown dag (node :: nodes) given) :
    NoTeardown dag [node] given := by
  intro group hgroup
  rw [List.mem_singleton] at hgroup
  exact h group (hgroup ▸ List.mem_cons_self)

/-- What one node gives new downstream tasks is a teardown of none of the groups. -/
theorem NoTeardown.next {given' : Set String} (h : NoTeardown dag (node :: nodes) given)
    (hapart : Apart dag (node :: nodes))
    (hiff : ∀ t, t ∈ given' ↔ t ∈ given ∨ node.Below dag e₀ t) :
    NoTeardown dag nodes given' := by
  intro group hgroup s hs hmem
  rcases (hiff s).mp hs with hs | hs
  · exact h group (List.mem_cons_of_mem _ hgroup) s hs hmem
  · cases node with
    | task t =>
      rw [Node.Below] at hs
      subst hs
      exact absurd hmem (hapart s group List.mem_cons_self (List.mem_cons_of_mem _ hgroup))
    | taskGroup other => exact Leaf.not_teardown hs

/-- **The nodes of the upstream stream give their tasks the downstream tasks.** -/
theorem upstreamStream_spec {fuel : Nat} (hadds : Adds e₀ e (Authoring.Below given others))
    (hgiven : NoTeardown dag nodes given) (hapart : Apart dag nodes)
    (hends : ∀ node ∈ nodes, ∀ e given, Adds e₀ e (Authoring.Below given others) →
      NoTeardown dag [node] given → ∃ e', node.setDownstream dag others fuel e = some e') :
    ∃ e' given', nodes.foldlM (fun e node => node.setDownstream dag others fuel e) e = some e' ∧
      Adds e₀ e' (Authoring.Below given' others) ∧
      ∀ t, t ∈ given' ↔ t ∈ given ∨ ∃ node ∈ nodes, node.Below dag e₀ t := by
  induction nodes generalizing e given with
  | nil => exact ⟨e, given, rfl, hadds, by simp⟩
  | cons node nodes ih =>
    rw [List.forall_mem_cons] at hends
    obtain ⟨e₁, hstep⟩ := hends.1 e given hadds hgiven.head
    obtain ⟨given₁, hadds₁, hiff₁⟩ := Node.setDownstream_spec hadds hgiven.head hstep
    have hapart' : Apart dag nodes := fun t group ht hgroup =>
      hapart t group (List.mem_cons_of_mem _ ht) (List.mem_cons_of_mem _ hgroup)
    obtain ⟨e', given', hrest, hadds', hiff⟩ := ih hadds₁ (hgiven.next hapart hiff₁) hapart' hends.2
    refine ⟨e', given', ?_, hadds', fun t => ?_⟩
    · rw [List.foldlM_cons, hstep]
      exact hrest
    · rw [hiff, hiff₁, List.exists_mem_cons_iff, or_assoc]

theorem Node.setUpstream_spec (hadds : Adds e₀ e (Authoring.Above given others)) :
    ∃ given', Adds e₀ (node.setUpstream dag others e) (Authoring.Above given' others) ∧
      ∀ t, t ∈ given' ↔ t ∈ given ∨ node.Above dag e₀ t := by
  cases node with
  | task t =>
    refine ⟨insert t given, hadds.setUpstream, fun s => ?_⟩
    rw [Set.mem_insert_iff, or_comm, Node.Above]
  | taskGroup group => exact forRoots_spec hadds

/-- **The nodes of the downstream stream give their tasks the upstream tasks.** -/
theorem downstreamStream_spec (hadds : Adds e₀ e (Authoring.Above given others)) :
    ∃ given', Adds e₀ (nodes.foldl (fun e node => node.setUpstream dag others e) e)
        (Authoring.Above given' others) ∧
      ∀ t, t ∈ given' ↔ t ∈ given ∨ ∃ node ∈ nodes, node.Above dag e₀ t := by
  induction nodes generalizing e given with
  | nil => exact ⟨given, hadds, by simp⟩
  | cons node nodes ih =>
    obtain ⟨given₁, hadds₁, hiff₁⟩ := @Node.setUpstream_spec dag e₀ e node others given hadds
    obtain ⟨given', hadds', hiff⟩ := ih hadds₁
    refine ⟨given', hadds', fun t => ?_⟩
    rw [hiff, hiff₁, List.exists_mem_cons_iff, or_assoc]

/-! ## With and without a label -/

theorem dependency_spec (h : ∀ us ds, ¬(upstream = .tasks us ∧ downstream = .tasks ds)) :
    ∃ e', dependency upstream downstream e₀ = some e' ∧
      Adds e₀ e' fun a b => a ∈ upstream.makeList ∧ b ∈ downstream.makeList := by
  cases upstream with
  | task t =>
    refine ⟨_, rfl, fun a b => ?_⟩
    simp only [mem_downstream_setDownstream, Side.makeList, List.mem_singleton]
  | tasks ts =>
    cases downstream with
    | task t =>
      refine ⟨_, rfl, fun a b => ?_⟩
      simp only [mem_downstream_setUpstream, Side.makeList, List.mem_singleton, and_comm]
    | tasks ds => exact absurd ⟨rfl, rfl⟩ (h ts ds)

/-- Tasks at top level are in no other group. -/
theorem apart_convert (us : List String) :
    Apart dag (us.map fun t => (Node.task t).convert dag) := by
  intro t group ht hgroup hmem
  obtain ⟨u, -, hu⟩ := List.mem_map.mp ht
  obtain ⟨v, -, hv⟩ := List.mem_map.mp hgroup
  rw [Node.convert] at hu hv
  split at hu
  · rename_i hroot
    cases hu
    split at hv
    · cases hv
    · rename_i hchild
      cases hv
      have hin : (dag.taskGroup t).enclosing.contains (dag.taskGroup v) = true :=
        (List.mem_filter.mp hmem).2
      cases hgroup : dag.taskGroup t with
      | root =>
        rw [hgroup, TaskGroup.enclosing, List.contains_iff_mem, List.mem_singleton] at hin
        exact hchild (by rw [hin]; rfl)
      | child groupId group => simp [hgroup, TaskGroup.isRoot] at hroot
  · cases hu

theorem exists_below_task {us : List String} {a : String} :
    (∃ node ∈ us.map Node.task, node.Below dag e₀ a) ↔ a ∈ us := by
  simp [Node.Below]

theorem exists_above_task {ds : List String} {b : String} :
    (∃ node ∈ ds.map Node.task, node.Above dag e₀ b) ↔ b ∈ ds := by
  simp [Node.Above]

theorem exists_below_convert {us : List String} {a : String} :
    (∃ node ∈ us.map fun t => (Node.task t).convert dag, node.Below dag e₀ a) ↔
      Departs dag e₀ us a := by
  simp only [List.mem_map, exists_exists_and_eq_and, Departs]
  refine exists_congr fun u => and_congr_right fun _ => ?_
  rw [Node.convert]
  split <;> rfl

theorem exists_above_convert {ds : List String} {b : String} :
    (∃ node ∈ ds.map fun t => (Node.task t).convert dag, node.Above dag e₀ b) ↔
      Arrives dag e₀ ds b := by
  simp only [List.mem_map, exists_exists_and_eq_and, Arrives]
  refine exists_congr fun d => and_congr_right fun _ => ?_
  rw [Node.convert]
  split <;> rfl

/-- What a stream of a label is once both sides are declared. -/
theorem convert_cases (us ds : List String) :
    (collected us ds).convertStreamsToTaskGroups dag = collected us ds ∧
        (us = [] ∨ ds = [] ∨ SameGroup dag (us ++ ds)) ∨
      (collected us ds).convertStreamsToTaskGroups dag =
        ⟨us.map fun t => (Node.task t).convert dag, ds.map fun t => (Node.task t).convert dag⟩ ∧
        ¬SameGroup dag (us ++ ds) := by
  by_cases hus : us = []
  · exact .inl ⟨convert_of_nil (.inl hus), .inl hus⟩
  · by_cases hds : ds = []
    · exact .inl ⟨convert_of_nil (.inr hds), .inr (.inl hds)⟩
    · by_cases hsame : SameGroup dag (us ++ ds)
      · exact .inl ⟨convert_of_sameGroup hsame, .inr (.inr hsame)⟩
      · exact .inr ⟨convert_of_not_sameGroup hus hds hsame, hsame⟩

/-- In a bounded walk, all the nodes of a stream end. -/
theorem stream_ends (hacyclic : e₀.Acyclic) (hwithin : e₀.Within dag) (nodes : List Node)
    (others : List String) :
    ∃ n, ∀ fuel ≥ n, ∀ node ∈ nodes, ∀ e given, Adds e₀ e (Authoring.Below given others) →
      NoTeardown dag [node] given → ∃ e', node.setDownstream dag others fuel e = some e' :=
  exists_common_bound fun node _ => Node.setDownstream_ends hacyclic hwithin node

theorem adds_empty_below : Adds e₀ e₀ (Authoring.Below ∅ others) :=
  fun a b => by simp [Authoring.Below]

theorem adds_empty_above : Adds e₀ e₀ (Authoring.Above ∅ others) :=
  fun a b => by simp [Authoring.Above]

theorem noTeardown_empty : NoTeardown dag nodes ∅ :=
  fun _ _ s hs => absurd hs (Set.notMem_empty s)

/-- **With a label, what departs in place of the upstream tasks is connected**, unless all the
tasks are in one group. -/
theorem labelled_spec (hacyclic : e₀.Acyclic) (hwithin : e₀.Within dag) :
    ∃ n, ∀ fuel ≥ n, ∃ e' source, labelled dag upstream downstream fuel e₀ = some e' ∧
      (Adds e₀ e' fun a b => source a ∧ b ∈ downstream.makeList) ∧
      ((source = (· ∈ upstream.makeList) ∧
          (upstream.makeList = [] ∨ downstream.makeList = [] ∨
            SameGroup dag (upstream.makeList ++ downstream.makeList))) ∨
        (source = Departs dag e₀ upstream.makeList ∧
          ¬SameGroup dag (upstream.makeList ++ downstream.makeList))) := by
  obtain ⟨n, hn⟩ := stream_ends hacyclic hwithin
    ((collected upstream.makeList downstream.makeList).convertStreamsToTaskGroups dag).upstream
    downstream.makeList
  refine ⟨n, fun fuel hfuel => ?_⟩
  rw [labelled_eq]
  rcases @convert_cases dag upstream.makeList downstream.makeList with ⟨hconvert, hsame⟩ |
    ⟨hconvert, hsame⟩
  · have hapart : Apart dag (upstream.makeList.map .task) := by
      intro t group _ hgroup
      obtain ⟨_, _, hne⟩ := List.mem_map.mp hgroup
      cases hne
    rw [hconvert] at hn ⊢
    obtain ⟨e', given', hrun, hadds, hiff⟩ :=
      upstreamStream_spec adds_empty_below noTeardown_empty hapart (hn fuel hfuel)
    refine ⟨e', (· ∈ upstream.makeList), hrun, hadds.congr fun a b => ?_, .inl ⟨rfl, hsame⟩⟩
    rw [Authoring.Below, hiff, exists_below_task, Set.mem_empty_iff_false, false_or]
  · rw [hconvert] at hn ⊢
    obtain ⟨e', given', hrun, hadds, hiff⟩ := upstreamStream_spec adds_empty_below
      noTeardown_empty (apart_convert upstream.makeList) (hn fuel hfuel)
    refine ⟨e', Departs dag e₀ upstream.makeList, hrun, hadds.congr fun a b => ?_,
      .inr ⟨rfl, hsame⟩⟩
    rw [Authoring.Below, hiff, exists_below_convert, Set.mem_empty_iff_false, false_or]

/-- **With a label and the operators the other way, what arrives in place of the downstream tasks
is connected**, unless all the tasks are in one group. -/
theorem labelledBack_spec {fuel : Nat} :
    ∃ e' target, labelledBack dag upstream downstream fuel e₀ = some e' ∧
      (Adds e₀ e' fun a b => a ∈ upstream.makeList ∧ target b) ∧
      ((target = (· ∈ downstream.makeList) ∧
          (upstream.makeList = [] ∨ downstream.makeList = [] ∨
            SameGroup dag (upstream.makeList ++ downstream.makeList))) ∨
        (target = Arrives dag e₀ downstream.makeList ∧
          ¬SameGroup dag (upstream.makeList ++ downstream.makeList))) := by
  rw [labelledBack_eq]
  obtain ⟨given', hadds, hiff⟩ := @downstreamStream_spec dag e₀ e₀
    ((collected upstream.makeList downstream.makeList).convertStreamsToTaskGroups dag).downstream
    upstream.makeList ∅ adds_empty_above
  refine ⟨_, (· ∈ given'), rfl, hadds.congr fun a b => ?_, ?_⟩
  · rw [Authoring.Above, and_comm]
  · rcases @convert_cases dag upstream.makeList downstream.makeList with ⟨hconvert, hsame⟩ |
      ⟨hconvert, hsame⟩
    · refine .inl ⟨?_, hsame⟩
      funext b
      have hiff := hiff b
      rw [hconvert, collected, exists_above_task, Set.mem_empty_iff_false, false_or] at hiff
      exact propext hiff
    · refine .inr ⟨?_, hsame⟩
      funext b
      have hiff := hiff b
      rw [hconvert, exists_above_convert, Set.mem_empty_iff_false, false_or] at hiff
      exact propext hiff

theorem sameResult_some : SameResult (some e) (some e') ↔ e.Same e' := by
  simp [SameResult]

theorem not_sameResult_none {r : Option Edges} : ¬SameResult r none := by
  simp [SameResult]

section
variable {us ds : List String}

theorem KeepsUpstream.of_unchanged (h : us = [] ∨ ds = [] ∨ SameGroup dag (us ++ ds)) :
    KeepsUpstream dag e₀ us ds := by
  rcases h with rfl | rfl | h
  · exact .inr fun d _ a _ => by simp [Departs]
  · exact .inr fun d hd => absurd hd List.not_mem_nil
  · exact .inl h

theorem KeepsDownstream.of_unchanged (h : us = [] ∨ ds = [] ∨ SameGroup dag (us ++ ds)) :
    KeepsDownstream dag e₀ us ds := by
  rcases h with rfl | rfl | h
  · exact .inr fun u hu => absurd hu List.not_mem_nil
  · exact .inr fun u _ b _ => by simp [Arrives]
  · exact .inl h

variable {source target : String → Prop}

/-- When the upstream side is replaced, the dependencies are the same when it is replaced by
itself. -/
theorem same_iff_source (h : Adds e₀ e fun a b => source a ∧ b ∈ ds)
    (h' : Adds e₀ e' fun a b => a ∈ us ∧ b ∈ ds) :
    e.Same e' ↔ ∀ d ∈ ds, ∀ a, d ∉ e₀.downstreamTaskIds a → (source a ↔ a ∈ us) := by
  rw [h.same_iff h']
  constructor
  · intro h d hd a hnew
    have hiff := h a d hnew
    rwa [and_iff_left hd, and_iff_left hd] at hiff
  · intro h a b hnew
    exact and_congr_left fun hb => h b hb a hnew

theorem same_iff_target (h : Adds e₀ e fun a b => a ∈ us ∧ target b)
    (h' : Adds e₀ e' fun a b => a ∈ us ∧ b ∈ ds) :
    e.Same e' ↔ ∀ u ∈ us, ∀ b, b ∉ e₀.downstreamTaskIds u → (target b ↔ b ∈ ds) := by
  rw [h.same_iff h']
  constructor
  · intro h u hu b hnew
    have hiff := h u b hnew
    rwa [and_iff_right hu, and_iff_right hu] at hiff
  · intro h a b hnew
    exact and_congr_right fun ha => h a ha b hnew

end

/-- **A label between two sides leaves the dependencies of the statement without it exactly when
the sides are not both lists and the side that was declared first is what is connected in its
place**, in either direction. -/
theorem labelled_same_iff (hacyclic : e₀.Acyclic) (hwithin : e₀.Within dag) :
    ∃ n, ∀ fuel ≥ n,
      (SameResult (labelled dag upstream downstream fuel e₀) (dependency upstream downstream e₀) ↔
        (∀ us ds, ¬(upstream = .tasks us ∧ downstream = .tasks ds)) ∧
          KeepsUpstream dag e₀ upstream.makeList downstream.makeList) ∧
      (SameResult (labelledBack dag upstream downstream fuel e₀)
          (dependency upstream downstream e₀) ↔
        (∀ us ds, ¬(upstream = .tasks us ∧ downstream = .tasks ds)) ∧
          KeepsDownstream dag e₀ upstream.makeList downstream.makeList) := by
  obtain ⟨n, hn⟩ := @labelled_spec dag e₀ upstream downstream hacyclic hwithin
  refine ⟨n, fun fuel hfuel => ?_⟩
  by_cases hlists : ∀ us ds, ¬(upstream = .tasks us ∧ downstream = .tasks ds)
  · obtain ⟨e₂, hplain, hadds₂⟩ := @dependency_spec e₀ upstream downstream hlists
    rw [hplain, and_iff_right hlists, and_iff_right hlists]
    constructor
    · obtain ⟨e₁, source, hrun, hadds₁, ⟨rfl, hsame⟩ | ⟨rfl, hsame⟩⟩ := hn fuel hfuel
      · rw [hrun, sameResult_some, same_iff_source hadds₁ hadds₂]
        exact iff_of_true (fun _ _ _ _ => .rfl) (.of_unchanged hsame)
      · rw [hrun, sameResult_some, same_iff_source hadds₁ hadds₂, KeepsUpstream,
          or_iff_right hsame]
    · obtain ⟨e₁, target, hrun, hadds₁, ⟨rfl, hsame⟩ | ⟨rfl, hsame⟩⟩ :=
        @labelledBack_spec dag e₀ upstream downstream fuel
      · rw [hrun, sameResult_some, same_iff_target hadds₁ hadds₂]
        exact iff_of_true (fun _ _ _ _ => .rfl) (.of_unchanged hsame)
      · rw [hrun, sameResult_some, same_iff_target hadds₁ hadds₂, KeepsDownstream,
          or_iff_right hsame]
  · have hnone : dependency upstream downstream e₀ = none := by
      push Not at hlists
      obtain ⟨us, ds, rfl, rfl⟩ := hlists
      rfl
    rw [hnone]
    exact ⟨iff_of_false not_sameResult_none fun h => hlists h.1,
      iff_of_false not_sameResult_none fun h => hlists h.1⟩

end

/-! ## A label out of a group -/

/-- A group of `extract` and `load`, and `report` outside. -/
def etlDag : Dag where
  taskIds := ["extract", "load", "report"]
  taskGroup t := if t = "report" then .root else .child "etl" .root
  isSetup _ := false
  isTeardown _ := false
  taskIds_nodup := by decide
  not_both := by simp

/-- `extract >> load`. -/
def etlEdges : Edges := Edges.empty.add "extract" "load"

theorem etlEdges_downstream {a b : String} (h : b ∈ etlEdges.downstreamTaskIds a) :
    a = "extract" ∧ b = "load" := by
  rcases mem_downstream_add.mp h with h | h
  · cases h
  · exact h

theorem etlEdges_acyclic : etlEdges.Acyclic := by
  refine Closure.Acyclic.of_rank (fun t => if t = "extract" then 0 else 1) fun a b hab => ?_
  obtain ⟨rfl, rfl⟩ := etlEdges_downstream hab
  decide

theorem etlEdges_within : etlEdges.Within etlDag := by
  intro a b hab
  obtain ⟨rfl, rfl⟩ := etlEdges_downstream hab
  decide

/-- `extract >> Label(label) >> report` makes `report` depend on `load`. -/
theorem extract_label_report :
    ∃ e' e'', labelled etlDag (.task "extract") (.task "report") 2 etlEdges = some e' ∧
      dependency (.task "extract") (.task "report") etlEdges = some e'' ∧
      "report" ∉ e'.downstreamTaskIds "extract" ∧ "report" ∈ e'.downstreamTaskIds "load" ∧
      "report" ∈ e''.downstreamTaskIds "extract" ∧ "report" ∉ e''.downstreamTaskIds "load" :=
  ⟨etlEdges.add "load" "report", etlEdges.add "extract" "report", rfl, rfl, by decide, by decide,
    by decide, by decide⟩

theorem etlDag_leaf {a : String} :
    Leaf etlDag (etlDag.tasksOf (.child "etl" .root)) etlEdges a ↔ a = "load" := by
  have hids : etlDag.tasksOf (.child "etl" .root) = ["extract", "load"] := by decide
  rw [hids]
  constructor
  · rintro ⟨last, hmem, hlast, h⟩
    have hload : last = "load" := by
      rcases List.mem_cons.mp hmem with rfl | hmem
      · exact absurd (List.mem_cons_of_mem _ (List.mem_singleton_self _))
          (hlast "load" (by decide))
      · exact List.mem_singleton.mp hmem
    rw [← hload]
    exact h
  · rintro rfl
    refine ⟨"load", by decide, fun d hd => ?_, rfl⟩
    exact absurd (etlEdges_downstream hd).1 (by decide)

/-- From the last task of the group, a label keeps the dependency. -/
theorem load_label_report : ∃ n, ∀ fuel ≥ n,
    SameResult (labelled etlDag (.task "load") (.task "report") fuel etlEdges)
      (dependency (.task "load") (.task "report") etlEdges) := by
  have hkeeps : KeepsUpstream etlDag etlEdges ["load"] ["report"] := by
    refine .inr fun d _ a _ => ?_
    rw [Departs, List.mem_singleton, ← etlDag_leaf]
    constructor
    · rintro ⟨u, hu, h⟩
      rw [List.mem_singleton] at hu
      subst hu
      exact h
    · exact fun h => ⟨"load", List.mem_singleton_self _, h⟩
  obtain ⟨n, hn⟩ := @labelled_same_iff etlDag etlEdges (.task "load") (.task "report")
    etlEdges_acyclic etlEdges_within
  exact ⟨n, fun fuel hfuel => (hn fuel hfuel).1.mpr ⟨fun _ _ h => (nomatch h.1), hkeeps⟩⟩

end Airflow.Authoring
