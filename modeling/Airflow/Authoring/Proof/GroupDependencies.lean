import Airflow.Authoring.Proof.Leaves

/-!
# What a dependency on a group waits for

After `group >> x`, a task of the group has `x` among its transitive downstream tasks if it had it
before or leads to a leaf of the group (`reaches_setDownstream_iff`). The last work of a group is
such a leaf, but a setup that is followed by its teardown only is none: the walk back from a
teardown does not go to a setup (`covered_of_lastWork`).
-/

namespace Airflow.Authoring

/-- `b` is a transitive downstream task of `a`. -/
def Edges.Reaches (e : Edges) (a b : String) : Prop :=
  Relation.TransGen (Closure.Step e.downstreamTaskIds) a b

/-- `b` is a transitive downstream task of `a` along tasks of the group. -/
def After (ids : List String) (e : Edges) (a b : String) : Prop :=
  Relation.TransGen (fun a b => b ∈ e.downstreamTaskIds a ∧ b ∈ ids) a b

/-- The last work of a group: a task with only teardowns of the group after it, and none at all if
it is a setup. -/
structure LastWork (dag : Dag) (ids : List String) (e : Edges) (t : String) : Prop where
  mem : t ∈ ids
  not_teardown : dag.isTeardown t = false
  teardowns : ∀ d, After ids e t d → dag.isTeardown d = true
  not_setup : dag.isSetup t = true → IsLast ids e t

section
variable {dag : Dag} {ids others : List String} {e₀ e' : Edges} {t task x : String}

theorem Edges.Acyclic.downstream_wellFounded (hacyclic : e₀.Acyclic) (hwithin : e₀.Within dag) :
    WellFounded fun b a => b ∈ e₀.downstreamTaskIds a :=
  Closure.Acyclic.wellFounded hacyclic fun a b hab => (hwithin a b hab).1

/-- What the walk back finds from a teardown, it also finds from the end of the teardowns after
it. -/
theorem exists_last (hacyclic : e₀.Acyclic) (hwithin : e₀.Within dag) (hmem : task ∈ ids)
    (hteardown : dag.isTeardown task = true)
    (hteardowns : ∀ d, After ids e₀ task d → dag.isTeardown d = true)
    (hfirst : FirstNonTeardown dag ids e₀ task t) : Leaf dag ids e₀ t := by
  induction task using (hacyclic.downstream_wellFounded hwithin).induction with
  | _ task ih =>
    by_cases hlast : IsLast ids e₀ task
    · exact ⟨task, hmem, hlast, by rwa [if_pos hteardown]⟩
    · have hnext : ∃ d ∈ e₀.downstreamTaskIds task, d ∈ ids := by
        by_contra hnot
        exact hlast fun d hd hin => hnot ⟨d, hd, hin⟩
      obtain ⟨d, hd, hin⟩ := hnext
      have hup : task ∈ e₀.upstreamTaskIds d := (e₀.mirror task d).mp hd
      refine ih d hd hin (hteardowns d (.single ⟨hd, hin⟩)) (fun b hb => ?_)
        (.further hup hmem hteardown hfirst)
      exact hteardowns b (.head ⟨hd, hin⟩ hb)

/-- **The last work of a group is a leaf.** -/
theorem LastWork.leaf (h : LastWork dag ids e₀ t) (hacyclic : e₀.Acyclic)
    (hwithin : e₀.Within dag) : Leaf dag ids e₀ t := by
  by_cases hlast : IsLast ids e₀ t
  · exact ⟨t, h.mem, hlast, by rw [if_neg (by simp [h.not_teardown])]⟩
  · have hnext : ∃ d ∈ e₀.downstreamTaskIds t, d ∈ ids := by
      by_contra hnot
      exact hlast fun d hd hin => hnot ⟨d, hd, hin⟩
    obtain ⟨d, hd, hin⟩ := hnext
    have hsetup : dag.isSetup t = false := by
      rw [← Bool.not_eq_true]
      exact fun hsetup => hlast (h.not_setup hsetup)
    have hnone : hasNonTeardownDownstream dag ids e₀ t d = false := by
      rw [← Bool.not_eq_true, hasNonTeardownDownstream_eq_true]
      rintro ⟨b, hb, -, hbin, hwork⟩
      rw [h.teardowns b (.single ⟨hb, hbin⟩)] at hwork
      cases hwork
    have hfirst : FirstNonTeardown dag ids e₀ d t :=
      .here ((e₀.mirror t d).mp hd) h.mem h.not_teardown (fun _ => hsetup) hnone
    exact exists_last hacyclic hwithin hin (h.teardowns d (.single ⟨hd, hin⟩))
      (fun b hb => h.teardowns b (.head ⟨hd, hin⟩ hb)) hfirst

/-! ## `group >> x` -/

variable {group : TaskGroup}

/-- **In an acyclic DAG, `group >> others` ends, and the leaves of the group are given the
dependencies.** -/
theorem setDownstream_spec (hacyclic : e₀.Acyclic) (hwithin : e₀.Within dag) :
    ∃ n, ∀ fuel ≥ n, ∃ e', group.setDownstream dag others fuel e₀ = some e' ∧
      Adds e₀ e' (Below {t | Leaf dag (dag.tasksOf group) e₀ t} others) := by
  obtain ⟨n, hn⟩ := @forLeaves_ends dag (dag.tasksOf group) others e₀ hacyclic hwithin
  refine ⟨n, fun fuel hfuel => ?_⟩
  have hadds : Adds e₀ e₀ (Below ∅ others) := fun a b => by simp [Below]
  have hgiven : ∀ s ∈ (∅ : Set String), s ∈ dag.tasksOf group → dag.isTeardown s = false :=
    fun s hs => absurd hs (Set.notMem_empty s)
  obtain ⟨e', he'⟩ := hn fuel hfuel e₀ ∅ hadds hgiven
  obtain ⟨given, hadds', hiff⟩ := forLeaves_spec hadds hgiven he'
  refine ⟨e', he', hadds'.congr fun a b => ?_⟩
  simp [Below, hiff]

/-- What leads to `x` once the leaves of a group are given it. -/
theorem reaches_iff (hadds : Adds e₀ e' (Below {t | Leaf dag ids e₀ t} [x])) :
    e'.Reaches t x ↔ e₀.Reaches t x ∨
      ∃ leaf, Leaf dag ids e₀ leaf ∧ (t = leaf ∨ e₀.Reaches t leaf) := by
  have hold : ∀ a b, e₀.Reaches a b → e'.Reaches a b :=
    fun a b h => Relation.TransGen.mono (fun c d hcd => (hadds c d).mpr (.inl hcd)) a b h
  constructor
  · intro h
    induction h using Relation.TransGen.head_induction_on with
    | single hab =>
      rcases (hadds _ _).mp hab with hab | ⟨hleaf, -⟩
      · exact .inl (.single hab)
      · exact .inr ⟨_, hleaf, .inl rfl⟩
    | head hab _ ih =>
      rcases (hadds _ _).mp hab with hab | ⟨hleaf, -⟩
      · rcases ih with ih | ⟨leaf, hleaf, rfl | hreach⟩
        · exact .inl (.head hab ih)
        · exact .inr ⟨_, hleaf, .inr (.single hab)⟩
        · exact .inr ⟨leaf, hleaf, .inr (.head hab hreach)⟩
      · exact .inr ⟨_, hleaf, .inl rfl⟩
  · rintro (h | ⟨leaf, hleaf, hreach⟩)
    · exact hold t x h
    · have hedge : e'.Reaches leaf x :=
        .single ((hadds leaf x).mpr (.inr ⟨hleaf, List.mem_singleton_self x⟩))
      rcases hreach with rfl | hreach
      · exact hedge
      · exact (hold t leaf hreach).trans hedge

/-- After `group >> x`, exactly those tasks lead to `x` that did before, that are a leaf of the
group or lead to one. -/
theorem reaches_setDownstream_iff (hacyclic : e₀.Acyclic) (hwithin : e₀.Within dag) :
    ∃ n, ∀ fuel ≥ n, ∃ e', group.setDownstream dag [x] fuel e₀ = some e' ∧
      ∀ t, e'.Reaches t x ↔ e₀.Reaches t x ∨
        ∃ leaf, Leaf dag (dag.tasksOf group) e₀ leaf ∧ (t = leaf ∨ e₀.Reaches t leaf) := by
  obtain ⟨n, hn⟩ := @setDownstream_spec dag [x] e₀ group hacyclic hwithin
  refine ⟨n, fun fuel hfuel => ?_⟩
  obtain ⟨e', he', hadds⟩ := hn fuel hfuel
  exact ⟨e', he', fun t => reaches_iff hadds⟩

/-- **After `group >> x`, every task of the group from which last work of the group is reached
inside it has `x` among its transitive downstream tasks.** -/
theorem covered_of_lastWork (hacyclic : e₀.Acyclic) (hwithin : e₀.Within dag) :
    ∃ n, ∀ fuel ≥ n, ∃ e', group.setDownstream dag [x] fuel e₀ = some e' ∧
      ∀ t ∈ dag.tasksOf group, dag.isTeardown t = false →
        (∃ w, LastWork dag (dag.tasksOf group) e₀ w ∧ (t = w ∨ After (dag.tasksOf group) e₀ t w)) →
        e'.Reaches t x := by
  obtain ⟨n, hn⟩ := @reaches_setDownstream_iff dag e₀ x group hacyclic hwithin
  refine ⟨n, fun fuel hfuel => ?_⟩
  obtain ⟨e', he', hiff⟩ := hn fuel hfuel
  refine ⟨e', he', fun t _ _ ⟨w, hw, hreach⟩ => (hiff t).mpr (.inr ⟨w, ?_, ?_⟩)⟩
  · exact hw.leaf hacyclic hwithin
  · exact hreach.imp_right fun h => Relation.TransGen.mono (fun _ _ hab => hab.1) t w h

end

/-! ## A setup and its teardown in a group -/

/-- A group of the setup `create`, a task `load` and the teardown `drop`, and `report` outside. -/
def clusterDag : Dag where
  taskIds := ["create", "load", "drop", "report"]
  taskGroup t := if t = "report" then .root else .child "cluster" .root
  isSetup t := t == "create"
  isTeardown t := t == "drop"
  taskIds_nodup := by decide
  not_both := by
    intro t ht
    rw [beq_iff_eq] at ht
    rw [ht]
    rfl

/-- `create >> drop`, and `load` on its own. -/
def clusterEdges : Edges := Edges.empty.add "create" "drop"

theorem clusterEdges_downstream {a b : String} (h : b ∈ clusterEdges.downstreamTaskIds a) :
    a = "create" ∧ b = "drop" := by
  rcases mem_downstream_add.mp h with h | h
  · cases h
  · exact h

theorem clusterEdges_acyclic : clusterEdges.Acyclic := by
  refine Closure.Acyclic.of_rank (fun t => if t = "create" then 0 else 1) fun a b hab => ?_
  obtain ⟨rfl, rfl⟩ := clusterEdges_downstream hab
  decide

theorem clusterEdges_within : clusterEdges.Within clusterDag := by
  intro a b hab
  obtain ⟨rfl, rfl⟩ := clusterEdges_downstream hab
  decide

/-- After `cluster >> report`, nothing of the setup's leads to `report`. -/
theorem create_not_covered :
    clusterEdges.Acyclic ∧ "create" ∈ clusterDag.tasksOf (.child "cluster" .root) ∧
      clusterDag.isTeardown "create" = false ∧
      "report" ∉ clusterDag.tasksOf (.child "cluster" .root) ∧
      ∃ e', TaskGroup.setDownstream clusterDag (.child "cluster" .root) ["report"] 2 clusterEdges =
        some e' ∧ ¬e'.Reaches "create" "report" := by
  refine ⟨clusterEdges_acyclic, by decide, rfl, by decide, clusterEdges.add "load" "report", rfl,
    fun h => ?_⟩
  have hpath : ∀ b, Edges.Reaches (clusterEdges.add "load" "report") "create" b → b = "drop" := by
    intro b hb
    induction hb with
    | single h =>
      rcases mem_downstream_add.mp h with h | ⟨h, -⟩
      · exact (clusterEdges_downstream h).2
      · exact absurd h (by decide)
    | tail _ h ih =>
      subst ih
      rcases mem_downstream_add.mp h with h | ⟨h, -⟩
      · exact absurd (clusterEdges_downstream h).1 (by decide)
      · exact absurd h (by decide)
  exact absurd (hpath "report" h) (by decide)

/-- The task on its own is covered. -/
theorem load_covered : ∃ n, ∀ fuel ≥ n, ∃ e',
    TaskGroup.setDownstream clusterDag (.child "cluster" .root) ["report"] fuel clusterEdges =
      some e' ∧ e'.Reaches "load" "report" := by
  have hnone : ∀ b, b ∉ clusterEdges.downstreamTaskIds "load" :=
    fun b hb => absurd (clusterEdges_downstream hb).1 (by decide)
  have hlast : LastWork clusterDag (clusterDag.tasksOf (.child "cluster" .root)) clusterEdges
      "load" := by
    refine ⟨by decide, rfl, fun d hd => ?_, fun _ d hd => absurd hd (hnone d)⟩
    obtain ⟨b, hb, -⟩ := Relation.TransGen.head'_iff.mp hd
    exact absurd hb.1 (hnone b)
  obtain ⟨n, hn⟩ := @covered_of_lastWork clusterDag clusterEdges "report" (.child "cluster" .root)
    clusterEdges_acyclic clusterEdges_within
  refine ⟨n, fun fuel hfuel => ?_⟩
  obtain ⟨e', he', hcovered⟩ := hn fuel hfuel
  exact ⟨e', he', hcovered "load" (by decide) rfl ⟨"load", hlast, .inl rfl⟩⟩

end Airflow.Authoring
