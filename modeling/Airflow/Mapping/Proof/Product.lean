import Airflow.Mapping.Proof.Decode

/-!
# `expand()` enumerates the product of its arguments

The instances of an expansion are the choices of one element of every argument, each once and in
lexicographic order, the last argument fastest (`resolve_enumerates`). Each argument is resolved
on its own, from the digit that the walk over the reversed arguments leaves (`resolve_digits`).
-/

namespace Airflow.Mapping

variable {Value : Type}

/-- What the choice `js` of one position for each argument names. -/
def chosen (arguments : List (String × Literal Value)) (js : List Nat) :
    List (Option (String × Resolved Value)) :=
  List.zipWith (fun e j => e.2.items[j]?.map (e.1, ·)) arguments js

/-- The lengths of the arguments, in the order of the call. -/
def lengths (arguments : List (String × Literal Value)) : List Nat :=
  arguments.map (·.2.length)

theorem lengths_cons (e : String × Literal Value) (arguments : List (String × Literal Value)) :
    lengths (e :: arguments) = e.2.length :: lengths arguments := rfl

namespace DictOfListsExpandInput

variable {self : DictOfListsExpandInput Value} {arguments : List (String × Literal Value)}

theorem prod_fastFirst : (fastFirst arguments).prod = (lengths arguments).prod :=
  List.prod_reverse _

theorem getTotalMapLength_eq_prod (h : self.value.entries ≠ []) :
    self.getTotalMapLength = (lengths self.value.entries).prod := by
  rw [getTotalMapLength_eq h, prod_fastFirst]

theorem getTotalMapLength_pos (hne : self.value.entries ≠ [])
    (hpos : ∀ e ∈ self.value.entries, 0 < e.2.length) : 0 < self.getTotalMapLength := by
  rw [getTotalMapLength_eq_prod hne]
  apply List.prod_pos_iff_forall_pos_nat.mpr
  intro n hn
  obtain ⟨e, he, rfl⟩ := List.mem_map.mp hn
  exact hpos e he

/-- Every argument from some place on is expanded to its digit of the `map_index`. -/
theorem mapM_expandMappedField (hpos : 0 < self.getTotalMapLength) (i : Nat)
    {before after : List (String × Literal Value)} (hsplit : self.value.entries = before ++ after) :
    ∃ row, after.mapM (fun e => (e.1, ·) <$> self.expandMappedField e.1 e.2 i) = .ok row ∧
      row.map some = chosen after (Radix.digits (lengths after) i) := by
  induction after generalizing before with
  | nil => exact ⟨[], rfl, rfl⟩
  | cons e after ih =>
    obtain ⟨v, hv, hitem⟩ := expandMappedField_eq hsplit hpos i
    have hrest : self.value.entries = (before ++ [e]) ++ after := by
      rw [hsplit, List.append_assoc, List.singleton_append]
    obtain ⟨row, hrow, hchosen⟩ := ih hrest
    refine ⟨(e.1, v) :: row, ?_, ?_⟩
    · rw [List.mapM_cons, hv, hrow]
      rfl
    · rw [Radix.digit, placeOf, prod_fastFirst] at hitem
      rw [lengths_cons, Radix.digits, chosen, List.zipWith_cons_cons, hitem, List.map_cons, hchosen]
      rfl

/-- **An instance resolves every argument to the element that the digits of its `map_index`
name.** -/
theorem resolve_digits (hpos : 0 < self.getTotalMapLength) (i : Nat) :
    ∃ row, self.resolve i = .ok row ∧ row.map some =
      chosen self.value.entries (Radix.digits (lengths self.value.entries) i) := by
  have hsplit : self.value.entries = [] ++ self.value.entries := rfl
  exact mapM_expandMappedField hpos i hsplit

/-- **The instances of an expansion are the choices of one element for each argument, each once,
in lexicographic order of the arguments.** -/
theorem resolve_enumerates (hne : self.value.entries ≠ [])
    (hpos : ∀ e ∈ self.value.entries, 0 < e.2.length) :
    ∃ choices : List (List Nat),
      choices.Pairwise (· < ·) ∧
      (∀ js, js ∈ choices ↔ List.Forall₂ (· < ·) js (lengths self.value.entries)) ∧
      List.Forall₂ (fun (i : Nat) js => ∃ row, self.resolve i = .ok row ∧
        row.map some = chosen self.value.entries js)
        (List.range self.getTotalMapLength) choices := by
  have hlengths : ∀ n ∈ lengths self.value.entries, 0 < n := by
    intro n hn
    obtain ⟨e, he, rfl⟩ := List.mem_map.mp hn
    exact hpos e he
  have htotal := getTotalMapLength_pos hne hpos
  refine ⟨(List.range self.getTotalMapLength).map (Radix.digits (lengths self.value.entries)),
    ?_, fun js => ?_, ?_⟩
  · rw [getTotalMapLength_eq_prod hne]
    exact Radix.pairwise_digits _
  · rw [getTotalMapLength_eq_prod hne]
    exact Radix.mem_digits hlengths
  · rw [List.forall₂_map_right_iff]
    exact List.forall₂_same.mpr fun i _ => resolve_digits htotal i

end DictOfListsExpandInput

/-- A sequence of two, a dict of two items and a sequence of three. -/
def threeArguments : DictOfListsExpandInput Nat :=
  ⟨⟨[("x", .sequence [1, 2]), ("y", .dict ⟨[("a", 3), ("b", 4)], by decide⟩),
    ("z", .sequence [5, 6, 7])], by decide⟩⟩

theorem threeArguments_enumerated : ∃ choices : List (List Nat),
    choices.Pairwise (· < ·) ∧
    (∀ js, js ∈ choices ↔ List.Forall₂ (· < ·) js [2, 2, 3]) ∧
    List.Forall₂ (fun (i : Nat) js => ∃ row, threeArguments.resolve i = .ok row ∧
      row.map some = chosen threeArguments.value.entries js) (List.range 12) choices :=
  @DictOfListsExpandInput.resolve_enumerates Nat threeArguments (by simp [threeArguments])
    (by simp [threeArguments, Literal.length, Dict.size])

end Airflow.Mapping
