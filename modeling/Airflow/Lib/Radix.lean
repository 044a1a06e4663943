import Mathlib.Algebra.BigOperators.Group.List.Basic
import Mathlib.Algebra.Order.BigOperators.Group.List
import Mathlib.Algebra.Ring.Nat

/-!
# Mixed-radix positions

A list of bases, the fastest one first, numbers the combinations of that many choices below its
product. `places` pairs each base with its weight, the product of the faster ones.
-/

namespace Radix

/-- The places of `bases` above a place of weight `w`, each with its own weight. -/
def places (w : Nat) : List Nat → List (Nat × Nat)
  | [] => []
  | n :: bases => (w, n) :: places (w * n) bases

/-- What a place of weight `w` and base `n` reads off `i`. -/
def digit (p : Nat × Nat) (i : Nat) : Nat := i / p.1 % p.2

variable {bases : List Nat} {w n i j : Nat}

theorem mem_places {p : Nat × Nat} :
    p ∈ places w bases ↔ ∃ pre post, bases = pre ++ p.2 :: post ∧ p.1 = w * pre.prod := by
  induction bases generalizing w with
  | nil => simp [places]
  | cons n bases ih =>
    simp only [places, List.mem_cons, ih]
    constructor
    · rintro (rfl | ⟨pre, post, rfl, hp⟩)
      · exact ⟨[], bases, rfl, by simp⟩
      · exact ⟨n :: pre, post, rfl, by rw [hp, List.prod_cons, Nat.mul_assoc]⟩
    · rintro ⟨pre, post, hpre, hp⟩
      cases pre with
      | nil =>
        obtain ⟨rfl, rfl⟩ := List.cons.inj hpre
        exact .inl (Prod.ext (by simpa using hp) rfl)
      | cons m pre =>
        obtain ⟨rfl, rfl⟩ := List.cons.inj hpre
        exact .inr ⟨pre, post, rfl, by rw [hp, List.prod_cons, Nat.mul_assoc]⟩

/-- A place only reads what is left modulo the product of the bases. -/
theorem digit_mod_prod {p : Nat × Nat} (hp : p ∈ places 1 bases) :
    digit p (i % bases.prod) = digit p i := by
  obtain ⟨pre, post, rfl, hw⟩ := mem_places.mp hp
  have hprod : (pre ++ p.2 :: post).prod = p.1 * (p.2 * post.prod) := by
    rw [List.prod_append, List.prod_cons, hw, Nat.one_mul]
  rw [digit, digit, hprod, Nat.mod_mul_right_div_self, Nat.mod_mul_right_mod]

/-- A number is determined, up to the product of the bases, by what its places read. -/
theorem mod_prod_eq (h : ∀ p ∈ places w bases, digit p i = digit p j) :
    i / w % bases.prod = j / w % bases.prod := by
  induction bases generalizing w with
  | nil => simp [Nat.mod_one]
  | cons n bases ih =>
    have hn : i / w % n = j / w % n := h (w, n) List.mem_cons_self
    have hrest := ih fun p hp => h p (List.mem_cons_of_mem _ hp)
    simp only [← Nat.div_div_eq_div_mul] at hrest
    rw [List.prod_cons, Nat.mod_mul, Nat.mod_mul, hn, hrest]

theorem mod_eq_of_digits (h : ∀ p ∈ places 1 bases, digit p i = digit p j) :
    i % bases.prod = j % bases.prod := by
  have hmod := mod_prod_eq h
  rwa [Nat.div_one, Nat.div_one] at hmod

/-- **Below the product of the bases, the places tell any two numbers apart.** -/
theorem eq_of_digits (hi : i < bases.prod) (hj : j < bases.prod)
    (h : ∀ p ∈ places 1 bases, digit p i = digit p j) : i = j := by
  have hmod := mod_eq_of_digits h
  rwa [Nat.mod_eq_of_lt hi, Nat.mod_eq_of_lt hj] at hmod

/-! ## All digits of a number -/

/-- The digits of `i`, the slowest base of `bases` first. -/
def digits : List Nat → Nat → List Nat
  | [], _ => []
  | n :: bases, i => i / bases.prod % n :: digits bases i

theorem digits_congr (h : i % bases.prod = j % bases.prod) : digits bases i = digits bases j := by
  induction bases with
  | nil => rfl
  | cons n bases ih =>
    rw [List.prod_cons] at h
    have hrest : i % bases.prod = j % bases.prod := by
      rw [← Nat.mod_mul_left_mod i n bases.prod, h, Nat.mod_mul_left_mod]
    have hdigit : i / bases.prod % n = j / bases.prod % n := by
      rw [Nat.mul_comm] at h
      rw [← Nat.mod_mul_right_div_self, h, Nat.mod_mul_right_div_self]
    rw [digits, digits, hdigit, ih hrest]

theorem digits_mod : digits bases (i % bases.prod) = digits bases i :=
  digits_congr (Nat.mod_mod _ _)

theorem forall₂_digits (hpos : ∀ n ∈ bases, 0 < n) (i : Nat) :
    List.Forall₂ (· < ·) (digits bases i) bases := by
  induction bases with
  | nil => exact .nil
  | cons n bases ih =>
    rw [List.forall_mem_cons] at hpos
    exact .cons (Nat.mod_lt _ hpos.1) (ih hpos.2)

/-- Any choice below the bases is made by a number below their product. -/
theorem exists_digits_eq {js : List Nat} (h : List.Forall₂ (· < ·) js bases) :
    ∃ i < bases.prod, digits bases i = js := by
  induction h with
  | nil => exact ⟨0, by simp, rfl⟩
  | @cons j n js bases hj hrest ih =>
    obtain ⟨i, hi, rfl⟩ := ih
    refine ⟨bases.prod * j + i, ?_, ?_⟩
    · calc bases.prod * j + i < bases.prod * j + bases.prod := Nat.add_lt_add_left hi _
        _ = bases.prod * (j + 1) := (Nat.mul_succ _ _).symm
        _ ≤ bases.prod * n := Nat.mul_le_mul_left _ hj
        _ = (n :: bases).prod := by rw [List.prod_cons, Nat.mul_comm]
    · have hpos : 0 < bases.prod := Nat.zero_lt_of_lt hi
      rw [digits, Nat.mul_add_div hpos, Nat.div_eq_of_lt hi, Nat.add_zero, Nat.mod_eq_of_lt hj]
      rw [digits_congr (Nat.mul_add_mod bases.prod j i)]

/-- Below the product of the bases, the digits of a larger number are lexicographically larger. -/
theorem digits_lt_digits (hj : j < bases.prod) (hij : i < j) :
    digits bases i < digits bases j := by
  induction bases generalizing i j with
  | nil =>
    rw [List.prod_nil] at hj
    omega
  | cons n bases ih =>
    rw [List.prod_cons, Nat.mul_comm] at hj
    have hpos : 0 < bases.prod := Nat.pos_of_mul_pos_right (Nat.zero_lt_of_lt hj)
    have hdj : j / bases.prod < n := Nat.div_lt_of_lt_mul hj
    have hle : i / bases.prod ≤ j / bases.prod := Nat.div_le_div_right (Nat.le_of_lt hij)
    rw [digits, digits, Nat.mod_eq_of_lt hdj, Nat.mod_eq_of_lt (Nat.lt_of_le_of_lt hle hdj),
      List.cons_lt_cons_iff]
    rcases Nat.lt_or_eq_of_le hle with hlt | heq
    · exact .inl hlt
    · refine .inr ⟨heq, ?_⟩
      have hi := Nat.div_add_mod i bases.prod
      have hj := Nat.div_add_mod j bases.prod
      rw [← @digits_mod bases i, ← @digits_mod bases j]
      apply ih (Nat.mod_lt _ hpos)
      rw [heq] at hi
      omega

/-- **The digits of the numbers below the product of the bases are the choices below the bases,
each once and in lexicographic order.** -/
theorem pairwise_digits (bases : List Nat) :
    ((List.range bases.prod).map (digits bases)).Pairwise (· < ·) := by
  rw [List.pairwise_map]
  apply List.Pairwise.imp_of_mem _ List.pairwise_lt_range
  intro i j _ hj hij
  exact digits_lt_digits (List.mem_range.mp hj) hij

theorem mem_digits (hpos : ∀ n ∈ bases, 0 < n) {js : List Nat} :
    js ∈ (List.range bases.prod).map (digits bases) ↔ List.Forall₂ (· < ·) js bases := by
  rw [List.mem_map]
  constructor
  · rintro ⟨i, -, rfl⟩
    exact forall₂_digits hpos i
  · intro h
    obtain ⟨i, hi, hdigits⟩ := exists_digits_eq h
    exact ⟨i, List.mem_range.mpr hi, hdigits⟩

end Radix
