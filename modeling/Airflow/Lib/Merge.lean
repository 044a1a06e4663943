import Mathlib.Data.List.Basic

/-!
# Merging what may be missing

`Option.merge f` merges two values either of which may be missing, `Merge.places f` two lists place
by place. A rule that is associative on some values makes both associative on them, also where the
values are only those with a property `P` that the rule keeps.
-/

namespace Merge

variable {α : Type*} {f : α → α → α} {P : α → Prop}

/-- The lists merged place by place, and the rest of the longer one. -/
def places (f : α → α → α) : List α → List α → List α
  | [], bs => bs
  | a :: as, [] => a :: as
  | a :: as, b :: bs => f a b :: places f as bs

@[simp] theorem places_nil (as : List α) : places f as [] = as := by cases as <;> rfl

@[simp] theorem nil_places (bs : List α) : places f [] bs = bs := rfl

@[simp] theorem places_cons (a b : α) (as bs : List α) :
    places f (a :: as) (b :: bs) = f a b :: places f as bs := rfl

theorem getElem?_places (as bs : List α) (i : Nat) :
    (places f as bs)[i]? = as[i]?.merge f bs[i]? := by
  induction as generalizing bs i with
  | nil => simp
  | cons a as ih =>
    cases bs with
    | nil => simp
    | cons b bs => cases i with
      | zero => rfl
      | succ i => simpa using ih bs i

theorem length_places (as bs : List α) : (places f as bs).length = max as.length bs.length := by
  induction as generalizing bs with
  | nil => simp
  | cons a as ih =>
    cases bs with
    | nil => simp
    | cons b bs => simp only [places_cons, List.length_cons, ih]; omega

theorem option_keeps (hf : ∀ a b, P a → P b → P (f a b)) {x y : Option α} (hx : ∀ a ∈ x, P a)
    (hy : ∀ a ∈ y, P a) : ∀ a ∈ x.merge f y, P a := by
  cases x with
  | none => simpa using hy
  | some a => cases y with
    | none => simpa using hx
    | some b => simpa using hf a b (hx a rfl) (hy b rfl)

theorem option_assoc (hf : ∀ a b c, P a → P b → P c → f (f a b) c = f a (f b c))
    {x y z : Option α} (hx : ∀ a ∈ x, P a) (hy : ∀ a ∈ y, P a) (hz : ∀ a ∈ z, P a) :
    (x.merge f y).merge f z = x.merge f (y.merge f z) := by
  cases x with
  | none => simp
  | some a => cases y with
    | none => simp
    | some b => cases z with
      | none => simp
      | some c => simpa using hf a b c (hx a rfl) (hy b rfl) (hz c rfl)

theorem places_keeps (hf : ∀ a b, P a → P b → P (f a b)) {as bs : List α} (has : ∀ a ∈ as, P a)
    (hbs : ∀ b ∈ bs, P b) : ∀ a ∈ places f as bs, P a := by
  induction as generalizing bs with
  | nil => simpa using hbs
  | cons a as ih => cases bs with
    | nil => simpa using has
    | cons b bs =>
      rw [List.forall_mem_cons] at has hbs
      rw [places_cons, List.forall_mem_cons]
      exact ⟨hf a b has.1 hbs.1, ih has.2 hbs.2⟩

theorem places_assoc (hf : ∀ a b c, P a → P b → P c → f (f a b) c = f a (f b c))
    {as bs cs : List α} (has : ∀ a ∈ as, P a) (hbs : ∀ b ∈ bs, P b) (hcs : ∀ c ∈ cs, P c) :
    places f (places f as bs) cs = places f as (places f bs cs) := by
  induction as generalizing bs cs with
  | nil => simp
  | cons a as ih => cases bs with
    | nil => simp
    | cons b bs => cases cs with
      | nil => simp
      | cons c cs =>
        rw [List.forall_mem_cons] at has hbs hcs
        rw [places_cons, places_cons, places_cons, places_cons, hf a b c has.1 hbs.1 hcs.1,
          ih has.2 hbs.2 hcs.2]

end Merge
