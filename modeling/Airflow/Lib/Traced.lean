import Mathlib.Data.List.Forall2

/-!
# Computations with a trace

`Traced ω ε α` is what a computation does that records events of type `ω` and ends with a value or
an error. `sequence` runs computations one after the other until one fails. The lemmas say what the
trace and the result of each combinator are, and how a computation starts: with an event, with an
error before any event, or neither.
-/

/-- The events that a computation records, and how it ends. -/
structure Traced (ω ε α : Type*) where
  trace : List ω := []
  result : Except ε α

namespace Traced

variable {ω ε α β : Type*}

/-- A value, without events. -/
def pure (a : α) : Traced ω ε α := ⟨[], .ok a⟩

/-- An error, without events. -/
def fail (e : ε) : Traced ω ε α := ⟨[], .error e⟩

/-- A computation that records nothing. -/
def lift (r : Except ε α) : Traced ω ε α := ⟨[], r⟩

/-- Record an event first. -/
def emit (w : ω) (t : Traced ω ε α) : Traced ω ε α := ⟨w :: t.trace, t.result⟩

/-- Go on with the value, if there is one. -/
def bind (t : Traced ω ε α) (f : α → Traced ω ε β) : Traced ω ε β :=
  match t.result with
  | .error e => ⟨t.trace, .error e⟩
  | .ok a => ⟨t.trace ++ (f a).trace, (f a).result⟩

def map (f : α → β) (t : Traced ω ε α) : Traced ω ε β := ⟨t.trace, t.result.map f⟩

/-- Run the computations in order. -/
def sequence : List (Traced ω ε α) → Traced ω ε (List α)
  | [] => pure []
  | t :: ts => t.bind fun a => (sequence ts).map (a :: ·)

section
variable {t : Traced ω ε α} {ts : List (Traced ω ε α)} {f : α → Traced ω ε β}

theorem bind_of_ok {a : α} (h : t.result = .ok a) :
    t.bind f = ⟨t.trace ++ (f a).trace, (f a).result⟩ := by
  simp [bind, h]

theorem bind_of_error {e : ε} (h : t.result = .error e) :
    t.bind f = ⟨t.trace, .error e⟩ := by
  simp [bind, h]

theorem bind_result_ok {b : β} :
    (t.bind f).result = .ok b ↔ ∃ a, t.result = .ok a ∧ (f a).result = .ok b := by
  cases h : t.result with
  | error e => simp [bind_of_error h]
  | ok a => simp [bind_of_ok h]

theorem bind_result : (t.bind f).result = t.result.bind fun a => (f a).result := by
  cases h : t.result with
  | error e => simp [bind_of_error h, Except.bind]
  | ok a => simp [bind_of_ok h, Except.bind]

theorem map_result_ok {g : α → β} {b : β} :
    (t.map g).result = .ok b ↔ ∃ a, t.result = .ok a ∧ g a = b := by
  show t.result.map g = .ok b ↔ _
  cases t.result with
  | error e => simp [Except.map]
  | ok a => simp [Except.map]

theorem sequence_result_ok {as : List α} :
    (sequence ts).result = .ok as ↔ List.Forall₂ (fun t a => t.result = .ok a) ts as := by
  induction ts generalizing as with
  | nil =>
    cases as with
    | nil => simp [sequence, pure]
    | cons a as => simp [sequence, pure]
  | cons t ts ih =>
    rw [sequence, bind_result_ok]
    constructor
    · rintro ⟨a, ha, hrest⟩
      obtain ⟨as', has, rfl⟩ := map_result_ok.mp hrest
      exact .cons ha (ih.mp has)
    · intro h
      cases h with
      | cons ha has => exact ⟨_, ha, map_result_ok.mpr ⟨_, ih.mpr has, rfl⟩⟩

end

/-! ## Computations that record nothing -/

theorem map_eq_ok {r : Except ε α} {g : α → β} {b : β} :
    r.map g = .ok b ↔ ∃ a, r = .ok a ∧ g a = b := by
  cases r <;> simp [Except.map]

theorem bind_eq_ok {r : Except ε α} {k : α → Except ε β} {b : β} :
    r.bind k = .ok b ↔ ∃ a, r = .ok a ∧ k a = .ok b := by
  cases r <;> simp [Except.bind]

theorem mapM_eq_ok {γ : Type*} {l : List γ} {g : γ → Except ε α} {as : List α} :
    l.mapM g = .ok as ↔ List.Forall₂ (fun c a => g c = .ok a) l as := by
  induction l generalizing as with
  | nil => cases as <;> simp [Pure.pure, Except.pure]
  | cons c l ih =>
    rw [List.mapM_cons]
    refine bind_eq_ok.trans ?_
    constructor
    · rintro ⟨a, ha, hrest⟩
      obtain ⟨as', has, heq⟩ := bind_eq_ok.mp hrest
      cases heq
      exact .cons ha (ih.mp has)
    · intro h
      cases h with
      | cons ha has => exact ⟨_, ha, bind_eq_ok.mpr ⟨_, ih.mpr has, rfl⟩⟩

theorem exists_mapM_eq_ok {γ : Type*} {l : List γ} {g : γ → Except ε α} :
    (∃ as, l.mapM g = .ok as) ↔ ∀ c ∈ l, ∃ a, g c = .ok a := by
  induction l with
  | nil => simp [Pure.pure, Except.pure]
  | cons c l ih =>
    simp only [mapM_eq_ok, List.forall_mem_cons] at ih ⊢
    rw [← ih]
    constructor
    · rintro ⟨as, has⟩
      cases has with
      | cons ha has => exact ⟨⟨_, ha⟩, _, has⟩
    · rintro ⟨⟨a, ha⟩, as, has⟩
      exact ⟨a :: as, .cons ha has⟩

theorem mem_of_mapM_eq_ok {γ : Type*} {l : List γ} {g : γ → Except ε α} {as : List α} {a : α}
    (h : l.mapM g = .ok as) : a ∈ as ↔ ∃ c ∈ l, g c = .ok a := by
  rw [mapM_eq_ok] at h
  induction h with
  | nil => simp
  | @cons c a' l as hc _ ih =>
    rw [List.mem_cons, ih, List.exists_mem_cons_iff, hc]
    simp [eq_comm]

/-- What the results have from what they are made of. -/
theorem map_of_mapM_eq_ok {γ δ : Type*} {l : List γ} {g : γ → Except ε α} {as : List α}
    {p : α → δ} {q : γ → δ} (h : l.mapM g = .ok as) (hg : ∀ c a, g c = .ok a → p a = q c) :
    as.map p = l.map q := by
  rw [mapM_eq_ok] at h
  induction h with
  | nil => rfl
  | cons hc _ ih => rw [List.map_cons, List.map_cons, hg _ _ hc, ih]

/-! ## How a computation starts -/

/-- What comes first: an event, an error, or nothing. -/
inductive Start where
  | event
  | error
  | nothing
deriving DecidableEq

/-- What comes first when `b` follows. -/
def Start.andThen (a b : Start) : Start :=
  match a with
  | .nothing => b
  | a => a

/-- What comes first of several, in order. -/
def Start.first : List Start → Start
  | [] => .nothing
  | a :: l => a.andThen (first l)

theorem Start.first_eq_nothing {l : List Start} : first l = .nothing ↔ ∀ a ∈ l, a = .nothing := by
  induction l with
  | nil => simp [first]
  | cons a l ih => cases a <;> simp [first, andThen, ih]

def start (t : Traced ω ε α) : Start :=
  match t.trace, t.result with
  | _ :: _, _ => .event
  | [], .error _ => .error
  | [], .ok _ => .nothing

section
variable {t : Traced ω ε α} {f : α → Traced ω ε β}

theorem start_eq_event : t.start = .event ↔ t.trace ≠ [] := by
  obtain ⟨trace, result⟩ := t
  cases trace <;> cases result <;> simp [start]

theorem start_eq_nothing : t.start = .nothing ↔ t.trace = [] ∧ ∃ a, t.result = .ok a := by
  obtain ⟨trace, result⟩ := t
  cases trace <;> cases result <;> simp [start]

@[simp] theorem start_pure (a : α) : (pure a : Traced ω ε α).start = .nothing := rfl
@[simp] theorem start_fail (e : ε) : (fail e : Traced ω ε α).start = .error := rfl
@[simp] theorem start_emit (w : ω) : (emit w t).start = .event := rfl

@[simp] theorem start_map (g : α → β) : (t.map g).start = t.start := by
  obtain ⟨trace, result⟩ := t
  cases trace <;> cases result <;> rfl

theorem start_bind {s : Start}
    (h : ∀ a, t.trace = [] → t.result = .ok a → (f a).start = s) :
    (t.bind f).start = t.start.andThen s := by
  obtain ⟨trace, result⟩ := t
  cases result with
  | error e => cases trace <;> rfl
  | ok a =>
    cases trace with
    | nil =>
      show (f a).start = s
      exact h a rfl rfl
    | cons w trace => rfl

/-- Computations in order start as the first of them that does anything. -/
theorem start_sequence (ts : List (Traced ω ε α)) :
    (sequence ts).start = Start.first (ts.map start) := by
  induction ts with
  | nil => rfl
  | cons t ts ih =>
    show (t.bind _).start = t.start.andThen (Start.first (ts.map start))
    refine start_bind fun a _ _ => ?_
    rw [start_map, ih]

end

end Traced
