import Mathlib.Data.List.Infix

/-!
# Nested contexts and saved values

A `Program` enters and leaves contexts in a well-nested way. `Restores` says of its run that leaving
a context gives a value back that it had before the context was entered.

A `Saved` value is the current value with a list of earlier ones: `push` saves the current value
when there is one and it is not the new one, `pop` takes the last saved value. A register of a
system holds such a value, that entering a context may push to and leaving one always pops. It is
restored by all contexts of a run exactly when each is entered in a state that `Keeps` it
(`Register.restores_iff`).
-/

namespace Nested

/-! ## Programs -/

/-- Statements between which contexts are entered and left. -/
inductive Program (α ε : Type*) where
  | done
  | act (a : α) (rest : Program α ε)
  | within (e : ε) (body rest : Program α ε)

/-- What the statements of a program do. `enter` is `none` when the context is not entered. -/
structure System (α ε σ : Type*) where
  act : α → σ → σ
  enter : ε → σ → Option σ
  leave : σ → σ

variable {α ε σ ν μ : Type*} (sys : System α ε σ)

/-- The run of a program. -/
def run : Program α ε → σ → Option σ
  | .done, s => some s
  | .act a rest, s => run rest (sys.act a s)
  | .within e body rest, s =>
    (sys.enter e s).bind fun s => (run body s).bind fun s => run rest (sys.leave s)

/-- Leaving a context gives the value back that was there when it was entered. -/
def Restores (value : σ → ν) : Program α ε → σ → Prop
  | .done, _ => True
  | .act a rest, s => Restores value rest (sys.act a s)
  | .within e body rest, s => ∀ s₁, sys.enter e s = some s₁ → Restores value body s₁ ∧
      ∀ s₂, run sys body s₁ = some s₂ →
        value (sys.leave s₂) = value s ∧ Restores value rest (sys.leave s₂)

/-- Every context is entered in a state that meets `ok`. -/
def AllEnters (ok : σ → ε → Prop) : Program α ε → σ → Prop
  | .done, _ => True
  | .act a rest, s => AllEnters ok rest (sys.act a s)
  | .within e body rest, s => ∀ s₁, sys.enter e s = some s₁ → ok s e ∧ AllEnters ok body s₁ ∧
      ∀ s₂, run sys body s₁ = some s₂ → AllEnters ok rest (sys.leave s₂)

variable {sys}

theorem run_within {e : ε} {body rest : Program α ε} {s s' : σ}
    (h : run sys (.within e body rest) s = some s') :
    ∃ s₁ s₂, sys.enter e s = some s₁ ∧ run sys body s₁ = some s₂ ∧
      run sys rest (sys.leave s₂) = some s' := by
  obtain ⟨s₁, h₁, h⟩ := Option.bind_eq_some_iff.mp h
  obtain ⟨s₂, h₂, h⟩ := Option.bind_eq_some_iff.mp h
  exact ⟨s₁, s₂, h₁, h₂, h⟩

theorem restores_prod {f : σ → ν} {g : σ → μ} {p : Program α ε} {s : σ} :
    Restores sys (fun s => (f s, g s)) p s ↔ Restores sys f p s ∧ Restores sys g p s := by
  induction p generalizing s with
  | done => exact ⟨fun _ => ⟨trivial, trivial⟩, fun _ => trivial⟩
  | act a rest ih => exact ih
  | within e body rest ihBody ihRest =>
    simp only [Restores, ihBody, ihRest, Prod.mk.injEq]
    constructor
    · intro h
      constructor <;> intro s₁ h₁ <;> obtain ⟨⟨hfBody, hgBody⟩, hRest⟩ := h s₁ h₁
      · exact ⟨hfBody, fun s₂ h₂ => ⟨(hRest s₂ h₂).1.1, (hRest s₂ h₂).2.1⟩⟩
      · exact ⟨hgBody, fun s₂ h₂ => ⟨(hRest s₂ h₂).1.2, (hRest s₂ h₂).2.2⟩⟩
    · rintro ⟨hf, hg⟩ s₁ h₁
      obtain ⟨hfBody, hfRest⟩ := hf s₁ h₁
      obtain ⟨hgBody, hgRest⟩ := hg s₁ h₁
      refine ⟨⟨hfBody, hgBody⟩, fun s₂ h₂ => ?_⟩
      exact ⟨⟨(hfRest s₂ h₂).1, (hgRest s₂ h₂).1⟩, (hfRest s₂ h₂).2, (hgRest s₂ h₂).2⟩

theorem allEnters_and {ok ok' : σ → ε → Prop} {p : Program α ε} {s : σ} :
    AllEnters sys (fun s e => ok s e ∧ ok' s e) p s ↔
      AllEnters sys ok p s ∧ AllEnters sys ok' p s := by
  induction p generalizing s with
  | done => exact ⟨fun _ => ⟨trivial, trivial⟩, fun _ => trivial⟩
  | act a rest ih => exact ih
  | within e body rest ihBody ihRest =>
    simp only [AllEnters, ihBody, ihRest]
    constructor
    · intro h
      constructor <;> intro s₁ h₁ <;> obtain ⟨hok, ⟨hBody, hBody'⟩, hRest⟩ := h s₁ h₁
      · exact ⟨hok.1, hBody, fun s₂ h₂ => (hRest s₂ h₂).1⟩
      · exact ⟨hok.2, hBody', fun s₂ h₂ => (hRest s₂ h₂).2⟩
    · rintro ⟨hok, hok'⟩ s₁ h₁
      obtain ⟨h, hBody, hRest⟩ := hok s₁ h₁
      obtain ⟨h', hBody', hRest'⟩ := hok' s₁ h₁
      exact ⟨⟨h, h'⟩, ⟨hBody, hBody'⟩, fun s₂ h₂ => ⟨hRest s₂ h₂, hRest' s₂ h₂⟩⟩

/-! ## Saved values -/

/-- A value with the earlier ones that were saved, the last at the end. -/
structure Saved (ν : Type*) where
  cur : ν
  prev : List ν

namespace Saved

variable [DecidableEq ν] (empty : ν)

/-- The current value is saved unless it is empty or the new one. -/
def push (r : Saved ν) (v : ν) : Saved ν :=
  ⟨v, if r.cur ≠ empty ∧ r.cur ≠ v then r.prev ++ [r.cur] else r.prev⟩

/-- The last saved value is the current one again. -/
def pop (r : Saved ν) : Saved ν := ⟨r.prev.getLast?.getD empty, r.prev.dropLast⟩

/-- A context is entered, with what it pushes. -/
def enter (r : Saved ν) : Option ν → Saved ν
  | none => r
  | some v => r.push empty v

/-- What `pop` undoes: a value is pushed that is saved for, or there is nothing to save and nothing
saved. -/
def Keeps (r : Saved ν) (pushed : Option ν) : Prop :=
  (∃ v, pushed = some v ∧ r.cur ≠ empty ∧ r.cur ≠ v) ∨ r.cur = empty ∧ r.prev = []

variable {empty} {r : Saved ν} {pushed : Option ν}

omit [DecidableEq ν] in
theorem pop_of_prev_eq_nil (h : r.prev = []) : r.pop empty = ⟨empty, []⟩ := by
  rw [pop, h]
  rfl

theorem enter_prev_of_saved {v : ν} (hcur : r.cur ≠ empty) (hne : r.cur ≠ v) :
    (r.enter empty (some v)).prev = r.prev ++ [r.cur] := if_pos ⟨hcur, hne⟩

theorem enter_prev_of_empty (hcur : r.cur = empty) : (r.enter empty pushed).prev = r.prev := by
  cases pushed with
  | none => rfl
  | some v => exact if_neg fun h => h.1 hcur

/-- Entering saves the current value or nothing. -/
theorem enter_prev : (r.enter empty pushed).prev = r.prev ∨
    (r.enter empty pushed).prev = r.prev ++ [r.cur] ∧ r.Keeps empty pushed ∧ r.cur ≠ empty := by
  cases pushed with
  | none => exact .inl rfl
  | some v =>
    by_cases h : r.cur ≠ empty ∧ r.cur ≠ v
    · exact .inr ⟨enter_prev_of_saved h.1 h.2, .inl ⟨v, rfl, h⟩, h.1⟩
    · exact .inl (if_neg h)

/-- **Leaving right after entering gives everything back** when it is kept. -/
theorem pop_enter (h : r.Keeps empty pushed) : (r.enter empty pushed).pop empty = r := by
  obtain ⟨cur, prev⟩ := r
  rcases h with ⟨v, rfl, hcur, hne⟩ | ⟨hcur, hprev⟩
  · rw [pop, enter_prev_of_saved hcur hne, List.getLast?_concat, List.dropLast_concat,
      Option.getD_some]
  · obtain rfl : cur = empty := hcur
    obtain rfl : prev = [] := hprev
    exact pop_of_prev_eq_nil (enter_prev_of_empty rfl)

/-- Leaving after entering never saves more, when no more was saved in between. -/
theorem dropLast_prefix {prev : List ν} (h : prev <+: (r.enter empty pushed).prev) :
    prev.dropLast <+: r.prev := by
  rcases @enter_prev ν _ empty r pushed with heq | ⟨heq, -⟩
  · rw [heq] at h
    exact (List.dropLast_prefix prev).trans h
  · rw [heq] at h
    rcases List.prefix_concat_iff.mp h with rfl | hpre
    · rw [List.dropLast_concat]
    · exact (List.dropLast_prefix prev).trans hpre

/-- If leaving gives everything back, the value was kept and nothing was lost in between. -/
theorem keeps_of_pop {prev : List ν} (h : prev <+: (r.enter empty pushed).prev)
    (hprev : prev.dropLast = r.prev) (hcur : prev.getLast?.getD empty = r.cur) :
    r.Keeps empty pushed ∧ prev = (r.enter empty pushed).prev := by
  have hnil : prev <+: r.prev → prev = [] := by
    intro hpre
    have hle := hpre.length_le
    rw [← hprev, List.length_dropLast] at hle
    exact List.eq_nil_of_length_eq_zero (by omega)
  rcases @enter_prev ν _ empty r pushed with heq | ⟨heq, hkeeps, hne⟩
  · rw [heq] at h ⊢
    obtain rfl := hnil h
    exact ⟨.inr ⟨hcur.symm, hprev.symm⟩, hprev⟩
  · rw [heq] at h ⊢
    rcases List.prefix_concat_iff.mp h with rfl | hpre
    · exact ⟨hkeeps, rfl⟩
    · obtain rfl := hnil hpre
      exact absurd hcur.symm hne

end Saved

/-! ## Registers -/

/-- A saved value of the states of a system, with what entering a context pushes to it. -/
structure Register [DecidableEq ν] (sys : System α ε σ) (empty : ν) (reg : σ → Saved ν)
    (pushed : ε → σ → Option ν) : Prop where
  act : ∀ a s, reg (sys.act a s) = reg s
  enter : ∀ e s s₁, sys.enter e s = some s₁ → reg s₁ = (reg s).enter empty (pushed e s)
  leave : ∀ s, reg (sys.leave s) = (reg s).pop empty

namespace Register

variable [DecidableEq ν] {empty : ν} {reg : σ → Saved ν} {pushed : ε → σ → Option ν}

/-- A run of contexts that keep the register leaves it as it was. -/
theorem run_eq (h : Register sys empty reg pushed) {p : Program α ε} {s s' : σ}
    (hkeeps : AllEnters sys (fun s e => (reg s).Keeps empty (pushed e s)) p s)
    (hrun : run sys p s = some s') : reg s' = reg s := by
  induction p generalizing s s' with
  | done =>
    cases hrun
    rfl
  | act a rest ih => rw [ih hkeeps hrun, h.act]
  | within e body rest ihBody ihRest =>
    obtain ⟨s₁, s₂, h₁, h₂, hrun⟩ := run_within hrun
    obtain ⟨hk, hBody, hRest⟩ := hkeeps s₁ h₁
    calc reg s' = reg (sys.leave s₂) := ihRest (hRest s₂ h₂) hrun
      _ = (reg s₁).pop empty := by rw [h.leave, ihBody hBody h₂]
      _ = ((reg s).enter empty (pushed e s)).pop empty := by rw [h.enter e s s₁ h₁]
      _ = reg s := Saved.pop_enter hk

/-- Contexts that keep the register restore it. -/
theorem restores_of_keeps (h : Register sys empty reg pushed) {p : Program α ε} {s : σ}
    (hkeeps : AllEnters sys (fun s e => (reg s).Keeps empty (pushed e s)) p s) :
    Restores sys (fun s => (reg s).cur) p s := by
  induction p generalizing s with
  | done => trivial
  | act a rest ih => exact ih hkeeps
  | within e body rest ihBody ihRest =>
    intro s₁ h₁
    obtain ⟨hk, hBody, hRest⟩ := hkeeps s₁ h₁
    refine ⟨ihBody hBody, fun s₂ h₂ => ⟨?_, ihRest (hRest s₂ h₂)⟩⟩
    simp only [h.leave, h.run_eq hBody h₂, h.enter e s s₁ h₁, Saved.pop_enter hk]

/-- A run never saves more than it was given. -/
theorem prev_prefix (h : Register sys empty reg pushed) {p : Program α ε} {s s' : σ}
    (hrun : run sys p s = some s') : (reg s').prev <+: (reg s).prev := by
  induction p generalizing s s' with
  | done =>
    cases hrun
    exact List.prefix_rfl
  | act a rest ih =>
    rw [← h.act a s]
    exact ih hrun
  | within e body rest ihBody ihRest =>
    obtain ⟨s₁, s₂, h₁, h₂, hrun⟩ := run_within hrun
    have hbody := ihBody h₂
    rw [h.enter e s s₁ h₁] at hbody
    refine (ihRest hrun).trans ?_
    rw [h.leave]
    exact Saved.dropLast_prefix hbody

/-- When nothing that was saved is lost, contexts that restore the register keep it. -/
theorem keeps_of_restores (h : Register sys empty reg pushed) {p : Program α ε} {s s' : σ}
    (hrestores : Restores sys (fun s => (reg s).cur) p s) (hrun : run sys p s = some s')
    (hprev : (reg s').prev = (reg s).prev) :
    AllEnters sys (fun s e => (reg s).Keeps empty (pushed e s)) p s := by
  induction p generalizing s s' with
  | done => trivial
  | act a rest ih =>
    rw [← h.act a s] at hprev
    exact ih hrestores hrun hprev
  | within e body rest ihBody ihRest =>
    obtain ⟨s₁, s₂, h₁, h₂, hrun⟩ := run_within hrun
    obtain ⟨hBody, hRest⟩ := hrestores s₁ h₁
    obtain ⟨hvalue, hRest⟩ := hRest s₂ h₂
    have hbody := h.prev_prefix h₂
    rw [h.enter e s s₁ h₁] at hbody
    have hleave : (reg (sys.leave s₂)).prev = (reg s₂).prev.dropLast := by rw [h.leave]; rfl
    -- the rest may only lose more, so that what the context leaves is all there was
    have hrest : (reg (sys.leave s₂)).prev = (reg s).prev := by
      refine List.IsPrefix.eq_of_length_le ?_ ?_
      · rw [hleave]
        exact Saved.dropLast_prefix hbody
      · rw [← hprev]
        exact (h.prev_prefix hrun).length_le
    simp only [h.leave] at hvalue
    obtain ⟨hkeeps, hall⟩ := Saved.keeps_of_pop hbody (hleave ▸ hrest) hvalue
    intro t₁ ht₁
    obtain rfl : s₁ = t₁ := Option.some.inj (h₁.symm.trans ht₁)
    refine ⟨hkeeps, ihBody hBody h₂ ?_, fun t₂ ht₂ => ?_⟩
    · rw [hall, h.enter e s s₁ h₁]
    · obtain rfl : s₂ = t₂ := Option.some.inj (h₂.symm.trans ht₂)
      exact ihRest hRest hrun (hprev.trans hrest.symm)

/-- **A register is restored by all contexts of a run exactly when they keep it**, in a run that
starts with nothing saved. -/
theorem restores_iff (h : Register sys empty reg pushed) {p : Program α ε} {s s' : σ}
    (hrun : run sys p s = some s') (hprev : (reg s).prev = []) :
    Restores sys (fun s => (reg s).cur) p s ↔
      AllEnters sys (fun s e => (reg s).Keeps empty (pushed e s)) p s := by
  refine ⟨fun hrestores => h.keeps_of_restores hrestores hrun ?_, h.restores_of_keeps⟩
  have hprefix := h.prev_prefix hrun
  rw [hprev] at hprefix ⊢
  exact List.prefix_nil.mp hprefix

end Register

end Nested
