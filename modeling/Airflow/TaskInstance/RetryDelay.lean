import Airflow.Timetables.Timetable
import Mathlib.Data.Rat.Cast.Order
import Mathlib.Algebra.Order.Floor.Ring
import Mathlib.Algebra.Order.Field.Power
import Mathlib.Data.Rat.Floor
import Mathlib.Tactic.NormNum
import Mathlib.Tactic.Positivity

/-!
# The delay before a retry

`next_retry_datetime` of `airflow/models/taskinstance.py`, over exact rationals: `2 ** (n - 2)` is a
float there where `n` is 1, and so is its product with the seconds of the delay.
-/

namespace Airflow.Retrying

open Timetables

/-- What the task says about its retries. -/
structure Task where
  retryDelay : Timedelta
  retryExponentialBackoff : Bool
  maxRetryDelay : Option Timedelta

variable (task : Task) (maxRetryDelaySeconds : Int) (tryNumber : Int) (tiHash : Nat)

/-- `min_backoff`. -/
def minBackoff : Int :=
  let minBackoff := ⌈task.retryDelay.totalSeconds * 2 ^ (tryNumber - 2)⌉
  if minBackoff < 1 then 1 else minBackoff

/-- `modded_hash`. -/
def moddedHash : Int := minBackoff task tryNumber + tiHash % minBackoff task tryNumber

/-- `min(a, b)`. -/
def Timedelta.min (a b : Timedelta) : Timedelta :=
  if b.microseconds < a.microseconds then b else a

/-- The delay that is added to the end date; `maxRetryDelaySeconds` is `MAX_RETRY_DELAY`. -/
def retryDelay : Except PyError Timedelta :=
  if task.retryExponentialBackoff then do
    let delayBackoffInSeconds := min (moddedHash task tryNumber tiHash) maxRetryDelaySeconds
    let delay ← Timedelta.ofSeconds delayBackoffInSeconds
    match task.maxRetryDelay with
    | none => return delay
    | some maxRetryDelay =>
      if maxRetryDelay = Timedelta.zero then return delay
      else return Timedelta.min maxRetryDelay delay
  else .ok task.retryDelay

/-- `next_retry_datetime`. -/
def nextRetryDatetime {DateTime Naive : Type} (lib : Library DateTime Naive) (endDate : DateTime) :
    Except PyError DateTime := do
  let delay ← retryDelay task maxRetryDelaySeconds tryNumber tiHash
  lib.add endDate (.timedelta delay)

/-- The caps in effect, in microseconds: a `max_retry_delay` of zero is none. -/
def caps : List Int :=
  maxRetryDelaySeconds * 1000000 ::
    match task.maxRetryDelay with
    | none => []
    | some maxRetryDelay =>
      if maxRetryDelay = Timedelta.zero then [] else [maxRetryDelay.microseconds]

/-- The least delay in microseconds: the backoff under the caps. -/
def leastDelay : Int :=
  (caps task maxRetryDelaySeconds).foldl min (minBackoff task tryNumber * 1000000)

/-!
## The bounds of the exponential backoff

The backoff is a positive integer of seconds, so the modulus is not zero and the delay before the
caps is less than twice the backoff. Each cap is a minimum, which keeps both bounds and the order.
-/

open Timetables

variable {task : Task} {maxRetryDelaySeconds tryNumber : Int} {tiHash : Nat}

/-! ## The backoff -/

theorem one_le_minBackoff : 1 ≤ minBackoff task tryNumber := by
  simp only [minBackoff]
  split <;> omega

theorem totalSeconds_pos (h : 0 < task.retryDelay.microseconds) :
    0 < task.retryDelay.totalSeconds := by
  have : (0 : ℚ) < task.retryDelay.microseconds := by exact_mod_cast h
  exact div_pos this (by norm_num)

/-- For a positive delay the ceiling is at least 1 by itself. -/
theorem minBackoff_eq (h : 0 < task.retryDelay.microseconds) :
    minBackoff task tryNumber = ⌈task.retryDelay.totalSeconds * 2 ^ (tryNumber - 2)⌉ := by
  have hpos : 0 < task.retryDelay.totalSeconds * 2 ^ (tryNumber - 2) :=
    mul_pos (totalSeconds_pos h) (zpow_pos (by norm_num) _)
  have hceil : 0 < ⌈task.retryDelay.totalSeconds * 2 ^ (tryNumber - 2)⌉ := Int.ceil_pos.mpr hpos
  exact if_neg (by omega)

theorem minBackoff_mono (h : 0 < task.retryDelay.microseconds) {tryNumber' : Int}
    (hle : tryNumber ≤ tryNumber') : minBackoff task tryNumber ≤ minBackoff task tryNumber' := by
  rw [minBackoff_eq h, minBackoff_eq h]
  refine Int.ceil_le_ceil (mul_le_mul_of_nonneg_left ?_ (totalSeconds_pos h).le)
  exact zpow_le_zpow_right₀ (by norm_num) (by omega)

theorem minBackoff_le_moddedHash : minBackoff task tryNumber ≤ moddedHash task tryNumber tiHash := by
  have hpos := @one_le_minBackoff task tryNumber
  have := Int.emod_nonneg (tiHash : Int) (show minBackoff task tryNumber ≠ 0 by omega)
  unfold moddedHash
  omega

theorem moddedHash_lt : moddedHash task tryNumber tiHash < 2 * minBackoff task tryNumber := by
  have hpos := @one_le_minBackoff task tryNumber
  have := Int.emod_lt_of_pos (tiHash : Int) (show 0 < minBackoff task tryNumber by omega)
  unfold moddedHash
  omega

/-! ## The caps -/

theorem ofSeconds_intCast {seconds : Int}
    (h : -86399999913600 ≤ seconds ∧ seconds ≤ 86399999999999) :
    ∃ d : Timedelta, Timedelta.ofSeconds (seconds : ℚ) = .ok d ∧
      d.microseconds = seconds * 1000000 := by
  have hround : roundHalfEven ((seconds : ℚ) * 1000000) = seconds * 1000000 := by
    rw [← roundHalfEven_intCast (seconds * 1000000)]
    push_cast
    rfl
  unfold Timedelta.ofSeconds
  rw [dif_pos (by rw [hround]; omega)]
  exact ⟨_, rfl, hround⟩

theorem Timedelta.min_microseconds (a b : Timedelta) :
    (Timedelta.min a b).microseconds = Min.min b.microseconds a.microseconds := by
  unfold Timedelta.min
  split <;> omega

/-- The delay is the modded hash under the caps. -/
theorem retryDelay_eq (hbackoff : task.retryExponentialBackoff = true)
    (hmax : -86399999913600 ≤ maxRetryDelaySeconds ∧ maxRetryDelaySeconds ≤ 86399999999999) :
    ∃ d, retryDelay task maxRetryDelaySeconds tryNumber tiHash = .ok d ∧
      d.microseconds = (caps task maxRetryDelaySeconds).foldl min
        (moddedHash task tryNumber tiHash * 1000000) := by
  have hpos := @one_le_minBackoff task tryNumber
  have hhash := @minBackoff_le_moddedHash task tryNumber tiHash
  obtain ⟨delay, hdelay, hmicro⟩ := @ofSeconds_intCast
    (min (moddedHash task tryNumber tiHash) maxRetryDelaySeconds) (by omega)
  unfold retryDelay
  rw [if_pos hbackoff]
  simp only [hdelay]
  have hfirst : delay.microseconds =
      min (moddedHash task tryNumber tiHash * 1000000) (maxRetryDelaySeconds * 1000000) := by
    rw [hmicro]
    omega
  cases hcap : task.maxRetryDelay with
  | none => exact ⟨delay, rfl, by simp [caps, hcap, hfirst]⟩
  | some maxRetryDelay =>
    by_cases hzero : maxRetryDelay = Timedelta.zero
    · refine ⟨delay, ?_, ?_⟩
      · simp only [hzero]
        rfl
      · simp only [caps, hcap, hzero, if_true, List.foldl_cons, List.foldl_nil, hfirst]
    · refine ⟨Timedelta.min maxRetryDelay delay, ?_, ?_⟩
      · simp only [hzero, if_false]
        rfl
      · simp only [caps, hcap, hzero, if_false, List.foldl_cons, List.foldl_nil,
          Timedelta.min_microseconds, hfirst]

/-! ## A minimum of a list -/

theorem le_foldl_min {xs : List Int} {x z : Int} :
    z ≤ xs.foldl min x ↔ z ≤ x ∧ ∀ y ∈ xs, z ≤ y := by
  induction xs generalizing x with
  | nil => simp
  | cons y ys ih => rw [List.foldl_cons, ih, le_min_iff, List.forall_mem_cons, and_assoc]

theorem foldl_min_le {xs : List Int} {x y : Int} (hy : y ∈ xs) : xs.foldl min x ≤ y :=
  (le_foldl_min.mp (le_refl _)).2 y hy

theorem foldl_min_mono (xs : List Int) {x y : Int} (h : x ≤ y) : xs.foldl min x ≤ xs.foldl min y :=
  le_foldl_min.mpr ⟨(le_foldl_min.mp (le_refl _)).1.trans h, fun _ hz => foldl_min_le hz⟩

theorem foldl_min_pos {xs : List Int} {x : Int} (hx : 0 < x) :
    0 < xs.foldl min x ↔ ∀ y ∈ xs, 0 < y :=
  le_foldl_min.trans (and_iff_right hx)

/-- **The exponential backoff is bounded.** Before the caps the delay is at least the backoff and
less than twice it. After them it is at most each cap, positive where the caps are, and at least a
bound that does not decrease from try to try. -/
theorem retryDelay_bounds (task : Task) (maxRetryDelaySeconds tryNumber : Int) (tiHash : Nat)
    (hbackoff : task.retryExponentialBackoff = true) (hdelay : 0 < task.retryDelay.microseconds)
    (hmax : -86399999913600 ≤ maxRetryDelaySeconds ∧ maxRetryDelaySeconds ≤ 86399999999999) :
    minBackoff task tryNumber = ⌈task.retryDelay.totalSeconds * 2 ^ (tryNumber - 2)⌉ ∧
    1 ≤ minBackoff task tryNumber ∧
    minBackoff task tryNumber ≤ moddedHash task tryNumber tiHash ∧
    moddedHash task tryNumber tiHash < 2 * minBackoff task tryNumber ∧
    (∃ d, retryDelay task maxRetryDelaySeconds tryNumber tiHash = .ok d ∧
      (0 < d.microseconds ↔ ∀ cap ∈ caps task maxRetryDelaySeconds, 0 < cap) ∧
      (∀ cap ∈ caps task maxRetryDelaySeconds, d.microseconds ≤ cap) ∧
      leastDelay task maxRetryDelaySeconds tryNumber ≤ d.microseconds) ∧
    ∀ tryNumber', tryNumber ≤ tryNumber' →
      leastDelay task maxRetryDelaySeconds tryNumber ≤
        leastDelay task maxRetryDelaySeconds tryNumber' := by
  have hpos := @one_le_minBackoff task tryNumber
  have hhash := @minBackoff_le_moddedHash task tryNumber tiHash
  obtain ⟨d, hd, hmicro⟩ := @retryDelay_eq task maxRetryDelaySeconds tryNumber tiHash hbackoff hmax
  refine ⟨minBackoff_eq hdelay, hpos, hhash, moddedHash_lt, ⟨d, hd, ?_, ?_, ?_⟩, ?_⟩
  · rw [hmicro]
    exact foldl_min_pos (by omega)
  · intro cap hcap
    rw [hmicro]
    exact foldl_min_le hcap
  · rw [hmicro]
    exact foldl_min_mono _ (by omega)
  · intro tryNumber' hle
    have := minBackoff_mono hdelay hle
    exact foldl_min_mono _ (by omega)

theorem retryDelay_bounds_third :
    ∃ d, retryDelay ⟨⟨1000000, by decide⟩, true, some ⟨5000000, by decide⟩⟩ 86400 3 7 = .ok d ∧
      0 < d.microseconds := by
  obtain ⟨-, -, -, -, ⟨d, hd, hpos, -⟩, -⟩ := retryDelay_bounds
    ⟨⟨1000000, by decide⟩, true, some ⟨5000000, by decide⟩⟩ 86400 3 7 rfl (by decide) (by decide)
  refine ⟨d, hd, hpos.mpr ?_⟩
  decide

/-- A negative `max_retry_delay` is a cap too. -/
theorem negative_maxRetryDelay_not_positive :
    ∃ d, retryDelay ⟨⟨1000000, by decide⟩, true, some ⟨-1, by decide⟩⟩ 86400 1 0 = .ok d ∧
      ¬0 < d.microseconds := by
  obtain ⟨d, hd, hmicro⟩ := @retryDelay_eq
    ⟨⟨1000000, by decide⟩, true, some ⟨-1, by decide⟩⟩ 86400 1 0 rfl (by decide)
  refine ⟨d, hd, ?_⟩
  have hcap : d.microseconds ≤ -1 := by
    rw [hmicro]
    exact foldl_min_le (by decide)
  omega

end Airflow.Retrying
