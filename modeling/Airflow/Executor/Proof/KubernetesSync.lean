import Airflow.Executor.KubernetesSync

/-!
# When `sync` ends

The task queue is looked at a bounded number of times and the event scheduler's event is entered
again after its interval; only the loop over the results, which puts back what fails, may go on for
ever.
-/

namespace Airflow.Kubernetes.Sync

variable {config : KubeConfig} {answers : Answers}

theorem handle_raises (config : KubeConfig) (answers : Answers) (turn : Nat) (self : Executor)
    (result : Result) :
    (handle config answers turn self result).2 = raises config answers turn result := by
  unfold handle Executor.changeStateOf raises
  split
  · rfl
  · rfl
  · rename_i state _ _
    cases hcall : KubernetesExecutor.podCallRaises config state (answers.api turn) with
    | true => rfl
    | false =>
      rw [if_neg Bool.false_ne_true, Bool.false_or]
      cases state with
      | some state => rfl
      | none => cases answers.dbState turn <;> rfl

/-! ## The event scheduler -/

/-- A look at the event ends the run, or leads to the next one. -/
theorem runEvents_succ {interval : ℚ} {fuel turn : Nat}
    (h : (runEvents answers interval fuel (turn + 1)
      (some (answers.entered turn + interval))).isSome = true) (nextEvent : Option ℚ) :
    (runEvents answers interval (fuel + 1) turn nextEvent).isSome = true := by
  cases nextEvent with
  | none => rfl
  | some time =>
    unfold runEvents
    split_ifs
    · rfl
    · rfl
    · exact h

/-- It returns once it looks at its event before an interval has passed since it was entered. -/
theorem runEvents_ends {interval : ℚ} (turns : Nat) {turn fuel : Nat}
    (hclock : answers.checked (turn + turns + 1) < answers.entered (turn + turns) + interval)
    (hfuel : turns + 2 ≤ fuel) (nextEvent : Option ℚ) :
    (runEvents answers interval fuel turn nextEvent).isSome = true := by
  induction turns generalizing turn fuel nextEvent with
  | zero =>
    obtain ⟨fuel, rfl⟩ := Nat.exists_eq_add_of_le' hfuel
    refine runEvents_succ ?_ nextEvent
    unfold runEvents
    rw [if_pos (show answers.entered turn + interval > answers.checked (turn + 1) from hclock)]
    rfl
  | succ turns ih =>
    obtain ⟨fuel, rfl⟩ : ∃ less, fuel = less + 1 := ⟨fuel - 1, by omega⟩
    refine runEvents_succ (ih ?_ (by omega) _) nextEvent
    rwa [Nat.add_right_comm turn 1, Nat.add_assoc turn]

/-! ## `sync` -/

/-- The loop over the results stays where its queue is empty. -/
theorem resultLoop_of_ended {self : Executor} {turns : Nat}
    (h : (resultLoop config answers self turns).queue = []) {fuel : Nat} (hle : turns ≤ fuel) :
    resultLoop config answers self fuel = resultLoop config answers self turns := by
  obtain ⟨more, rfl⟩ := Nat.exists_eq_add_of_le' hle
  unfold resultLoop at h ⊢
  rw [Function.iterate_add_apply, Requeue.iterate_nil _ h]

/-- `sync` ends where the loop over the results does. -/
theorem sync_ends_iff {interval : ℚ}
    (hclock : ∃ turn, answers.checked (turn + 1) < answers.entered turn + interval)
    {self : Executor} (hwatcher : watcherRaises answers self = false) :
    (∃ fuel, (sync config answers interval fuel self).isSome = true) ↔
      ∃ turns, (resultLoop config answers self turns).queue = [] := by
  constructor
  · rintro ⟨fuel, hfuel⟩
    refine ⟨fuel, ?_⟩
    by_contra hne
    unfold sync at hfuel
    rw [hwatcher, if_neg Bool.false_ne_true] at hfuel
    dsimp only at hfuel
    rw [if_pos (by rw [List.isEmpty_eq_false_iff.mpr hne]; rfl)] at hfuel
    cases hfuel
  · rintro ⟨turns, hturns⟩
    obtain ⟨turn, hclock⟩ := hclock
    refine ⟨turns + turn + 2, ?_⟩
    have hended : resultLoop config answers self (turns + turn + 2) = _ :=
      resultLoop_of_ended hturns (by omega)
    unfold sync
    rw [hwatcher, if_neg Bool.false_ne_true, hended]
    dsimp only
    rw [hturns, if_neg (by decide)]
    cases taskLoop answers config.workerPodsCreationBatchSize 0
        (resultLoop config answers self turns).state with
    | mk executor raised =>
      cases raised with
      | true => rfl
      | false =>
        dsimp only
        rw [Option.isSome_map]
        refine runEvents_ends turn ?_ (by omega) _
        rwa [Nat.zero_add]

/-- **`sync` ends and handles each result once exactly when no first `_change_state` of a queued
result raises.** -/
theorem endsOnce_iff {interval : ℚ}
    (hclock : ∃ turn, answers.checked (turn + 1) < answers.entered turn + interval)
    (self : Executor) :
    EndsOnce config answers interval self ↔
      (watcherRaises answers self = false → ∀ turn result,
        (queued answers self)[turn]? = some result →
          raises config answers turn result = false) := by
  cases hwatcher : watcherRaises answers self with
  | true =>
    refine ⟨fun _ h => (by cases h), fun _ => ⟨⟨0, ?_⟩, fun turns => ?_⟩⟩
    · unfold sync
      rw [hwatcher]
      rfl
    · unfold handled
      rw [hwatcher]
      exact List.nodup_nil
  | false =>
    have hdrains := Requeue.drains_once_iff (handle_raises config answers)
      (watched answers self) (queued answers self)
    have hhandled : ∀ turns, handled config answers self turns =
        (resultLoop config answers self turns).handled := by
      intro turns
      unfold handled
      rw [hwatcher]
      rfl
    constructor
    · intro h _
      refine hdrains.mp ⟨(sync_ends_iff hclock hwatcher).mp h.ends, fun turns => ?_⟩
      have honce := h.once turns
      rwa [hhandled] at honce
    · intro h
      obtain ⟨hends, honce⟩ := hdrains.mpr (h rfl)
      refine ⟨(sync_ends_iff hclock hwatcher).mpr hends, fun turns => ?_⟩
      rw [hhandled]
      exact honce turns

/-! ### One result -/

/-- The API answers every call so, and the event is not due. -/
def answersOf (api : ApiAnswer) : Answers where
  int _ := none
  parses _ := false
  runId _ := .raised
  api _ := api
  dbState _ := .value none
  runNext _ := { raised := none }
  clearRaises _ := false
  checked _ := 0
  entered _ := 0

/-- A pod that succeeded. -/
def succeededPod : Result where
  key := ⟨"etl", "load", some "run", 1, -1⟩
  state := .state none
  podName := "etl-load"
  namespace_ := "airflow"
  resourceVersion := "7"

/-- Its result is queued. -/
def onePod : Executor := { resultQueue := [succeededPod], nextEvent := none }

theorem endsOnce_onePod : EndsOnce {} (answersOf .done) 30 onePod :=
  (endsOnce_iff ⟨0, by decide +kernel⟩ onePod).mpr fun _ turn result hresult => by
    cases turn with
    | zero =>
      cases hresult
      rfl
    | succ turn => cases hresult

/-- When the pod cannot be deleted, its result is put back for ever. -/
theorem onePod_never_ends :
    (∀ fuel, (sync {} (answersOf (.apiException 500)) 30 fuel onePod).isNone = true) ∧
      handled {} (answersOf (.apiException 500)) onePod 3 = [0, 0, 0] ∧
      ¬EndsOnce {} (answersOf (.apiException 500)) 30 onePod := by
  have hqueue : ∀ turns, (resultLoop {} (answersOf (.apiException 500)) onePod turns).queue =
      [(succeededPod, 0)] := by
    intro turns
    induction turns with
    | zero => rfl
    | succ turns ih =>
      unfold resultLoop at ih ⊢
      rw [Function.iterate_succ_apply', Requeue.step_cons _ ih]
      rfl
  have hnever : ∀ fuel,
      (sync {} (answersOf (.apiException 500)) 30 fuel onePod).isNone = true := by
    intro fuel
    unfold sync
    rw [if_neg (by decide)]
    dsimp only
    rw [hqueue]
    rfl
  refine ⟨hnever, rfl, fun h => ?_⟩
  obtain ⟨fuel, hends⟩ := h.ends
  rw [Option.isNone_iff_eq_none.mp (hnever fuel)] at hends
  cases hends

end Airflow.Kubernetes.Sync
