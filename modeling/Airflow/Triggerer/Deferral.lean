import Airflow.Lib.Dict
import Airflow.Lib.Transition
import Airflow.Triggerer.CleanUnused

/-!
# Deferred tasks and their triggers

A task that defers itself makes a trigger and waits for it (`_defer_task` of
`airflow/models/taskinstance.py`). What the trigger fires or how it fails reaches the task through
`Trigger.submit_event` and `submit_failure`, a late trigger is given up by `check_trigger_timeouts`
of the scheduler, and triggers without a task are deleted by `clean_unused`, in two statements that
other transactions come between.

All of these act on the tables of triggers and task instances, in any order, together with workers,
users and `clear_task_instances` (`step`). The `history` of an instance is kept for the statements.
Instances that are restored after they were removed, and forced runs, are left out.
-/

namespace Airflow.Deferral

variable {α : Type}

/-! ## Tables -/

/-- A value of `next_kwargs`: one that the task or the trigger gave, or what a failure leaves. -/
inductive Arg (α : Type) where
  | value (a : α)
  | error (text : String)
  | traceback (lines : Option (List String))

/-- What ends the wait for a trigger. -/
inductive Answer (α : Type) where
  | event (payload : α)
  | failure (traceback : Option (List String))
  | timeout

/-- A call of `_defer_task`, with the answers to its trigger. -/
structure Deferred (α : Type) where
  triggerId : Nat
  method : String
  kwargs : Dict String (Arg α)
  answers : List (Answer α)

/-- A row of `task_instance`, with its deferrals. -/
structure TaskInstance (α : Type) where
  state : TIState := none
  triggerId : Option Nat := none
  triggerTimeout : Option Int := none
  nextMethod : Option String := none
  nextKwargs : Option (Dict String (Arg α)) := none
  history : List (Deferred α) := []

/-- The ids in `trigger`, the next id, and the ids that some `clean_unused` is about to delete. -/
structure Tables (α : Type) where
  triggers : List Nat
  nextId : Nat
  taskInstances : List (TaskInstance α)
  unused : List (List Nat)

/-- The tables when the instances have been made. -/
def start (instances : Nat) : Tables α := ⟨[], 0, List.replicate instances {}, []⟩

namespace TaskInstance

variable (ti : TaskInstance α)

/-- The columns that `clean_unused` reads. -/
def columns : CleanUnused.TaskInstance := ⟨ti.state, ti.triggerId⟩

def clearNextMethodArgs : TaskInstance α := { ti with nextMethod := none, nextKwargs := none }

/-- `_defer_task`, with the row of the trigger made; the timeout is the earlier one of the trigger's
and the task's. -/
def deferTask (id : Nat) (method : String) (kwargs : Dict String (Arg α)) (timeout : Option Int) :
    TaskInstance α where
  state := some .deferred
  triggerId := some id
  triggerTimeout := timeout
  nextMethod := some method
  nextKwargs := some kwargs
  history := ti.history ++ [⟨id, method, kwargs, []⟩]

/-- The instance is scheduled again with an answer. -/
def resume (answer : Answer α) : TaskInstance α where
  state := some .scheduled
  triggerId := none
  triggerTimeout := ti.triggerTimeout
  nextMethod :=
    match answer with
    | .event _ => ti.nextMethod
    | .failure _ | .timeout => some "__fail__"
  nextKwargs :=
    match answer with
    | .event payload => some ((ti.nextKwargs.getD {}).set "event" (.value payload))
    | .failure traceback =>
      some ((Dict.set {} "error" (.error "Trigger failure")).set "traceback" (.traceback traceback))
    | .timeout => some (Dict.set {} "error" (.error "Trigger/execution timeout"))
  history := ti.history.map fun d =>
    if some d.triggerId = ti.triggerId then { d with answers := d.answers ++ [answer] } else d

/-- `clear_task_instances`, of one instance. -/
def clear (hasJob : Bool) : TaskInstance α :=
  if ti.state = some .running then
    if hasJob then { ti with state := some .restarting } else ti
  else { ti with state := none }.clearNextMethodArgs

/-- The instance can run, or runs. -/
def live (state : TIState) : Bool := State.isUnfinished state && state ≠ some .deferred

/-- A change of the state alone, by schedulers, workers and users: what runs or can run gets any
state, and what is finished or waits can be finished otherwise. -/
def move (state : TIState) : TaskInstance α :=
  if state ≠ some .deferred ∧ (live ti.state ∨ ¬live state) then { ti with state } else ti

/-- A worker ends the execution; it may do so in whatever state the row is. -/
def finish (state : TIState) : TaskInstance α :=
  if state = some .deferred then ti else { ti with state }.clearNextMethodArgs

end TaskInstance

/-! ## Statements -/

open Sql

namespace Tables

variable (s : Tables α)

def modify (i : Nat) (f : TaskInstance α → TaskInstance α) : Tables α :=
  { s with taskInstances := s.taskInstances.modify i f }

def deferTask (i : Nat) (method : String) (kwargs : Dict String (Arg α)) (timeout : Option Int) :
    Tables α :=
  { s.modify i (·.deferTask s.nextId method kwargs timeout) with
    triggers := s.triggers ++ [s.nextId]
    nextId := s.nextId + 1 }

/-- The instances that a condition selects are resumed. -/
def resume (selects : TaskInstance α → Ternary) (answer : Answer α) : Tables α :=
  { s with taskInstances := update selects (·.resume answer) s.taskInstances }

def waitsFor (id : Nat) (ti : TaskInstance α) : Ternary :=
  and (compare (· == ·) ti.triggerId (some id))
    (compare (· == ·) ti.state (some TaskInstanceState.deferred))

/-- `Trigger.submit_event`. -/
def submitEvent (id : Nat) (payload : α) : Tables α := s.resume (waitsFor id) (.event payload)

/-- `Trigger.submit_failure`. -/
def submitFailure (id : Nat) (traceback : Option (List String)) : Tables α :=
  s.resume (waitsFor id) (.failure traceback)

/-- `check_trigger_timeouts`. -/
def checkTriggerTimeouts (now : Int) : Tables α :=
  s.resume (fun ti => and (compare (· == ·) ti.state (some TaskInstanceState.deferred))
    (compare (· < ·) ti.triggerTimeout (some now))) .timeout

/-- The `UPDATE` of `clean_unused`, and the ids that it selects. -/
def cleanUnused : Tables α :=
  let taskInstances := update
    (fun ti => and (compare (fun a b => a != b) ti.state (some TaskInstanceState.deferred))
      (isNotNull ti.triggerId))
    (fun ti => { ti with triggerId := none }) s.taskInstances
  { s with
    taskInstances
    unused := s.unused ++
      [CleanUnused.unusedIds ⟨s.triggers, taskInstances.map TaskInstance.columns⟩] }

/-- The `DELETE` of the `n`-th `clean_unused` that is going on. -/
def deleteUnused (n : Nat) : Tables α :=
  { s with
    triggers := s.triggers.filter fun id => !(s.unused.getD n []).contains id
    unused := s.unused.eraseIdx n }

end Tables

/-! ## Runs -/

inductive Event (α : Type) where
  | deferTask (i : Nat) (method : String) (kwargs : Dict String (Arg α)) (timeout : Option Int)
  | submitEvent (id : Nat) (payload : α)
  | submitFailure (id : Nat) (traceback : Option (List String))
  | checkTriggerTimeouts (now : Int)
  | cleanUnused
  | deleteUnused (n : Nat)
  | clear (i : Nat) (hasJob : Bool)
  | move (i : Nat) (state : TIState)
  | finish (i : Nat) (state : TIState)

def step (s : Tables α) : Event α → Tables α
  | .deferTask i method kwargs timeout => s.deferTask i method kwargs timeout
  | .submitEvent id payload => s.submitEvent id payload
  | .submitFailure id traceback => s.submitFailure id traceback
  | .checkTriggerTimeouts now => s.checkTriggerTimeouts now
  | .cleanUnused => s.cleanUnused
  | .deleteUnused n => s.deleteUnused n
  | .clear i hasJob => s.modify i (·.clear hasJob)
  | .move i state => s.modify i (·.move state)
  | .finish i state => s.modify i (·.finish state)

/-! ## Answers -/

/-- The method and the arguments with which a deferral goes on after an answer. -/
def Deferred.goesOnWith (d : Deferred α) : Answer α → String × Dict String (Arg α)
  | .event payload => (d.method, d.kwargs.set "event" (.value payload))
  | .failure traceback => ("__fail__",
    (Dict.set {} "error" (.error "Trigger failure")).set "traceback" (.traceback traceback))
  | .timeout => ("__fail__", Dict.set {} "error" (.error "Trigger/execution timeout"))

/-- Each deferral is answered at most once, by the trigger that it made, and the task goes on with
this answer. A task that waits has a trigger, and keeps it. -/
structure Answered (s : Tables α) : Prop where
  waits : ∀ ti ∈ s.taskInstances, ti.state = some .deferred → ∃ d, ti.history.getLast? = some d ∧
    d.answers = [] ∧ ti.triggerId = some d.triggerId ∧ ti.nextMethod = some d.method ∧
    ti.nextKwargs = some d.kwargs ∧ d.triggerId ∈ s.triggers ∧ ∀ ids ∈ s.unused, d.triggerId ∉ ids
  goesOn : ∀ ti ∈ s.taskInstances, TaskInstance.live ti.state = true → ∀ method,
    ti.nextMethod = some method → ∃ d answer, ti.history.getLast? = some d ∧
      d.answers = [answer] ∧ ti.nextKwargs = some (d.goesOnWith answer).2 ∧
      method = (d.goesOnWith answer).1
  once : ∀ ti ∈ s.taskInstances, ∀ d ∈ ti.history, d.answers.length ≤ 1
  own : ∀ (i j : Nat) ti tj d d', s.taskInstances[i]? = some ti → s.taskInstances[j]? = some tj →
    d ∈ ti.history → d' ∈ tj.history → d.triggerId = d'.triggerId → i = j ∧ d = d'

/-! ## The invariant -/

variable {s : Tables α} {ti : TaskInstance α}

/-- What holds of an instance. -/
structure Row (s : Tables α) (ti : TaskInstance α) : Prop where
  waits : ti.state = some .deferred → ∃ d, ti.history.getLast? = some d ∧ d.answers = [] ∧
    ti.triggerId = some d.triggerId ∧ ti.nextMethod = some d.method ∧
    ti.nextKwargs = some d.kwargs ∧ d.triggerId ∈ s.triggers ∧
    ∀ ids ∈ s.unused, d.triggerId ∉ ids
  goesOn : TaskInstance.live ti.state = true → ∀ method, ti.nextMethod = some method →
    ∃ d answer, ti.history.getLast? = some d ∧ d.answers = [answer] ∧
      ti.nextKwargs = some (d.goesOnWith answer).2 ∧ method = (d.goesOnWith answer).1
  once : ∀ d ∈ ti.history, d.answers.length ≤ 1
  bound : ∀ d ∈ ti.history, d.triggerId < s.nextId
  same : ∀ d ∈ ti.history, ∀ d' ∈ ti.history, d.triggerId = d'.triggerId → d = d'

/-- … and of the tables: ids are new when they are given. -/
structure Inv (s : Tables α) : Prop where
  rows : ∀ ti ∈ s.taskInstances, Row s ti
  apart : ∀ (i j : Nat) ti tj, s.taskInstances[i]? = some ti →
    s.taskInstances[j]? = some tj → i ≠ j →
    ∀ d ∈ ti.history, ∀ d' ∈ tj.history, d.triggerId ≠ d'.triggerId
  triggers : ∀ id ∈ s.triggers, id < s.nextId
  unused : ∀ ids ∈ s.unused, ∀ id ∈ ids, id < s.nextId

theorem Inv.answered (h : Inv s) : Answered s where
  waits ti hti := (h.rows ti hti).waits
  goesOn ti hti := (h.rows ti hti).goesOn
  once ti hti := (h.rows ti hti).once
  own i j ti tj d d' hi hj hd hd' hid := by
    by_cases hij : i = j
    · subst hij
      obtain rfl := Option.some.inj (hi.symm.trans hj)
      exact ⟨rfl, (h.rows ti (List.mem_of_getElem? hi)).same d hd d' hd' hid⟩
    · exact absurd hid (h.apart i j ti tj hi hj hij d hd d' hd')

theorem Inv.start (instances : Nat) : Inv (start instances : Tables α) where
  rows ti hti := by
    obtain rfl := List.eq_of_mem_replicate hti
    exact ⟨fun h => (by cases h), fun _ _ h => (by cases h), fun _ h => absurd h List.not_mem_nil,
      fun _ h => absurd h List.not_mem_nil, fun _ h => absurd h List.not_mem_nil⟩
  apart i j ti tj hi hj hij d hd := by
    obtain rfl := List.eq_of_mem_replicate (List.mem_of_getElem? hi)
    exact absurd hd List.not_mem_nil
  triggers _ h := absurd h List.not_mem_nil
  unused _ h := absurd h List.not_mem_nil

/-- The instances change one by one, and keep the ids of their deferrals. -/
theorem Inv.mapRows (h : Inv s) {rows : List (TaskInstance α)}
    (g : Nat → TaskInstance α → TaskInstance α)
    (hrows : ∀ i, rows[i]? = s.taskInstances[i]?.map (g i))
    (hkeeps : ∀ i ti, Row s ti → Row s (g i ti))
    (hids : ∀ i ti, (g i ti).history.map Deferred.triggerId = ti.history.map Deferred.triggerId) :
    Inv { s with taskInstances := rows } := by
  have hold : ∀ i ti, rows[i]? = some ti →
      ∃ ti₀, s.taskInstances[i]? = some ti₀ ∧ g i ti₀ = ti := by
    intro i ti hi
    rw [hrows] at hi
    exact Option.map_eq_some_iff.mp hi
  refine ⟨fun ti hti => ?_, fun i j ti tj hi hj hij d hd d' hd' => ?_, h.triggers, h.unused⟩
  · obtain ⟨i, hi⟩ := List.mem_iff_getElem?.mp hti
    obtain ⟨ti₀, hi₀, rfl⟩ := hold i ti hi
    have hrow := hkeeps i ti₀ (h.rows ti₀ (List.mem_of_getElem? hi₀))
    exact ⟨hrow.waits, hrow.goesOn, hrow.once, hrow.bound, hrow.same⟩
  · obtain ⟨ti₀, hi₀, rfl⟩ := hold i ti hi
    obtain ⟨tj₀, hj₀, rfl⟩ := hold j tj hj
    have hmem := List.mem_map_of_mem (f := Deferred.triggerId) hd
    have hmem' := List.mem_map_of_mem (f := Deferred.triggerId) hd'
    rw [hids] at hmem hmem'
    obtain ⟨d₀, hd₀, hid₀⟩ := List.mem_map.mp hmem
    obtain ⟨d₀', hd₀', hid₀'⟩ := List.mem_map.mp hmem'
    rw [← hid₀, ← hid₀']
    exact h.apart i j ti₀ tj₀ hi₀ hj₀ hij d₀ hd₀ d₀' hd₀'

theorem Inv.modify (h : Inv s) (i : Nat) (f : TaskInstance α → TaskInstance α)
    (hkeeps : ∀ ti, Row s ti → Row s (f ti)) (hhistory : ∀ ti, (f ti).history = ti.history) :
    Inv (s.modify i f) := by
  refine h.mapRows (fun j ti => if i = j then f ti else ti) (fun j => ?_) (fun j ti hti => ?_)
    fun j ti => ?_
  · rw [List.getElem?_modify]
    cases s.taskInstances[j]? with
    | none => rfl
    | some ti => rfl
  · split
    · exact hkeeps ti hti
    · exact hti
  · split
    · rw [hhistory]
    · rfl

theorem Inv.update (h : Inv s) (condition : TaskInstance α → Sql.Ternary)
    (set : TaskInstance α → TaskInstance α)
    (hkeeps : ∀ ti, Sql.holds (condition ti) = true → Row s ti → Row s (set ti))
    (hids : ∀ ti, (set ti).history.map Deferred.triggerId = ti.history.map Deferred.triggerId) :
    Inv { s with taskInstances := Sql.update condition set s.taskInstances } := by
  refine h.mapRows (fun _ ti => if Sql.holds (condition ti) then set ti else ti) (fun i => ?_)
    (fun _ ti hti => ?_) fun _ ti => ?_
  · rw [Sql.update, List.getElem?_map]
  · split
    · next hcondition => exact hkeeps ti hcondition hti
    · exact hti
  · split
    · exact hids ti
    · rfl

/-! ## Rows -/

/-- The state alone is changed, to one in which nobody waits. -/
theorem Row.move (h : Row s ti) (state : TIState) : Row s (ti.move state) := by
  unfold TaskInstance.move
  split
  · next hmove =>
    obtain ⟨hdeferred, hlive⟩ := hmove
    refine ⟨fun hstate => absurd hstate hdeferred, fun hstate method hmethod => ?_, h.once, h.bound,
      h.same⟩
    obtain hlive | hlive := hlive
    · exact h.goesOn hlive method hmethod
    · exact absurd hstate hlive
  · exact h

theorem Row.cleared (h : Row s ti) {state : TIState} (hstate : state ≠ some .deferred) :
    Row s { ti with state }.clearNextMethodArgs :=
  ⟨fun h => absurd h hstate, fun _ _ h => (by cases h), h.once, h.bound, h.same⟩

theorem Row.finish (h : Row s ti) (state : TIState) : Row s (ti.finish state) := by
  unfold TaskInstance.finish
  split
  · exact h
  · next hstate => exact h.cleared hstate

theorem Row.clear (h : Row s ti) (hasJob : Bool) : Row s (ti.clear hasJob) := by
  unfold TaskInstance.clear
  split
  · next hrunning =>
    split
    · refine ⟨fun h => (by cases h), fun _ => h.goesOn (by rw [hrunning]; rfl), h.once, h.bound,
        h.same⟩
    · exact h
  · exact h.cleared fun h => by cases h

/-- The deferral that an answer is for. -/
def addAnswer (ti : TaskInstance α) (answer : Answer α) (d : Deferred α) : Deferred α :=
  if some d.triggerId = ti.triggerId then { d with answers := d.answers ++ [answer] } else d

theorem addAnswer_triggerId (answer : Answer α) (d : Deferred α) :
    (addAnswer ti answer d).triggerId = d.triggerId := by
  unfold addAnswer
  split <;> rfl

/-- A task that waits goes on with the answer. -/
theorem Row.resume (h : Row s ti) (hdeferred : ti.state = some .deferred) (answer : Answer α) :
    Row s (ti.resume answer) := by
  obtain ⟨d, hlast, hnone, hid, hmethod, hkwargs, -, -⟩ := h.waits hdeferred
  have hown : addAnswer ti answer d = { d with answers := [answer] } := by
    rw [addAnswer, if_pos hid.symm, hnone]
    rfl
  have hlast' : (ti.resume answer).history.getLast? = some { d with answers := [answer] } := by
    change (ti.history.map (addAnswer ti answer)).getLast? = _
    rw [List.getLast?_map, hlast, Option.map_some, hown]
  have hmem : ∀ d' ∈ (ti.resume answer).history, ∃ d₀ ∈ ti.history, addAnswer ti answer d₀ = d' :=
    fun d' hd' => List.mem_map.mp hd'
  refine ⟨fun hstate => (by cases hstate), fun _ method hnext => ?_, fun d' hd' => ?_,
    fun d' hd' => ?_, fun d₁ hd₁ d₂ hd₂ hsame => ?_⟩
  · refine ⟨_, answer, hlast', rfl, ?_, ?_⟩
    · cases answer with
      | event payload =>
        change some ((ti.nextKwargs.getD {}).set "event" (.value payload)) = _
        rw [hkwargs]
        rfl
      | failure traceback => rfl
      | timeout => rfl
    · cases answer with
      | event payload => exact Option.some.inj (hnext.symm.trans hmethod)
      | failure traceback => exact (Option.some.inj hnext).symm
      | timeout => exact (Option.some.inj hnext).symm
  · obtain ⟨d₀, hd₀, rfl⟩ := hmem d' hd'
    by_cases hmatch : some d₀.triggerId = ti.triggerId
    · have hsame : d₀.triggerId = d.triggerId := Option.some.inj (hmatch.trans hid)
      obtain rfl := h.same d₀ hd₀ d (List.mem_of_getLast? hlast) hsame
      rw [hown]
      exact Nat.le_refl 1
    · rw [addAnswer, if_neg hmatch]
      exact h.once d₀ hd₀
  · obtain ⟨d₀, hd₀, rfl⟩ := hmem d' hd'
    rw [addAnswer_triggerId]
    exact h.bound d₀ hd₀
  · obtain ⟨e₁, he₁, rfl⟩ := hmem d₁ hd₁
    obtain ⟨e₂, he₂, rfl⟩ := hmem d₂ hd₂
    rw [addAnswer_triggerId, addAnswer_triggerId] at hsame
    rw [h.same e₁ he₁ e₂ he₂ hsame]

/-! ## Steps -/

theorem Inv.resume (h : Inv s) (selects : TaskInstance α → Sql.Ternary) (answer : Answer α)
    (hselects : ∀ ti, Sql.holds (selects ti) = true → ti.state = some .deferred) :
    Inv (s.resume selects answer) := by
  refine h.update selects _ (fun ti hti hrow => hrow.resume (hselects ti hti) answer) fun ti => ?_
  change (ti.history.map (addAnswer ti answer)).map Deferred.triggerId = _
  rw [List.map_map]
  exact List.map_congr_left fun d _ => addAnswer_triggerId answer d

theorem holds_deferred {state : TIState}
    (h : Sql.holds (Sql.compare (· == ·) state (some TaskInstanceState.deferred)) = true) :
    state = some .deferred := by
  obtain ⟨x, y, rfl, hy, hxy⟩ := Sql.holds_compare.mp h
  obtain rfl := Option.some.inj hy
  rw [beq_iff_eq.mp hxy]

theorem holds_waitsFor {id : Nat} (h : Sql.holds (Tables.waitsFor id ti) = true) :
    ti.state = some .deferred := by
  rw [Tables.waitsFor, Sql.holds_and, Bool.and_eq_true] at h
  exact holds_deferred h.2

/-- More triggers and a greater next id. -/
theorem Row.mono {s' : Tables α} (h : Row s ti) (htriggers : s.triggers ⊆ s'.triggers)
    (hunused : s'.unused = s.unused) (hnext : s.nextId ≤ s'.nextId) : Row s' ti := by
  refine ⟨fun hstate => ?_, h.goesOn, h.once, fun d hd => Nat.lt_of_lt_of_le (h.bound d hd) hnext,
    h.same⟩
  obtain ⟨d, hlast, hnone, hid, hmethod, hkwargs, htrigger, hfree⟩ := h.waits hstate
  exact ⟨d, hlast, hnone, hid, hmethod, hkwargs, htriggers htrigger, hunused ▸ hfree⟩

/-- A new deferral has a new trigger. -/
theorem Inv.deferTask (h : Inv s) (i : Nat) (method : String) (kwargs : Dict String (Arg α))
    (timeout : Option Int) : Inv (s.deferTask i method kwargs timeout) := by
  have hold : ∀ (j : Nat) tj, (s.deferTask i method kwargs timeout).taskInstances[j]? = some tj →
      ∃ tj₀, s.taskInstances[j]? = some tj₀ ∧
        tj = if i = j then tj₀.deferTask s.nextId method kwargs timeout else tj₀ := by
    intro j tj hj
    have hmodify := List.getElem?_modify (·.deferTask s.nextId method kwargs timeout) i
      s.taskInstances j
    obtain ⟨tj₀, hj₀, rfl⟩ := Option.map_eq_some_iff.mp (hmodify.symm.trans hj)
    refine ⟨tj₀, hj₀, ?_⟩
    split <;> rfl
  refine ⟨fun ti hti => ?_, fun j k tj tk hj hk hjk d hd d' hd' => ?_, fun id hid => ?_,
    fun ids hids id hid => Nat.lt_succ_of_lt (h.unused ids hids id hid)⟩
  · obtain ⟨j, hj⟩ := List.mem_iff_getElem?.mp hti
    obtain ⟨tj₀, hj₀, rfl⟩ := hold j ti hj
    have hrow := h.rows tj₀ (List.mem_of_getElem? hj₀)
    split
    · -- the deferral is the last one, and its trigger is none that is being deleted
      have hmem : ∀ d ∈ (tj₀.deferTask s.nextId method kwargs timeout).history,
          d ∈ tj₀.history ∨ d = ⟨s.nextId, method, kwargs, []⟩ := by
        intro d hd
        simpa [TaskInstance.deferTask] using hd
      refine ⟨fun _ => ⟨⟨s.nextId, method, kwargs, []⟩, List.getLast?_concat, rfl, rfl, rfl, rfl,
          List.mem_append_right _ (List.mem_singleton_self _), fun ids hids hmem =>
            Nat.lt_irrefl _ (h.unused ids hids _ hmem)⟩, fun hlive => (by cases hlive),
        fun d hd => ?_, fun d hd => ?_, fun d hd d' hd' hid => ?_⟩
      · obtain hd | rfl := hmem d hd
        · exact hrow.once d hd
        · exact Nat.zero_le 1
      · obtain hd | rfl := hmem d hd
        · exact Nat.lt_succ_of_lt (hrow.bound d hd)
        · exact Nat.lt_succ_self _
      · obtain hd | rfl := hmem d hd
        · obtain hd' | rfl := hmem d' hd'
          · exact hrow.same d hd d' hd' hid
          · exact absurd hid (Nat.ne_of_lt (hrow.bound d hd))
        · obtain hd' | rfl := hmem d' hd'
          · exact absurd hid.symm (Nat.ne_of_lt (hrow.bound d' hd'))
          · rfl
    · exact hrow.mono (List.subset_append_left _ _) rfl (Nat.le_succ _)
  · obtain ⟨tj₀, hj₀, rfl⟩ := hold j tj hj
    obtain ⟨tk₀, hk₀, rfl⟩ := hold k tk hk
    have hmem : ∀ (n : Nat) ti, (ti : TaskInstance α) ∈ s.taskInstances → ∀ d ∈ (if i = n then
        ti.deferTask s.nextId method kwargs timeout else ti).history,
        d ∈ ti.history ∨ i = n ∧ d.triggerId = s.nextId := by
      intro n ti _ d hd
      split at hd
      · next hn =>
        obtain hd | rfl : d ∈ ti.history ∨ d = ⟨s.nextId, method, kwargs, []⟩ := by
          simpa [TaskInstance.deferTask] using hd
        · exact .inl hd
        · exact .inr ⟨hn, rfl⟩
      · exact .inl hd
    have hj₁ := List.mem_of_getElem? hj₀
    have hk₁ := List.mem_of_getElem? hk₀
    obtain hd | ⟨rfl, hid⟩ := hmem j tj₀ hj₁ d hd
    · obtain hd' | ⟨rfl, hid'⟩ := hmem k tk₀ hk₁ d' hd'
      · exact h.apart j k tj₀ tk₀ hj₀ hk₀ hjk d hd d' hd'
      · rw [hid']
        exact Nat.ne_of_lt ((h.rows tj₀ hj₁).bound d hd)
    · obtain hd' | ⟨rfl, -⟩ := hmem k tk₀ hk₁ d' hd'
      · rw [hid]
        exact Ne.symm (Nat.ne_of_lt ((h.rows tk₀ hk₁).bound d' hd'))
      · exact absurd rfl hjk
  · obtain hid | hid := List.mem_append.mp hid
    · exact Nat.lt_succ_of_lt (h.triggers id hid)
    · rw [List.mem_singleton.mp hid]
      exact Nat.lt_succ_self _

theorem Inv.cleanUnused (h : Inv s) : Inv s.cleanUnused := by
  have hrows := h.update
    (fun ti => Sql.and (Sql.compare (fun a b => a != b) ti.state (some TaskInstanceState.deferred))
      (Sql.isNotNull ti.triggerId))
    (fun ti => { ti with triggerId := none }) (fun ti hti hrow => ?_) fun ti => rfl
  · refine ⟨fun ti hti => ?_, hrows.apart, h.triggers, fun ids hids id hid => ?_⟩
    · have hrow := hrows.rows ti hti
      refine ⟨fun hstate => ?_, hrow.goesOn, hrow.once, hrow.bound, hrow.same⟩
      obtain ⟨d, hlast, hnone, hid, hmethod, hkwargs, htrigger, hfree⟩ := hrow.waits hstate
      refine ⟨d, hlast, hnone, hid, hmethod, hkwargs, htrigger, fun ids hids hmem => ?_⟩
      obtain hids | hids := List.mem_append.mp hids
      · exact hfree ids hids hmem
      · rw [List.mem_singleton.mp hids, CleanUnused.mem_unusedIds] at hmem
        exact hmem.2 ti.columns (List.mem_map_of_mem hti) hid
    · obtain hids | hids := List.mem_append.mp hids
      · exact h.unused ids hids id hid
      · rw [List.mem_singleton.mp hids, CleanUnused.mem_unusedIds] at hid
        exact h.triggers id hid.1
  · rw [Sql.holds_and, Bool.and_eq_true, Sql.holds_compare] at hti
    obtain ⟨⟨x, y, hx, hy, hne⟩, -⟩ := hti
    refine ⟨fun hstate => ?_, hrow.goesOn, hrow.once, hrow.bound, hrow.same⟩
    obtain rfl := Option.some.inj (hx.symm.trans hstate)
    obtain rfl := Option.some.inj hy
    exact absurd rfl (bne_iff_ne.mp hne)

theorem Inv.deleteUnused (h : Inv s) (n : Nat) : Inv (s.deleteUnused n) := by
  refine ⟨fun ti hti => ?_, h.apart, fun id hid => h.triggers id (List.mem_filter.mp hid).1,
    fun ids hids => h.unused ids (List.mem_of_mem_eraseIdx hids)⟩
  have hrow := h.rows ti hti
  refine ⟨fun hstate => ?_, hrow.goesOn, hrow.once, hrow.bound, hrow.same⟩
  obtain ⟨d, hlast, hnone, hid, hmethod, hkwargs, htrigger, hfree⟩ := hrow.waits hstate
  refine ⟨d, hlast, hnone, hid, hmethod, hkwargs, List.mem_filter.mpr ⟨htrigger, ?_⟩,
    fun ids hids => hfree ids (List.mem_of_mem_eraseIdx hids)⟩
  rw [Bool.not_eq_true', ← Bool.not_eq_true, List.contains_iff_mem]
  intro hmem
  rw [List.getD_eq_getElem?_getD] at hmem
  cases hids : s.unused[n]? with
  | none =>
    rw [hids] at hmem
    exact absurd hmem List.not_mem_nil
  | some ids =>
    rw [hids] at hmem
    exact hfree ids (List.mem_of_getElem? hids) hmem

theorem Inv.step (h : Inv s) (event : Event α) : Inv (step s event) := by
  cases event with
  | deferTask i method kwargs timeout => exact h.deferTask i method kwargs timeout
  | submitEvent id payload => exact h.resume _ _ fun _ => holds_waitsFor
  | submitFailure id traceback => exact h.resume _ _ fun _ => holds_waitsFor
  | checkTriggerTimeouts now =>
    refine h.resume _ _ fun ti hti => ?_
    rw [Sql.holds_and, Bool.and_eq_true] at hti
    exact holds_deferred hti.1
  | cleanUnused => exact h.cleanUnused
  | deleteUnused n => exact h.deleteUnused n
  | clear i hasJob =>
    refine h.modify i _ (fun ti hti => hti.clear hasJob) fun ti => ?_
    unfold TaskInstance.clear
    split
    · split <;> rfl
    · rfl
  | move i state =>
    refine h.modify i _ (fun ti hti => hti.move state) fun ti => ?_
    unfold TaskInstance.move
    split <;> rfl
  | finish i state =>
    refine h.modify i _ (fun ti hti => hti.finish state) fun ti => ?_
    unfold TaskInstance.finish
    split <;> rfl

/-- A task waits, its trigger fires while a clean-up is under way, and the clean-up ends. -/
def firedRun : List (Event String) :=
  [.deferTask 0 "execute_complete" {} none, .cleanUnused, .submitEvent 0 "done", .deleteUnused 0]

end Airflow.Deferral
