import Airflow.Lib.Dict
import Mathlib.Data.List.Sort

/-!
# `Trigger.assign_unassigned`

Any number of triggerers run `assign_unassigned` of `models/trigger.py` against one database, each
call one transaction: count the own triggers, read the alive triggerers, select and lock candidates
(`get_sorted_triggers`), update, commit. Each of these is a step of its own, which sees what has been
committed; between them the clock goes on, jobs start, send heartbeats and end, and triggers come and
go. A transaction's update is seen by others when it commits.

`since` of a transaction is the record of the jobs that were started or sent a heartbeat since it
read the alive triggerers, `stolen` that of the triggers whose update took them from another
triggerer that was alive. No step reads them.
-/

namespace Airflow.Triggerer

/-- What `assign_unassigned` reads of a row of `job`. -/
structure Job where
  endDate : Option Int := none
  latestHeartbeat : Int
  jobType : String
  deriving DecidableEq, Repr

/-- The job is that of an alive triggerer. -/
def Job.alive (job : Job) (healthCheckThreshold now : Int) : Prop :=
  job.endDate = none ∧ job.latestHeartbeat > now - healthCheckThreshold ∧
    job.jobType = "TriggererJob"

instance (job : Job) (healthCheckThreshold now : Int) :
    Decidable (job.alive healthCheckThreshold now) :=
  inferInstanceAs (Decidable (_ ∧ _ ∧ _))

/-- What `assign_unassigned` reads of a row of `trigger`, with the `priority_weight` of each task
instance that depends on it. -/
structure Trigger where
  triggererId : Option Nat := none
  createdDate : Int := 0
  priorityWeights : List (Option Int) := []
  deriving DecidableEq, Repr

/-- How far a call of `assign_unassigned` has come. -/
inductive Phase where
  | counted (capacity : Int)
  | listed (capacity : Int) (alive : List Nat)
  | selected (alive ids : List Nat)
  | updated (ids : List Nat)
  deriving DecidableEq, Repr

structure Transaction where
  phase : Phase
  since : List Nat := []
  deriving DecidableEq, Repr

/-- The triggers whose rows a transaction has locked. -/
def Transaction.locks (transaction : Transaction) : List Nat :=
  match transaction.phase with
  | .counted _ | .listed _ _ => []
  | .selected _ ids | .updated ids => ids

/-- `capacity` and `health_check_threshold` of each triggerer. -/
structure Settings where
  capacity : Nat → Int
  healthCheckThreshold : Nat → Int

structure Cluster where
  now : Int := 0
  jobs : Dict Nat Job := {}
  triggers : Dict Nat Trigger := {}
  transactions : Dict Nat Transaction := {}
  stolen : List (Nat × Nat) := []

namespace Cluster

/-- `select(func.count(cls.id)).filter(cls.triggerer_id == triggerer_id)`. -/
def count (self : Cluster) (triggererId : Nat) : Nat :=
  (self.triggers.entries.filter (·.2.triggererId = some triggererId)).length

/-- The ids of the alive triggerers. -/
def aliveTriggererIds (self : Cluster) (healthCheckThreshold : Int) : List Nat :=
  (self.jobs.entries.filter (·.2.alive healthCheckThreshold self.now)).map Prod.fst

/-- Another transaction holds the lock of the row. -/
def Locked (self : Cluster) (triggerId : Nat) : Prop :=
  ∃ e ∈ self.transactions.entries, triggerId ∈ e.2.locks

instance (self : Cluster) (triggerId : Nat) : Decidable (self.Locked triggerId) :=
  inferInstanceAs (Decidable (∃ e ∈ _, _))

/-! ## `get_sorted_triggers` -/

/-- A row of the join of triggers and task instances. -/
structure Candidate where
  id : Nat
  priorityWeight : Int
  createdDate : Int
  deriving DecidableEq

/-- `ORDER BY coalesce(priority_weight, 0) DESC, created_date`. -/
def Candidate.Before (a b : Candidate) : Prop :=
  b.priorityWeight < a.priorityWeight ∨
    a.priorityWeight = b.priorityWeight ∧ a.createdDate ≤ b.createdDate

instance : DecidableRel Candidate.Before := fun _ _ => inferInstanceAs (Decidable (_ ∨ _ ∧ _))

/-- The rows that the query finds: the trigger has no triggerer or none of the alive ones, and
nobody else has locked it; `lockedElsewhere` are the triggers that transactions of another kind have
locked. -/
def candidates (self : Cluster) (alive lockedElsewhere : List Nat) : List Candidate :=
  (self.triggers.entries.filter fun e =>
      e.2.triggererId.all (· ∉ alive) ∧ ¬self.Locked e.1 ∧ e.1 ∉ lockedElsewhere).flatMap fun e =>
    e.2.priorityWeights.map fun weight => ⟨e.1, weight.getD 0, e.2.createdDate⟩

/-- `get_sorted_triggers`. -/
def getSortedTriggers (self : Cluster) (capacity : Int) (alive lockedElsewhere : List Nat) :
    List Nat :=
  (((self.candidates alive lockedElsewhere).insertionSort Candidate.Before).take
    capacity.toNat).map (·.id)

/-! ## Steps -/

/-- A step of the cluster. -/
inductive Label where
  | tick (seconds : Nat)
  | startJob (jobId : Nat) (jobType : String) (age : Nat)
  | heartbeat (jobId : Nat) (age : Nat)
  | endJob (jobId : Nat)
  | createTrigger (triggerId : Nat) (createdDate : Int)
  | setTaskInstances (triggerId : Nat) (priorityWeights : List (Option Int))
  | deleteTrigger (triggerId : Nat)
  | count (triggererId : Nat)
  | readAlive (triggererId : Nat)
  | select (triggererId : Nat) (lockedElsewhere : List Nat)
  | update (triggererId : Nat)
  | commit (triggererId : Nat)
  | abort (triggererId : Nat)

/-- A job has been started or has sent a heartbeat. -/
def beat (self : Cluster) (jobId : Nat) (job : Job) : Cluster :=
  { self with
    jobs := self.jobs.set jobId job
    transactions := self.transactions.mapValues fun _ t => { t with since := jobId :: t.since } }

/-- The transaction of a triggerer begins or goes on. -/
def setPhase (self : Cluster) (triggererId : Nat) (transaction : Transaction) : Cluster :=
  { self with transactions := self.transactions.set triggererId transaction }

/-- The transaction of a triggerer is over. -/
def endTransaction (self : Cluster) (triggererId : Nat) : Cluster :=
  { self with transactions := self.transactions.erase triggererId }

/-- The triggers among `ids` that belong to another triggerer that is alive. -/
def aliveElsewhere (self : Cluster) (settings : Settings) (triggererId : Nat) (ids : List Nat) :
    List (Nat × Nat) :=
  (self.triggers.entries.filter (·.1 ∈ ids)).filterMap fun e =>
    match e.2.triggererId with
    | none => none
    | some owner =>
      if owner ≠ triggererId ∧
          owner ∈ self.aliveTriggererIds (settings.healthCheckThreshold triggererId) then
        some (e.1, owner)
      else none

/-- What a step does; a step that the phase of its transaction does not allow, or that waits for a
lock, does nothing. -/
def step (settings : Settings) (self : Cluster) : Label → Cluster
  | .tick seconds => { self with now := self.now + seconds }
  | .startJob jobId jobType age =>
    if jobId ∈ self.jobs.keys then self
    else self.beat jobId { latestHeartbeat := self.now - age, jobType := jobType }
  | .heartbeat jobId age =>
    match self.jobs.get? jobId with
    | none => self
    | some job => self.beat jobId { job with latestHeartbeat := self.now - age }
  | .endJob jobId =>
    match self.jobs.get? jobId with
    | none => self
    | some job => { self with jobs := self.jobs.set jobId { job with endDate := some self.now } }
  | .createTrigger triggerId createdDate =>
    if triggerId ∈ self.triggers.keys then self
    else { self with triggers := self.triggers.set triggerId { createdDate := createdDate } }
  | .setTaskInstances triggerId priorityWeights =>
    match self.triggers.get? triggerId with
    | none => self
    | some trigger =>
      if self.Locked triggerId then self
      else
        { self with
          triggers :=
            self.triggers.set triggerId { trigger with priorityWeights := priorityWeights } }
  | .deleteTrigger triggerId =>
    if self.Locked triggerId then self
    else { self with triggers := self.triggers.erase triggerId }
  | .count triggererId =>
    match self.transactions.get? triggererId with
    | some _ => self
    | none =>
      let capacity := settings.capacity triggererId - self.count triggererId
      if capacity ≤ 0 then self else self.setPhase triggererId { phase := .counted capacity }
  | .readAlive triggererId =>
    match self.transactions.get? triggererId with
    | some ⟨.counted capacity, _⟩ =>
      self.setPhase triggererId
        { phase := .listed capacity
            (self.aliveTriggererIds (settings.healthCheckThreshold triggererId)) }
    | _ => self
  | .select triggererId lockedElsewhere =>
    match self.transactions.get? triggererId with
    | some ⟨.listed capacity alive, since⟩ =>
      let ids := self.getSortedTriggers capacity alive lockedElsewhere
      if ids = [] then self.endTransaction triggererId
      else self.setPhase triggererId ⟨.selected alive ids, since⟩
    | _ => self
  | .update triggererId =>
    match self.transactions.get? triggererId with
    | some ⟨.selected _ ids, since⟩ =>
      { self.setPhase triggererId ⟨.updated ids, since⟩ with
        stolen := self.stolen ++ self.aliveElsewhere settings triggererId ids }
    | _ => self
  | .commit triggererId =>
    match self.transactions.get? triggererId with
    | some ⟨.updated ids, _⟩ =>
      { self.endTransaction triggererId with
        triggers := self.triggers.mapValues fun id trigger =>
          if id ∈ ids then { trigger with triggererId := some triggererId } else trigger }
    | _ => self
  | .abort triggererId => self.endTransaction triggererId

end Cluster

end Airflow.Triggerer
