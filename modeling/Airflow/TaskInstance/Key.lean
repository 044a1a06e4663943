/-!
# Task-instance keys

`TaskInstanceKey` of `airflow/models/taskinstancekey.py`: the primary key of a task instance and
the number of one of its tries.
-/

namespace Airflow

/-- The primary key of a task instance. -/
structure PrimaryKey where
  dagId : String
  taskId : String
  runId : String
  mapIndex : Int
  deriving DecidableEq, Repr

structure TaskInstanceKey where
  dagId : String
  taskId : String
  runId : String
  tryNumber : Int := 1
  mapIndex : Int := -1
  deriving DecidableEq, Repr

namespace TaskInstanceKey

variable (self : TaskInstanceKey)

def primary : PrimaryKey := ⟨self.dagId, self.taskId, self.runId, self.mapIndex⟩

/-- The key whose try number matches the information in memory. -/
def reduced : TaskInstanceKey := { self with tryNumber := max 1 (self.tryNumber - 1) }

def withTryNumber (tryNumber : Int) : TaskInstanceKey := { self with tryNumber }

@[simp] theorem primary_withTryNumber (tryNumber : Int) :
    (self.withTryNumber tryNumber).primary = self.primary := rfl

@[simp] theorem primary_reduced : self.reduced.primary = self.primary := rfl

end TaskInstanceKey

/-- The key of a try of the task instance. -/
def PrimaryKey.tryKey (self : PrimaryKey) (tryNumber : Int) : TaskInstanceKey :=
  ⟨self.dagId, self.taskId, self.runId, tryNumber, self.mapIndex⟩

namespace PrimaryKey

variable (self : PrimaryKey)

@[simp] theorem primary_tryKey (tryNumber : Int) : (self.tryKey tryNumber).primary = self := rfl

@[simp] theorem tryNumber_tryKey (tryNumber : Int) :
    (self.tryKey tryNumber).tryNumber = tryNumber := rfl

theorem tryKey_eq {key : TaskInstanceKey} {tryNumber : Int} :
    self.tryKey tryNumber = key ↔ key.primary = self ∧ key.tryNumber = tryNumber := by
  constructor
  · rintro rfl
    exact ⟨rfl, rfl⟩
  · rintro ⟨rfl, rfl⟩
    rfl

end PrimaryKey

end Airflow
