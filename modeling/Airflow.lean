import Airflow.State
import Airflow.Lib.Transition
import Airflow.Lib.Trim
import Airflow.Lib.Radix
import Airflow.Lib.RowProgram
import Airflow.Lib.Quota
import Airflow.Lib.Lockstep
import Airflow.Lib.Dict
import Airflow.Lib.Overlay
import Airflow.Lib.Traced
import Airflow.Lib.Closure
import Airflow.Lib.Levels
import Airflow.Lib.Nested
import Airflow.Lib.PassSort
import Airflow.Lib.DepthFirst
import Airflow.Lib.Sql
import Airflow.Lib.Neighbours
import Airflow.Deps.TriggerRule
import Airflow.Deps.Proof.TriggerRule
import Airflow.Dag.Graph
import Airflow.Dag.Proof.Relatives
import Airflow.Dag.CycleTester
import Airflow.Dag.Proof.CycleTester
import Airflow.Dag.PriorityWeight
import Airflow.Dag.TaskGroup
import Airflow.Dag.PartialSubset
import Airflow.Dag.Proof.PartialSubset
import Airflow.Dag.TopologicalSort
import Airflow.Dag.Proof.TopologicalSort
import Airflow.Dag.DagEdges
import Airflow.Dag.Proof.DagEdges
import Airflow.Dag.BulkWrite
import Airflow.Dag.Proof.BulkWrite
import Airflow.DagBag.Bagging
import Airflow.DagBag.Proof.Atomic
import Airflow.DagBag.LoadOrder
import Airflow.DagBag.Proof.LoadOrder
import Airflow.DagBag.Proof.OrderDependent
import Airflow.DagRun.Session
import Airflow.DagRun.Dependencies
import Airflow.DagRun.UpstreamRows
import Airflow.DagRun.Decision
import Airflow.DagRun.Proof.Session
import Airflow.DagRun.Proof.Effects
import Airflow.DagRun.Proof.Dispatched
import Airflow.DagRun.Proof.Locality
import Airflow.DagRun.Proof.Deadlock
import Airflow.DagRun.Proof.Outcome
import Airflow.DagRun.Proof.FailFlag
import Airflow.DagRun.Proof.UpstreamRows
import Airflow.XCom.Resolve
import Airflow.XCom.Proof.Resolve
import Airflow.XCom.Proof.MapZip
import Airflow.XCom.GetMany
import Airflow.DagRun.Proof.PassFrame
import Airflow.DagRun.Proof.Lockstep
import Airflow.DagRun.Proof.MiniScheduler
import Airflow.DagRun.Proof.MappedRows
import Airflow.DagRun.Proof.MappedPass
import Airflow.DagRun.Proof.RowHistory
import Airflow.DagRun.Proof.OutsideScheduled
import Airflow.DagRun.Proof.Block
import Airflow.DagRun.Proof.Converge
import Airflow.DagRun.Integrity
import Airflow.DagRun.Proof.MapLengths
import Airflow.DagRun.Proof.Integrity
import Airflow.DagRun.MarkTasks
import Airflow.DagRun.Proof.MarkTasks
import Airflow.Executor.Base
import Airflow.Executor.Proof.Slots
import Airflow.Executor.Kubernetes
import Airflow.Executor.Proof.Kubernetes
import Airflow.Executor.Celery
import Airflow.Executor.Proof.Celery
import Airflow.Executor.Proof.KubernetesSync
import Airflow.Executor.KubernetesQueued
import Airflow.Executor.Local
import Airflow.Executor.Proof.Local
import Airflow.Executor.Proof.LocalEnd
import Airflow.Lib.Objects
import Airflow.Lib.Merge
import Airflow.Lib.Repeats
import Airflow.Lib.JsonFormat
import Airflow.Lib.Reconcile
import Airflow.Kubernetes.Reconcile
import Airflow.Kubernetes.PodContents
import Airflow.Kubernetes.Proof.Reconcile
import Airflow.Utils.File
import Airflow.Utils.Gitignore
import Airflow.Utils.Proof.File
import Airflow.Kubernetes.Names
import Airflow.Kubernetes.Proof.Names
import Airflow.Sensors.Proof.Reschedule
import Airflow.Sensors.Proof.Waits
import Airflow.Scheduler.Queueing
import Airflow.Scheduler.StartRuns
import Airflow.Scheduler.NextDagrun
import Airflow.Scheduler.DatasetRuns
import Airflow.Scheduler.Proof.Queueing
import Airflow.Scheduler.LimitRuns
import Airflow.Scheduler.Examination
import Airflow.Scheduler.Proof.Starvation
import Airflow.Scheduler.Proof.NextDagrun
import Airflow.Scheduler.Proof.DatasetRuns
import Airflow.Utils.DbCleanup
import Airflow.Utils.InterleaveLogs
import Airflow.Lib.Substitution
import Airflow.Utils.SecretsMasker
import Airflow.Utils.Proof.SecretsMasker
import Airflow.Triggerer.Runner
import Airflow.Triggerer.Threads
import Airflow.Triggerer.Proof.ThreadInv
import Airflow.Triggerer.Proof.MainThread
import Airflow.Triggerer.Proof.AsyncThread
import Airflow.Triggerer.Proof.Threads
import Airflow.Triggerer.Proof.Isolation
import Airflow.Triggerer.CleanUnused
import Airflow.Triggerer.Deferral
import Airflow.Auth.DagAccess
import Airflow.Auth.Proof.DagAccess
import Airflow.Triggerer.Assignment
import Airflow.Triggerer.Proof.Assignment
import Airflow.Configuration.Parser
import Airflow.Configuration.AsDict
import Airflow.Configuration.Copy
import Airflow.Configuration.Provenance
import Airflow.Configuration.Proof.Sensitive
import Airflow.Configuration.Proof.Precedence
import Airflow.Configuration.Proof.Copy
import Airflow.Configuration.Proof.InEffect
import Airflow.Configuration.Proof.Disputed
import Airflow.Timetables.Timetable
import Airflow.DagProcessing.Manager
import Airflow.DagProcessing.Proof.Bookkeeping
import Airflow.DagProcessing.Proof.Callbacks
import Airflow.DagProcessing.Proof.Fairness
import Airflow.Serialization.Serde
import Airflow.Serialization.XCom
import Airflow.Serialization.Proof.Values
import Airflow.Serialization.Proof.Display
import Airflow.Serialization.Proof.Shrink
import Airflow.Serialization.Proof.RoundTrip
import Airflow.Serialization.Proof.XComValues
import Airflow.Serialization.Schedule
import Airflow.Serialization.Proof.Schedule
import Airflow.Serialization.Params
import Airflow.Serialization.Proof.Params
import Airflow.Serialization.ExtendedJson
import Airflow.Serialization.Proof.ExtendedJson
import Airflow.TaskInstance.Retries
import Airflow.TaskInstance.Clear
import Airflow.TaskInstance.Proof.Clear
import Airflow.TaskInstance.Proof.Retries
import Airflow.Mapping.ExpandInput
import Airflow.Mapping.Proof.Decode
import Airflow.Mapping.Proof.Product
import Airflow.Mapping.Proof.Upstream
import Airflow.TaskInstance.PastDepends
import Airflow.TaskInstance.Proof.PastDepends
import Airflow.Authoring.Nodes
import Airflow.Authoring.Proof.Leaves
import Airflow.Authoring.Proof.GroupDependencies
import Airflow.Authoring.EdgeModifier
import Airflow.Authoring.Proof.EdgeModifier
import Airflow.Authoring.SetupTeardown
import Airflow.Authoring.Contexts
import Airflow.Authoring.Proof.Contexts
import Airflow.Authoring.GroupIds
import Airflow.Authoring.Proof.GroupIds
import Airflow.Authoring.Proof.SetupTeardown
import Airflow.TaskInstance.Key
import Airflow.TaskInstance.Filter
import Airflow.TaskInstance.ExternalMarkers
import Airflow.TaskInstance.Proof.ExternalMarkers
import Airflow.Scheduler.ExecutorEvents
import Airflow.Scheduler.Proof.ExecutorEvents
import Airflow.TaskInstance.RunRawTask
import Airflow.TaskInstance.RetryDelay
import Airflow.Timetables.Events
import Airflow.Timetables.Proof.Restriction
import Airflow.Timetables.Iterate
import Airflow.Timetables.Proof.Between
import Airflow.Timetables.Proof.LatestInterval
import Airflow.Branching.SkipMixin
import Airflow.Branching.Skip
import Airflow.Branching.Proof.SkipMixin
import Airflow.Backfill.Runner
import Airflow.Backfill.Proof.Tracking
import Airflow.Backfill.Proof.Counters
import Airflow.Backfill.Proof.Slots
