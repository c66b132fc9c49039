import FiveSpot.Admission.CrdSchema
import FiveSpot.Admission.Policy
import FiveSpot.Admission.StatusSchema
import FiveSpot.Agents.KataAgent
import FiveSpot.Agents.KataNotes
import FiveSpot.Agents.Netlink
import FiveSpot.Agents.ReclaimAgent
import FiveSpot.Cluster.Base
import FiveSpot.Cluster.History
import FiveSpot.Cluster.LogInvariant
import FiveSpot.Cluster.Run
import FiveSpot.Cluster.StatusDocument
import FiveSpot.Cluster.World
import FiveSpot.Discipline.Effects
import FiveSpot.Discipline.Helpers
import FiveSpot.Discipline.Reconcile
import FiveSpot.Discipline.Requests
import FiveSpot.Discipline.Seen
import FiveSpot.Discipline.Writers
import FiveSpot.Helpers.Agents
import FiveSpot.Helpers.Capi
import FiveSpot.Helpers.ChildClient
import FiveSpot.Helpers.Drain
import FiveSpot.Helpers.Lifecycle
import FiveSpot.Helpers.Mappers
import FiveSpot.Helpers.SpotSchedule
import FiveSpot.Helpers.Status
import FiveSpot.Helpers.TaintGrammar
import FiveSpot.Helpers.TaintValidation
import FiveSpot.Helpers.Taints
import FiveSpot.Helpers.Validation
import FiveSpot.Interaction.Crash
import FiveSpot.Interaction.Execution
import FiveSpot.Interaction.Expected
import FiveSpot.Interaction.Feed
import FiveSpot.Interaction.Monitor
import FiveSpot.Interaction.Observer
import FiveSpot.Interaction.Pool
import FiveSpot.Interaction.Program
import FiveSpot.Interaction.System
import FiveSpot.Interaction.TaskTable
import FiveSpot.Interaction.Trace
import FiveSpot.Interaction.Undisturbed
import FiveSpot.Interaction.Versions
import FiveSpot.Interaction.Watch
import FiveSpot.Liveness.Convergence
import FiveSpot.Liveness.ErrorPhase
import FiveSpot.Liveness.KataSettles
import FiveSpot.Liveness.Urgent
import FiveSpot.Model.Api
import FiveSpot.Model.Constants
import FiveSpot.Model.Crd
import FiveSpot.Model.Encodings
import FiveSpot.Model.FileTree
import FiveSpot.Model.FirstEntry
import FiveSpot.Model.Format
import FiveSpot.Model.Json
import FiveSpot.Model.Lines
import FiveSpot.Model.Lowercase
import FiveSpot.Model.MergePatch
import FiveSpot.Model.ObjectText
import FiveSpot.Model.Patterns
import FiveSpot.Model.Sampling
import FiveSpot.Model.Schema
import FiveSpot.Model.SchemaPatch
import FiveSpot.Model.Slices
import FiveSpot.Model.SlidingWindow
import FiveSpot.Model.StatusJson
import FiveSpot.Model.Streak
import FiveSpot.Model.Text
import FiveSpot.Providers.RangeGrammar
import FiveSpot.Providers.Reconcile
import FiveSpot.Providers.ReverseIndex
import FiveSpot.Providers.WatchTasks
import FiveSpot.Providers.Windows
import FiveSpot.Reconcile
import FiveSpot.Retry
import FiveSpot.Safety.Admission
import FiveSpot.Safety.AgentConfig
import FiveSpot.Safety.ArgvMatching
import FiveSpot.Safety.Authorization
import FiveSpot.Safety.Backoff
import FiveSpot.Safety.Calendar
import FiveSpot.Safety.ChildWatchers
import FiveSpot.Safety.ClientCache
import FiveSpot.Safety.CreatedObjects
import FiveSpot.Safety.Detectors
import FiveSpot.Safety.DrainContract
import FiveSpot.Safety.Durations
import FiveSpot.Safety.Finalizer
import FiveSpot.Safety.FinalizerEdits
import FiveSpot.Safety.FirstRequest
import FiveSpot.Safety.Grace
import FiveSpot.Safety.HeldVerdict
import FiveSpot.Safety.HostPaths
import FiveSpot.Safety.Inactive
import FiveSpot.Safety.IndexInvariant
import FiveSpot.Safety.KataActivation
import FiveSpot.Safety.KataDelivery
import FiveSpot.Safety.KataRestarts
import FiveSpot.Safety.KataSync
import FiveSpot.Safety.KataTearDown
import FiveSpot.Safety.KillCommands
import FiveSpot.Safety.KillSwitch
import FiveSpot.Safety.Labels
import FiveSpot.Safety.LiveMachine
import FiveSpot.Safety.Lockout
import FiveSpot.Safety.LoopProtection
import FiveSpot.Safety.MirroredRefs
import FiveSpot.Safety.NextTransition
import FiveSpot.Safety.Objects
import FiveSpot.Safety.Ownership
import FiveSpot.Safety.Partition
import FiveSpot.Safety.PhaseGraph
import FiveSpot.Safety.ProviderStatus
import FiveSpot.Safety.Provisioning
import FiveSpot.Safety.Publication
import FiveSpot.Safety.PunctualProvider
import FiveSpot.Safety.Readiness
import FiveSpot.Safety.Reclaim
import FiveSpot.Safety.ReclaimCount
import FiveSpot.Safety.Relist
import FiveSpot.Safety.Removal
import FiveSpot.Safety.Revisits
import FiveSpot.Safety.Routing
import FiveSpot.Safety.Shutdown
import FiveSpot.Safety.SpotStatus
import FiveSpot.Safety.StatusStore
import FiveSpot.Safety.StatusWriters
import FiveSpot.Safety.StoredSpecs
import FiveSpot.Safety.TaintAcceptance
import FiveSpot.Safety.TaintConvergence
import FiveSpot.Safety.TaintGuard
import FiveSpot.Safety.TaintPlan
import FiveSpot.Safety.TaintWrites
import FiveSpot.Safety.Taints
import FiveSpot.Safety.Target
import FiveSpot.Safety.Terminated
import FiveSpot.Safety.WakeUps
import FiveSpot.Vex.Presence
import FiveSpot.Vex.Reachability
