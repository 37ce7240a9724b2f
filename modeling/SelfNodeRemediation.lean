import SelfNodeRemediation.Lib.Chunks
import SelfNodeRemediation.Lib.Dict
import SelfNodeRemediation.Lib.Endings
import SelfNodeRemediation.Lib.Interaction
import SelfNodeRemediation.Lib.Session
import SelfNodeRemediation.Lib.Threads
import SelfNodeRemediation.Lib.Versioned
import SelfNodeRemediation.Lib.Workers
import SelfNodeRemediation.Peers
import SelfNodeRemediation.Api
import SelfNodeRemediation.Config
import SelfNodeRemediation.Calculator
import SelfNodeRemediation.ApiCheck
import SelfNodeRemediation.PeerRound
import SelfNodeRemediation.PeerBudget
import SelfNodeRemediation.RebootDuration
import SelfNodeRemediation.Watchdog
import SelfNodeRemediation.WatchdogLifecycle
import SelfNodeRemediation.SelfFencing
import SelfNodeRemediation.PeerCache
import SelfNodeRemediation.PeerRefresh
import SelfNodeRemediation.Unstructured
import SelfNodeRemediation.Apply
import SelfNodeRemediation.ApplyTwice
import SelfNodeRemediation.ApplySettles
import SelfNodeRemediation.ConfigReconciler
import SelfNodeRemediation.EndpointPolicy
import SelfNodeRemediation.EndpointEgress
import SelfNodeRemediation.Reconcile
import SelfNodeRemediation.Rebooter
import SelfNodeRemediation.WatchdogStop
import SelfNodeRemediation.Cluster
import SelfNodeRemediation.PeerHealth
import SelfNodeRemediation.Reads
import SelfNodeRemediation.Removal
import SelfNodeRemediation.Walk
import SelfNodeRemediation.NHCTimeout
import SelfNodeRemediation.TaintPatches
import SelfNodeRemediation.StatusWrites
import SelfNodeRemediation.Eviction
import SelfNodeRemediation.PhaseOutline
import SelfNodeRemediation.PhaseMachine
import SelfNodeRemediation.Refencing
import SelfNodeRemediation.SuccessReport
import SelfNodeRemediation.TaintOutline
import SelfNodeRemediation.Taints
import SelfNodeRemediation.Release
import SelfNodeRemediation.Agent
import SelfNodeRemediation.Fencing
import SelfNodeRemediation.Evaluation
import SelfNodeRemediation.Plan
import SelfNodeRemediation.Deletion
import SelfNodeRemediation.DeletionProgress
import SelfNodeRemediation.ResourceDeletion
import SelfNodeRemediation.SteadyState
import SelfNodeRemediation.Remediations
import SelfNodeRemediation.SharedTaintOutline
import SelfNodeRemediation.SharedTaint
import SelfNodeRemediation.SharedNode
import SelfNodeRemediation.Upkeep
import SelfNodeRemediation.Controllers
import SelfNodeRemediation.DisabledOutline
import SelfNodeRemediation.DisabledCondition
import SelfNodeRemediation.Completion
import SelfNodeRemediation.Upgrade
import SelfNodeRemediation.Certificates
import SelfNodeRemediation.NodeAnnotations
import SelfNodeRemediation.WorkQueue
import SelfNodeRemediation.PeerSelection
