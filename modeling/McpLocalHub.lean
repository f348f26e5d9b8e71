import McpLocalHub.Supervisor.SpawningProgress
import McpLocalHub.Supervisor.StopFinality
import McpLocalHub.Daemon.ResponseAttribution
import McpLocalHub.Hub.ScopeSafety
import McpLocalHub.Hub.SessionFreshness
import McpLocalHub.Supervisor.SettlementEvidence
import McpLocalHub.Daemon.DocAgreement
import McpLocalHub.Daemon.LazyProxy
import McpLocalHub.Api.ReadinessSettlement
import McpLocalHub.Hub.TokenFreshness
import McpLocalHub.Daemon.ReadinessProtocol
import McpLocalHub.Supervisor.TrackerHistory
import McpLocalHub.Hub.ToolsDrain
import McpLocalHub.Hub.MergeOrder
import McpLocalHub.Hub.EventStream
import McpLocalHub.Hub.ActiveSessions
import McpLocalHub.Supervisor.ReceiptTransitions
import McpLocalHub.Supervisor.StopResurrection
import McpLocalHub.ReverseDeps.Candidates
import McpLocalHub.ReverseDeps.Reduction
import McpLocalHub.PatchesApply.LexerAgreement
import McpLocalHub.PatchesApply.EagerValues
import McpLocalHub.PatchesApply.Knowledge
import McpLocalHub.PatchesApply.Versions
import McpLocalHub.Clients.LayerMerge
import McpLocalHub.Supervisor.ReallocationCap
import McpLocalHub.CMakeGraph.BlockTracking
import McpLocalHub.LastFailure.CommandLine
import McpLocalHub.Supervisor.BackoffOwners
import McpLocalHub.Api.AdoptCleanup
import McpLocalHub.Supervisor.StatusPortOwners
