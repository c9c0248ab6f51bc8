import AgentOrch.Framework.Dict
import AgentOrch.Framework.Utf8
import AgentOrch.Framework.Json
import AgentOrch.Framework.JsonText
import AgentOrch.Framework.HashChain
import AgentOrch.Framework.Regex
import AgentOrch.Framework.Unicode
import AgentOrch.Framework.Digraph
import AgentOrch.Framework.Phases
import AgentOrch.Framework.Reachability
import AgentOrch.Construction.Trajectory
import AgentOrch.Construction.EventChecks
import AgentOrch.Construction.Replay
import AgentOrch.Construction.Exceptions
import AgentOrch.Construction.Profile
import AgentOrch.Construction.StageGraph
import AgentOrch.Construction.Envelope
import AgentOrch.Construction.Convergence
import AgentOrch.Construction.Usage
import AgentOrch.Construction.RunResult
import AgentOrch.Construction.Review
import AgentOrch.Construction.Store
import AgentOrch.Construction.Seal
import AgentOrch.Construction.Controller
import AgentOrch.Construction.ConvergenceGate
import AgentOrch.Construction.RunLoop
import AgentOrch.Construction.Spawn
import AgentOrch.Construction.Retained
import AgentOrch.Construction.Database
import AgentOrch.Construction.Daemon
import AgentOrch.Construction.Evidence
import AgentOrch.Construction.Lifecycle
import AgentOrch.Construction.StopGate
import AgentOrch.Properties.Changes
import AgentOrch.Properties.Iteration
import AgentOrch.Properties.SealedRecords
import AgentOrch.Properties.StatusLog
import AgentOrch.Properties.LoopBudget
import AgentOrch.Properties.History
import AgentOrch.Properties.TerminalStage
import AgentOrch.Properties.ReviewVerdict
import AgentOrch.Properties.GateHistory
import AgentOrch.Properties.Termination
import AgentOrch.Properties.Recovery
import AgentOrch.Properties.Baselines
import AgentOrch.Properties.Tail
import AgentOrch.Properties.DisplayStream
import AgentOrch.Properties.Inspection
import AgentOrch.Properties.Queue
import AgentOrch.Properties.Redelivery
import AgentOrch.Properties.FileEvidence
import AgentOrch.Properties.SingleExecution
import AgentOrch.Properties.ChainIntegrity
import AgentOrch.Properties.RiskMonotone
import AgentOrch.Construction.Kanban.Rows
import AgentOrch.Construction.Kanban.Reports
import AgentOrch.Construction.Kanban.View
import AgentOrch.Construction.Kanban.Read
import AgentOrch.Framework.Keyset
import AgentOrch.Properties.BoardPages
import AgentOrch.Construction.Kanban.Journal
import AgentOrch.Construction.Kanban.Approval
import AgentOrch.Construction.Kanban.Closeout
import AgentOrch.Construction.Kanban.Quota
import AgentOrch.Construction.Kanban.Commands
import AgentOrch.Properties.Effects
import AgentOrch.Properties.CardJournal
import AgentOrch.Properties.ApprovalBinding
import AgentOrch.Framework.JsonShape
import AgentOrch.Properties.CardReadback
import AgentOrch.Framework.Rising
import AgentOrch.Properties.Selections
import AgentOrch.Properties.SummaryReads
import AgentOrch.Properties.WorkerLineage
import AgentOrch.Framework.Base64
import AgentOrch.Construction.Watch
import AgentOrch.Properties.WatchWindows
import AgentOrch.Framework.PosixPath
import AgentOrch.Construction.Submission
import AgentOrch.Properties.ArtifactDirs
import AgentOrch.Construction.Kanban.Admission
import AgentOrch.Properties.QuotaWatermark
import AgentOrch.Properties.GateCrash
import AgentOrch.Framework.JsonKeys
import AgentOrch.Construction.ProgressDaemon
import AgentOrch.Properties.ProgressOnce
import AgentOrch.Construction.ReviewTask
import AgentOrch.Properties.ReviewOutcome
import AgentOrch.Construction.ReviewSession
import AgentOrch.Properties.SessionOwnership
import AgentOrch.Framework.Numbers
import AgentOrch.Construction.Yaml
import AgentOrch.Construction.Kanban.Gate
import AgentOrch.Properties.Closeouts
import AgentOrch.Framework.Incremental
import AgentOrch.Construction.LiveStream
import AgentOrch.Properties.LiveEvidence
import AgentOrch.Framework.Cycles
import AgentOrch.Properties.LoopCoverage
import AgentOrch.Properties.AttemptNumbers
import AgentOrch.Properties.QuotaReserve
import AgentOrch.Framework.Occurrences
import AgentOrch.Framework.JsonLayout
import AgentOrch.Construction.EnvelopeBlock
import AgentOrch.Properties.EnvelopeRoundTrip
import AgentOrch.Framework.SortedDict
import AgentOrch.Construction.Snapshot
import AgentOrch.Properties.SnapshotFaithful
import AgentOrch.Properties.BoardPagination
import AgentOrch.Framework.ByteOrder
import AgentOrch.Framework.RegexLanguage
import AgentOrch.Framework.Lines
import AgentOrch.Construction.SpecApproval
import AgentOrch.Properties.ApprovalMarkers
import AgentOrch.Framework.JsonScan
import AgentOrch.Framework.JsonOutline
import AgentOrch.Properties.ProviderResult
import AgentOrch.Construction.Kanban.Observation
import AgentOrch.Properties.QuotaProjection
import AgentOrch.Framework.FileTree
import AgentOrch.Construction.Containment
import AgentOrch.Properties.DriftDetection
import AgentOrch.Properties.GateSteps
import AgentOrch.Properties.SyncIdempotence
import AgentOrch.Framework.JsonAscii
import AgentOrch.Construction.Execution
import AgentOrch.Properties.ExecutionPlans
import AgentOrch.Properties.RestoredPlans
import AgentOrch.Properties.PlanRoundTrip
import AgentOrch.Properties.PlanFrames
import AgentOrch.Properties.PlanSeals
import AgentOrch.Framework.PathText
import AgentOrch.Construction.Intake
import AgentOrch.Construction.Dispatch
import AgentOrch.Properties.ResolvedAxes
import AgentOrch.Properties.AcceptedReplies
import AgentOrch.Properties.WrittenEnvelopes
import AgentOrch.Properties.IntakeAuthority
import AgentOrch.Properties.IntakeStops
import AgentOrch.Properties.YamlBlocks
import AgentOrch.Properties.YamlRoundTrip
import AgentOrch.Construction.GateFiles
import AgentOrch.Properties.GateRecords
import AgentOrch.Properties.GateHandover
import AgentOrch.Properties.GateAcceptance
