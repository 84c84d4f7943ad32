import Labrys.Foundations.Runs
import Labrys.Foundations.Windows
import Labrys.Foundations.Table
import Labrys.Foundations.Text
import Labrys.Foundations.Splitting
import Labrys.Foundations.Trimming
import Labrys.Foundations.Replacement
import Labrys.Foundations.Trail
import Labrys.Foundations.Chain
import Labrys.Foundations.Dialogue
import Labrys.Foundations.Digest
import Labrys.Foundations.Framing
import Labrys.Foundations.Aead
import Labrys.Foundations.BlockStream
import Labrys.Foundations.Program
import Labrys.Foundations.Script
import Labrys.Foundations.Selection
import Labrys.Foundations.AppendOnly
import Labrys.Foundations.Worst
import Labrys.Foundations.Parting
import Labrys.Foundations.Once
import Labrys.Foundations.Rendering
import Labrys.Foundations.Json
import Labrys.Foundations.JsonText
import Labrys.Foundations.JsonReader
import Labrys.Foundations.CommandLine
import Labrys.Core.Ids
import Labrys.Core.Errors
import Labrys.Core.Time
import Labrys.Core.Redact
import Labrys.Core.Events
import Labrys.Core.EventJson
import Labrys.Core.Resource
import Labrys.Core.ResourceRuns
import Labrys.Core.Backoff
import Labrys.Core.Provider
import Labrys.Core.Runtime
import Labrys.Core.Deployment
import Labrys.Core.DeploymentRuns
import Labrys.Core.DeploymentGate
import Labrys.Core.DeploymentSecrets
import Labrys.Core.DeploymentHistory
import Labrys.Core.DeploymentTraffic
import Labrys.Core.DeploymentEvidence
import Labrys.Core.DeploymentRollback
import Labrys.Core.RollbackExecution
import Labrys.Core.DeploymentFailures
import Labrys.Core.JobQueue
import Labrys.Core.JobQueueRuns
import Labrys.Core.JobQueueKeys
import Labrys.Core.Controllers
import Labrys.Core.ConvergenceKeys
import Labrys.Core.BindingKeys
import Labrys.Core.ControllerRuns
import Labrys.Core.RedactOrder
import Labrys.Core.HealthReport
import Labrys.Core.Retention
import Labrys.Core.ControllerProvisioning
import Labrys.Core.Audit
import Labrys.Core.AuditTamper
import Labrys.Core.AuditFraming
import Labrys.Core.Observability
import Labrys.Core.Preview
import Labrys.Core.Agent
import Labrys.Core.Workspace
import Labrys.Core.WorkspaceMerges
import Labrys.Core.Plugin
import Labrys.Core.PluginRuns
import Labrys.Core.AgentRuns
import Labrys.Core.AgentReplay
import Labrys.Core.AgentLeaks
import Labrys.Core.ExternalAgent
import Labrys.Core.Verifier
import Labrys.Core.SecretStore
import Labrys.Core.SecretMap
import Labrys.Core.SecretRuns
import Labrys.Core.BindingInjection
import Labrys.Core.SecretVersions
import Labrys.Core.LegacyEnvelopes
import Labrys.Core.Usage
import Labrys.Core.Capability
import Labrys.Core.BindingResolution
import Labrys.Core.Surfaces
import Labrys.Core.SurfaceRuns
import Labrys.Core.CliEffects
import Labrys.Core.CliPanics
import Labrys.Core.Dashboard
import Labrys.Core.DashboardAttribution
import Labrys.Core.ProjectSnapshot
import Labrys.Core.Inspector
import Labrys.Core.InspectorStages
import Labrys.Core.InspectorProfiles
import Labrys.Core.InspectorPlugins
import Labrys.Core.RuntimeDetection
import Labrys.Core.RuntimeNotes
import Labrys.Core.InspectorFiles
import Labrys.ControlPlane.Jobs
import Labrys.ControlPlane.JobsRuns
import Labrys.ControlPlane.JobsBudget
import Labrys.ControlPlane.Leases
import Labrys.ControlPlane.JobsSimulation
import Labrys.ControlPlane.Store
import Labrys.ControlPlane.Worker
import Labrys.ControlPlane.Providers
import Labrys.ControlPlane.AdapterChoice
import Labrys.ControlPlane.WorkerProviders
import Labrys.ControlPlane.WorkerRecovery
import Labrys.ControlPlane.Fleet
import Labrys.ControlPlane.FleetIsolation
import Labrys.ControlPlane.FleetFencing
import Labrys.ControlPlane.FleetShutdown
import Labrys.ControlPlane.ResourceInterleaving
import Labrys.ControlPlane.AuditAppend
import Labrys.ControlPlane.UsageTable
import Labrys.ControlPlane.Observability
import Labrys.ControlPlane.EventTable
import Labrys.ControlPlane.PreviewManager
import Labrys.ControlPlane.ContainerExecutor
import Labrys.ControlPlane.ContainerArguments
import Labrys.ControlPlane.StartPreview
import Labrys.ControlPlane.WorkspaceIsolation
import Labrys.ControlPlane.ProviderOperations
import Labrys.ControlPlane.ManagedProviders
import Labrys.ControlPlane.PostgresConvergence
import Labrys.ControlPlane.ObjectNames
import Labrys.ControlPlane.DispatchTargets
import Labrys.ControlPlane.DomainConvergence
import Labrys.ControlPlane.Auth
import Labrys.ControlPlane.RateLimiter
import Labrys.ControlPlane.TokenRotation
import Labrys.ControlPlane.TokenFile
import Labrys.ControlPlane.RegistryClient
import Labrys.ControlPlane.RegistryDelivery
import Labrys.ControlPlane.RegistryTags
import Labrys.ControlPlane.RegistryReferences
import Labrys.ControlPlane.Api
import Labrys.ControlPlane.ApiSteps
import Labrys.ControlPlane.ApiJobs
import Labrys.ControlPlane.ApplicationStates
import Labrys.ControlPlane.PortableManifest
import Labrys.ControlPlane.Replays
import Labrys.ControlPlane.StoredResponses
import Labrys.ControlPlane.RollbackScope
import Labrys.ControlPlane.ReadApi
import Labrys.ControlPlane.JobsRecency
import Labrys.ControlPlane.HealthEndpoint
import Labrys.ControlPlane.OverallHealth
import Labrys.ControlPlane.ReadIsolation
import Labrys.ControlPlane.Daemon
import Labrys.ControlPlane.ConnectionSecrets
import Labrys.ControlPlane.ApiInterleaving
import Labrys.ControlPlane.PromptEvidence
import Labrys.ControlPlane.BucketRuns
import Labrys.Foundations.JsonNormal
import Labrys.ControlPlane.PluginFrames
import Labrys.ControlPlane.EvidenceTable
