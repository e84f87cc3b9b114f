import OpenLander.Theory.Run
import OpenLander.Theory.Versioned
import OpenLander.Theory.ReadModifyWrite
import OpenLander.Pipeline.DeployQueue
import OpenLander.Pipeline.DeployQueueOrder
import OpenLander.Monitor.ProjectStateManager
import OpenLander.Monitor.RollbackWatcher
import OpenLander.Monitor.Reconcile
import OpenLander.Pipeline.MonorepoDeps
import OpenLander.Theory.Collections
import OpenLander.Compose.Service
import OpenLander.Theory.PosixPath
import OpenLander.Compose.Names
import OpenLander.Compose.Interpolate
import OpenLander.Compose.Files
import OpenLander.Compose.DeployService
import OpenLander.Compose.Rejection
import OpenLander.Compose.Containment
import OpenLander.Compose.DeploymentSets
import OpenLander.Compose.StatefulGuard
import OpenLander.Compose.History
import OpenLander.Theory.LayeredSort
import OpenLander.Theory.Prog
import OpenLander.Theory.Pool
import OpenLander.Theory.RelyGuarantee
import OpenLander.Theory.Worklist
import OpenLander.Orchestrator.Topology
import OpenLander.Orchestrator.Layers
import OpenLander.Orchestrator.Execute
import OpenLander.Compose.StatefulSwap
import OpenLander.Compose.SwapPreparation
import OpenLander.Db.DeployLock
import OpenLander.Db.WithDeployLock
import OpenLander.Pipeline.World
import OpenLander.Pipeline.Port
import OpenLander.Pipeline.RecreateRuntime
import OpenLander.Pipeline.RecreateConsistency
import OpenLander.Pipeline.BlueGreen
import OpenLander.Pipeline.BlueGreenRecovery
import OpenLander.Pipeline.OneVersion
import OpenLander.Pipeline.RunStep
import OpenLander.Pipeline.Rollback
import OpenLander.Pipeline.Lifecycle
import OpenLander.Pipeline.PreservedContainer
import OpenLander.Pipeline.Archive
import OpenLander.Pipeline.ArchiveSpec
import OpenLander.Pipeline.ArchiveRestore
import OpenLander.Pipeline.ArchiveRuns
import OpenLander.Pipeline.ArchiveGroup
import OpenLander.Pipeline.ArchiveExact
import OpenLander.Pipeline.PortSteps
import OpenLander.Pipeline.PortReservations
import OpenLander.Pipeline.PortScan
import OpenLander.Web.AuthMiddleware
import OpenLander.Web.AutoRelease
import OpenLander.Pipeline.EnvInject
import OpenLander.Pipeline.ServiceLinker
import OpenLander.Pipeline.ServiceLinkerRuns
import OpenLander.Webhook.Preview
import OpenLander.Webhook.PreviewOwnership
import OpenLander.Pipeline.ArchiveLocks
import OpenLander.Pipeline.GreenCleanup
import OpenLander.Pipeline.ResolveEnv
import OpenLander.Pipeline.EnvManager
import OpenLander.Pipeline.Network
import OpenLander.Security.OperationPermissions
import OpenLander.Security.SaveOverride
import OpenLander.Db.Services
import OpenLander.Db.AttachService
import OpenLander.Db.CircuitBreaker
import OpenLander.Mcp.ActionRun
import OpenLander.Mcp.Server
import OpenLander.Mcp.ScopePolicy
import OpenLander.Mcp.DestructiveSafety
import OpenLander.Tools.Resolve
import OpenLander.Mcp.Executor
import OpenLander.Mcp.ActedOn
import OpenLander.Operations.Registry
import OpenLander.DataInspector.Query
import OpenLander.Update.StateStore
import OpenLander.Update.Runner
import OpenLander.Update.RolledBack
import OpenLander.Update.PlatformUpdater
import OpenLander.Update.Result
import OpenLander.DeployPlan.Types
import OpenLander.DeployPlan.Engine
import OpenLander.DeployPlan.Once
import OpenLander.DeployPlan.Status
import OpenLander.DeployPlan.LockRelease
import OpenLander.Deploy.StartDeploy
import OpenLander.Theory.InetAddress
import OpenLander.Theory.Url
import OpenLander.Lib.UrlSafety
import OpenLander.Theory.Client
import OpenLander.Auth.PatTokens
import OpenLander.Auth.AuthService
import OpenLander.Auth.TokenStore
import OpenLander.Auth.Revocation
import OpenLander.Theory.PromiseLock
import OpenLander.Auth.OrgMcpToken
import OpenLander.Theory.FileTree
import OpenLander.Pipeline.ServiceBackup
import OpenLander.Theory.Json
import OpenLander.Theory.Base64Url
import OpenLander.Pipeline.ProtectedShare
import OpenLander.Pipeline.EnvFile
import OpenLander.Pipeline.EnvScan
import OpenLander.Compose.Template
import OpenLander.Compose.EnvironmentForms
import OpenLander.Compose.EnvFileDelivery
import OpenLander.Compose.DeploymentClosure
import OpenLander.Compose.OverlayEnvironment
import OpenLander.Compose.StatefulQuiet
import OpenLander.Theory.Keyed
import OpenLander.Theory.Lines
import OpenLander.Update.SemVer
import OpenLander.Update.ComposeEnvironment
import OpenLander.Lib.QuestionBridge
import OpenLander.Pipeline.PortParsers
import OpenLander.DataInspector.Redis
import OpenLander.Theory.Parents
import OpenLander.Mcp.AppCleanup
import OpenLander.Mcp.ComposeSafety
import OpenLander.Db.EnvVarRepo
import OpenLander.DeployPlan.Update
import OpenLander.Theory.JsonNumber
import OpenLander.Theory.JsonValue
import OpenLander.Theory.JsonObject
import OpenLander.Operations.Fingerprint
import OpenLander.Lib.RingBuffer
import OpenLander.Theory.Utf8
import OpenLander.Pipeline.DockerStream
import OpenLander.Pipeline.WaitForHealthy
import OpenLander.Theory.Pattern
import OpenLander.Compose.Duration
import OpenLander.Pipeline.ListBackups
import OpenLander.Webhook.Push
import OpenLander.Theory.SideBySide
import OpenLander.DeployPlan.Provision
import OpenLander.Theory.Local
import OpenLander.Pipeline.ServiceCreate
import OpenLander.AiOps.AgentPool
import OpenLander.Theory.LineStream
import OpenLander.Monitor.DockerEvents
import OpenLander.Monitor.DockerReports
import OpenLander.Theory.FixedWindow
import OpenLander.Web.RateLimit
import OpenLander.Theory.EventStream
import OpenLander.Web.DeployLogStream
