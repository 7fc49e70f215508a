import Heel.Contracts.CanonicalText
import Heel.Contracts.FindingsDisclosure
import Heel.Contracts.FindingsProjection
import Heel.Contracts.FindingsRequest
import Heel.Contracts.FindingsSync
import Heel.Contracts.Json
import Heel.Contracts.NormalForm
import Heel.Contracts.OperationalRun
import Heel.Contracts.ParseJson
import Heel.Contracts.Portable
import Heel.Contracts.ReviewAgreement
import Heel.Contracts.ReviewContract
import Heel.Contracts.ReviewOrder
import Heel.Contracts.ReviewValidation
import Heel.Contracts.RoundTrip
import Heel.Contracts.RunnerIdentity
import Heel.Host.PolicyInput
import Heel.Host.PolicyInstall
import Heel.Host.PolicyRuns
import Heel.Host.Readback
import Heel.Host.ReadbackExact
import Heel.Lib.Checks
import Heel.Lib.Dict
import Heel.Lib.History
import Heel.Lib.Http
import Heel.Lib.IpAddress
import Heel.Lib.JsonDump
import Heel.Lib.JsonKeyed
import Heel.Lib.JsonOrder
import Heel.Lib.JsonSame
import Heel.Lib.JsonScan
import Heel.Lib.JsonSize
import Heel.Lib.JsonText
import Heel.Lib.Literal
import Heel.Lib.Page
import Heel.Lib.Pattern
import Heel.Lib.Pieces
import Heel.Lib.Register
import Heel.Lib.Session
import Heel.Lib.Sorting
import Heel.Lib.Table
import Heel.Lib.Transition
import Heel.Lib.Url
import Heel.Product.LaunchGate
import Heel.Product.ProductModel
import Heel.Product.StaticReview
import Heel.Runner.Adapters
import Heel.Runner.AppendTotal
import Heel.Runner.Budget
import Heel.Runner.ChainRuns
import Heel.Runner.Containment
import Heel.Runner.ContainmentLog
import Heel.Runner.ContentAssertion
import Heel.Runner.Delivery
import Heel.Runner.DeliveryInvariant
import Heel.Runner.Executor
import Heel.Runner.ExecutorMoves
import Heel.Runner.HttpTransport
import Heel.Runner.LiveAuthority
import Heel.Runner.LogInvariant
import Heel.Runner.PlainJson
import Heel.Runner.PlanAttempts
import Heel.Runner.PlanCut
import Heel.Runner.PlanDigest
import Heel.Runner.PlanExecution
import Heel.Runner.PlanFindings
import Heel.Runner.PlanHeld
import Heel.Runner.PlanOrder
import Heel.Runner.PlanPairs
import Heel.Runner.PlanPaths
import Heel.Runner.PlanPrepare
import Heel.Runner.PlanReservation
import Heel.Runner.PlanVerdict
import Heel.Runner.ProjectionTotal
import Heel.Runner.Redaction
import Heel.Runner.RequestBytes
import Heel.Runner.RouteBinding
import Heel.Runner.RouteTemplates
import Heel.Runner.RuntimePruning
import Heel.Runner.RuntimeRuns
import Heel.Runner.RuntimeState
import Heel.Runner.SecretKeys
import Heel.Runner.SecretPattern
import Heel.Runner.StopRace
import Heel.Runner.TargetGuard
import Heel.Runner.TransportRequests
import Heel.Saas.Approval
import Heel.Saas.AuthInvariant
import Heel.Saas.AuthorityCycle
import Heel.Saas.AuthorityStops
import Heel.Saas.Authorization
import Heel.Saas.Billing
import Heel.Saas.Claims
import Heel.Saas.ContextCalls
import Heel.Saas.ContextCancel
import Heel.Saas.ContextEdits
import Heel.Saas.ContextGrants
import Heel.Saas.ContextQuiet
import Heel.Saas.ContextRuns
import Heel.Saas.ContextWork
import Heel.Saas.Contexts
import Heel.Saas.DeviceAuth
import Heel.Saas.DeviceFamilies
import Heel.Saas.DeviceMoves
import Heel.Saas.Disclosure
import Heel.Saas.DisclosureLive
import Heel.Saas.DisclosureOnce
import Heel.Saas.DisclosureRuns
import Heel.Saas.Discovery
import Heel.Saas.DiscoveryBounds
import Heel.Saas.DiscoveryEdits
import Heel.Saas.DiscoveryFrontier
import Heel.Saas.DiscoveryLineage
import Heel.Saas.Entitlement
import Heel.Saas.Findings
import Heel.Saas.Gate
import Heel.Saas.GuardAgreement
import Heel.Saas.HostAuthority
import Heel.Saas.HostLedger
import Heel.Saas.HostSnapshot
import Heel.Saas.JobFunding
import Heel.Saas.Jobs
import Heel.Saas.Ledger
import Heel.Saas.Lifecycle
import Heel.Saas.NetworkGuard
import Heel.Saas.Quota
import Heel.Saas.Reaping
import Heel.Saas.RetentionLanes
import Heel.Saas.RetentionWork
import Heel.Saas.RotationExit
import Heel.Saas.Run
import Heel.Saas.RunCalls
import Heel.Saas.RunEdits
import Heel.Saas.RunnerAuth
import Heel.Saas.RunnerRetention
import Heel.Saas.SingleUse
import Heel.Saas.Source
import Heel.Saas.TargetProofs
import Heel.Saas.TargetVerifier
import Heel.Saas.Units
import Heel.Saas.Usage
import Heel.Sync.Queue
import Heel.Sync.QueueMoves
import Heel.Sync.Transmission
