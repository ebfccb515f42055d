import Eis.Foundation.Run
import Eis.Foundation.Table
import Eis.Foundation.OrderedDict
import Eis.Foundation.Uuid
import Eis.Foundation.Text
import Eis.Foundation.Fnmatch
import Eis.Foundation.Future
import Eis.Foundation.Utf8
import Eis.Foundation.Value
import Eis.Foundation.Program
import Eis.Foundation.Pairs
import Eis.Foundation.SlidingWindow
import Eis.Observability.Jobs
import Eis.Observability.JobTable
import Eis.Observability.Leases
import Eis.Observability.ClaimRace
import Eis.Observability.Worker
import Eis.Security.Models
import Eis.Security.Redaction
import Eis.Security.Authorizer
import Eis.Security.Gateway
import Eis.Security.RoleGrants
import Eis.Security.Approvals
import Eis.Security.RateLimit
import Eis.Integrations.Security
import Eis.Workflows.Models
import Eis.Workflows.Runtime
import Eis.Workflows.Lifecycle
import Eis.Workflows.View
import Eis.Workflows.PhaseOrder
import Eis.Workflows.Overlap
import Eis.Workflows.Escalation
import Eis.Workflows.Checkpoints
import Eis.Workflows.Terminal
import Eis.Workflows.DurableStop
import Eis.Workflows.HumanDecisions
import Eis.Workflows.Store
import Eis.Performance.Cache
import Eis.Performance.CacheMap
import Eis.Performance.SingleFlight
import Eis.Performance.Scheduler
import Eis.Performance.WorkerCount
import Eis.Performance.Close
import Eis.Models.Interfaces
import Eis.Models.Policy
import Eis.Models.Runtime
import Eis.Models.Streams
import Eis.Models.Calls
import Eis.Tools.Models
import Eis.Tools.Policies
import Eis.Tools.Builtin
import Eis.Tools.Execution
import Eis.Tools.Adapter
import Eis.Agents.Models
import Eis.Agents.Runtime
import Eis.Agents.AuthorizedPrefix
import Eis.Verification.Models
import Eis.Verification.Runtime
import Eis.Verification.Verdict
import Eis.Engineering.Models
import Eis.Engineering.Runtime
import Eis.Engineering.Completion
import Eis.Knowledge.Models
import Eis.Knowledge.Local
import Eis.Knowledge.History
import Eis.Integrity.Models
import Eis.Integrity.Engine
import Eis.Integrity.Assessment
import Eis.Integrity.EvidenceLaws
import Eis.Integrity.Contradictions
import Eis.Foundation.Answers
import Eis.RedTeam.Models
import Eis.RedTeam.Runtime
import Eis.Security.Principals
import Eis.Security.Budgets
import Eis.Security.SecretPatterns
import Eis.Security.SecretsInText
import Eis.Evaluation.Models
import Eis.Evaluation.Runtime
import Eis.Evaluation.Accounting
import Eis.Specialized.Models
import Eis.Specialized.Runtime
import Eis.Specialized.Coordination
import Eis.Foundation.Ranking
import Eis.Foundation.Places
import Eis.Foundation.Substitution
import Eis.Context.Models
import Eis.Context.Retrieval
import Eis.Context.Builder
import Eis.Context.SourceKinds
import Eis.Security.StructuredRedaction
import Eis.Security.Monotone
import Eis.Security.ApprovalDecisions
import Eis.Knowledge.Versions
import Eis.Verification.Corrections
import Eis.Engineering.Bounds
import Eis.Engineering.FileLimit
import Eis.Sdk.Models
import Eis.Sdk.Api
import Eis.Sdk.Handlers
import Eis.Sdk.TaskStatus
import Eis.Sdk.AuditTrail
import Eis.Foundation.MetricText
import Eis.Observability.Metrics
import Eis.Context.Deduplication
import Eis.Context.Truncation
import Eis.Performance.Context
import Eis.Context.MinScore
import Eis.Tools.OutputCap
import Eis.Performance.Routing
import Eis.Foundation.Retry
import Eis.Models.StreamTimeouts
import Eis.Performance.Execution
import Eis.Observability.Resilience
import Eis.Models.Attempts
import Eis.Models.RetryLoops
import Eis.Foundation.JsonValue
import Eis.Adapters.OpenAICompatible
import Eis.Adapters.ProviderFailures
import Eis.Adapters.ServerSentEvents
import Eis.Foundation.Raised
import Eis.Performance.RoutedRequests
import Eis.Evaluation.Monotone
import Eis.Performance.Batches
import Eis.Integrity.Ideas
import Eis.Integrity.Unsupported
import Eis.Performance.Memoized
import Eis.Foundation.FileTree
import Eis.Integrations.Local
import Eis.Observability.Health
import Eis.Sdk.History
import Eis.Performance.ServiceOrder
import Eis.Foundation.WriteOnce
import Eis.Performance.Outcomes
import Eis.Observability.Series
import Eis.Observability.Instrumentation
import Eis.Memory.Local
import Eis.Memory.Lifecycle
import Eis.Memory.Recall
import Eis.Foundation.FileSystem
import Eis.Tools.Files
import Eis.Foundation.Base64
import Eis.Integrations.GitHub
import Eis.Integrations.Supervision
import Eis.Integrations.Documentation
import Eis.Integrations.Commits
import Eis.Tools.Defaults
import Eis.Tools.Containment
import Eis.Observability.Tracing
import Eis.Observability.Drain
