import Sentinel.Library.StepSystem
import Sentinel.Runtime.Persistence
import Sentinel.Runtime.WriteIds
import Sentinel.Runtime.Accounting
import Sentinel.Runtime.Steps
import Sentinel.Runtime.Capacity
import Sentinel.Runtime.Order
import Sentinel.Runtime.Rejections
import Sentinel.Library.Expiry
import Sentinel.Pipeline.Dedup
import Sentinel.Pipeline.DedupRuns
import Sentinel.Events
import Sentinel.Pipeline.Runner
import Sentinel.Pipeline.ExactlyOnce
import Sentinel.Detection.Evaluator
import Sentinel.Detection.Engine
import Sentinel.Detection.ActionIndex
import Sentinel.Detection.Timeouts
import Sentinel.Detection.Typing
import Sentinel.Detection.Coverage
import Sentinel.Detection.Padding
import Sentinel.Library.SlidingWindow
import Sentinel.Detection.Windows
import Sentinel.Detection.Thresholds
import Sentinel.Detection.FailSafe
import Sentinel.Detection.Bursts
import Sentinel.Detection.AddressRotation
import Sentinel.Alerting.Evidence
import Sentinel.Collectors.Base
import Sentinel.Library.Dict
import Sentinel.Normalizer.Raw
import Sentinel.Integrity.Scan
import Sentinel.Integrity.StatCache
import Sentinel.Integrity.Walk
import Sentinel.Integrity.Reach
import Sentinel.Integrity.Seeds
import Sentinel.Library.JoinedText
import Sentinel.Library.PyText
import Sentinel.Normalizer.Mapper
import Sentinel.Normalizer.Identity
import Sentinel.Library.Calendar
import Sentinel.Library.Regex
import Sentinel.AuthLog.Parser
import Sentinel.Library.Numbering
import Sentinel.AuthLog.Collector
import Sentinel.AuthLog.Exceptions
import Sentinel.AuthLog.Occurrences
import Sentinel.AuthLog.Tail
import Sentinel.AuthLog.Rotation
import Sentinel.AuthLog.Restart
import Sentinel.AuthLog.Failures
import Sentinel.AuthLog.Passes
import Sentinel.AuthLog.Reread
import Sentinel.AuthLog.StartAtEnd
import Sentinel.Library.Matching
import Sentinel.AuthLog.Header
import Sentinel.AuthLog.Origins
import Sentinel.AuthLog.Messages
import Sentinel.AuthLog.Spoofing
import Sentinel.AuthLog.Hidden
import Sentinel.AuthLog.YearInference
import Sentinel.AuthLog.Cuts
import Sentinel.Alerting.Throttle
import Sentinel.Library.RateLimit
import Sentinel.Alerting.Lanes
import Sentinel.Alerting.Bulkhead
import Sentinel.Runtime.Shutdown
import Sentinel.Library.Poller
import Sentinel.Collectors.Process
import Sentinel.Library.IpAddress
import Sentinel.Collectors.Netparse
import Sentinel.Collectors.Network
import Sentinel.Collectors.Outages
import Sentinel.Collectors.Exec
import Sentinel.Collectors.Stat
import Sentinel.Collectors.Rows
import Sentinel.Collectors.Listeners
import Sentinel.Api.RateLimit
import Sentinel.Library.Keyset
import Sentinel.Storage.Repository
import Sentinel.Api.Pagination
import Sentinel.Runtime.Retention
import Sentinel.Library.PyInt
import Sentinel.Library.IpParse
import Sentinel.Library.Url
import Sentinel.Alerting.Webhook
import Sentinel.Logging
import Sentinel.Library.Alternatives
import Sentinel.Runtime.RulePaths
import Sentinel.Runtime.Pruning
import Sentinel.Pipeline.Drain
import Sentinel.Runtime.System
import Sentinel.Runtime.EndToEnd
import Sentinel.Runtime.Memory
import Sentinel.Library.Backoff
import Sentinel.Pipeline.Supervision
import Sentinel.Api.Security
import Sentinel.Api.Readiness
import Sentinel.Library.SplitOn
import Sentinel.Library.BoundedPattern
import Sentinel.Detection.Loader
import Sentinel.Storage.Columns
import Sentinel.Runtime.Completeness
import Sentinel.Runtime.Flusher
import Sentinel.Runtime.Retries
import Sentinel.Runtime.LastFlush
import Sentinel.Runtime.Stopping
