import Smppd.Lib.Machine
import Smppd.Lib.Prog
import Smppd.Lib.Select
import Smppd.Lib.Table
import Smppd.Lib.Tokens
import Smppd.Lib.Binary64
import Smppd.Lib.Broadcast
import Smppd.Lib.Watch
import Smppd.Lib.Transducer
import Smppd.Lib.Fallible
import Smppd.Lib.Rank
import Smppd.Lib.Weigh
import Smppd.Lib.Numerals
import Smppd.Store.Types
import Smppd.Store.Memory
import Smppd.Store.Retention
import Smppd.Store.Persistent
import Smppd.Store.StateIndex
import Smppd.Store.ConcurrentUpdate
import Smppd.Store.Trait
import Smppd.Store.Query
import Smppd.Store.Contents
import Smppd.Store.Chances
import Smppd.Store.Listings
import Smppd.Store.RetryQueue
import Smppd.Store.Expiry
import Smppd.Store.Lifetime
import Smppd.Store.Accounting
import Smppd.Store.RetryIndex
import Smppd.Store.Recovery
import Smppd.Store.Feedback
import Smppd.Store.Decisions
import Smppd.Gateway.Calls
import Smppd.Forwarder.Processor
import Smppd.Forwarder.Retry
import Smppd.Forwarder.Dlr
import Smppd.Forwarder.RetryBound
import Smppd.Forwarder.Ownership
import Smppd.Forwarder.Terminal
import Smppd.Forwarder.Correlation
import Smppd.Forwarder.ReceiptRace
import Smppd.Forwarder.FirstReceipt
import Smppd.Forwarder.ReceiptIds
import Smppd.Config.Types
import Smppd.Config.Loader
import Smppd.Filter.Auth
import Smppd.Bootstrap.Events
import Smppd.Listener.Registry
import Smppd.Plugins.Loader
import Smppd.Plugins.Manager
import Smppd.Router.Pricing
import Smppd.Listener.Session
import Smppd.Listener.Dispatch
import Smppd.Listener.Acceptor
import Smppd.Listener.Drain
import Smppd.Listener.Idle
import Smppd.Pipeline.Processors
import Smppd.Pipeline.System
import Smppd.Pipeline.Discipline
import Smppd.Pipeline.Responses
import Smppd.Pipeline.Identity
import Smppd.Pipeline.Critical
import Smppd.Router.Matcher
import Smppd.Router.Router
import Smppd.Router.Selection
import Smppd.Router.FullContext
import Smppd.Cluster.Clusters
import Smppd.Cluster.CircuitBreaker
import Smppd.Cluster.BreakerRace
import Smppd.Cluster.Pool
import Smppd.Cluster.Endpoint
import Smppd.Cluster.Health
import Smppd.Cluster.Traffic
import Smppd.Cluster.Recovery
import Smppd.Cluster.Attempts
import Smppd.Bootstrap.State
import Smppd.Bootstrap.Server
import Smppd.Bootstrap.Shutdown
import Smppd.Bootstrap.Worker
import Smppd.Bootstrap.Graceful
import Smppd.Firewall.Types
import Smppd.Firewall.Engine
import Smppd.Firewall.Meaning
import Smppd.Firewall.LogRules
import Smppd.Firewall.Decider
import Smppd.Firewall.Rates
import Smppd.Filter.Firewall
import Smppd.Filter.Verdict
import Smppd.Store.Delivery
import Smppd.Store.ScheduleIndex
import Smppd.Filter.RateLimit
import Smppd.Filter.RateRace
import Smppd.Filter.Polling
import Smppd.Filter.Chain
import Smppd.Filter.Esme
import Smppd.Filter.EsmeIndex
import Smppd.Filter.EsmeQuota
import Smppd.Store.Latencies
import Smppd.Filter.EsmeLocks
import Smppd.Cdr.Types
import Smppd.Cdr.Writer
import Smppd.Cdr.Content
import Smppd.Store.Cdrs
import Smppd.Lib.Cycle
import Smppd.Router.Split
import Smppd.Cluster.Balancers
import Smppd.Cluster.TwoChoices
import Smppd.Cluster.Affinity
import Smppd.Cluster.Weights
import Smppd.Cluster.Totality
import Smppd.Cluster.HashRing
import Smppd.Store.History
import Smppd.Store.Payload
import Smppd.Forwarder.Resend
import Smppd.Forwarder.Backoff
import Smppd.Forwarder.Answers
import Smppd.Lib.Heap
import Smppd.Store.DueOrder
import Smppd.Store.ScheduleLimits
import Smppd.Store.Recurrence
import Smppd.Filter.International
import Smppd.Filter.Priorities
import Smppd.Filter.RuleTree
import Smppd.Filter.FirewallFilter
import Smppd.Lib.Windows
import Smppd.Filter.Nights
import Smppd.Firewall.TimeWindows
import Smppd.Firewall.Actions
import Smppd.Firewall.ClockTexts
import Smppd.Lib.Record
import Smppd.Store.Runner
import Smppd.Store.RunnerDelivery
import Smppd.Lib.CheckThenAct
import Smppd.Store.ScheduleRace
import Smppd.Lib.LockedThreads
import Smppd.Telemetry.Readiness
import Smppd.Lib.Places
import Smppd.Pipeline.Rule
import Smppd.Pipeline.Lifecycle
import Smppd.Pipeline.Unretried
import Smppd.Lib.Recent
import Smppd.Cdr.Processor
import Smppd.Store.AuditLogs
import Smppd.Lib.Replace
import Smppd.Config.FileStore
import Smppd.Bootstrap.Reactor
import Smppd.Listener.Pending
import Smppd.Store.Agreement
import Smppd.Config.MemoryStore
