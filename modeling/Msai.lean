import Msai.Lib.Transition
import Msai.Lib.KeyValue
import Msai.Lib.GroupStream
import Msai.Lib.LastWrite
import Msai.Lib.PyJson
import Msai.Lib.LockOrder
import Msai.Lib.OnceBetween
import Msai.Lib.RateLimit
import Msai.Lib.PyText
import Msai.Lib.PySearch
import Msai.Lib.Ranking
import Msai.Lib.IndexedFold
import Msai.Lib.Grouping
import Msai.Lib.Moments
import Msai.Lib.Dict
import Msai.Lib.PyFloat
import Msai.Lib.Calendar
import Msai.Lib.Binary64
import Msai.Lib.Runs
import Msai.Lib.KeepLast
import Msai.Lib.PyDate
import Msai.Lib.Base64
import Msai.Lib.PyBytes
import Msai.Lib.JsonLoads
import Msai.Lib.PyInt
import Msai.Live.FailureKind
import Msai.Live.Idempotency
import Msai.Live.CommandBus.Model
import Msai.Live.CommandBus.DeadLetter
import Msai.Live.CommandBus.Delivery
import Msai.Live.DataFreshness
import Msai.Live.HaltKeys
import Msai.Live.DataStaleMonitor
import Msai.Live.FalseHalt
import Msai.Live.StaleFeeds
import Msai.Live.OrderAudit
import Msai.Live.ResumeScript
import Msai.Supervisor.Rows
import Msai.Supervisor.RestartPolicy
import Msai.Supervisor.RowWrites
import Msai.Supervisor.Transactions
import Msai.Supervisor.Table
import Msai.Supervisor.Gateway
import Msai.Supervisor.Spawn
import Msai.Supervisor.ReservedRow
import Msai.Supervisor.Restart
import Msai.Supervisor.Fleet
import Msai.Supervisor.OneChild
import Msai.Supervisor.OperatorStop
import Msai.Supervisor.LastRow
import Msai.Supervisor.LateChild
import Msai.Supervisor.LockOrder
import Msai.Supervisor.StaleSweep
import Msai.Supervisor.Reaper
import Msai.Api.KillAll
import Msai.Api.StopRequests
import Msai.Api.DataHealth
import Msai.Api.DeploymentStatus
import Msai.Api.ReleaseReadiness
import Msai.Api.BrokerAccounts
import Msai.Api.BrokerCredentials
import Msai.Api.CredentialEffects
import Msai.Api.NeverDangling
import Msai.Api.AccountMode
import Msai.Api.Resume
import Msai.Gateway.Watchdog
import Msai.Projection.Events
import Msai.Projection.Stream
import Msai.Projection.State
import Msai.Projection.PositionReader
import Msai.Projection.Consumer
import Msai.Portfolio.Composition
import Msai.Portfolio.Revision
import Msai.Portfolio.Active
import Msai.Portfolio.Identity
import Msai.Portfolio.RunLifecycle
import Msai.Analytics.Series
import Msai.Analytics.AlphaBeta
import Msai.Analytics.Payload
import Msai.Portfolio.Leverage
import Msai.Portfolio.Optimizer
import Msai.Portfolio.Allocators
import Msai.Portfolio.Trial
import Msai.Portfolio.FullMode
import Msai.Portfolio.WalkForward
import Msai.Instruments.Aliases
import Msai.Instruments.LiveResolver
import Msai.Instruments.AliasHistory
import Msai.Instruments.TradingHours
import Msai.Onboarding.StorageKey
import Msai.Catalog.Builder
import Msai.MarketData.PartitionIndex
import Msai.MarketData.Coverage
import Msai.MarketData.CoverageRuns
import Msai.MarketData.ParquetStore
import Msai.Jobs.JobWatchdog
import Msai.Jobs.NightlyIngest
import Msai.Jobs.AutoHealLock
import Msai.Jobs.ComputeSlots
import Msai.Research.Graduation
import Msai.Research.Sweep
import Msai.Research.Selection
import Msai.Research.Halving
import Msai.Research.Holdout
import Msai.Research.WalkForward
import Msai.Risk.RiskAwareStrategy
import Msai.Risk.HaltGate
import Msai.Risk.PositionCap
import Msai.Risk.ExposureCap
import Msai.Instruments.ExtendedHours
import Msai.Supervisor.PayloadFactory
import Msai.Instruments.BacktestResolver
import Msai.Live.TradePnl
import Msai.Api.ReportToken
import Msai.Api.Redaction
import Msai.Api.AlertHistory
import Msai.Portfolio.Persisted
import Msai.Gateway.Router
import Msai.Parity.Intents
import Msai.Instruments.FuturesId
import Msai.Instruments.FrontMonth
import Msai.Supervisor.SymbologyShim
import Msai.Supervisor.FeedMap
import Msai.Lib.JsonKey
import Msai.Research.CacheKey
import Msai.Lib.Lease
import Msai.Smoke.IngestLock
import Msai.Strategies.Registry
import Msai.Live.DisconnectHandler
import Msai.Lib.Reminder
import Msai.Supervisor.FleetAlerts
import Msai.Gateway.AccountSnapshot
import Msai.Lib.JsonObject
import Msai.Live.DeploymentIdentity
import Msai.Live.StartPortfolio
import Msai.Lib.Tokens
import Msai.Live.SnapshotBinding
import Msai.Onboarding.Run
import Msai.Backtests.Failure
import Msai.Backtests.Job
