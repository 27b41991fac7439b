import AlphaAlgo.Lib.Runs
import AlphaAlgo.Lib.Rounding
import AlphaAlgo.Lib.Decimal
import AlphaAlgo.Lib.Number
import AlphaAlgo.Lib.Json
import AlphaAlgo.Lib.Sha256
import AlphaAlgo.Lib.GroupBy
import AlphaAlgo.Base.Values
import AlphaAlgo.Execution.Lifecycle
import AlphaAlgo.Execution.Events
import AlphaAlgo.Execution.OrderRuns
import AlphaAlgo.Lib.Table
import AlphaAlgo.Execution.Identity
import AlphaAlgo.Execution.Repository
import AlphaAlgo.Execution.Engine
import AlphaAlgo.Execution.Stream
import AlphaAlgo.Execution.Submission
import AlphaAlgo.Execution.Outcomes
import AlphaAlgo.Execution.Agreement
import AlphaAlgo.Lib.Pool
import AlphaAlgo.Oms.Cancellation
import AlphaAlgo.Oms.Creation
import AlphaAlgo.Oms.CreateRuns
import AlphaAlgo.Oms.Trail
import AlphaAlgo.Execution.Interleaving
import AlphaAlgo.Execution.SubmitInterleaving
import AlphaAlgo.Position.Arithmetic
import AlphaAlgo.Position.Store
import AlphaAlgo.Position.Engine
import AlphaAlgo.Position.Runs
import AlphaAlgo.Position.Interleaving
import AlphaAlgo.Pnl.Engine
import AlphaAlgo.Pnl.Balance
import AlphaAlgo.Reconciliation.Discrepancy
import AlphaAlgo.Reconciliation.Matching
import AlphaAlgo.Reconciliation.Pairing
import AlphaAlgo.Reconciliation.Positions
import AlphaAlgo.Reconciliation.Engine
import AlphaAlgo.Lib.Sha1
import AlphaAlgo.Paper.Costs
import AlphaAlgo.Paper.Book
import AlphaAlgo.Paper.BookRuns
import AlphaAlgo.Paper.Service
import AlphaAlgo.Paper.Runs
import AlphaAlgo.Lib.Outbox
import AlphaAlgo.Risk.Breaker
import AlphaAlgo.Risk.Release
import AlphaAlgo.Risk.Rules
import AlphaAlgo.Risk.Acceptable
import AlphaAlgo.Risk.Tightening
import AlphaAlgo.Risk.Context
import AlphaAlgo.Risk.Service
import AlphaAlgo.Risk.ServiceRuns
import AlphaAlgo.Trading.Orchestrator
import AlphaAlgo.Trading.Runs
import AlphaAlgo.Lib.Loop
import AlphaAlgo.Lib.Fifo
import AlphaAlgo.Backtest.Records
import AlphaAlgo.Backtest.Quality
import AlphaAlgo.Backtest.Fills
import AlphaAlgo.Backtest.Anchors
import AlphaAlgo.Backtest.Ledger
import AlphaAlgo.Backtest.Engine
import AlphaAlgo.Backtest.Runs
import AlphaAlgo.Backtest.Realized
import AlphaAlgo.Backtest.Lookahead
import AlphaAlgo.Backtest.Portfolio
import AlphaAlgo.Backtest.PortfolioRuns
import AlphaAlgo.Backtest.Budget
import AlphaAlgo.Backtest.Single
import AlphaAlgo.Backtest.Order
import AlphaAlgo.Broker.Events
import AlphaAlgo.Broker.Updates
import AlphaAlgo.Broker.Streams
import AlphaAlgo.Signal.Signals
import AlphaAlgo.Signal.Engine
import AlphaAlgo.Signal.Runs
import AlphaAlgo.Signal.Retries
import AlphaAlgo.Observability.Audit
import AlphaAlgo.Market.Queue
import AlphaAlgo.Events.Bus
import AlphaAlgo.Broker.Connection
import AlphaAlgo.Broker.Orders
import AlphaAlgo.Lib.Keyset
import AlphaAlgo.Market.Contracts
import AlphaAlgo.Market.Historical
import AlphaAlgo.Lib.Limits
import AlphaAlgo.Lib.Lru
import AlphaAlgo.Market.Normalize
import AlphaAlgo.Market.Ingest
import AlphaAlgo.Market.IngestRuns
import AlphaAlgo.Lib.Dict
import AlphaAlgo.Strategy.Instance
import AlphaAlgo.Strategy.Runtime
import AlphaAlgo.Strategy.Copies
import AlphaAlgo.Strategy.Dispatch
import AlphaAlgo.Strategy.Failures
import AlphaAlgo.Strategy.Placement
import AlphaAlgo.Strategy.Outcomes
import AlphaAlgo.Api.Auth
import AlphaAlgo.Observability.Alerts
import AlphaAlgo.Reconciliation.Netting
import AlphaAlgo.Base.Instants
import AlphaAlgo.Pnl.Replay
import AlphaAlgo.Paper.Positions
import AlphaAlgo.Pnl.Aggregation
import AlphaAlgo.Paper.Adapter
import AlphaAlgo.Paper.Preflight
import AlphaAlgo.Backtest.Pricing
import AlphaAlgo.Backtest.Drawdown
import AlphaAlgo.Backtest.Matchings
import AlphaAlgo.Backtest.Report
import AlphaAlgo.Lib.Coverage
import AlphaAlgo.Backtest.WalkForward
import AlphaAlgo.Base.Plain
import AlphaAlgo.Lib.Joined
import AlphaAlgo.Signal.Identity
import AlphaAlgo.Backtest.Hashing
import AlphaAlgo.Backtest.RunIdentity
import AlphaAlgo.Lib.JsonRead
import AlphaAlgo.Backtest.RunStore
import AlphaAlgo.Backtest.Excursions
import AlphaAlgo.Backtest.MonteCarlo
import AlphaAlgo.Portfolio.Aggregation
import AlphaAlgo.Portfolio.Consistency
import AlphaAlgo.Broker.Responses
import AlphaAlgo.Broker.Statuses
import AlphaAlgo.Broker.PushedRows
import AlphaAlgo.Broker.Snapshots
import AlphaAlgo.Broker.RateLimit
import AlphaAlgo.Lib.Recency
import AlphaAlgo.Strategy.Duplicates
import AlphaAlgo.Lib.Firsts
import AlphaAlgo.Strategy.Acceptance
import AlphaAlgo.Lib.Causal
import AlphaAlgo.Indicators.MovingAverage
import AlphaAlgo.Strategy.SmaCross
import AlphaAlgo.Lib.Tails
import AlphaAlgo.Backtest.Var
import AlphaAlgo.Backtest.AlphaBeta
import AlphaAlgo.Lib.Bisect
import AlphaAlgo.Observability.Metrics
import AlphaAlgo.Lib.Sliding
import AlphaAlgo.Api.RateLimit
import AlphaAlgo.Events.Secrets
import AlphaAlgo.Observability.Redaction
import AlphaAlgo.Lib.JsonText
import AlphaAlgo.Observability.AuditTrail
import AlphaAlgo.Observability.Tracing
import AlphaAlgo.Lib.Base64
import AlphaAlgo.Lib.Binary
import AlphaAlgo.Lib.Hmac
import AlphaAlgo.Lib.JsonBytes
import AlphaAlgo.Api.Tokens
import AlphaAlgo.Lib.Tally
import AlphaAlgo.Risk.Bookkeeping
import AlphaAlgo.Market.Connection
import AlphaAlgo.Lib.FirstWins
import AlphaAlgo.Lib.Columns
import AlphaAlgo.Portfolio.Snapshots
import AlphaAlgo.Pnl.Valuation
import AlphaAlgo.Pnl.Snapshots
import AlphaAlgo.Backtest.Latency
import AlphaAlgo.Lib.Product
import AlphaAlgo.Backtest.GridSearch
import AlphaAlgo.Client.WebSocket
import AlphaAlgo.Client.WsClient
import AlphaAlgo.Execution.Guard
import AlphaAlgo.Backtest.Buckets
import AlphaAlgo.Lib.Segments
import AlphaAlgo.Base.Dates
import AlphaAlgo.Backtest.RoundTrips
import AlphaAlgo.Backtest.Statistics
import AlphaAlgo.Backtest.BuildReport
import AlphaAlgo.Lib.Streaks
