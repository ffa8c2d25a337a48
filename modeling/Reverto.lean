import Reverto.Backtest.Accounts
import Reverto.Backtest.BacktestEngine
import Reverto.Backtest.BacktestReport
import Reverto.Backtest.FillRange
import Reverto.Backtest.FormingCandles
import Reverto.Backtest.LookAhead
import Reverto.Backtest.MethodRules
import Reverto.Backtest.PointerWalk
import Reverto.Backtest.ReportedBalance
import Reverto.Config.Models
import Reverto.Core.AccountBlobs
import Reverto.Core.Accounting
import Reverto.Core.BackupRetention
import Reverto.Core.BareDeals
import Reverto.Core.CandleCache
import Reverto.Core.CandleSupply
import Reverto.Core.CircuitBreaker
import Reverto.Core.ClockMonitor
import Reverto.Core.CredentialCalls
import Reverto.Core.CredentialRaces
import Reverto.Core.Credentials
import Reverto.Core.Database
import Reverto.Core.DealCodec
import Reverto.Core.DealLadder
import Reverto.Core.DealStore
import Reverto.Core.DrawdownGuard
import Reverto.Core.DrawdownTrace
import Reverto.Core.EngineLife
import Reverto.Core.EngineOps
import Reverto.Core.EngineState
import Reverto.Core.EngineSteps
import Reverto.Core.ExchangeAccountStore
import Reverto.Core.FileLock
import Reverto.Core.InversePerpMath
import Reverto.Core.KeyRotation
import Reverto.Core.LadderOpenings
import Reverto.Core.LadderReach
import Reverto.Core.LadderSize
import Reverto.Core.LedgerAgreement
import Reverto.Core.LedgerIsolation
import Reverto.Core.LedgerOps
import Reverto.Core.LedgerReplay
import Reverto.Core.LedgerTables
import Reverto.Core.LifetimeTotals
import Reverto.Core.LinkTokens
import Reverto.Core.LiquidationGuard
import Reverto.Core.LiquidationWarnings
import Reverto.Core.ManualSnapshots
import Reverto.Core.MinimumProfit
import Reverto.Core.MonitorRounds
import Reverto.Core.MonitorSafety
import Reverto.Core.NextOpening
import Reverto.Core.NotifyQueue
import Reverto.Core.OffSwitches
import Reverto.Core.OrderFunding
import Reverto.Core.PortfolioStore
import Reverto.Core.PriceFeed
import Reverto.Core.PriceGuard
import Reverto.Core.RateBudget
import Reverto.Core.RestartTransparency
import Reverto.Core.RotatedSecrets
import Reverto.Core.RotationLock
import Reverto.Core.ScheduleGuard
import Reverto.Core.SchemaBackups
import Reverto.Core.SchemaBoots
import Reverto.Core.SchemaMigration
import Reverto.Core.SnapshotHours
import Reverto.Core.SnapshotIsolation
import Reverto.Core.SnapshotScheduler
import Reverto.Core.StopEvaluation
import Reverto.Core.TargetPrices
import Reverto.Core.TelegramConfigStore
import Reverto.Core.TradingEngine
import Reverto.Core.TrailingStop
import Reverto.Core.UserStore
import Reverto.Core.WickTakeProfit
import Reverto.Exchanges.OrderRetries
import Reverto.Exchanges.PublicExchange
import Reverto.Lib.AuthCipher
import Reverto.Lib.CursorPages
import Reverto.Lib.Decimal
import Reverto.Lib.Drawdown
import Reverto.Lib.Histories
import Reverto.Lib.IndexScan
import Reverto.Lib.KeyedDict
import Reverto.Lib.LastOfKey
import Reverto.Lib.LockFile
import Reverto.Lib.Machine
import Reverto.Lib.Program
import Reverto.Lib.RenewalTimes
import Reverto.Lib.Resume
import Reverto.Lib.ScriptArray
import Reverto.Lib.SeriesLoop
import Reverto.Lib.SlidingWindow
import Reverto.Lib.Smoothing
import Reverto.Lib.TempRename
import Reverto.Lib.TextLines
import Reverto.Lib.Timeline
import Reverto.Lib.TokenBucket
import Reverto.Lib.Triples
import Reverto.Lib.TtlCache
import Reverto.Lib.WeightedMean
import Reverto.Live.LiveEngine
import Reverto.Live.OrderReconciliation
import Reverto.Live.PauseFlag
import Reverto.Ml.CandleLoader
import Reverto.Ml.LoaderCache
import Reverto.Notifications.Telegram
import Reverto.Paper.CancelledDeals
import Reverto.Paper.CloseHandler
import Reverto.Paper.ConcurrentClose
import Reverto.Paper.PaperState
import Reverto.Paper.StateCrash
import Reverto.Paper.StateFiles
import Reverto.Paper.StateIO
import Reverto.Scripts.MigrateToUserFs
import Reverto.Scripts.ParityCompare
import Reverto.Scripts.WipeDeals
import Reverto.Strategies.Ema
import Reverto.Strategies.IndicatorDispatch
import Reverto.Strategies.IndicatorEngine
import Reverto.Strategies.Macd
import Reverto.Strategies.MarketStructure
import Reverto.Strategies.ParabolicSar
import Reverto.Strategies.Qfl
import Reverto.Strategies.Rsi
import Reverto.Strategies.RsiLaws
import Reverto.Strategies.Supertrend
import Reverto.Strategies.SupportResistance
import Reverto.Web.AlertRouting
import Reverto.Web.AuthRoutes
import Reverto.Web.AuthSteps
import Reverto.Web.AutoRestart
import Reverto.Web.BacktestAgreement
import Reverto.Web.BacktestCandles
import Reverto.Web.BacktestLines
import Reverto.Web.BotPurge
import Reverto.Web.BotQuota
import Reverto.Web.BotSlugs
import Reverto.Web.BrowserLookAhead
import Reverto.Web.CandlePages
import Reverto.Web.CandleRanges
import Reverto.Web.CandleWalk
import Reverto.Web.CandlesBudget
import Reverto.Web.ChartModule
import Reverto.Web.ClosePaths
import Reverto.Web.ClosedHistory
import Reverto.Web.DealEdits
import Reverto.Web.DrawdownReset
import Reverto.Web.EngineExits
import Reverto.Web.EntryAgreement
import Reverto.Web.EpochRevocation
import Reverto.Web.FactorThrottle
import Reverto.Web.FeedFreshness
import Reverto.Web.FeedIsolation
import Reverto.Web.LogStreams
import Reverto.Web.LogTail
import Reverto.Web.OfflineCloses
import Reverto.Web.OneTimeCodes
import Reverto.Web.Portal
import Reverto.Web.PortfolioHistory
import Reverto.Web.PositionAdvisory
import Reverto.Web.RevertoBacktest
import Reverto.Web.SignalAgreement
import Reverto.Web.SignalArrays
import Reverto.Web.SignalPrefix
import Reverto.Web.StartSlot
import Reverto.Web.StateFeed
import Reverto.Web.TelegramWebhook
import Reverto.Web.UserDirs
import Reverto.Lib.EditLog
import Reverto.Lib.Mirror
