import FundingRadar.Dict
import FundingRadar.Loops
import FundingRadar.Json
import FundingRadar.FundingData
import FundingRadar.Sorting
import FundingRadar.Rounding
import FundingRadar.ExpiringStore
import FundingRadar.Normalizer
import FundingRadar.Arbitrage
import FundingRadar.Symbols
import FundingRadar.Hyperliquid
import FundingRadar.Extended
import FundingRadar.Pacifica
import FundingRadar.Aster
import FundingRadar.AsterFreshness
import FundingRadar.RateCoherence
import FundingRadar.WebSocketManager
import FundingRadar.TokenKeys
import FundingRadar.Users
import FundingRadar.Payment
import FundingRadar.TierCache
import FundingRadar.UnitOfWork
import FundingRadar.Tables
import FundingRadar.Persistence
import FundingRadar.PersistenceOutcome
import FundingRadar.Metering
import FundingRadar.RateLimiter
import FundingRadar.ScriptCache
import FundingRadar.Simulator
import FundingRadar.FundingAggregator
import FundingRadar.LastWriter
import FundingRadar.Recalculation
import FundingRadar.BackfillHistory
import FundingRadar.Paging
import FundingRadar.HistoryPaging
import FundingRadar.HistoryCoverage
import FundingRadar.Backfill
import FundingRadar.CacheAside
import FundingRadar.Notifications
import FundingRadar.AlertEligibility
import FundingRadar.KeyRotation
import FundingRadar.Paywall
import FundingRadar.Redelivery
import FundingRadar.SymbolKeys
import FundingRadar.SlidingWindow
import FundingRadar.Runs
import FundingRadar.RequestBudget
import FundingRadar.CollectorRegistry
import FundingRadar.KeyedCells
import FundingRadar.ClientIsolation
import FundingRadar.RegistryCalls
import FundingRadar.Channels
import FundingRadar.TokenKinds
import FundingRadar.FundingRates
import FundingRadar.TelegramBot
import FundingRadar.AlertDelivery
import FundingRadar.Lease
import FundingRadar.AlertThrottle
import FundingRadar.SimulatorLedger
import FundingRadar.HistoricalRanking
import FundingRadar.ArbitrageList
import FundingRadar.EntryIsolation
import FundingRadar.JsonOperators
import FundingRadar.UntypedPipeline
import FundingRadar.MessageTyping
import FundingRadar.MessageHandling
import FundingRadar.WriteBuffer
import FundingRadar.RateTables
import FundingRadar.BackfillBatches
import FundingRadar.QuoteStripping
import FundingRadar.BucketExpiry
import FundingRadar.Reconnection
import FundingRadar.CollectorConfigs
import FundingRadar.ActivePerpetuals
import FundingRadar.ExtendedRecovery
import FundingRadar.MessageLoop
import FundingRadar.Broadcast
import FundingRadar.Subscriptions
import FundingRadar.RedisBridge
import FundingRadar.FundingBus
import FundingRadar.Followers
import FundingRadar.LiveData
import FundingRadar.Renewals
import FundingRadar.RecalculationCadence
import FundingRadar.Semaphore
import FundingRadar.BackfillPool
import FundingRadar.Grouping
import FundingRadar.RateHistory
import FundingRadar.Accounts
import FundingRadar.Listings
import FundingRadar.Catalogue
import FundingRadar.RegistryShutdown
import FundingRadar.DatedWrites
import FundingRadar.ServedAges
import FundingRadar.StreamLifetimes
import FundingRadar.Billing
import FundingRadar.BotReports
