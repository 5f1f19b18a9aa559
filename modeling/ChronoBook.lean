import ChronoBook.Core.BookLayout
import ChronoBook.Core.SlabPool
import ChronoBook.Library.Linked
import ChronoBook.Library.Priority
import ChronoBook.Core.Order
import ChronoBook.Core.PriceLevel
import ChronoBook.Core.BookUpdate
import ChronoBook.Feed.BinaryProtocol
import ChronoBook.Feed.FeedParser
import ChronoBook.Matching.MatchingEngine
import ChronoBook.Matching.PriceTime
import ChronoBook.Matching.EngineState
import ChronoBook.Matching.EngineSteps
import ChronoBook.Matching.MatchLoop
import ChronoBook.Matching.PriceTimeLaws
import ChronoBook.Matching.EngineSpec
import ChronoBook.Matching.Dispatch
import ChronoBook.Matching.FeedRun
import ChronoBook.Library.Keyed
import ChronoBook.Matching.ReferenceMatcher
import ChronoBook.Matching.ReferenceSpec
import ChronoBook.Library.StableSort
import ChronoBook.Matching.Refinement
import ChronoBook.Matching.BookInvariant
import ChronoBook.Replay.ReplayEngine
import ChronoBook.Replay.ReplayCounters
import ChronoBook.Replay.PoolIndependence
import ChronoBook.Replay.Analytics
import ChronoBook.Matching.Shard
import ChronoBook.Replay.SlotOwnership
import ChronoBook.Matching.Quantities
import ChronoBook.Matching.Conservation
import ChronoBook.Matching.NonInterference
import ChronoBook.Infra.SPSCRingBuffer
import ChronoBook.Infra.RingThreads
import ChronoBook.Matching.SymbolTrace
import ChronoBook.Matching.ShardedEngine
import ChronoBook.Matching.ShardedRun
import ChronoBook.Matching.ShardedStop
import ChronoBook.Matching.ShardedEquivalence
import ChronoBook.Matching.LadderRun
import ChronoBook.Matching.SymbolRouting
import ChronoBook.Matching.SymbolIsolation
import ChronoBook.Journal.FillJournal
import ChronoBook.Replay.RecoveryReconciler
import ChronoBook.Replay.RecoveryReplay
import ChronoBook.Replay.LiveRecovery
import ChronoBook.Journal.JournalSessions
import ChronoBook.Journal.JournalReopening
import ChronoBook.Journal.DurabilityPipeline
import ChronoBook.Journal.PipelineFlow
import ChronoBook.Journal.PipelineRuns
import ChronoBook.Journal.PipelineDurability
import ChronoBook.Journal.PipelineStop
import ChronoBook.Journal.PipelineProgress
import ChronoBook.Library.Tally
import ChronoBook.Store.ConnectionPool
import ChronoBook.Store.StoreSessions
import ChronoBook.Store.SQLiteStore
import ChronoBook.Library.Waterfall
import ChronoBook.Matching.Waterfall
import ChronoBook.Matching.LoopSafety
import ChronoBook.Core.Renaming
import ChronoBook.Matching.Twin
import ChronoBook.Matching.DuplicateAdds
import ChronoBook.Infra.RingSizing
import ChronoBook.Library.SlidingWindow
import ChronoBook.Replay.FillRateWindow
import ChronoBook.Core.LevelFifo
import ChronoBook.Core.PoolStorage
import ChronoBook.Journal.JournalBounds
import ChronoBook.Feed.FeedGenerator
import ChronoBook.Library.Recency
import ChronoBook.Store.StatementCache
import ChronoBook.Infra.FutexSemaphore
import ChronoBook.Infra.FutexShutdown
import ChronoBook.Library.Runs
import ChronoBook.Library.Monitor
import ChronoBook.Library.Signals
import ChronoBook.Infra.ThreadSafeQueue
import ChronoBook.Infra.CvSemaphore
import ChronoBook.Infra.PortableSemaphore
import ChronoBook.Infra.Eventcount
import ChronoBook.Library.Progress
import ChronoBook.Infra.QueueHandoff
import ChronoBook.Replay.ProducerConsumer
import ChronoBook.Matching.Relabelling
import ChronoBook.Matching.UntradedOrders
import ChronoBook.Replay.Lifetimes
import ChronoBook.Matching.AssignedSymbols
import ChronoBook.Replay.GeneratedReplay
import ChronoBook.Matching.CoreOrders
import ChronoBook.Library.Welford
import ChronoBook.Replay.TrackerStatistics
import ChronoBook.Store.StoreTransactions
