import CryptoTrader.Lib.Base64
import CryptoTrader.Lib.Crc
import CryptoTrader.Lib.FloatRound
import CryptoTrader.Lib.FormUrl
import CryptoTrader.Lib.Interleave
import CryptoTrader.Lib.LossyChannel
import CryptoTrader.Lib.Machine
import CryptoTrader.Lib.Monitor
import CryptoTrader.Lib.OrdMap
import CryptoTrader.Lib.StableSort
import CryptoTrader.Lib.StreamDecoder
import CryptoTrader.Lib.Worker
import CryptoTrader.Proofs.Accounting
import CryptoTrader.Proofs.AdapterReady
import CryptoTrader.Proofs.AddOrder
import CryptoTrader.Proofs.ArrivalOrder
import CryptoTrader.Proofs.BookRing
import CryptoTrader.Proofs.ChangeSets
import CryptoTrader.Proofs.EntriesGroup
import CryptoTrader.Proofs.ExchangeLevels
import CryptoTrader.Proofs.ExchangeWindow
import CryptoTrader.Proofs.ExitCode
import CryptoTrader.Proofs.FatalReport
import CryptoTrader.Proofs.FixConversation
import CryptoTrader.Proofs.FixCorruption
import CryptoTrader.Proofs.FixGrammar
import CryptoTrader.Proofs.FixLoop
import CryptoTrader.Proofs.FixReading
import CryptoTrader.Proofs.FixRoundTrip
import CryptoTrader.Proofs.FramerBounds
import CryptoTrader.Proofs.FramerChunks
import CryptoTrader.Proofs.JournalBarrier
import CryptoTrader.Proofs.JournalCut
import CryptoTrader.Proofs.JournalDamage
import CryptoTrader.Proofs.JournalPaths
import CryptoTrader.Proofs.JournalReaders
import CryptoTrader.Proofs.KrakenBlocks
import CryptoTrader.Proofs.KrakenCertified
import CryptoTrader.Proofs.KrakenPacing
import CryptoTrader.Proofs.KrakenWindow
import CryptoTrader.Proofs.L2Fits
import CryptoTrader.Proofs.L2Sequenced
import CryptoTrader.Proofs.L3Consistent
import CryptoTrader.Proofs.L3PriceTime
import CryptoTrader.Proofs.LevelListener
import CryptoTrader.Proofs.LiveBooks
import CryptoTrader.Proofs.LossyPath
import CryptoTrader.Proofs.MarketDataRoundTrip
import CryptoTrader.Proofs.NonceOrder
import CryptoTrader.Proofs.Noninterference
import CryptoTrader.Proofs.PairNames
import CryptoTrader.Proofs.Reconnect
import CryptoTrader.Proofs.RecordReplay
import CryptoTrader.Proofs.ScaleExact
import CryptoTrader.Proofs.SequenceBreak
import CryptoTrader.Proofs.SequenceLedger
import CryptoTrader.Proofs.SharedScale
import CryptoTrader.Proofs.Shutdown
import CryptoTrader.Proofs.SignedRequests
import CryptoTrader.Proofs.SinkBlocks
import CryptoTrader.Proofs.StopSignal
import CryptoTrader.Proofs.SymbolSplice
import CryptoTrader.Proofs.ThreadedJournal
import CryptoTrader.Proofs.TopOfBook
import CryptoTrader.Proofs.UndroppedBooks
import CryptoTrader.Sanity.AdapterRun
import CryptoTrader.Sanity.BookService
import CryptoTrader.Sanity.CaptureSession
import CryptoTrader.Sanity.ConfigFile
import CryptoTrader.Sanity.Decimal
import CryptoTrader.Sanity.Engine
import CryptoTrader.Sanity.FeedHandler
import CryptoTrader.Sanity.FeedReplay
import CryptoTrader.Sanity.FixClient
import CryptoTrader.Sanity.FixConversation
import CryptoTrader.Sanity.FixGroup
import CryptoTrader.Sanity.FixMessage
import CryptoTrader.Sanity.Journal
import CryptoTrader.Sanity.JournalNames
import CryptoTrader.Sanity.JournalQueue
import CryptoTrader.Sanity.JournalSync
import CryptoTrader.Sanity.JournalText
import CryptoTrader.Sanity.JournalThread
import CryptoTrader.Sanity.KrakenBatch
import CryptoTrader.Sanity.KrakenSigning
import CryptoTrader.Sanity.L3Rep
import CryptoTrader.Sanity.MarketData
import CryptoTrader.Sanity.Recorder
import CryptoTrader.Sanity.RecorderFiles
import CryptoTrader.Sanity.SymbolBook
import CryptoTrader.Sanity.Window
import CryptoTrader.Spec.Adapter
import CryptoTrader.Spec.AssetPairs
import CryptoTrader.Spec.BookService
import CryptoTrader.Spec.BookWiring
import CryptoTrader.Spec.CaptureProcess
import CryptoTrader.Spec.CaptureSession
import CryptoTrader.Spec.ConfigFile
import CryptoTrader.Spec.DeribitFeed
import CryptoTrader.Spec.DoubleScale
import CryptoTrader.Spec.Engine
import CryptoTrader.Spec.Exchange
import CryptoTrader.Spec.FatalReport
import CryptoTrader.Spec.Feed
import CryptoTrader.Spec.FeedConfig
import CryptoTrader.Spec.FeedHandler
import CryptoTrader.Spec.FixBooks
import CryptoTrader.Spec.FixBuild
import CryptoTrader.Spec.FixClient
import CryptoTrader.Spec.FixConversation
import CryptoTrader.Spec.FixGrammar
import CryptoTrader.Spec.FixMessage
import CryptoTrader.Spec.FixReconnect
import CryptoTrader.Spec.FixSession
import CryptoTrader.Spec.Framer
import CryptoTrader.Spec.Journal
import CryptoTrader.Spec.JournalReplay
import CryptoTrader.Spec.JournalSlice
import CryptoTrader.Spec.JournalSync
import CryptoTrader.Spec.KrakenClient
import CryptoTrader.Spec.KrakenFeed
import CryptoTrader.Spec.KrakenL3
import CryptoTrader.Spec.KrakenRest
import CryptoTrader.Spec.KrakenSigning
import CryptoTrader.Spec.L1
import CryptoTrader.Spec.L2
import CryptoTrader.Spec.L2Asserts
import CryptoTrader.Spec.L3
import CryptoTrader.Spec.L3Policy
import CryptoTrader.Spec.MarketData
import CryptoTrader.Spec.Mirror
import CryptoTrader.Spec.Nonce
import CryptoTrader.Spec.PriceTime
import CryptoTrader.Spec.Recorder
import CryptoTrader.Spec.StopSignal
import CryptoTrader.Spec.Types
import CryptoTrader.Spec.Wire
