import CryptoTrader.Spec.Wire
import CryptoTrader.Spec.Feed

/-! The book adapter (`book_adapter/book_adapter.h`, `book_adapter.cpp`): one connection,
its books and its counters, and the adapter as the list of its connections. Log lines
and the timing counters are left out. The books' own operations never fault
(`L3Policy`), so the source's `catch` around them is never entered and `applyErrors`
stays zero. -/

namespace CryptoTrader

/-- Kraken's default depth (`book_adapter/book_settings.h`). -/
def kDefaultKrakenDepth : ℕ := 10

structure BookSettings where
  source : FrameSource
  scale : InstrumentScale
  krakenDepth : ℕ
  deriving DecidableEq, Repr

structure ConnectionStats where
  frames : ℕ := 0
  snapshots : ℕ := 0
  updates : ℕ := 0
  updatesBeforeSnapshot : ℕ := 0
  updatesWhileDesynced : ℕ := 0
  framesIgnoredStale : ℕ := 0
  framesUnsupported : ℕ := 0
  parseErrors : ℕ := 0
  applyErrors : ℕ := 0
  drops : ℕ := 0
  connects : ℕ := 0
  disconnects : ℕ := 0
  gaps : ℕ := 0
  checksumMismatches : ℕ := 0
  crossedBooks : ℕ := 0
  unknownOrders : ℕ := 0
  unknownLevels : ℕ := 0
  deriving DecidableEq, Repr

namespace ConnectionStats

/-- `++stats_->issues[issue]`. -/
def countIssue (stats : ConnectionStats) : IntegrityIssue → ConnectionStats
  | .gap => { stats with gaps := stats.gaps + 1 }
  | .checksumMismatch => { stats with checksumMismatches := stats.checksumMismatches + 1 }
  | .crossedBook => { stats with crossedBooks := stats.crossedBooks + 1 }
  | .unknownOrder => { stats with unknownOrders := stats.unknownOrders + 1 }
  | .unknownLevel => { stats with unknownLevels := stats.unknownLevels + 1 }

/-- The adapter's listener: it counts integrity issues and ignores everything else. -/
def listen (stats : ConnectionStats) (calls : List ListenerCall) : ConnectionStats :=
  calls.foldl (fun stats call => match call with
    | .onIntegrityCheckFailed issue => stats.countIssue issue
    | _ => stats) stats

end ConnectionStats

/-- An engine and the adapter's own desync flag. -/
structure AdapterBook (π : Type) where
  book : OrderBook π
  desynced : Bool := false
  deriving DecidableEq

namespace AdapterBook

variable {π Snap Batch : Type} [GranularityPolicy π Snap Batch]

def create (policy : π) : AdapterBook π := ⟨⟨policy, .uninitialized⟩, false⟩

def getReadiness (b : AdapterBook π) : Readiness := if b.desynced then .desynced else b.book.readiness

def isReady (b : AdapterBook π) : Bool := b.getReadiness = .ready

def policy (b : AdapterBook π) : π := b.book.policy

def applySnapshot (b : AdapterBook π) (snap : Snap) : AdapterBook π × List ListenerCall :=
  let (book, calls) := b.book.applySnapshot snap
  (⟨book, false⟩, calls)

def applyBatch (b : AdapterBook π) (batch : Batch) : AdapterBook π × List ListenerCall :=
  let (book, calls) := b.book.applyBatch batch
  ({ b with book }, calls)

def markDesynced (b : AdapterBook π) : AdapterBook π := { b with desynced := true }

end AdapterBook

/-- One connection's books, by symbol. -/
abbrev BookMap (π : Type) := Bytes → Option (AdapterBook π)

namespace BookMap

variable {π : Type}

def empty : BookMap π := fun _ => none

def set (books : BookMap π) (symbol : Bytes) (book : AdapterBook π) : BookMap π :=
  fun s => if s = symbol then some book else books s

def markDesynced (books : BookMap π) (symbol : Bytes) : BookMap π :=
  fun s => if s = symbol then (books s).map .markDesynced else books s

def markAllDesynced (books : BookMap π) : BookMap π := fun s => (books s).map .markDesynced

end BookMap

structure Connection where
  settings : BookSettings
  stats : ConnectionStats := {}
  connectId : ℕ := 0
  stale : Bool := false
  books : BookMap KrakenL3Policy := .empty
  deribitBooks : BookMap UnsequencedL2Policy := .empty

/-- What both feeds' handlers do with one parsed message for a book: a snapshot opens
the book if need be, an update needs a Ready one. -/
structure BookMessage (Snap Batch : Type) where
  symbol : Bytes
  content : EngineCall Snap Batch

section Apply

variable {π Snap Batch : Type} [GranularityPolicy π Snap Batch]

def applySnapshotMessage (fresh : π) (stats : ConnectionStats) (books : BookMap π) (symbol : Bytes) (snap : Snap) :
    ConnectionStats × BookMap π :=
  let (book, calls) := ((books symbol).getD (.create fresh)).applySnapshot snap
  ({ stats with snapshots := stats.snapshots + 1 }.listen calls, books.set symbol book)

def applyUpdateMessage (stats : ConnectionStats) (books : BookMap π) (symbol : Bytes) (batch : Batch) :
    ConnectionStats × BookMap π :=
  let stats := { stats with updates := stats.updates + 1 }
  match books symbol with
  | none => ({ stats with updatesBeforeSnapshot := stats.updatesBeforeSnapshot + 1 }, books)
  | some book =>
    if book.isReady then
      let (book, calls) := book.applyBatch batch
      (stats.listen calls, books.set symbol book)
    else ({ stats with updatesWhileDesynced := stats.updatesWhileDesynced + 1 }, books)

def applyMessage (fresh : π) (state : ConnectionStats × BookMap π) (message : BookMessage Snap Batch) :
    ConnectionStats × BookMap π :=
  match message.content with
  | .snapshot snap => applySnapshotMessage fresh state.1 state.2 message.symbol snap
  | .batch batch => applyUpdateMessage state.1 state.2 message.symbol batch

end Apply

def KrakenL3Message.bookMessage (message : KrakenL3Message) : BookMessage KrakenSnapshot KrakenBatch :=
  ⟨message.symbol,
    if message.isSnapshot then .snapshot ⟨message.snapshot, message.msgMeta⟩
    else .batch ⟨message.orders, message.msgMeta⟩⟩

/-- The message of a parsed FIX frame for a book, if it is one. -/
def DeribitFixBookMessage.bookMessages :
    DeribitFixBookMessage → List (BookMessage UnsequencedL2Snapshot (List L2Update))
  | .ignored => []
  | .snapshot symbol snap => [⟨symbol, .snapshot snap⟩]
  | .update symbol updates => [⟨symbol, .batch updates⟩]

namespace Connection

/-- Updates the connection's counters. -/
def tally (conn : Connection) (count : ConnectionStats → ConnectionStats) : Connection :=
  { conn with stats := count conn.stats }

def markAllDesynced (conn : Connection) : Connection :=
  { conn with books := conn.books.markAllDesynced, deribitBooks := conn.deribitBooks.markAllDesynced }

def onConnect (conn : Connection) (connectId : ℕ) : Connection :=
  { conn with books := .empty, deribitBooks := .empty, connectId, stale := false }.tally
    fun stats => { stats with connects := stats.connects + 1 }

def onDisconnect (conn : Connection) : Connection :=
  { conn with stale := true }.tally fun stats => { stats with disconnects := stats.disconnects + 1 }

def onFramesDropped (conn : Connection) (count : ℕ) : Connection :=
  if count = 0 then conn
  else (conn.tally fun stats => { stats with drops := stats.drops + count }).markAllDesynced

variable {N D : Type} (P : Platform N D)

def onKrakenFrame (conn : Connection) (payload : Bytes) : Connection :=
  match parseKrakenFrame P conn.settings.scale payload with
  | none => (conn.tally fun stats => { stats with parseErrors := stats.parseErrors + 1 }).markAllDesynced
  | some messages =>
    let (stats, books) := (messages.map (·.bookMessage)).foldl
      (applyMessage (KrakenL3Policy.init (some conn.settings.krakenDepth))) (conn.stats, conn.books)
    { conn with stats, books }

def onDeribitParseError (conn : Connection) (error : DeribitFixParseError) : Connection :=
  let conn := conn.tally fun stats => { stats with parseErrors := stats.parseErrors + 1 }
  if error.symbol = [] then conn.markAllDesynced
  else { conn with deribitBooks := conn.deribitBooks.markDesynced error.symbol }

def onDeribitFixFrame (conn : Connection) (payload : Bytes) : Connection :=
  match parseDeribitFixMessage P conn.settings.scale payload with
  | .error error => conn.onDeribitParseError error
  | .ok message =>
    let (stats, deribitBooks) := message.bookMessages.foldl
      (applyMessage UnsequencedL2Policy.init) (conn.stats, conn.deribitBooks)
    { conn with stats, deribitBooks }

/-- What becomes of a frame on a connection that is not stale. -/
def dispatchFrame (conn : Connection) (payload : Bytes) : Connection :=
  match conn.settings.source with
  | .krakenJson => conn.onKrakenFrame P payload
  | .deribitFix => conn.onDeribitFixFrame P payload
  | .unknown => conn.tally fun stats => { stats with framesUnsupported := stats.framesUnsupported + 1 }

def onFrame (conn : Connection) (payload : Bytes) : Connection :=
  let conn := conn.tally fun stats => { stats with frames := stats.frames + 1 }
  if conn.stale then conn.tally fun stats => { stats with framesIgnoredStale := stats.framesIgnoredStale + 1 }
  else conn.dispatchFrame P payload

section Tally

variable (conn : Connection) (count : ConnectionStats → ConnectionStats)

@[simp] theorem tally_settings : (conn.tally count).settings = conn.settings := rfl
@[simp] theorem tally_stats : (conn.tally count).stats = count conn.stats := rfl
@[simp] theorem tally_connectId : (conn.tally count).connectId = conn.connectId := rfl
@[simp] theorem tally_stale : (conn.tally count).stale = conn.stale := rfl
@[simp] theorem tally_books : (conn.tally count).books = conn.books := rfl
@[simp] theorem tally_deribitBooks : (conn.tally count).deribitBooks = conn.deribitBooks := rfl

end Tally

end Connection

/-- One call on a connection of the adapter. A connect's reason is only logged, and of
a frame only the payload is read. -/
inductive AdapterCall where
  | onConnect (connectId : ℕ)
  | onDisconnect (connectId : ℕ)
  | onFrame (payload : Bytes)
  | onFramesDropped (count : ℕ)
  deriving DecidableEq, Repr

namespace Connection

variable {N D : Type} (P : Platform N D)

def call (conn : Connection) : AdapterCall → Connection
  | .onConnect connectId => conn.onConnect connectId
  | .onDisconnect _ => conn.onDisconnect
  | .onFrame payload => conn.onFrame P payload
  | .onFramesDropped count => conn.onFramesDropped count

def run (conn : Connection) (calls : List AdapterCall) : Connection := calls.foldl (call P) conn

/-- A connection as `AddConnection` registers it. -/
def add (settings : BookSettings) : Connection := { settings }

end Connection

/-- `OnEvent`: a feed event is the call it stands for. -/
def FeedEvent.adapterCall : FeedEvent → AdapterCall
  | .frame f => .onFrame f.payload
  | .connect connectId _ => .onConnect connectId
  | .disconnect connectId => .onDisconnect connectId

structure BookAdapter where
  connections : List Connection := []

namespace BookAdapter

def addConnection (adapter : BookAdapter) (settings : BookSettings) : BookAdapter :=
  ⟨adapter.connections ++ [.add settings]⟩

variable {N D : Type} (P : Platform N D)

def call (adapter : BookAdapter) (handle : ℕ) (c : AdapterCall) : BookAdapter :=
  ⟨adapter.connections.modify handle (·.call P c)⟩

def run (adapter : BookAdapter) (calls : List (ℕ × AdapterCall)) : BookAdapter :=
  calls.foldl (fun adapter c => adapter.call P c.1 c.2) adapter

end BookAdapter

/-- The calls on one connection, in order. -/
def callsOf (handle : ℕ) (calls : List (ℕ × AdapterCall)) : List AdapterCall :=
  calls.filterMap fun c => if c.1 = handle then some c.2 else none

end CryptoTrader
