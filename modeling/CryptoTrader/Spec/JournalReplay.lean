import CryptoTrader.Spec.Adapter
import CryptoTrader.Spec.Journal

/-! The replay of captured journals into a book adapter (`book_adapter/journal_replay.cpp`).
The timing fields and the printing of the report are left out. The reader's loop does not
depend on the adapter, so a file's records are read first and handled then. -/

namespace CryptoTrader

structure ReplayOptions where
  scale : InstrumentScale
  krakenDepth : ℕ := kDefaultKrakenDepth
  deriving DecidableEq, Repr

structure ReplayFileReport where
  path : Bytes
  exchange : Bytes
  connectId : ℕ
  records : ℕ := 0
  wireMessages : ℕ := 0
  stoppedEarly : Bool := false
  stopReason : Bytes := []
  deriving DecidableEq, Repr

structure ReplayReport where
  files : List ReplayFileReport := []
  wireMessages : ℕ := 0
  stats : ConnectionStats := {}
  deriving DecidableEq, Repr

def ReplayReport.stoppedEarly (report : ReplayReport) : Bool := report.files.any (·.stoppedEarly)

def sourceForExchange (exchange : Bytes) : Option FrameSource :=
  if exchange = ascii "kraken" then some .krakenJson
  else if exchange = ascii "deribit" then some .deribitFix
  else none

/-- A path, with what the file there holds if it can be opened. -/
structure JournalPath where
  path : Bytes
  content : Option Bytes
  deriving DecidableEq, Repr

structure JournalReplay where
  options : ReplayOptions
  adapter : BookAdapter := {}

namespace JournalReplay

def kConnection : ℕ := 0

/-- The locals of `Run`. -/
structure Progress where
  adapter : BookAdapter := {}
  report : ReplayReport := {}
  exchange : Bytes := []
  /-- The connect the adapter was told of and not yet told the end of. -/
  openConnectId : Option ℕ := none

variable {N D : Type} (P : Platform N D) (J : JournalPlatform)

/-- `if (open_connect_id) adapter_.OnDisconnect(...)`. -/
def Progress.disconnected (progress : Progress) : BookAdapter :=
  match progress.openConnectId with
  | none => progress.adapter
  | some connectId => progress.adapter.call P kConnection (.onDisconnect connectId)

/-- One round of the loop over a file's records. -/
def onRecord (connectId : ℕ) (progress : Progress) (record : JournalRecord) : Progress :=
  match record.type with
  | .connect =>
    { progress with
      adapter := (progress.disconnected P).call P kConnection (.onConnect connectId)
      openConnectId := some connectId }
  | .wireMessage => { progress with adapter := progress.adapter.call P kConnection (.onFrame record.payload) }

/-- The first file names the exchange and opens the connection; the others must agree. -/
def checkExchange (options : ReplayOptions) (path exchange : Bytes) (source : FrameSource) (progress : Progress) :
    Except Bytes Progress :=
  if progress.exchange = [] then
    .ok { progress with
      exchange
      adapter := progress.adapter.addConnection ⟨source, options.scale, options.krakenDepth⟩ }
  else if exchange ≠ progress.exchange then
    .error (path ++ ascii ": exchange '" ++ exchange ++ ascii "' differs from '" ++ progress.exchange ++
      ascii "', journals of one connection only")
  else .ok progress

/-- One round of the loop over the paths. An error leaves the adapter as far as it got. -/
def replayFile (options : ReplayOptions) (progress : Progress) (file : JournalPath) :
    Except (Bytes × BookAdapter) Progress :=
  match file.content with
  | none => .error (file.path ++ ascii ": JournalReader: cannot open " ++ file.path, progress.adapter)
  | some content =>
    match JournalReader.openFile J content with
    | .error error => .error (file.path ++ ascii ": " ++ error, progress.adapter)
    | .ok reader =>
      match sourceForExchange reader.header.exchange with
      | none =>
        .error (file.path ++ ascii ": no book for exchange tag '" ++ reader.header.exchange ++ ascii "'",
          progress.adapter)
      | some source =>
        match checkExchange options file.path reader.header.exchange source progress with
        | .error error => .error (error, progress.adapter)
        | .ok progress =>
          let (records, done) := reader.readAll J
          let progress := records.foldl (onRecord P reader.header.connectId) progress
          let fileReport : ReplayFileReport :=
            { path := file.path
              exchange := reader.header.exchange
              connectId := reader.header.connectId
              records := records.length
              wireMessages := records.countP (·.type = .wireMessage)
              stoppedEarly := done.stoppedEarly
              stopReason := done.stopReason.getD [] }
          .ok { progress with
            report := { progress.report with
              files := progress.report.files ++ [fileReport]
              wireMessages := progress.report.wireMessages + fileReport.wireMessages } }

def replayFiles (options : ReplayOptions) : Progress → List JournalPath → Except (Bytes × BookAdapter) Progress
  | progress, [] => .ok progress
  | progress, file :: files =>
    match replayFile P J options progress file with
    | .error error => .error error
    | .ok progress => replayFiles options progress files

def run (replay : JournalReplay) (paths : List JournalPath) : JournalReplay × Except Bytes ReplayReport :=
  if paths = [] then (replay, .error (ascii "no journal files given"))
  else
    match replayFiles P J replay.options {} paths with
    | .error (error, adapter) => ({ replay with adapter }, .error error)
    | .ok progress =>
      let adapter := progress.disconnected P
      let stats := (adapter.connections[kConnection]?.map (·.stats)).getD {}
      ({ replay with adapter }, .ok { progress.report with stats })

end JournalReplay

end CryptoTrader
