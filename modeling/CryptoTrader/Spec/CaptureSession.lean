import CryptoTrader.Lib.Machine
import CryptoTrader.Spec.Journal

/-! One connection's capture (`feed_handler/capture_session.cpp`) and the thread that
writes its journal in threaded mode (`journal_thread.cpp`). A run is a list of actions:
a call on the session, a step of the journal thread, or the return of a call that waited
for the thread to close a file. What the disk, the clocks and the ring do comes with the
actions. The session's destructor is left out. -/

namespace CryptoTrader

open Journal

/-- `JournalEvent`, less the one that ends the thread. -/
inductive JournalEvent where
  | frame (frame : CaptureFrame)
  | connect (writer : JournalWriter) (marker : CaptureFrame)
  | disconnect
  deriving DecidableEq, Repr

structure JournalThread where
  ring : SpscRing JournalEvent := {}
  /-- The latched failure. -/
  error : Option Bytes := none
  recordsWritten : ℕ := 0
  writer : Option JournalWriter := none
  /-- The files the thread has closed. -/
  files : List JournalFile := []
  /-- The completion signal of the `Disconnect` under way. -/
  signal : Option ℕ := none
  deriving DecidableEq, Repr

namespace JournalThread

def failed (journal : JournalThread) : Bool := journal.error.isSome

def fail (journal : JournalThread) (reason : Bytes) : JournalThread :=
  { journal with error := journal.error.or (some reason) }

section Producer

def connect (journal : JournalThread) (writer : JournalWriter) (marker : CaptureFrame) : JournalThread :=
  { journal with ring := journal.ring.pushControl (.connect writer marker) }

def overflowText (capacity : ℕ) : Bytes :=
  ascii "journal ring overflow (" ++ natText capacity ++ ascii " events queued)"

/-- Nothing is queued once the journal has failed; the push that finds the ring full is
what fails it. -/
def push (journal : JournalThread) (capacity : ℕ) (frame : CaptureFrame) (room : Bool) : JournalThread × Bool :=
  if journal.failed then (journal, false)
  else
    match journal.ring.push (.frame frame) room with
    | (ring, true) => ({ journal with ring }, true)
    | (ring, false) => ({ journal with ring }.fail (overflowText capacity), false)

/-- The first half of `Disconnect`, up to the wait for its signal. -/
def disconnect (journal : JournalThread) : JournalThread :=
  { journal with ring := journal.ring.pushControl .disconnect, signal := none }

end Producer

/-- `AfterWrite`: publishes the count and turns a writer's failure into the thread's. -/
def afterWrite (journal : JournalThread) (writer : JournalWriter) : JournalThread :=
  let journal := { journal with writer := some writer, recordsWritten := writer.recordsWritten }
  match writer.error with
  | none => journal
  | some reason => journal.fail reason

/-- Closes the writer's file, if there is one. -/
def closeFile (journal : JournalThread) : JournalThread :=
  { journal with writer := none, files := journal.files ++ (journal.writer.map (·.file)).toList }

/-- One round of `Run` after the pop. -/
def handle (journal : JournalThread) (written : Bool) : JournalEvent → JournalThread
  | .frame frame =>
    match journal.writer with
    | none => journal
    | some writer => journal.afterWrite (writer.onFrame frame written)
  | .connect writer marker => journal.closeFile.afterWrite (writer.writeConnectMarker marker written)
  | .disconnect =>
    match journal.writer with
    | none => { journal with recordsWritten := 0, signal := some 0 }
    | some writer =>
      { (journal.afterWrite (writer.flush written)).closeFile with
        recordsWritten := 0
        signal := some writer.recordsWritten }

/-- The thread takes an event, if there is one. -/
def step (journal : JournalThread) (written : Bool) : Option JournalThread :=
  journal.ring.pop.map fun (event, ring) => { journal with ring }.handle written event

end JournalThread

inductive JournalMode where
  | inline
  | threaded
  deriving DecidableEq, Repr

structure SessionConfig where
  directory : Bytes := ascii "journal"
  exchange : Bytes := ascii "kraken"
  filePrefix : Bytes := []
  journalMode : JournalMode := .inline
  journalRingEvents : ℕ := 2 ^ 16
  deriving DecidableEq, Repr

/-- `capacity_` of the journal thread. -/
def SessionConfig.ringCapacity (config : SessionConfig) : ℕ := max config.journalRingEvents 1

/-- How the constructor of a writer ends. -/
inductive OpenOutcome where
  | opened
  | cannotOpen
  | cannotWriteHeader
  deriving DecidableEq, Repr

/-- A call of `BeginConnect`: its arguments, and what the clocks and the disk do in it. -/
structure ConnectCall where
  reason : Bytes
  source : FrameSource
  directoryError : Option Bytes := none
  outcome : OpenOutcome := .opened
  /-- `RealtimeNowNs` for the file name and the header, `MonotonicNowNs` for the header. -/
  nameRealtimeNs : ℕ
  realtimeNs : ℕ
  monotonicNs : ℕ
  /-- The stamp of the connect marker. -/
  markerNs : ℕ
  /-- Whether the marker is written and the file before it flushed, in inline mode. -/
  markerWritten : Bool := true
  flushed : Bool := true
  deriving DecidableEq, Repr

/-- A call of `OnWireMessage`: its arguments, its stamp, and whether the disk takes the
record in inline mode and the ring has room for it in threaded mode. -/
structure WireCall where
  payload : Bytes
  source : FrameSource
  monotonicNs : ℕ
  written : Bool := true
  room : Bool := true
  deriving DecidableEq, Repr

inductive SessionCall where
  | beginConnect (call : ConnectCall)
  | onWireMessage (call : WireCall)
  | close (flushed : Bool)
  deriving DecidableEq, Repr

/-- What a call returned. A wire message is listed with its stamped frame. -/
inductive SessionResult where
  | connected (path : Bytes)
  | connectFailed (error : Bytes)
  | wire (frame : CaptureFrame) (journaled : Bool)
  | notOpen
  | closed
  deriving DecidableEq, Repr

structure CaptureSession where
  config : SessionConfig
  /-- Inline mode only. -/
  writer : Option JournalWriter := none
  /-- The calls made on every registered sink. -/
  sinkCalls : List FeedEvent := []
  /-- The stamper's last sequence number. -/
  sequence : ℕ := 0
  connectId : ℕ := 0
  announced : Bool := false
  closedRecords : ℕ := 0
  /-- Threaded mode only: in inline mode there is no thread and these stay as they start. -/
  journalOpen : Bool := false
  journal : JournalThread := {}
  /-- The files closed in inline mode. -/
  inlineFiles : List JournalFile := []
  /-- The call that waits for the journal thread to close the file. -/
  waiting : Option SessionCall := none
  results : List SessionResult := []
  deriving DecidableEq, Repr

/-- `%06llu`. -/
def ordinalText (connectId : ℕ) : Bytes :=
  List.replicate (6 - (natText connectId).length) '0'.toNat.toUInt8 ++ natText connectId

def journalFileName (J : JournalPlatform) (filePrefix : Bytes) (connectId realtimeNs : ℕ) : Bytes :=
  filePrefix ++ ascii "-" ++ ordinalText connectId ++ ascii "-" ++ J.utcText (realtimeNs / 1000000000) ++
    ascii ".journal"

def kSlash : UInt8 := '/'.toNat.toUInt8

def isAbsolutePath (path : Bytes) : Bool := path.head? == some kSlash

/-- `operator/` of `std::filesystem::path`: an absolute name stands for itself, and a
separator goes after a directory that ends in a file name. -/
def joinPath (directory name : Bytes) : Bytes :=
  if isAbsolutePath name then name
  else if directory = [] ∨ directory.getLast? = some kSlash then directory ++ name
  else directory ++ [kSlash] ++ name

/-- What the names of the session's files start with. -/
def SessionConfig.namePrefix (config : SessionConfig) : Bytes :=
  if config.filePrefix = [] then config.exchange else config.filePrefix

/-- `cfg_.directory / JournalFileName(...)`. -/
def SessionConfig.journalPath (J : JournalPlatform) (config : SessionConfig) (connectId realtimeNs : ℕ) : Bytes :=
  joinPath config.directory (journalFileName J config.namePrefix connectId realtimeNs)

namespace CaptureSession

/-- `std::uint64_t`. -/
def kIdModulus : ℕ := 2 ^ 64

def start (config : SessionConfig) : CaptureSession := { config }

/-- Stamps a frame with the next sequence number. -/
def stamp (s : CaptureSession) (payload : Bytes) (monotonicNs : ℕ) (source : FrameSource) : CaptureFrame :=
  ⟨payload, s.sequence + 1, monotonicNs, source⟩

def returns (s : CaptureSession) (result : SessionResult) : CaptureSession :=
  { s with results := s.results ++ [result] }

/-- The files the session has closed, in order. -/
def files (s : CaptureSession) : List JournalFile :=
  match s.config.journalMode with
  | .inline => s.inlineFiles
  | .threaded => s.journal.files

/-- `RecordsWritten`. -/
def recordsWritten (s : CaptureSession) : ℕ :=
  match s.config.journalMode with
  | .inline => (s.writer.map (·.recordsWritten)).getD 0
  | .threaded => s.journal.recordsWritten

def totalRecordsWritten (s : CaptureSession) : ℕ := s.closedRecords + s.recordsWritten

/-- The inline half of `Close`. -/
def closeWriter (s : CaptureSession) (flushed : Bool) : CaptureSession :=
  match s.writer with
  | none => s
  | some writer =>
    { s with
      closedRecords := s.closedRecords + writer.recordsWritten
      inlineFiles := s.inlineFiles ++ [(writer.flush flushed).file]
      writer := none }

/-- The end of `Close`: the sinks hear of it once. -/
def announceEnd (s : CaptureSession) : CaptureSession :=
  if s.announced then { s with announced := false, sinkCalls := s.sinkCalls ++ [.disconnect s.connectId] } else s

/-- The end of `BeginConnect`: the connect is usable. -/
def announce (s : CaptureSession) (reason path : Bytes) : CaptureSession :=
  let announced := { s with announced := true, sinkCalls := s.sinkCalls ++ [FeedEvent.connect s.connectId reason] }
  announced.returns (.connected path)

variable (J : JournalPlatform)

/-- `BeginConnect` once the file is open. -/
def startFile (s : CaptureSession) (call : ConnectCall) (path : Bytes) : CaptureSession :=
  let header : JournalFileHeader :=
    { realtimeNs := call.realtimeNs
      monotonicNs := call.monotonicNs
      exchange := s.config.exchange
      connectId := s.connectId }
  let writer : JournalWriter := { file := { path, header } }
  let marker := s.stamp call.reason call.markerNs call.source
  let s := { s with sequence := s.sequence + 1 }
  match s.config.journalMode with
  | .threaded =>
    { s with journal := s.journal.connect writer marker, journalOpen := true }.announce call.reason path
  | .inline =>
    let writer := writer.writeConnectMarker marker call.markerWritten
    let s := { s with writer := some writer }
    match writer.error with
    | some error => s.returns (.connectFailed (ascii "cannot write connect marker: " ++ error))
    | none => s.announce call.reason path

/-- `BeginConnect` after its `Close`. -/
def openConnect (s : CaptureSession) (call : ConnectCall) : CaptureSession :=
  let s := { s with connectId := (s.connectId + 1) % kIdModulus, sequence := 0 }
  let path := s.config.journalPath J s.connectId call.nameRealtimeNs
  match s.journal.error with
  | some error => s.returns (.connectFailed (ascii "journal failed: " ++ error))
  | none =>
    match call.directoryError with
    | some error =>
      s.returns (.connectFailed
        (ascii "cannot create journal directory " ++ s.config.directory ++ ascii ": " ++ error))
    | none =>
      match call.outcome with
      | .cannotOpen => s.returns (.connectFailed (ascii "JournalWriter: cannot open " ++ path))
      | .cannotWriteHeader => s.returns (.connectFailed (ascii "JournalWriter: cannot write header to " ++ path))
      | .opened => s.startFile call path

/-- What a call does once nothing is open any more. -/
def afterClose (s : CaptureSession) (call : SessionCall) : CaptureSession :=
  match call with
  | .beginConnect call => s.announceEnd.openConnect J call
  | .close _ => s.announceEnd.returns .closed
  | .onWireMessage _ => s

def onWireMessage (s : CaptureSession) (call : WireCall) : CaptureSession :=
  let frame := s.stamp call.payload call.monotonicNs call.source
  let captured := { s with sequence := s.sequence + 1, sinkCalls := s.sinkCalls ++ [FeedEvent.frame frame] }
  match s.config.journalMode with
  | .threaded =>
    if s.journalOpen then
      let (journal, journaled) := s.journal.push s.config.ringCapacity frame call.room
      { captured with journal }.returns (.wire frame journaled)
    else s.returns .notOpen
  | .inline =>
    match s.writer with
    | none => s.returns .notOpen
    | some writer =>
      let writer := writer.onFrame frame call.written
      { captured with writer := some writer }.returns (.wire frame writer.good)

/-- `Close`, alone or at the start of `BeginConnect`, up to the barrier if there is a file
for the journal thread to close. -/
def closeFor (s : CaptureSession) (call : SessionCall) (flushed : Bool) : CaptureSession :=
  let s := s.closeWriter flushed
  if s.journalOpen then { s with journal := s.journal.disconnect, waiting := some call } else s.afterClose J call

end CaptureSession

inductive SessionAction where
  | call (call : SessionCall)
  | resume
  | journal (written : Bool)
  deriving DecidableEq, Repr

namespace CaptureSession

variable (J : JournalPlatform)

def step (s : CaptureSession) : SessionAction → Option CaptureSession
  | .call call =>
    if s.waiting.isSome then none
    else
      match call with
      | .onWireMessage wire => some (s.onWireMessage wire)
      | .close flushed => some (s.closeFor J call flushed)
      | .beginConnect connect => some (s.closeFor J call connect.flushed)
  | .resume =>
    match s.waiting, s.journal.signal with
    | some call, some records =>
      some ({ s with
        closedRecords := s.closedRecords + records
        journalOpen := false
        waiting := none }.afterClose J call)
    | _, _ => none
  | .journal written => (s.journal.step written).map fun journal => { s with journal }

def run : CaptureSession → List SessionAction → Option CaptureSession := Machine.run (step J)

end CaptureSession

/-- The calls of a run, in order. -/
def sessionCalls (actions : List SessionAction) : List SessionCall :=
  actions.filterMap fun action => match action with
    | .call call => some call
    | _ => none

end CryptoTrader
