import CryptoTrader.Spec.CaptureSession

/-! What a capture session is for, without a thread, a barrier or a disk that fails: every
connect has a file of its own, which holds the marker and then every wire message of the
connect, and the sinks are told the same. All that can go wrong is that a connect gets no
file, or that the journal refuses a record; after that it takes no more. -/

namespace CryptoTrader

open Journal CaptureSession

/-- The record of a wire message. -/
def CaptureFrame.record (frame : CaptureFrame) : JournalRecord :=
  ⟨.wireMessage, frame.captureSequence, frame.monotonicNs, frame.payload⟩

def ConnectCall.record (call : ConnectCall) : JournalRecord := ⟨.connect, 1, call.markerNs, call.reason⟩

def JournalFile.append (file : JournalFile) (record : JournalRecord) : JournalFile :=
  { file with records := file.records ++ [record] }

/-- The fresh file of a connect. -/
def SessionConfig.connectFile (J : JournalPlatform) (config : SessionConfig) (connectId : ℕ) (call : ConnectCall) :
    JournalFile where
  path := config.journalPath J connectId call.nameRealtimeNs
  header :=
    { realtimeNs := call.realtimeNs
      monotonicNs := call.monotonicNs
      exchange := config.exchange
      connectId }

/-- Why a connect gets no file, if it does not. -/
def SessionConfig.connectFailure (J : JournalPlatform) (config : SessionConfig) (connectId : ℕ) (error : Option Bytes)
    (call : ConnectCall) : Option Bytes :=
  match error with
  | some error => some (ascii "journal failed: " ++ error)
  | none =>
    match call.directoryError with
    | some error => some (ascii "cannot create journal directory " ++ config.directory ++ ascii ": " ++ error)
    | none =>
      match call.outcome with
      | .cannotOpen =>
        some (ascii "JournalWriter: cannot open " ++ config.journalPath J connectId call.nameRealtimeNs)
      | .cannotWriteHeader =>
        some (ascii "JournalWriter: cannot write header to " ++ config.journalPath J connectId call.nameRealtimeNs)
      | .opened => none

structure Recorder where
  config : SessionConfig
  /-- The file of the connect under way. -/
  current : Option JournalFile := none
  files : List JournalFile := []
  sinkCalls : List FeedEvent := []
  sequence : ℕ := 0
  connectId : ℕ := 0
  /-- The refusal after which the journal takes nothing. -/
  error : Option Bytes := none
  results : List SessionResult := []
  deriving DecidableEq, Repr

namespace Recorder

/-- A recorder does not know of journal modes. -/
def start (config : SessionConfig) : Recorder := { config := { config with journalMode := .inline } }

def returns (r : Recorder) (result : SessionResult) : Recorder := { r with results := r.results ++ [result] }

def endConnect (r : Recorder) : Recorder :=
  { r with
    current := none
    files := r.files ++ r.current.toList
    sinkCalls := r.sinkCalls ++ if r.current.isSome then [.disconnect r.connectId] else [] }

def wireFrame (r : Recorder) (call : WireCall) : CaptureFrame :=
  ⟨call.payload, r.sequence + 1, call.monotonicNs, call.source⟩

def captured (r : Recorder) (call : WireCall) : Recorder :=
  { r with sequence := r.sequence + 1, sinkCalls := r.sinkCalls ++ [.frame (r.wireFrame call)] }

def onWireMessage (r : Recorder) (call : WireCall) : Recorder :=
  match r.current with
  | none => r.returns .notOpen
  | some file =>
    if r.error = none ∧ call.room = true then
      { r.captured call with current := some (file.append (r.wireFrame call).record) }.returns
        (.wire (r.wireFrame call) true)
    else
      { r.captured call with error := r.error.or (some (JournalThread.overflowText r.config.ringCapacity)) }.returns
        (.wire (r.wireFrame call) false)

variable (J : JournalPlatform)

/-- `BeginConnect` after its `Close`. -/
def openConnect (r : Recorder) (call : ConnectCall) : Recorder :=
  let connectId := (r.connectId + 1) % kIdModulus
  match r.config.connectFailure J connectId r.error call with
  | some error => { r with connectId, sequence := 0 }.returns (.connectFailed error)
  | none =>
    { r with
      connectId
      sequence := 1
      current := some ((r.config.connectFile J connectId call).append call.record)
      sinkCalls := r.sinkCalls ++ [FeedEvent.connect connectId call.reason] }.returns
        (.connected (r.config.journalPath J connectId call.nameRealtimeNs))

/-- What a call does once its connect has ended. -/
def goOn (r : Recorder) : SessionCall → Recorder
  | .beginConnect call => r.openConnect J call
  | .close _ => r.returns .closed
  | .onWireMessage _ => r

def call (r : Recorder) : SessionCall → Recorder
  | .onWireMessage call => r.onWireMessage call
  | call => r.endConnect.goOn J call

def run (r : Recorder) (calls : List SessionCall) : Recorder := calls.foldl (call J) r

end Recorder

/-- The call with room for its record. -/
def SessionCall.withRoom : SessionCall → SessionCall
  | .onWireMessage call => .onWireMessage { call with room := true }
  | call => call

/-- Only a journal thread can refuse a record. -/
def SessionConfig.recorderCall (config : SessionConfig) (call : SessionCall) : SessionCall :=
  match config.journalMode with
  | .inline => call.withRoom
  | .threaded => call

end CryptoTrader
