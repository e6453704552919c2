import CryptoTrader.Lib.Interleave
import CryptoTrader.Spec.CaptureSession
import CryptoTrader.Spec.ConfigFile

/-! The capture sessions of one process (`feed_handler/client_capture.h`, `capture_set.cpp`):
one for each connection that was selected, and their threads act in any order. A session
opens a file by handing its path to the constructor of a writer, which truncates what is
there; the process keeps the list of all files that were opened so. -/

namespace CryptoTrader

/-- The session that `ClientCapture` makes for a connection. -/
def Config.FeedHandlerConfig.session (config : FeedHandlerConfig) (connection : ConnectionEntry) : SessionConfig :=
  { directory := config.journalDir
    exchange := (traitsOf connection.exchange).name
    filePrefix := connection.id
    journalMode := .threaded }

namespace CaptureSession

/-- The `BeginConnect` that a step takes past its `Close`: at once if the journal thread
has nothing to close, else when its wait is over. -/
def connecting (s : CaptureSession) : SessionAction → Option ConnectCall
  | .call (.beginConnect call) => if s.waiting.isSome || s.journalOpen then none else some call
  | .resume =>
    match s.waiting, s.journal.signal with
    | some (.beginConnect call), some _ => some call
    | _, _ => none
  | _ => none

/-- The number and the path of the file a step opens. A file that cannot be opened counts:
the call has tried. -/
def opens (J : JournalPlatform) (s : CaptureSession) (action : SessionAction) : Option (ℕ × Bytes) :=
  (s.connecting action).bind fun call =>
    if s.journal.failed || call.directoryError.isSome then none
    else
      let connectId := (s.connectId + 1) % kIdModulus
      some (connectId, s.config.journalPath J connectId call.nameRealtimeNs)

end CaptureSession

/-- A file that was opened: by which session, and with which number. -/
structure Opening where
  session : ℕ
  connectId : ℕ
  path : Bytes
  deriving DecidableEq, Repr

def Opening.of (session : ℕ) (file : ℕ × Bytes) : Opening := ⟨session, file.1, file.2⟩

structure CaptureProcess where
  sessions : List CaptureSession
  opened : List Opening := []
  deriving DecidableEq, Repr

namespace CaptureProcess

def start (configs : List SessionConfig) : CaptureProcess := { sessions := configs.map CaptureSession.start }

variable (J : JournalPlatform)

/-- What the session that an action names opens in it. -/
def opening (p : CaptureProcess) (action : ℕ × SessionAction) : Option Opening :=
  p.sessions[action.1]?.bind fun s => (s.opens J action.2).map (Opening.of action.1)

def step (p : CaptureProcess) (action : ℕ × SessionAction) : Option CaptureProcess :=
  (Machine.stepAt (CaptureSession.step J) p.sessions action).map fun sessions =>
    { sessions, opened := p.opened ++ (p.opening J action).toList }

def run : CaptureProcess → List (ℕ × SessionAction) → Option CaptureProcess := Machine.run (step J)

end CaptureProcess

end CryptoTrader
