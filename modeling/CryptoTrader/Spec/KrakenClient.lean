import CryptoTrader.Spec.CaptureSession
import CryptoTrader.Spec.FixClient

/-! The Kraken level3 client (`feed_handler/kraken/kraken_ws_client.cpp`). Three threads act in
any order: the WebSocket library's, which calls back with what happens on the socket and goes
through the setup of a connection; the watchdog's; and the journal's. The monotonic clock, the
answers of the REST call and of the socket, and the disk come with the actions. The library
reports every socket it has opened as closed before it opens the next, and its reports stand
still while a callback runs. What a message is classified as only reaches the log and is left
out, as the log is. -/

namespace CryptoTrader.Kraken

structure WsClientConfig where
  url : Bytes := ascii "wss://ws-l3.kraken.com/v2"
  symbols : List Bytes := [ascii "BTC/USD"]
  depth : Int := 10
  stalenessTimeoutNs : ℕ := 30 * 1000000000
  watchdogPollMs : ℕ := 500
  minReconnectWaitMs : ℕ := 1000
  maxReconnectWaitMs : ℕ := 30000
  deriving DecidableEq, Repr

def kNanosPerMilli : ℕ := 1000000

/-- The list of quoted symbols, spliced in as they are. -/
def quotedSymbols : List Bytes → Bytes
  | [] => []
  | symbol :: symbols =>
    ascii "\"" ++ symbol ++ ascii "\"" ++ symbols.flatMap fun symbol => ascii ",\"" ++ symbol ++ ascii "\""

def buildSubscribeMessage (symbols : List Bytes) (depth : Int) (token : Bytes) : Bytes :=
  ascii "\x7b\"method\":\"subscribe\",\"params\":\x7b\"channel\":\"level3\",\"symbol\":[" ++ quotedSymbols symbols ++
    ascii "],\"depth\":" ++ intText depth ++ ascii ",\"snapshot\":true,\"token\":\"" ++ token ++ ascii "\"\x7d\x7d"

/-- The reason given to `BeginConnect`. -/
def connectReason (config : WsClientConfig) : Bytes :=
  ascii "kraken level3 " ++ joinSymbols config.symbols ++ ascii " connected to " ++ config.url

/-- `BackOffAfterSetupFailure`. The count of failures and the shift are of 32 bits. -/
def backOffMs (config : WsClientConfig) (consecutiveFailures : ℕ) : ℕ :=
  let shift := min ((consecutiveFailures + (2 ^ 32 - 1)) % 2 ^ 32) 5
  min config.maxReconnectWaitMs (config.minReconnectWaitMs * 2 ^ shift % 2 ^ 32)

/-- Where the library's thread is. -/
inductive SocketThread where
  /-- In no callback. -/
  | idle
  /-- In the wait of `ThrottleConnectionSetup`. -/
  | throttling (untilNs : ℕ)
  /-- Past it, and then past its stamp. -/
  | passing
  | noting
  | fetching
  | sending (token : Bytes)
  | connecting
  /-- In the wait of `BackOffAfterSetupFailure`. -/
  | backingOff (untilNs : ℕ)
  /-- In `BeginConnect` or `Close`, while the journal thread closes the file before. -/
  | starting
  | closing
  deriving DecidableEq, Repr

/-- Where the watchdog's thread is. -/
inductive WatchdogThread where
  | polling (untilNs : ℕ)
  | checking (nowNs : ℕ)
  | disarming
  | closing
  | returned
  deriving DecidableEq, Repr

/-- What the client does about setting up connections, with the clock. -/
inductive SetupEvent where
  /-- The throttle lets a setup through and stamps it. -/
  | setUp (atNs : ℕ)
  /-- The signed REST call for a token. -/
  | fetch (atNs : ℕ)
  | failed (atNs : ℕ)
  | connected (atNs : ℕ)
  deriving DecidableEq, Repr

structure WsClient where
  config : WsClientConfig
  session : CaptureSession
  watchdog : StalenessWatchdog
  clockNs : ℕ
  stopRequested : Bool := false
  fatal : Bool := false
  messagesReceived : ℕ := 0
  forcedReconnects : ℕ := 0
  consecutiveSetupFailures : ℕ := 0
  lastSetupNs : ℕ := 0
  /-- Whether the socket is open, by the library's reports. -/
  socketOpen : Bool := false
  socket : SocketThread := .idle
  watching : WatchdogThread
  setups : List SetupEvent := []
  /-- The messages delivered, socket by socket. -/
  streams : List (List Bytes) := []
  sent : List Bytes := []
  /-- How often `close` was called on the socket. -/
  closes : ℕ := 0
  deriving DecidableEq, Repr

/-- What happens next, with what the outside has to say about it. -/
inductive WsAction where
  | tick (ns : ℕ)
  -- the library's callbacks
  | opened
  | message (call : WireCall)
  | closed (flushed : Bool)
  | error
  | alive
  -- the rest of `HandleOpen`
  | advance
  | fetched (token : Option Bytes)
  | sent (success : Bool)
  | connect (call : ConnectCall)
  /-- The journal thread has closed the file waited for. -/
  | resume
  | journal (written : Bool)
  /-- The fatal handler of a failed journal runs. -/
  | report
  | watchdog
  | requestStop
  deriving DecidableEq, Repr

namespace WsClient

def start (session : SessionConfig) (config : WsClientConfig) (startNs : ℕ) : WsClient where
  config := config
  session := .start { session with journalMode := .threaded }
  watchdog := { timeoutNs := config.stalenessTimeoutNs }
  clockNs := startNs
  watching := .polling (startNs + config.watchdogPollMs * kNanosPerMilli)

variable (J : JournalPlatform) (c : WsClient)

def stopping : Bool := c.stopRequested || c.fatal

def noteActivity : WsClient := { c with watchdog := c.watchdog.noteActivity c.clockNs }

def disarm : WsClient := { c with watchdog := c.watchdog.disarm }

def forceReconnect : WsClient := { c.disarm with closes := c.closes + 1 }

/-- `ThrottleConnectionSetup` up to its wait. A stamp of zero means there was none. -/
def throttle : WsClient :=
  let elapsedMs :=
    if c.lastSetupNs = 0 then c.config.minReconnectWaitMs else (c.clockNs - c.lastSetupNs) / kNanosPerMilli
  if elapsedMs < c.config.minReconnectWaitMs then
    { c with socket := .throttling (c.clockNs + (c.config.minReconnectWaitMs - elapsedMs) * kNanosPerMilli) }
  else { c with socket := .passing }

/-- The end of the throttle. -/
def setUp : WsClient :=
  { c with lastSetupNs := c.clockNs, socket := .noting, setups := c.setups ++ [.setUp c.clockNs] }

/-- `HandleOpen` from there up to the answer to `FetchWebsocketsToken`. -/
def fetch : WsClient :=
  { c.noteActivity with socket := .fetching, setups := c.setups ++ [.fetch c.clockNs] }

/-- `BackOffAfterSetupFailure` up to its wait. -/
def backOff : WsClient :=
  let failures := (c.consecutiveSetupFailures + 1) % 2 ^ 32
  { c with
    consecutiveSetupFailures := failures
    socket := .backingOff (c.clockNs + backOffMs c.config failures * kNanosPerMilli)
    setups := c.setups ++ [.failed c.clockNs] }

/-- A wait ends when a stop is under way or its time is up. -/
def advance : Option WsClient :=
  match c.socket with
  | .throttling untilNs =>
    if c.stopping then some { c with socket := .idle }
    else if untilNs ≤ c.clockNs then some { c with socket := .passing }
    else none
  | .passing => some c.setUp
  | .noting => some c.fetch
  | .backingOff untilNs =>
    if c.stopping = true ∨ untilNs ≤ c.clockNs then some { c.forceReconnect with socket := .idle } else none
  | _ => none

/-- What follows `BeginConnect`. -/
def connectReturned : WsClient :=
  match c.session.results.getLast? with
  | some (.connected _) =>
    { c with socket := .idle, consecutiveSetupFailures := 0, setups := c.setups ++ [.connected c.clockNs] }
  | _ => { c with socket := .idle, fatal := true }

/-- The session after a call, which may have to wait for the journal thread. -/
def called (session : CaptureSession) (waits : SocketThread) (returned : WsClient → WsClient) : WsClient :=
  let c := { c with session }
  if session.waiting.isSome then { c with socket := waits } else returned c

def goIdle : WsClient := { c with socket := .idle }

def handleMessage (call : WireCall) : Option WsClient :=
  (c.session.step J (.call (.onWireMessage { call with source := .krakenJson }))).map fun session =>
    { c.noteActivity with
      session
      messagesReceived := c.messagesReceived + 1
      streams := c.streams.modifyLast (· ++ [call.payload]) }

def handleClose (flushed : Bool) : Option WsClient :=
  (c.session.step J (.call (.close flushed))).map fun session =>
    ({ c.disarm with socketOpen := false } : WsClient).called session .closing goIdle

def beginConnect (call : ConnectCall) : Option WsClient :=
  let call := { call with reason := connectReason c.config, source := .krakenJson }
  (c.session.step J (.call (.beginConnect call))).map fun session => c.called session .starting connectReturned

def resume : Option WsClient :=
  match c.socket with
  | .starting => (c.session.step J .resume).map fun session => ({ c with session } : WsClient).connectReturned
  | .closing => (c.session.step J .resume).map fun session => ({ c with session } : WsClient).goIdle
  | _ => none

/-- `RunWatchdog`. The clock is read before the watchdog is asked, and other threads may act
between any two of its steps. -/
def watch : Option WsClient :=
  match c.watching with
  | .polling untilNs =>
    if c.stopping then some { c with watching := .returned }
    else if untilNs ≤ c.clockNs then some { c with watching := .checking c.clockNs }
    else none
  | .checking nowNs =>
    some (if c.watchdog.isStale nowNs then { c with forcedReconnects := c.forcedReconnects + 1, watching := .disarming }
      else { c with watching := .polling (c.clockNs + c.config.watchdogPollMs * kNanosPerMilli) })
  | .disarming => some { c.disarm with watching := .closing }
  | .closing =>
    some { c with
      closes := c.closes + 1
      watching := .polling (c.clockNs + c.config.watchdogPollMs * kNanosPerMilli) }
  | .returned => none

def requestStop : WsClient :=
  if c.stopRequested then c else { c with stopRequested := true, closes := c.closes + 1 }

/-- A callback starts when none is running, and is about an open socket or opens one. -/
def calledBack (socketOpen : Bool) (next : Option WsClient) : Option WsClient :=
  if c.socket = .idle ∧ c.socketOpen = socketOpen then next else none

def step (c : WsClient) : WsAction → Option WsClient
  | .tick ns => some { c with clockNs := c.clockNs + ns }
  | .opened =>
    c.calledBack false (some ({ c with socketOpen := true, streams := c.streams ++ [[]] } : WsClient).throttle)
  | .message call => c.calledBack true (c.handleMessage J call)
  | .closed flushed => c.calledBack true (c.handleClose J flushed)
  | .error => c.calledBack false (some c.disarm)
  | .alive => c.calledBack true (some c.noteActivity)
  | .advance => c.advance
  | .fetched token =>
    if c.socket = .fetching then
      some (match token with
        | some token => { c with socket := .sending token }
        | none => c.backOff)
    else none
  | .sent success =>
    match c.socket with
    | .sending token =>
      let c := { c with sent := c.sent ++ [buildSubscribeMessage c.config.symbols c.config.depth token] }
      some (if success then { c with socket := .connecting } else c.backOff)
    | _ => none
  | .connect call => if c.socket = .connecting then c.beginConnect J call else none
  | .resume => c.resume J
  | .journal written => (c.session.step J (.journal written)).map fun session => { c with session }
  | .report => if c.session.journal.failed then some { c with fatal := true } else none
  | .watchdog => c.watch
  | .requestStop => some c.requestStop

def run : WsClient → List WsAction → Option WsClient := Machine.run (step J)

end WsClient

end CryptoTrader.Kraken
