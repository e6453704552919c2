import CryptoTrader.Spec.FixSession
import CryptoTrader.Spec.Framer

/-! The Deribit FIX client (`feed_handler/deribit/deribit_fix_client.cpp`): what it does
about an inbound message, and the life of one connection. What the client does to the
socket and to the capture session is listed in the order it does it; whether each of
these succeeds, and what `recv` and the clocks return, is given. Log lines are left out. -/

namespace CryptoTrader

/-- `feed_handler/staleness_watchdog.h`. -/
structure StalenessWatchdog where
  timeoutNs : ℕ
  lastActivityNs : ℕ := 0
  armed : Bool := false
  deriving DecidableEq, Repr

namespace StalenessWatchdog

def noteActivity (watchdog : StalenessWatchdog) (nowNs : ℕ) : StalenessWatchdog :=
  { watchdog with lastActivityNs := nowNs, armed := true }

def disarm (watchdog : StalenessWatchdog) : StalenessWatchdog := { watchdog with armed := false }

/-- A timeout of zero turns the check off. -/
def isStale (watchdog : StalenessWatchdog) (nowNs : ℕ) : Bool :=
  watchdog.timeoutNs ≠ 0 ∧ watchdog.armed ∧ watchdog.lastActivityNs < nowNs ∧
    watchdog.timeoutNs ≤ nowNs - watchdog.lastActivityNs

end StalenessWatchdog

/-- `JoinSymbols`: no comma goes before a symbol as long as the text is empty. -/
def joinSymbols (symbols : List Bytes) : Bytes :=
  symbols.foldl (fun joined symbol => joined ++ (if joined = [] then [] else ascii ",") ++ symbol) []

namespace Deribit

open CryptoTrader.Fix

inductive InboundKind where
  | unknown
  | logonAck
  | heartbeat
  | testRequest
  | logout
  | sessionReject
  | marketDataSnapshot
  | marketDataIncremental
  | marketDataRequestReject
  deriving DecidableEq, Repr

def kindOf (msgType : Bytes) : InboundKind :=
  if msgType = MsgType.kLogon then .logonAck
  else if msgType = MsgType.kHeartbeat then .heartbeat
  else if msgType = MsgType.kTestRequest then .testRequest
  else if msgType = MsgType.kLogout then .logout
  else if msgType = MsgType.kReject then .sessionReject
  else if msgType = MsgType.kMarketDataSnapshotFullRefresh then .marketDataSnapshot
  else if msgType = MsgType.kMarketDataIncrementalRefresh then .marketDataIncremental
  else if msgType = MsgType.kMarketDataRequestReject then .marketDataRequestReject
  else .unknown

inductive InboundAction where
  | none
  | sendMarketDataRequest
  | answerTestRequest
  | reconnect
  deriving DecidableEq, Repr

structure InboundDecision where
  kind : InboundKind
  action : InboundAction
  detail : Bytes
  deriving DecidableEq, Repr

/-- The sequence verdict outranks the message type. -/
def classifyInbound (message : ParsedMessage) (check : InboundCheck) : InboundDecision :=
  let kind := kindOf message.msgType
  if check.sessionBroken then ⟨kind, .reconnect, check.describe⟩
  else
    match kind with
    | .logonAck => ⟨kind, .sendMarketDataRequest, []⟩
    | .testRequest => ⟨kind, .answerTestRequest, (message.get Tag.kTestReqId).getD []⟩
    | .logout => ⟨kind, .reconnect, (message.get Tag.kText).getD (ascii "logged out")⟩
    | .sessionReject | .marketDataRequestReject => ⟨kind, .none, (message.get Tag.kText).getD []⟩
    | .heartbeat | .marketDataSnapshot | .marketDataIncremental | .unknown => ⟨kind, .none, []⟩

structure FixClientConfig where
  host : Bytes
  port : ℕ
  symbols : List Bytes := [ascii "BTC-PERPETUAL"]
  mdReqId : Bytes := ascii "ct-md-1"
  stalenessTimeoutNs : ℕ := 90 * kNanosPerSecond
  deriving DecidableEq, Repr

/-- What the client does to the outside. -/
inductive Effect where
  | beginConnect (reason : Bytes)
  | send (bytes : Bytes)
  | onWireMessage (payload : Bytes)
  | close
  deriving DecidableEq, Repr

/-- What the outside answers: whether the effect of that number succeeds, and what the
clocks read at it. -/
structure World where
  succeeds : ℕ → Bool
  realtimeNs : ℕ → ℕ
  monotonicNs : ℕ → ℕ

/-- How `recv` returns. -/
inductive Received where
  | interrupted
  | timedOut
  | failed
  | closed
  | data (bytes : Bytes)
  deriving DecidableEq, Repr

/-- One round of the read loop: the stop signal at its start, what `recv` returns, and
the monotonic clock before it and after it. -/
structure Round where
  stopRequested : Bool := false
  fatal : Bool := false
  heartbeatNs : ℕ
  received : Received
  receivedNs : ℕ
  deriving DecidableEq, Repr

def Round.stopping (round : Round) : Bool := round.stopRequested || round.fatal

/-- What one connection meets: whether the socket connects, the clocks and the random
nonce up to the Logon, and the rounds of the read loop so far. -/
structure ConnectionRun where
  connected : Bool := true
  startNs : ℕ
  nonce : Option Bytes
  logonNs : ℕ
  loggedNs : ℕ
  rounds : List Round
  deriving DecidableEq, Repr

structure FixClient where
  config : FixClientConfig
  session : FixSession
  watchdog : StalenessWatchdog
  framer : Framer := .init kMaxBodyLength
  loggedOn : Bool := false
  subscribed : Bool := false
  lastOutboundNs : ℕ := 0
  fatal : Bool := false
  messagesReceived : ℕ := 0
  snapshotsReceived : ℕ := 0
  incrementalsReceived : ℕ := 0
  connectionAttempts : ℕ := 0
  forcedReconnects : ℕ := 0
  effects : List Effect := []
  deriving DecidableEq, Repr

namespace FixClient

def init (session : SessionConfig) (config : FixClientConfig) : FixClient where
  config := config
  session := { config := session }
  watchdog := { timeoutNs := config.stalenessTimeoutNs }

variable (P : SessionPlatform) (W : World) (c : FixClient)

def perform (effect : Effect) : FixClient × Bool :=
  ({ c with effects := c.effects ++ [effect] }, W.succeeds c.effects.length)

/-- The clock of the session as the next effect is prepared. -/
def clockNs : ℕ := W.realtimeNs c.effects.length

/-- A message that went out restamps the outbound silence. -/
def sendAll (bytes : Bytes) : FixClient × Bool :=
  let sentNs := W.monotonicNs c.effects.length
  match c.perform W (.send bytes) with
  | (c, true) => ({ c with lastOutboundNs := sentNs }, true)
  | (c, false) => (c, false)

/-- Sends a message the session has built. -/
def sendBuilt (built : FixSession × Bytes) : FixClient × Bool := { c with session := built.1 }.sendAll W built.2

def journalMessage (raw : Bytes) : FixClient × Bool := c.perform W (.onWireMessage raw)

/-- The first switch of `DrainFramedMessages`. -/
def noteKind : InboundKind → FixClient
  | .logonAck => { c with loggedOn := true }
  | .marketDataSnapshot => { c with snapshotsReceived := c.snapshotsReceived + 1 }
  | .marketDataIncremental => { c with incrementalsReceived := c.incrementalsReceived + 1 }
  | _ => c

/-- The second one. The request is sent once in a connection. -/
def act (decision : InboundDecision) : FixClient × Bool :=
  match decision.action with
  | .sendMarketDataRequest =>
    if c.subscribed then (c, true)
    else
      match c.sendBuilt W (c.session.buildMarketDataRequest P c.config.mdReqId c.config.symbols (c.clockNs W)) with
      | (c, true) => ({ c with subscribed := true }, true)
      | (c, false) => (c, false)
  | .answerTestRequest => c.sendBuilt W (c.session.buildHeartbeatResponse P decision.detail (c.clockNs W))
  | .reconnect => (c, false)
  | .none => (c, true)

/-- One message of the loop of `DrainFramedMessages`: journaled first, then parsed. -/
def handleFramed (framed : Bytes) : FixClient × Bool :=
  match { c with messagesReceived := c.messagesReceived + 1 }.journalMessage W framed with
  | (c, false) => (c, false)
  | (c, true) =>
    match parseMessage framed with
    | .error _ => (c, false)
    | .ok parsed =>
      let (session, check) := c.session.onInbound parsed
      let decision := classifyInbound parsed check
      ({ c with session }.noteKind decision.kind).act P W decision

/-- The loop of `DrainFramedMessages`. Every message takes bytes from the framer, so a
`fuel` above what it holds is never used up. -/
def drain : ℕ → FixClient → FixClient × Bool
  | 0, c => (c, true)
  | fuel + 1, c =>
    match c.framer.nextMessage with
    | (framer, none) => ({ c with framer }, framer.good)
    | (framer, some framed) =>
      match { c with framer }.handleFramed P W framed with
      | (c, true) => drain fuel c
      | (c, false) => (c, false)

def drainFramedMessages : FixClient × Bool := drain P W (c.framer.view.length + 1) c

/-- Nothing is owed before the Logon is accepted, or with an interval of zero. The time
since the last message is a 64-bit difference. -/
def sendHeartbeatIfDue (nowNs : ℕ) : FixClient × Bool :=
  if ¬ c.loggedOn ∨ c.session.config.heartbeatIntervalSeconds ≤ 0 then (c, true)
  else if ((nowNs : Int) - c.lastOutboundNs) % 2 ^ 64 <
      c.session.config.heartbeatIntervalSeconds * kNanosPerSecond then (c, true)
  else c.sendBuilt W (c.session.buildHeartbeat P (c.clockNs W))

/-- What a round does with what `recv` returned. -/
def receive (round : Round) : FixClient × Bool :=
  match round.received with
  | .interrupted => (c, true)
  | .timedOut =>
    if c.watchdog.isStale round.receivedNs then
      ({ c with forcedReconnects := c.forcedReconnects + 1, watchdog := c.watchdog.disarm }, false)
    else (c, true)
  | .failed => (c, false)
  | .closed => (c, false)
  | .data bytes =>
    { c with
      watchdog := c.watchdog.noteActivity round.receivedNs
      framer := c.framer.append bytes }.drainFramedMessages P W

/-- One round of the read loop, or what follows the loop once a stop is under way. The
client goes on if the second component says so. -/
def takeRound (round : Round) : FixClient × Bool :=
  if round.stopping then
    if c.loggedOn ∧ round.stopRequested then
      ((c.sendBuilt W (c.session.buildLogout P (ascii "shutting down") (c.clockNs W))).1, false)
    else (c, false)
  else
    match c.sendHeartbeatIfDue P W round.heartbeatNs with
    | (c, false) => (c, false)
    | (c, true) => c.receive P W round

def readLoop : FixClient → List Round → FixClient × Bool
  | c, [] => (c, true)
  | c, round :: rounds =>
    match c.takeRound P W round with
    | (c, true) => readLoop c rounds
    | (c, false) => (c, false)

/-- Everything that defines a connection starts over. -/
def startOver (startNs : ℕ) : FixClient :=
  { c with
    framer := .init kMaxBodyLength
    session := c.session.resetSequenceNumbers
    loggedOn := false
    subscribed := false
    lastOutboundNs := startNs }

/-- The reason given to `BeginConnect`. -/
def connectReason (config : FixClientConfig) : Bytes :=
  ascii "deribit fix " ++ joinSymbols config.symbols ++ ascii " connected to " ++ config.host ++ ascii ":" ++
    natText config.port

/-- `RunOneConnection` up to the last of the rounds given. The capture is closed on every
way out. -/
def runOneConnection (run : ConnectionRun) : FixClient :=
  let c := { c with connectionAttempts := c.connectionAttempts + 1 }
  if ¬ run.connected then c
  else
    match (c.startOver run.startNs).perform W (.beginConnect (connectReason c.config)) with
    | (c, false) => ({ c with fatal := true }.perform W .close).1
    | (c, true) =>
      match c.session.buildLogon P run.nonce run.logonNs (c.clockNs W) with
      | .error _ => (c.perform W .close).1
      | .ok built =>
        match c.sendBuilt W built with
        | (c, false) => (c.perform W .close).1
        | (c, true) =>
          match { c with watchdog := c.watchdog.noteActivity run.loggedNs }.readLoop P W run.rounds with
          | (c, true) => c
          | (c, false) => (c.perform W .close).1

end FixClient

end Deribit

end CryptoTrader
