import CryptoTrader.Spec.FixBuild

/-! The Deribit FIX session (`feed_handler/deribit/deribit_fix_session.cpp`): the messages
the client sends, and the sequence numbers of both directions. A function that reads the
clock takes what it read. The counters are natural numbers: the inbound one never passes
the largest `MsgSeqNum`, and the outbound one counts messages sent. -/

namespace CryptoTrader.Deribit

open CryptoTrader.Fix

/-- OpenSSL's base64 and SHA-256, which may fail, and `strftime` of a second in UTC. -/
structure SessionPlatform where
  encodeBlock : Bytes → Bytes
  digest : Bytes → Option Bytes
  utcText : ℕ → Bytes

def kTargetCompId : Bytes := ascii "DERIBITSERVER"
def kHeartbeatIntervalSeconds : Int := 30
def kSha256Bytes : ℕ := 32
def kNanosPerSecond : ℕ := 1000000000
def kNanosPerMilli : ℕ := 1000000

structure SessionConfig where
  clientId : Bytes
  clientSecret : Bytes
  targetCompId : Bytes := kTargetCompId
  heartbeatIntervalSeconds : Int := kHeartbeatIntervalSeconds
  deriving DecidableEq, Repr

structure LogonCredentials where
  rawData : Bytes
  password : Bytes
  deriving DecidableEq, Repr

section Platform

variable (P : SessionPlatform)

def base64Encode (data : Bytes) : Bytes := if data = [] then [] else P.encodeBlock data

/-- All zeros if the digest fails. -/
def sha256 (data : Bytes) : Bytes := (P.digest data).getD (List.replicate kSha256Bytes 0)

/-- The hash is over the text of RawData, not over the nonce. -/
def makeLogonCredentials (timestampMs : ℕ) (nonce clientSecret : Bytes) : LogonCredentials :=
  let rawData := natText timestampMs ++ ascii "." ++ base64Encode P nonce
  ⟨rawData, base64Encode P (sha256 P (rawData ++ clientSecret))⟩

/-- `FormatUtcTimestamp`: the second, and three digits of milliseconds. -/
def formatUtcTimestamp (realtimeNs : ℕ) : Bytes :=
  let millis := realtimeNs % kNanosPerSecond / kNanosPerMilli
  P.utcText (realtimeNs / kNanosPerSecond) ++ ascii "." ++
    [millis / 100 % 10, millis / 10 % 10, millis % 10].map fun digit => (48 + digit).toUInt8

end Platform

inductive SequenceStatus where
  | inSequence
  | gap
  | duplicate
  | possibleDuplicate
  | malformed
  deriving DecidableEq, Repr

/-- `ToString`. -/
def SequenceStatus.text : SequenceStatus → Bytes
  | .inSequence => ascii "in-sequence"
  | .gap => ascii "gap"
  | .duplicate => ascii "duplicate"
  | .possibleDuplicate => ascii "possible-duplicate"
  | .malformed => ascii "malformed"

structure InboundCheck where
  status : SequenceStatus
  expected : ℕ
  received : ℕ
  missing : ℕ
  deriving DecidableEq, Repr

namespace InboundCheck

def sessionBroken (check : InboundCheck) : Bool :=
  check.status = .gap ∨ check.status = .duplicate ∨ check.status = .malformed

def describe (check : InboundCheck) : Bytes :=
  check.status.text ++ ascii ": expected MsgSeqNum " ++ natText check.expected ++ ascii ", received " ++
    natText check.received ++
    (if check.missing ≠ 0 then ascii " (" ++ natText check.missing ++ ascii " missing)" else [])

end InboundCheck

structure FixSession where
  config : SessionConfig
  nextOutbound : ℕ := 1
  expectedInbound : ℕ := 1
  gapsDetected : ℕ := 0
  deriving DecidableEq, Repr

namespace FixSession

section Outbound

variable (P : SessionPlatform) (s : FixSession)

/-- Every header takes a number. -/
def nextHeader (type : Bytes) (clockNs : ℕ) : FixSession × SessionHeader :=
  ({ s with nextOutbound := s.nextOutbound + 1 },
    ⟨type, s.config.clientId, s.config.targetCompId, s.nextOutbound, formatUtcTimestamp P clockNs⟩)

def send (type : Bytes) (body : List Field) (clockNs : ℕ) : FixSession × Bytes :=
  let (s, header) := s.nextHeader P type clockNs
  (s, buildSessionMessage header body)

def buildLogonWithNonce (timestampMs : ℕ) (nonce : Bytes) (clockNs : ℕ) : FixSession × Bytes :=
  let credentials := makeLogonCredentials P timestampMs nonce s.config.clientSecret
  s.send P MsgType.kLogon [⟨Tag.kEncryptMethod, ascii "0"⟩,
    ⟨Tag.kHeartBtInt, intText s.config.heartbeatIntervalSeconds⟩, ⟨Tag.kUsername, s.config.clientId⟩,
    ⟨Tag.kRawData, credentials.rawData⟩, ⟨Tag.kPassword, credentials.password⟩] clockNs

/-- `BuildLogon`, with the nonce if the random generator gave one. A failure takes no
number. -/
def buildLogon (nonce : Option Bytes) (timestampNs clockNs : ℕ) : Except Bytes (FixSession × Bytes) :=
  match nonce with
  | none => .error (ascii "deribit: OpenSSL CSPRNG failed to produce a Logon nonce")
  | some nonce => .ok (s.buildLogonWithNonce P (timestampNs / kNanosPerMilli) nonce clockNs)

/-- Snapshot and updates, full depth, both sides, for every symbol. -/
def buildMarketDataRequest (mdReqId : Bytes) (symbols : List Bytes) (clockNs : ℕ) : FixSession × Bytes :=
  s.send P MsgType.kMarketDataRequest ([⟨Tag.kMdReqId, mdReqId⟩, ⟨Tag.kSubscriptionRequestType, ascii "1"⟩,
    ⟨Tag.kMarketDepth, ascii "0"⟩, ⟨Tag.kNoMdEntryTypes, ascii "2"⟩, ⟨Tag.kMdEntryType, ascii "0"⟩,
    ⟨Tag.kMdEntryType, ascii "1"⟩, ⟨Tag.kNoRelatedSym, natText symbols.length⟩] ++
    symbols.map fun symbol => ⟨Tag.kSymbol, symbol⟩) clockNs

def buildHeartbeat (clockNs : ℕ) : FixSession × Bytes := s.send P MsgType.kHeartbeat [] clockNs

def buildHeartbeatResponse (testReqId : Bytes) (clockNs : ℕ) : FixSession × Bytes :=
  s.send P MsgType.kHeartbeat [⟨Tag.kTestReqId, testReqId⟩] clockNs

def buildLogout (text : Bytes) (clockNs : ℕ) : FixSession × Bytes :=
  if text = [] then s.send P MsgType.kLogout [] clockNs
  else s.send P MsgType.kLogout [⟨Tag.kText, text⟩] clockNs

end Outbound

section Inbound

variable (s : FixSession)

/-- A resend moves nothing. After a gap the expectation is one past what arrived. -/
def onInboundSeqNum (msgSeqNum : ℕ) (possibleDuplicate : Bool) : FixSession × InboundCheck :=
  if possibleDuplicate then (s, ⟨.possibleDuplicate, s.expectedInbound, msgSeqNum, 0⟩)
  else if msgSeqNum = s.expectedInbound then
    ({ s with expectedInbound := s.expectedInbound + 1 }, ⟨.inSequence, s.expectedInbound, msgSeqNum, 0⟩)
  else if msgSeqNum < s.expectedInbound then (s, ⟨.duplicate, s.expectedInbound, msgSeqNum, 0⟩)
  else
    ({ s with expectedInbound := msgSeqNum + 1, gapsDetected := s.gapsDetected + 1 },
      ⟨.gap, s.expectedInbound, msgSeqNum, msgSeqNum - s.expectedInbound⟩)

def onInbound (message : ParsedMessage) : FixSession × InboundCheck :=
  match message.getInt Tag.kMsgSeqNum with
  | some (.ofNat msgSeqNum) => s.onInboundSeqNum msgSeqNum (message.get Tag.kPossDupFlag = some (ascii "Y"))
  | _ => (s, ⟨.malformed, s.expectedInbound, 0, 0⟩)

def resetSequenceNumbers : FixSession := { s with nextOutbound := 1, expectedInbound := 1 }

end Inbound

end FixSession

end CryptoTrader.Deribit
