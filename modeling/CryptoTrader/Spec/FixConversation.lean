import CryptoTrader.Spec.FixClient

/-! What a FIX connection is to its peer and to the journal, said by the messages that
arrive on it: which of them are handled and which one ends the connection, what each is
answered with, and how the messages sent are numbered. -/

namespace CryptoTrader.Deribit

open CryptoTrader.Fix

/-- The messages a framer cuts off a stream. -/
def framedMessages (stream : Bytes) : List Bytes :=
  ((Framer.init kMaxBodyLength).run (.append stream :: List.replicate (stream.length + 1) .nextMessage)).2

/-- The bytes that arrive in some rounds of the read loop: `recv` may fail or the peer
close the socket, and after a timeout too long the client leaves. -/
def inbound : StalenessWatchdog → List Round → Bytes
  | _, [] => []
  | watchdog, round :: rounds =>
    match round.received with
    | .interrupted => inbound watchdog rounds
    | .timedOut => if watchdog.isStale round.receivedNs then [] else inbound watchdog rounds
    | .failed => []
    | .closed => []
    | .data bytes => bytes ++ inbound (watchdog.noteActivity round.receivedNs) rounds

section Inbound

/-- The MsgSeqNum of a message, if it has a usable one. -/
def seqNum (message : ParsedMessage) : Option ℕ :=
  match message.getInt Tag.kMsgSeqNum with
  | some (.ofNat number) => some number
  | _ => none

/-- Flagged as a resend. -/
def isPossDup (message : ParsedMessage) : Bool := message.get Tag.kPossDupFlag = some (ascii "Y")

def parsed (raw : Bytes) : Option ParsedMessage := (parseMessage raw).toOption

/-- The numbers of the messages that are not flagged as resends. -/
def sequenceNumbers (messages : List Bytes) : List ℕ :=
  messages.filterMap fun raw => (parsed raw).bind fun message => if isPossDup message then none else seqNum message

/-- The number is usable, and the next one unless the message is flagged as a resend. -/
def InSequence (before : List Bytes) (message : ParsedMessage) : Prop :=
  ∃ number, seqNum message = some number ∧
    (isPossDup message ∨ number = (sequenceNumbers before).length + 1)

/-- A message goes on with the connection if it is a FIX message in sequence after those
handled before it, and not a Logout. -/
def GoesOn (before : List Bytes) (raw : Bytes) : Prop :=
  ∃ message, parsed raw = some message ∧ InSequence before message ∧ message.msgType ≠ MsgType.kLogout

instance (before : List Bytes) (message : ParsedMessage) : Decidable (InSequence before message) :=
  decidable_of_iff (∃ number ∈ seqNum message, isPossDup message ∨ number = (sequenceNumbers before).length + 1)
    (by rfl)

instance (before : List Bytes) (raw : Bytes) : Decidable (GoesOn before raw) :=
  decidable_of_iff (∃ message ∈ parsed raw, InSequence before message ∧ message.msgType ≠ MsgType.kLogout) (by rfl)

/-- The messages up to the first that ends the connection, without it. -/
def handledAfter : List Bytes → List Bytes → List Bytes
  | _, [] => []
  | before, raw :: messages => if GoesOn before raw then raw :: handledAfter (before ++ [raw]) messages else []

def handled (messages : List Bytes) : List Bytes := handledAfter [] messages

end Inbound

section Outbound

/-- What the client says to the peer. -/
inductive Outgoing where
  | logon (credentials : LogonCredentials)
  | marketDataRequest
  | heartbeatResponse (testReqId : Bytes)
  | heartbeat
  | logout
  deriving DecidableEq, Repr

def Outgoing.msgType : Outgoing → Bytes
  | .logon _ => MsgType.kLogon
  | .marketDataRequest => MsgType.kMarketDataRequest
  | .heartbeatResponse _ => MsgType.kHeartbeat
  | .heartbeat => MsgType.kHeartbeat
  | .logout => MsgType.kLogout

def Outgoing.body (session : SessionConfig) (client : FixClientConfig) : Outgoing → List Field
  | .logon credentials => [⟨Tag.kEncryptMethod, ascii "0"⟩, ⟨Tag.kHeartBtInt, intText session.heartbeatIntervalSeconds⟩,
      ⟨Tag.kUsername, session.clientId⟩, ⟨Tag.kRawData, credentials.rawData⟩, ⟨Tag.kPassword, credentials.password⟩]
  | .marketDataRequest => [⟨Tag.kMdReqId, client.mdReqId⟩, ⟨Tag.kSubscriptionRequestType, ascii "1"⟩,
      ⟨Tag.kMarketDepth, ascii "0"⟩, ⟨Tag.kNoMdEntryTypes, ascii "2"⟩, ⟨Tag.kMdEntryType, ascii "0"⟩,
      ⟨Tag.kMdEntryType, ascii "1"⟩, ⟨Tag.kNoRelatedSym, natText client.symbols.length⟩] ++
      client.symbols.map fun symbol => ⟨Tag.kSymbol, symbol⟩
  | .heartbeatResponse testReqId => [⟨Tag.kTestReqId, testReqId⟩]
  | .heartbeat => []
  | .logout => [⟨Tag.kText, ascii "shutting down"⟩]

/-- The message on the wire, with its number and the time it is sent. -/
def Outgoing.bytes (P : SessionPlatform) (session : SessionConfig) (client : FixClientConfig) (message : Outgoing)
    (number clockNs : ℕ) : Bytes :=
  buildSessionMessage
    ⟨message.msgType, session.clientId, session.targetCompId, number, formatUtcTimestamp P clockNs⟩
    (message.body session client)

/-- A Logon is among the messages. -/
def anyLogon (messages : List Bytes) : Bool :=
  messages.any fun raw => (parsed raw).any (·.msgType = MsgType.kLogon)

/-- The TestReqIDs of the TestRequests among the messages. -/
def testReqIds (messages : List Bytes) : List Bytes :=
  messages.filterMap fun raw => (parsed raw).bind fun message =>
    if message.msgType = MsgType.kTestRequest then some ((message.get Tag.kTestReqId).getD []) else none

/-- The answer to a message: the request for market data to the first Logon, a heartbeat
with the same id to a TestRequest. -/
def answer (before : List Bytes) (message : ParsedMessage) : List Outgoing :=
  if message.msgType = MsgType.kLogon then
    if anyLogon before then [] else [.marketDataRequest]
  else if message.msgType = MsgType.kTestRequest then
    [.heartbeatResponse ((message.get Tag.kTestReqId).getD [])]
  else []

end Outbound

/-- One thing said on a connection: a message handed to the journal, or one sent. -/
inductive Saying where
  | journaled (payload : Bytes)
  | sent (message : Outgoing)
  deriving DecidableEq, Repr

namespace Saying

def payload : Saying → Option Bytes
  | .journaled payload => some payload
  | .sent _ => none

def outgoing : Saying → Option Outgoing
  | .journaled _ => none
  | .sent message => some message

/-- The TestReqID that is answered. -/
def testReqId : Saying → Option Bytes
  | .sent (.heartbeatResponse testReqId) => some testReqId
  | _ => none

/-- Not a heartbeat of the client's own timer. -/
def unscheduled (saying : Saying) : Bool := saying ≠ .sent .heartbeat

end Saying

/-- The conversation after some messages: each is journaled and, if the connection goes
on, answered. -/
def conversationAfter : List Bytes → List Bytes → List Saying
  | _, [] => []
  | before, raw :: messages =>
    .journaled raw ::
      if GoesOn before raw then
        ((parsed raw).toList.flatMap (answer before)).map .sent ++ conversationAfter (before ++ [raw]) messages
      else []

/-- The effects that stand for a conversation. Messages are numbered as they are sent, from
the number given. -/
def transcript (P : SessionPlatform) (W : World) (session : SessionConfig) (client : FixClientConfig) :
    ℕ → ℕ → List Saying → List Effect
  | _, _, [] => []
  | index, number, .journaled payload :: sayings =>
    .onWireMessage payload :: transcript P W session client (index + 1) number sayings
  | index, number, .sent message :: sayings =>
    .send (message.bytes P session client number (W.realtimeNs index)) ::
      transcript P W session client (index + 1) (number + 1) sayings

end CryptoTrader.Deribit
