import CryptoTrader.Spec.FixMessage

/-! Building FIX messages (`feed_handler/fix/fix_message.cpp`, `BuildMessage`). -/

namespace CryptoTrader.Fix

/-- An outbound field. It owns its value and a parsed one views it; here they are the
same. Tags are the named ones, which are not negative. -/
abbrev Field := FieldView

def Field.bytes (one : Field) : Bytes := natText one.tag ++ [kEquals] ++ one.value ++ [kSoh]

/-- `ChecksumField`. -/
def checksumField (digits : Bytes) : Bytes := ascii "10=" ++ digits ++ [kSoh]

/-- The part of a message its checksum covers: the envelope and the body. -/
def buildUnchecked (fields : List Field) : Bytes :=
  let body := fields.flatMap Field.bytes
  beginStringPrefix ++ ascii "9=" ++ natText body.length ++ [kSoh] ++ body

/-- `BuildMessage` of fields that are in wire order. -/
def buildMessage (fields : List Field) : Bytes :=
  buildUnchecked fields ++ checksumField (formatChecksum (buildUnchecked fields))

/-- The fields every session message starts with. -/
structure SessionHeader where
  msgType : Bytes
  senderCompId : Bytes
  targetCompId : Bytes
  msgSeqNum : ℕ
  sendingTime : Bytes
  deriving DecidableEq, Repr

def SessionHeader.fields (header : SessionHeader) : List Field :=
  [⟨Tag.kMsgType, header.msgType⟩, ⟨Tag.kSenderCompId, header.senderCompId⟩, ⟨Tag.kTargetCompId, header.targetCompId⟩,
    ⟨Tag.kMsgSeqNum, natText header.msgSeqNum⟩, ⟨Tag.kSendingTime, header.sendingTime⟩]

/-- `BuildMessage` of a header and a body. -/
def buildSessionMessage (header : SessionHeader) (body : List Field) : Bytes := buildMessage (header.fields ++ body)

end CryptoTrader.Fix
