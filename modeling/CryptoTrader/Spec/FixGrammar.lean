import CryptoTrader.Spec.FixMessage

/-! The messages the parser is for. A message is the text of its fields, one after the
other with nothing between them: BeginString, BodyLength, MsgType and the rest of the
body, CheckSum. The parser is not used to say what a message is. -/

namespace CryptoTrader.Fix

/-- A field as it is written: digits that stand for its tag, an equals sign, a value and
the SOH. -/
structure FieldText where
  digits : Bytes
  value : Bytes
  digits_ne_nil : digits ≠ []
  digits_isDigit : ∀ byte ∈ digits, isDigit byte = true
  tag_lt : decimalValue digits < 2 ^ 31
  value_soh : kSoh ∉ value

namespace FieldText

def tag (text : FieldText) : ℕ := decimalValue text.digits

def bytes (text : FieldText) : Bytes := text.digits ++ kEquals :: (text.value ++ [kSoh])

def view (text : FieldText) : FieldView := ⟨text.tag, text.value⟩

end FieldText

/-- The text of some fields. -/
def render (texts : List FieldText) : Bytes := texts.flatMap FieldText.bytes

def byteSum (bytes : Bytes) : ℕ := (bytes.map UInt8.toNat).sum

/-- A decimal number in digits. -/
structure IsDecimal (text : Bytes) (number : ℕ) : Prop where
  ne_nil : text ≠ []
  isDigit : ∀ byte ∈ text, isDigit byte = true
  value : decimalValue text = number

/-- A whole message. -/
structure MessageText where
  beginString : FieldText
  bodyLength : FieldText
  msgType : FieldText
  body : List FieldText
  checkSum : FieldText
  beginString_view : beginString.view = ⟨Tag.kBeginString, kBeginString⟩
  bodyLength_tag : bodyLength.tag = Tag.kBodyLength
  bodyLength_value : IsDecimal bodyLength.value (render (msgType :: body)).length
  msgType_tag : msgType.tag = Tag.kMsgType
  body_tag : ∀ text ∈ msgType :: body, text.tag ≠ Tag.kCheckSum
  /-- The last MsgType is the one that counts. -/
  last_msgType : ∀ text ∈ ((msgType :: body).filter (·.tag = Tag.kMsgType)).getLast?, text.value ≠ []
  checkSum_tag : checkSum.tag = Tag.kCheckSum
  checkSum_length : checkSum.value.length = 3
  checkSum_value : IsDecimal checkSum.value (byteSum (render (beginString :: bodyLength :: msgType :: body)) % 256)

namespace MessageText

/-- All fields in their order. -/
def texts (message : MessageText) : List FieldText :=
  message.beginString :: message.bodyLength :: message.msgType :: message.body ++ [message.checkSum]

def bytes (message : MessageText) : Bytes := render message.texts

def fields (message : MessageText) : List FieldView := message.texts.map FieldText.view

end MessageText

end CryptoTrader.Fix
