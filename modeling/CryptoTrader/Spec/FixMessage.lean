import CryptoTrader.Spec.Types
import Mathlib.Order.Nat

/-! FIX messages (`feed_handler/fix/fix_message.h`, `fix_message.cpp`): fields, the
parser with its checks in the source's order, and repeating groups. Integer limits of
`std::from_chars` are explicit. -/

namespace CryptoTrader.Fix

def kSoh : UInt8 := 1
def kEquals : UInt8 := 61
def kMinus : UInt8 := 45
def kBeginString : Bytes := ascii "FIX.4.4"
def kCheckSumFieldSize : ℕ := 7
def kCheckSumDigits : ℕ := 3
def kCheckSumModulus : ℕ := 256

namespace Tag

def kBeginString : ℕ := 8
def kBodyLength : ℕ := 9
def kCheckSum : ℕ := 10
def kMsgSeqNum : ℕ := 34
def kMsgType : ℕ := 35
def kPossDupFlag : ℕ := 43
def kSenderCompId : ℕ := 49
def kSendingTime : ℕ := 52
def kSymbol : ℕ := 55
def kTargetCompId : ℕ := 56
def kText : ℕ := 58
def kRawData : ℕ := 96
def kEncryptMethod : ℕ := 98
def kHeartBtInt : ℕ := 108
def kTestReqId : ℕ := 112
def kNoRelatedSym : ℕ := 146
def kMdReqId : ℕ := 262
def kSubscriptionRequestType : ℕ := 263
def kMarketDepth : ℕ := 264
def kNoMdEntryTypes : ℕ := 267
def kNoMdEntries : ℕ := 268
def kMdEntryType : ℕ := 269
def kMdEntryPx : ℕ := 270
def kMdEntrySize : ℕ := 271
def kMdEntryDate : ℕ := 272
def kMdUpdateAction : ℕ := 279
def kUsername : ℕ := 553
def kPassword : ℕ := 554

end Tag

namespace MsgType

def kHeartbeat : Bytes := ascii "0"
def kTestRequest : Bytes := ascii "1"
def kReject : Bytes := ascii "3"
def kLogout : Bytes := ascii "5"
def kLogon : Bytes := ascii "A"
def kMarketDataRequest : Bytes := ascii "V"
def kMarketDataRequestReject : Bytes := ascii "Y"
def kMarketDataSnapshotFullRefresh : Bytes := ascii "W"
def kMarketDataIncrementalRefresh : Bytes := ascii "X"

end MsgType

def isDigit (byte : UInt8) : Bool := 48 ≤ byte && byte ≤ 57

def digitValue (byte : UInt8) : ℕ := byte.toNat - 48

/-- The number a run of digits stands for. -/
def decimalValue (digits : Bytes) : ℕ := digits.foldl (fun n byte => n * 10 + digitValue byte) 0

/-- `BeginStringPrefix()`: "8=FIX.4.4" and the SOH. -/
def beginStringPrefix : Bytes := ascii "8=" ++ kBeginString ++ [kSoh]

/-- `std::from_chars` of an unsigned 64-bit value, the whole text. -/
def toSize (value : Bytes) : Option ℕ :=
  if value ≠ [] ∧ value.all isDigit ∧ decimalValue value < 2 ^ 64 then some (decimalValue value) else none

/-- A whole-value decimal integer: `std::from_chars` of a signed 64-bit value. -/
def toInt (value : Bytes) : Option Int :=
  match value with
  | [] => none
  | sign :: digits =>
    if sign = kMinus then
      if digits ≠ [] ∧ digits.all isDigit ∧ decimalValue digits ≤ 2 ^ 63 then some (-decimalValue digits) else none
    else if value.all isDigit ∧ decimalValue value < 2 ^ 63 then some (decimalValue value) else none

structure FieldView where
  tag : ℕ
  value : Bytes
  deriving DecidableEq, Repr

def firstValue (fields : List FieldView) (tag : ℕ) : Option Bytes :=
  (fields.find? (·.tag = tag)).map (·.value)

structure ScannedField where
  tag : ℕ
  value : Bytes
  next : ℕ
  deriving DecidableEq, Repr

/-- Reads one field starting at `offset`. The value runs to the next SOH, not to the
next equals sign. -/
def scanField (raw : Bytes) (offset : ℕ) : Except String ScannedField :=
  let rest := raw.drop offset
  let tagText := rest.takeWhile (· ≠ kEquals)
  if tagText.length = rest.length then .error "fix: field has no '=' separator"
  else if tagText = [] then .error "fix: field has an empty tag"
  else if ¬ tagText.all isDigit then .error "fix: field tag is not a number"
  else if 2 ^ 31 ≤ decimalValue tagText then .error "fix: field tag does not fit in an int"
  else
    let afterEquals := rest.drop (tagText.length + 1)
    let value := afterEquals.takeWhile (· ≠ kSoh)
    if value.length = afterEquals.length then .error "fix: field is not SOH-terminated"
    else .ok ⟨decimalValue tagText, value, offset + tagText.length + 1 + value.length + 1⟩

/-- Three decimal digits of the byte sum modulo 256. -/
def formatChecksum (bytes : Bytes) : Bytes :=
  let sum := (bytes.map UInt8.toNat).sum % kCheckSumModulus
  [sum / 100 % 10, sum / 10 % 10, sum % 10].map fun digit => (48 + digit).toUInt8

structure ParsedMessage where
  fields : List FieldView
  msgType : Bytes
  deriving DecidableEq, Repr

namespace ParsedMessage

/-- Everything between BodyLength and CheckSum. -/
def bodyFields (message : ParsedMessage) : List FieldView :=
  if message.fields.length ≤ 3 then [] else (message.fields.drop 2).take (message.fields.length - 3)

def get (message : ParsedMessage) (tag : ℕ) : Option Bytes := firstValue message.fields tag

def getInt (message : ParsedMessage) (tag : ℕ) : Option Int := (message.get tag).bind toInt

def count (message : ParsedMessage) (tag : ℕ) : ℕ := (message.fields.filter (·.tag = tag)).length

end ParsedMessage

/-- The parser's locals in the loop over the body. -/
structure BodyScan where
  message : ParsedMessage
  offset : ℕ
  checkSumOffset : ℕ
  checkSumValue : Bytes
  deriving DecidableEq, Repr

def BodyScan.push (scan : BodyScan) (one : ScannedField) : BodyScan :=
  { scan with
    message := ⟨scan.message.fields ++ [⟨one.tag, one.value⟩],
      if one.tag = Tag.kMsgType then one.value else scan.message.msgType⟩
    offset := one.next }

/-- The loop over the body, up to the CheckSum field. Every field takes at least two
bytes, so a `fuel` of the message's length is never used up. -/
def scanBody (raw : Bytes) : ℕ → BodyScan → Except String BodyScan
  | 0, scan => .ok scan
  | fuel + 1, scan =>
    if scan.offset < raw.length then
      match scanField raw scan.offset with
      | .error reason => .error reason
      | .ok one =>
        if one.tag = Tag.kCheckSum then
          .ok { scan.push one with checkSumOffset := scan.offset, checkSumValue := one.value }
        else if scan.message.fields.length = 2 ∧ one.tag ≠ Tag.kMsgType then
          .error "fix: MsgType(35) is not the first body field"
        else scanBody raw fuel (scan.push one)
    else .ok scan

/-- The checks after the loop. -/
def checkBody (raw : Bytes) (bodyStart declared : ℕ) (scan : BodyScan) : Except String ParsedMessage :=
  if scan.checkSumOffset = 0 then .error "fix: message has no CheckSum(10) field"
  else if scan.offset ≠ raw.length then .error "fix: trailing bytes after CheckSum(10)"
  else if scan.message.msgType = [] then .error "fix: message has no MsgType(35) field"
  else if declared ≠ scan.checkSumOffset - bodyStart then
    .error ("fix: BodyLength(9) says " ++ toString declared ++ " but the body is " ++
      toString (scan.checkSumOffset - bodyStart) ++ " bytes")
  else if scan.checkSumValue.length ≠ kCheckSumDigits then .error "fix: CheckSum(10) is not exactly three digits"
  else
    let expected := formatChecksum (raw.take scan.checkSumOffset)
    if scan.checkSumValue ≠ expected then
      .error ("fix: CheckSum(10) mismatch, computed " ++ String.ofList (expected.map fun b => Char.ofNat b.toNat))
    else .ok scan.message

def parseMessage (raw : Bytes) : Except String ParsedMessage := do
  let beginString ← scanField raw 0
  if beginString.tag ≠ Tag.kBeginString then
    .error "fix: message does not start with BeginString(8)"
  else if beginString.value ≠ kBeginString then
    .error "fix: unsupported BeginString, expected FIX.4.4"
  else
    let bodyLength ← scanField raw beginString.next
    if bodyLength.tag ≠ Tag.kBodyLength then
      .error "fix: BodyLength(9) does not follow BeginString(8)"
    else
      match toSize bodyLength.value with
      | none => .error "fix: BodyLength(9) is not a number"
      | some declared =>
        let envelope : ParsedMessage :=
          ⟨[⟨beginString.tag, beginString.value⟩, ⟨bodyLength.tag, bodyLength.value⟩], []⟩
        let scan ← scanBody raw raw.length ⟨envelope, bodyLength.next, 0, []⟩
        checkBody raw bodyLength.next declared scan

/-- One repetition of a group. -/
structure GroupEntry where
  fields : List FieldView
  deriving DecidableEq, Repr

def GroupEntry.get (entry : GroupEntry) (tag : ℕ) : Option Bytes := firstValue entry.fields tag

def GroupEntry.getInt (entry : GroupEntry) (tag : ℕ) : Option Int := (entry.get tag).bind toInt

structure RepeatingGroup where
  declaredCount : ℕ
  entries : List GroupEntry
  deriving DecidableEq, Repr

def RepeatingGroup.truncated (group : RepeatingGroup) : Bool := group.entries.length < group.declaredCount

/-- The loop of `ReadGroup`: where entries start and where the group ends. -/
def entryStarts (memberTags : List ℕ) (delimiter declared : ℕ) : ℕ → List ℕ → List FieldView → List ℕ × ℕ
  | offset, starts, [] => (starts, offset)
  | offset, starts, field :: fields =>
    if field.tag ∉ memberTags then (starts, offset)
    else if field.tag = delimiter then
      -- NumInGroup is authoritative: what follows is outside the group
      if starts.length = declared then (starts, offset)
      else entryStarts memberTags delimiter declared (offset + 1) (starts ++ [offset]) fields
    else entryStarts memberTags delimiter declared (offset + 1) starts fields

/-- The subspans from each start to the next one, or to the group's end. -/
def entrySpans (fields : List FieldView) (starts : List ℕ) (stop : ℕ) : List GroupEntry :=
  (starts.zip (starts.drop 1 ++ [stop])).map fun (first, last) => ⟨(fields.drop first).take (last - first)⟩

def readGroup (message : ParsedMessage) (countTag : ℕ) (memberTags : List ℕ) : Except String RepeatingGroup :=
  let fields := message.bodyFields
  let countAt := fields.findIdx (·.tag = countTag)
  match fields[countAt]? with
  | none => .error ("fix: message has no NumInGroup field " ++ toString countTag)
  | some count =>
    match toInt count.value with
    | some (.ofNat 0) => .ok ⟨0, []⟩
    | some (.ofNat declared) =>
      match fields[countAt + 1]? with
      | none => .ok ⟨declared, []⟩
      | some first =>
        if first.tag ∉ memberTags then .ok ⟨declared, []⟩
        else
          let (starts, stop) :=
            entryStarts memberTags first.tag declared (countAt + 1) [] (fields.drop (countAt + 1))
          .ok ⟨declared, entrySpans fields starts stop⟩
    | _ => .error ("fix: NumInGroup field " ++ toString countTag ++ " is not a non-negative integer")

end CryptoTrader.Fix
