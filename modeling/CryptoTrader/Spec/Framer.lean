import CryptoTrader.Spec.FixMessage
import CryptoTrader.Lib.StreamDecoder

/-! The framer (`feed_handler/fix/fix_message.cpp`, class `Framer`): it cuts whole
messages off a byte stream by their BodyLength. The lengths are natural numbers: at
most ten digits of a BodyLength are read, so no 64-bit sum can overflow. -/

namespace CryptoTrader.Fix

def kMaxBodyLengthDigits : ℕ := 10

/-- The largest body a framer takes unless it is told otherwise. -/
def kMaxBodyLength : ℕ := 2 ^ 20

/-- How the loop over the digits of BodyLength ends. -/
inductive LengthScan where
  | waiting
  | bad (reason : String)
  | done (digits bodyLength : ℕ)
  deriving DecidableEq, Repr

def scanBodyLength (maxBodyLength : ℕ) : ℕ → ℕ → Bytes → LengthScan
  | _, _, [] => .waiting
  | digits, bodyLength, byte :: rest =>
    if byte = kSoh then .done digits bodyLength
    else if ¬ isDigit byte ∨ kMaxBodyLengthDigits ≤ digits then .bad "fix: BodyLength(9) is not a number"
    else if maxBodyLength < bodyLength * 10 + digitValue byte then
      .bad "fix: BodyLength(9) exceeds the maximum accepted message size"
    else scanBodyLength maxBodyLength (digits + 1) (bodyLength * 10 + digitValue byte) rest

/-- The offset of "9=" and of the first digit. -/
def digitsStart : ℕ := beginStringPrefix.length + 2

/-- The end of `NextMessage`, once BodyLength is known. -/
def checkTrailer (view : Bytes) (digits bodyLength : ℕ) : DecodeStep String :=
  if digits = 0 then .fail "fix: BodyLength(9) is empty"
  else
    let bodyStart := digitsStart + digits + 1
    let total := bodyStart + bodyLength + kCheckSumFieldSize
    if view.length < total then .more
    else if (view.drop (bodyStart + bodyLength)).take 3 ≠ ascii "10=" ∨ view[total - 1]? ≠ some kSoh then
      .fail "fix: no CheckSum(10) field where BodyLength(9) says the body ends"
    else .item total

/-- `NextMessage` on the bytes it has not consumed: a message of some length at the
front, a failure, or not enough bytes. -/
def frameHead (maxBodyLength : ℕ) (view : Bytes) : DecodeStep String :=
  if view = [] then .more
  else
    let comparable := min view.length beginStringPrefix.length
    if view.take comparable ≠ beginStringPrefix.take comparable then
      .fail "fix: stream does not start with 8=FIX.4.4"
    else if view.length < digitsStart then .more
    else if (view.drop beginStringPrefix.length).take 2 ≠ ascii "9=" then
      .fail "fix: BodyLength(9) does not follow BeginString(8)"
    else
      match scanBodyLength maxBodyLength 0 0 (view.drop digitsStart) with
      | .waiting => .more
      | .bad reason => .fail reason
      | .done digits bodyLength => checkTrailer view digits bodyLength

structure Framer where
  maxBodyLength : ℕ
  buffer : Bytes := []
  error : String := ""
  consumed : ℕ := 0
  messagesFramed : ℕ := 0
  deriving DecidableEq, Repr

namespace Framer

def init (maxBodyLength : ℕ) : Framer := ⟨maxBodyLength, [], "", 0, 0⟩

def good (f : Framer) : Bool := f.error = ""

def bufferedBytes (f : Framer) : ℕ := f.buffer.length - f.consumed

/-- `view.remove_prefix(consumed_)`. -/
def view (f : Framer) : Bytes := f.buffer.drop f.consumed

def compact (f : Framer) : Framer :=
  if f.consumed = 0 then f else { f with buffer := f.buffer.drop f.consumed, consumed := 0 }

def append (f : Framer) (bytes : Bytes) : Framer := { f.compact with buffer := f.compact.buffer ++ bytes }

def fail (f : Framer) (reason : String) : Framer := if f.error = "" then { f with error := reason } else f

/-- What `NextMessage` keeps and returns for each verdict. -/
def deliver (f : Framer) : DecodeStep String → Framer × Option Bytes
  | .more => (f, none)
  | .fail reason => (f.fail reason, none)
  | .item total =>
    ({ f with consumed := f.consumed + total, messagesFramed := f.messagesFramed + 1 }, some (f.view.take total))

def nextMessage (f : Framer) : Framer × Option Bytes :=
  if f.good then f.deliver (frameHead f.maxBodyLength f.view) else (f, none)

end Framer

/-- One call on a framer. -/
inductive FramerCall where
  | append (bytes : Bytes)
  | nextMessage
  deriving DecidableEq, Repr

/-- The bytes the calls append, in order. -/
def appended : List FramerCall → Bytes
  | [] => []
  | .append bytes :: calls => bytes ++ appended calls
  | .nextMessage :: calls => appended calls

namespace Framer

/-- The framer after a sequence of calls and the messages they returned. -/
def run (f : Framer) : List FramerCall → Framer × List Bytes
  | [] => (f, [])
  | .append bytes :: calls => run (f.append bytes) calls
  | .nextMessage :: calls =>
    let (f', message) := f.nextMessage
    let (final, messages) := run f' calls
    (final, message.toList ++ messages)

end Framer

end CryptoTrader.Fix
