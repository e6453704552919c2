import CryptoTrader.Spec.FixMessage
import CryptoTrader.Spec.Journal

/-! The tool that cuts a small journal off a capture (`book_adapter/tools/journal_slice.cpp`):
its own reader of records, the classification of a record by the first MsgType in it, and
the scan of the finished slice. The input is the content of the file; the arguments and
the printed counts are left out. -/

namespace CryptoTrader.JournalSlice

open Journal

def kMsgTypePrefix : Bytes := Fix.kSoh :: ascii "35="
def kLogonMarker : Bytes := Fix.kSoh :: ascii "35=A" ++ [Fix.kSoh]
def kRawDataTag : Bytes := Fix.kSoh :: ascii "96="
def kPasswordTag : Bytes := Fix.kSoh :: ascii "554="

structure Counts where
  recordsRead : ℕ := 0
  recordsKept : ℕ := 0
  connectRecords : ℕ := 0
  snapshots : ℕ := 0
  incrementals : ℕ := 0
  otherKept : ℕ := 0
  logonsDropped : ℕ := 0
  bytesKept : ℕ := 0
  sliceLogons : ℕ := 0
  sliceRawData : ℕ := 0
  slicePassword : ℕ := 0
  deriving DecidableEq, Repr

/-- `std::string_view::find`: where the pattern first occurs. -/
def find (pattern : Bytes) : Bytes → Option ℕ
  | [] => if pattern = [] then some 0 else none
  | byte :: text => if pattern.isPrefixOf (byte :: text) then some 0 else (find pattern text).map (· + 1)

/-- The loop of `CountOccurrences`. Every round goes past an occurrence, so the length is
enough rounds for a pattern that is not empty. -/
def countRounds (pattern : Bytes) : ℕ → Bytes → ℕ
  | 0, _ => 0
  | rounds + 1, text =>
    match find pattern text with
    | none => 0
    | some pos => countRounds pattern rounds (text.drop (pos + pattern.length)) + 1

def countOccurrences (text pattern : Bytes) : ℕ := countRounds pattern (text.length + 1) text

/-- The value of the first MsgType, up to the next SOH; empty when there is none. -/
def msgType (text : Bytes) : Bytes :=
  match find kMsgTypePrefix text with
  | none => []
  | some pos =>
    let rest := text.drop (pos + kMsgTypePrefix.length)
    let value := rest.takeWhile (· ≠ Fix.kSoh)
    if value.length = rest.length then [] else value

structure Record where
  header : Bytes
  payload : Bytes
  trailer : Bytes
  type : UInt8
  deriving DecidableEq, Repr

section Build

variable (J : JournalPlatform)

/-- The next record, whole and with its checksum right, or none at the end of the file. -/
def readRecord (stream : Bytes) (index : ℕ) : Except Bytes (Option (Record × Bytes)) :=
  if stream = [] then .ok none
  else
    let place := ascii "record " ++ natText index ++ ascii ": "
    match readExact kRecordHeaderSize stream with
    | none => .error (place ++ ascii "truncated header")
    | some (header, stream) =>
      let type := header.headD 0
      if recordType? type = none ∨ fieldAt header 4 4 > kMaxPayloadBytes then .error (place ++ ascii "unusable header")
      else
        match readExact (fieldAt header 4 4) stream with
        | none => .error (place ++ ascii "truncated")
        | some (payload, stream) =>
          match readExact kRecordTrailerSize stream with
          | none => .error (place ++ ascii "truncated")
          | some (trailer, stream) =>
            if (recordCrc J header payload).toNat ≠ loadLe trailer then .error (place ++ ascii "checksum mismatch")
            else .ok (some (⟨header, payload, trailer, type⟩, stream))

/-- Counts a record and says whether it is kept: everything but a Logon is. -/
def tally (record : Record) (counts : Counts) : Bool × Counts :=
  let counts := { counts with recordsRead := counts.recordsRead + 1 }
  if record.type = RecordType.connect.toByte then
    (true, { counts with connectRecords := counts.connectRecords + 1, recordsKept := counts.recordsKept + 1 })
  else if msgType record.payload = Fix.MsgType.kLogon then
    (false, { counts with logonsDropped := counts.logonsDropped + 1 })
  else if msgType record.payload = Fix.MsgType.kMarketDataSnapshotFullRefresh then
    (true, { counts with snapshots := counts.snapshots + 1, recordsKept := counts.recordsKept + 1 })
  else if msgType record.payload = Fix.MsgType.kMarketDataIncrementalRefresh then
    (true, { counts with incrementals := counts.incrementals + 1, recordsKept := counts.recordsKept + 1 })
  else (true, { counts with otherKept := counts.otherKept + 1, recordsKept := counts.recordsKept + 1 })

/-- The loop of `BuildSlice`. Every record takes bytes off the stream, so its length bounds
the rounds. -/
def sliceRounds (maxIncrementals : ℕ) : ℕ → Bytes → Counts → Bytes → Except Bytes (Bytes × Counts)
  | 0, _, counts, slice => .ok (slice, counts)
  | rounds + 1, stream, counts, slice =>
    if counts.incrementals < maxIncrementals then
      match readRecord J stream counts.recordsRead with
      | .error reason => .error reason
      | .ok none => .ok (slice, counts)
      | .ok (some (record, stream)) =>
        let (kept, counts) := tally record counts
        sliceRounds maxIncrementals rounds stream counts
          (if kept then slice ++ record.header ++ record.payload ++ record.trailer else slice)
    else .ok (slice, counts)

/-- The finished slice is searched for what must not be in it. -/
def checkSlice (slice : Bytes) (counts : Counts) : Except Bytes (Bytes × Counts) :=
  let counts := { counts with
    sliceLogons := countOccurrences slice kLogonMarker
    sliceRawData := countOccurrences slice kRawDataTag
    slicePassword := countOccurrences slice kPasswordTag }
  if counts.sliceLogons ≠ 0 ∨ counts.sliceRawData ≠ 0 ∨ counts.slicePassword ≠ 0 then
    .error (ascii "the slice still holds a Logon or a credential-shaped field, nothing written")
  else if counts.snapshots = 0 then .error (ascii "the slice holds no 35=W snapshot, nothing written")
  else .ok (slice, { counts with bytesKept := slice.length })

/-- Of the file header only the magic is looked at. -/
def buildSlice (content : Bytes) (maxIncrementals : ℕ) : Except Bytes (Bytes × Counts) :=
  match readExact kFileHeaderSize content with
  | none => .error (ascii "not a v1 journal: bad or short file header")
  | some (header, stream) =>
    if header.take kMagic.length ≠ kMagic then .error (ascii "not a v1 journal: bad or short file header")
    else
      match sliceRounds J maxIncrementals (stream.length + 1) stream {} header with
      | .error reason => .error reason
      | .ok (slice, counts) => checkSlice slice counts

end Build

end CryptoTrader.JournalSlice
