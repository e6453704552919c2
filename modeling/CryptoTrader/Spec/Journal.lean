import CryptoTrader.Spec.Feed

/-! The capture journal: its on-disk format (`feed_handler/journal_format.h`), the writer
(`journal_writer.cpp`) and the reader (`journal_reader.cpp`). A file is its header and
the records written to it; the stream library decides whether a write succeeds, and a
write that fails leaves the file as it was. -/

namespace CryptoTrader

/-- What the journal takes from libraries: zlib's `crc32`, and `gmtime_r` with `strftime`
for the time of a file name. Nothing is assumed of them. -/
structure JournalPlatform where
  crc32 : BitVec 32 → Bytes → BitVec 32
  utcText : ℕ → Bytes

namespace Journal

def kMagic : Bytes := ascii "CTJOURNL"
def kFormatVersion : ℕ := 1
def kFileHeaderSize : ℕ := 64
def kExchangeFieldSize : ℕ := 16
def kRecordHeaderSize : ℕ := 24
def kRecordTrailerSize : ℕ := 4
def kMaxPayloadBytes : ℕ := 64 * 1024 * 1024

inductive RecordType where
  | wireMessage
  | connect
  deriving DecidableEq, Repr

def RecordType.toByte : RecordType → UInt8
  | .wireMessage => 1
  | .connect => 2

/-- `IsKnownRecordType` and the cast that follows it. -/
def recordType? (raw : UInt8) : Option RecordType :=
  if raw = 1 then some .wireMessage else if raw = 2 then some .connect else none

/-- The low bytes of a value, least significant first. -/
def storeLe : ℕ → ℕ → Bytes
  | 0, _ => []
  | width + 1, value => UInt8.ofNat value :: storeLe width (value / 256)

def loadLe : Bytes → ℕ
  | [] => 0
  | byte :: bytes => byte.toNat + 256 * loadLe bytes

/-- `LoadLe` of a field at an offset. -/
def fieldAt (view : Bytes) (offset width : ℕ) : ℕ := loadLe ((view.drop offset).take width)

def kChunk : ℕ := 2 ^ 30

/-- The loop of `Crc32Update`. Every round takes at least a byte, so the length is enough
rounds. -/
def crcChunks (J : JournalPlatform) : ℕ → BitVec 32 → Bytes → BitVec 32
  | 0, running, _ => running
  | rounds + 1, running, rest =>
    if rest = [] then running else crcChunks J rounds (J.crc32 running (rest.take kChunk)) (rest.drop kChunk)

def crc32Update (J : JournalPlatform) (seed : BitVec 32) (data : Bytes) : BitVec 32 :=
  crcChunks J data.length seed data

def crc32Of (J : JournalPlatform) (data : Bytes) : BitVec 32 := crc32Update J 0#32 data

end Journal

open Journal

structure JournalFileHeader where
  formatVersion : ℕ := kFormatVersion
  realtimeNs : ℕ
  monotonicNs : ℕ
  exchange : Bytes
  connectId : ℕ
  deriving DecidableEq, Repr

structure JournalRecord where
  type : RecordType
  captureSequence : ℕ
  monotonicNs : ℕ
  payload : Bytes
  deriving DecidableEq, Repr

structure JournalFile where
  path : Bytes
  header : JournalFileHeader
  records : List JournalRecord := []
  deriving DecidableEq, Repr

/-- The exchange tag in its field: cut to 16 bytes, padded with NUL. -/
def exchangeField (exchange : Bytes) : Bytes :=
  let name := exchange.take kExchangeFieldSize
  name ++ List.replicate (kExchangeFieldSize - name.length) 0

/-- The first 60 bytes of the file header, which its checksum covers. -/
def headerBody (header : JournalFileHeader) : Bytes :=
  kMagic ++ storeLe 2 kFormatVersion ++ storeLe 2 kFileHeaderSize ++ storeLe 4 0 ++ storeLe 8 header.realtimeNs ++
    storeLe 8 header.monotonicNs ++ exchangeField header.exchange ++ storeLe 8 header.connectId ++ storeLe 4 0

def recordHeader (record : JournalRecord) : Bytes :=
  [record.type.toByte, 0] ++ storeLe 2 0 ++ storeLe 4 record.payload.length ++ storeLe 8 record.captureSequence ++
    storeLe 8 record.monotonicNs

section Encode

variable (J : JournalPlatform)

def encodeHeader (header : JournalFileHeader) : Bytes :=
  headerBody header ++ storeLe 4 (crc32Of J (headerBody header)).toNat

/-- The checksum of a record: its header, then its payload. -/
def recordCrc (view payload : Bytes) : BitVec 32 := crc32Update J (crc32Of J view) payload

def encodeRecord (record : JournalRecord) : Bytes :=
  recordHeader record ++ record.payload ++ storeLe 4 (recordCrc J (recordHeader record) record.payload).toNat

def JournalFile.content (file : JournalFile) : Bytes :=
  encodeHeader J file.header ++ file.records.flatMap (encodeRecord J)

end Encode

/-- An open writer. The error is empty while it is good. -/
structure JournalWriter where
  file : JournalFile
  lastSequence : ℕ := 0
  error : Option Bytes := none
  deriving DecidableEq, Repr

namespace JournalWriter

def good (writer : JournalWriter) : Bool := writer.error.isNone

def recordsWritten (writer : JournalWriter) : ℕ := writer.file.records.length

/-- Only the first failure is kept. -/
def fail (writer : JournalWriter) (reason : Bytes) : JournalWriter :=
  { writer with error := writer.error.or (some reason) }

/-- The record is on disk or, if the stream fails, is not. -/
def writeRecord (writer : JournalWriter) (type : RecordType) (frame : CaptureFrame) (written : Bool) : JournalWriter :=
  if writer.good = false then writer
  else if frame.captureSequence ≤ writer.lastSequence then writer.fail (ascii "out-of-order capture sequence")
  else if frame.payload.length > kMaxPayloadBytes then writer.fail (ascii "payload exceeds kMaxPayloadBytes")
  else if written = false then writer.fail (ascii "write failed")
  else
    { writer with
      file := { writer.file with
        records := writer.file.records ++ [⟨type, frame.captureSequence, frame.monotonicNs, frame.payload⟩] }
      lastSequence := frame.captureSequence }

def onFrame (writer : JournalWriter) (frame : CaptureFrame) (written : Bool) : JournalWriter :=
  writer.writeRecord .wireMessage frame written

def writeConnectMarker (writer : JournalWriter) (frame : CaptureFrame) (written : Bool) : JournalWriter :=
  writer.writeRecord .connect frame written

def flush (writer : JournalWriter) (written : Bool) : JournalWriter :=
  if written then writer else writer.fail (ascii "flush failed")

end JournalWriter

/-- A call of the writer, and whether the stream takes it. -/
inductive WriterCall where
  | onFrame (frame : CaptureFrame) (written : Bool)
  | writeConnectMarker (frame : CaptureFrame) (written : Bool)
  | flush (written : Bool)
  deriving DecidableEq, Repr

def WriterCall.frame? : WriterCall → Option CaptureFrame
  | .onFrame frame _ => some frame
  | .writeConnectMarker frame _ => some frame
  | .flush _ => none

def JournalWriter.call (writer : JournalWriter) : WriterCall → JournalWriter
  | .onFrame frame written => writer.onFrame frame written
  | .writeConnectMarker frame written => writer.writeConnectMarker frame written
  | .flush written => writer.flush written

/-- Reads exactly `count` bytes, or fails on a short read. -/
def readExact (count : ℕ) (stream : Bytes) : Option (Bytes × Bytes) :=
  if count ≤ stream.length then some (stream.take count, stream.drop count) else none

structure JournalReader where
  header : JournalFileHeader
  stream : Bytes
  recordsRead : ℕ := 0
  finished : Bool := false
  /-- Why reading stopped, if it stopped early. -/
  stopReason : Option Bytes := none
  deriving DecidableEq, Repr

namespace JournalReader

variable (J : JournalPlatform)

/-- The header of an existing file. -/
def openFile (content : Bytes) : Except Bytes JournalReader :=
  match readExact kFileHeaderSize content with
  | none => .error (ascii "JournalReader: file shorter than the journal header")
  | some (view, stream) =>
    if view.take kMagic.length ≠ kMagic then .error (ascii "JournalReader: bad magic, not a capture journal")
    else if fieldAt view 60 4 ≠ (crc32Of J (view.take 60)).toNat then
      .error (ascii "JournalReader: header checksum mismatch")
    else if fieldAt view 8 2 ≠ kFormatVersion then
      .error (ascii "JournalReader: unsupported format version " ++ natText (fieldAt view 8 2))
    else if fieldAt view 10 2 ≠ kFileHeaderSize then
      .error (ascii "JournalReader: unexpected header size " ++ natText (fieldAt view 10 2))
    else
      .ok {
        header := {
          formatVersion := fieldAt view 8 2
          realtimeNs := fieldAt view 16 8
          monotonicNs := fieldAt view 24 8
          exchange := ((view.drop 32).take kExchangeFieldSize).takeWhile (· ≠ 0)
          connectId := fieldAt view 48 8 }
        stream }

def stoppedEarly (reader : JournalReader) : Bool := reader.stopReason.isSome

def stop (reader : JournalReader) (reason : Bytes) : JournalReader :=
  { reader with finished := true, stopReason := reader.stopReason.or (some reason) }

/-- One record off the front of the stream, or why there is none. `none` is a clean end. -/
def decodeRecord (stream : Bytes) : Except (Option Bytes) (JournalRecord × Bytes) :=
  match readExact kRecordHeaderSize stream with
  | none => .error (if stream = [] then none else some (ascii "truncated record header"))
  | some (view, stream) =>
    if fieldAt view 4 4 > kMaxPayloadBytes then .error (some (ascii "record length exceeds kMaxPayloadBytes"))
    else
      match readExact (fieldAt view 4 4) stream with
      | none => .error (some (ascii "truncated record payload"))
      | some (payload, stream) =>
        match readExact kRecordTrailerSize stream with
        | none => .error (some (ascii "truncated record checksum"))
        | some (trailer, stream) =>
          if loadLe trailer ≠ (recordCrc J view payload).toNat then .error (some (ascii "record checksum mismatch"))
          else
            match (view.head?).bind recordType? with
            | none => .error (some (ascii "unknown record type"))
            | some type => .ok (⟨type, fieldAt view 8 8, fieldAt view 16 8, payload⟩, stream)

def next (reader : JournalReader) : Option JournalRecord × JournalReader :=
  if reader.finished then (none, reader)
  else
    match decodeRecord J reader.stream with
    | .ok (record, stream) => (some record, { reader with stream, recordsRead := reader.recordsRead + 1 })
    | .error none => (none, { reader with finished := true })
    | .error (some reason) => (none, reader.stop reason)

/-- `Next` until it returns nothing, in at most some rounds. -/
def readRounds : ℕ → JournalReader → List JournalRecord × JournalReader
  | 0, reader => ([], reader)
  | rounds + 1, reader =>
    match reader.next J with
    | (none, reader) => ([], reader)
    | (some record, reader) =>
      let (records, reader) := readRounds rounds reader
      (record :: records, reader)

/-- Every record takes bytes off the stream, so its length bounds the rounds. -/
def readAll (reader : JournalReader) : List JournalRecord × JournalReader :=
  readRounds J (reader.stream.length + 1) reader

end JournalReader

end CryptoTrader
