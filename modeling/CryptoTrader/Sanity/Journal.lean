import Mathlib.Data.Nat.ModEq
import CryptoTrader.Spec.Journal

/-! What the journal's reader finds in a file the writer wrote: the same header and the
same records, with every 64-bit field as it fits. -/

namespace CryptoTrader

namespace Journal

section LittleEndian

variable (width value : ℕ)

theorem storeLe_length : (storeLe width value).length = width := by
  induction width generalizing value with
  | zero => rfl
  | succ width ih => rw [storeLe, List.length_cons, ih]

theorem loadLe_storeLe : loadLe (storeLe width value) = value % 256 ^ width := by
  induction width generalizing value with
  | zero => rw [storeLe, loadLe, pow_zero, Nat.mod_one]
  | succ width ih =>
    have hbyte : (UInt8.ofNat value).toNat = value % 256 := UInt8.toNat_ofNat'
    rw [storeLe, loadLe, ih, hbyte, pow_succ', Nat.mod_mul]

/-- A field between what stands before it and what stands after it. -/
theorem fieldAt_of_eq {view : Bytes} (before after : Bytes) {offset : ℕ} (hoffset : before.length = offset)
    (hview : view = before ++ (storeLe width value ++ after)) : fieldAt view offset width = value % 256 ^ width := by
  rw [hview, fieldAt, ← hoffset, List.drop_left, List.take_left' (storeLe_length width value), loadLe_storeLe]

end LittleEndian

theorem recordType?_toByte (type : RecordType) : recordType? type.toByte = some type := by
  cases type <;> rfl

end Journal

open Journal

theorem readExact_append {count : ℕ} (view rest : Bytes) (hcount : view.length = count) :
    readExact count (view ++ rest) = some (view, rest) := by
  have hle : count ≤ (view ++ rest).length := by
    rw [List.length_append]
    omega
  rw [readExact, if_pos hle, List.take_left' hcount, List.drop_left' hcount]

/-- A header and a record as they come back from the disk. -/
def JournalFileHeader.onDisk (header : JournalFileHeader) : JournalFileHeader where
  formatVersion := kFormatVersion
  realtimeNs := header.realtimeNs % 2 ^ 64
  monotonicNs := header.monotonicNs % 2 ^ 64
  exchange := header.exchange
  connectId := header.connectId % 2 ^ 64

def JournalRecord.onDisk (record : JournalRecord) : JournalRecord :=
  { record with captureSequence := record.captureSequence % 2 ^ 64, monotonicNs := record.monotonicNs % 2 ^ 64 }

/-- A tag that its field holds whole, with no NUL in it. -/
structure FitsField (exchange : Bytes) : Prop where
  length : exchange.length ≤ kExchangeFieldSize
  nul : 0 ∉ exchange

section Header

variable (J : JournalPlatform) (header : JournalFileHeader)

theorem exchangeField_length (exchange : Bytes) : (exchangeField exchange).length = kExchangeFieldSize := by
  have hle : (exchange.take kExchangeFieldSize).length ≤ kExchangeFieldSize := List.length_take_le _ _
  rw [exchangeField, List.length_append, List.length_replicate]
  omega

theorem exchangeField_read {exchange : Bytes} (hfits : FitsField exchange) :
    (exchangeField exchange).takeWhile (· ≠ 0) = exchange := by
  have hall : ∀ byte ∈ exchange, decide (byte ≠ 0) = true := by
    intro byte hbyte
    rw [decide_eq_true_iff]
    rintro rfl
    exact hfits.nul hbyte
  rw [exchangeField, List.take_of_length_le hfits.length, List.takeWhile_append_of_pos hall]
  cases kExchangeFieldSize - exchange.length with
  | zero => exact List.append_nil _
  | succ count => simp [List.replicate_succ]

theorem headerBody_length : (headerBody header).length = 60 := by
  simp only [headerBody, List.length_append, storeLe_length, exchangeField_length]
  rfl

theorem encodeHeader_length : (encodeHeader J header).length = kFileHeaderSize := by
  rw [encodeHeader, List.length_append, headerBody_length, storeLe_length]
  rfl

/-- A written file opens, with the tag as far as its field holds it. -/
theorem openFile_written (rest : Bytes) :
    JournalReader.openFile J (encodeHeader J header ++ rest) = .ok {
      header := { header.onDisk with exchange := (exchangeField header.exchange).takeWhile (· ≠ 0) }
      stream := rest } := by
  have hmagic : (encodeHeader J header).take kMagic.length = kMagic := by
    simp only [encodeHeader, headerBody, List.append_assoc, List.take_left]
  have hbody : (encodeHeader J header).take 60 = headerBody header := by
    rw [encodeHeader, List.take_left' (headerBody_length header)]
  have hcrc : fieldAt (encodeHeader J header) 60 4 = (crc32Of J (headerBody header)).toNat := by
    rw [fieldAt_of_eq 4 _ (headerBody header) [] (headerBody_length header) (by rw [encodeHeader, List.append_nil])]
    exact Nat.mod_eq_of_lt (crc32Of J (headerBody header)).isLt
  have hversion : fieldAt (encodeHeader J header) 8 2 = kFormatVersion :=
    fieldAt_of_eq 2 kFormatVersion kMagic _ rfl (by simp only [encodeHeader, headerBody, List.append_assoc]; rfl)
  have hsize : fieldAt (encodeHeader J header) 10 2 = kFileHeaderSize :=
    fieldAt_of_eq 2 kFileHeaderSize (kMagic ++ storeLe 2 kFormatVersion) _ rfl
      (by simp only [encodeHeader, headerBody, List.append_assoc]; rfl)
  have hrealtime : fieldAt (encodeHeader J header) 16 8 = header.realtimeNs % 2 ^ 64 :=
    fieldAt_of_eq 8 header.realtimeNs
      (kMagic ++ storeLe 2 kFormatVersion ++ storeLe 2 kFileHeaderSize ++ storeLe 4 0) _ rfl
      (by simp only [encodeHeader, headerBody, List.append_assoc]; rfl)
  have hmonotonic : fieldAt (encodeHeader J header) 24 8 = header.monotonicNs % 2 ^ 64 :=
    fieldAt_of_eq 8 header.monotonicNs (kMagic ++ storeLe 2 kFormatVersion ++ storeLe 2 kFileHeaderSize ++
      storeLe 4 0 ++ storeLe 8 header.realtimeNs) _ rfl (by simp only [encodeHeader, headerBody, List.append_assoc]; rfl)
  have hname : ((encodeHeader J header).drop 32).take kExchangeFieldSize = exchangeField header.exchange := by
    have hview : encodeHeader J header = (kMagic ++ storeLe 2 kFormatVersion ++ storeLe 2 kFileHeaderSize ++
        storeLe 4 0 ++ storeLe 8 header.realtimeNs ++ storeLe 8 header.monotonicNs) ++
        (exchangeField header.exchange ++ (storeLe 8 header.connectId ++ (storeLe 4 0 ++
          storeLe 4 (crc32Of J (headerBody header)).toNat))) := by
      simp only [encodeHeader, headerBody, List.append_assoc]
    rw [hview, List.drop_left' (show _ = 32 from rfl), List.take_left' (exchangeField_length header.exchange)]
  have hid : fieldAt (encodeHeader J header) 48 8 = header.connectId % 2 ^ 64 := by
    refine fieldAt_of_eq 8 header.connectId (kMagic ++ storeLe 2 kFormatVersion ++ storeLe 2 kFileHeaderSize ++
      storeLe 4 0 ++ storeLe 8 header.realtimeNs ++ storeLe 8 header.monotonicNs ++ exchangeField header.exchange) _ ?_
      (by simp only [encodeHeader, headerBody, List.append_assoc]; rfl)
    simp only [List.length_append, storeLe_length, exchangeField_length]
    rfl
  rw [JournalReader.openFile, readExact_append _ _ (encodeHeader_length J header)]
  simp only [hmagic, hbody, hcrc, hversion, hsize, hrealtime, hmonotonic, hname, hid, ne_eq, not_true_eq_false, if_false]
  rfl

/-- The header of a written file, read back. -/
theorem openFile_encodeHeader (rest : Bytes) (hfits : FitsField header.exchange) :
    JournalReader.openFile J (encodeHeader J header ++ rest) = .ok { header := header.onDisk, stream := rest } := by
  rw [openFile_written, exchangeField_read hfits]
  rfl

end Header

section Record

variable (J : JournalPlatform) (record : JournalRecord)

theorem recordHeader_length : (recordHeader record).length = kRecordHeaderSize := by
  simp only [recordHeader, List.length_append, storeLe_length]
  rfl

theorem encodeRecord_length : (encodeRecord J record).length = 28 + record.payload.length := by
  simp only [encodeRecord, List.length_append, recordHeader_length, storeLe_length, kRecordHeaderSize]
  omega

/-- The length a record declares. -/
theorem recordHeader_declared (hsize : record.payload.length ≤ kMaxPayloadBytes) :
    fieldAt (recordHeader record) 4 4 = record.payload.length := by
  rw [fieldAt_of_eq 4 record.payload.length ([record.type.toByte, 0] ++ storeLe 2 0)
    (storeLe 8 record.captureSequence ++ storeLe 8 record.monotonicNs) (show _ = 4 from rfl)
    (by simp only [recordHeader, List.append_assoc])]
  refine Nat.mod_eq_of_lt (Nat.lt_of_le_of_lt hsize ?_)
  decide

/-- A written record, read back off the front of the stream. -/
theorem decodeRecord_encodeRecord (rest : Bytes) (hsize : record.payload.length ≤ kMaxPayloadBytes) :
    JournalReader.decodeRecord J (encodeRecord J record ++ rest) = .ok (record.onDisk, rest) := by
  have hlength := recordHeader_declared record hsize
  have hsequence : fieldAt (recordHeader record) 8 8 = record.captureSequence % 2 ^ 64 :=
    fieldAt_of_eq 8 record.captureSequence
      ([record.type.toByte, 0] ++ storeLe 2 0 ++ storeLe 4 record.payload.length) _ rfl
      (by simp only [recordHeader, List.append_assoc]; rfl)
  have hmonotonic : fieldAt (recordHeader record) 16 8 = record.monotonicNs % 2 ^ 64 :=
    fieldAt_of_eq 8 record.monotonicNs ([record.type.toByte, 0] ++ storeLe 2 0 ++
      storeLe 4 record.payload.length ++ storeLe 8 record.captureSequence) [] rfl (by rw [List.append_nil]; rfl)
  have htrailer : loadLe (storeLe 4 (recordCrc J (recordHeader record) record.payload).toNat) =
      (recordCrc J (recordHeader record) record.payload).toNat := by
    rw [loadLe_storeLe]
    exact Nat.mod_eq_of_lt (recordCrc J (recordHeader record) record.payload).isLt
  have htype : (recordHeader record).head?.bind recordType? = some record.type := recordType?_toByte record.type
  rw [JournalReader.decodeRecord, encodeRecord, List.append_assoc, List.append_assoc,
    readExact_append _ _ (recordHeader_length record)]
  simp only [hlength, if_neg (Nat.not_lt.2 hsize)]
  rw [readExact_append _ _ rfl]
  simp only
  rw [readExact_append _ _ (show _ = kRecordTrailerSize from storeLe_length 4 _)]
  simp only [htrailer, ne_eq, not_true_eq_false, if_false, htype, hsequence, hmonotonic]
  rfl

end Record

section Read

variable (J : JournalPlatform)

/-- Reading goes through the records and stops cleanly at the end of the file. -/
theorem readRounds_records {records : List JournalRecord}
    (hsize : ∀ record ∈ records, record.payload.length ≤ kMaxPayloadBytes) (header : JournalFileHeader) (read : ℕ)
    {rounds : ℕ} (hrounds : records.length < rounds) :
    JournalReader.readRounds J rounds
        { header, stream := records.flatMap (encodeRecord J), recordsRead := read } =
      (records.map JournalRecord.onDisk,
        { header, stream := [], recordsRead := read + records.length, finished := true }) := by
  induction records generalizing read rounds with
  | nil =>
    obtain ⟨rounds, rfl⟩ := Nat.exists_eq_add_of_lt hrounds
    rfl
  | cons record records ih =>
    obtain ⟨rounds, rfl⟩ : ∃ n, rounds = n + 1 := ⟨rounds - 1, by omega⟩
    have hrest := ih (fun other hother => hsize other (List.mem_cons_of_mem _ hother)) (read + 1)
      (Nat.lt_of_succ_lt_succ hrounds)
    have hnext : JournalReader.next J
        { header, stream := (record :: records).flatMap (encodeRecord J), recordsRead := read } =
        (some record.onDisk, { header, stream := records.flatMap (encodeRecord J), recordsRead := read + 1 }) := by
      rw [JournalReader.next, List.flatMap_cons]
      simp only [Bool.false_eq_true, if_false, decodeRecord_encodeRecord J record _ (hsize record List.mem_cons_self)]
    rw [JournalReader.readRounds, hnext]
    simp only [hrest, List.map_cons, List.length_cons]
    rw [Nat.add_assoc, Nat.add_comm 1]

theorem records_length_le (records : List JournalRecord) :
    records.length ≤ (records.flatMap (encodeRecord J)).length := by
  induction records with
  | nil => exact Nat.le_refl 0
  | cons record records ih =>
    rw [List.flatMap_cons, List.length_append, encodeRecord_length, List.length_cons]
    omega

/-- A written file, read to its end. -/
theorem read_content {file : JournalFile} (hfits : FitsField file.header.exchange)
    (hsize : ∀ record ∈ file.records, record.payload.length ≤ kMaxPayloadBytes) :
    ∃ reader, JournalReader.openFile J (file.content J) = .ok reader ∧ reader.header = file.header.onDisk ∧
      reader.readAll J = (file.records.map JournalRecord.onDisk,
        { header := file.header.onDisk, stream := [], recordsRead := file.records.length, finished := true }) := by
  refine ⟨_, openFile_encodeHeader J file.header _ hfits, rfl, ?_⟩
  have hread := readRounds_records J hsize file.header.onDisk 0
    (Nat.lt_succ_of_le (records_length_le J file.records))
  rw [Nat.zero_add] at hread
  exact hread

end Read

end CryptoTrader
