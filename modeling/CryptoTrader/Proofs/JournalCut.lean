import CryptoTrader.Sanity.Journal
import CryptoTrader.Spec.KrakenL3

/-! A journal cut anywhere, as a crash leaves it. The reader gets back the records that
were written whole, and says whether the cut went through one. -/

namespace CryptoTrader

open Journal

/-- How far into the records of a file the first of them reach. -/
def recordsEnd (J : JournalPlatform) (records : List JournalRecord) (count : ℕ) : ℕ :=
  ((records.take count).flatMap (encodeRecord J)).length

section Cut

variable (J : JournalPlatform) (record : JournalRecord) (records : List JournalRecord)

theorem recordsEnd_zero : recordsEnd J records 0 = 0 := rfl

theorem recordsEnd_cons (count : ℕ) :
    recordsEnd J (record :: records) (count + 1) = (encodeRecord J record).length + recordsEnd J records count := by
  rw [recordsEnd, List.take_succ_cons, List.flatMap_cons, List.length_append]
  rfl

theorem readExact_short {count : ℕ} {stream : Bytes} (h : stream.length < count) : readExact count stream = none :=
  if_neg (Nat.not_le.2 h)

variable {record}

/-- A record that is cut short is refused; only at its very start that is a clean end. -/
theorem decodeRecord_cut (hsize : record.payload.length ≤ kMaxPayloadBytes) {cut : ℕ}
    (hcut : cut < (encodeRecord J record).length) :
    ∃ reason, JournalReader.decodeRecord J ((encodeRecord J record).take cut) = .error reason ∧
      (reason.isSome = true ↔ cut ≠ 0) := by
  have hlength : ((encodeRecord J record).take cut).length = cut := List.length_take_of_le hcut.le
  rw [encodeRecord_length] at hcut
  have hheader := recordHeader_length record
  rcases Nat.lt_or_ge cut kRecordHeaderSize with hshort | hlong
  · -- inside the record's header, or before it
    rw [JournalReader.decodeRecord, readExact_short (by rw [hlength]; exact hshort)]
    refine ⟨_, rfl, ?_⟩
    have hempty : (encodeRecord J record).take cut = [] ↔ cut = 0 := by
      rw [← List.length_eq_zero_iff, hlength]
    split_ifs with hnil
    · simp [hempty.1 hnil]
    · simp [mt hempty.2 hnil]
  · have hview : (encodeRecord J record).take cut = recordHeader record ++
        (record.payload ++ storeLe 4 (recordCrc J (recordHeader record) record.payload).toNat).take
          (cut - kRecordHeaderSize) := by
      rw [encodeRecord, List.append_assoc, List.take_append, hheader, List.take_of_length_le (by omega)]
    have hdeclared := recordHeader_declared record hsize
    have hnonzero : cut ≠ 0 := by
      have : 0 < kRecordHeaderSize := by decide
      omega
    rw [hview, JournalReader.decodeRecord, readExact_append _ _ hheader]
    simp only [hdeclared, if_neg (Nat.not_lt.2 hsize)]
    rcases Nat.lt_or_ge (cut - kRecordHeaderSize) record.payload.length with hpayload | hpayload
    · -- inside the payload
      rw [readExact_short (by rw [List.length_take]; omega)]
      exact ⟨_, rfl, by simp [hnonzero]⟩
    · -- inside the checksum
      rw [List.take_append, List.take_of_length_le hpayload, readExact_append _ _ rfl]
      simp only
      rw [readExact_short (by
        rw [List.length_take, storeLe_length]
        have hsizes : kRecordHeaderSize + kRecordTrailerSize = 28 := rfl
        omega)]
      exact ⟨_, rfl, by simp [hnonzero]⟩

/-- The reader ends at a record that is cut short. -/
theorem next_cut (hsize : record.payload.length ≤ kMaxPayloadBytes) (header : JournalFileHeader) (read : ℕ) {cut : ℕ}
    (hcut : cut < (encodeRecord J record).length) :
    ∃ final, JournalReader.next J { header, stream := (encodeRecord J record).take cut, recordsRead := read } =
      (none, final) ∧ (final.stoppedEarly = true ↔ cut ≠ 0) := by
  obtain ⟨reason, herror, hreason⟩ := decodeRecord_cut J hsize hcut
  simp only [JournalReader.next, Bool.false_eq_true, if_false, herror]
  cases reason with
  | none => exact ⟨_, rfl, hreason⟩
  | some text => exact ⟨_, rfl, hreason⟩

/-- And goes on after a record that is there whole. -/
theorem next_whole (hsize : record.payload.length ≤ kMaxPayloadBytes) (header : JournalFileHeader) (read : ℕ)
    (rest : Bytes) :
    JournalReader.next J { header, stream := encodeRecord J record ++ rest, recordsRead := read } =
      (some record.onDisk, { header, stream := rest, recordsRead := read + 1 }) := by
  simp only [JournalReader.next, Bool.false_eq_true, if_false, decodeRecord_encodeRecord J record rest hsize]

/-- A cut inside the first record ends no record, unless nothing is left. -/
theorem ne_recordsEnd_of_inside {cut : ℕ} (hinside : cut < (encodeRecord J record).length) :
    cut ≠ 0 ↔ ∀ i ≤ (record :: records).length, cut ≠ recordsEnd J (record :: records) i := by
  refine ⟨fun hne i _ => ?_, fun h => h 0 (Nat.zero_le _)⟩
  cases i with
  | zero => exact hne
  | succ i =>
    rw [recordsEnd_cons]
    omega

/-- Beyond the first record the cut is one of the others. -/
theorem ne_recordsEnd_of_beyond {cut : ℕ} (hbeyond : (encodeRecord J record).length ≤ cut) :
    (∀ i ≤ records.length, cut - (encodeRecord J record).length ≠ recordsEnd J records i) ↔
      ∀ i ≤ (record :: records).length, cut ≠ recordsEnd J (record :: records) i := by
  have hlength := encodeRecord_length J record
  constructor
  · intro h i hi
    cases i with
    | zero =>
      rw [recordsEnd_zero]
      omega
    | succ i =>
      have hrest := h i (Nat.le_of_succ_le_succ hi)
      rw [recordsEnd_cons]
      omega
  · intro h i hi
    have hrest := h (i + 1) (Nat.succ_le_succ hi)
    rw [recordsEnd_cons] at hrest
    omega

/-- What the reader makes of records cut at some byte: it returns those that end before
the cut, and stops early if the cut is inside another. -/
theorem readRounds_cut (hsize : ∀ record ∈ records, record.payload.length ≤ kMaxPayloadBytes)
    (header : JournalFileHeader) (read : ℕ) {cut : ℕ} (hcut : cut ≤ recordsEnd J records records.length) {rounds : ℕ}
    (hrounds : cut < rounds) :
    ∃ count final, JournalReader.readRounds J rounds
        { header, stream := (records.flatMap (encodeRecord J)).take cut, recordsRead := read } =
          ((records.take count).map JournalRecord.onDisk, final) ∧
      (∀ i < records.length, i < count ↔ recordsEnd J records (i + 1) ≤ cut) ∧
      (final.stoppedEarly = true ↔ ∀ i ≤ records.length, cut ≠ recordsEnd J records i) := by
  induction records generalizing read cut rounds with
  | nil =>
    obtain rfl : cut = 0 := Nat.le_zero.1 hcut
    obtain ⟨rounds, rfl⟩ := Nat.exists_eq_add_of_lt hrounds
    refine ⟨0, { header, stream := [], recordsRead := read, finished := true }, rfl, fun i hi => absurd hi (by simp), ?_⟩
    simp [JournalReader.stoppedEarly, recordsEnd]
  | cons record records ih =>
    obtain ⟨rounds, rfl⟩ : ∃ n, rounds = n + 1 := ⟨rounds - 1, by omega⟩
    have hown := hsize record List.mem_cons_self
    have hlength := encodeRecord_length J record
    rcases Nat.lt_or_ge cut (encodeRecord J record).length with hinside | hbeyond
    · -- the cut is inside the first record, so nothing is returned
      obtain ⟨final, hnext, hearly⟩ := next_cut J hown header read hinside
      refine ⟨0, final, ?_, fun i _ => ?_, hearly.trans (ne_recordsEnd_of_inside J records hinside)⟩
      · rw [List.flatMap_cons, List.take_append_of_le_length hinside.le, JournalReader.readRounds, hnext]
        rfl
      · rw [recordsEnd_cons]
        omega
    · -- the first record is whole, and the rest is cut
      rw [List.length_cons, recordsEnd_cons] at hcut
      obtain ⟨count, final, hread, hcount, hearly⟩ := ih (fun other hother => hsize other (List.mem_cons_of_mem _ hother))
        (read + 1) (show cut - (encodeRecord J record).length ≤ _ by omega) (show _ < rounds by omega)
      refine ⟨count + 1, final, ?_, fun i hi => ?_, hearly.trans (ne_recordsEnd_of_beyond J records hbeyond)⟩
      · rw [List.flatMap_cons, List.take_append, List.take_of_length_le hbeyond, JournalReader.readRounds,
          next_whole J hown, List.take_succ_cons, List.map_cons]
        simp only [hread]
      · rw [recordsEnd_cons]
        cases i with
        | zero =>
          rw [recordsEnd_zero]
          omega
        | succ i =>
          have hrest := hcount i (Nat.lt_of_succ_lt_succ hi)
          omega

end Cut

namespace JournalWriter

/-- A writer on a new file. -/
def create (path exchange : Bytes) (connectId realtimeNs monotonicNs : ℕ) : JournalWriter :=
  { file := { path, header := { realtimeNs, monotonicNs, exchange, connectId } } }

/-- Frames and connect markers, written one after the other. -/
def writeAll (writer : JournalWriter) (writes : List (RecordType × CaptureFrame)) : JournalWriter :=
  writes.foldl (fun writer write => writer.writeRecord write.1 write.2 true) writer

variable (writer : JournalWriter)

/-- The record a frame becomes. -/
def recordOf (write : RecordType × CaptureFrame) : JournalRecord :=
  ⟨write.1, write.2.captureSequence, write.2.monotonicNs, write.2.payload⟩

theorem fail_good (reason : Bytes) : (writer.fail reason).good = false := by
  cases h : writer.error <;> simp [fail, good, h]

/-- What a writer accepts, and what it then writes. -/
theorem writeRecord_good (write : RecordType × CaptureFrame) :
    (writer.writeRecord write.1 write.2 true).good = true ↔
      writer.good = true ∧ writer.lastSequence < write.2.captureSequence ∧
        write.2.payload.length ≤ kMaxPayloadBytes ∧
        (writer.writeRecord write.1 write.2 true).file =
          { writer.file with records := writer.file.records ++ [recordOf write] } := by
  rw [writeRecord]
  rcases Bool.eq_false_or_eq_true writer.good with hgood | hbad
  · rw [if_neg (by simp [hgood])]
    split_ifs with hsequence hpayload
    · simp [fail_good, Nat.not_lt.2 hsequence]
    · simp [fail_good, Nat.not_le.2 hpayload]
    · rename_i hwritten
      cases hwritten
    · exact iff_of_true hgood ⟨hgood, Nat.lt_of_not_le hsequence, Nat.le_of_not_lt hpayload, rfl⟩
  · simp [hbad]

/-- What a writer that accepted everything has written. -/
theorem writeAll_good {writes : List (RecordType × CaptureFrame)} (h : (writer.writeAll writes).good = true) :
    (writer.writeAll writes).file = { writer.file with records := writer.file.records ++ writes.map recordOf } ∧
      ∀ write ∈ writes, write.2.payload.length ≤ kMaxPayloadBytes := by
  induction writes using List.reverseRecOn with
  | nil => simp [writeAll]
  | append_singleton writes write ih =>
    have hsnoc : writer.writeAll (writes ++ [write]) = (writer.writeAll writes).writeRecord write.1 write.2 true :=
      List.foldl_concat ..
    rw [hsnoc] at h ⊢
    obtain ⟨hgood, _, hpayload, hwritten⟩ := (writeRecord_good _ write).1 h
    obtain ⟨hfile, hsize⟩ := ih hgood
    refine ⟨?_, fun other hother => ?_⟩
    · rw [hwritten, hfile, List.map_append, ← List.append_assoc]
      rfl
    · rcases List.mem_append.1 hother with hold | hnew
      · exact hsize other hold
      · rwa [List.mem_singleton.1 hnew]

end JournalWriter

section File

variable (J : JournalPlatform)

/-- Values that fit the fields they are stored in come back as they were. -/
theorem JournalFileHeader.onDisk_of_lt {header : JournalFileHeader} (hversion : header.formatVersion = kFormatVersion)
    (hrealtime : header.realtimeNs < 2 ^ 64) (hmonotonic : header.monotonicNs < 2 ^ 64)
    (hconnect : header.connectId < 2 ^ 64) : header.onDisk = header := by
  rw [JournalFileHeader.onDisk, Nat.mod_eq_of_lt hrealtime, Nat.mod_eq_of_lt hmonotonic, Nat.mod_eq_of_lt hconnect,
    ← hversion]

theorem JournalRecord.onDisk_of_lt {record : JournalRecord} (hsequence : record.captureSequence < 2 ^ 64)
    (hmonotonic : record.monotonicNs < 2 ^ 64) : record.onDisk = record := by
  rw [JournalRecord.onDisk, Nat.mod_eq_of_lt hsequence, Nat.mod_eq_of_lt hmonotonic]

/-- A file shorter than its header is refused. -/
theorem openFile_short {content : Bytes} (h : content.length < kFileHeaderSize) :
    ∃ reason, JournalReader.openFile J content = .error reason := by
  rw [JournalReader.openFile, readExact_short h]
  exact ⟨_, rfl⟩

/-- What the reader makes of a file that is cut after its header. -/
theorem read_cut {file : JournalFile} (hfits : FitsField file.header.exchange)
    (hsize : ∀ record ∈ file.records, record.payload.length ≤ kMaxPayloadBytes) {cut : ℕ} (hheader : kFileHeaderSize ≤ cut)
    (hcut : cut ≤ (file.content J).length) :
    ∃ reader count final, JournalReader.openFile J ((file.content J).take cut) = .ok reader ∧
      reader.header = file.header.onDisk ∧
      reader.readAll J = ((file.records.take count).map JournalRecord.onDisk, final) ∧
      (∀ i < file.records.length, i < count ↔ kFileHeaderSize + recordsEnd J file.records (i + 1) ≤ cut) ∧
      (final.stoppedEarly = true ↔ ∀ i ≤ file.records.length, cut ≠ kFileHeaderSize + recordsEnd J file.records i) := by
  have hlength : (file.content J).length = kFileHeaderSize + recordsEnd J file.records file.records.length := by
    rw [JournalFile.content, List.length_append, encodeHeader_length, recordsEnd, List.take_length]
  have hview : (file.content J).take cut = encodeHeader J file.header ++
      (file.records.flatMap (encodeRecord J)).take (cut - kFileHeaderSize) := by
    rw [JournalFile.content, List.take_append, encodeHeader_length,
      List.take_of_length_le (by rw [encodeHeader_length]; exact hheader)]
  have hstream : ((file.records.flatMap (encodeRecord J)).take (cut - kFileHeaderSize)).length = cut - kFileHeaderSize := by
    rw [List.length_take_of_le]
    rw [JournalFile.content, List.length_append, encodeHeader_length] at hcut
    omega
  obtain ⟨count, final, hread, hcount, hearly⟩ := readRounds_cut J file.records hsize file.header.onDisk 0
    (show cut - kFileHeaderSize ≤ _ by omega) (Nat.lt_succ_self _)
  have hopen := openFile_encodeHeader J file.header
    ((file.records.flatMap (encodeRecord J)).take (cut - kFileHeaderSize)) hfits
  rw [← hview] at hopen
  refine ⟨_, count, final, hopen, rfl, ?_, fun i hi => ?_, hearly.trans ⟨fun h i hi => ?_, fun h i hi => ?_⟩⟩
  · rw [JournalReader.readAll, hstream]
    exact hread
  · have hrest := hcount i hi
    omega
  · have hrest := h i hi
    omega
  · have hrest := h i hi
    omega

/-- The bytes of the file a writer leaves, for any prefix of them. What the writer
accepted comes back as it was written, as far as it is there whole; a cut through a
record is noticed, and one through the header is refused. -/
theorem journal_survives_cut (path exchange : Bytes) (connectId realtimeNs monotonicNs : ℕ)
    (writes : List (RecordType × CaptureFrame)) (hfits : FitsField exchange) (hconnect : connectId < 2 ^ 64)
    (hrealtime : realtimeNs < 2 ^ 64) (hmonotonic : monotonicNs < 2 ^ 64)
    (hframes : ∀ write ∈ writes, write.2.captureSequence < 2 ^ 64 ∧ write.2.monotonicNs < 2 ^ 64)
    (haccepted : ((JournalWriter.create path exchange connectId realtimeNs monotonicNs).writeAll writes).good = true) :
    let content := ((JournalWriter.create path exchange connectId realtimeNs monotonicNs).writeAll writes).file.content J
    let header : JournalFileHeader := ⟨kFormatVersion, realtimeNs, monotonicNs, exchange, connectId⟩
    let records := writes.map JournalWriter.recordOf
    (∃ reader final, JournalReader.openFile J content = .ok reader ∧ reader.header = header ∧
      reader.readAll J = (records, final) ∧ final.stoppedEarly = false) ∧
    ∀ cut ≤ content.length,
      (cut < kFileHeaderSize → ∃ reason, JournalReader.openFile J (content.take cut) = .error reason) ∧
      (kFileHeaderSize ≤ cut → ∃ reader count final, JournalReader.openFile J (content.take cut) = .ok reader ∧
        reader.header = header ∧ reader.readAll J = (records.take count, final) ∧
        (∀ i < records.length, i < count ↔ kFileHeaderSize + recordsEnd J records (i + 1) ≤ cut) ∧
        (final.stoppedEarly = true ↔ ∀ i ≤ records.length, cut ≠ kFileHeaderSize + recordsEnd J records i)) := by
  intro content header records
  obtain ⟨hfile, hpayload⟩ := JournalWriter.writeAll_good _ haccepted
  let file : JournalFile := { path, header, records }
  have hcontent : content = file.content J := by
    change JournalFile.content J (JournalWriter.writeAll _ writes).file = _
    rw [hfile]
    rfl
  have hheader : header.onDisk = header := JournalFileHeader.onDisk_of_lt rfl hrealtime hmonotonic hconnect
  have hrecords (count : ℕ) : (records.take count).map JournalRecord.onDisk = records.take count := by
    refine (List.map_congr_left fun record hrecord => ?_).trans (List.map_id _)
    obtain ⟨write, hwrite, rfl⟩ := List.mem_map.1 (List.mem_of_mem_take hrecord)
    exact JournalRecord.onDisk_of_lt (hframes write hwrite).1 (hframes write hwrite).2
  have hsize : ∀ record ∈ file.records, record.payload.length ≤ kMaxPayloadBytes := by
    intro record hrecord
    obtain ⟨write, hwrite, rfl⟩ := List.mem_map.1 hrecord
    exact hpayload write hwrite
  have hfits : FitsField file.header.exchange := hfits
  rw [hcontent]
  refine ⟨?_, fun cut hcut => ⟨fun hshort => ?_, fun hlong => ?_⟩⟩
  · obtain ⟨reader, hopen, hread, hall⟩ := read_content J hfits hsize
    have hsame := hrecords records.length
    rw [List.take_length] at hsame
    have hreadBack := hall.trans (by rw [hsame])
    exact ⟨reader, _, hopen, hread.trans hheader, hreadBack, rfl⟩
  · exact openFile_short J (by rw [List.length_take]; omega)
  · obtain ⟨reader, count, final, hopen, hread, hall, hcount, hearly⟩ :=
      read_cut J hfits hsize hlong hcut
    exact ⟨reader, count, final, hopen, hread.trans hheader, hall.trans (by rw [hrecords]), hcount, hearly⟩

/-- A platform with the checksum of zlib. -/
def zlibJournal : JournalPlatform :=
  ⟨fun seed data => ~~~ data.foldl crcByte (~~~ seed), fun _ => []⟩

/-- A connect marker, an empty message and two bytes. Their records end at bytes 97, 125
and 155 of the file. -/
def threeWrites : List (RecordType × CaptureFrame) :=
  [(.connect, { payload := ascii "start", captureSequence := 1, monotonicNs := 10 }),
    (.wireMessage, { payload := [], captureSequence := 2, monotonicNs := 11 }),
    (.wireMessage, { payload := [0, 255], captureSequence := 5, monotonicNs := 12 })]

def threeWritten : JournalWriter := (JournalWriter.create (ascii "k.journal") (ascii "kraken") 7 3 4).writeAll threeWrites

theorem journal_survives_cut_three_writes :
    ∃ reader count final, JournalReader.openFile zlibJournal ((threeWritten.file.content zlibJournal).take 150) = .ok reader ∧
      reader.header = ⟨kFormatVersion, 3, 4, ascii "kraken", 7⟩ ∧
      reader.readAll zlibJournal = ((threeWrites.map JournalWriter.recordOf).take count, final) ∧ count = 2 ∧
      final.stoppedEarly = true := by
  have hends : ∀ i ≤ 3, kFileHeaderSize + recordsEnd zlibJournal (threeWrites.map JournalWriter.recordOf) i =
      [64, 97, 125, 155].getD i 0 := by decide +kernel
  obtain ⟨_, hcut⟩ := journal_survives_cut zlibJournal (ascii "k.journal") (ascii "kraken") 7 3 4 threeWrites
    ⟨by decide, by decide⟩ (by decide) (by decide) (by decide) (by decide) (by decide)
  obtain ⟨reader, count, final, hopen, hheader, hread, hcount, hearly⟩ := (hcut 150 (by decide +kernel)).2 (by decide)
  refine ⟨reader, count, final, hopen, hheader, hread, ?_, hearly.2 fun i hi => ?_⟩
  · have hsecond := hcount 1 (by decide)
    have hthird := hcount 2 (by decide)
    rw [hends 2 (by decide)] at hsecond
    rw [hends 3 (by decide)] at hthird
    have hreached : 1 < count := hsecond.2 (by decide)
    have hmissed : ¬2 < count := fun h => absurd (hthird.1 h) (by decide)
    omega
  · rw [hends i hi]
    revert i
    decide

end File

end CryptoTrader
