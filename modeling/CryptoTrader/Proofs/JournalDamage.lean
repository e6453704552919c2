import CryptoTrader.Lib.Crc
import CryptoTrader.Proofs.JournalCut

/-! A record of which some bytes are changed does not come back. Its length is the one it
had, so the reader takes the same bytes for the record, and the register of the checksum
ends at one value for every record that is accepted. -/

namespace CryptoTrader

open Journal

/-- The standard CRC-32, continued from an earlier result. -/
def StandardCrc (J : JournalPlatform) : Prop :=
  ∀ seed data, J.crc32 seed data = ~~~ data.foldl crcByte (~~~ seed)

/-- Where a byte of a record stands, the bytes of its length not counted. -/
def countedAt (j : ℕ) : ℕ := if j < 4 then j else j + 4

/-- A record changed in at most four consecutive bytes, the bytes of its length not counted
and not changed. -/
structure Damaged (record damaged : Bytes) : Prop where
  length : damaged.length = record.length
  changed : damaged ≠ record
  confined : ∃ start, ∀ i, damaged[i]? ≠ record[i]? → ∃ j, start ≤ j ∧ j < start + 4 ∧ i = countedAt j

section Register

def kCrcPolynomial : BitVec 32 := 0xEDB88320#32

theorem crcBit_eq : crcBit = Crc.shift kCrcPolynomial := by
  funext crc
  have hlow : crc &&& 1#32 ≠ 0#32 ↔ crc.getLsbD 0 = true := by
    have hmod : (crc &&& 1#32).toNat = crc.toNat % 2 := Nat.and_one_is_mod _
    rw [ne_eq, ← BitVec.toNat_inj, hmod, ← BitVec.testBit_toNat, Nat.testBit_zero, decide_eq_true_eq]
    exact Nat.mod_two_ne_zero
  rw [crcBit, Crc.shift]
  by_cases h : crc.getLsbD 0 = true
  · rw [if_pos (hlow.2 h), if_pos h]
    rfl
  · rw [if_neg (mt hlow.1 h), if_neg h]

theorem crcByte_eq : crcByte = Crc.feed kCrcPolynomial := by
  funext crc byte
  rw [crcByte, crcBit_eq, Crc.feed]

/-- The register after some bytes. -/
def crcRegister (bytes : Bytes) : BitVec 32 := bytes.foldl crcByte (~~~ 0#32)

theorem word_eq_loadLe (bytes : Bytes) : Crc.word 32 bytes = BitVec.ofNat 32 (loadLe bytes) := by
  have hnumber : Nat.ofDigits 256 (bytes.map UInt8.toNat) = loadLe bytes := by
    induction bytes with
    | nil => rfl
    | cons byte bytes ih => rw [List.map_cons, Nat.ofDigits_cons, ih, loadLe]
  rw [Crc.word, hnumber]

/-- Behind every text that its checksum follows, the register is the same. -/
theorem crcRegister_append {body trailer : Bytes} (hlength : trailer.length = 4)
    (h : loadLe trailer = (~~~ crcRegister body).toNat) :
    crcRegister (body ++ trailer) = (Crc.shift kCrcPolynomial)^[32] (BitVec.allOnes 32) := by
  have hones : crcRegister body ^^^ ~~~ crcRegister body = BitVec.allOnes 32 := by
    refine BitVec.eq_of_getLsbD_eq fun i hi => ?_
    rw [BitVec.getLsbD_xor, BitVec.getLsbD_not, BitVec.getLsbD_allOnes]
    simp [hi]
  have hfold := Crc.foldl_feed kCrcPolynomial (show 8 * trailer.length ≤ 32 by rw [hlength]) (crcRegister body)
  rw [word_eq_loadLe, h, BitVec.ofNat_toNat, BitVec.setWidth_eq, hones, hlength] at hfold
  rw [crcRegister, List.foldl_append]
  rw [← crcByte_eq] at hfold
  exact hfold

variable {J : JournalPlatform} (hcrc : StandardCrc J)

include hcrc

theorem crcChunks_eq {rounds : ℕ} {data : Bytes} (hrounds : data.length ≤ rounds) (running : BitVec 32) :
    crcChunks J rounds running data = ~~~ data.foldl crcByte (~~~ running) := by
  induction rounds generalizing data running with
  | zero =>
    obtain rfl := List.eq_nil_of_length_eq_zero (Nat.le_zero.1 hrounds)
    exact BitVec.not_not.symm
  | succ rounds ih =>
    rw [crcChunks]
    split_ifs with hempty
    · rw [hempty]
      exact BitVec.not_not.symm
    · have hchunk : 0 < kChunk := by decide
      have hpositive := List.length_pos_iff.2 hempty
      rw [ih (by rw [List.length_drop]; omega), hcrc, BitVec.not_not, ← List.foldl_append, List.take_append_drop]

/-- The checksum of a record in one go. -/
theorem recordCrc_eq (view payload : Bytes) : recordCrc J view payload = ~~~ crcRegister (view ++ payload) := by
  rw [recordCrc, crc32Update, crcChunks_eq hcrc (Nat.le_refl _), crc32Of, crc32Update, crcChunks_eq hcrc (Nat.le_refl _),
    BitVec.not_not, ← List.foldl_append]
  rfl

end Register

section Window

theorem kCrcPolynomial_msb : kCrcPolynomial.msb = true := by decide

/-- The four bytes of the length separate one changed byte from three. The table takes the
upper bits the changed byte is shifted to back to its own. -/
theorem separates_one : Crc.Separates kCrcPolynomial 8 32 24 :=
  Crc.separates_of_table (by decide) [0x7d#32, 0xfa#32, 0x2c#32, 0x58#32, 0xb0#32, 0xb8#32, 0xa8#32, 0xf5#32]
    (by decide +kernel)

theorem separates_two : Crc.Separates kCrcPolynomial 16 32 16 :=
  Crc.separates_of_table (by decide)
    [0x7bf4#32, 0x8c1c#32, 0x3f39#32, 0x7e72#32, 0x8710#32, 0x52d5#32, 0xa5aa#32, 0x17a1#32, 0x54b6#32, 0xd298#32,
      0x8231#32, 0x5897#32, 0xcada#32, 0xb2b5#32, 0x426b#32, 0xff22#32]
    (by decide +kernel)

theorem separates_three : Crc.Separates kCrcPolynomial 24 32 8 :=
  Crc.separates_of_table (by decide)
    [0x3c2bc7#32, 0x78578e#32, 0xcc84db#32, 0x2d7893#32, 0x66dae1#32, 0xcdb5c2#32, 0x133166#32, 0x1a490b#32,
      0x349216#32, 0x550feb#32, 0x963411#32, 0xa432c0#32, 0xc03f62#32, 0x082426#32, 0x10484c#32, 0x1cbb5f#32,
      0x3976be#32, 0x4ec6bb#32, 0xa1a6b1#32, 0xf73c47#32, 0x66226c#32, 0xcc44d8#32, 0x2cf895#32, 0x65daed#32]
    (by decide +kernel)

variable {text text' : Bytes}

/-- A part of two texts in which no byte differs. -/
theorem slice_eq {start count : ℕ} (h : ∀ i, start ≤ i → i < start + count → text[i]? = text'[i]?) :
    (text.drop start).take count = (text'.drop start).take count := by
  refine List.ext_getElem? fun n => ?_
  rw [List.getElem?_take, List.getElem?_take, List.getElem?_drop, List.getElem?_drop]
  split_ifs with hn
  · exact h _ (by omega) (by omega)
  · rfl

theorem drop_eq {start : ℕ} (h : ∀ i, start ≤ i → text[i]? = text'[i]?) : text.drop start = text'.drop start := by
  refine List.ext_getElem? fun n => ?_
  rw [List.getElem?_drop, List.getElem?_drop]
  exact h _ (by omega)

variable (hlength : text.length = text'.length) (hregister : crcRegister text = crcRegister text')

include hlength hregister

/-- Texts that differ in four bytes at most are told apart. -/
theorem eq_of_window (start : ℕ) (h : ∀ i, i < start ∨ start + 4 ≤ i → text[i]? = text'[i]?) : text = text' := by
  have hsplit : ∀ l : Bytes, l = (l.drop 0).take start ++ ((l.drop start).take 4 ++ l.drop (start + 4)) := by
    intro l
    rw [← List.drop_drop, List.take_append_drop, List.drop_zero, List.take_append_drop]
  have hfront : (text.drop 0).take start = (text'.drop 0).take start := slice_eq fun i _ hi => h i (by omega)
  have hback : text.drop (start + 4) = text'.drop (start + 4) := drop_eq fun i hi => h i (by omega)
  rw [hsplit text, hsplit text', hfront, hback] at hregister
  rw [crcRegister, crcRegister, crcByte_eq] at hregister
  have hburst := Crc.burst_detected kCrcPolynomial_msb (by rw [List.length_take, List.length_take, List.length_drop,
    List.length_drop, hlength]) (by rw [List.length_take]; omega) hregister
  rw [hsplit text, hsplit text', hfront, hback, hburst]

/-- So are texts that differ on both sides of the length. -/
theorem eq_of_gap {start : ℕ} (hlong : 12 ≤ text.length) (hpositive : 0 < start) (hlt : start < 4)
    (h : ∀ i, i < start ∨ (4 ≤ i ∧ i < 8) ∨ 8 + start ≤ i → text[i]? = text'[i]?) : text = text' := by
  have hsplit : ∀ l : Bytes, l = (l.drop 0).take start ++ ((l.drop start).take (4 - start) ++ ((l.drop 4).take 4 ++
      ((l.drop 8).take start ++ l.drop (8 + start)))) := by
    intro l
    have hmiddle : l.drop 4 = (l.drop start).drop (4 - start) := by
      rw [List.drop_drop, show start + (4 - start) = 4 by omega]
    rw [← List.drop_drop, List.take_append_drop, show l.drop 8 = (l.drop 4).drop 4 by rw [List.drop_drop],
      List.take_append_drop, hmiddle, List.take_append_drop, List.drop_zero, List.take_append_drop]
  have hfront : (text.drop 0).take start = (text'.drop 0).take start := slice_eq fun i _ hi => h i (by omega)
  have hgap : (text.drop 4).take 4 = (text'.drop 4).take 4 := slice_eq fun i hi hi' => h i (by omega)
  have hback : text.drop (8 + start) = text'.drop (8 + start) := drop_eq fun i hi => h i (by omega)
  rw [hsplit text, hsplit text', hfront, hgap, hback] at hregister
  rw [crcRegister, crcRegister, crcByte_eq] at hregister
  have hsizes : ∀ l : Bytes, l.length = text'.length → ((l.drop start).take (4 - start)).length = 4 - start ∧
      ((l.drop 4).take 4).length = 4 ∧ ((l.drop 8).take start).length = start := by
    intro l hl
    simp only [List.length_take, List.length_drop]
    omega
  obtain ⟨hfirst, -, hsecond⟩ := hsizes text hlength
  obtain ⟨hfirst', hgapSize, hsecond'⟩ := hsizes text' rfl
  have hsep : Crc.Separates kCrcPolynomial (8 * (4 - start)) (8 * 4) (8 * start) := by
    obtain rfl | rfl | rfl : start = 1 ∨ start = 2 ∨ start = 3 := by omega
    · exact separates_three
    · exact separates_two
    · exact separates_one
  obtain ⟨hburst, hburst'⟩ := Crc.gap_burst_detected kCrcPolynomial_msb (hfirst.trans hfirst'.symm)
    (hsecond.trans hsecond'.symm) (by omega) (by omega) (by rw [hfirst, hgapSize, hsecond]; exact hsep) hregister
  rw [hsplit text, hsplit text', hfront, hgap, hback, hburst, hburst']

end Window

/-- A damaged record leaves another register. -/
theorem Damaged.crcRegister_ne {record damaged : Bytes} (h : Damaged record damaged) (hlong : 12 ≤ record.length) :
    crcRegister damaged ≠ crcRegister record := by
  intro hregister
  obtain ⟨start, hconfined⟩ := h.confined
  have hsame : ∀ i, (∀ j, start ≤ j → j < start + 4 → i ≠ countedAt j) → damaged[i]? = record[i]? := by
    intro i hi
    by_contra hne
    obtain ⟨j, hle, hlt, rfl⟩ := hconfined i hne
    exact hi j hle hlt rfl
  refine h.changed ?_
  by_cases hgap : 0 < start ∧ start < 4
  · -- on both sides of the length
    refine eq_of_gap h.length hregister (h.length ▸ hlong) hgap.1 hgap.2 fun i hi => hsame i fun j hle hlt => ?_
    rw [countedAt]
    split_ifs <;> omega
  · -- in one piece, before the length or after it
    refine eq_of_window h.length hregister (countedAt start) fun i hi => hsame i fun j hle hlt => ?_
    rw [countedAt] at hi ⊢
    split_ifs at hi ⊢ <;> omega

section Read

variable {J : JournalPlatform} {record : JournalRecord} {damaged : Bytes}

/-- The bytes of the length are not changed. -/
theorem Damaged.lengthField {original : Bytes} (h : Damaged original damaged) :
    (damaged.drop 4).take 4 = (original.drop 4).take 4 := by
  obtain ⟨start, hconfined⟩ := h.confined
  refine slice_eq fun i hlow hhigh => ?_
  by_contra hne
  obtain ⟨j, -, -, rfl⟩ := hconfined i hne
  rw [countedAt] at hlow hhigh
  split_ifs at hlow hhigh <;> omega

variable (hcrc : StandardCrc J)

include hcrc

theorem crcRegister_encodeRecord (record : JournalRecord) :
    crcRegister (encodeRecord J record) = (Crc.shift kCrcPolynomial)^[32] (BitVec.allOnes 32) := by
  refine crcRegister_append (storeLe_length 4 _) ?_
  rw [loadLe_storeLe, recordCrc_eq hcrc]
  exact Nat.mod_eq_of_lt (~~~ crcRegister (recordHeader record ++ record.payload)).isLt

/-- The reader refuses a damaged record. -/
theorem decodeRecord_damaged (hsize : record.payload.length ≤ kMaxPayloadBytes)
    (h : Damaged (encodeRecord J record) damaged) (rest : Bytes) :
    ∃ reason, JournalReader.decodeRecord J (damaged ++ rest) = .error (some reason) := by
  have hlength : damaged.length = 28 + record.payload.length := h.length.trans (encodeRecord_length J record)
  have hsizes : kRecordHeaderSize = 24 ∧ kRecordTrailerSize = 4 := ⟨rfl, rfl⟩
  obtain ⟨view, payload, trailer, rfl, hview, hpayload, htrailer⟩ : ∃ view payload trailer,
      damaged = view ++ (payload ++ trailer) ∧ view.length = kRecordHeaderSize ∧
        payload.length = record.payload.length ∧ trailer.length = kRecordTrailerSize := by
    refine ⟨damaged.take 24, (damaged.drop 24).take record.payload.length, (damaged.drop 24).drop record.payload.length,
      ?_, ?_, ?_, ?_⟩
    · rw [List.take_append_drop, List.take_append_drop]
    · rw [List.length_take]
      omega
    · rw [List.length_take, List.length_drop]
      omega
    · rw [List.length_drop, List.length_drop]
      omega
  have hdeclared : fieldAt view 4 4 = record.payload.length := by
    have hfield := h.lengthField
    have hheader := recordHeader_length record
    rw [encodeRecord, List.append_assoc, List.drop_append_of_le_length (by omega),
      List.drop_append_of_le_length (by omega),
      List.take_append_of_le_length (by rw [List.length_drop]; omega),
      List.take_append_of_le_length (by rw [List.length_drop]; omega)] at hfield
    rw [fieldAt, hfield]
    exact recordHeader_declared record hsize
  -- a checksum that fits would leave the register of the record as it was written
  have hrefused : loadLe trailer ≠ (recordCrc J view payload).toNat := by
    intro hfits
    rw [recordCrc_eq hcrc] at hfits
    refine h.crcRegister_ne (by rw [encodeRecord_length]; omega) ?_
    rw [← List.append_assoc, crcRegister_append htrailer hfits, crcRegister_encodeRecord hcrc]
  rw [JournalReader.decodeRecord, List.append_assoc, List.append_assoc, readExact_append _ _ hview]
  simp only [hdeclared, if_neg (Nat.not_lt.2 hsize)]
  rw [readExact_append _ _ hpayload]
  simp only
  rw [readExact_append _ _ htrailer]
  simp only [if_pos hrefused]
  exact ⟨_, rfl⟩

/-- Reading goes through the records before the damaged one and stops there. -/
theorem readRounds_damaged (hsize : record.payload.length ≤ kMaxPayloadBytes) {before : List JournalRecord}
    (hbefore : ∀ other ∈ before, other.payload.length ≤ kMaxPayloadBytes)
    (h : Damaged (encodeRecord J record) damaged) (header : JournalFileHeader) (read : ℕ) (rest : Bytes) {rounds : ℕ}
    (hrounds : before.length < rounds) :
    ∃ final, JournalReader.readRounds J rounds
        { header, stream := before.flatMap (encodeRecord J) ++ (damaged ++ rest), recordsRead := read } =
          (before.map JournalRecord.onDisk, final) ∧ final.stoppedEarly = true := by
  induction before generalizing read rounds with
  | nil =>
    obtain ⟨rounds, rfl⟩ : ∃ n, rounds = n + 1 := ⟨rounds - 1, by omega⟩
    obtain ⟨reason, hreason⟩ := decodeRecord_damaged hcrc hsize h rest
    refine ⟨JournalReader.stop { header, stream := damaged ++ rest, recordsRead := read } reason, ?_, rfl⟩
    rw [JournalReader.readRounds, JournalReader.next, List.flatMap_nil, List.nil_append]
    simp only [Bool.false_eq_true, if_false, hreason, List.map_nil]
  | cons first before ih =>
    obtain ⟨rounds, rfl⟩ : ∃ n, rounds = n + 1 := ⟨rounds - 1, by omega⟩
    obtain ⟨final, hread, hearly⟩ := ih (fun other hother => hbefore other (List.mem_cons_of_mem _ hother)) (read + 1)
      (Nat.lt_of_succ_lt_succ hrounds)
    refine ⟨final, ?_, hearly⟩
    rw [List.flatMap_cons, List.append_assoc, JournalReader.readRounds,
      next_whole J (hbefore first List.mem_cons_self), List.map_cons]
    simp only [hread]

end Read

section Write

/-- A record a journal can hold. -/
structure JournalRecord.Storable (record : JournalRecord) : Prop where
  payload : record.payload.length ≤ kMaxPayloadBytes
  sequence : record.captureSequence < 2 ^ 64
  monotonic : record.monotonicNs < 2 ^ 64

/-- A write leaves the records, or adds the frame's. -/
theorem JournalWriter.writeRecord_records (writer : JournalWriter) (type : RecordType) (frame : CaptureFrame)
    (written : Bool) :
    (writer.writeRecord type frame written).file.records = writer.file.records ∨
      frame.payload.length ≤ kMaxPayloadBytes ∧ (writer.writeRecord type frame written).file.records =
        writer.file.records ++ [⟨type, frame.captureSequence, frame.monotonicNs, frame.payload⟩] := by
  rw [writeRecord]
  split_ifs with _ _ hpayload
  · exact Or.inl rfl
  · exact Or.inl rfl
  · exact Or.inl rfl
  · exact Or.inl rfl
  · exact Or.inr ⟨Nat.le_of_not_lt hpayload, rfl⟩

variable {writer : JournalWriter}

theorem JournalWriter.writeRecord_storable (h : ∀ record ∈ writer.file.records, record.Storable) (type : RecordType)
    {frame : CaptureFrame} (hframe : frame.captureSequence < 2 ^ 64 ∧ frame.monotonicNs < 2 ^ 64) (written : Bool) :
    ∀ record ∈ (writer.writeRecord type frame written).file.records, record.Storable := by
  rcases writer.writeRecord_records type frame written with hsame | ⟨hpayload, hmore⟩
  · rwa [hsame]
  · rw [hmore]
    exact List.forall_mem_append.2 ⟨h, List.forall_mem_singleton.2 ⟨hpayload, hframe.1, hframe.2⟩⟩

/-- Whatever is called, a journal holds records it can hold. -/
theorem JournalWriter.call_storable (h : ∀ record ∈ writer.file.records, record.Storable) {c : WriterCall}
    (hc : ∀ frame ∈ c.frame?, frame.captureSequence < 2 ^ 64 ∧ frame.monotonicNs < 2 ^ 64) :
    ∀ record ∈ (writer.call c).file.records, record.Storable := by
  cases c with
  | onFrame frame written => exact writeRecord_storable h _ (hc frame rfl) written
  | writeConnectMarker frame written => exact writeRecord_storable h _ (hc frame rfl) written
  | flush written => cases written <;> exact h

theorem JournalWriter.run_storable (h : ∀ record ∈ writer.file.records, record.Storable) {calls : List WriterCall}
    (hcalls : ∀ c ∈ calls, ∀ frame ∈ c.frame?, frame.captureSequence < 2 ^ 64 ∧ frame.monotonicNs < 2 ^ 64) :
    ∀ record ∈ (calls.foldl JournalWriter.call writer).file.records, record.Storable := by
  induction calls generalizing writer with
  | nil => exact h
  | cons c calls ih =>
    exact ih (call_storable h (hcalls c List.mem_cons_self)) fun later hlater =>
      hcalls later (List.mem_cons_of_mem _ hlater)

end Write

/-- A journal with one record damaged is read up to that record: those before it come back
as they were written, and the reader says that it stopped early. A write that failed may
have left a part of a record at the end of the file. -/
theorem damaged_record_stops_reader (J : JournalPlatform) (hcrc : StandardCrc J) (path exchange : Bytes)
    (connectId realtimeNs monotonicNs : ℕ) (calls : List WriterCall)
    (hcalls : ∀ c ∈ calls, ∀ frame ∈ c.frame?, frame.captureSequence < 2 ^ 64 ∧ frame.monotonicNs < 2 ^ 64)
    (writer : JournalWriter)
    (hwriter : writer = calls.foldl JournalWriter.call
      (JournalWriter.create path exchange connectId realtimeNs monotonicNs))
    (before after : List JournalRecord) (record : JournalRecord)
    (hrecords : writer.file.records = before ++ record :: after)
    (damaged tail : Bytes) (hdamaged : Damaged (encodeRecord J record) damaged) :
    ∃ reader final, JournalReader.openFile J (encodeHeader J writer.file.header ++ (before.flatMap (encodeRecord J) ++
        (damaged ++ (after.flatMap (encodeRecord J) ++ tail)))) = .ok reader ∧
      reader.readAll J = (before, final) ∧ final.stoppedEarly = true := by
  have hstorable : ∀ record ∈ writer.file.records, record.Storable := by
    rw [hwriter]
    exact JournalWriter.run_storable (by simp [JournalWriter.create]) hcalls
  rw [hrecords] at hstorable
  have hbefore : ∀ other ∈ before, other.Storable := fun other hother => hstorable other (List.mem_append_left _ hother)
  have hown : record.Storable := hstorable record (List.mem_append_right _ List.mem_cons_self)
  have hsame : before.map JournalRecord.onDisk = before :=
    (List.map_congr_left fun other hother =>
      JournalRecord.onDisk_of_lt (hbefore other hother).sequence (hbefore other hother).monotonic).trans (List.map_id _)
  have hrounds : before.length < (before.flatMap (encodeRecord J) ++
      (damaged ++ (after.flatMap (encodeRecord J) ++ tail))).length + 1 := by
    have hle := records_length_le J before
    rw [List.length_append]
    omega
  have hopen := openFile_written J writer.file.header
    (before.flatMap (encodeRecord J) ++ (damaged ++ (after.flatMap (encodeRecord J) ++ tail)))
  obtain ⟨final, hread, hearly⟩ := readRounds_damaged hcrc hown.payload
    (fun other hother => (hbefore other hother).payload) hdamaged _ 0 (after.flatMap (encodeRecord J) ++ tail) hrounds
  rw [hsame] at hread
  exact ⟨_, final, hopen, hread, hearly⟩

/-- The three writes as calls. -/
def threeCalls : List WriterCall :=
  threeWrites.map fun write => if write.1 = .connect then .writeConnectMarker write.2 true else .onFrame write.2 true

/-- The record of an empty message, changed in the bytes before and after its length. -/
def damagedEmpty : Bytes :=
  ((encodeRecord zlibJournal ⟨.wireMessage, 2, 11, []⟩).set 3 1).set 8 77

theorem damaged_empty_stops_reader :
    ∃ reader final, JournalReader.openFile zlibJournal (encodeHeader zlibJournal threeWritten.file.header ++
        (encodeRecord zlibJournal ⟨.connect, 1, 10, ascii "start"⟩ ++ (damagedEmpty ++
          encodeRecord zlibJournal ⟨.wireMessage, 5, 12, [0, 255]⟩))) = .ok reader ∧
      reader.readAll zlibJournal = ([⟨.connect, 1, 10, ascii "start"⟩], final) ∧ final.stoppedEarly = true := by
  have hdamaged : Damaged (encodeRecord zlibJournal ⟨.wireMessage, 2, 11, []⟩) damagedEmpty := by
    refine ⟨by rw [damagedEmpty, List.length_set, List.length_set], by decide +kernel, 3, fun i hi => ?_⟩
    by_cases hfirst : i = 3
    · exact ⟨3, by decide, by decide, hfirst⟩
    · by_cases hsecond : i = 8
      · exact ⟨4, by decide, by decide, hsecond⟩
      · rw [damagedEmpty, List.getElem?_set_ne (Ne.symm hsecond), List.getElem?_set_ne (Ne.symm hfirst)] at hi
        exact absurd rfl hi
  have hread := damaged_record_stops_reader zlibJournal (fun _ _ => rfl) (ascii "k.journal") (ascii "kraken") 7 3 4
    threeCalls (by decide) threeWritten (by decide +kernel) [⟨.connect, 1, 10, ascii "start"⟩] [⟨.wireMessage, 5, 12, [0, 255]⟩]
    ⟨.wireMessage, 2, 11, []⟩ (by decide +kernel) damagedEmpty [] hdamaged
  simpa only [List.flatMap_singleton, List.append_nil] using hread

end CryptoTrader
