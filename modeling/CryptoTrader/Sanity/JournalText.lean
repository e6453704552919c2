import CryptoTrader.Sanity.Journal

/-! The bytes of a journal's records. A record is a header with a known type and a length
that is not too long, a payload of that length and the checksum of both. Any bytes are
whole records and a rest that starts with none. -/

namespace CryptoTrader

open Journal

/-- A record as it stands in a file. -/
structure RecordText (J : JournalPlatform) where
  header : Bytes
  payload : Bytes
  trailer : Bytes
  type : RecordType
  header_length : header.length = kRecordHeaderSize
  header_type : header.head?.bind recordType? = some type
  length_le : fieldAt header 4 4 ≤ kMaxPayloadBytes
  payload_length : payload.length = fieldAt header 4 4
  trailer_length : trailer.length = kRecordTrailerSize
  trailer_crc : loadLe trailer = (recordCrc J header payload).toNat

namespace RecordText

variable {J : JournalPlatform}

def bytes (text : RecordText J) : Bytes := text.header ++ (text.payload ++ text.trailer)

/-- The fields that are decoded. -/
def record (text : RecordText J) : JournalRecord :=
  ⟨text.type, fieldAt text.header 8 8, fieldAt text.header 16 8, text.payload⟩

def render (texts : List (RecordText J)) : Bytes := texts.flatMap bytes

theorem bytes_append (text : RecordText J) (rest : Bytes) :
    text.bytes ++ rest = text.header ++ (text.payload ++ (text.trailer ++ rest)) := by
  rw [bytes, List.append_assoc, List.append_assoc]

theorem bytes_length (text : RecordText J) : text.bytes.length = 28 + text.payload.length := by
  rw [bytes, List.length_append, List.length_append, text.header_length, text.trailer_length, kRecordHeaderSize,
    kRecordTrailerSize]
  omega

theorem render_cons (text : RecordText J) (texts : List (RecordText J)) : render (text :: texts) = text.bytes ++ render texts :=
  List.flatMap_cons

theorem length_le_render (texts : List (RecordText J)) : texts.length ≤ (render texts).length := by
  induction texts with
  | nil => exact Nat.le_refl 0
  | cons text texts ih =>
    rw [render_cons, List.length_append, bytes_length, List.length_cons]
    exact Nat.add_le_add ih (by omega) |>.trans_eq (Nat.add_comm _ _)

/-- A payload stands in the text as it is. -/
theorem payload_infix_render {text : RecordText J} {texts : List (RecordText J)} (h : text ∈ texts) :
    text.payload <:+: render texts := by
  obtain ⟨before, after, rfl⟩ := List.append_of_mem h
  refine ⟨render before ++ text.header, text.trailer ++ render after, ?_⟩
  have hrender : render (before ++ text :: after) = render before ++ render (text :: after) := List.flatMap_append
  rw [hrender, render_cons, bytes_append]
  simp only [List.append_assoc]

end RecordText

theorem readExact_eq_some {count : ℕ} {stream view rest : Bytes} (h : readExact count stream = some (view, rest)) :
    stream = view ++ rest ∧ view.length = count := by
  unfold readExact at h
  split_ifs at h with hle
  cases h
  exact ⟨(List.take_append_drop count stream).symm, List.length_take_of_le hle⟩

section Decode

variable (J : JournalPlatform)

theorem decodeRecord_bytes (text : RecordText J) (rest : Bytes) :
    JournalReader.decodeRecord J (text.bytes ++ rest) = .ok (text.record, rest) := by
  rw [text.bytes_append, JournalReader.decodeRecord, readExact_append _ _ text.header_length]
  simp only [if_neg (Nat.not_lt.2 text.length_le)]
  rw [readExact_append _ _ text.payload_length]
  simp only
  rw [readExact_append _ _ text.trailer_length]
  simp only [text.trailer_crc, ne_eq, not_true_eq_false, if_false, text.header_type]
  rfl

/-- What the reader decodes is a record that is there. -/
theorem exists_text_of_decodeRecord {stream rest : Bytes} {record : JournalRecord}
    (h : JournalReader.decodeRecord J stream = .ok (record, rest)) :
    ∃ text : RecordText J, stream = text.bytes ++ rest ∧ text.record = record := by
  unfold JournalReader.decodeRecord at h
  split at h
  · cases h
  rename_i view afterHeader hheader
  obtain ⟨rfl, hview⟩ := readExact_eq_some hheader
  split_ifs at h with hlong
  split at h
  · cases h
  rename_i payload afterPayload hpayload
  obtain ⟨rfl, hlength⟩ := readExact_eq_some hpayload
  split at h
  · cases h
  rename_i trailer afterTrailer htrailer
  obtain ⟨rfl, htrailerLength⟩ := readExact_eq_some htrailer
  split_ifs at h with hcrc
  split at h
  · cases h
  rename_i type htype
  cases h
  refine ⟨⟨view, payload, trailer, type, hview, htype, Nat.le_of_not_lt hlong, hlength, htrailerLength, not_not.1 hcrc⟩,
    ?_, rfl⟩
  rw [RecordText.bytes_append]

/-- Only the end of the file is a clean one. -/
theorem decodeRecord_eq_none_iff {stream : Bytes} :
    JournalReader.decodeRecord J stream = .error none ↔ stream = [] := by
  refine ⟨fun h => ?_, fun h => by rw [h]; rfl⟩
  unfold JournalReader.decodeRecord at h
  split at h
  · by_contra hne
    rw [if_neg hne] at h
    cases h
  split_ifs at h
  · cases h
  split at h
  · cases h
  split at h
  · cases h
  split_ifs at h
  · cases h
  split at h <;> cases h

/-- Any bytes are whole records and a rest that is none. -/
theorem exists_recordTexts (stream : Bytes) :
    ∃ (texts : List (RecordText J)) (rest : Bytes) (reason : Option Bytes), stream = RecordText.render texts ++ rest ∧
      JournalReader.decodeRecord J rest = .error reason ∧ (reason = none ↔ rest = []) := by
  induction hlength : stream.length using Nat.strongRecOn generalizing stream with
  | ind size ih =>
    cases hdecode : JournalReader.decodeRecord J stream with
    | error reason =>
      refine ⟨[], stream, reason, rfl, hdecode, ?_⟩
      rw [← decodeRecord_eq_none_iff J, hdecode, Except.error.injEq]
    | ok decoded =>
      obtain ⟨record, tail⟩ := decoded
      obtain ⟨text, hstream, -⟩ := exists_text_of_decodeRecord J hdecode
      have hsmaller : tail.length < size := by
        rw [← hlength, hstream, List.length_append, text.bytes_length]
        omega
      obtain ⟨texts, rest, reason, hrest, hreason⟩ := ih _ hsmaller tail rfl
      refine ⟨text :: texts, rest, reason, ?_, hreason⟩
      rw [hstream, hrest, RecordText.render_cons, List.append_assoc]

end Decode

namespace JournalReader

variable (J : JournalPlatform)

/-- Some calls of `Next`, and what each returned. -/
def nexts : ℕ → JournalReader → List (Option JournalRecord) × JournalReader
  | 0, reader => ([], reader)
  | calls + 1, reader =>
    let later := nexts calls (reader.next J).2
    ((reader.next J).1 :: later.1, later.2)

/-- The calls return these records in turn, and from then on nothing, with the reader as it
is. -/
def Yields (reader : JournalReader) (records : List JournalRecord) (final : JournalReader) : Prop :=
  ∀ extra, reader.nexts J (records.length + (extra + 1)) =
    (records.map some ++ List.replicate (extra + 1) none, final)

/-- The reader after a call that found no record. -/
def ended (reader : JournalReader) (reason : Option Bytes) : JournalReader :=
  { reader with finished := true, stopReason := reader.stopReason.or reason }

variable {J} {reader : JournalReader}

theorem next_bytes (hopen : reader.finished = false) {text : RecordText J} {rest : Bytes}
    (hstream : reader.stream = text.bytes ++ rest) :
    reader.next J = (some text.record, { reader with stream := rest, recordsRead := reader.recordsRead + 1 }) := by
  rw [next, if_neg (by simp [hopen]), hstream, decodeRecord_bytes]

theorem next_error (hopen : reader.finished = false) {reason : Option Bytes}
    (herror : decodeRecord J reader.stream = .error reason) : reader.next J = (none, reader.ended reason) := by
  rw [next, if_neg (by simp [hopen]), herror]
  cases reason with
  | none =>
    rw [ended, Option.or_none]
  | some text => rfl

theorem nexts_finished (h : reader.finished = true) (calls : ℕ) :
    reader.nexts J calls = (List.replicate calls none, reader) := by
  induction calls with
  | zero => rfl
  | succ calls ih =>
    have hnext : reader.next J = (none, reader) := by rw [next, if_pos h]
    rw [nexts, hnext, ih]
    rfl

/-- A reader before whole records and a rest returns the records and ends at the rest. -/
theorem yields_texts (hopen : reader.finished = false) {texts : List (RecordText J)} {rest : Bytes}
    {reason : Option Bytes} (hstream : reader.stream = RecordText.render texts ++ rest)
    (hrest : decodeRecord J rest = .error reason) :
    reader.Yields J (texts.map RecordText.record)
      (ended { reader with stream := rest, recordsRead := reader.recordsRead + texts.length } reason) := by
  induction texts generalizing reader with
  | nil =>
    intro extra
    have hstream : reader.stream = rest := hstream
    have hnext := next_error hopen (by rw [hstream]; exact hrest)
    rw [List.map_nil, List.length_nil, Nat.zero_add, nexts, hnext, nexts_finished rfl, ← hstream]
    rfl
  | cons text texts ih =>
    intro extra
    have hsplit : reader.stream = text.bytes ++ (RecordText.render texts ++ rest) := by
      rw [hstream, RecordText.render_cons, List.append_assoc]
    have hnext := next_bytes hopen hsplit
    have hlater := @ih { reader with
      stream := RecordText.render texts ++ rest, recordsRead := reader.recordsRead + 1 } hopen rfl extra
    have hcalls : (List.map RecordText.record (text :: texts)).length + (extra + 1) =
        (List.map RecordText.record texts).length + (extra + 1) + 1 := by
      rw [List.map_cons, List.length_cons]
      omega
    have hread : reader.recordsRead + (text :: texts).length = reader.recordsRead + 1 + texts.length := by
      rw [List.length_cons]
      omega
    rw [hcalls, nexts, hnext, hlater, hread]
    rfl

end JournalReader

/-- A file that opens is its header and what the reader then reads. -/
theorem openFile_eq_ok {J : JournalPlatform} {content : Bytes} {reader : JournalReader}
    (h : JournalReader.openFile J content = .ok reader) :
    kFileHeaderSize ≤ content.length ∧ reader.stream = content.drop kFileHeaderSize ∧ reader.recordsRead = 0 ∧
      reader.finished = false ∧ reader.stopReason = none := by
  unfold JournalReader.openFile at h
  split at h
  · cases h
  rename_i view stream hview
  unfold readExact at hview
  split_ifs at hview with hle
  cases hview
  split_ifs at h
  cases h
  exact ⟨hle, rfl, rfl, rfl, rfl⟩

end CryptoTrader
