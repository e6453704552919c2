import CryptoTrader.Proofs.FixRoundTrip
import CryptoTrader.Proofs.JournalDamage
import CryptoTrader.Sanity.JournalText
import CryptoTrader.Spec.JournalSlice

/-! The two readers of a journal. The reader of the format returns the whole records of any
file it opens and says whether bytes are left; the tool that cuts a slice off a capture
has a reader of its own, which agrees with it record by record. So a slice is a journal
again, with the records up to the cut and no Logon among them. -/

namespace CryptoTrader

open Journal

/-- On any bytes as a file: the reader refuses it, or returns the whole records from behind
the header on, in their order, and then nothing. It stopped early exactly if bytes are
left, and it counts what it returned. -/
theorem reader_sound_on_any_bytes (J : JournalPlatform) (content : Bytes) :
    (∃ reason, JournalReader.openFile J content = .error reason) ∨
    ∃ (reader final : JournalReader) (texts : List (RecordText J)) (rest : Bytes),
      JournalReader.openFile J content = .ok reader ∧ kFileHeaderSize ≤ content.length ∧
      content.drop kFileHeaderSize = RecordText.render texts ++ rest ∧
      reader.Yields J (texts.map RecordText.record) final ∧
      (StandardCrc J → ∀ text ∈ texts,
        loadLe text.trailer = (~~~ crcRegister (text.header ++ text.payload)).toNat) ∧
      (final.stoppedEarly = true ↔ rest ≠ []) ∧ final.recordsRead = texts.length := by
  cases hopen : JournalReader.openFile J content with
  | error reason => exact .inl ⟨reason, rfl⟩
  | ok reader =>
    obtain ⟨hlength, hstream, hread, hfinished, hreason⟩ := openFile_eq_ok hopen
    obtain ⟨texts, rest, reason, hsplit, herror, hclean⟩ := exists_recordTexts J (content.drop kFileHeaderSize)
    refine .inr ⟨reader, _, texts, rest, rfl, hlength, hsplit,
      JournalReader.yields_texts hfinished (hstream.trans hsplit) herror, fun hcrc text _ => ?_, ?_, ?_⟩
    · rw [text.trailer_crc, recordCrc_eq hcrc]
    · rw [JournalReader.stoppedEarly, JournalReader.ended, hreason, Option.none_or, Option.isSome_iff_ne_none, ne_eq,
        hclean]
    · rw [JournalReader.ended, hread, Nat.zero_add]

namespace JournalSlice

section Search

variable {pattern : Bytes}

theorem find_eq_none_iff {text : Bytes} : find pattern text = none ↔ ¬ pattern <:+: text := by
  induction text with
  | nil =>
    rw [find, List.infix_nil]
    split_ifs with hempty <;> simp [hempty]
  | cons byte text ih =>
    rw [find, List.infix_cons_iff]
    split_ifs with hhere
    · simp [List.isPrefixOf_iff_prefix.1 hhere]
    · rw [Option.map_eq_none_iff, ih]
      simp [mt List.isPrefixOf_iff_prefix.2 hhere]

/-- No occurrence is counted exactly where there is none. -/
theorem countOccurrences_eq_zero_iff {text : Bytes} : countOccurrences text pattern = 0 ↔ ¬ pattern <:+: text := by
  rw [countOccurrences, countRounds, ← find_eq_none_iff]
  cases find pattern text with
  | none => simp
  | some pos => simp

end Search

section ReadRecord

variable (J : JournalPlatform)

/-- What the tool makes of a record that is there. -/
def ofText {J : JournalPlatform} (text : RecordText J) : Record :=
  ⟨text.header, text.payload, text.trailer, text.type.toByte⟩

theorem toByte_of_recordType? {raw : UInt8} {type : RecordType} (h : recordType? raw = some type) : type.toByte = raw := by
  unfold recordType? at h
  split_ifs at h with hone htwo
  · cases h
    exact hone.symm
  · cases h
    exact htwo.symm

theorem head_toByte (text : RecordText J) :
    text.header.headD 0 = text.type.toByte ∧ recordType? text.type.toByte ≠ none := by
  obtain ⟨byte, hbyte, htype⟩ := Option.bind_eq_some_iff.1 text.header_type
  rw [List.headD_eq_head?_getD, hbyte]
  exact ⟨(toByte_of_recordType? htype).symm, by rw [recordType?_toByte]; simp⟩

theorem readRecord_bytes (text : RecordText J) (rest : Bytes) (index : ℕ) :
    readRecord J (text.bytes ++ rest) index = .ok (some (ofText text, rest)) := by
  have hne : text.bytes ++ rest ≠ [] := by
    intro hnil
    have hlength := congrArg List.length hnil
    rw [List.length_append, text.bytes_length, List.length_nil] at hlength
    omega
  obtain ⟨hhead, hknown⟩ := head_toByte J text
  rw [readRecord, if_neg hne, text.bytes_append, readExact_append _ _ text.header_length]
  simp only [hhead, if_neg (not_or.2 ⟨hknown, Nat.not_lt.2 text.length_le⟩)]
  rw [readExact_append _ _ text.payload_length]
  simp only
  rw [readExact_append _ _ text.trailer_length]
  simp only [text.trailer_crc, ne_eq, not_true_eq_false, if_false]
  rfl

/-- The tool's reader takes no record that the format's reader refuses. -/
theorem readRecord_error {stream : Bytes} {reason : Option Bytes}
    (h : JournalReader.decodeRecord J stream = .error reason) (hne : stream ≠ []) (index : ℕ) :
    ∃ reason, readRecord J stream index = .error reason := by
  rw [readRecord, if_neg hne]
  simp only
  split
  · exact ⟨_, rfl⟩
  rename_i header afterHeader hheader
  split_ifs with hunusable
  · exact ⟨_, rfl⟩
  split
  · exact ⟨_, rfl⟩
  rename_i payload afterPayload hpayload
  split
  · exact ⟨_, rfl⟩
  rename_i trailer rest htrailer
  split_ifs with hcrc
  · exact ⟨_, rfl⟩
  -- a record that passes all checks would have been decoded
  obtain ⟨rfl, hheaderLength⟩ := readExact_eq_some hheader
  obtain ⟨rfl, hpayloadLength⟩ := readExact_eq_some hpayload
  obtain ⟨rfl, htrailerLength⟩ := readExact_eq_some htrailer
  obtain ⟨hknown, hshort⟩ := not_or.1 hunusable
  obtain ⟨type, htype⟩ := Option.ne_none_iff_exists'.1 hknown
  have hhead : header.head?.bind recordType? = some type := by
    cases header with
    | nil => cases hheaderLength
    | cons byte header => exact htype
  have hdecode := decodeRecord_bytes J ⟨header, payload, trailer, type, hheaderLength, hhead, Nat.le_of_not_lt hshort,
    hpayloadLength, htrailerLength, (not_not.1 hcrc).symm⟩ rest
  rw [RecordText.bytes_append, h] at hdecode
  cases hdecode

end ReadRecord

section Cut

/-- A list up to and including the `n`-th element that is counted. -/
def upToNth {α : Type} (counted : α → Bool) : ℕ → List α → List α
  | 0, _ => []
  | _ + 1, [] => []
  | n + 1, one :: rest => one :: upToNth counted (if counted one then n else n + 1) rest

/-- A wire message whose first MsgType says Logon. -/
def isLogon (record : JournalRecord) : Bool :=
  record.type = .wireMessage ∧ msgType record.payload = Fix.MsgType.kLogon

def isIncremental (record : JournalRecord) : Bool :=
  record.type = .wireMessage ∧ msgType record.payload = Fix.MsgType.kMarketDataIncrementalRefresh

/-- The records of a slice: those up to the last incremental that is wanted, but no Logon. -/
def sliced (maxIncrementals : ℕ) (records : List JournalRecord) : List JournalRecord :=
  (upToNth isIncremental maxIncrementals records).filter fun record => !isLogon record

theorem upToNth_zero {α : Type} (counted : α → Bool) (all : List α) : upToNth counted 0 all = [] := by
  rw [upToNth]

theorem upToNth_nil {α : Type} (counted : α → Bool) (n : ℕ) : upToNth counted n [] = [] := by
  cases n <;> rfl

theorem upToNth_map {α β : Type} (f : α → β) (counted : β → Bool) (n : ℕ) (all : List α) :
    upToNth counted n (all.map f) = (upToNth (fun one => counted (f one)) n all).map f := by
  induction all generalizing n with
  | nil => rw [List.map_nil, upToNth_nil, upToNth_nil, List.map_nil]
  | cons one all ih =>
    cases n with
    | zero => rw [upToNth_zero, upToNth_zero, List.map_nil]
    | succ n => rw [List.map_cons, upToNth, upToNth, List.map_cons, ih]

variable {J : JournalPlatform}

/-- The texts of a slice's records. -/
def slicedTexts (maxIncrementals : ℕ) (texts : List (RecordText J)) : List (RecordText J) :=
  (upToNth (fun text => isIncremental text.record) maxIncrementals texts).filter fun text => !isLogon text.record

theorem map_slicedTexts (maxIncrementals : ℕ) (texts : List (RecordText J)) :
    (slicedTexts maxIncrementals texts).map RecordText.record = sliced maxIncrementals (texts.map RecordText.record) := by
  rw [sliced, upToNth_map, List.filter_map]
  rfl

theorem slicedTexts_cons (n : ℕ) (text : RecordText J) (texts : List (RecordText J)) :
    slicedTexts (n + 1) (text :: texts) =
      if isLogon text.record then slicedTexts (if isIncremental text.record then n else n + 1) texts
      else text :: slicedTexts (if isIncremental text.record then n else n + 1) texts := by
  change List.filter _ (text :: upToNth _ _ texts) = _
  rw [List.filter_cons]
  cases isLogon text.record <;> rfl

/-- What one record does to the count of the incrementals, and whether it is kept. -/
theorem tally_ofText (text : RecordText J) (counts : Counts) :
    (tally (ofText text) counts).1 = !isLogon text.record ∧
      (tally (ofText text) counts).2.incrementals =
        counts.incrementals + if isIncremental text.record then 1 else 0 := by
  have hlogon : Fix.MsgType.kLogon ≠ Fix.MsgType.kMarketDataIncrementalRefresh := by decide
  have hsnapshot : Fix.MsgType.kMarketDataSnapshotFullRefresh ≠ Fix.MsgType.kMarketDataIncrementalRefresh := by decide
  cases htype : text.type with
  | connect =>
    have hbyte : (ofText text).type = RecordType.connect.toByte := congrArg RecordType.toByte htype
    rw [tally, if_pos hbyte]
    simp [isLogon, isIncremental, RecordText.record, htype]
  | wireMessage =>
    have hbyte : (ofText text).type ≠ RecordType.connect.toByte := by
      change text.type.toByte ≠ _
      rw [htype]
      decide
    have hpayload : (ofText text).payload = text.payload := rfl
    rw [tally, if_neg hbyte, hpayload]
    by_cases hA : msgType text.payload = Fix.MsgType.kLogon
    · rw [if_pos hA]
      simp [isLogon, isIncremental, RecordText.record, htype, hA, hlogon]
    · rw [if_neg hA]
      by_cases hW : msgType text.payload = Fix.MsgType.kMarketDataSnapshotFullRefresh
      · rw [if_pos hW]
        simp [isLogon, isIncremental, RecordText.record, htype, hA, hW ▸ hsnapshot]
      · rw [if_neg hW]
        by_cases hX : msgType text.payload = Fix.MsgType.kMarketDataIncrementalRefresh
        · rw [if_pos hX]
          simp [isLogon, isIncremental, RecordText.record, htype, hX, hlogon.symm]
        · rw [if_neg hX]
          simp [isLogon, isIncremental, RecordText.record, htype, hA, hX]

/-- The loop at bytes that are no record: it ends there with what it has, and if it still
looks for incrementals these bytes are none. -/
theorem sliceRounds_rest {maxIncrementals : ℕ} {rest : Bytes} {reason : Option Bytes}
    (hrest : JournalReader.decodeRecord J rest = .error reason) {rounds : ℕ} {counts counts' : Counts} {slice out : Bytes}
    (h : sliceRounds J maxIncrementals (rounds + 1) rest counts slice = .ok (out, counts')) :
    out = slice ∧ (0 < maxIncrementals - counts.incrementals → rest = []) := by
  rw [sliceRounds] at h
  split_ifs at h with hmore
  · by_cases hempty : rest = []
    · rw [hempty] at h
      cases h
      exact ⟨rfl, fun _ => hempty⟩
    · obtain ⟨reason', herror⟩ := readRecord_error J hrest hempty counts.recordsRead
      rw [herror] at h
      cases h
  · cases h
    exact ⟨rfl, fun hlt => by omega⟩

/-- The loop over whole records and a rest: a slice that is built holds the records up to
the cut, and if the cut is not reached the file ends with them. -/
theorem sliceRounds_texts {maxIncrementals : ℕ} {texts : List (RecordText J)} {rest : Bytes} {reason : Option Bytes}
    (hrest : JournalReader.decodeRecord J rest = .error reason) {rounds : ℕ} (hrounds : texts.length < rounds)
    {counts counts' : Counts} {slice out : Bytes}
    (h : sliceRounds J maxIncrementals rounds (RecordText.render texts ++ rest) counts slice = .ok (out, counts')) :
    out = slice ++ RecordText.render (slicedTexts (maxIncrementals - counts.incrementals) texts) ∧
      (texts.countP (fun text => isIncremental text.record) < maxIncrementals - counts.incrementals → rest = []) := by
  induction texts generalizing rounds counts slice with
  | nil =>
    obtain ⟨rounds, rfl⟩ : ∃ n, rounds = n + 1 := ⟨rounds - 1, by omega⟩
    obtain ⟨hout, hempty⟩ := sliceRounds_rest hrest h
    rw [slicedTexts, upToNth_nil]
    exact ⟨hout.trans (List.append_nil _).symm, hempty⟩
  | cons text texts ih =>
    obtain ⟨rounds, rfl⟩ : ∃ n, rounds = n + 1 := ⟨rounds - 1, by omega⟩
    rw [RecordText.render_cons, List.append_assoc, sliceRounds] at h
    split_ifs at h with hmore
    · obtain ⟨hkept, hincrementals⟩ := tally_ofText text counts
      obtain ⟨need, hneed⟩ : ∃ n, maxIncrementals - counts.incrementals = n + 1 :=
        ⟨maxIncrementals - counts.incrementals - 1, by omega⟩
      have hleft : maxIncrementals - (tally (ofText text) counts).2.incrementals =
          if isIncremental text.record then need else need + 1 := by
        rw [hincrementals]
        split_ifs <;> omega
      rw [readRecord_bytes] at h
      simp only at h
      obtain ⟨hout, hclean⟩ := ih (Nat.lt_of_succ_lt_succ hrounds) h
      rw [hleft] at hout hclean
      rw [hneed]
      refine ⟨?_, fun hfew => hclean ?_⟩
      · rw [hout, hkept, slicedTexts_cons]
        cases isLogon text.record with
        | true => rfl
        | false =>
          change slice ++ text.header ++ text.payload ++ text.trailer ++ _ = slice ++ (text.bytes ++ _)
          rw [text.bytes_append, List.append_assoc, List.append_assoc, List.append_assoc]
          rfl
      · rw [List.countP_cons] at hfew
        split_ifs at hfew ⊢ <;> omega
    · have hnone : maxIncrementals - counts.incrementals = 0 := by omega
      cases h
      rw [hnone, slicedTexts, upToNth_zero]
      exact ⟨(List.append_nil _).symm, fun hlt => absurd hlt (Nat.not_lt_zero _)⟩

end Cut

section Clean

/-- Before every field of a built message stands an SOH. -/
theorem field_infix_buildMessage {fields : List Fix.Field} {one : Fix.Field} (h : one ∈ fields) :
    (Fix.kSoh :: Fix.Field.bytes one) <:+: Fix.buildMessage fields := by
  obtain ⟨before, after, rfl⟩ := List.append_of_mem h
  obtain ⟨front, hfront⟩ : ∃ front, Fix.kSoh :: before.flatMap Fix.Field.bytes = front ++ [Fix.kSoh] := by
    rcases List.eq_nil_or_concat' before with rfl | ⟨before, last, rfl⟩
    · exact ⟨[], rfl⟩
    · refine ⟨Fix.kSoh :: (before.flatMap Fix.Field.bytes ++ (natText last.tag ++ [Fix.kEquals] ++ last.value)), ?_⟩
      simp only [List.flatMap_append, List.flatMap_singleton, Fix.Field.bytes, List.cons_append, List.append_assoc]
  rw [Fix.buildMessage]
  generalize Fix.checksumField _ = checksum
  rw [Fix.buildUnchecked_eq, List.flatMap_append, List.flatMap_cons, ← List.cons_append, hfront]
  refine ⟨Fix.beginStringPrefix ++ (ascii "9=" ++ (Fix.lengthDigits (before ++ one :: after) ++ front)),
    after.flatMap Fix.Field.bytes ++ checksum, ?_⟩
  simp only [List.append_assoc, List.cons_append, List.nil_append]

/-- A text with none of the patterns is no built message with a credential-shaped field or a
Logon's MsgType. -/
theorem clean_of_buildMessage {fields : List Fix.Field} (hlogon : ¬ kLogonMarker <:+: Fix.buildMessage fields)
    (hraw : ¬ kRawDataTag <:+: Fix.buildMessage fields) (hpassword : ¬ kPasswordTag <:+: Fix.buildMessage fields) :
    ∀ one ∈ fields, one.tag ≠ Fix.Tag.kRawData ∧ one.tag ≠ Fix.Tag.kPassword ∧
      one ≠ ⟨Fix.Tag.kMsgType, Fix.MsgType.kLogon⟩ := by
  intro one hone
  have hinfix := field_infix_buildMessage hone
  have htag {tag : ℕ} {pattern : Bytes} (hpattern : pattern = Fix.kSoh :: (natText tag ++ [Fix.kEquals]))
      (heq : one.tag = tag) : pattern <:+: Fix.buildMessage fields := by
    refine List.IsInfix.trans (List.IsPrefix.isInfix ⟨one.value ++ [Fix.kSoh], ?_⟩) hinfix
    rw [hpattern, Fix.Field.bytes, heq, List.cons_append, List.append_assoc, List.append_assoc, List.append_assoc]
  refine ⟨fun heq => hraw (htag (by decide) heq), fun heq => hpassword (htag (by decide) heq), ?_⟩
  rintro rfl
  exact hlogon hinfix

end Clean

/-- What a slice that is returned has passed. -/
theorem buildSlice_eq_ok {J : JournalPlatform} {content slice : Bytes} {maxIncrementals : ℕ} {counts : Counts}
    (h : buildSlice J content maxIncrementals = .ok (slice, counts)) :
    (∃ counts', sliceRounds J maxIncrementals ((content.drop kFileHeaderSize).length + 1) (content.drop kFileHeaderSize) {}
      (content.take kFileHeaderSize) = .ok (slice, counts')) ∧
    ¬ kLogonMarker <:+: slice ∧ ¬ kRawDataTag <:+: slice ∧ ¬ kPasswordTag <:+: slice := by
  unfold buildSlice readExact at h
  split_ifs at h with hlength
  simp only at h
  split_ifs at h
  split at h
  · cases h
  rename_i out counts' hrounds
  unfold checkSlice at h
  simp only at h
  split_ifs at h with hdirty
  cases h
  simp only [not_or, not_not, countOccurrences_eq_zero_iff] at hdirty
  exact ⟨⟨counts', hrounds⟩, hdirty⟩

end JournalSlice

/-- A file opens by its header alone. -/
theorem openFile_header {J : JournalPlatform} {content : Bytes} {reader : JournalReader}
    (h : JournalReader.openFile J content = .ok reader) (stream : Bytes) :
    JournalReader.openFile J (content.take kFileHeaderSize ++ stream) = .ok { reader with stream } := by
  have hlength := (openFile_eq_ok h).1
  have hread : readExact kFileHeaderSize content = some (content.take kFileHeaderSize, content.drop kFileHeaderSize) :=
    if_pos hlength
  rw [JournalReader.openFile, hread] at h
  rw [JournalReader.openFile, readExact_append _ _ (List.length_take_of_le hlength)]
  simp only at h ⊢
  split_ifs at h ⊢
  cases h
  rfl

namespace JournalSlice

/-- A slice of a journal is a journal: its reader gets the same header, the records up to the
cut without the Logons, and a clean end, and no message in it that was built here holds a
credential. With a record before the cut that cannot be read, nothing is returned. -/
theorem slice_is_sub_journal (J : JournalPlatform) (content : Bytes) (maxIncrementals : ℕ) (reader : JournalReader)
    (hopen : JournalReader.openFile J content = .ok reader) :
    ∃ (records : List JournalRecord) (last : JournalReader), reader.Yields J records last ∧
      (∀ slice counts, buildSlice J content maxIncrementals = .ok (slice, counts) →
        ∃ sliceReader final, JournalReader.openFile J slice = .ok sliceReader ∧ sliceReader.header = reader.header ∧
          sliceReader.Yields J (sliced maxIncrementals records) final ∧ final.stoppedEarly = false ∧
          ∀ record ∈ sliced maxIncrementals records, ∀ fields : List Fix.Field, record.payload = Fix.buildMessage fields →
            ∀ one ∈ fields, one.tag ≠ Fix.Tag.kRawData ∧ one.tag ≠ Fix.Tag.kPassword ∧
              one ≠ ⟨Fix.Tag.kMsgType, Fix.MsgType.kLogon⟩) ∧
      (records.countP isIncremental < maxIncrementals → last.stoppedEarly = true →
        ∃ reason, buildSlice J content maxIncrementals = .error reason) := by
  obtain ⟨-, hstream, -, hfinished, hreason⟩ := openFile_eq_ok hopen
  obtain ⟨texts, rest, reason, hsplit, herror, hclean⟩ := exists_recordTexts J (content.drop kFileHeaderSize)
  have hrounds : texts.length < (content.drop kFileHeaderSize).length + 1 := by
    have hle := RecordText.length_le_render texts
    rw [hsplit, List.length_append]
    omega
  -- a slice that is returned is made of the texts up to the cut
  have hbuilt {slice : Bytes} {counts : Counts} (h : buildSlice J content maxIncrementals = .ok (slice, counts)) :
      slice = content.take kFileHeaderSize ++ RecordText.render (slicedTexts maxIncrementals texts) ∧
        (texts.countP (fun text => isIncremental text.record) < maxIncrementals → rest = []) := by
    obtain ⟨⟨counts', hloop⟩, -⟩ := buildSlice_eq_ok h
    rw [hsplit] at hloop hrounds
    exact sliceRounds_texts herror hrounds hloop
  refine ⟨texts.map RecordText.record, _, JournalReader.yields_texts hfinished (hstream.trans hsplit) herror,
    fun slice counts h => ?_, fun hfew hearly => ?_⟩
  · obtain ⟨hslice, -⟩ := hbuilt h
    obtain ⟨-, hlogon, hraw, hpassword⟩ := buildSlice_eq_ok h
    set sliceReader : JournalReader := { reader with stream := RecordText.render (slicedTexts maxIncrementals texts) }
    have hyields := @JournalReader.yields_texts J sliceReader hfinished (slicedTexts maxIncrementals texts) [] none
      (List.append_nil _).symm ((decodeRecord_eq_none_iff J).2 rfl)
    rw [map_slicedTexts] at hyields
    refine ⟨sliceReader, _, by rw [hslice]; exact openFile_header hopen _, rfl, hyields, ?_,
      fun record hrecord fields hfields => ?_⟩
    · rw [JournalReader.stoppedEarly, JournalReader.ended, hreason]
      rfl
    · rw [← map_slicedTexts] at hrecord
      obtain ⟨text, htext, rfl⟩ := List.mem_map.1 hrecord
      have hinfix : text.payload <:+: slice := by
        rw [hslice]
        exact (RecordText.payload_infix_render htext).trans (List.suffix_append _ _).isInfix
      have hpayload : text.payload = Fix.buildMessage fields := hfields
      rw [hpayload] at hinfix
      exact clean_of_buildMessage (fun h => hlogon (h.trans hinfix)) (fun h => hraw (h.trans hinfix))
        fun h => hpassword (h.trans hinfix)
  · cases h : buildSlice J content maxIncrementals with
    | error reason => exact ⟨reason, rfl⟩
    | ok built =>
      obtain ⟨slice, counts⟩ := built
      rw [List.countP_map] at hfew
      have hempty := (hbuilt h).2 hfew
      rw [JournalReader.stoppedEarly, JournalReader.ended, hreason, hclean.2 hempty] at hearly
      cases hearly

/-- A capture with a Logon, a snapshot and two incrementals. -/
def captured : JournalFile where
  path := []
  header := ⟨kFormatVersion, 3, 4, ascii "deribit", 7⟩
  records := [⟨.connect, 1, 10, []⟩, ⟨.wireMessage, 2, 11, ascii "\x0135=A\x0196=n\x01"⟩,
    ⟨.wireMessage, 3, 12, ascii "\x0135=W\x01"⟩, ⟨.wireMessage, 4, 13, ascii "\x0135=X\x01"⟩,
    ⟨.wireMessage, 5, 14, ascii "\x0135=X\x01"⟩]

theorem captured_slice_is_sub_journal :
    ∃ slice counts sliceReader final, buildSlice zlibJournal (captured.content zlibJournal) 1 = .ok (slice, counts) ∧
      JournalReader.openFile zlibJournal slice = .ok sliceReader ∧ sliceReader.header = captured.header.onDisk ∧
      (∃ records, sliceReader.Yields zlibJournal (sliced 1 records) final) ∧ final.stoppedEarly = false := by
  have hopen := openFile_encodeHeader zlibJournal captured.header (captured.records.flatMap (encodeRecord zlibJournal))
    ⟨by decide, by decide⟩
  obtain ⟨records, last, -, hslice, -⟩ := slice_is_sub_journal zlibJournal (captured.content zlibJournal) 1 _ hopen
  have hbuilt : (buildSlice zlibJournal (captured.content zlibJournal) 1).toOption.isSome = true := by decide +kernel
  cases h : buildSlice zlibJournal (captured.content zlibJournal) 1 with
  | error reason =>
    rw [h] at hbuilt
    cases hbuilt
  | ok built =>
    obtain ⟨sliceReader, final, hsliceOpen, hheader, hyields, hclean, -⟩ := hslice built.1 built.2 h
    exact ⟨built.1, built.2, sliceReader, final, rfl, hsliceOpen, hheader, ⟨records, hyields⟩, hclean⟩

end JournalSlice

end CryptoTrader
