import CryptoTrader.Proofs.FixGrammar
import CryptoTrader.Proofs.FramerChunks
import CryptoTrader.Spec.FixBuild

/-! A message that is built is a message of the grammar, so it is framed and parsed back:
the framer finds it by its BodyLength, the parser by its fields. -/

namespace CryptoTrader.Fix

/-- What may be built into a message: a MsgType, then fields of other tags, no value with
an SOH in it, and a body the framer is ready to take. -/
structure Buildable (maxBodyLength : ℕ) (fields : List Field) : Prop where
  msgType : ∃ value rest, fields = ⟨Tag.kMsgType, value⟩ :: rest ∧ value ≠ [] ∧ ∀ one ∈ rest, one.tag ≠ Tag.kMsgType
  tag_lt : ∀ one ∈ fields, one.tag < 2 ^ 31
  tag_ne : ∀ one ∈ fields, one.tag ≠ Tag.kCheckSum
  value_soh : ∀ one ∈ fields, kSoh ∉ one.value
  body_le : (fields.flatMap Field.bytes).length ≤ maxBodyLength
  body_digits : (fields.flatMap Field.bytes).length ≤ 9999999999

/-- The part of it the parser needs. -/
structure Wrappable (fields : List Field) : Prop where
  msgType : ∃ value rest, fields = ⟨Tag.kMsgType, value⟩ :: rest ∧ value ≠ [] ∧ ∀ one ∈ rest, one.tag ≠ Tag.kMsgType
  tag_lt : ∀ one ∈ fields, one.tag < 2 ^ 31
  tag_ne : ∀ one ∈ fields, one.tag ≠ Tag.kCheckSum
  value_soh : ∀ one ∈ fields, kSoh ∉ one.value

theorem Buildable.wrappable {maxBodyLength : ℕ} {fields : List Field} (h : Buildable maxBodyLength fields) :
    Wrappable fields :=
  ⟨h.msgType, h.tag_lt, h.tag_ne, h.value_soh⟩

section Text

/-- A field as its builder writes it. -/
theorem exists_text (one : Field) (htag : one.tag < 2 ^ 31) (hvalue : kSoh ∉ one.value) :
    ∃ text : FieldText, text.view = one ∧ text.bytes = Field.bytes one := by
  obtain ⟨hne, hdigits, hnumber⟩ := natText_isDecimal one.tag
  refine ⟨⟨natText one.tag, one.value, hne, hdigits, hnumber.symm ▸ htag, hvalue⟩, ?_, ?_⟩
  · exact congrArg (FieldView.mk · one.value) hnumber
  · rw [Field.bytes, List.append_assoc, List.append_assoc]
    rfl

theorem exists_texts {fields : List Field} (htag : ∀ one ∈ fields, one.tag < 2 ^ 31)
    (hvalue : ∀ one ∈ fields, kSoh ∉ one.value) :
    ∃ texts : List FieldText, texts.map FieldText.view = fields ∧ render texts = fields.flatMap Field.bytes := by
  induction fields with
  | nil => exact ⟨[], rfl, rfl⟩
  | cons one fields ih =>
    obtain ⟨text, hview, hbytes⟩ := exists_text one (htag one List.mem_cons_self) (hvalue one List.mem_cons_self)
    obtain ⟨texts, hviews, hrest⟩ := ih (fun other h => htag other (List.mem_cons_of_mem _ h))
      fun other h => hvalue other (List.mem_cons_of_mem _ h)
    refine ⟨text :: texts, ?_, ?_⟩
    · rw [List.map_cons, hview, hviews]
    · rw [render, List.flatMap_cons, hbytes, List.flatMap_cons, ← hrest, render]

theorem IsDecimal.soh_not_mem {text : Bytes} {number : ℕ} (h : IsDecimal text number) : kSoh ∉ text := fun hmem =>
  absurd (h.isDigit _ hmem) (by decide)

theorem checkSum_bytes (digits : Bytes) : Field.bytes ⟨Tag.kCheckSum, digits⟩ = checksumField digits := by
  have htag : natText Tag.kCheckSum ++ [kEquals] = ascii "10=" := by decide
  rw [Field.bytes, htag, checksumField]

end Text

section Length

variable (fields : List Field)

/-- The digits of the BodyLength of some fields. -/
def lengthDigits : Bytes := natText (fields.flatMap Field.bytes).length

theorem buildUnchecked_eq :
    buildUnchecked fields =
      beginStringPrefix ++ (ascii "9=" ++ (lengthDigits fields ++ kSoh :: fields.flatMap Field.bytes)) := by
  simp only [buildUnchecked, lengthDigits, List.append_assoc, List.singleton_append]

theorem checksumField_length {digits : Bytes} (h : digits.length = 3) :
    (checksumField digits).length = kCheckSumFieldSize := by
  rw [checksumField, List.length_append, List.length_append, h]
  rfl

theorem buildUnchecked_length :
    (buildUnchecked fields).length = digitsStart + (lengthDigits fields).length + 1 + (fields.flatMap Field.bytes).length := by
  rw [buildUnchecked_eq, List.length_append, List.length_append, List.length_append, List.length_cons]
  have hstart : digitsStart = beginStringPrefix.length + (ascii "9=").length := rfl
  omega

theorem buildMessage_length :
    (buildMessage fields).length = (buildUnchecked fields).length + kCheckSumFieldSize := by
  rw [buildMessage, List.length_append, checksumField_length rfl]

end Length

/-- The fields a built message is parsed into. -/
def Buildable.wrapped (fields : List Field) : List Field :=
  ⟨Tag.kBeginString, kBeginString⟩ :: ⟨Tag.kBodyLength, natText (fields.flatMap Field.bytes).length⟩ :: fields ++
    [⟨Tag.kCheckSum, formatChecksum (buildUnchecked fields)⟩]

namespace Wrappable

variable {fields : List Field}

/-- The envelope and the body, field by field. -/
theorem render_built {beginString bodyLength : FieldText} {texts : List FieldText}
    (hbegin : beginString.bytes = Field.bytes ⟨Tag.kBeginString, kBeginString⟩)
    (hlength : bodyLength.bytes = Field.bytes ⟨Tag.kBodyLength, natText (fields.flatMap Field.bytes).length⟩)
    (htexts : render texts = fields.flatMap Field.bytes) :
    render (beginString :: bodyLength :: texts) = buildUnchecked fields := by
  rw [render_envelope, htexts, hbegin, hlength, buildUnchecked]
  simp only [Field.bytes, beginStringPrefix, List.append_assoc]
  rfl

/-- The MsgType is the only one if no field after it is. -/
theorem filter_msgType {msgType : FieldText} {body : List FieldText} (htype : msgType.tag = Tag.kMsgType)
    (hbody : ∀ text ∈ body, text.tag ≠ Tag.kMsgType) :
    (msgType :: body).filter (·.tag = Tag.kMsgType) = [msgType] := by
  have hnone : body.filter (·.tag = Tag.kMsgType) = [] :=
    List.filter_eq_nil_iff.2 fun text htext heq => hbody text htext (of_decide_eq_true heq)
  rw [List.filter_cons_of_pos (by simpa using htype), hnone]

/-- A built message is a message of the grammar. -/
theorem exists_message (h : Wrappable fields) :
    ∃ message : MessageText, message.bytes = buildMessage fields ∧ message.fields = Buildable.wrapped fields ∧
      some message.lastMsgType = fields.head?.map (·.value) := by
  obtain ⟨value, rest, hfields, hvalue, hrest⟩ := h.msgType
  have hlength := natText_isDecimal (fields.flatMap Field.bytes).length
  obtain ⟨hthree, hsum⟩ := eq_formatChecksum_iff.1 (Eq.refl (formatChecksum (buildUnchecked fields)))
  obtain ⟨beginString, hbeginView, hbeginBytes⟩ :=
    exists_text ⟨Tag.kBeginString, kBeginString⟩ (by decide) (by decide)
  obtain ⟨bodyLength, hlengthView, hlengthBytes⟩ :=
    exists_text ⟨Tag.kBodyLength, natText (fields.flatMap Field.bytes).length⟩ (show Tag.kBodyLength < _ by decide)
      hlength.soh_not_mem
  obtain ⟨checkSum, hcheckView, hcheckBytes⟩ :=
    exists_text ⟨Tag.kCheckSum, formatChecksum (buildUnchecked fields)⟩ (show Tag.kCheckSum < _ by decide)
      hsum.soh_not_mem
  obtain ⟨texts, hviews, hbytes⟩ := exists_texts h.tag_lt h.value_soh
  obtain ⟨msgType, body, rfl, htypeView, hbodyViews⟩ := List.map_eq_cons_iff.1 (hviews.trans hfields)
  have hcovered := render_built hbeginBytes hlengthBytes hbytes
  have hlast : (msgType :: body).filter (·.tag = Tag.kMsgType) = [msgType] :=
    filter_msgType (congrArg FieldView.tag htypeView) fun text htext =>
      hrest text.view (hbodyViews ▸ List.mem_map_of_mem htext)
  let message : MessageText := {
    beginString, bodyLength, msgType, body, checkSum
    beginString_view := hbeginView
    bodyLength_tag := congrArg FieldView.tag hlengthView
    bodyLength_value := by
      rw [show bodyLength.value = _ from congrArg FieldView.value hlengthView, hbytes]
      exact hlength
    msgType_tag := congrArg FieldView.tag htypeView
    body_tag := fun text htext => h.tag_ne text.view (hviews ▸ List.mem_map_of_mem htext)
    last_msgType := by
      rw [hlast]
      rintro text ⟨⟩
      exact (congrArg FieldView.value htypeView).trans_ne hvalue
    checkSum_tag := congrArg FieldView.tag hcheckView
    checkSum_length := by
      rw [show checkSum.value = _ from congrArg FieldView.value hcheckView]
      exact hthree
    checkSum_value := by
      rw [show checkSum.value = _ from congrArg FieldView.value hcheckView, hcovered]
      exact hsum }
  refine ⟨message, ?_, ?_, ?_⟩
  · rw [MessageText.bytes_eq_covered, MessageText.covered, hcovered, hcheckBytes, checkSum_bytes, buildMessage]
  · change (beginString :: bodyLength :: (msgType :: body) ++ [checkSum]).map FieldText.view = _
    rw [List.map_append, List.map_cons, List.map_cons, hviews, hbeginView, hlengthView, List.map_singleton, hcheckView]
    rfl
  · rw [MessageText.lastMsgType, hlast, hfields]
    exact congrArg (some ∘ FieldView.value) htypeView

/-- What the parser makes of a built message. -/
theorem parse_build (h : Wrappable fields) (hsize : (buildMessage fields).length < 2 ^ 64) :
    ∃ parsed, parseMessage (buildMessage fields) = .ok parsed ∧ parsed.bodyFields = fields ∧
      parsed.fields = Buildable.wrapped fields ∧ some parsed.msgType = fields.head?.map (·.value) := by
  obtain ⟨message, hbytes, hfields, htype⟩ := h.exists_message
  refine ⟨_, hbytes ▸ message.parseMessage_bytes (hbytes ▸ hsize), ?_, hfields, htype⟩
  have hcount : (Buildable.wrapped fields).length = fields.length + 3 := by simp [Buildable.wrapped]
  have hsome : fields ≠ [] := by
    obtain ⟨value, rest, rfl, -⟩ := h.msgType
    exact List.cons_ne_nil _ _
  rw [ParsedMessage.bodyFields, hfields, hcount, if_neg (by simpa using hsome)]
  exact List.take_left

end Wrappable

namespace Buildable

variable {maxBodyLength : ℕ} {fields : List Field}

theorem lengthDigits_le (h : Buildable maxBodyLength fields) : (lengthDigits fields).length ≤ kMaxBodyLengthDigits :=
  natText_length_le (by decide) (Nat.lt_of_le_of_lt h.body_digits (by decide))

theorem length_lt (h : Buildable maxBodyLength fields) : (buildMessage fields).length < 2 ^ 64 := by
  have hdigits := h.lengthDigits_le
  have hbody := h.body_digits
  have hsizes : digitsStart = 12 ∧ kCheckSumFieldSize = 7 ∧ kMaxBodyLengthDigits = 10 := by decide
  rw [buildMessage_length, buildUnchecked_length]
  omega

end Buildable

section Frame

variable {maxBodyLength : ℕ}

theorem le_foldl_digits (text : Bytes) (n : ℕ) : n ≤ text.foldl (fun n byte => n * 10 + digitValue byte) n := by
  induction text generalizing n with
  | nil => exact Nat.le_refl n
  | cons byte text ih => exact Nat.le_trans (by omega) (ih (n * 10 + digitValue byte))

/-- The framer reads a BodyLength digit by digit. -/
theorem scanBodyLength_digits {digits bodyLength : ℕ} {text : Bytes} (hdigits : ∀ byte ∈ text, isDigit byte = true)
    (hcount : digits + text.length ≤ kMaxBodyLengthDigits)
    (hmax : text.foldl (fun n byte => n * 10 + digitValue byte) bodyLength ≤ maxBodyLength) (rest : Bytes) :
    scanBodyLength maxBodyLength digits bodyLength (text ++ kSoh :: rest) =
      .done (digits + text.length) (text.foldl (fun n byte => n * 10 + digitValue byte) bodyLength) := by
  induction text generalizing digits bodyLength with
  | nil => simp [scanBodyLength]
  | cons byte text ih =>
    have hbyte := hdigits byte List.mem_cons_self
    have hsoh : byte ≠ kSoh := by
      rintro rfl
      exact absurd hbyte (by decide)
    rw [List.length_cons] at hcount
    rw [List.foldl_cons] at hmax ⊢
    rw [List.cons_append, scanBodyLength, if_neg hsoh, if_neg (by simp [hbyte]; omega),
      if_neg (Nat.not_lt.2 ((le_foldl_digits text _).trans hmax)),
      ih (fun other h => hdigits other (List.mem_cons_of_mem _ h)) (by omega) hmax, List.length_cons]
    congr 1
    omega

variable {fields : List Field}

/-- The CheckSum field stands where the BodyLength says. -/
theorem checkTrailer_build (fields : List Field) (rest : Bytes) :
    checkTrailer (buildMessage fields ++ rest) (lengthDigits fields).length (fields.flatMap Field.bytes).length =
      .item (buildMessage fields).length := by
  have hnonzero : (lengthDigits fields).length ≠ 0 := fun h =>
    (natText_isDecimal _).ne_nil (List.eq_nil_of_length_eq_zero h)
  have htotal := buildMessage_length fields
  have hview : buildMessage fields ++ rest =
      buildUnchecked fields ++ (checksumField (formatChecksum (buildUnchecked fields)) ++ rest) := by
    rw [buildMessage, List.append_assoc]
  have htag : ((buildMessage fields ++ rest).drop (buildUnchecked fields).length).take 3 = ascii "10=" := by
    rw [hview, List.drop_left, checksumField, List.append_assoc, List.append_assoc]
    exact List.take_left' rfl
  have hlast : (buildMessage fields ++ rest)[(buildMessage fields).length - 1]? = some kSoh := by
    rw [List.getElem?_append_left (by rw [htotal]; have : kCheckSumFieldSize = 7 := rfl; omega)]
    rw [← List.getLast?_eq_getElem?, buildMessage, checksumField, ← List.append_assoc, List.getLast?_concat]
  rw [checkTrailer, if_neg hnonzero]
  simp only [← buildUnchecked_length, ← htotal]
  rw [if_neg (by rw [List.length_append]; omega), if_neg (by simp [htag, hlast])]

/-- The framer cuts a built message off the front of the stream. -/
theorem frameHead_build (h : Buildable maxBodyLength fields) (rest : Bytes) :
    frameHead maxBodyLength (buildMessage fields ++ rest) = .item (buildMessage fields).length := by
  have hview : buildMessage fields ++ rest = beginStringPrefix ++ (ascii "9=" ++ (lengthDigits fields ++ kSoh ::
      (fields.flatMap Field.bytes ++ (checksumField (formatChecksum (buildUnchecked fields)) ++ rest)))) := by
    rw [buildMessage, buildUnchecked_eq]
    simp only [List.append_assoc, List.cons_append]
  have hlength : digitsStart ≤ (buildMessage fields ++ rest).length := by
    rw [List.length_append, buildMessage_length, buildUnchecked_length]
    omega
  have hstart : beginStringPrefix.length ≤ digitsStart := by decide
  obtain ⟨-, hdigits, hvalue⟩ : IsDecimal (lengthDigits fields) _ := natText_isDecimal (fields.flatMap Field.bytes).length
  have hscan : scanBodyLength maxBodyLength 0 0 ((buildMessage fields ++ rest).drop digitsStart) =
      .done (lengthDigits fields).length (fields.flatMap Field.bytes).length := by
    have hdrop : (buildMessage fields ++ rest).drop digitsStart = lengthDigits fields ++ kSoh ::
        (fields.flatMap Field.bytes ++ (checksumField (formatChecksum (buildUnchecked fields)) ++ rest)) := by
      rw [hview, ← List.append_assoc]
      exact List.drop_left' rfl
    rw [hdrop, scanBodyLength_digits hdigits (by rw [Nat.zero_add]; exact h.lengthDigits_le)
      (hvalue.trans_le h.body_le)]
    exact congrArg₂ LengthScan.done (Nat.zero_add _) hvalue
  have htag : ((buildMessage fields ++ rest).drop beginStringPrefix.length).take 2 = ascii "9=" := by
    rw [hview, List.drop_left]
    exact List.take_left' rfl
  rw [frameHead, if_neg (by
    intro hnil
    rw [hnil] at hlength
    exact absurd hlength (by decide))]
  simp only [Nat.min_eq_right (hstart.trans hlength), List.take_length]
  rw [if_neg (by rw [hview, List.take_left]; simp), if_neg (Nat.not_lt.2 hlength),
    if_neg (not_not.2 htag), hscan]
  exact checkTrailer_build fields rest

/-- What the framer has returned of a stream of built messages is the first of them, and
the rest of the stream is the others. -/
theorem decodes_built {messages : List (List Field)} (hmessages : ∀ fields ∈ messages, Buildable maxBodyLength fields)
    {returned : List Bytes} {rest : Bytes}
    (h : (framing maxBodyLength).Decodes (messages.flatMap buildMessage) returned rest) :
    ∃ count, returned = (messages.take count).map buildMessage ∧ rest = (messages.drop count).flatMap buildMessage := by
  induction messages generalizing returned with
  | nil =>
    generalize hstream : ([] : List (List Field)).flatMap buildMessage = stream at h
    cases h with
    | nil => exact ⟨0, rfl, hstream.symm⟩
    | cons head _ =>
      rw [← hstream] at head
      cases head
  | cons fields messages ih =>
    generalize hstream : (fields :: messages).flatMap buildMessage = stream at h
    cases h with
    | nil => exact ⟨0, rfl, hstream.symm⟩
    | cons head tail =>
      rw [List.flatMap_cons] at hstream
      have hhead := frameHead_build (hmessages fields List.mem_cons_self) (messages.flatMap buildMessage)
      rw [hstream] at hhead
      obtain rfl := DecodeStep.item.inj (head.symm.trans hhead)
      rw [← hstream, List.drop_left] at tail
      obtain ⟨count, hreturned, hrest⟩ := ih (fun other h => hmessages other (List.mem_cons_of_mem _ h)) tail
      refine ⟨count + 1, ?_, hrest⟩
      rw [← hstream, List.take_left, hreturned, List.take_succ_cons, List.map_cons]

/-- The framer on the rest of a stream of built messages: it waits only at the end. -/
theorem frameHead_built {messages : List (List Field)}
    (hmessages : ∀ fields ∈ messages, Buildable maxBodyLength fields) :
    messages = [] ∨ ∃ n, frameHead maxBodyLength (messages.flatMap buildMessage) = .item n := by
  cases messages with
  | nil => exact Or.inl rfl
  | cons fields messages =>
    exact Or.inr ⟨_, frameHead_build (hmessages fields List.mem_cons_self) (messages.flatMap buildMessage)⟩

end Frame

/-- Messages that are built, put on a stream and fed to a framer in any pieces come back
one by one. While they do, the framer is Good; once it has nothing more to return it has
returned them all and holds no byte. Each is parsed back into its fields. -/
theorem built_messages_round_trip (maxBodyLength : ℕ) (messages : List (List Field))
    (hmessages : ∀ fields ∈ messages, Buildable maxBodyLength fields) :
    (∀ calls, appended calls = messages.flatMap buildMessage →
      ((Framer.init maxBodyLength).run calls).1.good = true ∧
      ((Framer.init maxBodyLength).run calls).2 <+: messages.map buildMessage ∧
      (Drained maxBodyLength calls → ((Framer.init maxBodyLength).run calls).2 = messages.map buildMessage ∧
        ((Framer.init maxBodyLength).run calls).1.bufferedBytes = 0) ∧
      ∃ n, Drained maxBodyLength (calls ++ List.replicate (n + 1) .nextMessage)) ∧
    ∀ fields ∈ messages, ∃ parsed, parseMessage (buildMessage fields) = .ok parsed ∧ parsed.bodyFields = fields ∧
      parsed.fields = Buildable.wrapped fields ∧ some parsed.msgType = fields.head?.map (·.value) := by
  refine ⟨fun calls hcalls => ?_, fun fields hfields =>
    (hmessages fields hfields).wrappable.parse_build (hmessages fields hfields).length_lt⟩
  have htracks := Tracks.run_init maxBodyLength calls
  rw [hcalls] at htracks
  obtain ⟨count, hreturned, hrest⟩ := decodes_built hmessages htracks.decodes
  have hleft : ∀ fields ∈ messages.drop count, Buildable maxBodyLength fields := fun fields h =>
    hmessages fields (List.mem_of_mem_drop h)
  refine ⟨?_, ?_, fun hdrained => ?_, framer_drains maxBodyLength calls⟩
  · -- an error would be one the rest of the stream gives
    rcases htracks.error with hgood | herror
    · exact decide_eq_true hgood
    · rw [hrest] at herror
      rcases frameHead_built hleft with hnil | ⟨n, hitem⟩
      · rw [hnil] at herror
        cases herror
      · rw [hitem] at herror
        cases herror
  · rw [hreturned]
    exact (List.take_prefix count messages).map _
  · rcases frameHead_built hleft with hnil | ⟨n, hitem⟩
    · have hall := List.take_append_drop count messages
      rw [hnil, List.append_nil] at hall
      rw [hnil] at hrest
      refine ⟨by rw [hreturned, hall], ?_⟩
      have hlength := congrArg List.length hrest
      rw [Framer.view, List.length_drop] at hlength
      exact hlength
    · exact absurd (hrest ▸ hitem) (hdrained.settled.not_item n)

/-- A TestRequest whose text looks like a CheckSum field, and a Logout. -/
def twoMessages : List (List Field) :=
  [[⟨Tag.kMsgType, ascii "1"⟩, ⟨Tag.kTestReqId, ascii "10=000="⟩], [⟨Tag.kMsgType, ascii "5"⟩]]

theorem two_messages_round_trip :
    (∀ calls, appended calls = twoMessages.flatMap buildMessage → Drained 100 calls →
      ((Framer.init 100).run calls).2 = twoMessages.map buildMessage) ∧
    ∀ fields ∈ twoMessages, ∃ parsed, parseMessage (buildMessage fields) = .ok parsed ∧ parsed.bodyFields = fields := by
  have hmessages : ∀ fields ∈ twoMessages, Buildable 100 fields := by
    intro fields hfields
    simp only [twoMessages, List.mem_cons, List.not_mem_nil, or_false] at hfields
    rcases hfields with rfl | rfl
    · exact ⟨⟨_, _, rfl, by decide, by decide⟩, by decide, by decide, by decide, by decide, by decide⟩
    · exact ⟨⟨_, _, rfl, by decide, by decide⟩, by decide, by decide, by decide, by decide, by decide⟩
  obtain ⟨hframed, hparsed⟩ := built_messages_round_trip 100 twoMessages hmessages
  refine ⟨fun calls hcalls hdrained => ((hframed calls hcalls).2.2.1 hdrained).1, fun fields hfields => ?_⟩
  obtain ⟨parsed, hparse, hfields, -⟩ := hparsed fields hfields
  exact ⟨parsed, hparse, hfields⟩

end CryptoTrader.Fix
