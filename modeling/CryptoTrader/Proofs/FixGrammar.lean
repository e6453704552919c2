import CryptoTrader.Sanity.FixMessage

/-! The parser accepts exactly the messages of the grammar, and returns their fields. -/

namespace CryptoTrader.Fix

variable {raw : Bytes}

theorem toSize_eq_some_iff {value : Bytes} {number : ℕ} :
    toSize value = some number ↔ IsDecimal value number ∧ number < 2 ^ 64 := by
  rw [toSize]
  constructor
  · intro h
    split_ifs at h with hdecimal
    cases h
    exact ⟨⟨hdecimal.1, List.all_eq_true.1 hdecimal.2.1, rfl⟩, hdecimal.2.2⟩
  · rintro ⟨⟨hne, hdigits, rfl⟩, hlt⟩
    exact if_pos ⟨hne, List.all_eq_true.2 hdigits, hlt⟩

/-- The locals of the parser when the loop over the body starts. -/
def envelopeScan (first second : ScannedField) : BodyScan :=
  ⟨⟨[⟨first.tag, first.value⟩, ⟨second.tag, second.value⟩], []⟩, second.next, 0, []⟩

/-- The steps of a parse that succeeds. -/
theorem parseMessage_eq_ok_iff {message : ParsedMessage} :
    parseMessage raw = .ok message ↔ ∃ first second declared scan, scanField raw 0 = .ok first ∧
      first.tag = Tag.kBeginString ∧ first.value = kBeginString ∧ scanField raw first.next = .ok second ∧
      second.tag = Tag.kBodyLength ∧ toSize second.value = some declared ∧
      scanBody raw raw.length (envelopeScan first second) = .ok scan ∧
      checkBody raw second.next declared scan = .ok message := by
  constructor
  · intro h
    rw [parseMessage] at h
    cases hfirst : scanField raw 0 with
    | error reason =>
      rw [hfirst] at h
      cases h
    | ok first =>
      simp only [hfirst, bind, Except.bind] at h
      split_ifs at h with htag hvalue
      cases hsecond : scanField raw first.next with
      | error reason =>
        rw [hsecond] at h
        cases h
      | ok second =>
        simp only [hsecond] at h
        split_ifs at h with hlength
        cases hdeclared : toSize second.value with
        | none =>
          rw [hdeclared] at h
          cases h
        | some declared =>
          simp only [hdeclared] at h
          cases hscan : scanBody raw raw.length (envelopeScan first second) with
          | error reason =>
            rw [envelopeScan] at hscan
            rw [hscan] at h
            cases h
          | ok scan =>
            rw [envelopeScan] at hscan
            rw [hscan] at h
            exact ⟨first, second, declared, scan, rfl, not_not.1 htag, not_not.1 hvalue, hsecond, not_not.1 hlength,
              hdeclared, hscan, h⟩
  · rintro ⟨first, second, declared, scan, hfirst, htag, hvalue, hsecond, hlength, hdeclared, hscan, hcheck⟩
    rw [envelopeScan] at hscan
    rw [parseMessage]
    simp only [hfirst, bind, Except.bind, if_neg (not_not.2 htag), if_neg (not_not.2 hvalue), hsecond,
      if_neg (not_not.2 hlength), hdeclared, hscan, hcheck]

/-- Where the body starts. -/
def bodyStart (beginString bodyLength : FieldText) : ℕ := 0 + beginString.bytes.length + bodyLength.bytes.length

/-- The scan when the loop over the body starts. -/
def envelope (beginString bodyLength : FieldText) : BodyScan :=
  ⟨⟨[beginString.view, bodyLength.view], []⟩, bodyStart beginString bodyLength, 0, []⟩

theorem render_envelope (beginString bodyLength : FieldText) (texts : List FieldText) :
    render (beginString :: bodyLength :: texts) = beginString.bytes ++ (bodyLength.bytes ++ render texts) := rfl

namespace MessageText

variable (message : MessageText)

/-- The value of the last MsgType. -/
def lastMsgType : Bytes :=
  (((message.msgType :: message.body).filter (·.tag = Tag.kMsgType)).getLast?.map (·.value)).getD []

theorem lastMsgType_ne_nil : message.lastMsgType ≠ [] := by
  have hfilter : (message.msgType :: message.body).filter (·.tag = Tag.kMsgType) ≠ [] := by
    rw [List.filter_cons_of_pos (by simpa using message.msgType_tag)]
    exact List.cons_ne_nil _ _
  have hlast := List.getLast?_eq_some_getLast hfilter
  rw [lastMsgType, hlast]
  exact message.last_msgType _ hlast

/-- The fields the checksum covers. -/
def covered : Bytes := render (message.beginString :: message.bodyLength :: message.msgType :: message.body)

theorem bytes_eq_covered : message.bytes = message.covered ++ message.checkSum.bytes := by
  rw [bytes, texts, render, List.flatMap_append, List.flatMap_singleton]
  rfl

theorem bytes_eq :
    message.bytes = message.beginString.bytes ++ (message.bodyLength.bytes ++
      (render (message.msgType :: message.body) ++ (message.checkSum.bytes ++ []))) := by
  rw [bytes_eq_covered, covered, render_envelope, List.append_nil, List.append_assoc, List.append_assoc]

theorem length_le_render (texts : List FieldText) : texts.length ≤ (render texts).length := by
  induction texts with
  | nil => exact Nat.le_refl _
  | cons text texts ih =>
    rw [render, List.flatMap_cons, List.length_append, List.length_cons, FieldText.bytes_length]
    rw [render] at ih
    omega

theorem covered_length :
    message.covered.length =
      bodyStart message.beginString message.bodyLength + (render (message.msgType :: message.body)).length := by
  rw [covered, render_envelope, List.length_append, List.length_append, bodyStart]
  omega

/-- The checks after the loop hold for a message of the grammar. -/
theorem checkBody_ended :
    checkBody message.bytes (bodyStart message.beginString message.bodyLength) (render (message.msgType :: message.body)).length
      ((envelope message.beginString message.bodyLength).ended (message.msgType :: message.body) message.checkSum) =
        .ok ⟨message.fields, message.lastMsgType⟩ := by
  have hoffset : ((envelope message.beginString message.bodyLength).pushTexts (message.msgType :: message.body)).offset = message.covered.length :=
    (BodyScan.pushTexts_offset ..).trans message.covered_length.symm
  have htype : ((envelope message.beginString message.bodyLength).pushTexts (message.msgType :: message.body)).message.msgType = message.lastMsgType :=
    BodyScan.pushTexts_msgType ..
  have hmessage := (envelope message.beginString message.bodyLength).ended_message (message.msgType :: message.body) message.checkSum_tag
  rw [htype] at hmessage
  refine checkBody_eq_ok_iff.2 ⟨?_, ?_, ?_, ?_, ?_, hmessage⟩
  · change ((envelope message.beginString message.bodyLength).pushTexts (message.msgType :: message.body)).offset ≠ 0
    have hpos := message.beginString.bytes_length
    rw [hoffset, covered_length, bodyStart]
    omega
  · rw [BodyScan.ended_offset, bytes_eq_covered, List.length_append, covered_length]
    rfl
  · rw [hmessage]
    exact message.lastMsgType_ne_nil
  · change _ = ((envelope message.beginString message.bodyLength).pushTexts (message.msgType :: message.body)).offset - _
    rw [hoffset, covered_length, Nat.add_sub_cancel_left]
  · change message.checkSum.value = formatChecksum
      (message.bytes.take ((envelope message.beginString message.bodyLength).pushTexts (message.msgType :: message.body)).offset)
    rw [hoffset, bytes_eq_covered, List.take_left]
    exact eq_formatChecksum_iff.2 ⟨message.checkSum_length, message.checkSum_value⟩

/-- A message of the grammar is parsed into its fields. -/
theorem parseMessage_bytes (hsize : message.bytes.length < 2 ^ 64) :
    parseMessage message.bytes = .ok ⟨message.fields, message.lastMsgType⟩ := by
  have hfirst : message.bytes.drop 0 = _ := message.bytes_eq
  have hsecond := drop_after hfirst
  have hbody := drop_after hsecond
  have htotal : message.bytes.length = message.covered.length + message.checkSum.bytes.length := by
    rw [bytes_eq_covered, List.length_append]
  have hcovered := message.covered_length
  have hfuel : (message.msgType :: message.body).length < message.bytes.length := by
    have hcount := length_le_render (message.msgType :: message.body)
    have hcheck := message.checkSum.bytes_length
    omega
  have hscan : scanBody message.bytes message.bytes.length (envelope message.beginString message.bodyLength) = _ :=
    scanBody_texts hbody message.body_tag message.checkSum_tag (Nat.le_refl 2)
      (fun _ text htext => by cases htext; exact message.msgType_tag) hfuel
  exact parseMessage_eq_ok_iff.2 ⟨_, _, (render (message.msgType :: message.body)).length, _, scanField_bytes hfirst,
    congrArg FieldView.tag message.beginString_view, congrArg FieldView.value message.beginString_view,
    scanField_bytes hsecond, message.bodyLength_tag, toSize_eq_some_iff.2 ⟨message.bodyLength_value, by omega⟩, hscan,
    message.checkBody_ended⟩

end MessageText

/-- The fields of a text the parser accepts. -/
theorem texts_of_parse {parsed : ParsedMessage} (h : parseMessage raw = .ok parsed) :
    ∃ beginString bodyLength body check tail declared,
      raw = FieldText.bytes beginString ++ (FieldText.bytes bodyLength ++ (render body ++ (FieldText.bytes check ++ tail))) ∧
      beginString.view = ⟨Tag.kBeginString, kBeginString⟩ ∧ bodyLength.tag = Tag.kBodyLength ∧
      IsDecimal bodyLength.value declared ∧ (∀ text ∈ body, text.tag ≠ Tag.kCheckSum) ∧ check.tag = Tag.kCheckSum ∧
      (∀ text ∈ body.head?, text.tag = Tag.kMsgType) ∧
      checkBody raw (bodyStart beginString bodyLength) declared ((envelope beginString bodyLength).ended body check) =
        .ok parsed := by
  obtain ⟨first, second, declared, scan, hfirst, hbegin, hversion, hsecond, hlength, hdeclared, hscan, hcheck⟩ :=
    parseMessage_eq_ok_iff.1 h
  obtain ⟨beginString, rest, hdrop, rfl⟩ := scanField_eq_ok hfirst
  obtain ⟨bodyLength, rest', hdrop', rfl⟩ := scanField_eq_ok hsecond
  have hfound := (checkBody_eq_ok_iff.1 hcheck).1
  obtain ⟨body, check, tail, hrest, hbody, htag, hhead, rfl⟩ := texts_of_scanBody hscan rfl hfound
  refine ⟨beginString, bodyLength, body, check, tail, declared, ?_, ?_, hlength, (toSize_eq_some_iff.1 hdeclared).1, hbody,
    htag, hhead rfl, hcheck⟩
  · rw [← (drop_after hdrop').symm.trans hrest, ← (drop_after hdrop).symm.trans hdrop', ← hdrop]
    rfl
  · rw [FieldText.view]
    exact congrArg₂ FieldView.mk hbegin hversion

/-- What the parser accepts is a message of the grammar. -/
theorem messageText_of_parse {parsed : ParsedMessage} (h : parseMessage raw = .ok parsed) :
    ∃ message : MessageText, message.bytes = raw ∧ message.fields = parsed.fields := by
  obtain ⟨beginString, bodyLength, body, check, tail, declared, hraw, hbegin, hlength, hdecimal, hbody, htag, hhead,
    hcheck⟩ := texts_of_parse h
  obtain ⟨-, hend, htype, hdeclared, hsum, rfl⟩ := checkBody_eq_ok_iff.1 hcheck
  rw [BodyScan.ended_message _ _ htag] at htype ⊢
  rw [BodyScan.pushTexts_msgType] at htype
  have hoffset : ((envelope beginString bodyLength).ended body check).checkSumOffset =
      bodyStart beginString bodyLength + (render body).length := BodyScan.pushTexts_offset _ body
  rw [hoffset] at hdeclared hsum
  -- the message ends with its CheckSum
  obtain rfl : tail = [] := by
    have htotal := congrArg List.length hraw
    rw [BodyScan.ended_offset] at hend
    simp only [List.length_append] at htotal
    simp only [envelope, bodyStart] at hend
    refine List.eq_nil_of_length_eq_zero ?_
    omega
  -- a body without fields has no MsgType
  cases body with
  | nil => exact absurd rfl htype
  | cons msgType body =>
    have hcovered : raw.take (bodyStart beginString bodyLength + (render (msgType :: body)).length) =
        render (beginString :: bodyLength :: msgType :: body) := by
      have hsplit : raw = render (beginString :: bodyLength :: msgType :: body) ++ check.bytes := by
        rw [hraw, render_envelope, List.append_nil, List.append_assoc, List.append_assoc]
      rw [hsplit, List.take_left']
      rw [render_envelope, List.length_append, List.length_append, bodyStart]
      omega
    rw [hcovered] at hsum
    rw [Nat.add_sub_cancel_left] at hdeclared
    obtain ⟨hthree, hvalue⟩ := eq_formatChecksum_iff.1 hsum
    refine ⟨⟨beginString, bodyLength, msgType, body, check, hbegin, hlength, hdeclared ▸ hdecimal, hhead msgType rfl, hbody,
      ?_, htag, hthree, hvalue⟩, ?_, rfl⟩
    · intro text htext
      rw [Option.mem_def.1 htext] at htype
      exact htype
    · rw [MessageText.bytes_eq, hraw]

/-- The parser succeeds with some fields exactly on a text that is a message with these
fields, and no text is a message in two ways. -/
theorem parser_accepts_grammar (raw : Bytes) (hsize : raw.length < 2 ^ 64) :
    (∀ fields, (∃ parsed, parseMessage raw = .ok parsed ∧ parsed.fields = fields) ↔
      ∃ message : MessageText, message.bytes = raw ∧ message.fields = fields) ∧
    ∀ message message' : MessageText, message.bytes = raw → message'.bytes = raw → message.fields = message'.fields := by
  refine ⟨fun fields => ⟨?_, ?_⟩, ?_⟩
  · rintro ⟨parsed, hparse, rfl⟩
    exact messageText_of_parse hparse
  · rintro ⟨message, rfl, rfl⟩
    exact ⟨_, message.parseMessage_bytes hsize, rfl⟩
  · rintro message message' rfl hsame
    have hparse := message.parseMessage_bytes hsize
    have hparse' := message'.parseMessage_bytes (hsame ▸ hsize)
    rw [hsame, hparse] at hparse'
    injection hparse' with hparsed
    exact congrArg ParsedMessage.fields hparsed

/-- A Heartbeat with nothing in it. -/
def heartbeatText : Bytes := ascii "8=FIX.4.4\x019=5\x0135=0\x0110=163\x01"

theorem parser_accepts_heartbeat :
    ∃ message : MessageText, message.bytes = heartbeatText ∧
      message.fields = [⟨8, ascii "FIX.4.4"⟩, ⟨9, ascii "5"⟩, ⟨35, ascii "0"⟩, ⟨10, ascii "163"⟩] :=
  ((parser_accepts_grammar heartbeatText (by decide)).1 _).1 ⟨_, by rfl, rfl⟩

end CryptoTrader.Fix
