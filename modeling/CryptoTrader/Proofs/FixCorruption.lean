import CryptoTrader.Proofs.FixRoundTrip

/-! No message of the grammar is one byte away from another. If two of them end their
covered part at the same place, the checksum tells them apart; if not, the byte that ends
the longer one would cut the other's CheckSum field where no field can end. -/

namespace CryptoTrader.Fix

/-- Same length, one byte different. -/
def OneByteChanged (raw raw' : Bytes) : Prop :=
  ∃ front byte byte' back, byte ≠ byte' ∧ raw = front ++ byte :: back ∧ raw' = front ++ byte' :: back

theorem OneByteChanged.symm {raw raw' : Bytes} (h : OneByteChanged raw raw') : OneByteChanged raw' raw := by
  obtain ⟨front, byte, byte', back, hne, hraw, hraw'⟩ := h
  exact ⟨front, byte', byte, back, hne.symm, hraw', hraw⟩

section Lists

/-- Digits of one length that say one number are the same. -/
theorem IsDecimal.eq_of_length {text text' : Bytes} {number : ℕ} (h : IsDecimal text number)
    (h' : IsDecimal text' number) (hlength : text.length = text'.length) : text = text' := by
  have hvalue := h.value.trans h'.value.symm
  have hdigits := h.isDigit
  have hdigits' := h'.isDigit
  clear h h'
  induction text using List.reverseRecOn generalizing text' with
  | nil => exact (List.eq_nil_of_length_eq_zero hlength.symm).symm
  | append_singleton text last ih =>
    obtain ⟨text', last', rfl⟩ : ∃ front byte, text' = front ++ [byte] := by
      refine List.eq_nil_or_concat' text' |>.resolve_left ?_
      rintro rfl
      simp at hlength
    simp only [List.length_append, List.length_singleton, Nat.add_right_cancel_iff] at hlength
    simp only [List.forall_mem_append, List.forall_mem_singleton] at hdigits hdigits'
    simp only [decimalValue, List.foldl_append, List.foldl_cons, List.foldl_nil] at hvalue
    have hlast := digitValue_lt hdigits.2
    have hlast' := digitValue_lt hdigits'.2
    have hfront := ih hlength (by rw [decimalValue, decimalValue]; omega) hdigits.1 hdigits'.1
    have hbyte : last = last' := by
      rw [← digit_digitValue hdigits.2, ← digit_digitValue hdigits'.2]
      congr 2
      omega
    rw [hfront, hbyte]

theorem byteSum_append (bytes rest : Bytes) : byteSum (bytes ++ rest) = byteSum bytes + byteSum rest := by
  rw [byteSum, List.map_append, List.sum_append]
  rfl

/-- The checksum sees one changed byte. -/
theorem byteSum_change {front back : Bytes} {byte byte' : UInt8} (hne : byte ≠ byte') :
    byteSum (front ++ byte :: back) % 256 ≠ byteSum (front ++ byte' :: back) % 256 := by
  have hbyte : byte.toNat ≠ byte'.toNat := fun h => hne (UInt8.toNat_inj.1 h)
  have hlt := byte.toNat_lt
  have hlt' := byte'.toNat_lt
  have hcons : ∀ first : UInt8, byteSum (first :: back) = first.toNat + byteSum back := fun first => List.sum_cons
  rw [byteSum_append, byteSum_append, hcons, hcons]
  omega

/-- Off the changed byte nothing changes. -/
theorem getElem?_change {front back : Bytes} {byte byte' : UInt8} {n : ℕ} (h : n ≠ front.length) :
    (front ++ byte :: back)[n]? = (front ++ byte' :: back)[n]? := by
  rcases Nat.lt_or_gt_of_ne h with hlt | hgt
  · rw [List.getElem?_append_left hlt, List.getElem?_append_left hlt]
  · obtain ⟨k, rfl⟩ := Nat.exists_eq_add_of_lt hgt
    rw [List.getElem?_append_right (by omega), List.getElem?_append_right (by omega),
      show front.length + k + 1 - front.length = k + 1 by omega, List.getElem?_cons_succ, List.getElem?_cons_succ]

section Split

variable {covered check front back : Bytes} {byte : UInt8} (h : covered ++ check = front ++ byte :: back)

include h

/-- The changed byte is in the first part. -/
theorem split_of_lt (hlt : front.length < covered.length) :
    ∃ mid, covered = front ++ byte :: mid ∧ back = mid ++ check := by
  rcases List.append_eq_append_iff.1 h with ⟨more, rfl, -⟩ | ⟨more, rfl, hmore⟩
  · rw [List.length_append] at hlt
    omega
  · cases more with
    | nil => simp at hlt
    | cons first mid =>
      obtain ⟨rfl, hback⟩ := List.cons.inj hmore
      exact ⟨mid, rfl, hback⟩

/-- The changed byte is in the second part. -/
theorem split_of_le (hle : covered.length ≤ front.length) :
    ∃ more, front = covered ++ more ∧ check = more ++ byte :: back := by
  obtain ⟨more, rfl⟩ := List.prefix_of_prefix_length_le ⟨check, h⟩ ⟨byte :: back, rfl⟩ hle
  rw [List.append_assoc] at h
  exact ⟨more, rfl, List.append_cancel_left h⟩

end Split

end Lists

section Fields

/-- A field up to its SOH. -/
theorem FieldText.bytes_eq_concat (text : FieldText) :
    text.bytes = (text.digits ++ kEquals :: text.value) ++ [kSoh] ∧ kSoh ∉ text.digits ++ kEquals :: text.value := by
  refine ⟨by simp [bytes], fun hmem => ?_⟩
  rcases List.mem_append.1 hmem with hdigit | hmem
  · exact absurd (text.digits_isDigit _ hdigit) (by decide)
  · rcases List.mem_cons.1 hmem with heq | hvalue
    · exact absurd heq (by decide)
    · exact text.value_soh hvalue

theorem FieldText.value_of_bytes {text text' : FieldText} (h : text.bytes = text'.bytes) : text.value = text'.value := by
  have hscan : scanField text.bytes 0 = .ok ⟨text.tag, text.value, 0 + text.bytes.length⟩ :=
    scanField_bytes (List.append_nil _).symm
  have hscan' : scanField text.bytes 0 = .ok ⟨text'.tag, text'.value, 0 + text'.bytes.length⟩ :=
    scanField_bytes (h.trans (List.append_nil _).symm)
  exact congrArg ScannedField.value (Except.ok.inj (hscan.symm.trans hscan'))

/-- What follows an SOH in the text of some fields is the text of the later ones. -/
theorem render_after_soh {texts : List FieldText} {front rest : Bytes} (h : render texts = front ++ kSoh :: rest) :
    ∃ later, rest = render later := by
  induction texts generalizing front with
  | nil => simp [render] at h
  | cons text texts ih =>
    obtain ⟨hbytes, hsoh⟩ := text.bytes_eq_concat
    rw [render, List.flatMap_cons, hbytes, List.append_assoc, List.singleton_append] at h
    rcases List.append_eq_append_iff.1 h with ⟨more, rfl, hmore⟩ | ⟨more, hbody, hmore⟩
    · cases more with
      | nil => exact ⟨texts, (List.cons.inj hmore).2.symm⟩
      | cons first more => exact ih (List.cons.inj hmore).2
    · cases more with
      | nil => exact ⟨texts, (List.cons.inj hmore).2⟩
      | cons first more =>
        obtain ⟨rfl, -⟩ := List.cons.inj hmore
        exact absurd (by rw [hbody]; simp) hsoh

theorem equals_mem_render {texts : List FieldText} (h : texts ≠ []) : kEquals ∈ render texts := by
  obtain ⟨text, texts, rfl⟩ := List.exists_cons_of_ne_nil h
  rw [render, List.flatMap_cons, FieldText.bytes]
  simp

theorem render_eq_concat {texts : List FieldText} (h : texts ≠ []) : ∃ front, render texts = front ++ [kSoh] := by
  obtain ⟨texts, text, rfl⟩ := (List.eq_nil_or_concat' texts).resolve_left h
  refine ⟨render texts ++ (text.digits ++ kEquals :: text.value), ?_⟩
  rw [render, List.flatMap_append, List.flatMap_singleton, text.bytes_eq_concat.1, ← List.append_assoc]
  rfl

end Fields

namespace MessageText

variable {message message' : MessageText}

/-- The covered part of a message ends a field. -/
theorem covered_eq_concat (message : MessageText) : ∃ front, message.covered = front ++ [kSoh] :=
  render_eq_concat (List.cons_ne_nil _ _)

theorem checkSum_bytes_length (message : MessageText) :
    message.checkSum.bytes.length = message.checkSum.digits.length + 5 := by
  rw [FieldText.bytes_length, message.checkSum_length]

/-- A text of digits between two SOHs is no field. -/
theorem not_covered_digits (front : Bytes) {digits : Bytes} (hdigits : ∀ byte ∈ digits, isDigit byte = true) :
    message.covered ≠ front ++ kSoh :: (digits ++ [kSoh]) := by
  intro h
  obtain ⟨later, hlater⟩ := render_after_soh h
  have hne : later ≠ [] := by
    rintro rfl
    simp [render] at hlater
  have hmem := equals_mem_render hne
  rw [← hlater, List.mem_append, List.mem_singleton] at hmem
  rcases hmem with hmem | heq
  · exact absurd (hdigits _ hmem) (by decide)
  · exact absurd heq (by decide)

/-- The covered parts of two messages one byte apart are equally long. -/
theorem covered_length_le (h : OneByteChanged message.bytes message'.bytes) :
    message'.covered.length ≤ message.covered.length := by
  by_contra! hlt
  obtain ⟨front, byte, byte', back, hne, hraw, hraw'⟩ := h
  rw [bytes_eq_covered] at hraw hraw'
  obtain ⟨head, hhead⟩ := message.covered_eq_concat
  obtain ⟨head', hhead'⟩ := message'.covered_eq_concat
  have hlength := congrArg List.length hraw
  have hlength' := congrArg List.length hraw'
  have hcheck := message.checkSum_bytes_length
  have hcheck' := message'.checkSum_bytes_length
  have hpositive : 0 < message'.checkSum.digits.length := List.length_pos_iff.2 message'.checkSum.digits_ne_nil
  have hlonger : message'.covered.length = head'.length + 1 := by rw [hhead', List.length_append, List.length_singleton]
  simp only [List.length_append, List.length_cons] at hlength hlength'
  -- the SOH that ends the longer part is the changed byte: the other message has a digit there
  have hsoh : (front ++ byte' :: back)[head'.length]? = some kSoh := by
    rw [← hraw', hhead', List.append_assoc, List.getElem?_append_right (Nat.le_refl _), Nat.sub_self]
    rfl
  have hdigit : (front ++ byte :: back)[head'.length]? ≠ some kSoh := by
    intro hsame
    rw [← hraw, List.getElem?_append_right (by omega), FieldText.bytes, List.getElem?_append_left (by omega)] at hsame
    exact absurd (message.checkSum.digits_isDigit _ (List.mem_of_getElem? hsame)) (by decide)
  have hat : head'.length = front.length := by
    by_contra hoff
    exact hdigit ((getElem?_change hoff).trans hsoh)
  have hfront : head' = front := by
    rw [hhead', List.append_assoc] at hraw'
    exact (List.append_inj hraw' hat).1
  -- so before it stand the shorter part and some digits
  obtain ⟨more, hmore, hbytes⟩ := split_of_le hraw (by omega)
  have hdigits : more <+: message.checkSum.digits := by
    have hsize := congrArg List.length hbytes
    rw [List.length_append, List.length_cons] at hsize
    exact List.prefix_of_prefix_length_le ⟨byte :: back, hbytes.symm⟩ ⟨_, rfl⟩ (by omega)
  refine not_covered_digits head (fun one hone =>
    message.checkSum.digits_isDigit one (hdigits.subset hone)) (?_ : message'.covered = head ++ kSoh :: (more ++ [kSoh]))
  rw [hhead', hfront, hmore, hhead]
  simp

/-- Two messages are not one byte apart. -/
theorem not_oneByteChanged (h : OneByteChanged message.bytes message'.bytes) : False := by
  have hlength : message.covered.length = message'.covered.length :=
    Nat.le_antisymm (covered_length_le h.symm) (covered_length_le h)
  obtain ⟨front, byte, byte', back, hne, hraw, hraw'⟩ := h
  rw [bytes_eq_covered] at hraw hraw'
  have hsum : IsDecimal message.checkSum.value (byteSum message.covered % 256) := message.checkSum_value
  have hsum' : IsDecimal message'.checkSum.value (byteSum message'.covered % 256) := message'.checkSum_value
  rcases Nat.lt_or_ge front.length message.covered.length with hin | hout
  · -- the sums differ and the CheckSum fields do not
    obtain ⟨mid, hcovered, hback⟩ := split_of_lt hraw hin
    obtain ⟨mid', hcovered', hback'⟩ := split_of_lt hraw' (hlength ▸ hin)
    rw [hcovered, hcovered'] at hlength
    simp only [List.length_append, List.length_cons] at hlength
    obtain ⟨rfl, hcheck⟩ := List.append_inj (hback.symm.trans hback') (by omega)
    rw [hcovered] at hsum
    rw [hcovered', ← FieldText.value_of_bytes hcheck] at hsum'
    exact byteSum_change hne (hsum.value.symm.trans hsum'.value)
  · -- the sums agree, and so do the CheckSum fields
    obtain ⟨more, hfront, hbytes⟩ := split_of_le hraw hout
    obtain ⟨more', hfront', hbytes'⟩ := split_of_le hraw' (hlength ▸ hout)
    obtain ⟨hcovered, rfl⟩ := List.append_inj (hfront.symm.trans hfront') hlength
    have hsizes : message.checkSum.bytes.length = message'.checkSum.bytes.length := by
      rw [hbytes, hbytes', List.length_append, List.length_append, List.length_cons, List.length_cons]
    rw [checkSum_bytes_length, checkSum_bytes_length, Nat.add_right_cancel_iff] at hsizes
    have htag : IsDecimal message.checkSum.digits Tag.kCheckSum :=
      ⟨message.checkSum.digits_ne_nil, message.checkSum.digits_isDigit, message.checkSum_tag⟩
    have htag' : IsDecimal message'.checkSum.digits Tag.kCheckSum :=
      ⟨message'.checkSum.digits_ne_nil, message'.checkSum.digits_isDigit, message'.checkSum_tag⟩
    rw [← hcovered] at hsum'
    have hvalue := hsum.eq_of_length hsum' (message.checkSum_length.trans message'.checkSum_length.symm)
    have hsame : message.checkSum.bytes = message'.checkSum.bytes := by
      rw [FieldText.bytes, FieldText.bytes, htag.eq_of_length htag' hsizes, hvalue]
    rw [hbytes, hbytes'] at hsame
    exact hne (List.cons.inj (List.append_cancel_left hsame)).1

end MessageText

/-- Every change of one byte of an accepted message is rejected. -/
theorem one_byte_change_rejected (raw raw' : Bytes) (parsed : ParsedMessage) (haccepted : parseMessage raw = .ok parsed)
    (hchanged : OneByteChanged raw raw') : ∃ reason, parseMessage raw' = .error reason := by
  cases hparse : parseMessage raw' with
  | error reason => exact ⟨reason, rfl⟩
  | ok parsed' =>
    obtain ⟨message, rfl, -⟩ := messageText_of_parse haccepted
    obtain ⟨message', rfl, -⟩ := messageText_of_parse hparse
    exact absurd hchanged MessageText.not_oneByteChanged

/-- A Logout. -/
def logout : Bytes := buildMessage [⟨Tag.kMsgType, MsgType.kLogout⟩]

/-- The Logout with the SOH before its CheckSum gone. -/
def joinedLogout : Bytes := logout.take 18 ++ 48 :: logout.drop 19

theorem joined_logout_rejected : ∃ reason, parseMessage joinedLogout = .error reason := by
  have haccepted : (parseMessage logout).toOption.isSome = true := by decide +kernel
  obtain ⟨parsed, hparsed⟩ : ∃ parsed, parseMessage logout = .ok parsed := by
    cases hparse : parseMessage logout with
    | error reason =>
      rw [hparse] at haccepted
      cases haccepted
    | ok parsed => exact ⟨parsed, rfl⟩
  exact one_byte_change_rejected logout joinedLogout parsed hparsed
    ⟨logout.take 18, kSoh, 48, logout.drop 19, by decide, by decide +kernel, rfl⟩

end CryptoTrader.Fix
