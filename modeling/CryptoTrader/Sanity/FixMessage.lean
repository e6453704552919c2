import CryptoTrader.Sanity.Decimal
import Mathlib.Data.List.Induction

/-! What the FIX scanner reads: one field at a time, the body up to its CheckSum, and the
checks after it. Each result is an equivalence, so that the parser is described from both
sides. -/

namespace CryptoTrader.Fix

section Field

variable {raw : Bytes} {offset : ℕ}

theorem FieldText.equals_not_mem (text : FieldText) : kEquals ∉ text.digits := fun h =>
  absurd (text.digits_isDigit _ h) (by decide)

theorem FieldText.bytes_length (text : FieldText) :
    text.bytes.length = text.digits.length + 1 + text.value.length + 1 := by
  rw [bytes, List.length_append, List.length_cons, List.length_append, List.length_singleton]
  omega

theorem takeWhile_ne_append {byte : UInt8} {front : Bytes} (h : byte ∉ front) (rest : Bytes) :
    (front ++ byte :: rest).takeWhile (· ≠ byte) = front := by
  rw [List.takeWhile_append_of_pos, List.takeWhile_cons_of_neg (by simp), List.append_nil]
  intro other hother
  rw [decide_eq_true_iff]
  rintro rfl
  exact h hother

theorem takeWhile_ne_split {byte : UInt8} {stream : Bytes} (h : (stream.takeWhile (· ≠ byte)).length ≠ stream.length) :
    stream = stream.takeWhile (· ≠ byte) ++ byte :: stream.drop ((stream.takeWhile (· ≠ byte)).length + 1) := by
  induction stream with
  | nil => exact absurd rfl h
  | cons first stream ih =>
    by_cases hfirst : first = byte
    · rw [List.takeWhile_cons_of_neg (by simpa using hfirst), hfirst]
      rfl
    · rw [List.takeWhile_cons_of_pos (by simpa using hfirst), List.length_cons, List.length_cons] at h
      have hrest := ih fun heq => h (by rw [heq])
      rw [List.takeWhile_cons_of_pos (by simpa using hfirst), List.length_cons, List.drop_succ_cons, List.cons_append,
        ← hrest]

theorem not_mem_takeWhile_ne {byte : UInt8} {stream : Bytes} : byte ∉ stream.takeWhile (· ≠ byte) := by
  intro h
  have hall := List.all_eq_true.1 (List.all_takeWhile (p := (· ≠ byte)) (l := stream)) byte h
  exact absurd rfl (of_decide_eq_true hall)

/-- The scanner reads the field that stands at the offset. -/
theorem scanField_bytes {text : FieldText} {rest : Bytes} (hdrop : raw.drop offset = text.bytes ++ rest) :
    scanField raw offset = .ok ⟨text.tag, text.value, offset + text.bytes.length⟩ := by
  have hstream : raw.drop offset = text.digits ++ kEquals :: (text.value ++ kSoh :: rest) := by
    rw [hdrop, FieldText.bytes, List.append_assoc, List.cons_append, List.append_assoc, List.singleton_append]
  have htag := takeWhile_ne_append text.equals_not_mem (text.value ++ kSoh :: rest)
  have hafter : (text.digits ++ kEquals :: (text.value ++ kSoh :: rest)).drop (text.digits.length + 1) =
      text.value ++ kSoh :: rest := by
    rw [← List.drop_drop, List.drop_left]
    rfl
  have hvalue := takeWhile_ne_append text.value_soh rest
  have hsome : ¬text.digits.length = (text.digits ++ kEquals :: (text.value ++ kSoh :: rest)).length := by
    rw [List.length_append, List.length_cons]
    omega
  have hended : ¬text.value.length = (text.value ++ kSoh :: rest).length := by
    rw [List.length_append, List.length_cons]
    omega
  have hdigits : text.digits.all isDigit = true := List.all_eq_true.2 text.digits_isDigit
  rw [scanField]
  simp only [hstream, htag, hsome, if_false, text.digits_ne_nil, hdigits, not_true_eq_false,
    Nat.not_le.2 text.tag_lt, hafter, hvalue, hended]
  rw [FieldText.bytes_length]
  simp only [FieldText.tag, Nat.add_assoc]

/-- And nothing else. -/
theorem scanField_eq_ok {one : ScannedField} (h : scanField raw offset = .ok one) :
    ∃ text rest, raw.drop offset = FieldText.bytes text ++ rest ∧
      one = ⟨text.tag, text.value, offset + text.bytes.length⟩ := by
  rw [scanField] at h
  generalize raw.drop offset = stream at h ⊢
  simp only at h
  split_ifs at h with hequals hempty hdigits hlarge hsoh
  have hvalue := takeWhile_ne_split hsoh
  have htag := takeWhile_ne_split hequals
  let text : FieldText := {
    digits := stream.takeWhile (· ≠ kEquals)
    value := (stream.drop ((stream.takeWhile (· ≠ kEquals)).length + 1)).takeWhile (· ≠ kSoh)
    digits_ne_nil := hempty
    digits_isDigit := List.all_eq_true.1 hdigits
    tag_lt := Nat.lt_of_not_le hlarge
    value_soh := not_mem_takeWhile_ne }
  refine ⟨text, (stream.drop (text.digits.length + 1)).drop (text.value.length + 1), ?_, ?_⟩
  · rw [FieldText.bytes, List.append_assoc, List.cons_append, List.append_assoc, List.singleton_append]
    conv_lhs => rw [htag, hvalue]
  · cases h
    rw [FieldText.bytes_length]
    simp only [FieldText.tag, Nat.add_assoc, text]

end Field

section Body

variable {raw : Bytes}

namespace BodyScan

/-- The scan after one more field. -/
def pushText (scan : BodyScan) (text : FieldText) : BodyScan :=
  scan.push ⟨text.tag, text.value, scan.offset + text.bytes.length⟩

def pushTexts (scan : BodyScan) (texts : List FieldText) : BodyScan := texts.foldl pushText scan

/-- The scan after some fields and the CheckSum. -/
def ended (scan : BodyScan) (body : List FieldText) (check : FieldText) : BodyScan :=
  { (scan.pushTexts body).pushText check with
    checkSumOffset := (scan.pushTexts body).offset, checkSumValue := check.value }

variable (scan : BodyScan)

theorem pushTexts_offset (texts : List FieldText) :
    (scan.pushTexts texts).offset = scan.offset + (render texts).length := by
  induction texts generalizing scan with
  | nil => rfl
  | cons text texts ih =>
    have hrest := ih (scan.pushText text)
    rw [render, List.flatMap_cons, List.length_append]
    exact hrest.trans (Nat.add_assoc ..)

theorem pushTexts_fields (texts : List FieldText) :
    (scan.pushTexts texts).message.fields = scan.message.fields ++ texts.map FieldText.view := by
  induction texts generalizing scan with
  | nil => exact (List.append_nil _).symm
  | cons text texts ih =>
    have hrest := ih (scan.pushText text)
    exact hrest.trans (List.append_assoc ..)

/-- The last MsgType is the one kept. -/
theorem pushTexts_msgType (texts : List FieldText) :
    (scan.pushTexts texts).message.msgType =
      (((texts.filter (·.tag = Tag.kMsgType)).getLast?).map (·.value)).getD scan.message.msgType := by
  induction texts using List.reverseRecOn with
  | nil => rfl
  | append_singleton texts text ih =>
    have hsnoc : scan.pushTexts (texts ++ [text]) = (scan.pushTexts texts).pushText text := List.foldl_concat ..
    rw [hsnoc, List.filter_append]
    by_cases htype : text.tag = Tag.kMsgType
    · simp [pushText, push, htype]
    · simp [pushText, push, htype, ih]

theorem ended_message (body : List FieldText) {check : FieldText} (hcheck : check.tag = Tag.kCheckSum) :
    (scan.ended body check).message =
      ⟨scan.message.fields ++ (body ++ [check]).map FieldText.view, (scan.pushTexts body).message.msgType⟩ := by
  have hother : check.tag ≠ Tag.kMsgType := by
    rw [hcheck]
    decide
  have hfields := scan.pushTexts_fields (body ++ [check])
  rw [pushTexts, List.foldl_concat] at hfields
  rw [← hfields, ended, pushText, push, if_neg hother]
  rfl

theorem ended_offset (body : List FieldText) (check : FieldText) :
    (scan.ended body check).offset = scan.offset + (render body).length + check.bytes.length := by
  rw [← scan.pushTexts_offset]
  rfl

end BodyScan

/-- The text after a field stands at the offset after it. -/
theorem drop_after {stream rest : Bytes} {offset : ℕ} (hdrop : raw.drop offset = stream ++ rest) :
    raw.drop (offset + stream.length) = rest := by
  rw [← List.drop_drop, hdrop, List.drop_left]

theorem lt_of_drop_bytes {offset : ℕ} {text : FieldText} {rest : Bytes} (hdrop : raw.drop offset = text.bytes ++ rest) :
    offset < raw.length := by
  by_contra hle
  rw [List.drop_eq_nil_of_le (Nat.le_of_not_lt hle)] at hdrop
  have hlength := congrArg List.length hdrop
  rw [List.length_append, FieldText.bytes_length, List.length_nil] at hlength
  omega

/-- The loop reads the fields up to the CheckSum, if the first is the MsgType. -/
theorem scanBody_texts {scan : BodyScan} {body : List FieldText} {check : FieldText} {rest : Bytes} {fuel : ℕ}
    (hdrop : raw.drop scan.offset = render body ++ (check.bytes ++ rest)) (hbody : ∀ text ∈ body, text.tag ≠ Tag.kCheckSum)
    (hcheck : check.tag = Tag.kCheckSum)
    (henvelope : 2 ≤ scan.message.fields.length)
    (hfirst : scan.message.fields.length = 2 → ∀ text ∈ body.head?, text.tag = Tag.kMsgType) (hfuel : body.length < fuel) : scanBody raw fuel scan = .ok (scan.ended body check) := by
  induction body generalizing scan fuel with
  | nil =>
    obtain ⟨fuel, rfl⟩ := Nat.exists_eq_add_of_lt hfuel
    have hread := scanField_bytes hdrop
    rw [scanBody, if_pos (lt_of_drop_bytes hdrop), hread]
    simp only [if_pos hcheck]
    rfl
  | cons text body ih =>
    obtain ⟨fuel, rfl⟩ : ∃ n, fuel = n + 1 := ⟨fuel - 1, by omega⟩
    rw [render, List.flatMap_cons, List.append_assoc] at hdrop
    have hread := scanField_bytes hdrop
    have hother := hbody text List.mem_cons_self
    have htype : ¬(scan.message.fields.length = 2 ∧ text.tag ≠ Tag.kMsgType) := fun h =>
      h.2 (hfirst h.1 text rfl)
    have hmany : (scan.pushText text).message.fields.length = scan.message.fields.length + 1 := List.length_append
    rw [scanBody, if_pos (lt_of_drop_bytes hdrop), hread]
    simp only [if_neg hother, if_neg htype]
    exact ih (drop_after hdrop) (fun other h => hbody other (List.mem_cons_of_mem _ h))
      (hmany ▸ Nat.le_succ_of_le henvelope) (fun h => absurd (hmany.symm.trans h) (by omega)) (Nat.lt_of_succ_lt_succ hfuel)

/-- What the loop has read when it found a CheckSum. -/
theorem texts_of_scanBody {scan final : BodyScan} {fuel : ℕ} (h : scanBody raw fuel scan = .ok final)
    (hnone : scan.checkSumOffset = 0) (hfound : final.checkSumOffset ≠ 0) :
    ∃ body check rest, raw.drop scan.offset = render body ++ (FieldText.bytes check ++ rest) ∧
      (∀ text ∈ body, text.tag ≠ Tag.kCheckSum) ∧ check.tag = Tag.kCheckSum ∧
      (scan.message.fields.length = 2 → ∀ text ∈ body.head?, text.tag = Tag.kMsgType) ∧
      final = scan.ended body check := by
  induction fuel generalizing scan with
  | zero =>
    cases h
    exact absurd hnone hfound
  | succ fuel ih =>
    rw [scanBody] at h
    by_cases hmore : scan.offset < raw.length
    · rw [if_pos hmore] at h
      cases hread : scanField raw scan.offset with
      | error reason =>
        rw [hread] at h
        cases h
      | ok one =>
        rw [hread] at h
        obtain ⟨text, rest, hdrop, rfl⟩ := scanField_eq_ok hread
        simp only at h
        split_ifs at h with hcheck hfirst
        · -- the CheckSum ends the loop
          cases h
          exact ⟨[], text, rest, hdrop, by simp, hcheck, by simp, rfl⟩
        · have hpushed : scanBody raw fuel (scan.pushText text) = .ok final := h
          obtain ⟨body, check, tail, hrest, hbody, htag, -, rfl⟩ := ih hpushed hnone
          have hnext := (drop_after hdrop).symm.trans hrest
          refine ⟨text :: body, check, tail, ?_, ?_, htag, fun henvelope other hother => ?_, rfl⟩
          · rw [hdrop, hnext, render, render, List.flatMap_cons, List.append_assoc]
          · intro other hother
            rcases List.mem_cons.1 hother with rfl | hother
            · exact hcheck
            · exact hbody other hother
          · cases hother
            by_contra htype
            exact hfirst ⟨henvelope, htype⟩
    · rw [if_neg hmore] at h
      cases h
      exact absurd hnone hfound

/-- The checks after the loop, as one condition. -/
theorem checkBody_eq_ok_iff {bodyStart declared : ℕ} {scan : BodyScan} {message : ParsedMessage} :
    checkBody raw bodyStart declared scan = .ok message ↔
      scan.checkSumOffset ≠ 0 ∧ scan.offset = raw.length ∧ scan.message.msgType ≠ [] ∧
        declared = scan.checkSumOffset - bodyStart ∧ scan.checkSumValue = formatChecksum (raw.take scan.checkSumOffset) ∧
        scan.message = message := by
  constructor
  · intro h
    rw [checkBody] at h
    simp only at h
    split_ifs at h with hfound hend htype hlength hdigits hsum
    cases h
    exact ⟨hfound, not_not.1 hend, htype, not_not.1 hlength, not_not.1 hsum, rfl⟩
  · rintro ⟨hfound, hend, htype, hlength, hsum, rfl⟩
    have hdigits : scan.checkSumValue.length = kCheckSumDigits := by
      rw [hsum]
      rfl
    rw [checkBody, if_neg hfound, if_neg (not_not.2 hend), if_neg htype, if_neg (not_not.2 hlength),
      if_neg (not_not.2 hdigits)]
    exact if_neg (not_not.2 hsum)

end Body

end CryptoTrader.Fix
