import CryptoTrader.Lib.FormUrl
import CryptoTrader.Sanity.Decimal
import CryptoTrader.Spec.KrakenSigning

/-! A form body is read back as the parameters it was made of, and a secret as it was handed
out, with whatever blanks and line breaks came into it. -/

namespace CryptoTrader.Kraken

open Nonce

theorem isUnreserved_plain {character : UInt8} (h : isUnreserved character = true) :
    character ≠ 37 ∧ character ≠ 43 ∧ character ≠ 38 ∧ character ≠ 61 := by
  refine ⟨?_, ?_, ?_, ?_⟩ <;> (rintro rfl; cases h)

theorem kHexDigits_facts : ∀ n : Fin 16, FormUrl.hexValue (kHexDigits.getD n 0) = some n.val ∧
    kHexDigits.getD n 0 ≠ 38 ∧ kHexDigits.getD n 0 ≠ 61 := by
  decide

theorem decodeText_encodeCharacter (character : UInt8) (rest : Bytes) :
    FormUrl.decodeText (encodeCharacter character ++ rest) = (FormUrl.decodeText rest).map (character :: ·) := by
  have hbyte := character.toNat_lt
  rw [encodeCharacter]
  split_ifs with hunreserved hblank
  · obtain ⟨hescape, hplus, -, -⟩ := isUnreserved_plain hunreserved
    exact FormUrl.decodeText_char hescape hplus rest
  · rw [hblank]
    exact FormUrl.decodeText_plus rest
  · have hhigh := (kHexDigits_facts ⟨character.toNat / 16, by omega⟩).1
    have hlow := (kHexDigits_facts ⟨character.toNat % 16, by omega⟩).1
    refine (FormUrl.decodeText_escape hhigh hlow rest).trans ?_
    rw [Base64.toUInt8_of_eq character (by simp only; omega)]

theorem decodeText_urlEncode (value : Bytes) : FormUrl.decodeText (urlEncode value) = some value := by
  induction value with
  | nil => rfl
  | cons character value ih =>
    rw [urlEncode, List.flatMap_cons, decodeText_encodeCharacter]
    exact congrArg (Option.map (character :: ·)) ih

theorem urlEncode_clean (value : Bytes) : 38 ∉ urlEncode value ∧ 61 ∉ urlEncode value := by
  have hclean : ∀ character, 38 ∉ encodeCharacter character ∧ 61 ∉ encodeCharacter character := by
    intro character
    have hbyte := character.toNat_lt
    rw [encodeCharacter]
    split_ifs with hunreserved hblank
    · obtain ⟨-, -, hamp, hequals⟩ := isUnreserved_plain hunreserved
      simp [hamp.symm, hequals.symm]
    · decide
    · obtain ⟨-, hamp, hequals⟩ := kHexDigits_facts ⟨character.toNat / 16, by omega⟩
      obtain ⟨-, hamp', hequals'⟩ := kHexDigits_facts ⟨character.toNat % 16, by omega⟩
      simp only [List.mem_cons, List.not_mem_nil, or_false, not_or]
      exact ⟨⟨by decide, hamp.symm, hamp'.symm⟩, by decide, hequals.symm, hequals'.symm⟩
  refine ⟨fun hmem => ?_, fun hmem => ?_⟩
  · obtain ⟨character, -, hchar⟩ := List.mem_flatMap.1 hmem
    exact (hclean character).1 hchar
  · obtain ⟨character, -, hchar⟩ := List.mem_flatMap.1 hmem
    exact (hclean character).2 hchar

/-- The loop puts the separator between any two parameters, as none is encoded as nothing. -/
theorem encodePostData_eq_intercalate (params : List (Bytes × Bytes)) :
    encodePostData params =
      List.intercalate [38] (params.map fun param => urlEncode param.1 ++ 61 :: urlEncode param.2) := by
  have hhead : ∀ (text part : Bytes) (parts : List Bytes),
      List.intercalate [38] ((text ++ part) :: parts) = text ++ List.intercalate [38] (part :: parts) := by
    intro text part parts
    cases parts <;> simp
  have hloop : ∀ (params : List (Bytes × Bytes)) (body : Bytes), body ≠ [] →
      params.foldl (fun body param =>
        (if body = [] then [] else body ++ [38]) ++ urlEncode param.1 ++ [61] ++ urlEncode param.2) body =
        List.intercalate [38] (body :: params.map fun param => urlEncode param.1 ++ 61 :: urlEncode param.2) := by
    intro params
    induction params with
    | nil =>
      intro body _
      simp
    | cons param params ih =>
      intro body hbody
      rw [List.foldl_cons, if_neg hbody, ih _ (by simp), List.map_cons, List.intercalate_cons_cons, ← hhead]
      simp
  cases params with
  | nil => rfl
  | cons param params =>
    rw [encodePostData, List.foldl_cons, if_pos rfl, hloop _ _ (by simp)]
    simp

/-- A form body says the parameters it was made of. -/
theorem parse_encodePostData (params : List (Bytes × Bytes)) : FormUrl.parse (encodePostData params) = some params := by
  rw [encodePostData_eq_intercalate]
  exact FormUrl.parse_intercalate decodeText_urlEncode urlEncode_clean params

theorem charValue_plain {character : UInt8} (h : (Base64.charValue character).isSome = true) :
    isSpace character = false ∧ character ≠ 45 := by
  have hall : ∀ n : Fin 256, (Base64.charValue (UInt8.ofNat n)).isSome = true →
      isSpace (UInt8.ofNat n) = false ∧ UInt8.ofNat n ≠ 45 := by
    decide +kernel
  have hbyte := hall ⟨character.toNat, character.toNat_lt⟩
  rw [UInt8.ofNat_toNat] at hbyte
  exact hbyte h

/-- A secret is read as it was encoded, whatever blanks stand in its text. -/
theorem base64Decode_of_filter {secret text : Bytes} (hne : secret ≠ [])
    (htext : text.filter (fun character => !isSpace character) = base64Encode secret) :
    base64Decode text = .ok secret := by
  have hencode : base64Encode secret = Base64.encode secret := if_neg hne
  have hdash : ((Base64.encode secret).drop 3).rdropWhile (· = 45) = (Base64.encode secret).drop 3 := by
    rw [List.rdropWhile_eq_self_iff]
    intro hlast
    have hmem := List.mem_of_mem_drop (List.getLast_mem hlast)
    simpa using (charValue_plain (Base64.charValue_of_mem_encode hmem)).2
  have hblock : evpDecodeBlock (Base64.encode secret) = some (secret ++ List.replicate (Base64.padding secret) 0) := by
    rw [evpDecodeBlock, hdash, List.take_append_drop, Base64.decodeBlock_encode]
  have hgroups : ¬(Base64.encode secret = [] ∨ (Base64.encode secret).length % 4 ≠ 0) := by
    simp [Base64.encode_eq_nil, hne, Base64.length_encode]
  simp only [base64Decode, htext, hencode, if_neg hgroups, hblock, Base64.length_rtakeWhile_encode, List.length_append,
    List.length_replicate, Nat.add_sub_cancel, List.take_left]

end CryptoTrader.Kraken
