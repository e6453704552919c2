import CryptoTrader.Spec.FixGrammar

/-! Decimal text: the digits `std::to_string` writes are read back as the number, and the
three digits of a checksum are the ones that say it. -/

namespace CryptoTrader.Fix

theorem isDigit_iff {byte : UInt8} : isDigit byte = true ↔ 48 ≤ byte.toNat ∧ byte.toNat ≤ 57 := by
  rw [isDigit, Bool.and_eq_true, decide_eq_true_iff, decide_eq_true_iff, UInt8.le_iff_toNat_le, UInt8.le_iff_toNat_le]
  rfl

theorem isDigit_digit {digit : ℕ} (h : digit < 10) : isDigit (48 + digit).toUInt8 = true := by
  rw [isDigit_iff, Nat.toUInt8, UInt8.toNat_ofNat_of_lt' (show _ < 256 by omega)]
  omega

theorem digitValue_digit {digit : ℕ} (h : digit < 10) : digitValue (48 + digit).toUInt8 = digit := by
  rw [digitValue, Nat.toUInt8, UInt8.toNat_ofNat_of_lt' (show _ < 256 by omega)]
  omega

theorem digit_digitValue {byte : UInt8} (h : isDigit byte = true) : (48 + digitValue byte).toUInt8 = byte := by
  rw [isDigit_iff] at h
  rw [digitValue, show 48 + (byte.toNat - 48) = byte.toNat by omega]
  exact UInt8.ofNat_toNat

theorem digitValue_lt {byte : UInt8} (h : isDigit byte = true) : digitValue byte < 10 := by
  rw [isDigit_iff] at h
  rw [digitValue]
  omega

/-- A digit as a character and as a byte. -/
theorem toNat_digit_char {c : Char} (hc : c.isDigit = true) :
    c.toNat.toUInt8.toNat = c.toNat ∧ 48 ≤ c.toNat ∧ c.toNat ≤ 57 := by
  simp only [Char.isDigit, Bool.and_eq_true, decide_eq_true_eq] at hc
  have hlow : 48 ≤ c.toNat := hc.1
  have hhigh : c.toNat ≤ 57 := hc.2
  refine ⟨UInt8.toNat_ofNat_of_lt' (show _ < 256 by omega), hlow, hhigh⟩

/-- A number's text says the number. -/
theorem natText_isDecimal (n : ℕ) : IsDecimal (natText n) n := by
  have hdigit : ∀ c ∈ Nat.toDigits 10 n, c.isDigit = true := fun c hc =>
    Nat.isDigit_of_mem_toDigits (by decide) (by decide) hc
  refine ⟨fun h => Nat.toDigits_ne_nil (List.map_eq_nil_iff.1 h), fun byte hbyte => ?_, ?_⟩
  · obtain ⟨c, hc, rfl⟩ := List.mem_map.1 hbyte
    obtain ⟨hbyte, hlow, hhigh⟩ := toNat_digit_char (hdigit c hc)
    rw [isDigit_iff, hbyte]
    exact ⟨hlow, hhigh⟩
  · calc decimalValue (natText n) = Nat.ofDigitChars 10 (Nat.toDigits 10 n) 0 := by
          rw [decimalValue, natText, List.foldl_map, Nat.ofDigitChars]
          refine List.foldl_ext _ _ _ fun value c hc => ?_
          rw [digitValue, (toNat_digit_char (hdigit c hc)).1, Nat.mul_comm]
          rfl
      _ = n := Nat.ofDigitChars_toDigits (by decide) (by decide)

theorem natText_length_le {n digits : ℕ} (hdigits : 0 < digits) (h : n < 10 ^ digits) : (natText n).length ≤ digits := by
  rw [natText, List.length_map]
  exact (Nat.length_toDigits_le_iff (by decide) hdigits).2 h

/-- A number at more decimals has as many zeros more in its text. -/
theorem natText_mul_pow {n : ℕ} (hn : 0 < n) (decimals : ℕ) :
    natText (n * 10 ^ decimals) = natText n ++ List.replicate decimals 48 := by
  induction decimals with
  | zero => simp
  | succ decimals ih =>
    have hdigits := Nat.toDigits_append_toDigits (b := 10) (d := 0) (by decide)
      (Nat.mul_pos hn (Nat.pow_pos (n := decimals) (by decide : 0 < 10))) (by decide)
    have hmul : n * 10 ^ (decimals + 1) = 10 * (n * 10 ^ decimals) + 0 := by
      rw [Nat.pow_succ, Nat.add_zero, ← Nat.mul_assoc, Nat.mul_comm]
    rw [List.replicate_succ', ← List.append_assoc, ← ih, natText, natText, hmul, ← hdigits, List.map_append]
    rfl

/-- The checksum's text is the one of three digits that says the sum. -/
theorem eq_formatChecksum_iff {text bytes : Bytes} :
    text = formatChecksum bytes ↔ text.length = 3 ∧ IsDecimal text (byteSum bytes % 256) := by
  have hsum : byteSum bytes % 256 < 256 := Nat.mod_lt _ (by decide)
  have hformat : formatChecksum bytes = [byteSum bytes % 256 / 100 % 10, byteSum bytes % 256 / 10 % 10,
      byteSum bytes % 256 % 10].map fun digit => (48 + digit).toUInt8 := rfl
  rw [hformat]
  generalize byteSum bytes % 256 = sum at hsum
  constructor
  · rintro rfl
    refine ⟨rfl, by simp, ?_, ?_⟩
    · intro byte hbyte
      obtain ⟨digit, hdigit, rfl⟩ := List.mem_map.1 hbyte
      refine isDigit_digit ?_
      simp only [List.mem_cons, List.not_mem_nil, or_false] at hdigit
      omega
    · simp only [decimalValue, List.map_cons, List.map_nil, List.foldl_cons, List.foldl_nil]
      rw [digitValue_digit (by omega), digitValue_digit (by omega), digitValue_digit (by omega)]
      omega
  · rintro ⟨hlength, -, hdigits, hvalue⟩
    obtain ⟨a, b, c, rfl⟩ := List.length_eq_three.1 hlength
    simp only [List.mem_cons, List.not_mem_nil, or_false, forall_eq_or_imp, forall_eq] at hdigits
    obtain ⟨ha, hb, hc⟩ := hdigits
    have hva := digitValue_lt ha
    have hvb := digitValue_lt hb
    have hvc := digitValue_lt hc
    simp only [decimalValue, List.foldl_cons, List.foldl_nil] at hvalue
    rw [← digit_digitValue ha, ← digit_digitValue hb, ← digit_digitValue hc, List.map_cons, List.map_cons, List.map_cons,
      List.map_nil, show sum / 100 % 10 = digitValue a by omega, show sum / 10 % 10 = digitValue b by omega,
      show sum % 10 = digitValue c by omega]

/-- The source adds the bytes up in 32 bits; what wraps around is a multiple of 256. -/
theorem checksum_accumulator (bytes : Bytes) (start : BitVec 32) :
    (bytes.foldl (fun (sum : BitVec 32) byte => sum + byte.toBitVec.setWidth 32) start).toNat % kCheckSumModulus =
      (start.toNat + byteSum bytes) % kCheckSumModulus := by
  induction bytes generalizing start with
  | nil => rfl
  | cons byte bytes ih =>
    have hstep : (start + byte.toBitVec.setWidth 32).toNat = (start.toNat + byte.toNat) % 2 ^ 32 := by
      rw [BitVec.toNat_add, BitVec.toNat_setWidth_of_le (by decide)]
      rfl
    have hsum : byteSum (byte :: bytes) = byte.toNat + byteSum bytes := List.sum_cons
    have hmodulus : kCheckSumModulus = 256 := rfl
    rw [List.foldl_cons, ih, hstep, hsum, hmodulus]
    omega

end CryptoTrader.Fix
