import Mathlib.Data.Nat.Digits.Lemmas
import Mathlib.Data.Nat.Bitwise
import Mathlib.Logic.Function.Iterate

/-! Reflected cyclic redundancy checks. The register is shifted one bit at a time and the
shift is linear and injective, so two texts that differ in no more bytes than the register
holds are told apart. With a table that undoes the shift on some bits, so are two texts that
differ on both sides of a gap. -/

namespace Crc

variable {w : ℕ} (poly : BitVec w)

/-- One bit: the lowest bit leaves the register and, if it was set, the polynomial is added. -/
def shift (r : BitVec w) : BitVec w := if r.getLsbD 0 = true then (r >>> 1) ^^^ poly else r >>> 1

/-- One byte, its lowest bit first. -/
def feed (r : BitVec w) (byte : UInt8) : BitVec w := (shift poly)^[8] (r ^^^ byte.toBitVec.setWidth w)

section Xor

theorem xor_xor_cancel (a b c : BitVec w) : a ^^^ c ^^^ (b ^^^ c) = a ^^^ b := by
  rw [BitVec.xor_comm b, BitVec.xor_assoc, ← BitVec.xor_assoc c, BitVec.xor_self, BitVec.zero_xor]

theorem xor_eq_xor_of_eq {a b c d : BitVec w} (h : a ^^^ b = c ^^^ d) : a ^^^ c = b ^^^ d := by
  rw [← xor_xor_cancel a c b, h, BitVec.xor_comm c d, BitVec.xor_comm c b, xor_xor_cancel, BitVec.xor_comm]

end Xor

section Shift

theorem getLsbD_shift (r : BitVec w) (i : ℕ) :
    (shift poly r).getLsbD i = (r.getLsbD (1 + i) ^^ (r.getLsbD 0 && poly.getLsbD i)) := by
  rw [shift]
  cases r.getLsbD 0
  · rw [if_neg Bool.false_ne_true, BitVec.getLsbD_ushiftRight, Bool.false_and, Bool.xor_false]
  · rw [if_pos rfl, BitVec.getLsbD_xor, BitVec.getLsbD_ushiftRight, Bool.true_and]

theorem shift_xor (r s : BitVec w) : shift poly (r ^^^ s) = shift poly r ^^^ shift poly s := by
  refine BitVec.eq_of_getLsbD_eq fun i _ => ?_
  simp only [getLsbD_shift, BitVec.getLsbD_xor, Bool.and_xor_distrib_right]
  rw [Bool.xor_assoc, Bool.xor_assoc, Bool.xor_left_comm (s.getLsbD (1 + i))]

theorem shift_zero : shift poly 0#w = 0#w := by
  refine BitVec.eq_of_getLsbD_eq fun i _ => ?_
  rw [getLsbD_shift, BitVec.getLsbD_zero, BitVec.getLsbD_zero, BitVec.getLsbD_zero, Bool.false_and, Bool.xor_false]

theorem eq_zero_of_shift (hpoly : poly.msb = true) {r : BitVec w} (h : shift poly r = 0#w) : r = 0#w := by
  have hbits : ∀ i, (r.getLsbD (1 + i) ^^ (r.getLsbD 0 && poly.getLsbD i)) = false := by
    intro i
    rw [← getLsbD_shift, h, BitVec.getLsbD_zero]
  rw [BitVec.msb_eq_getLsbD_last] at hpoly
  -- the highest bit of the result is the lowest one of the register
  have hlow : r.getLsbD 0 = false := by
    have hlast := hbits (w - 1)
    rw [hpoly, BitVec.getLsbD_of_ge r _ (by omega)] at hlast
    simpa using hlast
  refine BitVec.eq_of_getLsbD_eq fun i _ => ?_
  rw [BitVec.getLsbD_zero]
  cases i with
  | zero => exact hlow
  | succ i =>
    have hbit := hbits i
    rw [hlow, Bool.false_and, Bool.xor_false, Nat.add_comm] at hbit
    exact hbit

theorem shift_injective (hpoly : poly.msb = true) : Function.Injective (shift poly) := by
  intro r s h
  refine BitVec.xor_eq_zero_iff.1 (eq_zero_of_shift poly hpoly ?_)
  rw [shift_xor, h, BitVec.xor_self]

theorem iterate_shift_xor (n : ℕ) (r s : BitVec w) :
    (shift poly)^[n] (r ^^^ s) = (shift poly)^[n] r ^^^ (shift poly)^[n] s := by
  induction n generalizing r s with
  | zero => rfl
  | succ n ih =>
    rw [Function.iterate_succ_apply, shift_xor, ih, ← Function.iterate_succ_apply, ← Function.iterate_succ_apply]

/-- Bits that stand above come down as they were. -/
theorem iterate_shift_shiftLeft (n : ℕ) {r : BitVec w} (h : ∀ i, w ≤ i + n → r.getLsbD i = false) :
    (shift poly)^[n] (r <<< n) = r := by
  induction n with
  | zero => exact BitVec.shiftLeft_zero r
  | succ n ih =>
    have hone : shift poly (r <<< (n + 1)) = r <<< n := by
      refine BitVec.eq_of_getLsbD_eq fun i hi => ?_
      simp only [getLsbD_shift, BitVec.getLsbD_shiftLeft]
      rcases Nat.lt_or_ge i n with hlow | hhigh
      · simp [hlow, Nat.add_comm 1]
      · rcases Nat.lt_or_ge (1 + i) w with hin | hout
        · simp [hi, hin, Nat.not_lt.2 hhigh, show ¬ 1 + i < n + 1 by omega, show 1 + i - (n + 1) = i - n by omega]
        · simp [hi, Nat.not_lt.2 hhigh, Nat.not_lt.2 hout, h (i - n) (by omega)]
    rw [Function.iterate_succ_apply, hone]
    exact ih fun i hi => h i (by omega)

end Shift

section Word

/-- Some bytes as a number, the first the least significant. -/
def word (w : ℕ) (bytes : List UInt8) : BitVec w := BitVec.ofNat w (Nat.ofDigits 256 (bytes.map UInt8.toNat))

theorem digits_lt (bytes : List UInt8) : ∀ digit ∈ bytes.map UInt8.toNat, digit < 256 := by
  intro digit hdigit
  obtain ⟨byte, -, rfl⟩ := List.mem_map.1 hdigit
  exact byte.toNat_lt

theorem ofDigits_lt (bytes : List UInt8) : Nat.ofDigits 256 (bytes.map UInt8.toNat) < 2 ^ (8 * bytes.length) := by
  have hlt := Nat.ofDigits_lt_base_pow_length (b := 256) (by decide) (digits_lt bytes)
  rwa [List.length_map, show 256 = 2 ^ 8 from rfl, ← Nat.pow_mul] at hlt

theorem getLsbD_word (bytes : List UInt8) {i : ℕ} (h : 8 * bytes.length ≤ i) : (word w bytes).getLsbD i = false := by
  rw [word, BitVec.getLsbD_ofNat,
    Nat.testBit_lt_two_pow (Nat.lt_of_lt_of_le (ofDigits_lt bytes) (Nat.pow_le_pow_right (by decide) h)), Bool.and_false]

theorem word_cons (byte : UInt8) (bytes : List UInt8) :
    word w (byte :: bytes) = byte.toBitVec.setWidth w ^^^ word w bytes <<< 8 := by
  refine BitVec.eq_of_getLsbD_eq fun i hi => ?_
  have hbyte : byte.toBitVec.toNat < 2 ^ 8 := byte.toNat_lt
  have hsum : Nat.ofDigits 256 ((byte :: bytes).map UInt8.toNat) =
      2 ^ 8 * Nat.ofDigits 256 (bytes.map UInt8.toNat) + byte.toBitVec.toNat := by
    rw [List.map_cons, Nat.ofDigits_cons, Nat.add_comm]
    rfl
  rw [word, hsum, BitVec.getLsbD_ofNat, Nat.testBit_two_pow_mul_add _ hbyte, BitVec.getLsbD_xor, BitVec.getLsbD_setWidth,
    BitVec.getLsbD_shiftLeft, word, BitVec.getLsbD_ofNat]
  rcases Nat.lt_or_ge i 8 with hlow | hhigh
  · rw [if_pos hlow, BitVec.testBit_toNat]
    simp [hi, hlow]
  · simp [hi, Nat.not_lt.2 hhigh, BitVec.getLsbD_of_ge byte.toBitVec i hhigh, show i - 8 < w by omega]

/-- Bytes the register can hold are told apart by their number. -/
theorem word_injective {bytes bytes' : List UInt8} (hlength : bytes.length = bytes'.length) (hw : 8 * bytes.length ≤ w)
    (h : word w bytes = word w bytes') : bytes = bytes' := by
  have hfits : ∀ text : List UInt8, text.length = bytes.length → Nat.ofDigits 256 (text.map UInt8.toNat) < 2 ^ w := by
    intro text htext
    exact Nat.lt_of_lt_of_le (ofDigits_lt text) (Nat.pow_le_pow_right (by decide) (htext ▸ hw))
  have hnumber := congrArg BitVec.toNat h
  rw [word, word, BitVec.toNat_ofNat, BitVec.toNat_ofNat, Nat.mod_eq_of_lt (hfits bytes rfl),
    Nat.mod_eq_of_lt (hfits bytes' hlength.symm)] at hnumber
  have hdigits := Nat.ofDigits_inj_of_len_eq (by decide) (by rw [List.length_map, List.length_map, hlength])
    (digits_lt bytes) (digits_lt bytes') hnumber
  exact List.map_injective_iff.2 (fun _ _ => UInt8.toNat_inj.1) hdigits

end Word

section Feed

/-- Bytes the register can hold are added to it at once. -/
theorem foldl_feed {bytes : List UInt8} (hw : 8 * bytes.length ≤ w) (r : BitVec w) :
    bytes.foldl (feed poly) r = (shift poly)^[8 * bytes.length] (r ^^^ word w bytes) := by
  induction bytes generalizing r with
  | nil =>
    rw [word, List.map_nil, Nat.ofDigits_nil]
    exact (BitVec.xor_zero).symm
  | cons byte bytes ih =>
    rw [List.length_cons] at hw
    have hword : (shift poly)^[8] (word w bytes <<< 8) = word w bytes :=
      iterate_shift_shiftLeft poly 8 fun i hi => getLsbD_word bytes (by omega)
    calc bytes.foldl (feed poly) (feed poly r byte)
        = (shift poly)^[8 * bytes.length] (feed poly r byte ^^^ (shift poly)^[8] (word w bytes <<< 8)) := by
          rw [ih (by omega), hword]
      _ = (shift poly)^[8 * bytes.length] ((shift poly)^[8] (r ^^^ word w (byte :: bytes))) := by
          rw [feed, ← iterate_shift_xor, word_cons, BitVec.xor_assoc]
      _ = (shift poly)^[8 * (byte :: bytes).length] (r ^^^ word w (byte :: bytes)) := by
          rw [← Function.iterate_add_apply, List.length_cons, Nat.mul_succ]

/-- What two registers differ by goes through the same bytes on its own. -/
theorem foldl_feed_xor (bytes : List UInt8) (r s : BitVec w) :
    bytes.foldl (feed poly) r ^^^ bytes.foldl (feed poly) s = (shift poly)^[8 * bytes.length] (r ^^^ s) := by
  induction bytes generalizing r s with
  | nil => rfl
  | cons byte bytes ih =>
    rw [List.foldl_cons, List.foldl_cons, ih, feed, feed, ← iterate_shift_xor, xor_xor_cancel,
      ← Function.iterate_add_apply, List.length_cons, Nat.mul_succ]

variable {poly} (hpoly : poly.msb = true)

include hpoly

/-- Two registers stay apart. -/
theorem foldl_feed_injective (bytes : List UInt8) :
    Function.Injective (fun r : BitVec w => bytes.foldl (feed poly) r) := by
  intro r s h
  have hdifference := foldl_feed_xor poly bytes r s
  rw [show bytes.foldl (feed poly) r = bytes.foldl (feed poly) s from h, BitVec.xor_self] at hdifference
  have hzero : (shift poly)^[8 * bytes.length] 0#w = 0#w := Function.iterate_fixed (shift_zero poly) _
  exact BitVec.xor_eq_zero_iff.1 ((shift_injective poly hpoly).iterate _ (hdifference.symm.trans hzero.symm))

/-- Two bursts the register can hold end alike only if they make up for what the registers
differed by. -/
theorem word_of_foldl_feed {burst burst' : List UInt8} (hlength : burst.length = burst'.length)
    (hw : 8 * burst.length ≤ w) {r s : BitVec w} (h : burst.foldl (feed poly) r = burst'.foldl (feed poly) s) :
    r ^^^ word w burst = s ^^^ word w burst' := by
  rw [foldl_feed poly hw, foldl_feed poly (hlength ▸ hw), hlength] at h
  exact (shift_injective poly hpoly).iterate _ h

/-- A burst the register can hold is noticed. -/
theorem burst_detected {front burst burst' back : List UInt8} (hlength : burst.length = burst'.length)
    (hw : 8 * burst.length ≤ w) {r : BitVec w}
    (h : (front ++ (burst ++ back)).foldl (feed poly) r = (front ++ (burst' ++ back)).foldl (feed poly) r) :
    burst = burst' := by
  simp only [List.foldl_append] at h
  have hword := word_of_foldl_feed hpoly hlength hw (foldl_feed_injective hpoly back h)
  exact word_injective hlength hw ((BitVec.xor_right_inj _).1 hword)

end Feed

section Gap

/-- No bits that come in before a gap turn into bits that come in after it. -/
def Separates (before gap after : ℕ) : Prop :=
  ∀ r : BitVec w, (∀ i, before ≤ i → r.getLsbD i = false) →
    (∀ i, after ≤ i → ((shift poly)^[before + gap] r).getLsbD i = false) → r = 0#w

variable {poly}

/-- Two bursts with a gap between them are noticed. -/
theorem gap_burst_detected (hpoly : poly.msb = true) {front first first' gap second second' back : List UInt8}
    (hfirst : first.length = first'.length) (hsecond : second.length = second'.length)
    (hw : 8 * first.length ≤ w) (hw' : 8 * second.length ≤ w)
    (hsep : Separates poly (8 * first.length) (8 * gap.length) (8 * second.length)) {r : BitVec w}
    (h : (front ++ (first ++ (gap ++ (second ++ back)))).foldl (feed poly) r =
      (front ++ (first' ++ (gap ++ (second' ++ back)))).foldl (feed poly) r) :
    first = first' ∧ second = second' := by
  simp only [List.foldl_append] at h
  set entry := front.foldl (feed poly) r
  have hword := word_of_foldl_feed hpoly hsecond hw' (foldl_feed_injective hpoly back h)
  -- what the first bursts differ by, shifted through the gap, is what the second ones differ by
  have hdifference : (shift poly)^[8 * first.length + 8 * gap.length] (word w first ^^^ word w first') =
      word w second ^^^ word w second' := by
    rw [← xor_eq_xor_of_eq hword, foldl_feed_xor, foldl_feed poly hw, foldl_feed poly (hfirst ▸ hw), ← hfirst,
      ← iterate_shift_xor, BitVec.xor_comm entry, BitVec.xor_comm entry, xor_xor_cancel, ← Function.iterate_add_apply,
      Nat.add_comm]
  have hzero : word w first ^^^ word w first' = 0#w := by
    refine hsep _ (fun i hi => ?_) fun i hi => ?_
    · rw [BitVec.getLsbD_xor, getLsbD_word first hi, getLsbD_word first' (hfirst ▸ hi), Bool.xor_false]
    · rw [hdifference, BitVec.getLsbD_xor, getLsbD_word second hi, getLsbD_word second' (hsecond ▸ hi), Bool.xor_false]
  rw [hzero, Function.iterate_fixed (shift_zero poly)] at hdifference
  exact ⟨word_injective hfirst hw (BitVec.xor_eq_zero_iff.1 hzero),
    word_injective hsecond hw' (BitVec.xor_eq_zero_iff.1 hdifference.symm)⟩

end Gap

section Table

variable {poly}

/-- The entries of a table at the bits that are set, added up. -/
def combine : List (BitVec w) → BitVec w → BitVec w
  | [], _ => 0#w
  | entry :: table, r => (if r.getLsbD 0 = true then entry else 0#w) ^^^ combine table (r >>> 1)

theorem combine_xor (table : List (BitVec w)) (r s : BitVec w) :
    combine table (r ^^^ s) = combine table r ^^^ combine table s := by
  induction table generalizing r s with
  | nil => exact BitVec.xor_zero.symm
  | cons entry table ih =>
    have hentry : (if (r ^^^ s).getLsbD 0 = true then entry else 0#w) =
        (if r.getLsbD 0 = true then entry else 0#w) ^^^ if s.getLsbD 0 = true then entry else 0#w := by
      rw [BitVec.getLsbD_xor]
      cases r.getLsbD 0 <;> cases s.getLsbD 0 <;> simp
    rw [combine, combine, combine, hentry, BitVec.ushiftRight_xor_distrib, ih]
    ac_rfl

theorem combine_zero (table : List (BitVec w)) : combine table 0#w = 0#w := by
  induction table with
  | nil => rfl
  | cons entry table ih => rw [combine, BitVec.getLsbD_zero, if_neg Bool.false_ne_true, BitVec.zero_ushiftRight, ih,
      BitVec.xor_zero]

/-- A linear map that fixes the low bits one by one fixes what is made of them. -/
theorem fixes_of_bits {f : BitVec w → BitVec w} (hf : ∀ r s, f (r ^^^ s) = f r ^^^ f s) {n : ℕ} (hn : n ≤ w)
    (hbits : ∀ i < n, f (BitVec.twoPow w i) = BitVec.twoPow w i) {r : BitVec w}
    (hr : ∀ i, n ≤ i → r.getLsbD i = false) : f r = r := by
  induction n generalizing r with
  | zero =>
    obtain rfl : r = 0#w := BitVec.eq_of_getLsbD_eq fun i _ => by rw [hr i (Nat.zero_le i), BitVec.getLsbD_zero]
    have hzero := hf 0#w 0#w
    rwa [BitVec.xor_zero, BitVec.xor_self] at hzero
  | succ n ih =>
    have hlower := fun {r} => ih (r := r) (Nat.le_of_succ_le hn) fun i hi => hbits i (Nat.lt_succ_of_lt hi)
    rcases Bool.eq_false_or_eq_true (r.getLsbD n) with hset | hclear
    · -- take the highest bit out
      have hrest : f (r ^^^ BitVec.twoPow w n) = r ^^^ BitVec.twoPow w n := by
        refine hlower fun i hi => ?_
        rw [BitVec.getLsbD_xor, BitVec.getLsbD_twoPow]
        rcases Nat.eq_or_lt_of_le hi with rfl | hlt
        · simp [hset, Nat.lt_of_succ_le hn]
        · simp [hr i hlt, Nat.ne_of_lt hlt]
      rw [hf, hbits n (Nat.lt_succ_self n), BitVec.xor_left_inj] at hrest
      exact hrest
    · refine hlower fun i hi => ?_
      rcases Nat.eq_or_lt_of_le hi with rfl | hlt
      · exact hclear
      · exact hr i hlt

/-- A table that undoes the shift on single bits shows that a gap separates. -/
theorem separates_of_table {before gap after : ℕ} (hw : before ≤ w) (table : List (BitVec w))
    (htable : ∀ i < before, combine table ((shift poly)^[before + gap] (BitVec.twoPow w i) >>> after) =
      BitVec.twoPow w i) : Separates poly before gap after := by
  intro r hr hshifted
  have hfixed := fixes_of_bits (f := fun r => combine table ((shift poly)^[before + gap] r >>> after))
    (fun r s => by rw [iterate_shift_xor, BitVec.ushiftRight_xor_distrib, combine_xor]) hw htable hr
  have hclear : (shift poly)^[before + gap] r >>> after = 0#w := by
    refine BitVec.eq_of_getLsbD_eq fun i _ => ?_
    rw [BitVec.getLsbD_ushiftRight, BitVec.getLsbD_zero, hshifted _ (Nat.le_add_right after i)]
  rw [← hfixed]
  change combine table ((shift poly)^[before + gap] r >>> after) = _
  rw [hclear, combine_zero]

end Table

end Crc
