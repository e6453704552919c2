import Mathlib.Data.List.DropRight
import Mathlib.Data.List.Induction
import Mathlib.Tactic.SplitIfs

/-! Base64 with padding. The decoder takes a padding character for a zero, as block decoders
do, so that the text of some data decodes to the data and as many zero bytes as the text has
padding. -/

namespace Base64

def pad : UInt8 := 61

/-- The character of six bits. -/
def digit (n : ℕ) : UInt8 :=
  if n < 26 then (65 + n).toUInt8
  else if n < 52 then (71 + n).toUInt8
  else if n < 62 then (n - 4).toUInt8
  else if n = 62 then 43
  else 47

def charValue (char : UInt8) : Option ℕ :=
  if 65 ≤ char ∧ char ≤ 90 then some (char.toNat - 65)
  else if 97 ≤ char ∧ char ≤ 122 then some (char.toNat - 71)
  else if 48 ≤ char ∧ char ≤ 57 then some (char.toNat + 4)
  else if char = 43 then some 62
  else if char = 47 then some 63
  else if char = pad then some 0
  else none

def encode : List UInt8 → List UInt8
  | [] => []
  | [a] => [digit (a.toNat / 4), digit (a.toNat % 4 * 16), pad, pad]
  | [a, b] => [digit (a.toNat / 4), digit (a.toNat % 4 * 16 + b.toNat / 16), digit (b.toNat % 16 * 4), pad]
  | a :: b :: c :: rest =>
    digit (a.toNat / 4) :: digit (a.toNat % 4 * 16 + b.toNat / 16) :: digit (b.toNat % 16 * 4 + c.toNat / 64) ::
      digit (c.toNat % 64) :: encode rest

/-- The three bytes of four times six bits. -/
def groupBytes (a b c d : ℕ) : List UInt8 :=
  [(a * 4 + b / 16).toUInt8, (b % 16 * 16 + c / 4).toUInt8, (c % 4 * 64 + d).toUInt8]

/-- Three bytes for every four characters. -/
def decodeBlock : List UInt8 → Option (List UInt8)
  | [] => some []
  | a :: b :: c :: d :: rest => do
    let group := groupBytes (← charValue a) (← charValue b) (← charValue c) (← charValue d)
    return group ++ (← decodeBlock rest)
  | _ => none

/-- How many padding characters the text of some data ends with. -/
def padding (data : List UInt8) : ℕ := (3 - data.length % 3) % 3

theorem digit_facts : ∀ n : Fin 64, charValue (digit n) = some n.val ∧ pad ≠ digit n := by
  decide

theorem charValue_digit {n : ℕ} (h : n < 64) : charValue (digit n) = some n := (digit_facts ⟨n, h⟩).1

theorem pad_ne_digit {n : ℕ} (h : n < 64) : pad ≠ digit n := (digit_facts ⟨n, h⟩).2

theorem toUInt8_of_eq {n : ℕ} (byte : UInt8) (h : n = byte.toNat) : n.toUInt8 = byte := by
  rw [h]
  exact UInt8.ofNat_toNat

theorem groupBytes_split (a b c : UInt8) :
    groupBytes (a.toNat / 4) (a.toNat % 4 * 16 + b.toNat / 16) (b.toNat % 16 * 4 + c.toNat / 64) (c.toNat % 64) =
      [a, b, c] := by
  have ha := a.toNat_lt
  have hb := b.toNat_lt
  have hc := c.toNat_lt
  rw [groupBytes, toUInt8_of_eq a (by omega), toUInt8_of_eq b (by omega), toUInt8_of_eq c (by omega)]

theorem padding_add_three (a b c : UInt8) (rest : List UInt8) : padding (a :: b :: c :: rest) = padding rest := by
  simp only [padding, List.length_cons]
  omega

/-- The text of some data decodes to the data and a zero for every padding character. -/
theorem decodeBlock_encode (data : List UInt8) :
    decodeBlock (encode data) = some (data ++ List.replicate (padding data) 0) := by
  induction data using encode.induct with
  | case1 => rfl
  | case2 a =>
    have ha := a.toNat_lt
    have hgroup : groupBytes (a.toNat / 4) (a.toNat % 4 * 16) 0 0 = [a, 0, 0] := by
      simpa using groupBytes_split a 0 0
    rw [encode, decodeBlock, charValue_digit (by omega), charValue_digit (by omega)]
    exact congrArg some hgroup
  | case3 a b =>
    have ha := a.toNat_lt
    have hb := b.toNat_lt
    have hgroup : groupBytes (a.toNat / 4) (a.toNat % 4 * 16 + b.toNat / 16) (b.toNat % 16 * 4) 0 = [a, b, 0] := by
      simpa using groupBytes_split a b 0
    rw [encode, decodeBlock, charValue_digit (by omega), charValue_digit (by omega), charValue_digit (by omega)]
    exact congrArg some hgroup
  | case4 a b c rest ih =>
    have ha := a.toNat_lt
    have hb := b.toNat_lt
    have hc := c.toNat_lt
    rw [encode, decodeBlock, charValue_digit (by omega), charValue_digit (by omega), charValue_digit (by omega),
      charValue_digit (by omega), ih, padding_add_three]
    exact congrArg (fun group => some (group ++ (rest ++ List.replicate (padding rest) 0))) (groupBytes_split a b c)

/-- A text ends with its padding, and has none elsewhere. -/
theorem encode_eq_digits_append (data : List UInt8) :
    ∃ digits, encode data = digits ++ List.replicate (padding data) pad ∧ pad ∉ digits := by
  induction data using encode.induct with
  | case1 => exact ⟨[], rfl, by simp⟩
  | case2 a =>
    have ha := a.toNat_lt
    refine ⟨[digit (a.toNat / 4), digit (a.toNat % 4 * 16)], rfl, ?_⟩
    simp only [List.mem_cons, List.not_mem_nil, or_false, not_or]
    exact ⟨pad_ne_digit (by omega), pad_ne_digit (by omega)⟩
  | case3 a b =>
    have ha := a.toNat_lt
    have hb := b.toNat_lt
    refine ⟨[digit (a.toNat / 4), digit (a.toNat % 4 * 16 + b.toNat / 16), digit (b.toNat % 16 * 4)], rfl, ?_⟩
    simp only [List.mem_cons, List.not_mem_nil, or_false, not_or]
    exact ⟨pad_ne_digit (by omega), pad_ne_digit (by omega), pad_ne_digit (by omega)⟩
  | case4 a b c rest ih =>
    obtain ⟨digits, hdigits, hpad⟩ := ih
    have ha := a.toNat_lt
    have hb := b.toNat_lt
    have hc := c.toNat_lt
    refine ⟨digit (a.toNat / 4) :: digit (a.toNat % 4 * 16 + b.toNat / 16) ::
      digit (b.toNat % 16 * 4 + c.toNat / 64) :: digit (c.toNat % 64) :: digits, ?_, ?_⟩
    · rw [encode, hdigits, padding_add_three]
      rfl
    · simp only [List.mem_cons, not_or]
      exact ⟨pad_ne_digit (by omega), pad_ne_digit (by omega), pad_ne_digit (by omega), pad_ne_digit (by omega), hpad⟩

theorem length_rtakeWhile_encode (data : List UInt8) :
    ((encode data).rtakeWhile (· = pad)).length = padding data := by
  obtain ⟨digits, hdigits, hpad⟩ := encode_eq_digits_append data
  have hnone : digits.reverse.takeWhile (· = pad) = [] := by
    rw [List.takeWhile_eq_nil_iff]
    intro hpos
    rw [decide_eq_true_iff]
    intro heq
    exact hpad (heq ▸ List.mem_reverse.1 (List.getElem_mem hpos))
  rw [hdigits, List.rtakeWhile, List.reverse_append, List.reverse_replicate,
    List.takeWhile_append_of_pos (by simp), hnone]
  simp

/-- What decodes is made of groups of four characters of the alphabet. -/
theorem decodeBlock_wellFormed {text data : List UInt8} (h : decodeBlock text = some data) :
    text.length % 4 = 0 ∧ data.length = text.length / 4 * 3 ∧ ∀ char ∈ text, (charValue char).isSome = true := by
  induction text using decodeBlock.induct generalizing data with
  | case1 =>
    cases h
    simp
  | case2 a b c d rest ih =>
    simp only [decodeBlock, Option.bind_eq_bind, Option.bind_eq_some_iff] at h
    obtain ⟨x, hx, y, hy, z, hz, w, hw, tail, htail, hdata⟩ := h
    obtain ⟨hgroups, hlength, hchars⟩ := ih htail
    cases hdata
    refine ⟨?_, ?_, ?_⟩
    · simp only [List.length_cons]
      omega
    · simp only [groupBytes, List.length_append, List.length_cons, List.length_nil, hlength]
      omega
    · simpa [hx, hy, hz, hw] using hchars
  | case3 text hnil hgroup =>
    rw [decodeBlock] at h
    · cases h
    · exact hnil
    · exact hgroup

theorem length_encode (data : List UInt8) : (encode data).length % 4 = 0 :=
  (decodeBlock_wellFormed (decodeBlock_encode data)).1

theorem charValue_of_mem_encode {data : List UInt8} {char : UInt8} (h : char ∈ encode data) :
    (charValue char).isSome = true :=
  (decodeBlock_wellFormed (decodeBlock_encode data)).2.2 char h

theorem encode_eq_nil {data : List UInt8} : encode data = [] ↔ data = [] := by
  refine ⟨fun h => ?_, fun h => by rw [h, encode]⟩
  have hdecode := decodeBlock_encode data
  rw [h] at hdecode
  exact (List.append_eq_nil_iff.1 (Option.some.inj hdecode).symm).1

end Base64
