import Mathlib.Data.List.Induction
import Mathlib.Tactic.SplitIfs

/-! Reading an `application/x-www-form-urlencoded` text: pairs at `&`, names and values at
the first `=`, `+` for a blank and `%` before the two hexadecimal digits of a byte. -/

namespace FormUrl

def hexValue (char : UInt8) : Option ℕ :=
  if 48 ≤ char ∧ char ≤ 57 then some (char.toNat - 48)
  else if 65 ≤ char ∧ char ≤ 70 then some (char.toNat - 55)
  else if 97 ≤ char ∧ char ≤ 102 then some (char.toNat - 87)
  else none

def decodeText : List UInt8 → Option (List UInt8)
  | [] => some []
  | char :: rest =>
    if char = 37 then
      match rest with
      | high :: low :: rest => do
        let byte := (← hexValue high) * 16 + (← hexValue low)
        return byte.toUInt8 :: (← decodeText rest)
      | _ => none
    else (decodeText rest).map ((if char = 43 then 32 else char) :: ·)

/-- A pair without `=` has an empty value. -/
def parsePair (part : List UInt8) : Option (List UInt8 × List UInt8) := do
  let name ← decodeText (part.takeWhile (· ≠ 61))
  let value ← decodeText ((part.dropWhile (· ≠ 61)).drop 1)
  return (name, value)

def parse (body : List UInt8) : Option (List (List UInt8 × List UInt8)) :=
  if body = [] then some [] else (body.splitOn 38).mapM parsePair

theorem decodeText_char {char : UInt8} (hescape : char ≠ 37) (hplus : char ≠ 43) (rest : List UInt8) :
    decodeText (char :: rest) = (decodeText rest).map (char :: ·) := by
  simp only [decodeText.eq_def (char :: rest), if_neg hescape, if_neg hplus]

theorem decodeText_plus (rest : List UInt8) : decodeText (43 :: rest) = (decodeText rest).map (32 :: ·) := by
  rw [decodeText.eq_def]
  rfl

theorem decodeText_escape {high low : UInt8} {x y : ℕ} (hhigh : hexValue high = some x) (hlow : hexValue low = some y)
    (rest : List UInt8) :
    decodeText (37 :: high :: low :: rest) = (decodeText rest).map ((x * 16 + y).toUInt8 :: ·) := by
  rw [decodeText.eq_2, if_pos rfl, hhigh, hlow]
  cases decodeText rest <;> rfl

section

variable {encode : List UInt8 → List UInt8} (hdecode : ∀ text, decodeText (encode text) = some text)
  (hclean : ∀ text, 38 ∉ encode text ∧ 61 ∉ encode text)
include hdecode hclean

theorem parsePair_encode (pair : List UInt8 × List UInt8) :
    parsePair (encode pair.1 ++ 61 :: encode pair.2) = some pair := by
  have hname : ∀ char ∈ encode pair.1, decide (char ≠ 61) = true := by
    intro char hchar
    rw [decide_eq_true_iff]
    rintro rfl
    exact (hclean pair.1).2 hchar
  rw [parsePair, List.takeWhile_append_of_pos hname, List.dropWhile_append_of_pos hname,
    List.takeWhile_cons_of_neg (by decide), List.dropWhile_cons_of_neg (by decide), List.append_nil, List.drop_one,
    List.tail_cons, hdecode, hdecode]
  rfl

/-- Pairs whose texts are encoded without separators are read back as they are. -/
theorem parse_intercalate (pairs : List (List UInt8 × List UInt8)) :
    parse (List.intercalate [38] (pairs.map fun pair => encode pair.1 ++ 61 :: encode pair.2)) = some pairs := by
  cases pairs with
  | nil => rfl
  | cons pair pairs =>
    have hne : List.intercalate [38] ((pair :: pairs).map fun pair => encode pair.1 ++ 61 :: encode pair.2) ≠ [] := by
      cases pairs <;> simp [List.intercalate]
    have hmap : ∀ pairs : List (List UInt8 × List UInt8),
        (pairs.map fun pair => encode pair.1 ++ 61 :: encode pair.2).mapM parsePair = some pairs := by
      intro pairs
      induction pairs with
      | nil => rfl
      | cons pair pairs ih =>
        rw [List.map_cons, List.mapM_cons, parsePair_encode hdecode hclean, ih]
        rfl
    rw [parse, if_neg hne, List.splitOn_intercalate 38 _ (by simp), hmap]
    intro part hpart
    obtain ⟨pair, -, rfl⟩ := List.mem_map.1 hpart
    simp [(hclean pair.1).1, (hclean pair.2).1]

end

end FormUrl
