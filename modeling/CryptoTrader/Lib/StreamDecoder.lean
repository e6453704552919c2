import Mathlib.Data.List.Basic

/-! Decoding a stream that arrives in pieces. A decoder looks at what has arrived and
not yet been consumed, and asks for more, fails, or cuts an item off the front. If its
verdicts stand when more input follows, then what it makes of a stream does not depend
on how the stream was cut into pieces. -/

/-- A decoder's verdict on the input it sees. -/
inductive DecodeStep (ε : Type*) where
  | more
  | fail (error : ε)
  | item (length : ℕ)
  deriving DecidableEq

/-- A decoder whose failures and items are final. -/
structure StreamDecoder (α ε : Type*) where
  head : List α → DecodeStep ε
  item_bounds : ∀ {v n}, head v = .item n → 0 < n ∧ n ≤ v.length
  item_append : ∀ {v n} w, head v = .item n → head (v ++ w) = .item n
  fail_append : ∀ {v e} w, head v = .fail e → head (v ++ w) = .fail e

namespace StreamDecoder

variable {α ε : Type*} {D : StreamDecoder α ε} {s v w : List α} {ms ms' : List (List α)}

/-- `Decodes D s ms rest`: the decoder cuts the items `ms` off `s` and `rest` is left. -/
inductive Decodes (D : StreamDecoder α ε) : List α → List (List α) → List α → Prop where
  | nil (s : List α) : Decodes D s [] s
  | cons {s : List α} {n : ℕ} {ms : List (List α)} {rest : List α} (head : D.head s = .item n)
      (tail : Decodes D (s.drop n) ms rest) : Decodes D s (s.take n :: ms) rest

namespace Decodes

variable {rest rest' : List α}

/-- The items and the rest are the stream. -/
theorem flatten (h : Decodes D s ms rest) : ms.flatten ++ rest = s := by
  induction h with
  | nil s => rfl
  | cons head tail ih => rw [List.flatten_cons, List.append_assoc, ih, List.take_append_drop]

/-- More input goes to the rest. -/
theorem append (h : Decodes D s ms rest) (w : List α) : Decodes D (s ++ w) ms (rest ++ w) := by
  induction h with
  | nil s => exact .nil _
  | @cons s n ms rest head tail ih =>
    obtain ⟨-, hle⟩ := D.item_bounds head
    have hstep : Decodes D (s ++ w) ((s ++ w).take n :: ms) (rest ++ w) :=
      .cons (D.item_append w head) (by rwa [List.drop_append_of_le_length hle])
    rwa [List.take_append_of_le_length hle] at hstep

/-- An item at the front of the rest is the next item of the stream. -/
theorem snoc {n : ℕ} (h : Decodes D s ms rest) (hn : D.head rest = .item n) :
    Decodes D s (ms ++ [rest.take n]) (rest.drop n) := by
  induction h with
  | nil s => exact .cons hn (.nil _)
  | cons head tail ih => exact .cons head (ih hn)

/-- Items cut off a stream come first among all that can be cut off it; the others are
those of the rest. -/
theorem exists_rest (h : Decodes D s ms rest) (h' : Decodes D s ms' rest') (hrest' : ∀ n, D.head rest' ≠ .item n) :
    ∃ tail, ms' = ms ++ tail ∧ Decodes D rest tail rest' := by
  induction h generalizing ms' with
  | nil s => exact ⟨ms', rfl, h'⟩
  | cons head tail ih =>
    cases h' with
    | nil => exact absurd head (hrest' _)
    | cons head' tail' =>
      rw [head, DecodeStep.item.injEq] at head'
      subst head'
      obtain ⟨more, rfl, hmore⟩ := ih tail'
      exact ⟨more, rfl, hmore⟩

theorem exists_append (h : Decodes D s ms rest) (h' : Decodes D s ms' rest') (hrest' : ∀ n, D.head rest' ≠ .item n) :
    ∃ tail, ms' = ms ++ tail := by
  obtain ⟨tail, htail, -⟩ := h.exists_rest h' hrest'
  exact ⟨tail, htail⟩

/-- When no further item can be cut off, the stream alone determines what was. -/
theorem unique (h : Decodes D s ms rest) (h' : Decodes D s ms' rest') (hrest : ∀ n, D.head rest ≠ .item n)
    (hrest' : ∀ n, D.head rest' ≠ .item n) : ms = ms' ∧ rest = rest' := by
  obtain ⟨tail, rfl, htail⟩ := h.exists_rest h' hrest'
  cases htail with
  | nil => exact ⟨(List.append_nil ms).symm, rfl⟩
  | cons head _ => exact absurd head (hrest _)

end Decodes

end StreamDecoder
