import CryptoTrader.Proofs.FramerChunks
import CryptoTrader.Sanity.Decimal

/-! The framer holds no more than one message. It waits only while the bytes it holds are
fewer than the message they announce, a BodyLength has ten digits at most, and a longer
body than the limit is refused as soon as its digits say so. -/

namespace CryptoTrader.Fix

/-- The values of `body_length` in the loop over the digits, the refused one included. -/
def lengthValues (maxBodyLength : ℕ) : ℕ → ℕ → Bytes → List ℕ
  | _, _, [] => []
  | digits, bodyLength, byte :: rest =>
    if byte = kSoh then []
    else if ¬ isDigit byte ∨ kMaxBodyLengthDigits ≤ digits then []
    else if maxBodyLength < bodyLength * 10 + digitValue byte then [bodyLength * 10 + digitValue byte]
    else
      (bodyLength * 10 + digitValue byte) ::
        lengthValues maxBodyLength (digits + 1) (bodyLength * 10 + digitValue byte) rest

/-- `body_start + body_length + kCheckSumFieldSize`. -/
def messageLength (digits bodyLength : ℕ) : ℕ := digitsStart + digits + 1 + bodyLength + kCheckSumFieldSize

section Length

variable {maxBodyLength digits bodyLength : ℕ} {v : Bytes}

/-- One more digit. -/
theorem accumulate_lt {byte : UInt8} (h : isDigit byte = true) (hvalue : bodyLength < 10 ^ digits) :
    bodyLength * 10 + digitValue byte < 10 ^ (digits + 1) := by
  have hdigit := digitValue_lt h
  rw [Nat.pow_succ]
  omega

theorem scanBodyLength_waiting (h : scanBodyLength maxBodyLength digits bodyLength v = .waiting)
    (hdigits : digits ≤ kMaxBodyLengthDigits) : digits + v.length ≤ kMaxBodyLengthDigits := by
  induction v generalizing digits bodyLength with
  | nil => exact hdigits
  | cons byte v ih =>
    rw [scanBodyLength] at h
    split_ifs at h with hsoh hbad hlong
    have hrest := ih h (Nat.lt_of_not_le fun hle => hbad (.inr hle))
    rw [List.length_cons]
    omega

/-- A BodyLength that was read has at most ten digits and is within the limit. -/
theorem scanBodyLength_done {digits' bodyLength' : ℕ}
    (h : scanBodyLength maxBodyLength digits bodyLength v = .done digits' bodyLength')
    (hdigits : digits ≤ kMaxBodyLengthDigits) (hmax : bodyLength ≤ maxBodyLength) (hvalue : bodyLength < 10 ^ digits) :
    digits' ≤ kMaxBodyLengthDigits ∧ bodyLength' ≤ maxBodyLength ∧ bodyLength' < 10 ^ kMaxBodyLengthDigits := by
  induction v generalizing digits bodyLength with
  | nil => cases h
  | cons byte v ih =>
    rw [scanBodyLength] at h
    split_ifs at h with hsoh hbad hlong
    · cases h
      exact ⟨hdigits, hmax, hvalue.trans_le (Nat.pow_le_pow_right (by decide) hdigits)⟩
    · have hdigit : isDigit byte = true := not_not.1 fun hnot => hbad (.inl hnot)
      exact ih h (Nat.lt_of_not_le fun hle => hbad (.inr hle)) (Nat.le_of_not_lt hlong) (accumulate_lt hdigit hvalue)

/-- No value of the loop has more than ten digits. -/
theorem lengthValues_lt (hvalue : bodyLength < 10 ^ digits) :
    ∀ value ∈ lengthValues maxBodyLength digits bodyLength v, value < 10 ^ kMaxBodyLengthDigits := by
  induction v generalizing digits bodyLength with
  | nil => simp [lengthValues]
  | cons byte v ih =>
    rw [lengthValues]
    split_ifs with hsoh hbad hlong
    · simp
    · simp
    all_goals
      have hdigit : isDigit byte = true := not_not.1 fun hnot => hbad (.inl hnot)
      have hdigits : digits + 1 ≤ kMaxBodyLengthDigits := Nat.lt_of_not_le fun hle => hbad (.inr hle)
      have hnext := accumulate_lt hdigit hvalue
      have hlt := hnext.trans_le (Nat.pow_le_pow_right (by decide) hdigits)
    · simpa using hlt
    · exact List.forall_mem_cons.2 ⟨hlt, ih hnext⟩

end Length

section Head

variable {maxBodyLength : ℕ} {v : Bytes}

/-- What the head of a buffer is, once its BodyLength has been read. -/
theorem checkTrailer_more {digits bodyLength : ℕ} (h : checkTrailer v digits bodyLength = .more) :
    v.length < messageLength digits bodyLength := by
  unfold checkTrailer at h
  simp only at h
  split_ifs at h with hd hlen
  exact hlen

theorem checkTrailer_item_eq {digits bodyLength n : ℕ} (h : checkTrailer v digits bodyLength = .item n) :
    n = messageLength digits bodyLength := by
  unfold checkTrailer at h
  simp only at h
  split_ifs at h with hd hlen hend
  cases h
  rfl

theorem messageLength_le {digits bodyLength : ℕ} (hdigits : digits ≤ kMaxBodyLengthDigits)
    (hmax : bodyLength ≤ maxBodyLength) : messageLength digits bodyLength ≤ maxBodyLength + 30 := by
  have hstart : digitsStart = 12 := rfl
  have hcheck : kCheckSumFieldSize = 7 := rfl
  have hcap : kMaxBodyLengthDigits = 10 := rfl
  rw [messageLength]
  omega

/-- The framer waits for less than a longest message. -/
theorem frameHead_more (h : frameHead maxBodyLength v = .more) : v.length < maxBodyLength + 30 := by
  have hstart : digitsStart = 12 := rfl
  have hcap : kMaxBodyLengthDigits = 10 := rfl
  unfold frameHead at h
  simp only at h
  split_ifs at h with hempty hsync hshort htag
  · rw [hempty, List.length_nil]
    omega
  · omega
  · cases hscan : scanBodyLength maxBodyLength 0 0 (v.drop digitsStart) with
    | waiting =>
      have hle := scanBodyLength_waiting hscan (Nat.zero_le _)
      rw [List.length_drop] at hle
      omega
    | bad reason =>
      rw [hscan] at h
      cases h
    | done digits bodyLength =>
      rw [hscan] at h
      obtain ⟨hdigits, hmax, -⟩ := scanBodyLength_done hscan (Nat.zero_le _) (Nat.zero_le _) (by decide)
      exact (checkTrailer_more h).trans_le (messageLength_le hdigits hmax)

theorem frameHead_item_le {n : ℕ} (h : frameHead maxBodyLength v = .item n) : n ≤ maxBodyLength + 30 := by
  unfold frameHead at h
  simp only at h
  split_ifs at h with hempty hsync hshort htag
  cases hscan : scanBodyLength maxBodyLength 0 0 (v.drop digitsStart) with
  | waiting =>
    rw [hscan] at h
    cases h
  | bad reason =>
    rw [hscan] at h
    cases h
  | done digits bodyLength =>
    rw [hscan] at h
    obtain ⟨hdigits, hmax, -⟩ := scanBodyLength_done hscan (Nat.zero_le _) (Nat.zero_le _) (by decide)
    rw [checkTrailer_item_eq h]
    exact messageLength_le hdigits hmax

end Head

section Run

variable {maxBodyLength : ℕ}

/-- What one `NextMessage` returns is at the head of the bytes it holds. -/
theorem nextMessage_length {f : Framer} {message : Bytes} (h : f.nextMessage.2 = some message) :
    message.length ≤ f.maxBodyLength + 30 := by
  unfold Framer.nextMessage at h
  split_ifs at h
  cases hhead : frameHead f.maxBodyLength f.view with
  | more =>
    rw [hhead] at h
    cases h
  | fail reason =>
    rw [hhead] at h
    cases h
  | item total =>
    rw [hhead] at h
    cases h
    exact (List.length_take_le total _).trans (frameHead_item_le hhead)

/-- The bytes consumed are in the buffer. -/
theorem consumed_append {f : Framer} (h : f.consumed ≤ f.buffer.length) (bytes : Bytes) :
    (f.append bytes).consumed ≤ (f.append bytes).buffer.length := by
  unfold Framer.append Framer.compact
  split_ifs
  · exact h.trans (by simp)
  · exact Nat.zero_le _

theorem consumed_nextMessage {f : Framer} (h : f.consumed ≤ f.buffer.length) :
    f.nextMessage.1.consumed ≤ f.nextMessage.1.buffer.length := by
  unfold Framer.nextMessage
  split_ifs
  · cases hhead : frameHead f.maxBodyLength f.view with
    | more => exact h
    | fail reason =>
      unfold Framer.deliver Framer.fail
      split_ifs <;> exact h
    | item total =>
      have hle := (frameHead_item hhead).2
      rw [Framer.view, List.length_drop] at hle
      change f.consumed + total ≤ f.buffer.length
      omega
  · exact h

theorem consumed_run {f : Framer} (h : f.consumed ≤ f.buffer.length) (calls : List FramerCall) :
    (f.run calls).1.consumed ≤ (f.run calls).1.buffer.length := by
  induction calls generalizing f with
  | nil => exact h
  | cons call calls ih =>
    cases call with
    | append bytes => exact ih (consumed_append h bytes)
    | nextMessage => exact ih (consumed_nextMessage h)

theorem Tracks.messages_length {stream : Bytes} {messages : List Bytes} {f : Framer}
    (h : Tracks maxBodyLength stream messages f) (calls : List FramerCall) :
    ∀ message ∈ (f.run calls).2, message.length ≤ maxBodyLength + 30 := by
  induction calls generalizing f stream messages with
  | nil => simp [Framer.run]
  | cons call calls ih =>
    cases call with
    | append bytes => exact ih (h.append bytes)
    | nextMessage =>
      rcases h.nextMessage with ⟨message, hsome, -, -, hnext⟩ | ⟨hnone, hnext, -⟩
      · have hlength := nextMessage_length hsome
        rw [h.maxBodyLength_eq] at hlength
        change ∀ message ∈ f.nextMessage.2.toList ++ (f.nextMessage.1.run calls).2, _
        rw [hsome]
        exact List.forall_mem_cons.2 ⟨hlength, ih hnext⟩
      · change ∀ message ∈ f.nextMessage.2.toList ++ (f.nextMessage.1.run calls).2, _
        rw [hnone]
        exact ih hnext

end Run

/-- On any stream in any chunks: a framer that waits holds less than one longest message,
no message is longer, no length it computes leaves 64 bits, and it never consumes more
than it holds. -/
theorem framer_buffer_bounded (maxBodyLength : ℕ) (calls : List FramerCall) :
    let f := ((Framer.init maxBodyLength).run calls).1
    (f.nextMessage.2 = none → f.nextMessage.1.good = true → f.nextMessage.1.bufferedBytes < maxBodyLength + 30) ∧
    (∀ message ∈ ((Framer.init maxBodyLength).run calls).2, message.length ≤ maxBodyLength + 30) ∧
    (∀ value ∈ lengthValues maxBodyLength 0 0 (f.view.drop digitsStart), value < 2 ^ 64) ∧
    (∀ digits bodyLength, scanBodyLength maxBodyLength 0 0 (f.view.drop digitsStart) = .done digits bodyLength →
      messageLength digits bodyLength < 2 ^ 64) ∧
    f.consumed ≤ f.buffer.length := by
  intro f
  have htracks : Tracks maxBodyLength _ _ f := Tracks.run_init maxBodyLength calls
  have hstart : (0 : ℕ) < 10 ^ 0 := by decide
  refine ⟨fun hnone hgood => ?_, (Tracks.init maxBodyLength).messages_length calls, fun value hvalue => ?_,
    fun digits bodyLength hscan => ?_, consumed_run (Nat.zero_le _) calls⟩
  · rcases htracks.nextMessage with ⟨message, hsome, -⟩ | ⟨-, -, hsettled⟩
    · rw [hnone] at hsome
      cases hsome
    · rcases hsettled with ⟨-, hmore⟩ | ⟨hbad, -⟩
      · have hlt := frameHead_more hmore
        rwa [Framer.view, List.length_drop] at hlt
      · rw [Framer.good, decide_eq_true_eq] at hgood
        exact absurd hgood hbad
  · exact (lengthValues_lt hstart value hvalue).trans (by decide)
  · obtain ⟨hdigits, -, hvalue⟩ := scanBodyLength_done hscan (Nat.zero_le _) (Nat.zero_le _) hstart
    have hlength := messageLength_le hdigits (Nat.le_refl bodyLength)
    have hcap : (10 : ℕ) ^ kMaxBodyLengthDigits = 10000000000 := rfl
    omega

end CryptoTrader.Fix
