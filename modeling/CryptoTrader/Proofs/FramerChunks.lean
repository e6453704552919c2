import CryptoTrader.Spec.Framer
import Mathlib.Tactic.Common

/-! The framer does not depend on how the bytes arrive. Its verdict on the bytes it
holds stands once it is not "wait": so it is a stream decoder, and a run of calls that
ends drained has returned exactly what the whole stream determines. -/

namespace CryptoTrader.Fix

/-- A BodyLength that has been read or refused stays so. -/
theorem scanBodyLength_append {maxBodyLength digits bodyLength : ℕ} {v : Bytes} (w : Bytes)
    (h : scanBodyLength maxBodyLength digits bodyLength v ≠ .waiting) :
    scanBodyLength maxBodyLength digits bodyLength (v ++ w) = scanBodyLength maxBodyLength digits bodyLength v := by
  induction v generalizing digits bodyLength with
  | nil => exact absurd rfl h
  | cons byte v ih =>
    simp only [List.cons_append, scanBodyLength] at h ⊢
    split_ifs at h ⊢
    · rfl
    · rfl
    · rfl
    · exact ih h

theorem checkTrailer_append {v : Bytes} {digits bodyLength : ℕ} (w : Bytes)
    (h : checkTrailer v digits bodyLength ≠ .more) :
    checkTrailer (v ++ w) digits bodyLength = checkTrailer v digits bodyLength := by
  unfold checkTrailer at h ⊢
  by_cases hd : digits = 0
  · rw [if_pos hd, if_pos hd]
  · rw [if_neg hd] at h
    rw [if_neg hd, if_neg hd]
    simp only at h ⊢
    set start := digitsStart + digits + 1 with hstart
    have hlen : start + bodyLength + kCheckSumFieldSize ≤ v.length := by
      by_contra hlt
      rw [if_pos (Nat.lt_of_not_le hlt)] at h
      exact h rfl
    have hsize : kCheckSumFieldSize = 7 := rfl
    have htext : ((v ++ w).drop (start + bodyLength)).take 3 = (v.drop (start + bodyLength)).take 3 := by
      rw [List.drop_append_of_le_length (by omega), List.take_append_of_le_length (by rw [List.length_drop]; omega)]
    have hlast : (v ++ w)[start + bodyLength + kCheckSumFieldSize - 1]? =
        v[start + bodyLength + kCheckSumFieldSize - 1]? := List.getElem?_append_left (by omega)
    rw [htext, hlast, if_neg (by rw [List.length_append]; omega), if_neg (Nat.not_lt.2 hlen)]

/-- More bytes do not change a verdict, only the wait for one. -/
theorem frameHead_append {maxBodyLength : ℕ} {v : Bytes} (w : Bytes) (h : frameHead maxBodyLength v ≠ .more) :
    frameHead maxBodyLength (v ++ w) = frameHead maxBodyLength v := by
  have hne : v ≠ [] := fun hv => h (by rw [frameHead, if_pos hv])
  have hne' : v ++ w ≠ [] := by simp [hne]
  have hstart : digitsStart = beginStringPrefix.length + 2 := rfl
  unfold frameHead at h ⊢
  rw [if_neg hne] at h
  rw [if_neg hne, if_neg hne']
  simp only at h ⊢
  by_cases hsync : v.take (min v.length beginStringPrefix.length) =
      beginStringPrefix.take (min v.length beginStringPrefix.length)
  · rw [if_neg (not_not.2 hsync)] at h
    rw [if_neg (not_not.2 hsync)]
    have hlen : digitsStart ≤ v.length := by
      by_contra hlt
      rw [if_pos (Nat.lt_of_not_le hlt)] at h
      exact h rfl
    have hsync' : (v ++ w).take (min (v ++ w).length beginStringPrefix.length) =
        beginStringPrefix.take (min (v ++ w).length beginStringPrefix.length) := by
      rw [Nat.min_eq_right (by omega)] at hsync
      rw [Nat.min_eq_right (by rw [List.length_append]; omega), List.take_append_of_le_length (by omega), hsync]
    have htag : ((v ++ w).drop beginStringPrefix.length).take 2 = (v.drop beginStringPrefix.length).take 2 := by
      rw [List.drop_append_of_le_length (by omega), List.take_append_of_le_length (by rw [List.length_drop]; omega)]
    rw [if_neg (Nat.not_lt.2 hlen)] at h
    rw [if_neg (not_not.2 hsync'), if_neg (by rw [List.length_append]; omega), if_neg (Nat.not_lt.2 hlen), htag,
      List.drop_append_of_le_length hlen]
    split_ifs at h ⊢ with hbody
    · rfl
    · have hscan : scanBodyLength maxBodyLength 0 0 (v.drop digitsStart) ≠ .waiting := by
        intro hw
        rw [hw] at h
        exact h rfl
      rw [scanBodyLength_append w hscan]
      cases hres : scanBodyLength maxBodyLength 0 0 (v.drop digitsStart) with
      | waiting => exact absurd hres hscan
      | bad reason => rfl
      | done digits bodyLength =>
        rw [hres] at h
        exact checkTrailer_append w h
  · rw [if_pos hsync, if_pos]
    -- a mismatch within the bytes that are there is one within more bytes
    intro hsync'
    apply hsync
    have hcut := congrArg (List.take (min v.length beginStringPrefix.length)) hsync'
    rwa [List.take_take, List.take_take, List.length_append, Nat.min_eq_left (by omega),
      List.take_append_of_le_length (by omega)] at hcut

theorem checkTrailer_item {v : Bytes} {digits bodyLength n : ℕ} (h : checkTrailer v digits bodyLength = .item n) :
    0 < n ∧ n ≤ v.length := by
  unfold checkTrailer at h
  simp only at h
  split_ifs at h with hd hlen
  cases h
  have hsize : kCheckSumFieldSize = 7 := rfl
  omega

theorem frameHead_item {maxBodyLength n : ℕ} {v : Bytes} (h : frameHead maxBodyLength v = .item n) :
    0 < n ∧ n ≤ v.length := by
  unfold frameHead at h
  simp only at h
  split_ifs at h
  split at h
  · cases h
  · cases h
  · exact checkTrailer_item h

/-- The framer as a stream decoder. -/
def framing (maxBodyLength : ℕ) : StreamDecoder UInt8 String where
  head := frameHead maxBodyLength
  item_bounds := frameHead_item
  item_append w h := (frameHead_append w (by rw [h]; simp)).trans h
  fail_append w h := (frameHead_append w (by rw [h]; simp)).trans h

theorem scanBodyLength_bad {maxBodyLength digits bodyLength : ℕ} {v : Bytes} {reason : String}
    (h : scanBodyLength maxBodyLength digits bodyLength v = .bad reason) : reason ≠ "" := by
  induction v generalizing digits bodyLength with
  | nil => cases h
  | cons byte v ih =>
    simp only [scanBodyLength] at h
    split_ifs at h
    · cases h; decide
    · cases h; decide
    · exact ih h

/-- Every failure has a text, so a failed framer is not Good. -/
theorem frameHead_fail {maxBodyLength : ℕ} {v : Bytes} {reason : String}
    (h : frameHead maxBodyLength v = .fail reason) : reason ≠ "" := by
  unfold frameHead checkTrailer at h
  simp only at h
  split_ifs at h
  · cases h; decide
  · cases h; decide
  · split at h
    · cases h
    · rename_i hscan
      cases h
      exact scanBodyLength_bad hscan
    · split_ifs at h <;> cases h <;> decide

/-- `f` has been fed the bytes `stream` and has returned `messages`. -/
structure Tracks (maxBodyLength : ℕ) (stream : Bytes) (messages : List Bytes) (f : Framer) : Prop where
  maxBodyLength_eq : f.maxBodyLength = maxBodyLength
  decodes : (framing maxBodyLength).Decodes stream messages f.view
  error : f.error = "" ∨ frameHead maxBodyLength f.view = .fail f.error

/-- No message is left: the framer waits, or it has the error its bytes determine. -/
def Settled (maxBodyLength : ℕ) (f : Framer) : Prop :=
  f.error = "" ∧ frameHead maxBodyLength f.view = .more ∨
    f.error ≠ "" ∧ frameHead maxBodyLength f.view = .fail f.error

theorem Settled.not_item {maxBodyLength : ℕ} {f : Framer} (h : Settled maxBodyLength f) (n : ℕ) :
    frameHead maxBodyLength f.view ≠ .item n := by
  rcases h with ⟨-, hv⟩ | ⟨-, hv⟩ <;> rw [hv] <;> simp

/-- A framer with no message left returns none, and nothing changes. -/
theorem Settled.nextMessage_eq {maxBodyLength : ℕ} {f : Framer} (h : Settled maxBodyLength f)
    (hmax : f.maxBodyLength = maxBodyLength) : f.nextMessage = (f, none) := by
  rcases h with ⟨hgood, hhead⟩ | ⟨hbad, -⟩
  · simp only [Framer.nextMessage, Framer.good, hgood, decide_true, if_true, hmax, hhead, Framer.deliver]
  · simp [Framer.nextMessage, Framer.good, hbad]

theorem Settled.run_eq {maxBodyLength : ℕ} {f : Framer} (h : Settled maxBodyLength f)
    (hmax : f.maxBodyLength = maxBodyLength) (n : ℕ) : f.run (List.replicate n .nextMessage) = (f, []) := by
  induction n with
  | zero => rfl
  | succ n ih => simp only [List.replicate_succ, Framer.run, h.nextMessage_eq hmax, ih, Option.toList_none,
      List.nil_append]

namespace Tracks

variable {maxBodyLength : ℕ} {stream : Bytes} {messages : List Bytes} {f : Framer}

theorem view_append (f : Framer) (bytes : Bytes) : (f.append bytes).view = f.view ++ bytes := by
  unfold Framer.append Framer.compact Framer.view
  split_ifs with h
  · simp only [h, List.drop_zero]
  · rfl

theorem append (h : Tracks maxBodyLength stream messages f) (bytes : Bytes) :
    Tracks maxBodyLength (stream ++ bytes) messages (f.append bytes) := by
  have hmax : (f.append bytes).maxBodyLength = f.maxBodyLength := by
    unfold Framer.append Framer.compact
    split_ifs <;> rfl
  have herror : (f.append bytes).error = f.error := by
    unfold Framer.append Framer.compact
    split_ifs <;> rfl
  refine ⟨hmax.trans h.maxBodyLength_eq, ?_, ?_⟩
  · rw [view_append]
    exact h.decodes.append bytes
  · rw [view_append, herror]
    exact h.error.imp_right fun he => (framing maxBodyLength).fail_append bytes he

/-- What one `NextMessage` does: it returns the item at the front of the view, or it
leaves the view as it is with no message left in it. -/
theorem nextMessage (h : Tracks maxBodyLength stream messages f) :
    (∃ message, f.nextMessage.2 = some message ∧ message ≠ [] ∧ f.view = message ++ f.nextMessage.1.view ∧
      Tracks maxBodyLength stream (messages ++ [message]) f.nextMessage.1) ∨
    (f.nextMessage.2 = none ∧ Tracks maxBodyLength stream messages f.nextMessage.1 ∧
      Settled maxBodyLength f.nextMessage.1) := by
  by_cases hgood : f.error = ""
  · have hstep : f.nextMessage = f.deliver (frameHead maxBodyLength f.view) := by
      simp only [Framer.nextMessage, Framer.good, hgood, decide_true, if_true, h.maxBodyLength_eq]
    cases hhead : frameHead maxBodyLength f.view with
    | more =>
      rw [hstep, hhead, Framer.deliver]
      exact Or.inr ⟨rfl, h, Or.inl ⟨hgood, hhead⟩⟩
    | fail reason =>
      rw [hstep, hhead, Framer.deliver, Framer.fail, if_pos hgood]
      exact Or.inr ⟨rfl, ⟨h.maxBodyLength_eq, h.decodes, Or.inr hhead⟩, Or.inr ⟨frameHead_fail hhead, hhead⟩⟩
    | item total =>
      rw [hstep, hhead, Framer.deliver]
      obtain ⟨hpos, hle⟩ := frameHead_item hhead
      have hview : f.buffer.drop (f.consumed + total) = f.view.drop total := (List.drop_drop).symm
      refine Or.inl ⟨f.view.take total, rfl, ?_, ?_, ⟨h.maxBodyLength_eq, ?_, Or.inl hgood⟩⟩
      · intro hnil
        have hlen := congrArg List.length hnil
        rw [List.length_take, List.length_nil] at hlen
        omega
      · change f.view = f.view.take total ++ f.buffer.drop (f.consumed + total)
        rw [hview, List.take_append_drop]
      · change (framing maxBodyLength).Decodes stream _ (f.buffer.drop (f.consumed + total))
        rw [hview]
        exact h.decodes.snoc hhead
  · have hstep : f.nextMessage = (f, none) := by simp [Framer.nextMessage, Framer.good, hgood]
    rw [hstep]
    exact Or.inr ⟨rfl, h, Or.inr ⟨hgood, h.error.resolve_left hgood⟩⟩

theorem run (h : Tracks maxBodyLength stream messages f) (calls : List FramerCall) :
    Tracks maxBodyLength (stream ++ appended calls) (messages ++ (f.run calls).2) (f.run calls).1 := by
  induction calls generalizing f stream messages with
  | nil => simpa only [appended, Framer.run, List.append_nil] using h
  | cons call calls ih =>
    cases call with
    | append bytes =>
      have hnext := ih (h.append bytes)
      rwa [List.append_assoc] at hnext
    | nextMessage =>
      rcases h.nextMessage with ⟨message, hsome, -, -, hnext⟩ | ⟨hnone, hnext, -⟩
      · simpa only [appended, Framer.run, hsome, Option.toList_some, List.append_assoc] using ih hnext
      · simpa only [appended, Framer.run, hnone, Option.toList_none, List.nil_append] using ih hnext

/-- A message takes bytes from the view, so a call for each byte leaves no message. -/
theorem nextMessage_none (h : Tracks maxBodyLength stream messages f) {n : ℕ} (hlen : f.view.length ≤ n) :
    (f.run (List.replicate n .nextMessage)).1.nextMessage.2 = none := by
  induction n generalizing f messages with
  | zero =>
    have hview := List.length_eq_zero_iff.1 (Nat.le_zero.1 hlen)
    rcases h.nextMessage with ⟨message, -, hne, hsplit, -⟩ | ⟨hnone, -⟩
    · have hempty : message ++ _ = [] := hsplit.symm.trans hview
      exact absurd (List.append_eq_nil_iff.1 hempty).1 hne
    · exact hnone
  | succ n ih =>
    rw [List.replicate_succ]
    rcases h.nextMessage with ⟨message, -, hne, hsplit, hnext⟩ | ⟨-, hnext, hsettled⟩
    · have hlen' := congrArg List.length hsplit
      rw [List.length_append] at hlen'
      have hpos := List.length_pos_of_ne_nil hne
      have hless : f.nextMessage.1.view.length ≤ n := by omega
      exact ih hnext hless
    · have hstay : (f.nextMessage.1.run (List.replicate n .nextMessage)).1 = f.nextMessage.1 := by
        rw [hsettled.run_eq hnext.maxBodyLength_eq]
      change (f.nextMessage.1.run (List.replicate n .nextMessage)).1.nextMessage.2 = none
      rw [hstay, hsettled.nextMessage_eq hnext.maxBodyLength_eq]

theorem init (maxBodyLength : ℕ) : Tracks maxBodyLength [] [] (Framer.init maxBodyLength) :=
  ⟨rfl, .nil _, Or.inl rfl⟩

theorem run_init (maxBodyLength : ℕ) (calls : List FramerCall) :
    Tracks maxBodyLength (appended calls) ((Framer.init maxBodyLength).run calls).2
      ((Framer.init maxBodyLength).run calls).1 := (Tracks.init maxBodyLength).run calls

end Tracks

/-- The calls end with a `NextMessage` that returned `nullopt`. -/
def Drained (maxBodyLength : ℕ) (calls : List FramerCall) : Prop :=
  ∃ before, calls = before ++ [.nextMessage] ∧ ((Framer.init maxBodyLength).run before).1.nextMessage.2 = none

theorem run_append (f : Framer) (calls calls' : List FramerCall) :
    f.run (calls ++ calls') =
      (((f.run calls).1.run calls').1, (f.run calls).2 ++ ((f.run calls).1.run calls').2) := by
  induction calls generalizing f with
  | nil => rfl
  | cons call calls ih =>
    cases call with
    | append bytes => simp only [List.cons_append, Framer.run, ih]
    | nextMessage => simp only [List.cons_append, Framer.run, ih, List.append_assoc]

theorem Drained.settled {maxBodyLength : ℕ} {calls : List FramerCall} (h : Drained maxBodyLength calls) :
    Settled maxBodyLength ((Framer.init maxBodyLength).run calls).1 := by
  obtain ⟨before, rfl, hnone⟩ := h
  rw [run_append]
  rcases (Tracks.run_init maxBodyLength before).nextMessage with ⟨message, hsome, -⟩ | ⟨-, -, hsettled⟩
  · rw [hsome] at hnone
    cases hnone
  · exact hsettled

/-- Every framer can be drained. -/
theorem framer_drains (maxBodyLength : ℕ) (calls : List FramerCall) :
    ∃ n, Drained maxBodyLength (calls ++ List.replicate (n + 1) .nextMessage) := by
  set f := ((Framer.init maxBodyLength).run calls).1 with hf
  refine ⟨f.view.length, calls ++ List.replicate f.view.length .nextMessage, ?_, ?_⟩
  · rw [List.replicate_succ', List.append_assoc]
  · rw [run_append, ← hf]
    exact (Tracks.run_init maxBodyLength calls).nextMessage_none le_rfl

/-- Two ways of delivering one stream, each with `NextMessage` calls anywhere and
drained in the end, return the same messages and end in the same verdict. -/
theorem framer_ignores_chunking (maxBodyLength : ℕ) (calls calls' : List FramerCall)
    (hstream : appended calls = appended calls') (h : Drained maxBodyLength calls) (h' : Drained maxBodyLength calls') :
    let a := (Framer.init maxBodyLength).run calls
    let b := (Framer.init maxBodyLength).run calls'
    a.2 = b.2 ∧ a.1.good = b.1.good ∧ a.1.error = b.1.error ∧ a.2.flatten <+: appended calls ∧
      (a.1.good → a.2.flatten ++ a.1.view = appended calls ∧ a.1.view.length = a.1.bufferedBytes) := by
  intro a b
  have ha : Tracks maxBodyLength (appended calls) a.2 a.1 := Tracks.run_init maxBodyLength calls
  have hb : Tracks maxBodyLength (appended calls) b.2 b.1 := hstream ▸ Tracks.run_init maxBodyLength calls'
  have hsa : Settled maxBodyLength a.1 := h.settled
  have hsb : Settled maxBodyLength b.1 := h'.settled
  obtain ⟨hmessages, hview⟩ := ha.decodes.unique hb.decodes hsa.not_item hsb.not_item
  have herror : a.1.error = b.1.error := by
    rw [Settled, ← hview] at hsb
    rcases hsa with ⟨hea, hva⟩ | ⟨hea, hva⟩ <;> rcases hsb with ⟨heb, hvb⟩ | ⟨heb, hvb⟩ <;> rw [hva] at hvb
    · exact hea.trans heb.symm
    · cases hvb
    · cases hvb
    · rwa [DecodeStep.fail.injEq] at hvb
  have hflat := ha.decodes.flatten
  refine ⟨hmessages, ?_, herror, ⟨_, hflat⟩, fun _ => ⟨hflat, ?_⟩⟩
  · rw [Framer.good, Framer.good, herror]
  · rw [Framer.view, List.length_drop, Framer.bufferedBytes]

/-- A heartbeat and the start of a second message, all at once. -/
def wholeDelivery : List FramerCall :=
  [.append (beginStringPrefix ++ ascii "9=5" ++ [kSoh] ++ ascii "35=0" ++ [kSoh] ++ ascii "10=163" ++ [kSoh] ++
    ascii "8=F"), .nextMessage, .nextMessage]

/-- The same bytes, cut inside BodyLength and inside the CheckSum field. -/
def cutDelivery : List FramerCall :=
  [.append (beginStringPrefix ++ ascii "9"), .nextMessage, .append (ascii "=5" ++ [kSoh] ++ ascii "35=0"),
   .nextMessage, .append ([kSoh] ++ ascii "10=16"), .append (ascii "3" ++ [kSoh] ++ ascii "8=F"), .nextMessage,
   .nextMessage]

theorem framer_same_heartbeat :
    ((Framer.init 64).run wholeDelivery).2 = ((Framer.init 64).run cutDelivery).2 :=
  (framer_ignores_chunking 64 wholeDelivery cutDelivery (by decide) ⟨wholeDelivery.dropLast, rfl, by decide⟩
    ⟨cutDelivery.dropLast, rfl, by decide⟩).1

end CryptoTrader.Fix
