import CryptoTrader.Sanity.FixClient

/-! The inbound sequence numbers as a ledger. The expectation is one more than what the
session has accounted for: each message in sequence, each message after a gap, and what
the gaps skipped. It is a run of calls since the numbers were reset, whatever arrives. -/

namespace CryptoTrader.Deribit

open CryptoTrader.Fix

/-- The calls of `OnInbound` on some messages in turn, with their verdicts. -/
def FixSession.onInbounds (s : FixSession) : List ParsedMessage → FixSession × List InboundCheck
  | [] => (s, [])
  | message :: messages =>
    let rest := (s.onInbound message).1.onInbounds messages
    (rest.1, (s.onInbound message).2 :: rest.2)

/-- How many verdicts have a status. -/
def verdicts (status : SequenceStatus) (checks : List InboundCheck) : ℕ := checks.countP (·.status = status)

/-- What the gaps reported as missing. -/
def reportedMissing (checks : List InboundCheck) : ℕ := ((checks.filter (·.status = .gap)).map (·.missing)).sum

/-- The numbers of the messages that are no resends. -/
def freshNumbers (messages : List ParsedMessage) : List ℕ :=
  messages.filterMap fun message => if isPossDup message then none else seqNum message

/-- What some verdicts did to the session's numbers. -/
structure Ledger (s s' : FixSession) (checks : List InboundCheck) : Prop where
  expected : s'.expectedInbound =
    s.expectedInbound + (verdicts .inSequence checks + verdicts .gap checks + reportedMissing checks)
  gaps : s'.gapsDetected = s.gapsDetected + verdicts .gap checks
  bounded : s'.expectedInbound ≤ max s.expectedInbound (2 ^ 63)

theorem Ledger.refl (s : FixSession) : Ledger s s [] := ⟨rfl, rfl, Nat.le_max_left _ _⟩

theorem Ledger.trans {s s' s'' : FixSession} {checks checks' : List InboundCheck} (h : Ledger s s' checks)
    (h' : Ledger s' s'' checks') : Ledger s s'' (checks ++ checks') := by
  have hcount (status : SequenceStatus) :
      verdicts status (checks ++ checks') = verdicts status checks + verdicts status checks' := List.countP_append
  have hmissing : reportedMissing (checks ++ checks') = reportedMissing checks + reportedMissing checks' := by
    rw [reportedMissing, List.filter_append, List.map_append, List.sum_append]
    rfl
  refine ⟨?_, ?_, ?_⟩
  · rw [h'.expected, h.expected, hcount, hcount, hmissing]
    omega
  · rw [h'.gaps, h.gaps, hcount, Nat.add_assoc]
  · have hfirst := h.bounded
    have hsecond := h'.bounded
    omega

theorem toInt_lt {value : Bytes} {number : ℕ} (h : toInt value = some (number : Int)) : number < 2 ^ 63 := by
  unfold toInt at h
  split at h
  · cases h
  · split_ifs at h with hminus hnegative hdigits
    · rw [Option.some.injEq] at h
      omega
    · rw [Option.some.injEq, Int.natCast_inj] at h
      omega

/-- A usable number is a non-negative signed 64-bit one. -/
theorem seqNum_lt {message : ParsedMessage} {number : ℕ} (h : seqNum message = some number) : number < 2 ^ 63 := by
  unfold seqNum at h
  split at h
  · rename_i hint
    cases h
    obtain ⟨value, -, hvalue⟩ := Option.bind_eq_some_iff.1 hint
    exact toInt_lt hvalue
  · cases h

section Step

variable (s : FixSession) (message : ParsedMessage)

/-- One call: the verdict and where the expectation goes, by what the message carries. -/
theorem onInbound_cases :
    (seqNum message = none ∧ s.onInbound message = (s, ⟨.malformed, s.expectedInbound, 0, 0⟩)) ∨
    ∃ number, seqNum message = some number ∧
      (isPossDup message = true ∧ s.onInbound message = (s, ⟨.possibleDuplicate, s.expectedInbound, number, 0⟩) ∨
      isPossDup message = false ∧
        (number = s.expectedInbound ∧ s.onInbound message =
          ({ s with expectedInbound := s.expectedInbound + 1 }, ⟨.inSequence, s.expectedInbound, number, 0⟩) ∨
        number < s.expectedInbound ∧ s.onInbound message = (s, ⟨.duplicate, s.expectedInbound, number, 0⟩) ∨
        s.expectedInbound < number ∧ s.onInbound message =
          ({ s with expectedInbound := number + 1, gapsDetected := s.gapsDetected + 1 },
            ⟨.gap, s.expectedInbound, number, number - s.expectedInbound⟩))) := by
  cases hnumber : seqNum message with
  | none => exact .inl ⟨rfl, onInbound_of_unusable hnumber⟩
  | some number =>
    refine .inr ⟨number, rfl, ?_⟩
    rw [onInbound_of_seqNum hnumber, FixSession.onInboundSeqNum]
    cases hdup : isPossDup message with
    | true => exact .inl ⟨rfl, rfl⟩
    | false =>
      refine .inr ⟨rfl, ?_⟩
      rcases Nat.lt_trichotomy number s.expectedInbound with hlt | heq | hgt
      · rw [if_neg Bool.false_ne_true, if_neg hlt.ne, if_pos hlt]
        exact .inr (.inl ⟨hlt, rfl⟩)
      · rw [if_neg Bool.false_ne_true, if_pos heq]
        exact .inl ⟨heq, rfl⟩
      · rw [if_neg Bool.false_ne_true, if_neg hgt.ne', if_neg hgt.not_gt]
        exact .inr (.inr ⟨hgt, rfl⟩)

theorem ledger_onInbound : Ledger s (s.onInbound message).1 [(s.onInbound message).2] := by
  rcases onInbound_cases s message with ⟨-, h⟩ | ⟨number, hnumber, ⟨-, h⟩ | ⟨-, ⟨heq, h⟩ | ⟨-, h⟩ | ⟨hgt, h⟩⟩⟩
  all_goals rw [h]
  · exact ⟨rfl, rfl, Nat.le_max_left _ _⟩
  · exact ⟨rfl, rfl, Nat.le_max_left _ _⟩
  · have hlt := seqNum_lt hnumber
    refine ⟨rfl, rfl, ?_⟩
    change s.expectedInbound + 1 ≤ _
    omega
  · exact ⟨rfl, rfl, Nat.le_max_left _ _⟩
  · have hlt := seqNum_lt hnumber
    refine ⟨?_, rfl, ?_⟩
    · change number + 1 = s.expectedInbound + (0 + 1 + (number - s.expectedInbound + 0))
      omega
    · change number + 1 ≤ _
      omega

/-- The session is unbroken by a message with a usable number that is a resend or the one
expected next. -/
theorem sessionBroken_eq_false_iff :
    (s.onInbound message).2.sessionBroken = false ↔
      (seqNum message).isSome = true ∧ (isPossDup message = false → seqNum message = some s.expectedInbound) := by
  rcases onInbound_cases s message with
    ⟨hnumber, h⟩ | ⟨number, hnumber, ⟨hdup, h⟩ | ⟨hdup, ⟨heq, h⟩ | ⟨hlt, h⟩ | ⟨hgt, h⟩⟩⟩
  all_goals rw [h, hnumber]
  · simp [InboundCheck.sessionBroken]
  · simp [InboundCheck.sessionBroken, hdup]
  · simp [InboundCheck.sessionBroken, heq]
  · simp [InboundCheck.sessionBroken, hdup, hlt.ne]
  · simp [InboundCheck.sessionBroken, hdup, hgt.ne']

/-- And it then expects the number after the fresh ones. -/
theorem expectedInbound_of_unbroken (h : (s.onInbound message).2.sessionBroken = false) :
    (s.onInbound message).1.expectedInbound = s.expectedInbound + if isPossDup message then 0 else 1 := by
  rcases onInbound_cases s message with
    ⟨-, hcall⟩ | ⟨number, -, ⟨hdup, hcall⟩ | ⟨hdup, ⟨-, hcall⟩ | ⟨-, hcall⟩ | ⟨-, hcall⟩⟩⟩
  · rw [hcall] at h
    cases h
  · rw [hcall, hdup]
    rfl
  · rw [hcall, hdup]
    rfl
  · rw [hcall] at h
    cases h
  · rw [hcall] at h
    cases h

end Step

section Run

theorem onInbounds_append (s : FixSession) (messages messages' : List ParsedMessage) :
    s.onInbounds (messages ++ messages') =
      (((s.onInbounds messages).1.onInbounds messages').1,
        (s.onInbounds messages).2 ++ ((s.onInbounds messages).1.onInbounds messages').2) := by
  induction messages generalizing s with
  | nil => rfl
  | cons message messages ih => rw [List.cons_append, FixSession.onInbounds, ih, FixSession.onInbounds, List.cons_append]

theorem ledger_onInbounds (s : FixSession) (messages : List ParsedMessage) :
    Ledger s (s.onInbounds messages).1 (s.onInbounds messages).2 := by
  induction messages generalizing s with
  | nil => exact Ledger.refl s
  | cons message messages ih => exact (ledger_onInbound s message).trans (ih (s.onInbound message).1)

/-- No verdict breaks the session exactly if every number is usable and the fresh ones
go on from the expectation. -/
theorem unbroken_iff (s : FixSession) (messages : List ParsedMessage) :
    (∀ check ∈ (s.onInbounds messages).2, check.sessionBroken = false) ↔
      (∀ message ∈ messages, (seqNum message).isSome = true) ∧
        freshNumbers messages = List.range' s.expectedInbound (freshNumbers messages).length := by
  induction messages generalizing s with
  | nil => simp [FixSession.onInbounds, freshNumbers]
  | cons message messages ih =>
    rw [FixSession.onInbounds, List.forall_mem_cons, List.forall_mem_cons, ih]
    by_cases hbroken : (s.onInbound message).2.sessionBroken = false
    · obtain ⟨husable, hnumber⟩ := (sessionBroken_eq_false_iff s message).1 hbroken
      rw [expectedInbound_of_unbroken s message hbroken]
      cases hdup : isPossDup message with
      | true =>
        have hfresh : freshNumbers (message :: messages) = freshNumbers messages := by
          rw [freshNumbers, List.filterMap_cons, hdup]
          rfl
        simp [hbroken, husable, hfresh]
      | false =>
        have hfresh : freshNumbers (message :: messages) = s.expectedInbound :: freshNumbers messages := by
          rw [freshNumbers, List.filterMap_cons, hdup, if_neg Bool.false_ne_true, hnumber hdup]
          rfl
        simp [hbroken, husable, hfresh, List.range'_succ]
    · have hnot := mt (sessionBroken_eq_false_iff s message).2 hbroken
      refine iff_of_false (fun h => hbroken h.1) ?_
      rintro ⟨⟨husable, -⟩, hrange⟩
      refine hnot ⟨husable, fun hdup => ?_⟩
      obtain ⟨number, hnumber⟩ := Option.isSome_iff_exists.1 husable
      have hfresh : freshNumbers (message :: messages) = number :: freshNumbers messages := by
        rw [freshNumbers, List.filterMap_cons, hdup, if_neg Bool.false_ne_true, hnumber]
        rfl
      rw [hfresh, List.length_cons, List.range'_succ, List.cons.injEq] at hrange
      rw [hnumber, hrange.1]

end Run

/-- Since the numbers were reset, whatever was received: the expectation has moved by the
messages in sequence, the messages after a gap and the missing ones; it never went back
and never left the signed 64-bit range; no verdict broke the session exactly if all numbers
were usable and the fresh ones were 1, 2, and so on; and each gap was counted. -/
theorem sequence_numbers_accounted (s : FixSession) (messages : List ParsedMessage) :
    (s.resetSequenceNumbers.onInbounds messages).1.expectedInbound =
      (verdicts .inSequence (s.resetSequenceNumbers.onInbounds messages).2 +
        verdicts .gap (s.resetSequenceNumbers.onInbounds messages).2 +
        reportedMissing (s.resetSequenceNumbers.onInbounds messages).2) + 1 ∧
    (∀ earlier, earlier <+: messages → (s.resetSequenceNumbers.onInbounds earlier).1.expectedInbound ≤
      (s.resetSequenceNumbers.onInbounds messages).1.expectedInbound) ∧
    (s.resetSequenceNumbers.onInbounds messages).1.expectedInbound ≤ 2 ^ 63 ∧
    ((∀ check ∈ (s.resetSequenceNumbers.onInbounds messages).2, check.sessionBroken = false) ↔
      (∀ message ∈ messages, (seqNum message).isSome = true) ∧
        freshNumbers messages = List.range' 1 (freshNumbers messages).length) ∧
    (s.resetSequenceNumbers.onInbounds messages).1.gapsDetected =
      s.gapsDetected + verdicts .gap (s.resetSequenceNumbers.onInbounds messages).2 := by
  have hledger := ledger_onInbounds s.resetSequenceNumbers messages
  refine ⟨?_, ?_, hledger.bounded, unbroken_iff s.resetSequenceNumbers messages, hledger.gaps⟩
  · rw [hledger.expected, Nat.add_comm]
    rfl
  · rintro earlier ⟨later, rfl⟩
    rw [onInbounds_append, (ledger_onInbounds (s.resetSequenceNumbers.onInbounds earlier).1 later).expected]
    exact Nat.le_add_right _ _

end CryptoTrader.Deribit
