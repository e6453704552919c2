import CryptoTrader.Sanity.FixClient
import Mathlib.Data.List.Induction

/-! How a conversation goes on from the messages before it, what it journals and answers,
and how its transcript is numbered. -/

namespace CryptoTrader.Deribit

open CryptoTrader.Fix

section Conversation

variable {before messages more : List Bytes} {raw : Bytes}

/-- All of the messages go on with the connection. -/
def AllGoOn (before messages : List Bytes) : Prop := handledAfter before messages = messages

theorem allGoOn_cons : AllGoOn before (raw :: messages) ↔ GoesOn before raw ∧ AllGoOn (before ++ [raw]) messages := by
  rw [AllGoOn, handledAfter]
  by_cases h : GoesOn before raw
  · rw [if_pos h, List.cons.injEq]
    simp [h, AllGoOn]
  · rw [if_neg h]
    simp [h]

theorem AllGoOn.of_append (h : AllGoOn before (messages ++ more)) : AllGoOn before messages := by
  induction messages generalizing before with
  | nil => rfl
  | cons raw messages ih =>
    obtain ⟨hraw, hrest⟩ := allGoOn_cons.1 h
    exact allGoOn_cons.2 ⟨hraw, ih hrest⟩

theorem AllGoOn.handledAfter_append (h : AllGoOn before messages) :
    handledAfter before (messages ++ more) = messages ++ handledAfter (before ++ messages) more := by
  induction messages generalizing before with
  | nil => rw [List.nil_append, List.append_nil, List.nil_append]
  | cons raw messages ih =>
    obtain ⟨hraw, hrest⟩ := allGoOn_cons.1 h
    rw [List.cons_append, handledAfter, if_pos hraw, ih hrest, List.append_assoc]
    rfl

theorem AllGoOn.snoc (h : AllGoOn [] messages) (hraw : GoesOn messages raw) : AllGoOn [] (messages ++ [raw]) := by
  rw [AllGoOn, h.handledAfter_append, List.nil_append, handledAfter, if_pos hraw]
  rfl

theorem AllGoOn.conversationAfter_append (h : AllGoOn before messages) :
    conversationAfter before (messages ++ more) =
      conversationAfter before messages ++ conversationAfter (before ++ messages) more := by
  induction messages generalizing before with
  | nil => rw [List.nil_append, List.append_nil, conversationAfter, List.nil_append]
  | cons raw messages ih =>
    obtain ⟨hraw, hrest⟩ := allGoOn_cons.1 h
    rw [List.cons_append, conversationAfter, conversationAfter, if_pos hraw, if_pos hraw, ih hrest,
      List.append_assoc before]
    simp only [List.append_assoc, List.cons_append, List.nil_append]

/-- After a message that ends the connection nothing is said. -/
theorem AllGoOn.conversationAfter_ended (h : AllGoOn [] messages) (hraw : ¬ GoesOn messages raw) :
    conversationAfter [] (messages ++ raw :: more) = conversationAfter [] messages ++ [.journaled raw] := by
  rw [h.conversationAfter_append, List.nil_append, conversationAfter, if_neg hraw]

theorem AllGoOn.conversationAfter_snoc (h : AllGoOn [] messages) {message : ParsedMessage}
    (hmessage : parsed raw = some message) (hraw : GoesOn messages raw) :
    conversationAfter [] (messages ++ [raw]) =
      conversationAfter [] messages ++ .journaled raw :: (answer messages message).map .sent := by
  rw [h.conversationAfter_append, List.nil_append, conversationAfter, if_pos hraw, conversationAfter, List.append_nil,
    hmessage, Option.toList_some, List.flatMap_singleton]

theorem anyLogon_snoc {message : ParsedMessage} (hmessage : parsed raw = some message) :
    anyLogon (messages ++ [raw]) = (anyLogon messages || decide (message.msgType = MsgType.kLogon)) := by
  rw [anyLogon, List.any_append, List.any_cons, hmessage, List.any_nil, Bool.or_false]
  rfl

/-- An answer is not a heartbeat of the timer. -/
theorem unscheduled_answer (before : List Bytes) (message : ParsedMessage) :
    ((answer before message).map Saying.sent).filter Saying.unscheduled = (answer before message).map .sent := by
  rw [answer]
  split_ifs <;> rfl

theorem payloads_sent (messages : List Outgoing) : (messages.map Saying.sent).filterMap Saying.payload = [] := by
  rw [List.filterMap_map, List.filterMap_eq_nil_iff]
  exact fun _ _ => rfl

/-- A conversation journals the messages that go on, and the one after them. -/
theorem payloads_conversationAfter (before messages : List Bytes) :
    (conversationAfter before messages).filterMap Saying.payload =
      messages.take ((handledAfter before messages).length + 1) := by
  induction messages generalizing before with
  | nil => rfl
  | cons raw messages ih =>
    rw [conversationAfter, handledAfter, List.filterMap_cons]
    by_cases h : GoesOn before raw
    · rw [if_pos h, if_pos h, List.filterMap_append, payloads_sent, List.nil_append, ih, List.length_cons, List.take_succ_cons]
      rfl
    · rw [if_neg h, if_neg h]
      rfl

theorem filterMap_unscheduled {α : Type} {f : Saying → Option α} (hf : f (.sent .heartbeat) = none)
    (sayings : List Saying) : (sayings.filter Saying.unscheduled).filterMap f = sayings.filterMap f := by
  induction sayings with
  | nil => rfl
  | cons saying sayings ih =>
    by_cases h : saying.unscheduled = true
    · rw [List.filter_cons_of_pos h, List.filterMap_cons, List.filterMap_cons, ih]
    · have hheartbeat : saying = .sent .heartbeat := by
        simpa [Saying.unscheduled] using h
      rw [List.filter_cons_of_neg h, ih, hheartbeat, List.filterMap_cons, hf]

/-- A conversation answers the TestRequests that go on. -/
theorem testReqIds_conversationAfter (before messages : List Bytes) :
    (conversationAfter before messages).filterMap Saying.testReqId = testReqIds (handledAfter before messages) := by
  induction messages generalizing before with
  | nil => rfl
  | cons raw messages ih =>
    rw [conversationAfter, handledAfter, List.filterMap_cons]
    by_cases h : GoesOn before raw
    · rw [if_pos h, if_pos h, List.filterMap_append, ih]
      obtain ⟨message, hmessage, -⟩ := h
      have hanswer : ((answer before message).map Saying.sent).filterMap Saying.testReqId = testReqIds [raw] := by
        rw [testReqIds, List.filterMap_cons, hmessage, Option.bind_some, List.filterMap_nil, answer]
        by_cases hlogon : message.msgType = MsgType.kLogon
        · have hne : ¬ message.msgType = MsgType.kTestRequest := by
            rw [hlogon]
            decide
          rw [if_pos hlogon, if_neg hne]
          split_ifs <;> rfl
        · rw [if_neg hlogon]
          split_ifs <;> rfl
      have hcons (rest : List Bytes) : testReqIds (raw :: rest) = testReqIds [raw] ++ testReqIds rest :=
        List.filterMap_append (l := [raw])
      rw [hmessage, Option.toList_some, List.flatMap_singleton, hanswer, ← hcons]
      rfl
    · rw [if_neg h, if_neg h]
      rfl

/-- A conversation requests market data once, on the first Logon. -/
theorem count_request_conversationAfter (before messages : List Bytes) :
    (conversationAfter before messages).count (.sent .marketDataRequest) =
      if anyLogon before = false ∧ anyLogon (handledAfter before messages) = true then 1 else 0 := by
  induction messages generalizing before with
  | nil => simp [conversationAfter, handledAfter, anyLogon]
  | cons raw messages ih =>
    rw [conversationAfter, handledAfter, List.count_cons_of_ne (by simp)]
    by_cases h : GoesOn before raw
    · rw [if_pos h, if_pos h, List.count_append, ih]
      obtain ⟨message, hmessage, -⟩ := h
      have hanswer : ((answer before message).map Saying.sent).count (.sent .marketDataRequest) =
          if anyLogon before = false ∧ message.msgType = MsgType.kLogon then 1 else 0 := by
        rw [answer]
        by_cases hlogon : message.msgType = MsgType.kLogon
        · cases hany : anyLogon before <;> simp [hlogon]
        · rw [if_neg hlogon]
          split_ifs <;> simp_all
      have hcons (rest : List Bytes) :
          anyLogon (raw :: rest) = (decide (message.msgType = MsgType.kLogon) || anyLogon rest) := by
        rw [anyLogon, List.any_cons, hmessage]
        rfl
      rw [hmessage, Option.toList_some, List.flatMap_singleton, hanswer, hcons, anyLogon_snoc hmessage]
      cases anyLogon before <;> by_cases hlogon : message.msgType = MsgType.kLogon <;> simp [hlogon]
    · rw [if_neg h, if_neg h]
      simp [anyLogon]

theorem allGoOn_handledAfter (before messages : List Bytes) : AllGoOn before (handledAfter before messages) := by
  induction messages generalizing before with
  | nil => rfl
  | cons raw messages ih =>
    rw [handledAfter]
    split_ifs with h
    · exact allGoOn_cons.2 ⟨h, ih _⟩
    · rfl

/-- The numbers of messages that go on have no hole and no repeat. -/
theorem AllGoOn.sequenceNumbers_eq (h : AllGoOn [] messages) :
    sequenceNumbers messages = List.range' 1 (sequenceNumbers messages).length := by
  induction messages using List.reverseRecOn with
  | nil => rfl
  | append_singleton messages raw ih =>
    have hfront : AllGoOn [] messages := h.of_append
    have hlast : GoesOn messages raw := by
      rw [AllGoOn, hfront.handledAfter_append, List.append_cancel_left_eq, List.nil_append] at h
      exact (allGoOn_cons.1 h).1
    obtain ⟨message, hmessage, ⟨number, hnumber, hnext⟩, -⟩ := hlast
    rw [sequenceNumbers_snoc hmessage]
    by_cases hdup : isPossDup message = true
    · rw [if_pos hdup, Option.toList_none, List.append_nil]
      exact ih hfront
    · rw [if_neg hdup, hnumber, Option.toList_some, List.length_append, List.length_singleton, List.range'_concat,
        ← ih hfront, hnext.resolve_left hdup, Nat.one_mul, Nat.add_comm 1]

/-- Of the messages of a connection the first have been journaled, and the connection went
on with all of these but the last. -/
structure Journaled (messages payloads : List Bytes) : Prop where
  start : payloads <+: messages
  goesOn : ∀ before raw after, payloads = before ++ raw :: after → AllGoOn [] before

theorem Journaled.nil (messages : List Bytes) : Journaled messages [] := ⟨List.nil_prefix, by simp⟩

theorem Journaled.of_isPrefix {payloads payloads' : List Bytes} (h : Journaled messages payloads)
    (hshorter : payloads' <+: payloads) : Journaled messages payloads' := by
  refine ⟨hshorter.trans h.start, ?_⟩
  rintro before raw after rfl
  obtain ⟨rest, rfl⟩ := hshorter
  exact h.goesOn before raw (after ++ rest) (by rw [List.append_assoc, List.cons_append])

theorem AllGoOn.journaled (h : AllGoOn [] before) (hmessages : ∃ tail, messages = before ++ tail) :
    Journaled messages before := by
  obtain ⟨tail, rfl⟩ := hmessages
  refine ⟨List.prefix_append _ _, ?_⟩
  rintro front raw after rfl
  exact h.of_append

theorem AllGoOn.journaled_snoc (h : AllGoOn [] before) (raw : Bytes) (tail : List Bytes) :
    Journaled (before ++ raw :: tail) (before ++ [raw]) := by
  refine ⟨⟨tail, by simp⟩, ?_⟩
  intro front other after hsplit
  rcases List.eq_nil_or_concat' after with rfl | ⟨_, _, rfl⟩
  · obtain ⟨rfl, -⟩ := List.append_inj' hsplit rfl
    exact h
  · rw [← List.cons_append, ← List.append_assoc] at hsplit
    obtain ⟨rfl, -⟩ := List.append_inj' hsplit rfl
    exact h.of_append

end Conversation

section Transcript

variable {P : SessionPlatform} {W : World} {session : SessionConfig} {client : FixClientConfig}

/-- The messages sent among some sayings. -/
def sentCount (sayings : List Saying) : ℕ := (sayings.filterMap Saying.outgoing).length

theorem transcript_append (index number : ℕ) (sayings sayings' : List Saying) :
    transcript P W session client index number (sayings ++ sayings') =
      transcript P W session client index number sayings ++
        transcript P W session client (index + sayings.length) (number + sentCount sayings) sayings' := by
  induction sayings generalizing index number with
  | nil => rfl
  | cons saying sayings ih =>
    cases saying with
    | journaled payload =>
      rw [List.cons_append, transcript, transcript, ih, List.cons_append, List.length_cons,
        Nat.add_right_comm, Nat.add_assoc index]
      rfl
    | sent message =>
      have hcount : sentCount (.sent message :: sayings) = sentCount sayings + 1 := rfl
      rw [List.cons_append, transcript, transcript, ih, List.cons_append, List.length_cons, hcount,
        Nat.add_right_comm index, Nat.add_right_comm number]
      rfl

theorem transcript_length (index number : ℕ) (sayings : List Saying) :
    (transcript P W session client index number sayings).length = sayings.length := by
  induction sayings generalizing index number with
  | nil => rfl
  | cons saying sayings ih =>
    cases saying with
    | journaled payload => rw [transcript, List.length_cons, List.length_cons, ih]
    | sent message => rw [transcript, List.length_cons, List.length_cons, ih]

theorem sentCount_snoc (sayings : List Saying) (saying : Saying) :
    sentCount (sayings ++ [saying]) = sentCount sayings + sentCount [saying] := by
  rw [sentCount, List.filterMap_append, List.length_append]
  rfl

end Transcript

end CryptoTrader.Deribit
