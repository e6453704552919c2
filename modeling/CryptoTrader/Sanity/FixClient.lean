import CryptoTrader.Spec.FixConversation

/-! What each step of the client does to its session and to the list of its effects. -/

namespace CryptoTrader.Deribit

open CryptoTrader.Fix

section Session

variable {s : FixSession} {before : List Bytes} {raw : Bytes} {message : ParsedMessage}

theorem sequenceNumbers_snoc (hraw : parsed raw = some message) :
    sequenceNumbers (before ++ [raw]) =
      sequenceNumbers before ++ (if isPossDup message then none else seqNum message).toList := by
  rw [sequenceNumbers, sequenceNumbers, List.filterMap_append]
  congr 1
  rw [List.filterMap_cons, hraw, Option.bind_some, List.filterMap_nil]
  cases (if isPossDup message then none else seqNum message) <;> rfl

theorem onInbound_of_seqNum {number : ℕ} (h : seqNum message = some number) :
    s.onInbound message = s.onInboundSeqNum number (isPossDup message) := by
  unfold seqNum at h
  split at h
  · rename_i hint
    cases h
    rw [FixSession.onInbound, hint]
    rfl
  · cases h

theorem onInbound_of_unusable (h : seqNum message = none) :
    s.onInbound message = (s, ⟨.malformed, s.expectedInbound, 0, 0⟩) := by
  unfold seqNum at h
  split at h
  · cases h
  · rename_i hint
    unfold FixSession.onInbound
    split
    · rename_i hsome
      exact absurd hsome (hint _)
    · rfl

/-- The check is the sequence the messages before make up, as long as the expectation
counts them; a message in sequence is counted. -/
theorem onInbound_spec (hraw : parsed raw = some message)
    (hexpected : s.expectedInbound = (sequenceNumbers before).length + 1) :
    (InSequence before message → (s.onInbound message).2.sessionBroken = false ∧
      (s.onInbound message).1.expectedInbound = (sequenceNumbers (before ++ [raw])).length + 1) ∧
    (¬ InSequence before message → (s.onInbound message).2.sessionBroken = true) ∧
    (s.onInbound message).1.config = s.config ∧ (s.onInbound message).1.nextOutbound = s.nextOutbound := by
  rw [sequenceNumbers_snoc hraw]
  cases hnumber : seqNum message with
  | none =>
    rw [onInbound_of_unusable hnumber]
    refine ⟨?_, fun _ => rfl, rfl, rfl⟩
    rintro ⟨number, hsome, -⟩
    rw [hnumber] at hsome
    cases hsome
  | some number =>
    have hiff : InSequence before message ↔ isPossDup message ∨ number = s.expectedInbound := by
      rw [hexpected]
      constructor
      · rintro ⟨other, hother, h⟩
        rw [hnumber, Option.some.injEq] at hother
        rwa [hother]
      · intro h
        exact ⟨number, hnumber, h⟩
    rw [onInbound_of_seqNum hnumber, hiff, FixSession.onInboundSeqNum]
    by_cases hdup : isPossDup message
    · rw [if_pos hdup, if_pos hdup]
      exact ⟨fun _ => ⟨rfl, by simp [hexpected]⟩, fun h => absurd (Or.inl hdup) h, rfl, rfl⟩
    · rw [if_neg hdup, if_neg hdup]
      split_ifs with heq hlt
      · exact ⟨fun _ => ⟨rfl, by simp [hexpected]⟩, fun h => absurd (Or.inr heq) h, rfl, rfl⟩
      · exact ⟨fun h => absurd h (by simp [hdup, heq]), fun _ => rfl, rfl, rfl⟩
      · exact ⟨fun h => absurd h (by simp [hdup, heq]), fun _ => rfl, rfl, rfl⟩

/-- The kinds that the client acts on, and the others. -/
theorem kindOf_cases (msgType : Bytes) :
    (msgType = MsgType.kLogon ∧ kindOf msgType = .logonAck) ∨
    (msgType = MsgType.kTestRequest ∧ kindOf msgType = .testRequest) ∨
    (msgType = MsgType.kLogout ∧ kindOf msgType = .logout) ∨
    (msgType ≠ MsgType.kLogon ∧ msgType ≠ MsgType.kTestRequest ∧ msgType ≠ MsgType.kLogout ∧
      kindOf msgType ∈ [.unknown, .heartbeat, .sessionReject, .marketDataSnapshot, .marketDataIncremental,
        .marketDataRequestReject]) := by
  by_cases hlogon : msgType = MsgType.kLogon
  · subst hlogon
    exact Or.inl ⟨rfl, rfl⟩
  by_cases htest : msgType = MsgType.kTestRequest
  · subst htest
    exact Or.inr (Or.inl ⟨rfl, rfl⟩)
  by_cases hlogout : msgType = MsgType.kLogout
  · subst hlogout
    exact Or.inr (Or.inr (Or.inl ⟨rfl, rfl⟩))
  refine Or.inr (Or.inr (Or.inr ⟨hlogon, htest, hlogout, ?_⟩))
  rw [kindOf, if_neg hlogon, if_neg htest, if_neg hlogout]
  split_ifs <;> decide

/-- What an unbroken check leaves to the message's type. -/
theorem classifyInbound_cases (message : ParsedMessage) {check : InboundCheck} (h : check.sessionBroken = false) :
    (message.msgType = MsgType.kLogon ∧ (classifyInbound message check).action = .sendMarketDataRequest) ∨
    (message.msgType = MsgType.kTestRequest ∧ (classifyInbound message check).action = .answerTestRequest ∧
      (classifyInbound message check).detail = (message.get Tag.kTestReqId).getD []) ∨
    (message.msgType = MsgType.kLogout ∧ (classifyInbound message check).action = .reconnect) ∨
    (message.msgType ≠ MsgType.kLogon ∧ message.msgType ≠ MsgType.kTestRequest ∧
      message.msgType ≠ MsgType.kLogout ∧ (classifyInbound message check).action = .none) := by
  unfold classifyInbound
  rcases kindOf_cases message.msgType with ⟨htype, hkind⟩ | ⟨htype, hkind⟩ | ⟨htype, hkind⟩ |
    ⟨hlogon, htest, hlogout, hkind⟩
  · rw [h, hkind]
    exact Or.inl ⟨htype, rfl⟩
  · rw [h, hkind]
    exact Or.inr (Or.inl ⟨htype, rfl, rfl⟩)
  · rw [h, hkind]
    exact Or.inr (Or.inr (Or.inl ⟨htype, rfl⟩))
  · refine Or.inr (Or.inr (Or.inr ⟨hlogon, htest, hlogout, ?_⟩))
    rw [h]
    generalize kindOf message.msgType = kind at hkind
    cases kind <;> first | rfl | simp at hkind

theorem classifyInbound_broken {check : InboundCheck} (h : check.sessionBroken = true) :
    (classifyInbound message check).action = .reconnect := by
  unfold classifyInbound
  rw [h]
  rfl

theorem goesOn_iff (hraw : parsed raw = some message) :
    GoesOn before raw ↔ InSequence before message ∧ message.msgType ≠ MsgType.kLogout := by
  constructor
  · rintro ⟨other, hother, h⟩
    rw [hraw, Option.some.injEq] at hother
    rwa [hother]
  · intro h
    exact ⟨message, hraw, h⟩

/-- A message that does not go on with the connection ends it. -/
theorem reconnect_of_not_goesOn (hraw : parsed raw = some message)
    (hexpected : s.expectedInbound = (sequenceNumbers before).length + 1) (h : ¬ GoesOn before raw) :
    (classifyInbound message (s.onInbound message).2).action = .reconnect := by
  obtain ⟨hin, hout, -⟩ := onInbound_spec hraw hexpected
  by_cases hseq : InSequence before message
  · have hlogout : message.msgType = MsgType.kLogout := by
      by_contra hne
      exact h ((goesOn_iff hraw).2 ⟨hseq, hne⟩)
    rcases classifyInbound_cases message (hin hseq).1 with ⟨htype, -⟩ | ⟨htype, -⟩ | ⟨-, haction⟩ | ⟨-, -, hne, -⟩
    · rw [hlogout] at htype
      exact absurd htype (by decide)
    · rw [hlogout] at htype
      exact absurd htype (by decide)
    · exact haction
    · exact absurd hlogout hne
  · exact classifyInbound_broken (hout hseq)

end Session

section Sending

variable {P : SessionPlatform} {W : World} {s : FixSession} {c : FixClient}

/-- What the session builds for a message: the next number is on it and is used up. -/
def FixSession.say (P : SessionPlatform) (s : FixSession) (client : FixClientConfig) (message : Outgoing) (clockNs : ℕ) :
    FixSession × Bytes :=
  ({ s with nextOutbound := s.nextOutbound + 1 }, message.bytes P s.config client s.nextOutbound clockNs)

variable (client : FixClientConfig) (clockNs : ℕ)

theorem buildLogon_eq (nonce : Bytes) (timestampNs : ℕ) :
    s.buildLogon P (some nonce) timestampNs clockNs = .ok (s.say P client
      (.logon (makeLogonCredentials P (timestampNs / kNanosPerMilli) nonce s.config.clientSecret)) clockNs) := rfl

theorem buildMarketDataRequest_eq :
    s.buildMarketDataRequest P client.mdReqId client.symbols clockNs = s.say P client .marketDataRequest clockNs := rfl

theorem buildHeartbeatResponse_eq (testReqId : Bytes) :
    s.buildHeartbeatResponse P testReqId clockNs = s.say P client (.heartbeatResponse testReqId) clockNs := rfl

theorem buildHeartbeat_eq : s.buildHeartbeat P clockNs = s.say P client .heartbeat clockNs := rfl

theorem buildLogout_eq : s.buildLogout P (ascii "shutting down") clockNs = s.say P client .logout clockNs := rfl

theorem sendAll_eq (bytes : Bytes) :
    c.sendAll W bytes = ({ c with
      effects := c.effects ++ [.send bytes]
      lastOutboundNs := if W.succeeds c.effects.length then W.monotonicNs c.effects.length else c.lastOutboundNs },
      W.succeeds c.effects.length) := by
  unfold FixClient.sendAll FixClient.perform
  cases W.succeeds c.effects.length <;> rfl

section Act

variable {decision : InboundDecision}

theorem act_subscribed (h : decision.action = .sendMarketDataRequest) (hsubscribed : c.subscribed = true) :
    c.act P W decision = (c, true) := by
  rw [FixClient.act, h]
  simp only [hsubscribed, if_true]

theorem act_subscribe (h : decision.action = .sendMarketDataRequest) (hsubscribed : c.subscribed = false) :
    c.act P W decision =
      let sent := c.sendBuilt W (c.session.say P c.config .marketDataRequest (c.clockNs W))
      (if sent.2 then { sent.1 with subscribed := true } else sent.1, sent.2) := by
  rw [FixClient.act, h]
  simp only [hsubscribed, Bool.false_eq_true, if_false]
  rw [buildMarketDataRequest_eq]
  cases hsent : c.sendBuilt W (c.session.say P c.config .marketDataRequest (c.clockNs W)) with
  | mk sent ok => cases ok <;> rfl

theorem act_answer (h : decision.action = .answerTestRequest) :
    c.act P W decision =
      c.sendBuilt W (c.session.say P c.config (.heartbeatResponse decision.detail) (c.clockNs W)) := by
  rw [FixClient.act, h, ← buildHeartbeatResponse_eq]

theorem act_reconnect (h : decision.action = .reconnect) : c.act P W decision = (c, false) := by
  rw [FixClient.act, h]

theorem act_none (h : decision.action = .none) : c.act P W decision = (c, true) := by
  rw [FixClient.act, h]

/-- What holds of a client that did nothing or sent one message, noted as subscribed or
not, holds of one that acted. -/
theorem act_rule {I : FixClient → Prop} (hsame : I c)
    (hsent : ∀ message, I (c.sendBuilt W (c.session.say P c.config message (c.clockNs W))).1)
    (hsubscribe : ∀ c', I c' → I { c' with subscribed := true }) (decision : InboundDecision) :
    I (c.act P W decision).1 := by
  cases haction : decision.action with
  | none =>
    rw [act_none haction]
    exact hsame
  | reconnect =>
    rw [act_reconnect haction]
    exact hsame
  | answerTestRequest =>
    rw [act_answer haction]
    exact hsent _
  | sendMarketDataRequest =>
    cases hsubscribed : c.subscribed with
    | true =>
      rw [act_subscribed haction hsubscribed]
      exact hsame
    | false =>
      rw [act_subscribe haction hsubscribed]
      simp only
      split_ifs
      · exact hsubscribe _ (hsent _)
      · exact hsent _

end Act

/-- What sending leaves alone: the framer, the watchdog and the inbound half of the
session. -/
structure SameInput (c c' : FixClient) : Prop where
  framer : c'.framer = c.framer
  watchdog : c'.watchdog = c.watchdog
  expectedInbound : c'.session.expectedInbound = c.session.expectedInbound

theorem SameInput.refl (c : FixClient) : SameInput c c := ⟨rfl, rfl, rfl⟩

theorem sendBuilt_snd (built : FixSession × Bytes) : (c.sendBuilt W built).2 = W.succeeds c.effects.length := by
  rw [FixClient.sendBuilt, sendAll_eq]

theorem sendBuilt_subscribed (built : FixSession × Bytes) : (c.sendBuilt W built).1.subscribed = c.subscribed := by
  rw [FixClient.sendBuilt, sendAll_eq]

theorem sameInput_say (message : Outgoing) :
    SameInput c (c.sendBuilt W (c.session.say P c.config message (c.clockNs W))).1 := by
  rw [FixClient.sendBuilt, sendAll_eq]
  exact ⟨rfl, rfl, rfl⟩

end Sending

section Handling

variable {P : SessionPlatform} {W : World} {c : FixClient} {raw : Bytes} {message : ParsedMessage}

/-- The client with a message counted and handed to the journal. -/
def FixClient.recorded (c : FixClient) (raw : Bytes) : FixClient :=
  { c with messagesReceived := c.messagesReceived + 1, effects := c.effects ++ [.onWireMessage raw] }

/-- The client with a message checked against the sequence and its kind noted. -/
def FixClient.checked (c : FixClient) (message : ParsedMessage) : FixClient :=
  { c with session := (c.session.onInbound message).1 }.noteKind (kindOf message.msgType)

theorem classifyInbound_kind (check : InboundCheck) : (classifyInbound message check).kind = kindOf message.msgType := by
  unfold classifyInbound
  generalize kindOf message.msgType = kind
  cases check.sessionBroken with
  | true => rfl
  | false => cases kind <;> rfl

theorem handleFramed_refused (h : W.succeeds c.effects.length = false) :
    c.handleFramed P W raw = (c.recorded raw, false) := by
  unfold FixClient.handleFramed FixClient.journalMessage FixClient.perform
  simp only [h]
  rfl

theorem handleFramed_unparsed (h : W.succeeds c.effects.length = true) (hraw : parsed raw = none) :
    c.handleFramed P W raw = (c.recorded raw, false) := by
  unfold FixClient.handleFramed FixClient.journalMessage FixClient.perform
  simp only [h]
  cases hparse : parseMessage raw with
  | error reason => rfl
  | ok message =>
    rw [parsed, hparse] at hraw
    cases hraw

theorem handleFramed_parsed (h : W.succeeds c.effects.length = true) (hraw : parsed raw = some message) :
    c.handleFramed P W raw =
      ((c.recorded raw).checked message).act P W (classifyInbound message (c.session.onInbound message).2) := by
  unfold FixClient.handleFramed FixClient.journalMessage FixClient.perform
  simp only [h]
  cases hparse : parseMessage raw with
  | error reason =>
    rw [parsed, hparse] at hraw
    cases hraw
  | ok other =>
    rw [parsed, hparse] at hraw
    cases hraw
    simp only [classifyInbound_kind]
    rfl

section Checked

theorem checked_effects : (c.checked message).effects = c.effects := by
  unfold FixClient.checked FixClient.noteKind
  split <;> rfl

theorem checked_config : (c.checked message).config = c.config := by
  unfold FixClient.checked FixClient.noteKind
  split <;> rfl

theorem checked_session : (c.checked message).session = (c.session.onInbound message).1 := by
  unfold FixClient.checked FixClient.noteKind
  split <;> rfl

theorem checked_subscribed : (c.checked message).subscribed = c.subscribed := by
  unfold FixClient.checked FixClient.noteKind
  split <;> rfl

theorem checked_framer : (c.checked message).framer = c.framer := by
  unfold FixClient.checked FixClient.noteKind
  split <;> rfl

theorem checked_watchdog : (c.checked message).watchdog = c.watchdog := by
  unfold FixClient.checked FixClient.noteKind
  split <;> rfl

end Checked

end Handling

end CryptoTrader.Deribit
