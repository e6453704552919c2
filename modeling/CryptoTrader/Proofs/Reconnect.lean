import CryptoTrader.Proofs.FixConversation
import CryptoTrader.Spec.FixReconnect
import Mathlib.Data.List.Chain

/-! The backoff of the FIX client. The count of failures is reset by any message that is
framed on a connection, not by the Logon: a peer that answers the Logon with a Logout is
connected to again at once. A connection is told by what arrives on it, and the read loop
is followed up to the first Logon. -/

namespace CryptoTrader.Deribit

open CryptoTrader.Fix

section Delay

variable {failures minMs maxMs : ℕ}

theorem reconnectDelayMs_zero : reconnectDelayMs 0 minMs maxMs = 0 := rfl

/-- Short of 2^53 the shift loses no bit. -/
theorem reconnectDelayMs_succ (hmin : minMs < 2 ^ 53) :
    reconnectDelayMs (failures + 1) minMs maxMs = min maxMs (minMs * 2 ^ min failures kMaxBackoffDoublings) := by
  have hshift : 2 ^ min failures kMaxBackoffDoublings ≤ 2 ^ 10 :=
    Nat.pow_le_pow_right (by decide) (Nat.min_le_right _ _)
  have hwidth : minMs * 2 ^ min failures kMaxBackoffDoublings < 2 ^ 64 :=
    calc minMs * 2 ^ min failures kMaxBackoffDoublings ≤ minMs * 2 ^ 10 := Nat.mul_le_mul_left _ hshift
      _ < 2 ^ 53 * 2 ^ 10 := Nat.mul_lt_mul_of_pos_right hmin (by decide)
      _ < 2 ^ 64 := by decide
  simp only [reconnectDelayMs, if_neg (Nat.succ_ne_zero _), Nat.add_sub_cancel, Nat.mod_eq_of_lt hwidth]

/-- After a failure the wait is between the bounds, and no shorter than the one before. -/
theorem reconnectDelayMs_failed (hle : minMs ≤ maxMs) (hmin : minMs < 2 ^ 53) :
    minMs ≤ reconnectDelayMs (failures + 1) minMs maxMs ∧ reconnectDelayMs (failures + 1) minMs maxMs ≤ maxMs ∧
      reconnectDelayMs failures minMs maxMs ≤ reconnectDelayMs (failures + 1) minMs maxMs := by
  rw [reconnectDelayMs_succ hmin]
  refine ⟨Nat.le_min.2 ⟨hle, Nat.le_mul_of_pos_right _ (Nat.two_pow_pos _)⟩, Nat.min_le_left _ _, ?_⟩
  cases failures with
  | zero => exact Nat.zero_le _
  | succ failures =>
    have hmore : min failures kMaxBackoffDoublings ≤ min (failures + 1) kMaxBackoffDoublings := by omega
    rw [reconnectDelayMs_succ hmin]
    exact min_le_min_left _ (Nat.mul_le_mul_left _ (Nat.pow_le_pow_right (by decide) hmore))

/-- Without a lower bound there is no wait. -/
theorem reconnectDelayMs_min_zero : reconnectDelayMs failures 0 maxMs = 0 := by
  simp only [reconnectDelayMs, Nat.zero_mul, Nat.zero_mod, Nat.min_zero, ite_self]

end Delay

section Reply

variable (W : World) (c : FixClient) (run : ConnectionRun)

/-- Among some messages that follow those `before` there is a Logon the client comes to:
each message up to it is journaled, those before it go on with the connection, and their
TestRequests are answered. `index` is the number of the next effect. -/
def logonAmong : ℕ → List Bytes → List Bytes → Bool
  | _, _, [] => false
  | index, before, raw :: messages =>
    W.succeeds index && (parsed raw).any fun message =>
      message.msgType = MsgType.kLogon ||
        (decide (GoesOn before raw) &&
          if message.msgType = MsgType.kTestRequest then
            W.succeeds (index + 1) && logonAmong (index + 2) (before ++ [raw]) messages
          else logonAmong (index + 1) (before ++ [raw]) messages)

/-- The client comes to the read loop: the socket connects, the capture starts, there is a
nonce and the Logon goes out. -/
def logonSent : Bool :=
  run.connected && W.succeeds c.effects.length && run.nonce.isSome && W.succeeds (c.effects.length + 1)

/-- The messages that arrive before a stop. -/
def arrivedUntilStop : List Bytes :=
  framedMessages (inbound (c.watchdog.noteActivity run.loggedNs) (untilStop run.rounds))

/-- Some message arrives. -/
def delivers : Bool := logonSent W c run && !(arrivedUntilStop c run).isEmpty

/-- A reply to the Logon arrives. -/
def repliesLogon : Bool := logonSent W c run && logonAmong W (c.effects.length + 2) [] (arrivedUntilStop c run)

end Reply

section Among

variable {W : World} {index : ℕ} {before messages : List Bytes} {raw : Bytes} {message : ParsedMessage}

theorem logonAmong_refused (h : W.succeeds index = false) : logonAmong W index before (raw :: messages) = false := by
  rw [logonAmong, h, Bool.false_and]

theorem logonAmong_unparsed (hraw : parsed raw = none) : logonAmong W index before (raw :: messages) = false := by
  rw [logonAmong, hraw, Option.any_none, Bool.and_false]

theorem logonAmong_logon (h : W.succeeds index = true) (hraw : parsed raw = some message)
    (hlogon : message.msgType = MsgType.kLogon) : logonAmong W index before (raw :: messages) = true := by
  rw [logonAmong, h, hraw, Option.any_some, hlogon]
  simp

theorem logonAmong_ended (hraw : parsed raw = some message) (hlogon : message.msgType ≠ MsgType.kLogon)
    (hgoes : ¬ GoesOn before raw) : logonAmong W index before (raw :: messages) = false := by
  rw [logonAmong, hraw, Option.any_some]
  simp [hlogon, hgoes]

theorem logonAmong_goesOn (h : W.succeeds index = true) (hraw : parsed raw = some message)
    (hlogon : message.msgType ≠ MsgType.kLogon) (hgoes : GoesOn before raw) :
    logonAmong W index before (raw :: messages) =
      if message.msgType = MsgType.kTestRequest then
        W.succeeds (index + 1) && logonAmong W (index + 2) (before ++ [raw]) messages
      else logonAmong W (index + 1) (before ++ [raw]) messages := by
  rw [logonAmong, h, hraw, Option.any_some]
  simp [hlogon, hgoes]

end Among

section Counts

variable {P : SessionPlatform} {W : World} (c : FixClient)

/-- What sending and the timers leave alone. -/
structure SameCounts (c c' : FixClient) : Prop where
  loggedOn : c'.loggedOn = c.loggedOn
  messagesReceived : c'.messagesReceived = c.messagesReceived

theorem SameCounts.refl : SameCounts c c := ⟨rfl, rfl⟩

theorem sendBuilt_counts (built : FixSession × Bytes) : SameCounts c (c.sendBuilt W built).1 := by
  rw [FixClient.sendBuilt, sendAll_eq]
  exact ⟨rfl, rfl⟩

theorem act_counts (decision : InboundDecision) : SameCounts c (c.act P W decision).1 :=
  act_rule (SameCounts.refl c) (fun _ => sendBuilt_counts c _)
    (fun _ h => ⟨h.loggedOn, h.messagesReceived⟩) decision

theorem sendHeartbeatIfDue_counts (nowNs : ℕ) : SameCounts c (c.sendHeartbeatIfDue P W nowNs).1 := by
  unfold FixClient.sendHeartbeatIfDue
  split_ifs
  · exact .refl c
  · exact .refl c
  · exact sendBuilt_counts c _

theorem checked_loggedOn (message : ParsedMessage) :
    (c.checked message).loggedOn = (c.loggedOn || decide (message.msgType = MsgType.kLogon)) := by
  unfold FixClient.checked
  rcases kindOf_cases message.msgType with ⟨htype, hkind⟩ | ⟨htype, hkind⟩ | ⟨htype, hkind⟩ | ⟨hlogon, -, -, hkind⟩
  · rw [hkind, htype]
    simp [FixClient.noteKind]
  · rw [hkind, htype]
    simp [FixClient.noteKind, show MsgType.kTestRequest ≠ MsgType.kLogon by decide]
  · rw [hkind, htype]
    simp [FixClient.noteKind, show MsgType.kLogout ≠ MsgType.kLogon by decide]
  · generalize kindOf message.msgType = kind at hkind
    cases kind <;> first | (simp at hkind; done) | simp [FixClient.noteKind, hlogon]

theorem checked_messagesReceived (message : ParsedMessage) :
    (c.checked message).messagesReceived = c.messagesReceived := by
  unfold FixClient.checked FixClient.noteKind
  split <;> rfl

/-- A message that is handled is counted, and a Logon stays accepted. -/
theorem handleFramed_counts (raw : Bytes) :
    (c.handleFramed P W raw).1.messagesReceived = c.messagesReceived + 1 ∧
      (c.loggedOn = true → (c.handleFramed P W raw).1.loggedOn = true) := by
  cases hjournaled : W.succeeds c.effects.length with
  | false =>
    rw [handleFramed_refused hjournaled]
    exact ⟨rfl, id⟩
  | true =>
    cases hraw : parsed raw with
    | none =>
      rw [handleFramed_unparsed hjournaled hraw]
      exact ⟨rfl, id⟩
    | some message =>
      rw [handleFramed_parsed hjournaled hraw]
      have hcounts := act_counts (P := P) (W := W) ((c.recorded raw).checked message)
        (classifyInbound message (c.session.onInbound message).2)
      refine ⟨hcounts.messagesReceived.trans (checked_messagesReceived _ message), fun hlogged => ?_⟩
      have hrecorded : (c.recorded raw).loggedOn = true := hlogged
      rw [hcounts.loggedOn, checked_loggedOn, hrecorded, Bool.true_or]

end Counts

section Rule

variable (W : World) (first count : ℕ)

/-- Since the Logon went out the client has handled the messages `before`: it has counted
them, and knows of a Logon if there was one among them. -/
structure Counted (before : List Bytes) (c : FixClient) : Prop where
  received : c.messagesReceived = count + before.length
  unanswered : c.loggedOn = false → c.session.expectedInbound = (sequenceNumbers before).length + 1 ∧
    ∀ messages, logonAmong W first [] (before ++ messages) = logonAmong W c.effects.length before messages
  answered : c.loggedOn = true → ∀ messages, logonAmong W first [] (before ++ messages) = true

/-- The client is done with a connection on which `messages` arrived. -/
structure Outcome (messages : List Bytes) (c : FixClient) : Prop where
  received : count < c.messagesReceived ↔ messages ≠ []
  loggedOn : c.loggedOn = logonAmong W first [] messages

variable {W first count} {P : SessionPlatform} {before : List Bytes} {c : FixClient}

theorem Counted.outcome (h : Counted W first count before c) : Outcome W first count before c := by
  refine ⟨?_, ?_⟩
  · rw [h.received, ← List.length_pos_iff]
    omega
  · cases hlogged : c.loggedOn with
    | true => simpa using (h.answered hlogged []).symm
    | false =>
      have hamong := (h.unanswered hlogged).2 []
      rw [List.append_nil] at hamong
      rw [hamong, logonAmong]

/-- A message that ends the connection. -/
theorem outcome_of_handled {raw : Bytes} {c' : FixClient} (hreceived : c'.messagesReceived = count + before.length + 1)
    {tail : List Bytes} (hlogged : c'.loggedOn = logonAmong W first [] (before ++ raw :: tail)) :
    Outcome W first count (before ++ raw :: tail) c' := by
  have hmore : count < c'.messagesReceived := by
    rw [hreceived]
    omega
  exact ⟨iff_of_true hmore (by simp), hlogged⟩

/-- Once a Logon is accepted every message that follows is only counted. -/
theorem Counted.framed_answered (h : Counted W first count before c) (hlogged : c.loggedOn = true) (raw : Bytes) :
    Counted W first count (before ++ [raw]) (c.handleFramed P W raw).1 ∧
      ∀ tail, Outcome W first count (before ++ raw :: tail) (c.handleFramed P W raw).1 := by
  obtain ⟨hreceived, hstays⟩ := handleFramed_counts (P := P) (W := W) c raw
  have hstill := hstays hlogged
  rw [h.received] at hreceived
  refine ⟨⟨?_, fun hnot => ?_, fun _ messages => ?_⟩, fun tail => outcome_of_handled hreceived ?_⟩
  · rw [hreceived, List.length_append]
    rfl
  · rw [hstill] at hnot
    cases hnot
  · rw [List.append_assoc]
    exact h.answered hlogged _
  · rw [hstill, h.answered hlogged]

/-- A message that is no Logon and goes on, with what is sent for it. -/
theorem Counted.snoc (h : Counted W first count before c) (hlogged : c.loggedOn = false) {raw : Bytes}
    {c' : FixClient} (hreceived : c'.messagesReceived = count + before.length + 1) (hlogged' : c'.loggedOn = false)
    (hexpected : c'.session.expectedInbound = (sequenceNumbers (before ++ [raw])).length + 1)
    (hnext : ∀ messages, logonAmong W c.effects.length before (raw :: messages) =
      logonAmong W c'.effects.length (before ++ [raw]) messages) : Counted W first count (before ++ [raw]) c' := by
  refine ⟨?_, fun _ => ⟨hexpected, fun messages => ?_⟩, fun hlogon => ?_⟩
  · rw [hreceived, List.length_append]
    rfl
  · rw [List.append_assoc, ← hnext]
    exact (h.unanswered hlogged).2 _
  · rw [hlogged'] at hlogon
    cases hlogon

/-- The first Logon is accepted, whether or not the connection goes on. -/
theorem Counted.framed_logon (h : Counted W first count before c) (hlogged : c.loggedOn = false) {raw : Bytes}
    {message : ParsedMessage} (hjournaled : W.succeeds c.effects.length = true) (hraw : parsed raw = some message)
    (hlogon : message.msgType = MsgType.kLogon) {c' : FixClient}
    (hreceived : c'.messagesReceived = count + before.length + 1) (hlogged' : c'.loggedOn = true) :
    Counted W first count (before ++ [raw]) c' ∧ ∀ tail, Outcome W first count (before ++ raw :: tail) c' := by
  have hamong (tail : List Bytes) : logonAmong W first [] (before ++ raw :: tail) = true := by
    rw [(h.unanswered hlogged).2, logonAmong_logon hjournaled hraw hlogon]
  refine ⟨⟨?_, fun hnot => ?_, fun _ messages => ?_⟩, fun tail => outcome_of_handled hreceived ?_⟩
  · rw [hreceived, List.length_append]
    rfl
  · rw [hlogged'] at hnot
    cases hnot
  · rw [List.append_assoc]
    exact hamong messages
  · rw [hlogged', hamong]

/-- A message that is no Logon and goes on is answered if it is a TestRequest. -/
theorem Counted.framed_goesOn (h : Counted W first count before c) (hlogged : c.loggedOn = false) {raw : Bytes}
    {message : ParsedMessage} (hjournaled : W.succeeds c.effects.length = true) (hraw : parsed raw = some message)
    (hlogon : message.msgType ≠ MsgType.kLogon) (hgoes : GoesOn before raw) {after : FixClient × Bool}
    (hafter : after =
      ((c.recorded raw).checked message).act P W (classifyInbound message (c.session.onInbound message).2))
    (hreceived : after.1.messagesReceived = count + before.length + 1) (hlogged' : after.1.loggedOn = false) :
    (after.2 = true ∧ Counted W first count (before ++ [raw]) after.1) ∨
    (after.2 = false ∧ ∀ tail, Outcome W first count (before ++ raw :: tail) after.1) := by
  obtain ⟨hexpected, hamong⟩ := h.unanswered hlogged
  obtain ⟨hin, -, -, -⟩ := onInbound_spec hraw hexpected
  obtain ⟨hseq, hlogout⟩ := (goesOn_iff hraw).1 hgoes
  obtain ⟨hunbroken, hcounted⟩ := hin hseq
  have hlength : ((c.recorded raw).checked message).effects.length = c.effects.length + 1 := by
    rw [checked_effects]
    exact List.length_append
  have hinput := sameInput_act (P := P) (W := W) ((c.recorded raw).checked message)
    (classifyInbound message (c.session.onInbound message).2)
  have hnumber := hinput.expectedInbound
  rw [← hafter, checked_session] at hnumber
  have hnext (messages : List Bytes) : logonAmong W c.effects.length before (raw :: messages) = _ :=
    logonAmong_goesOn hjournaled hraw hlogon hgoes
  rcases classifyInbound_cases message hunbroken with ⟨htype, -⟩ | ⟨htype, haction, -⟩ | ⟨htype, -⟩ |
    ⟨-, htest, -, haction⟩
  · exact absurd htype hlogon
  · rw [act_answer haction] at hafter
    have hsent : after.2 = W.succeeds (c.effects.length + 1) := by rw [hafter, sendBuilt_snd, hlength]
    have heffects : after.1.effects.length = c.effects.length + 2 := by
      rw [hafter, FixClient.sendBuilt, sendAll_eq]
      simp only [List.length_append, List.length_singleton, hlength]
    cases hgo : W.succeeds (c.effects.length + 1) with
    | true =>
      refine Or.inl ⟨hsent.trans hgo, h.snoc hlogged hreceived hlogged' (hnumber.trans hcounted) fun messages => ?_⟩
      rw [hnext, if_pos htype, hgo, Bool.true_and, heffects]
    | false =>
      refine Or.inr ⟨hsent.trans hgo, fun tail => outcome_of_handled hreceived ?_⟩
      rw [hamong, hnext, if_pos htype, hgo, Bool.false_and, hlogged']
  · exact absurd htype hlogout
  · rw [act_none haction] at hafter
    refine Or.inl ⟨by rw [hafter], h.snoc hlogged hreceived hlogged' (hnumber.trans hcounted) fun messages => ?_⟩
    rw [hnext, if_neg htest, hafter, hlength]

/-- Before that each message is judged as the client does. -/
theorem Counted.framed_unanswered (h : Counted W first count before c) (hlogged : c.loggedOn = false) (raw : Bytes) :
    ((c.handleFramed P W raw).2 = true ∧ Counted W first count (before ++ [raw]) (c.handleFramed P W raw).1) ∨
    ((c.handleFramed P W raw).2 = false ∧
      ∀ tail, Outcome W first count (before ++ raw :: tail) (c.handleFramed P W raw).1) := by
  obtain ⟨hexpected, hamong⟩ := h.unanswered hlogged
  have hreceived := (handleFramed_counts (P := P) (W := W) c raw).1
  rw [h.received] at hreceived
  cases hjournaled : W.succeeds c.effects.length with
  | false =>
    rw [handleFramed_refused hjournaled] at hreceived ⊢
    refine Or.inr ⟨rfl, fun tail => outcome_of_handled hreceived ?_⟩
    rw [hamong, logonAmong_refused hjournaled]
    exact hlogged
  | true =>
    cases hraw : parsed raw with
    | none =>
      rw [handleFramed_unparsed hjournaled hraw] at hreceived ⊢
      refine Or.inr ⟨rfl, fun tail => outcome_of_handled hreceived ?_⟩
      rw [hamong, logonAmong_unparsed hraw]
      exact hlogged
    | some message =>
      rw [handleFramed_parsed hjournaled hraw] at hreceived ⊢
      have hrecorded : (c.recorded raw).loggedOn = false := hlogged
      have hkind := (act_counts (P := P) (W := W) ((c.recorded raw).checked message)
        (classifyInbound message (c.session.onInbound message).2)).loggedOn
      rw [checked_loggedOn, hrecorded, Bool.false_or] at hkind
      by_cases hlogon : message.msgType = MsgType.kLogon
      · -- a Logon counts even if its number breaks the session
        rw [decide_eq_true hlogon] at hkind
        obtain ⟨hcounted, houtcome⟩ := h.framed_logon hlogged hjournaled hraw hlogon hreceived hkind
        exact (Bool.eq_false_or_eq_true _).imp (fun hgo => ⟨hgo, hcounted⟩) fun hgo => ⟨hgo, houtcome⟩
      · rw [decide_eq_false hlogon] at hkind
        by_cases hgoes : GoesOn before raw
        · exact h.framed_goesOn hlogged hjournaled hraw hlogon hgoes rfl hreceived hkind
        · rw [act_reconnect (reconnect_of_not_goesOn hraw hexpected hgoes)] at hreceived hkind ⊢
          refine Or.inr ⟨rfl, fun tail => outcome_of_handled hreceived ?_⟩
          rw [hamong, logonAmong_ended hraw hlogon hgoes, hkind]

/-- The effects and the session do not matter after the first Logon, and before it no
heartbeat is due. -/
theorem Counted.heartbeat (h : Counted W first count before c) (nowNs : ℕ) :
    Counted W first count before (c.sendHeartbeatIfDue P W nowNs).1 ∧
      ((c.sendHeartbeatIfDue P W nowNs).2 = false → c.loggedOn = true) := by
  cases hlogged : c.loggedOn with
  | false =>
    rw [FixClient.sendHeartbeatIfDue, if_pos (Or.inl (by rw [hlogged]; simp))]
    exact ⟨h, fun hsent => absurd hsent (by simp)⟩
  | true =>
    have hcounts := sendHeartbeatIfDue_counts (P := P) (W := W) c nowNs
    refine ⟨⟨hcounts.messagesReceived.trans h.received, fun hnot => ?_, fun _ => h.answered hlogged⟩, fun _ => rfl⟩
    rw [hcounts.loggedOn, hlogged] at hnot
    cases hnot

/-- The counts by the rule of the read loop. A heartbeat that cannot be sent comes after a
message, the Logon. -/
theorem counting_rule : LoopRule P W True (Counted W first count) (Outcome W first count) where
  congr := by
    intro before c framer watchdog forcedReconnects h
    exact ⟨h.received, h.unanswered, h.answered⟩
  framed := by
    intro before c raw h
    cases hlogged : c.loggedOn with
    | false => exact h.framed_unanswered hlogged raw
    | true =>
      obtain ⟨hcounted, houtcome⟩ := h.framed_answered (P := P) hlogged raw
      cases hgo : (c.handleFramed P W raw).2 with
      | true => exact Or.inl ⟨rfl, hcounted⟩
      | false => exact Or.inr ⟨rfl, houtcome⟩
  heartbeat := by
    intro before c nowNs h
    obtain ⟨hcounted, hfailed⟩ := h.heartbeat (P := P) nowNs
    have hcounts := sendHeartbeatIfDue_counts (P := P) (W := W) c nowNs
    cases hgo : (c.sendHeartbeatIfDue P W nowNs).2 with
    | true => exact Or.inl ⟨rfl, hcounted⟩
    | false =>
      have hlogged := hfailed hgo
      have hne : before ≠ [] := by
        rintro rfl
        have hanswered := h.answered hlogged []
        cases hanswered
      have hmore : count < (c.sendHeartbeatIfDue P W nowNs).1.messagesReceived := by
        have hlength := List.length_pos_iff.2 hne
        rw [hcounts.messagesReceived, h.received]
        omega
      refine Or.inr ⟨rfl, fun tail => ⟨iff_of_true hmore (by simp [hne]), ?_⟩⟩
      rw [hcounts.loggedOn, hlogged, h.answered hlogged]
  leave := Counted.outcome
  logout := by
    intro before c _ h
    have hcounts := sendBuilt_counts (W := W) c (c.session.buildLogout P (ascii "shutting down") (c.clockNs W))
    have houtcome := h.outcome
    refine ⟨?_, hcounts.loggedOn.trans houtcome.loggedOn⟩
    rw [hcounts.messagesReceived]
    exact houtcome.received

end Rule

section Connection

/-- A connection that does not come to the read loop. -/
theorem outcome_of_not_sent {W : World} {c c' : FixClient} {run : ConnectionRun} (hsent : logonSent W c run = false)
    (hreceived : c'.messagesReceived = c.messagesReceived) :
    (c.messagesReceived < c'.messagesReceived ↔ delivers W c run = true) ∧
      (logonSent W c run = true → c'.loggedOn = repliesLogon W c run) := by
  rw [hreceived, delivers, hsent]
  simp

variable (P : SessionPlatform) (W : World) (c : FixClient) (run : ConnectionRun)

/-- The loop after the Logon. -/
theorem outcome_of_logon {nonce : Bytes} {sent last : FixClient} {go : Bool}
    (hlogged : sent = { (sendLogon P W c run nonce).1 with
      watchdog := (sendLogon P W c run nonce).1.watchdog.noteActivity run.loggedNs })
    (hloop : sent.readLoop P W run.rounds = (last, go)) :
    Outcome W (c.effects.length + 2) c.messagesReceived (arrivedUntilStop c run) last := by
  obtain ⟨-, hinput, -, -⟩ := sendLogon_spec P W c run nonce
  have hcounts : SameCounts (begun c run.startNs) (sendLogon P W c run nonce).1 := sendBuilt_counts _ _
  have hlength : (sendLogon P W c run nonce).1.effects.length = c.effects.length + 2 := by
    rw [sendLogon, FixClient.sendBuilt, sendAll_eq]
    simp [begun, opening]
  have hstart : Counted W (c.effects.length + 2) c.messagesReceived [] sent := by
    rw [hlogged]
    refine ⟨hcounts.messagesReceived, fun _ => ⟨hinput.expectedInbound, fun messages => ?_⟩, fun hon => ?_⟩
    · rw [hlength, List.nil_append]
    · have hoff : (sendLogon P W c run nonce).1.loggedOn = false := hcounts.loggedOn
      exact absurd (hoff.symm.trans hon) (by simp)
  obtain ⟨hframer, hwatchdog⟩ := logged_input hlogged
  have hdone := counting_rule.readLoop_init (P := P) hstart hframer run.rounds fun _ _ _ => trivial
  rwa [hwatchdog, hloop] at hdone

/-- What a connection counts and whether it accepts a Logon, by what arrives on it. -/
theorem runOneConnection_outcome :
    (c.messagesReceived < (c.runOneConnection P W run).messagesReceived ↔ delivers W c run = true) ∧
      (logonSent W c run = true → (c.runOneConnection P W run).loggedOn = repliesLogon W c run) := by
  have hconnects := runOneConnection_cases P W c run
  generalize c.runOneConnection P W run = after at hconnects
  cases hconnects with
  | refused hconnected => exact outcome_of_not_sent (by simp [logonSent, hconnected]) rfl
  | unopened hbegun => exact outcome_of_not_sent (by simp [logonSent, hbegun]) rfl
  | unsigned hnonce => exact outcome_of_not_sent (by simp [logonSent, hnonce]) rfl
  | unsent nonce hnonce hsent =>
    rw [(sendLogon_spec P W c run nonce).2.2.2] at hsent
    have hcounts : SameCounts (begun c run.startNs) (sendLogon P W c run nonce).1 := sendBuilt_counts _ _
    exact outcome_of_not_sent (by simp [logonSent, hsent]) hcounts.messagesReceived
  | looped nonce hconnected hbegun hnonce hsent hlogged hloop =>
    rename_i last go
    have houtcome := outcome_of_logon P W c run hlogged hloop
    rw [(sendLogon_spec P W c run nonce).2.2.2] at hsent
    have hlogon : logonSent W c run = true := by simp [logonSent, hconnected, hbegun, hnonce, hsent]
    have hlast : (c.messagesReceived < last.messagesReceived ↔ delivers W c run = true) ∧
        (logonSent W c run = true → last.loggedOn = repliesLogon W c run) := by
      rw [delivers, repliesLogon, hlogon, houtcome.received, houtcome.loggedOn]
      simp
    cases go with
    | true => exact hlast
    | false => exact hlast

end Connection

section Run

variable (W : World)

/-- The client has come to the read loop and accepted a Logon there. -/
def Attempted.acceptedLogon (attempted : Attempted) : Bool :=
  logonSent W attempted.before attempted.connection && attempted.after.loggedOn

/-- No message arrives on the connection without a reply to the Logon. -/
def Attempted.Answered (attempted : Attempted) : Prop :=
  delivers W attempted.before attempted.connection = true → repliesLogon W attempted.before attempted.connection = true

/-- After a connection on which no Logon was accepted, the wait is between the bounds and no
shorter than the one before. -/
def BackedOff (waits : ReconnectWaits) (attempted next : Attempted) : Prop :=
  attempted.acceptedLogon W = false →
    waits.minReconnectWaitMs ≤ next.delayMs ∧ next.delayMs ≤ waits.maxReconnectWaitMs ∧
      attempted.delayMs ≤ next.delayMs

instance (attempted : Attempted) : Decidable (attempted.Answered W) :=
  inferInstanceAs (Decidable (delivers _ _ _ = true → repliesLogon _ _ _ = true))

instance (waits : ReconnectWaits) (attempted next : Attempted) : Decidable (BackedOff W waits attempted next) :=
  inferInstanceAs (Decidable (_ = false → _ ≤ _ ∧ _ ≤ _ ∧ _ ≤ _))

variable (P : SessionPlatform) (waits : ReconnectWaits)

/-- What an attempt is: the wait is that of the failures before it, and the connection is
run. -/
structure Attempted.Genuine (attempted : Attempted) : Prop where
  delayMs : attempted.delayMs =
    reconnectDelayMs attempted.consecutiveFailures waits.minReconnectWaitMs waits.maxReconnectWaitMs
  after : attempted.after = attempted.before.runOneConnection P W attempted.connection

/-- How the failures are counted from one attempt to the next. -/
def CountsOn (attempted next : Attempted) : Prop :=
  next.consecutiveFailures =
    if attempted.before.messagesReceived < attempted.after.messagesReceived then 0
    else attempted.consecutiveFailures + 1

/-- The run: its attempts are genuine and count on from the first. -/
theorem runFrom_spec (attempts : List Attempt) (c : FixClient) (consecutiveFailures : ℕ) :
    let made := c.runFrom P W waits consecutiveFailures attempts
    (∀ attempted ∈ made, attempted.Genuine W P waits) ∧ made.IsChain CountsOn ∧
      ∀ attempted ∈ made.head?, attempted.consecutiveFailures = consecutiveFailures := by
  induction attempts generalizing c consecutiveFailures with
  | nil => simp [FixClient.runFrom]
  | cons attempt attempts ih =>
    simp only [FixClient.runFrom]
    by_cases hstopping : attempt.stopping = true ∨ c.fatal = true
    · simp [if_pos hstopping]
    rw [if_neg hstopping]
    by_cases hstopped : reconnectDelayMs consecutiveFailures waits.minReconnectWaitMs waits.maxReconnectWaitMs ≠ 0 ∧
        attempt.waitStopped = true
    · simp [if_pos hstopped]
    rw [if_neg hstopped]
    obtain ⟨hgenuine, hchain, hhead⟩ := ih (c.runOneConnection P W attempt.connection)
      (if c.messagesReceived < (c.runOneConnection P W attempt.connection).messagesReceived then 0
        else consecutiveFailures + 1)
    refine ⟨?_, ?_, by simp⟩
    · intro attempted hmem
      rcases List.mem_cons.1 hmem with rfl | hmem
      · exact ⟨rfl, rfl⟩
      · exact hgenuine attempted hmem
    · exact List.isChain_cons.2 ⟨hhead, hchain⟩

variable {W P waits} {attempted next : Attempted}

/-- Who was answered is who the client knows of, and any message resets the count. -/
theorem Attempted.Genuine.counts (h : attempted.Genuine W P waits) :
    (attempted.before.messagesReceived < attempted.after.messagesReceived ↔
      delivers W attempted.before attempted.connection = true) ∧
    attempted.acceptedLogon W = repliesLogon W attempted.before attempted.connection := by
  obtain ⟨hreceived, hlogged⟩ := runOneConnection_outcome P W attempted.before attempted.connection
  rw [← h.after] at hreceived hlogged
  refine ⟨hreceived, ?_⟩
  cases hsent : logonSent W attempted.before attempted.connection with
  | false => rw [Attempted.acceptedLogon, repliesLogon, hsent, Bool.false_and, Bool.false_and]
  | true => rw [Attempted.acceptedLogon, hsent, Bool.true_and, hlogged hsent]

/-- One attempt and the next. -/
theorem backedOff_iff (hle : waits.minReconnectWaitMs ≤ waits.maxReconnectWaitMs)
    (hmin : waits.minReconnectWaitMs < 2 ^ 53) (h : attempted.Genuine W P waits) (hnext : next.Genuine W P waits)
    (hcounts : CountsOn attempted next) :
    BackedOff W waits attempted next ↔ waits.minReconnectWaitMs = 0 ∨ attempted.Answered W := by
  obtain ⟨hreceived, hlogged⟩ := h.counts
  rw [BackedOff, Attempted.Answered, hlogged, h.delayMs, hnext.delayMs]
  rw [CountsOn] at hcounts
  cases hdelivers : delivers W attempted.before attempted.connection with
  | false =>
    -- nothing arrived, so the count goes on
    rw [if_neg (fun hmore => by rw [hreceived.1 hmore] at hdelivers; cases hdelivers)] at hcounts
    rw [hcounts]
    simp only [Bool.false_eq_true, false_implies, or_true, iff_true]
    exact fun _ => reconnectDelayMs_failed hle hmin
  | true =>
    -- something did, and the next wait is none
    rw [if_pos (hreceived.2 hdelivers)] at hcounts
    rw [hcounts, reconnectDelayMs_zero]
    cases repliesLogon W attempted.before attempted.connection with
    | true => simp
    | false =>
      simp only [true_implies, Bool.false_eq_true, imp_false, not_true_eq_false, or_false]
      constructor
      · intro hbacked
        exact Nat.le_zero.1 hbacked.1
      · intro hzero
        rw [hzero, reconnectDelayMs_min_zero]
        exact ⟨Nat.le_refl _, Nat.zero_le _, Nat.le_refl _⟩

/-- A session that never logs on is backed off if and only if nothing is said on it: in a
run of the client, after each connection on which it accepted no Logon the wait is between
the bounds and no shorter than the one before, if and only if on each connection that is
followed by another no message arrives without a reply to the Logon, or the least wait is
zero. -/
theorem backed_off_iff_answered (P : SessionPlatform) (W : World) (waits : ReconnectWaits) (c : FixClient)
    (attempts : List Attempt) (hle : waits.minReconnectWaitMs ≤ waits.maxReconnectWaitMs)
    (hmin : waits.minReconnectWaitMs < 2 ^ 53) :
    (c.run P W waits attempts).IsChain (BackedOff W waits) ↔
      waits.minReconnectWaitMs = 0 ∨ (c.run P W waits attempts).IsChain fun attempted _ => attempted.Answered W := by
  obtain ⟨hgenuine, hchain, -⟩ := runFrom_spec W P waits attempts c 0
  rw [← FixClient.run] at hgenuine hchain
  generalize c.run P W waits attempts = made at hgenuine hchain
  rw [List.isChain_iff_getElem] at hchain ⊢
  rw [List.isChain_iff_getElem]
  have hpair (i : ℕ) (hi : i + 1 < made.length) : BackedOff W waits made[i] made[i + 1] ↔
      waits.minReconnectWaitMs = 0 ∨ made[i].Answered W :=
    backedOff_iff hle hmin (hgenuine _ (List.getElem_mem _)) (hgenuine _ (List.getElem_mem _)) (hchain i hi)
  constructor
  · intro hbacked
    by_cases hzero : waits.minReconnectWaitMs = 0
    · exact Or.inl hzero
    · exact Or.inr fun i hi => ((hpair i hi).1 (hbacked i hi)).resolve_left hzero
  · rintro (hzero | hanswered) i hi
    · exact (hpair i hi).2 (Or.inl hzero)
    · exact (hpair i hi).2 (Or.inr (hanswered i hi))

/-- A connection that brings some bytes, if any, until the peer closes it. -/
def peerAttempt (connected : Bool) (chunks : List Bytes) : Attempt where
  run :=
    { connected, startNs := 0, nonce := some (ascii "n"), logonNs := 0, loggedNs := 0
      rounds := chunks.map fun bytes => ⟨false, false, 0, .data bytes, 0⟩ }
  closedNs := 0

/-- Two connections that fail in silence, one with half a message, one that logs on, and
two more. -/
def quietAttempts : List Attempt :=
  [peerAttempt false [], peerAttempt true [], peerAttempt true [logonReply.take 20], peerAttempt true [logonReply],
    peerAttempt true [], peerAttempt true []]

theorem quiet_attempts_backed_off :
    (freshClient.run plainPlatform healthyWorld {} quietAttempts).map (·.delayMs) = [0, 1000, 2000, 4000, 0, 1000] ∧
    (freshClient.run plainPlatform healthyWorld {} quietAttempts).IsChain (BackedOff healthyWorld {}) := by
  refine ⟨by decide +kernel, ?_⟩
  exact (backed_off_iff_answered plainPlatform healthyWorld {} freshClient quietAttempts (by decide) (by decide)).2
    (Or.inr (by decide +kernel))

/-- The peer answers each Logon with a Logout. -/
def rejectedAttempts : List Attempt :=
  List.replicate 3 (peerAttempt true [peerMessage MsgType.kLogout 1 [⟨Tag.kText, ascii "invalid_credentials"⟩]])

/-- The client never logs on, and never waits. -/
theorem rejected_logon_not_backed_off :
    (freshClient.run plainPlatform healthyWorld {} rejectedAttempts).map
        (fun attempted => (attempted.acceptedLogon healthyWorld, attempted.delayMs)) =
      [(false, 0), (false, 0), (false, 0)] ∧
    ¬ (freshClient.run plainPlatform healthyWorld {} rejectedAttempts).IsChain (BackedOff healthyWorld {}) := by
  decide +kernel

end Run

end CryptoTrader.Deribit
