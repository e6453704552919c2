import CryptoTrader.Proofs.FixLoop
import CryptoTrader.Sanity.FixConversation

/-! One FIX connection, from the bytes that arrive to the journal and to the peer. However
`recv` cuts the stream, the client holds the conversation that the stream's messages
determine. The invariant says what has been said for the messages handled so far; it is
kept message by message, and the rule of the read loop does the rest. -/

namespace CryptoTrader.Deribit

open CryptoTrader.Fix

section Spoken

variable (P : SessionPlatform) (W : World) (base : List Effect) (session : SessionConfig) (client : FixClientConfig)

/-- Since the effects `base` the client has said this. -/
structure Spoken (sayings : List Saying) (c : FixClient) : Prop where
  config : c.config = client
  sessionConfig : c.session.config = session
  effects : c.effects = base ++ transcript P W session client base.length 1 sayings
  nextOutbound : c.session.nextOutbound = 1 + sentCount sayings

variable {P W base session client} {sayings : List Saying} {c : FixClient}

namespace Spoken

theorem effects_length (h : Spoken P W base session client sayings c) :
    c.effects.length = base.length + sayings.length := by
  rw [h.effects, List.length_append, transcript_length]

theorem journal (h : Spoken P W base session client sayings c) (raw : Bytes) :
    Spoken P W base session client (sayings ++ [.journaled raw]) (c.journalMessage W raw).1 := by
  refine ⟨h.config, h.sessionConfig, ?_, ?_⟩
  · change c.effects ++ [.onWireMessage raw] = _
    rw [transcript_append, h.effects, List.append_assoc]
    rfl
  · change c.session.nextOutbound = _
    rw [h.nextOutbound, sentCount_snoc]
    rfl

theorem send (h : Spoken P W base session client sayings c) (message : Outgoing) :
    Spoken P W base session client (sayings ++ [.sent message])
      (c.sendBuilt W (c.session.say P c.config message (c.clockNs W))).1 := by
  rw [FixClient.sendBuilt, sendAll_eq]
  refine ⟨h.config, h.sessionConfig, ?_, ?_⟩
  · change c.effects ++ [.send (message.bytes P c.session.config c.config c.session.nextOutbound
      (W.realtimeNs c.effects.length))] = _
    rw [transcript_append, h.effects_length, h.sessionConfig, h.config, h.nextOutbound, h.effects, List.append_assoc]
    rfl
  · change c.session.nextOutbound + 1 = _
    rw [h.nextOutbound, sentCount_snoc, Nat.add_assoc]
    rfl

end Spoken

/-- The client answers a message that goes on, unless sending fails. -/
theorem Spoken.act (h : Spoken P W base session client sayings c) {before : List Bytes} {message : ParsedMessage}
    {check : InboundCheck} (hsubscribed : c.subscribed = anyLogon before) (hcheck : check.sessionBroken = false)
    (hlogout : message.msgType ≠ MsgType.kLogout) :
    Spoken P W base session client (sayings ++ (answer before message).map .sent)
      (c.act P W (classifyInbound message check)).1 ∧
    ((c.act P W (classifyInbound message check)).2 = true →
      (c.act P W (classifyInbound message check)).1.subscribed =
        (anyLogon before || decide (message.msgType = MsgType.kLogon))) ∧
    ((c.act P W (classifyInbound message check)).2 = false → ∃ n, W.succeeds n = false) := by
  rcases classifyInbound_cases message hcheck with ⟨htype, haction⟩ | ⟨htype, haction, hdetail⟩ | ⟨htype, -⟩ |
    ⟨hnotLogon, hnotTest, -, haction⟩
  · cases hany : anyLogon before with
    | true =>
      rw [act_subscribed haction (hsubscribed.trans hany), answer, if_pos htype, if_pos hany, List.map_nil,
        List.append_nil]
      exact ⟨h, fun _ => hsubscribed.trans hany, by simp⟩
    | false =>
      have hspoken := h.send .marketDataRequest
      rw [act_subscribe haction (hsubscribed.trans hany), answer, if_pos htype, if_neg (by simp [hany])]
      simp only
      cases hsent : (c.sendBuilt W (c.session.say P c.config .marketDataRequest (c.clockNs W))).2 with
      | true => exact ⟨⟨hspoken.config, hspoken.sessionConfig, hspoken.effects, hspoken.nextOutbound⟩,
          fun _ => by simp [htype], by simp⟩
      | false => exact ⟨hspoken, by simp, fun _ => ⟨_, sendBuilt_snd _ ▸ hsent⟩⟩
  · have hspoken := h.send (.heartbeatResponse (classifyInbound message check).detail)
    rw [act_answer haction, answer, if_neg (by rw [htype]; decide), if_pos htype, ← hdetail]
    refine ⟨hspoken, fun _ => ?_, fun hsent => ⟨_, sendBuilt_snd _ ▸ hsent⟩⟩
    rw [sendBuilt_subscribed, hsubscribed, htype]
    simp [show MsgType.kTestRequest ≠ MsgType.kLogon by decide]
  · exact absurd htype hlogout
  · rw [act_none haction, answer, if_neg hnotLogon, if_neg hnotTest, List.map_nil, List.append_nil]
    exact ⟨h, fun _ => by simp [hsubscribed, hnotLogon], by simp⟩

end Spoken

section Live

variable (P : SessionPlatform) (W : World) (base : List Effect) (session : SessionConfig) (client : FixClientConfig)
  (credentials : LogonCredentials)

/-- The client has handled the messages `before` and the connection goes on. -/
structure Live (before : List Bytes) (sayings : List Saying) (c : FixClient) : Prop where
  spoken : Spoken P W base session client sayings c
  allGoOn : AllGoOn [] before
  expected : c.session.expectedInbound = (sequenceNumbers before).length + 1
  subscribed : c.subscribed = anyLogon before
  said : sayings.filter Saying.unscheduled = .sent (.logon credentials) :: conversationAfter [] before

/-- The client is done with a connection on which `messages` arrived: it has journaled the
first of them, all but the last go on, and if nothing went wrong it has held the whole
conversation. -/
def Left (calm : Prop) (messages : List Bytes) (c : FixClient) : Prop :=
  ∃ sayings, Spoken P W base session client sayings c ∧ Journaled messages (sayings.filterMap Saying.payload) ∧
    (calm → sayings.filter Saying.unscheduled = .sent (.logon credentials) :: conversationAfter [] messages)

variable {P W base session client credentials} {before : List Bytes} {sayings : List Saying} {c : FixClient}

theorem Left.mono {calm calm' : Prop} {messages : List Bytes}
    (h : Left P W base session client credentials calm messages c) (hcalm : calm' → calm) :
    Left P W base session client credentials calm' messages c := by
  obtain ⟨sayings, hspoken, hall, hsaid⟩ := h
  exact ⟨sayings, hspoken, hall, fun h => hsaid (hcalm h)⟩

namespace Live

theorem payloads (h : Live P W base session client credentials before sayings c) :
    sayings.filterMap Saying.payload = before := by
  have hall : handledAfter [] before = before := h.allGoOn
  rw [← filterMap_unscheduled rfl, h.said, List.filterMap_cons, payloads_conversationAfter, hall]
  exact List.take_of_length_le (Nat.le_succ _)

/-- A message ends the connection: it is journaled and nothing else is said. -/
theorem left_of_ended (h : Live P W base session client credentials before sayings c) {raw : Bytes} {c' : FixClient}
    (hspoken : Spoken P W base session client (sayings ++ [.journaled raw]) c') {calm : Prop}
    (hraw : calm → ¬ GoesOn before raw) (tail : List Bytes) :
    Left P W base session client credentials calm (before ++ raw :: tail) c' := by
  refine ⟨_, hspoken, ?_, fun hcalm => ?_⟩
  · rw [List.filterMap_append, h.payloads]
    exact h.allGoOn.journaled_snoc raw tail
  · rw [h.allGoOn.conversationAfter_ended (hraw hcalm), List.filter_append, h.said, List.cons_append]
    rfl

theorem recorded (h : Live P W base session client credentials before sayings c) (raw : Bytes) :
    Spoken P W base session client (sayings ++ [.journaled raw]) (c.recorded raw) := by
  have hjournal := h.spoken.journal raw
  exact ⟨hjournal.config, hjournal.sessionConfig, hjournal.effects, hjournal.nextOutbound⟩

theorem checked (h : Live P W base session client credentials before sayings c) {raw : Bytes}
    {message : ParsedMessage} (hraw : parsed raw = some message) :
    Spoken P W base session client (sayings ++ [.journaled raw]) ((c.recorded raw).checked message) := by
  obtain ⟨-, -, hconfig, hnext⟩ := onInbound_spec hraw h.expected
  have hrecorded := h.recorded raw
  refine ⟨checked_config.trans hrecorded.config, ?_, checked_effects.trans hrecorded.effects, ?_⟩
  · rw [checked_session]
    exact hconfig.trans hrecorded.sessionConfig
  · rw [checked_session]
    exact hnext.trans hrecorded.nextOutbound

/-- A message that goes on is answered, unless sending the answer fails. -/
theorem answered (h : Live P W base session client credentials before sayings c) {raw : Bytes}
    {message : ParsedMessage} (hraw : parsed raw = some message) (hgoes : GoesOn before raw) {after : FixClient × Bool}
    (hafter : after =
      ((c.recorded raw).checked message).act P W (classifyInbound message (c.session.onInbound message).2)) :
    (after.2 = true ∧ ∃ sayings', Live P W base session client credentials (before ++ [raw]) sayings' after.1) ∨
    (after.2 = false ∧ (∃ n, W.succeeds n = false) ∧ ∃ sayings', Spoken P W base session client sayings' after.1 ∧
      sayings'.filterMap Saying.payload = before ++ [raw]) := by
  obtain ⟨hin, -, -, -⟩ := onInbound_spec hraw h.expected
  obtain ⟨hseq, hlogout⟩ := (goesOn_iff hraw).1 hgoes
  obtain ⟨hunbroken, hexpected⟩ := hin hseq
  obtain ⟨hspoken, hsubscribed, hfailed⟩ :=
    (h.checked hraw).act (checked_subscribed.trans h.subscribed) hunbroken hlogout
  have hinput := sameInput_act (P := P) (W := W) ((c.recorded raw).checked message)
    (classifyInbound message (c.session.onInbound message).2)
  rw [← hafter] at hspoken hinput hsubscribed hfailed
  have hsaid : (sayings ++ [Saying.journaled raw] ++ (answer before message).map Saying.sent).filter Saying.unscheduled =
      .sent (.logon credentials) :: conversationAfter [] (before ++ [raw]) := by
    rw [List.filter_append, List.filter_append, h.said, unscheduled_answer, h.allGoOn.conversationAfter_snoc hraw hgoes,
      List.append_assoc, List.cons_append]
    rfl
  cases hgo : after.2 with
  | true =>
    refine Or.inl ⟨rfl, _, hspoken, h.allGoOn.snoc hgoes, ?_, ?_, hsaid⟩
    · rw [hinput.expectedInbound, checked_session]
      exact hexpected
    · rw [hsubscribed hgo, anyLogon_snoc hraw]
  | false =>
    refine Or.inr ⟨rfl, hfailed hgo, _, hspoken, ?_⟩
    rw [List.filterMap_append, List.filterMap_append, h.payloads, payloads_sent, List.append_nil]
    rfl

theorem handleFramed (h : Live P W base session client credentials before sayings c) (raw : Bytes) :
    ((c.handleFramed P W raw).2 = true ∧
      ∃ sayings', Live P W base session client credentials (before ++ [raw]) sayings' (c.handleFramed P W raw).1) ∨
    ((c.handleFramed P W raw).2 = false ∧ ∀ tail,
      Left P W base session client credentials (∀ n, W.succeeds n = true) (before ++ raw :: tail)
        (c.handleFramed P W raw).1) := by
  cases hjournaled : W.succeeds c.effects.length with
  | false =>
    rw [handleFramed_refused hjournaled]
    refine Or.inr ⟨rfl, h.left_of_ended (h.recorded raw) fun hhealthy => ?_⟩
    rw [hhealthy] at hjournaled
    cases hjournaled
  | true =>
    cases hraw : parsed raw with
    | none =>
      rw [handleFramed_unparsed hjournaled hraw]
      refine Or.inr ⟨rfl, h.left_of_ended (h.recorded raw) fun _ hgoes => ?_⟩
      obtain ⟨message, hsome, -⟩ := hgoes
      rw [hraw] at hsome
      cases hsome
    | some message =>
      rw [handleFramed_parsed hjournaled hraw]
      by_cases hgoes : GoesOn before raw
      · refine (h.answered hraw hgoes rfl).imp id fun ⟨hgo, ⟨n, hn⟩, sayings', hspoken, hpayloads⟩ =>
          ⟨hgo, fun tail => ⟨sayings', hspoken, ?_, fun hhealthy => ?_⟩⟩
        · rw [hpayloads]
          exact h.allGoOn.journaled_snoc raw tail
        · rw [hhealthy] at hn
          cases hn
      · rw [act_reconnect (reconnect_of_not_goesOn hraw h.expected hgoes)]
        exact Or.inr ⟨rfl, h.left_of_ended (h.checked hraw) fun _ => hgoes⟩

/-- Only what is said and the state of the session matter. -/
theorem congr (h : Live P W base session client credentials before sayings c) {c' : FixClient}
    (hconfig : c'.config = c.config) (hsession : c'.session = c.session) (heffects : c'.effects = c.effects)
    (hsubscribed : c'.subscribed = c.subscribed) : Live P W base session client credentials before sayings c' := by
  refine ⟨⟨hconfig.trans h.spoken.config, ?_, heffects.trans h.spoken.effects, ?_⟩, h.allGoOn, ?_,
    hsubscribed.trans h.subscribed, h.said⟩
  · rw [hsession, h.spoken.sessionConfig]
  · rw [hsession, h.spoken.nextOutbound]
  · rw [hsession, h.expected]

/-- A client that has heard all the messages can leave. -/
theorem left (h : Live P W base session client credentials before sayings c) (calm : Prop) :
    Left P W base session client credentials calm before c := by
  refine ⟨sayings, h.spoken, ?_, fun _ => h.said⟩
  rw [h.payloads]
  exact h.allGoOn.journaled ⟨[], (List.append_nil _).symm⟩

/-- If something went wrong it need not have heard them all, and may have sent a heartbeat
or a Logout after those it heard. -/
theorem left_early (h : Live P W base session client credentials before sayings c) {calm : Prop} (hcalm : ¬ calm)
    (message : Outgoing) (tail : List Bytes) :
    Left P W base session client credentials calm (before ++ tail)
      (c.sendBuilt W (c.session.say P c.config message (c.clockNs W))).1 := by
  refine ⟨_, h.spoken.send message, ?_, fun h => absurd h hcalm⟩
  have hpayloads : (sayings ++ [Saying.sent message]).filterMap Saying.payload = before := by
    rw [List.filterMap_append, h.payloads]
    exact List.append_nil _
  rw [hpayloads]
  exact h.allGoOn.journaled ⟨tail, rfl⟩

/-- A scheduled heartbeat is no part of the conversation. -/
theorem heartbeat (h : Live P W base session client credentials before sayings c) :
    Live P W base session client credentials before (sayings ++ [.sent .heartbeat])
      (c.sendBuilt W (c.session.say P c.config .heartbeat (c.clockNs W))).1 := by
  have hinput : SameInput c _ := sameInput_say (P := P) (W := W) .heartbeat
  refine ⟨h.spoken.send .heartbeat, h.allGoOn, ?_, ?_, ?_⟩
  · rw [hinput.expectedInbound, h.expected]
  · rw [sendBuilt_subscribed, h.subscribed]
  · rw [List.filter_append, h.said]
    exact List.append_nil _

end Live

/-- The conversation by the rule of the read loop. -/
theorem conversation_rule (Stops : Prop) :
    LoopRule P W Stops (fun before c => ∃ sayings, Live P W base session client credentials before sayings c)
      (Left P W base session client credentials ((∀ n, W.succeeds n = true) ∧ ¬ Stops)) where
  congr := by
    rintro before c framer watchdog forcedReconnects ⟨sayings, hlive⟩
    exact ⟨sayings, hlive.congr rfl rfl rfl rfl⟩
  framed := by
    rintro before c raw ⟨sayings, hlive⟩
    exact (hlive.handleFramed raw).imp id fun hleft => ⟨hleft.1, fun tail => (hleft.2 tail).mono And.left⟩
  heartbeat := by
    rintro before c nowNs ⟨sayings, hlive⟩
    unfold FixClient.sendHeartbeatIfDue
    split_ifs
    · exact Or.inl ⟨rfl, sayings, hlive⟩
    · exact Or.inl ⟨rfl, sayings, hlive⟩
    · rw [buildHeartbeat_eq c.config]
      cases hsent : (c.sendBuilt W (c.session.say P c.config .heartbeat (c.clockNs W))).2 with
      | true => exact Or.inl ⟨rfl, _, hlive.heartbeat⟩
      | false =>
        refine Or.inr ⟨rfl, hlive.left_early (fun hcalm => ?_) .heartbeat⟩
        rw [sendBuilt_snd, hcalm.1] at hsent
        cases hsent
  leave := by
    rintro before c ⟨sayings, hlive⟩
    exact hlive.left _
  logout := by
    rintro before c hstops ⟨sayings, hlive⟩
    have hcalm : ¬ ((∀ n, W.succeeds n = true) ∧ ¬ Stops) := fun hcalm => hcalm.2 hstops
    have hleft := hlive.left_early hcalm .logout []
    rwa [List.append_nil, ← buildLogout_eq] at hleft

end Live

section Connection

variable {P : SessionPlatform} {W : World} {c : FixClient} {run : ConnectionRun}

/-- The effects before the Logon of a connection. -/
def opening (c : FixClient) : List Effect := c.effects ++ [.beginConnect (FixClient.connectReason c.config)]

/-- The credentials of the Logon for a nonce. -/
def logonCredentials (P : SessionPlatform) (c : FixClient) (run : ConnectionRun) (nonce : Bytes) : LogonCredentials :=
  makeLogonCredentials P (run.logonNs / kNanosPerMilli) nonce c.session.config.clientSecret

/-- The messages that arrive on a connection. -/
def arrived (c : FixClient) (run : ConnectionRun) : List Bytes :=
  framedMessages (inbound (c.watchdog.noteActivity run.loggedNs) run.rounds)

/-- The client with the capture open and nothing said yet. -/
def begun (c : FixClient) (startNs : ℕ) : FixClient :=
  { { c with connectionAttempts := c.connectionAttempts + 1 }.startOver startNs with effects := opening c }

theorem spoken_begun (P : SessionPlatform) (W : World) (c : FixClient) (startNs : ℕ) :
    Spoken P W (opening c) c.session.config c.config [] (begun c startNs) :=
  ⟨rfl, rfl, (List.append_nil _).symm, rfl⟩

/-- The Logon goes out, or not. -/
def sendLogon (P : SessionPlatform) (W : World) (c : FixClient) (run : ConnectionRun) (nonce : Bytes) : FixClient × Bool :=
  let c' := begun c run.startNs
  c'.sendBuilt W (c'.session.say P c'.config (.logon (logonCredentials P c run nonce)) (c'.clockNs W))

/-- The ways a connection can go. -/
inductive Connects (P : SessionPlatform) (W : World) (c : FixClient) (run : ConnectionRun) : FixClient → Prop
  | refused (hconnected : run.connected = false) :
    Connects P W c run { c with connectionAttempts := c.connectionAttempts + 1 }
  | unopened (hbegun : W.succeeds c.effects.length = false) :
    Connects P W c run ({ begun c run.startNs with fatal := true }.perform W .close).1
  | unsigned (hnonce : run.nonce = none) : Connects P W c run ((begun c run.startNs).perform W .close).1
  | unsent (nonce : Bytes) (hnonce : run.nonce = some nonce) (hsent : (sendLogon P W c run nonce).2 = false) :
    Connects P W c run ((sendLogon P W c run nonce).1.perform W .close).1
  | looped (nonce : Bytes) (hconnected : run.connected = true) (hbegun : W.succeeds c.effects.length = true)
    (hnonce : run.nonce = some nonce) (hsent : (sendLogon P W c run nonce).2 = true) {sent last : FixClient} {go : Bool}
    (hlogged : sent = { (sendLogon P W c run nonce).1 with
      watchdog := (sendLogon P W c run nonce).1.watchdog.noteActivity run.loggedNs })
    (hloop : sent.readLoop P W run.rounds = (last, go)) :
    Connects P W c run (if go then last else (last.perform W .close).1)

theorem runOneConnection_cases (P : SessionPlatform) (W : World) (c : FixClient) (run : ConnectionRun) :
    Connects P W c run (c.runOneConnection P W run) := by
  have hbegin : ({ c with connectionAttempts := c.connectionAttempts + 1 }.startOver run.startNs).perform W
      (.beginConnect (FixClient.connectReason c.config)) = (begun c run.startNs, W.succeeds c.effects.length) := rfl
  unfold FixClient.runOneConnection
  cases hconnected : run.connected with
  | false =>
    simp only [Bool.false_eq_true, not_false_eq_true, if_true]
    exact .refused hconnected
  | true =>
    simp only [not_true_eq_false, if_false]
    rw [hbegin]
    cases hbegun : W.succeeds c.effects.length with
    | false => exact .unopened hbegun
    | true =>
      simp only
      cases hnonce : run.nonce with
      | none => exact .unsigned hnonce
      | some nonce =>
        have hunsent := @Connects.unsent P W c run nonce hnonce
        have hlooped := @Connects.looped P W c run nonce hconnected hbegun hnonce
        have hsend : (begun c run.startNs).sendBuilt W ((begun c run.startNs).session.say P (begun c run.startNs).config
            (.logon (makeLogonCredentials P (run.logonNs / kNanosPerMilli) nonce
              (begun c run.startNs).session.config.clientSecret)) ((begun c run.startNs).clockNs W)) =
            sendLogon P W c run nonce := rfl
        rw [buildLogon_eq (begun c run.startNs).config]
        simp only
        rw [hsend]
        generalize sendLogon P W c run nonce = logon at hunsent hlooped
        obtain ⟨logged, ok⟩ := logon
        cases ok with
        | false => exact hunsent rfl
        | true =>
          simp only
          generalize hloop : { logged with watchdog := logged.watchdog.noteActivity run.loggedNs }.readLoop P W run.rounds =
            after
          obtain ⟨last, go⟩ := after
          have hgone := hlooped rfl rfl hloop
          cases go with
          | true => exact hgone
          | false => exact hgone

/-- The Logon is the first message of a connection. -/
theorem sendLogon_spec (P : SessionPlatform) (W : World) (c : FixClient) (run : ConnectionRun) (nonce : Bytes) :
    Spoken P W (opening c) c.session.config c.config [.sent (.logon (logonCredentials P c run nonce))]
        (sendLogon P W c run nonce).1 ∧
      SameInput (begun c run.startNs) (sendLogon P W c run nonce).1 ∧
      (sendLogon P W c run nonce).1.subscribed = false ∧
      (sendLogon P W c run nonce).2 = W.succeeds (c.effects.length + 1) := by
  refine ⟨(spoken_begun P W c run.startNs).send _, sameInput_say _, sendBuilt_subscribed _, ?_⟩
  rw [sendLogon, sendBuilt_snd]
  simp [begun, opening]

/-- With the Logon out the read loop starts afresh. -/
theorem logged_input {nonce : Bytes} {sent : FixClient}
    (h : sent = { (sendLogon P W c run nonce).1 with
      watchdog := (sendLogon P W c run nonce).1.watchdog.noteActivity run.loggedNs }) :
    sent.framer = .init kMaxBodyLength ∧ sent.watchdog = c.watchdog.noteActivity run.loggedNs := by
  obtain ⟨-, hinput, -, -⟩ := sendLogon_spec P W c run nonce
  rw [h]
  exact ⟨hinput.framer, congrArg (·.noteActivity run.loggedNs) hinput.watchdog⟩

/-- What comes of a connection: the Logon and what is said on it, then perhaps a close. The
journal has the first of the messages that arrived, and if nothing fails and no stop is
requested, what is said is the conversation. -/
def Held (P : SessionPlatform) (W : World) (c : FixClient) (run : ConnectionRun) (effects : List Effect) : Prop :=
  ∃ sayings tail, effects =
      opening c ++ transcript P W c.session.config c.config (opening c).length 1 sayings ++ tail ∧
    (tail = [] ∨ tail = [.close]) ∧ Journaled (arrived c run) (sayings.filterMap Saying.payload) ∧
    ∀ nonce, run.nonce = some nonce → (∀ n, W.succeeds n = true) → (∀ round ∈ run.rounds, round.stopping = false) →
      sayings.filter Saying.unscheduled =
        .sent (.logon (logonCredentials P c run nonce)) :: conversationAfter [] (arrived c run)

/-- A connection that fails before its Logon says nothing. -/
theorem held_of_failed (h : ∀ nonce, run.nonce = some nonce → ∃ n, W.succeeds n = false) :
    Held P W c run (opening c ++ [.close]) := by
  refine ⟨[], [.close], ?_, Or.inr rfl, .nil _, fun nonce hnonce hhealthy => ?_⟩
  · rw [transcript, List.append_nil]
  · obtain ⟨n, hn⟩ := h nonce hnonce
    rw [hhealthy] at hn
    cases hn

theorem held_of_left {nonce : Bytes} (hnonce : run.nonce = some nonce) {last : FixClient}
    (hleft : Left P W (opening c) c.session.config c.config (logonCredentials P c run nonce)
      ((∀ n, W.succeeds n = true) ∧ ∀ round ∈ run.rounds, round.stopping = false) (arrived c run) last)
    {tail : List Effect} (htail : tail = [] ∨ tail = [.close]) : Held P W c run (last.effects ++ tail) := by
  obtain ⟨sayings, hsaid, hall, hcalm⟩ := hleft
  refine ⟨sayings, tail, by rw [hsaid.effects], htail, hall, fun other hother hhealthy hcontinues => ?_⟩
  obtain rfl : nonce = other := Option.some.inj (hnonce.symm.trans hother)
  exact hcalm ⟨hhealthy, hcontinues⟩

/-- The loop after the Logon. -/
theorem left_of_logon {nonce : Bytes} {sent last : FixClient} {go : Bool}
    (hlogged : sent = { (sendLogon P W c run nonce).1 with
      watchdog := (sendLogon P W c run nonce).1.watchdog.noteActivity run.loggedNs })
    (hloop : sent.readLoop P W run.rounds = (last, go)) :
    Left P W (opening c) c.session.config c.config (logonCredentials P c run nonce)
      ((∀ n, W.succeeds n = true) ∧ ∀ round ∈ run.rounds, round.stopping = false) (arrived c run) last := by
  obtain ⟨hspoken, hinput, hsubscribed, -⟩ := sendLogon_spec P W c run nonce
  have hlive : Live P W (opening c) c.session.config c.config (logonCredentials P c run nonce) []
      [.sent (.logon (logonCredentials P c run nonce))] sent := by
    rw [hlogged]
    exact ⟨⟨hspoken.config, hspoken.sessionConfig, hspoken.effects, hspoken.nextOutbound⟩, rfl, hinput.expectedInbound,
      hsubscribed, rfl⟩
  obtain ⟨hframer, hwatchdog⟩ := logged_input hlogged
  obtain ⟨sayings, hsaid, hjournaled, hcalm⟩ :=
    (conversation_rule (∃ round ∈ run.rounds, round.stopping = true)).readLoop_init ⟨_, hlive⟩ hframer run.rounds
      fun round hround hstopping => ⟨round, hround, hstopping⟩
  rw [hloop] at hsaid
  rw [hwatchdog] at hjournaled hcalm
  refine ⟨sayings, hsaid, ?_, fun h => ?_⟩
  · obtain ⟨more, hinbound⟩ := inbound_untilStop (c.watchdog.noteActivity run.loggedNs) run.rounds
    obtain ⟨tail, htail⟩ := framedMessages_append (inbound (c.watchdog.noteActivity run.loggedNs)
      (untilStop run.rounds)) more
    rw [arrived, hinbound, htail]
    exact ⟨hjournaled.start.trans (List.prefix_append _ _), hjournaled.goesOn⟩
  · have hsaid := hcalm ⟨h.1, by simpa using h.2⟩
    rwa [untilStop_eq h.2] at hsaid

/-- This is so whatever goes wrong on a connection. -/
theorem runOneConnection_spec (hconnected : run.connected = true) :
    Held P W c run (c.runOneConnection P W run).effects := by
  have hconnects := runOneConnection_cases P W c run
  generalize c.runOneConnection P W run = after at hconnects
  cases hconnects with
  | refused hrefused =>
    rw [hconnected] at hrefused
    cases hrefused
  | unopened hbegun => exact held_of_failed fun _ _ => ⟨_, hbegun⟩
  | unsigned hnonce => exact held_of_failed fun nonce h => absurd (hnonce.symm.trans h) (by simp)
  | unsent nonce hnonce hsent =>
    obtain ⟨hspoken, -, -, hsucceeds⟩ := sendLogon_spec P W c run nonce
    refine held_of_left hnonce ⟨_, hspoken, .nil _, fun hcalm => ?_⟩ (Or.inr rfl)
    rw [hsucceeds, hcalm.1] at hsent
    cases hsent
  | looped nonce _ _ hnonce _ hlogged hloop =>
    rename_i go
    have hleft := left_of_logon hlogged hloop
    cases go with
    | true =>
      have hheld := held_of_left hnonce hleft (Or.inl rfl)
      rwa [List.append_nil] at hheld
    | false => exact held_of_left hnonce hleft (Or.inr rfl)

/-- One connection with a healthy journal, sends that succeed and no stop: the payloads
journaled are the messages up to the first that ends the connection, those before it are
numbered without hole or repeat, and what is sent is a Logon, a request for market data on
the first Logon that comes back, the answers to TestRequests in order, and scheduled
heartbeats, numbered from one. -/
theorem connection_conversation (P : SessionPlatform) (W : World) (c : FixClient) (run : ConnectionRun) (nonce : Bytes)
    (hconnected : run.connected = true) (hnonce : run.nonce = some nonce) (hhealthy : ∀ n, W.succeeds n = true)
    (hcontinues : ∀ round ∈ run.rounds, round.stopping = false) :
    let messages := arrived c run
    ∃ sayings tail, (c.runOneConnection P W run).effects =
        opening c ++ transcript P W c.session.config c.config (opening c).length 1 sayings ++ tail ∧
      (tail = [] ∨ tail = [.close]) ∧
      sayings.filterMap Saying.payload = messages.take ((handled messages).length + 1) ∧
      sequenceNumbers (handled messages) = List.range' 1 (sequenceNumbers (handled messages)).length ∧
      sayings.filter Saying.unscheduled =
        .sent (.logon (logonCredentials P c run nonce)) :: conversationAfter [] messages ∧
      sayings.count (.sent .marketDataRequest) = (if anyLogon (handled messages) then 1 else 0) ∧
      sayings.filterMap Saying.testReqId = testReqIds (handled messages) := by
  intro messages
  obtain ⟨sayings, tail, heffects, htail, -, hsaid⟩ := runOneConnection_spec (P := P) (W := W) (c := c) hconnected
  have hsaid := hsaid nonce hnonce hhealthy hcontinues
  refine ⟨sayings, tail, heffects, htail, ?_, (allGoOn_handledAfter [] messages).sequenceNumbers_eq, hsaid, ?_, ?_⟩
  · rw [← filterMap_unscheduled rfl, hsaid, List.filterMap_cons, payloads_conversationAfter]
    rfl
  · have hcount : (sayings.filter Saying.unscheduled).count (.sent .marketDataRequest) =
        sayings.count (.sent .marketDataRequest) := List.count_filter rfl
    rw [← hcount, hsaid, List.count_cons_of_ne (by simp), count_request_conversationAfter]
    simp [anyLogon, handled, messages]
  · rw [← filterMap_unscheduled rfl, hsaid, List.filterMap_cons, testReqIds_conversationAfter]
    rfl

/-- A message of the peer. -/
def peerMessage (msgType : Bytes) (number : ℕ) (body : List Field) : Bytes :=
  buildSessionMessage ⟨msgType, kTargetCompId, ascii "client", number, ascii "now"⟩ body

def logonReply : Bytes := peerMessage MsgType.kLogon 1 []
def testRequest : Bytes := peerMessage MsgType.kTestRequest 2 [⟨Tag.kTestReqId, ascii "7"⟩]
def peerLogout : Bytes := peerMessage MsgType.kLogout 3 []

/-- A platform without cryptography and a world where everything succeeds. -/
def plainPlatform : SessionPlatform := ⟨id, some, fun _ => ascii "now"⟩
def healthyWorld : World := ⟨fun _ => true, fun _ => 0, fun _ => 0⟩

def freshClient : FixClient := .init ⟨ascii "client", ascii "secret", kTargetCompId, 30⟩ { host := ascii "h", port := 1 }

/-- The peer's messages cut inside the first and inside the second. -/
def cutRun : ConnectionRun where
  startNs := 0
  nonce := some (ascii "n")
  logonNs := 0
  loggedNs := 0
  rounds :=
    [⟨false, false, 0, .data (logonReply.take 20), 0⟩, ⟨false, false, 0, .timedOut, 1⟩,
     ⟨false, false, 0, .data (logonReply.drop 20 ++ testRequest.take 9), 2⟩,
     ⟨false, false, 0, .data (testRequest.drop 9 ++ peerLogout ++ logonReply), 3⟩]

theorem cut_connection_conversation :
    arrived freshClient cutRun = [logonReply, testRequest, peerLogout, logonReply] ∧
    handled (arrived freshClient cutRun) = [logonReply, testRequest] ∧
    ∃ sayings tail, (freshClient.runOneConnection plainPlatform healthyWorld cutRun).effects =
        opening freshClient ++ transcript plainPlatform healthyWorld freshClient.session.config freshClient.config
          (opening freshClient).length 1 sayings ++ tail ∧
      sayings.filterMap Saying.payload = [logonReply, testRequest, peerLogout] ∧
      sayings.filterMap Saying.testReqId = [ascii "7"] := by
  have harrived : arrived freshClient cutRun = [logonReply, testRequest, peerLogout, logonReply] := by decide +kernel
  have hhandled : handled (arrived freshClient cutRun) = [logonReply, testRequest] := by decide +kernel
  have hids : testReqIds [logonReply, testRequest] = [ascii "7"] := by decide +kernel
  obtain ⟨sayings, tail, heffects, -, hpayloads, -, -, -, htests⟩ :=
    connection_conversation plainPlatform healthyWorld freshClient cutRun (ascii "n") rfl rfl (fun _ => rfl) (by decide)
  refine ⟨harrived, hhandled, sayings, tail, heffects, ?_, ?_⟩
  · rw [hpayloads, hhandled, harrived]
    rfl
  · rw [htests, hhandled, hids]

end Connection

end CryptoTrader.Deribit
