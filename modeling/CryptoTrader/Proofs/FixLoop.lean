import CryptoTrader.Proofs.FramerChunks
import CryptoTrader.Sanity.FixClient
import Mathlib.Data.List.TakeWhile

/-! The read loop of a FIX connection as a rule over its messages. However `recv` cuts the
stream, the client takes the messages of the stream in turn: what it keeps from one message
to the next, and through its timers, it keeps through the loop over the framer's messages,
a round and the whole loop. -/

namespace CryptoTrader.Deribit

open CryptoTrader.Fix

section Framing

variable {messages : List Bytes} {stream : Bytes} {f : Framer}

theorem framedMessages_decodes (stream : Bytes) :
    ∃ rest, (framing kMaxBodyLength).Decodes stream (framedMessages stream) rest ∧
      ∀ n, frameHead kMaxBodyLength rest ≠ .item n := by
  set calls := FramerCall.append stream :: List.replicate (stream.length + 1) .nextMessage with hcalls
  have hdrained : Drained kMaxBodyLength calls := by
    refine ⟨.append stream :: List.replicate stream.length .nextMessage, ?_, ?_⟩
    · rw [hcalls, List.replicate_succ', List.cons_append]
    · exact ((Tracks.init kMaxBodyLength).append stream).nextMessage_none
        (by rw [Tracks.view_append]; exact le_rfl)
  have hstream : appended calls = stream := by
    have hnone : ∀ n, appended (List.replicate n .nextMessage) = [] := by
      intro n
      induction n with
      | zero => rfl
      | succ n ih => exact ih
    rw [hcalls, appended, hnone, List.append_nil]
  have htracks := Tracks.run_init kMaxBodyLength calls
  rw [hstream] at htracks
  exact ⟨_, htracks.decodes, hdrained.settled.not_item⟩

/-- What a framer has returned comes first among all the messages of its stream. -/
theorem framedMessages_of_tracks (h : Tracks kMaxBodyLength stream messages f) (rest : Bytes) :
    ∃ tail, framedMessages (stream ++ rest) = messages ++ tail := by
  obtain ⟨_, hall, hfinal⟩ := framedMessages_decodes (stream ++ rest)
  exact (h.decodes.append rest).exists_append hall hfinal

/-- The messages of a stream come first among those of a longer one. -/
theorem framedMessages_append (stream rest : Bytes) :
    ∃ tail, framedMessages (stream ++ rest) = framedMessages stream ++ tail := by
  obtain ⟨_, hfirst, -⟩ := framedMessages_decodes stream
  obtain ⟨_, hall, hfinal⟩ := framedMessages_decodes (stream ++ rest)
  exact (hfirst.append rest).exists_append hall hfinal

/-- It is all of them once no message is left. -/
theorem framedMessages_of_settled (h : Tracks kMaxBodyLength stream messages f) (hsettled : Settled kMaxBodyLength f) :
    framedMessages stream = messages := by
  obtain ⟨_, hall, hfinal⟩ := framedMessages_decodes stream
  exact (hall.unique h.decodes hfinal hsettled.not_item).1

/-- Once framing is lost no more messages come, whatever arrives. -/
theorem framedMessages_of_lost (h : Tracks kMaxBodyLength stream messages f) (hsettled : Settled kMaxBodyLength f)
    (hbad : f.good = false) (rest : Bytes) : framedMessages (stream ++ rest) = messages := by
  obtain ⟨_, hall, hfinal⟩ := framedMessages_decodes (stream ++ rest)
  have herror : f.error ≠ "" := by
    intro hgood
    rw [Framer.good, hgood] at hbad
    exact absurd hbad (by decide)
  have hfail := (hsettled.resolve_left fun hwait => herror hwait.1).2
  refine (hall.unique (h.decodes.append rest) hfinal fun n => ?_).1
  have hlost : (framing kMaxBodyLength).head (f.view ++ rest) = .fail f.error :=
    (framing kMaxBodyLength).fail_append rest hfail
  rw [hlost]
  simp

end Framing

section Input

variable {P : SessionPlatform} {W : World} (c : FixClient)

theorem sameInput_act (decision : InboundDecision) : SameInput c (c.act P W decision).1 :=
  act_rule (SameInput.refl c) (fun message => sameInput_say message)
    (fun _ h => ⟨h.framer, h.watchdog, h.expectedInbound⟩) decision

/-- A message that is handled leaves the framer and the watchdog alone. -/
theorem handleFramed_input (raw : Bytes) :
    (c.handleFramed P W raw).1.framer = c.framer ∧ (c.handleFramed P W raw).1.watchdog = c.watchdog := by
  cases hjournaled : W.succeeds c.effects.length with
  | false =>
    rw [handleFramed_refused hjournaled]
    exact ⟨rfl, rfl⟩
  | true =>
    cases hraw : parsed raw with
    | none =>
      rw [handleFramed_unparsed hjournaled hraw]
      exact ⟨rfl, rfl⟩
    | some message =>
      rw [handleFramed_parsed hjournaled hraw]
      have hinput := sameInput_act (P := P) (W := W) ((c.recorded raw).checked message)
        (classifyInbound message (c.session.onInbound message).2)
      exact ⟨hinput.framer.trans checked_framer, hinput.watchdog.trans checked_watchdog⟩

theorem sendHeartbeatIfDue_input (nowNs : ℕ) : SameInput c (c.sendHeartbeatIfDue P W nowNs).1 := by
  unfold FixClient.sendHeartbeatIfDue
  split_ifs
  · exact .refl c
  · exact .refl c
  · rw [buildHeartbeat_eq c.config]
    exact sameInput_say _

end Input

/-- The rounds before the first at which a stop is under way. -/
def untilStop (rounds : List Round) : List Round := rounds.takeWhile fun round => !round.stopping

section Stop

variable {round : Round} {rounds : List Round}

theorem untilStop_cons_stopping (h : round.stopping = true) : untilStop (round :: rounds) = [] :=
  List.takeWhile_cons_of_neg (by rw [h]; decide)

theorem untilStop_cons_running (h : round.stopping = false) :
    untilStop (round :: rounds) = round :: untilStop rounds :=
  List.takeWhile_cons_of_pos (by rw [h]; decide)

theorem untilStop_eq (h : ∀ round ∈ rounds, round.stopping = false) : untilStop rounds = rounds := by
  rw [untilStop, List.takeWhile_eq_self_iff]
  intro round hround
  rw [h round hround]
  rfl

/-- What arrives before a stop comes first. -/
theorem inbound_untilStop (watchdog : StalenessWatchdog) (rounds : List Round) :
    ∃ more, inbound watchdog rounds = inbound watchdog (untilStop rounds) ++ more := by
  induction rounds generalizing watchdog with
  | nil => exact ⟨[], rfl⟩
  | cons round rounds ih =>
    cases hstopping : round.stopping with
    | true =>
      rw [untilStop_cons_stopping hstopping]
      exact ⟨_, rfl⟩
    | false =>
      rw [untilStop_cons_running hstopping, inbound, inbound]
      cases round.received with
      | interrupted => exact ih watchdog
      | timedOut =>
        simp only
        split_ifs
        · exact ⟨[], rfl⟩
        · exact ih watchdog
      | failed => exact ⟨[], rfl⟩
      | closed => exact ⟨[], rfl⟩
      | data bytes =>
        obtain ⟨more, hinbound⟩ := ih (watchdog.noteActivity round.receivedNs)
        exact ⟨more, by rw [hinbound, List.append_assoc]⟩

end Stop

/-- `Kept` holds as the client takes messages, and `Done` of the messages that arrived and
the client that is done with the connection. A stop may come if `Stops`. -/
structure LoopRule (P : SessionPlatform) (W : World) (Stops : Prop) (Kept Done : List Bytes → FixClient → Prop) :
    Prop where
  congr : ∀ {before c} framer watchdog forcedReconnects, Kept before c →
    Kept before { c with framer, watchdog, forcedReconnects }
  framed : ∀ {before c} raw, Kept before c →
    ((c.handleFramed P W raw).2 = true ∧ Kept (before ++ [raw]) (c.handleFramed P W raw).1) ∨
    ((c.handleFramed P W raw).2 = false ∧ ∀ tail, Done (before ++ raw :: tail) (c.handleFramed P W raw).1)
  heartbeat : ∀ {before c} nowNs, Kept before c →
    ((c.sendHeartbeatIfDue P W nowNs).2 = true ∧ Kept before (c.sendHeartbeatIfDue P W nowNs).1) ∨
    ((c.sendHeartbeatIfDue P W nowNs).2 = false ∧ ∀ tail, Done (before ++ tail) (c.sendHeartbeatIfDue P W nowNs).1)
  leave : ∀ {before c}, Kept before c → Done before c
  logout : ∀ {before c}, Stops → Kept before c →
    Done before (c.sendBuilt W (c.session.buildLogout P (ascii "shutting down") (c.clockNs W))).1

/-- The client waits for more bytes, having handled all messages of those that came. -/
def Waiting (Kept : List Bytes → FixClient → Prop) (stream : Bytes) (c : FixClient) : Prop :=
  ∃ before, Kept before c ∧ Tracks kMaxBodyLength stream before c.framer ∧ Settled kMaxBodyLength c.framer

namespace LoopRule

variable {P : SessionPlatform} {W : World} {Stops : Prop} {Kept Done : List Bytes → FixClient → Prop}
  {stream : Bytes} {c : FixClient}

/-- The loop over the messages the framer has: it comes to the end of them, or the client
leaves and no byte that follows matters. -/
theorem drain (rule : LoopRule P W Stops Kept Done) {before : List Bytes} (h : Kept before c)
    (htracks : Tracks kMaxBodyLength stream before c.framer) {fuel : ℕ} (hfuel : c.framer.view.length < fuel) :
    ((FixClient.drain P W fuel c).2 = true ∧ (FixClient.drain P W fuel c).1.watchdog = c.watchdog ∧
      Waiting Kept stream (FixClient.drain P W fuel c).1) ∨
    ((FixClient.drain P W fuel c).2 = false ∧ ∀ more,
      Done (framedMessages (stream ++ more)) (FixClient.drain P W fuel c).1) := by
  induction fuel generalizing c before with
  | zero => exact absurd hfuel (Nat.not_lt_zero _)
  | succ fuel ih =>
    have hkept : Kept before { c with framer := c.framer.nextMessage.1 } := rule.congr _ _ _ h
    rcases htracks.nextMessage with ⟨raw, hsome, hne, hsplit, hnext⟩ | ⟨hnone, hnext, hsettled⟩
    · have hpair : c.framer.nextMessage = (c.framer.nextMessage.1, some raw) := Prod.ext rfl hsome
      rw [FixClient.drain, hpair]
      simp only
      have hinput := handleFramed_input (P := P) (W := W) { c with framer := c.framer.nextMessage.1 } raw
      have hstep := rule.framed raw hkept
      generalize { c with framer := c.framer.nextMessage.1 }.handleFramed P W raw = after at hinput hstep
      obtain ⟨c', go⟩ := after
      obtain ⟨hframer, hwatchdog⟩ := hinput
      rcases hstep with ⟨hgo, hkept'⟩ | ⟨hstop, hdone⟩
      · have hview : c'.framer.view.length < fuel := by
          rw [hframer]
          have hlen := congrArg List.length hsplit
          rw [List.length_append] at hlen
          have hpos := List.length_pos_of_ne_nil hne
          simp only
          omega
        have htracks' : Tracks kMaxBodyLength stream (before ++ [raw]) c'.framer := hframer ▸ hnext
        obtain rfl : go = true := hgo
        simp only
        exact (ih hkept' htracks' hview).imp (fun hgoes => ⟨hgoes.1, hgoes.2.1.trans hwatchdog, hgoes.2.2⟩) id
      · obtain rfl : go = false := hstop
        refine Or.inr ⟨rfl, fun more => ?_⟩
        obtain ⟨tail, htail⟩ := framedMessages_of_tracks hnext more
        rw [htail, List.append_assoc]
        exact hdone tail
    · have hpair : c.framer.nextMessage = (c.framer.nextMessage.1, none) := Prod.ext rfl hnone
      rw [FixClient.drain, hpair]
      simp only
      cases hgood : c.framer.nextMessage.1.good with
      | true => exact Or.inl ⟨rfl, trivial, before, hkept, hnext, hsettled⟩
      | false =>
        refine Or.inr ⟨rfl, fun more => ?_⟩
        rw [framedMessages_of_lost hnext hsettled hgood]
        exact rule.leave hkept

/-- A client that waits can leave at any time. -/
theorem done (rule : LoopRule P W Stops Kept Done) (h : Waiting Kept stream c) : Done (framedMessages stream) c := by
  obtain ⟨before, hkept, htracks, hsettled⟩ := h
  rw [framedMessages_of_settled htracks hsettled]
  exact rule.leave hkept

/-- What arrives in a round is handled, or the client leaves and nothing that follows
matters. -/
theorem receive (rule : LoopRule P W Stops Kept Done) (h : Waiting Kept stream c) (round : Round) :
    ((c.receive P W round).2 = true ∧ ∃ chunk, Waiting Kept (stream ++ chunk) (c.receive P W round).1 ∧
      ∀ rounds, inbound c.watchdog (round :: rounds) = chunk ++ inbound (c.receive P W round).1.watchdog rounds) ∨
    ((c.receive P W round).2 = false ∧ ∀ rounds,
      Done (framedMessages (stream ++ inbound c.watchdog (round :: rounds))) (c.receive P W round).1) := by
  unfold FixClient.receive
  simp only [inbound]
  cases round.received with
  | interrupted =>
    refine Or.inl ⟨rfl, [], ?_, fun _ => rfl⟩
    rwa [List.append_nil]
  | timedOut =>
    by_cases hstale : c.watchdog.isStale round.receivedNs = true
    · rw [if_pos hstale]
      refine Or.inr ⟨rfl, fun rounds => ?_⟩
      rw [if_pos hstale, List.append_nil]
      obtain ⟨before, hkept, htracks, hsettled⟩ := h
      have hwaiting : Waiting Kept stream
          { c with forcedReconnects := c.forcedReconnects + 1, watchdog := c.watchdog.disarm } :=
        ⟨before, rule.congr _ _ _ hkept, htracks, hsettled⟩
      exact rule.done hwaiting
    · rw [if_neg hstale]
      refine Or.inl ⟨rfl, [], ?_, fun rounds => ?_⟩
      · rwa [List.append_nil]
      · rw [if_neg hstale]
        rfl
  | failed =>
    refine Or.inr ⟨rfl, fun _ => ?_⟩
    rw [List.append_nil]
    exact rule.done h
  | closed =>
    refine Or.inr ⟨rfl, fun _ => ?_⟩
    rw [List.append_nil]
    exact rule.done h
  | data bytes =>
    obtain ⟨before, hkept, htracks, hsettled⟩ := h
    have hfed : Kept before { c with
        watchdog := c.watchdog.noteActivity round.receivedNs
        framer := c.framer.append bytes } := rule.congr _ _ _ hkept
    rcases rule.drain hfed (htracks.append bytes) (Nat.lt_succ_self _) with ⟨hgo, hwatchdog, hwaiting⟩ | ⟨hstop, hdone⟩
    · exact Or.inl ⟨hgo, bytes, hwaiting, fun rounds => congrArg (bytes ++ inbound · rounds) hwatchdog.symm⟩
    · refine Or.inr ⟨hstop, fun rounds => ?_⟩
      rw [← List.append_assoc]
      exact hdone _

/-- A round without a stop: its heartbeat, and what it receives. -/
theorem takeRound (rule : LoopRule P W Stops Kept Done) (h : Waiting Kept stream c) {round : Round}
    (hstopping : round.stopping = false) :
    ((c.takeRound P W round).2 = true ∧ ∃ chunk, Waiting Kept (stream ++ chunk) (c.takeRound P W round).1 ∧
      ∀ rounds, inbound c.watchdog (round :: rounds) = chunk ++ inbound (c.takeRound P W round).1.watchdog rounds) ∨
    ((c.takeRound P W round).2 = false ∧ ∀ rounds,
      Done (framedMessages (stream ++ inbound c.watchdog (round :: rounds))) (c.takeRound P W round).1) := by
  obtain ⟨before, hkept, htracks, hsettled⟩ := h
  have hinput := sendHeartbeatIfDue_input (P := P) (W := W) c round.heartbeatNs
  have hstep := rule.heartbeat round.heartbeatNs hkept
  unfold FixClient.takeRound
  rw [if_neg (by rw [hstopping]; simp)]
  generalize c.sendHeartbeatIfDue P W round.heartbeatNs = after at hinput hstep
  obtain ⟨c', go⟩ := after
  rcases hstep with ⟨hgo, hkept'⟩ | ⟨hstop, hdone⟩
  · obtain rfl : go = true := hgo
    have hwaiting : Waiting Kept stream c' :=
      ⟨before, hkept', hinput.framer ▸ htracks, hinput.framer ▸ hsettled⟩
    have hwatchdog : c'.watchdog = c.watchdog := hinput.watchdog
    simp only
    rw [← hwatchdog]
    exact rule.receive hwaiting round
  · obtain rfl : go = false := hstop
    refine Or.inr ⟨rfl, fun rounds => ?_⟩
    obtain ⟨tail, htail⟩ := framedMessages_of_tracks htracks (inbound c.watchdog (round :: rounds))
    rw [htail]
    exact hdone tail

/-- However the loop ends, it has kept the rule for the messages that came before a stop. -/
theorem readLoop (rule : LoopRule P W Stops Kept Done) (h : Waiting Kept stream c) (rounds : List Round)
    (hstops : ∀ round ∈ rounds, round.stopping = true → Stops) :
    Done (framedMessages (stream ++ inbound c.watchdog (untilStop rounds))) (c.readLoop P W rounds).1 := by
  induction rounds generalizing c stream with
  | nil =>
    change Done (framedMessages (stream ++ [])) c
    rw [List.append_nil]
    exact rule.done h
  | cons round rounds ih =>
    cases hstopping : round.stopping with
    | true =>
      obtain ⟨before, hkept, htracks, hsettled⟩ := h
      rw [untilStop_cons_stopping hstopping, inbound, List.append_nil, framedMessages_of_settled htracks hsettled, FixClient.readLoop,
        FixClient.takeRound, if_pos hstopping]
      split_ifs
      · exact rule.logout (hstops round List.mem_cons_self hstopping) hkept
      · exact rule.leave hkept
    | false =>
      have hstep := rule.takeRound h hstopping
      rw [untilStop_cons_running hstopping, FixClient.readLoop]
      generalize c.takeRound P W round = after at hstep
      obtain ⟨c', go⟩ := after
      rcases hstep with ⟨hgo, chunk, hwaiting, hinbound⟩ | ⟨hstop, hdone⟩
      · obtain rfl : go = true := hgo
        simp only at hwaiting hinbound ⊢
        rw [hinbound, ← List.append_assoc]
        exact ih hwaiting fun other hother => hstops other (List.mem_cons_of_mem _ hother)
      · obtain rfl : go = false := hstop
        exact hdone (untilStop rounds)

/-- The loop of a connection that has just sent its Logon. -/
theorem readLoop_init (rule : LoopRule P W Stops Kept Done) (h : Kept [] c) (hframer : c.framer = .init kMaxBodyLength)
    (rounds : List Round) (hstops : ∀ round ∈ rounds, round.stopping = true → Stops) :
    Done (framedMessages (inbound c.watchdog (untilStop rounds))) (c.readLoop P W rounds).1 := by
  have hwaiting : Waiting Kept [] c := by
    refine ⟨[], h, ?_, ?_⟩
    · rw [hframer]
      exact .init _
    · rw [hframer]
      exact Or.inl ⟨rfl, rfl⟩
  exact rule.readLoop hwaiting rounds hstops

end LoopRule

end CryptoTrader.Deribit
