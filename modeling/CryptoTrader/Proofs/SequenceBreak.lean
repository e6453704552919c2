import CryptoTrader.Proofs.AdapterReady
import CryptoTrader.Proofs.FixConversation
import CryptoTrader.Sanity.CaptureSession
import CryptoTrader.Spec.FixBooks

/-! A Deribit book and a break of the FIX sequence. The client journals a message, and so
hands it to the books, before it checks its number. Every message but the last of a
connection has passed the check; the last has not, and an update in it is applied to a
Ready book while the connection is still up. -/

namespace CryptoTrader.Deribit

open CryptoTrader.Fix CaptureSession

section Session

/-- How far a connection is on its way through the capture session. -/
inductive ConnectionPhase where
  | idle
  | running
  | closed
  deriving DecidableEq

def phaseStep : ConnectionPhase → Effect → Option ConnectionPhase
  | .idle, .beginConnect _ => some .running
  | .running, .onWireMessage _ => some .running
  | .running, .close => some .closed
  | _, _ => none

abbrev phaseAfter (effects : List Effect) : Option ConnectionPhase := Machine.run phaseStep .idle effects

def Effect.wirePayload : Effect → Option Bytes
  | .onWireMessage payload => some payload
  | _ => none

/-- What a sink hears before the frames of a connection, and after them. -/
def Opens (calls : List AdapterCall) : Prop := calls = [] ∨ ∃ connectId, calls = [.onConnect connectId]

def Ends (calls : List AdapterCall) : Prop := calls = [] ∨ ∃ connectId, calls = [.onDisconnect connectId]

/-- The adapter has taken the frames of the wire messages, or none if the session never
opened. -/
def Taken (wires : List Bytes) (calls : List AdapterCall) : Prop :=
  ∃ head frames tail, calls = head ++ frames.map .onFrame ++ tail ∧ Opens head ∧ Ends tail ∧
    (frames = wires ∨ frames = [])

/-- What the session has handed to its sink in each phase of a connection. -/
def PhaseInv (wires : List Bytes) (s : CaptureSession) : ConnectionPhase → Prop
  | .idle => s.sinkCalls = [] ∧ s.Quiet ∧ wires = []
  | .running => s.waiting = none ∧ ∃ head frames,
      s.sinkCalls.map FeedEvent.adapterCall = head ++ frames.map .onFrame ∧ Opens head ∧
      (s.isOpen = true ∧ frames = wires ∨ s.isOpen = false ∧ frames = [])
  | .closed => ∃ head frames tail, s.sinkCalls.map FeedEvent.adapterCall = head ++ frames.map .onFrame ++ tail ∧
      Opens head ∧ Ends tail ∧ (frames = wires ∨ frames = []) ∧
      ∀ call, s.waiting = some call → tail = [] ∧ ∃ flushed, call = .close flushed

variable {J : JournalPlatform} {wires : List Bytes} {s s' : CaptureSession} {action : SessionAction}
  {phase : ConnectionPhase}

theorem PhaseInv.taken (h : PhaseInv wires s phase) : Taken wires (s.sinkCalls.map FeedEvent.adapterCall) := by
  cases phase with
  | idle => exact ⟨[], [], [], by rw [h.1]; rfl, Or.inl rfl, Or.inl rfl, Or.inr rfl⟩
  | running =>
    obtain ⟨-, head, frames, hcalls, hhead, hframes⟩ := h
    exact ⟨head, frames, [], by rw [hcalls, List.append_nil], hhead, Or.inl rfl, hframes.imp (·.2) (·.2)⟩
  | closed =>
    obtain ⟨head, frames, tail, hcalls, hhead, htail, hframes, -⟩ := h
    exact ⟨head, frames, tail, hcalls, hhead, htail, hframes⟩

/-- A connect that goes on from a quiet session opens it or does not. -/
theorem phaseInv_begin {q : CaptureSession} (hquiet : q.Quiet) (hcalls : q.sinkCalls = []) (call : ConnectCall) :
    PhaseInv [] (q.goOn J (.beginConnect call)) .running := by
  have hwaiting := hquiet.goOn_waiting (J := J) (.beginConnect call)
  have hconnect := openConnect_cases J q call
  simp only [goOn] at hwaiting ⊢
  generalize q.openConnect J call = t at hconnect hwaiting ⊢
  refine ⟨hwaiting, ?_⟩
  cases hconnect with
  | failed error hcause =>
    refine ⟨[], [], ?_, Or.inl rfl, Or.inr ⟨Quiet.isOpen_eq ?_, rfl⟩⟩
    · exact congrArg (List.map FeedEvent.adapterCall) hcalls
    · exact ⟨hquiet.writer, hquiet.journalOpen, hquiet.announced, hquiet.waiting⟩
  | markerFailed error hmode hcause herror =>
    refine ⟨[], [], ?_, Or.inl rfl, Or.inl ⟨?_, rfl⟩⟩
    · exact congrArg (List.map FeedEvent.adapterCall) hcalls
    · simp [CaptureSession.isOpen, returns, numbered, hmode]
  | threaded hmode hcause =>
    refine ⟨[.onConnect q.numbered.connectId], [], ?_, Or.inr ⟨_, rfl⟩, Or.inl ⟨?_, rfl⟩⟩
    · simp [announce, returns, numbered, hcalls, FeedEvent.adapterCall]
    · simp [CaptureSession.isOpen, announce, returns, numbered, hmode]
  | inline hmode hcause herror =>
    refine ⟨[.onConnect q.numbered.connectId], [], ?_, Or.inr ⟨_, rfl⟩, Or.inl ⟨?_, rfl⟩⟩
    · simp [announce, returns, numbered, hcalls, FeedEvent.adapterCall]
    · simp [CaptureSession.isOpen, announce, returns, numbered, hmode]

/-- A wire message is handed to the sink if the session is open, and the session stays as
open as it was. -/
theorem phaseInv_wire (h : PhaseInv wires s .running) (call : WireCall) :
    PhaseInv (wires ++ [call.payload]) (s.onWireMessage call) .running := by
  obtain ⟨hwaiting, head, frames, hcalls, hhead, hframes⟩ := h
  have htaken : (s.captured call).sinkCalls.map FeedEvent.adapterCall =
      head ++ (frames ++ [call.payload]).map .onFrame := by
    rw [CaptureSession.captured, List.map_append, hcalls, List.map_append, List.append_assoc]
    rfl
  have htakes := s.onWireMessage_cases call
  generalize s.onWireMessage call = t at htakes ⊢
  cases htakes with
  | notOpen hopen =>
    refine ⟨hwaiting, head, frames, hcalls, hhead, Or.inr ⟨hopen, ?_⟩⟩
    exact (hframes.resolve_left fun h => by rw [hopen] at h; cases h.1).2
  | threaded hmode hopen =>
    obtain ⟨-, rfl⟩ := hframes.resolve_right fun h => by rw [hopen] at h; cases h.1
    exact ⟨hwaiting, head, _, htaken, hhead, Or.inl ⟨hopen, rfl⟩⟩
  | inline writer hmode hopen hwriter =>
    obtain ⟨-, rfl⟩ := hframes.resolve_right fun h => by rw [hopen] at h; cases h.1
    refine ⟨hwaiting, head, _, htaken, hhead, Or.inl ⟨?_, rfl⟩⟩
    simp [CaptureSession.isOpen, returns, CaptureSession.captured, hmode]

/-- A close ends the connection at the sink at once, or once the journal thread is done. -/
theorem phaseInv_close {head : List AdapterCall} {frames : List Bytes}
    (hcalls : s.sinkCalls.map FeedEvent.adapterCall = head ++ frames.map .onFrame) (hhead : Opens head)
    (hframes : frames = wires ∨ frames = []) (flushed flushed' : Bool) (records : ℕ) :
    PhaseInv wires ((s.ended flushed records).goOn J (.close flushed')) .closed := by
  rw [goOn, ended_eq]
  refine ⟨head, frames, (if s.announced then [.disconnect s.connectId] else []).map FeedEvent.adapterCall, ?_, hhead,
    ?_, hframes, fun call hwaiting => by cases hwaiting⟩
  · rw [← hcalls, ← List.map_append]
    rfl
  · cases s.announced with
    | true => exact Or.inr ⟨_, rfl⟩
    | false => exact Or.inl rfl

/-- What a call does to the phase: a connect starts it, a close ends it. -/
theorem phaseStep_flushed {call : SessionCall} {flushed : Bool} (hcall : call.flushed? = some flushed)
    {next : ConnectionPhase} (hnext : phaseStep phase call.effect = some next) :
    (∃ connect, call = .beginConnect connect ∧ phase = .idle ∧ next = .running) ∨
      (call = .close flushed ∧ phase = .running ∧ next = .closed) := by
  cases call with
  | beginConnect connect =>
    cases phase <;> cases hnext
    exact Or.inl ⟨connect, rfl, rfl, rfl⟩
  | onWireMessage wire => cases hcall
  | close flush =>
    cases hcall
    cases phase <;> cases hnext
    exact Or.inr ⟨rfl, rfl, rfl⟩

/-- A call on the session keeps the phase's invariant, with its message counted. -/
theorem PhaseInv.call (h : PhaseInv wires s phase) {call : SessionCall} (hstep : Step J s (.call call) s')
    {next : ConnectionPhase} (hnext : phaseStep phase call.effect = some next) :
    PhaseInv (wires ++ call.effect.wirePayload.toList) s' next := by
  have hsilent : ∀ flushed, (SessionCall.close flushed).effect.wirePayload.toList = [] := fun _ => rfl
  generalize haction : SessionAction.call call = action at hstep
  cases hstep with
  | wire wire hwaiting =>
    cases haction
    cases phase <;> cases hnext
    exact phaseInv_wire h wire
  | wait other hcall hwaiting hopen =>
    cases haction
    obtain ⟨flushed, hflushed⟩ := Option.isSome_iff_exists.1 hcall
    rcases phaseStep_flushed hflushed hnext with ⟨connect, -, rfl, -⟩ | ⟨rfl, rfl, rfl⟩
    · have hquiet := h.2.1.journalOpen
      rw [hopen] at hquiet
      cases hquiet
    · obtain ⟨-, head, frames, hcalls, hhead, hframes⟩ := h
      refine ⟨head, frames, [], ?_, hhead, Or.inl rfl, ?_, ?_⟩
      · rw [List.append_nil]
        exact hcalls
      · rw [hsilent, List.append_nil]
        exact hframes.imp (·.2) (·.2)
      · rintro _ ⟨rfl⟩
        exact ⟨rfl, flushed, rfl⟩
  | close other flushed hcall hwaiting hopen =>
    cases haction
    rcases phaseStep_flushed hcall hnext with ⟨connect, rfl, rfl, rfl⟩ | ⟨rfl, rfl, rfl⟩
    · obtain ⟨hcalls, hquiet, rfl⟩ := h
      refine phaseInv_begin (s.ended_quiet flushed 0) ?_ connect
      rw [ended_eq]
      simp [hcalls, hquiet.announced]
    · obtain ⟨-, head, frames, hcalls, hhead, hframes⟩ := h
      rw [hsilent, List.append_nil]
      exact phaseInv_close hcalls hhead (hframes.imp (·.2) (·.2)) _ _ _
  | resume other records hcall hwaiting hsignal hopen => cases haction
  | journal written journal hstep => cases haction

/-- So do the steps that are no call. -/
theorem PhaseInv.silent (h : PhaseInv wires s phase) (hstep : Step J s action s') (hcalls : sessionCalls [action] = []) :
    PhaseInv wires s' phase := by
  cases hstep with
  | wire wire hwaiting => cases hcalls
  | wait call hcall hwaiting hopen => cases hcalls
  | close call flushed hcall hwaiting hopen => cases hcalls
  | resume call records hcall hwaiting hsignal hopen =>
    cases phase with
    | idle =>
      rw [h.2.1.waiting] at hwaiting
      cases hwaiting
    | running =>
      rw [h.1] at hwaiting
      cases hwaiting
    | closed =>
      obtain ⟨head, frames, tail, htaken, hhead, -, hframes, hclose⟩ := h
      obtain ⟨rfl, flushed, rfl⟩ := hclose call hwaiting
      rw [List.append_nil] at htaken
      exact phaseInv_close htaken hhead hframes _ _ _
  | journal written journal hstep =>
    cases phase with
    | idle => exact ⟨h.1, ⟨h.2.1.writer, h.2.1.journalOpen, h.2.1.announced, h.2.1.waiting⟩, h.2.2⟩
    | running => exact h
    | closed => exact h

/-- In every run of the session that a connection drives, the sink has been handed the
frames of the wire messages. -/
theorem run_phase {capture : CryptoTrader.SessionConfig} {actions : List SessionAction}
    (hrun : (CaptureSession.start capture).run J actions = some s)
    (hphase : phaseAfter ((sessionCalls actions).map SessionCall.effect) = some phase) :
    PhaseInv (((sessionCalls actions).map SessionCall.effect).filterMap Effect.wirePayload) s phase := by
  suffices hinv : ∀ phase, phaseAfter ((sessionCalls actions).map SessionCall.effect) = some phase →
      PhaseInv (((sessionCalls actions).map SessionCall.effect).filterMap Effect.wirePayload) s phase from
    hinv phase hphase
  refine run_induction (I := fun actions s => ∀ phase,
    phaseAfter ((sessionCalls actions).map SessionCall.effect) = some phase →
    PhaseInv (((sessionCalls actions).map SessionCall.effect).filterMap Effect.wirePayload) s phase) ?_ ?_ hrun
  · rintro _ ⟨rfl⟩
    exact ⟨rfl, ⟨rfl, rfl, rfl, rfl⟩, rfl⟩
  · intro actions s action s' _ _ hinv hstep next hnext
    rw [sessionCalls_snoc, List.map_append] at hnext ⊢
    cases action with
    | call call =>
      have hone : sessionCalls [SessionAction.call call] = [call] := rfl
      rw [hone] at hnext ⊢
      obtain ⟨mid, hmid, hlast⟩ := (Machine.run_snoc_eq_some phaseStep).1 hnext
      have hstepped := (hinv mid hmid).call hstep hlast
      have hwire : [call.effect].filterMap Effect.wirePayload = call.effect.wirePayload.toList := by
        cases hpayload : call.effect.wirePayload <;> simp [hpayload]
      rw [List.filterMap_append, List.map_singleton, hwire]
      exact hstepped
    | resume =>
      rw [show sessionCalls [.resume] = [] from rfl, List.map_nil, List.append_nil] at hnext ⊢
      exact (hinv next hnext).silent hstep rfl
    | journal written =>
      rw [show sessionCalls [.journal written] = [] from rfl, List.map_nil, List.append_nil] at hnext ⊢
      exact (hinv next hnext).silent hstep rfl

end Session

section Client

variable {S : SessionPlatform} {W : World}

/-- What the session is told of a conversation: the messages that are journaled. -/
theorem transcript_unsent (session : SessionConfig) (client : FixClientConfig) (index number : ℕ)
    (sayings : List Saying) :
    (transcript S W session client index number sayings).filter (!·.isSend) =
      (sayings.filterMap Saying.payload).map .onWireMessage := by
  induction sayings generalizing index number with
  | nil => rfl
  | cons saying sayings ih =>
    cases saying with
    | journaled payload => exact congrArg (Effect.onWireMessage payload :: ·) (ih _ _)
    | sent message => exact ih _ _

theorem run_wires (payloads : List Bytes) :
    Machine.run phaseStep .running (payloads.map .onWireMessage) = some .running := by
  induction payloads with
  | nil => rfl
  | cons payload payloads ih => exact ih

/-- The phases of a connection that has said something and is up or closed. -/
theorem phaseAfter_connection (reason : Bytes) (payloads : List Bytes) {tail : List Effect}
    (htail : tail = [] ∨ tail = [.close]) :
    (phaseAfter (.beginConnect reason :: payloads.map .onWireMessage ++ tail)).isSome = true := by
  rw [phaseAfter, Machine.run_append, Machine.run]
  change (((Machine.run phaseStep .running (payloads.map .onWireMessage)).bind _).isSome) = true
  rw [run_wires]
  rcases htail with rfl | rfl <;> rfl

theorem wirePayloads_connection (reason : Bytes) (payloads : List Bytes) {tail : List Effect}
    (htail : tail = [] ∨ tail = [.close]) :
    (Effect.beginConnect reason :: payloads.map .onWireMessage ++ tail).filterMap Effect.wirePayload = payloads := by
  have hwires : (payloads.map Effect.onWireMessage).filterMap Effect.wirePayload = payloads := by
    rw [List.filterMap_map]
    exact List.filterMap_some
  have htold : tail.filterMap Effect.wirePayload = [] := by
    rcases htail with rfl | rfl <;> rfl
  rw [List.filterMap_append, htold, List.append_nil, List.filterMap_cons]
  exact hwires

/-- At every moment the adapter has taken, of the messages of the connection, some that have
been journaled. -/
theorem moment_taken {J : JournalPlatform} {capture : CryptoTrader.SessionConfig} {c : FixClient}
    {run : ConnectionRun} {calls : List AdapterCall} (h : Moment S W J capture c run calls) :
    ∃ payloads, Journaled (arrived c run) payloads ∧ Taken payloads calls := by
  obtain ⟨effects, hbegun, actions, s, hrun, hcalls, rfl⟩ := h
  suffices hconnection : ∃ phase, phaseAfter (effects.filter (!·.isSend)) = some phase ∧
      Journaled (arrived c run) ((effects.filter (!·.isSend)).filterMap Effect.wirePayload) by
    obtain ⟨phase, hphase, hjournaled⟩ := hconnection
    rw [← hcalls] at hphase hjournaled
    exact ⟨_, hjournaled, (run_phase hrun hphase).taken⟩
  by_cases hconnected : run.connected = true
  · obtain ⟨sayings, tail, heffects, htail, hjournaled, -⟩ := runOneConnection_spec (P := S) (W := W) (c := c) hconnected
    rw [heffects, opening, List.append_assoc, List.append_assoc, List.prefix_append_right_inj] at hbegun
    have hunsent := hbegun.filter (!·.isSend)
    have htold : tail.filter (!·.isSend) = tail := by
      rcases htail with rfl | rfl <;> rfl
    rw [List.filter_append, List.filter_append, transcript_unsent, htold, ← List.append_assoc,
      List.filter_cons_of_pos rfl, List.filter_nil, List.singleton_append] at hunsent
    have hwires := hunsent.filterMap Effect.wirePayload
    have hsome := phaseAfter_connection (FixClient.connectReason c.config) (sayings.filterMap Saying.payload) htail
    obtain ⟨phase, hphase⟩ := Option.isSome_iff_exists.1 (Machine.run_isSome_of_isPrefix phaseStep hunsent hsome)
    rw [wirePayloads_connection _ _ htail] at hwires
    exact ⟨phase, hphase, hjournaled.of_isPrefix hwires⟩
  · have heffects : (c.runOneConnection S W run).effects = c.effects := by
      rw [FixClient.runOneConnection, if_pos hconnected]
    rw [heffects] at hbegun
    obtain rfl : effects = [] := by
      have hlength := hbegun.length_le
      rw [List.length_append] at hlength
      exact List.eq_nil_of_length_eq_zero (by omega)
    exact ⟨.idle, rfl, Journaled.nil _⟩

end Client

section Books

variable {N D : Type} {P : Platform N D} {settings : BookSettings} {symbol : Bytes}

/-- A connect before anything else changes nothing for a book. -/
theorem liveReady_onConnect {connectId : ℕ} {calls : List AdapterCall}
    (h : LiveReady P settings (.onConnect connectId :: calls) symbol) : LiveReady P settings calls symbol := by
  obtain ⟨hstale, book, hbook, hready⟩ := h
  unfold LiveReady
  unfold adapterAfter at *
  by_cases hsource : settings.source = .deribitFix
  · have htrace := Connection.deribit_trace P settings symbol hsource (.onConnect connectId :: calls)
    obtain ⟨hsame, hbooks⟩ := Connection.deribit_trace P settings symbol hsource calls
    rw [hsame, hbooks]
    rw [htrace.1] at hstale
    rw [htrace.2] at hbook
    exact ⟨hstale, book, hbook, hready⟩
  · rw [(Connection.other_books_empty P settings _).2 hsource] at hbook
    cases hbook

theorem framesSinceConnect_snoc (calls : List AdapterCall) (payload : Bytes) :
    framesSinceConnect (calls ++ [.onFrame payload]) = framesSinceConnect calls ++ [payload] := by
  rw [framesSinceConnect, List.foldl_concat]
  rfl

theorem framesSinceConnect_frames {head : List AdapterCall} (hhead : Opens head) (frames : List Bytes) :
    framesSinceConnect (head ++ frames.map .onFrame) = frames := by
  induction frames using List.reverseRecOn with
  | nil => rcases hhead with rfl | ⟨connectId, rfl⟩ <;> rfl
  | append_singleton frames frame ih =>
    rw [List.map_append, List.map_singleton, ← List.append_assoc, framesSinceConnect_snoc, ih]

theorem liveReady_frames {head : List AdapterCall} (hhead : Opens head) {frames : List Bytes}
    (h : LiveReady P settings (head ++ frames.map .onFrame) symbol) :
    LiveReady P settings (frames.map .onFrame) symbol := by
  rcases hhead with rfl | ⟨connectId, rfl⟩
  · exact h
  · exact liveReady_onConnect h

/-- An update is a FIX message and not a Logout. -/
theorem update_parsed {scale : InstrumentScale} {raw : Bytes} {updates : List L2Update}
    (h : parseDeribitFixMessage P scale raw = .ok (.update symbol updates)) :
    ∃ message, parsed raw = some message ∧ message.msgType ≠ MsgType.kLogout := by
  rw [parseDeribitFixMessage] at h
  cases hraw : parseMessage raw with
  | error what =>
    rw [hraw] at h
    cases h
  | ok message =>
    refine ⟨message, by rw [parsed, hraw]; rfl, fun hlogout => ?_⟩
    have hother : ¬ message.msgType = ascii "W" ∧ message.msgType ≠ ascii "X" := by
      rw [hlogout]
      decide
    simp only [hraw, if_pos hother] at h
    cases h

end Books

section Splits

variable {α : Type} {x : α} {head mid tail pre post : List α}

/-- What stands neither in the head of a list nor in its tail stands between them. -/
theorem split_middle (hhead : x ∉ head) (htail : x ∉ tail) (h : head ++ mid ++ tail = pre ++ x :: post) :
    ∃ front back, mid = front ++ x :: back ∧ pre = head ++ front := by
  rw [List.append_assoc] at h
  have hfront : ∃ front, pre = head ++ front ∧ mid ++ tail = front ++ x :: post := by
    rcases List.append_eq_append_iff.1 h with ⟨front, hpre, hmid⟩ | ⟨rest, hpre, hpost⟩
    · exact ⟨front, hpre, hmid⟩
    · cases rest with
      | nil => exact ⟨[], by rw [hpre, List.append_nil, List.append_nil], hpost.symm⟩
      | cons y rest =>
        obtain ⟨rfl, -⟩ := List.cons.inj hpost
        exact absurd (hpre ▸ List.mem_append_right _ List.mem_cons_self) hhead
  obtain ⟨front, hpre, hmid⟩ := hfront
  rcases List.append_eq_append_iff.1 hmid with ⟨rest, -, hrest⟩ | ⟨rest, hrest, hpost⟩
  · exact absurd (hrest ▸ List.mem_append_right _ List.mem_cons_self) htail
  · cases rest with
    | nil =>
      have hstart : x :: post = tail := hpost
      exact absurd (hstart ▸ List.mem_cons_self) htail
    | cons y rest =>
      obtain ⟨rfl, -⟩ := List.cons.inj hpost
      exact ⟨front, rest, hrest, hpre⟩

end Splits

/-- A frame the adapter has taken, with the frames before it. -/
theorem Taken.split {wires : List Bytes} {pre post : List AdapterCall} {raw : Bytes}
    (h : Taken wires (pre ++ .onFrame raw :: post)) :
    ∃ head before after, wires = before ++ raw :: after ∧ Opens head ∧ pre = head ++ before.map .onFrame := by
  obtain ⟨head, frames, tail, hcalls, hhead, htail, hframes⟩ := h
  have hnotHead : AdapterCall.onFrame raw ∉ head := by
    rcases hhead with rfl | ⟨connectId, rfl⟩ <;> simp
  have hnotTail : AdapterCall.onFrame raw ∉ tail := by
    rcases htail with rfl | ⟨connectId, rfl⟩ <;> simp
  obtain ⟨front, back, hmid, rfl⟩ := split_middle hnotHead hnotTail hcalls.symm
  obtain ⟨before, rest, rfl, rfl, hrest⟩ := List.map_eq_append_iff.1 hmid
  obtain ⟨frame, after, rfl, hframe, -⟩ := List.map_eq_cons_iff.1 hrest
  cases hframe
  refine ⟨head, before, after, (hframes.resolve_right ?_).symm, hhead, rfl⟩
  simp

/-- The message after those that go on ends the connection: it is the one at their
number. -/
theorem getElem_handled {before : List Bytes} {raw : Bytes} (h : AllGoOn [] before) (hraw : ¬ GoesOn before raw)
    (more : List Bytes) :
    handled (before ++ raw :: more) = before ∧ (before ++ raw :: more)[before.length]? = some raw := by
  refine ⟨?_, ?_⟩
  · rw [handled, h.handledAfter_append, List.nil_append, handledAfter, if_neg hraw, List.append_nil]
  · simp

/-- A Deribit book never carries on past a sequence break in any run of a connection in
which the message that ends it is not an out-of-sequence update for a Ready book. -/
theorem ready_in_sequence {N D : Type} (P : Platform N D) (settings : BookSettings) (S : SessionPlatform) (W : World)
    (J : JournalPlatform) (capture : CryptoTrader.SessionConfig) (c : FixClient) (run : ConnectionRun)
    (hends : ∀ raw, (arrived c run)[(handled (arrived c run)).length]? = some raw →
      ¬ UpdatesOutOfSequence P settings (handled (arrived c run)) raw)
    (calls : List AdapterCall) (hmoment : Moment S W J capture c run calls) : ReadyInSequence P settings calls := by
  rintro symbol - _ raw ⟨pre, post, updates, rfl, rfl, hready, hupdate, -⟩
  obtain ⟨payloads, hjournaled, htaken⟩ := moment_taken hmoment
  obtain ⟨head, before, after, rfl, hhead, rfl⟩ := htaken.split
  rw [framesSinceConnect_frames hhead]
  obtain ⟨message, hmessage, hlogout⟩ := update_parsed hupdate
  refine ⟨message, hmessage, ?_⟩
  by_contra hsequence
  have hbefore := hjournaled.goesOn before raw after rfl
  have hraw : ¬ GoesOn before raw := by
    rintro ⟨other, hother, hin, -⟩
    rw [hmessage] at hother
    cases hother
    exact hsequence hin
  obtain ⟨more, hmessages⟩ := hjournaled.start
  rw [List.append_assoc, List.cons_append] at hmessages
  obtain ⟨hhandled, hlast⟩ := getElem_handled hbefore hraw (after ++ more)
  rw [← hmessages, hhandled] at hends
  exact hends raw hlast ⟨message, symbol, updates, hmessage, hsequence, hupdate, liveReady_frames hhead hready⟩

/-- Decimals are whole numbers. -/
def wholePlatform : Platform Unit Int where
  parseJson _ := none
  toDouble _ := 0
  toUint32 _ := 0#32
  parseDecimal := toInt
  zero := 0
  isNegative value := value < 0
  scaled decimals value := value * 10 ^ decimals
  hashOrderId text := text.length

def perpetualSettings : BookSettings := ⟨.deribitFix, ⟨0, 0⟩, 0⟩

def perpetual : Bytes := ascii "BTC-PERPETUAL"

/-- One bid at 100. -/
def bookSnapshot (number : ℕ) : Bytes :=
  peerMessage MsgType.kMarketDataSnapshotFullRefresh number
    [⟨Tag.kSymbol, perpetual⟩, ⟨Tag.kNoMdEntries, ascii "1"⟩, ⟨Tag.kMdEntryType, ascii "0"⟩,
     ⟨Tag.kMdEntryPx, ascii "100"⟩, ⟨Tag.kMdEntrySize, ascii "5"⟩]

/-- The bid changes size. -/
def bookUpdate (number : ℕ) : Bytes :=
  peerMessage MsgType.kMarketDataIncrementalRefresh number
    [⟨Tag.kSymbol, perpetual⟩, ⟨Tag.kNoMdEntries, ascii "1"⟩, ⟨Tag.kMdUpdateAction, ascii "1"⟩,
     ⟨Tag.kMdEntryType, ascii "0"⟩, ⟨Tag.kMdEntryPx, ascii "100"⟩, ⟨Tag.kMdEntrySize, ascii "7"⟩]

def lateHeartbeat : Bytes := peerMessage MsgType.kHeartbeat 5 []

/-- A connection on which some bytes arrive at once. -/
def oneRound (bytes : Bytes) : ConnectionRun where
  startNs := 0
  nonce := some (ascii "n")
  logonNs := 0
  loggedNs := 0
  rounds := [⟨false, false, 0, .data bytes, 0⟩]

/-- The session as the client drives it, with nothing failing. -/
def captureActions (payloads : List Bytes) : List SessionAction :=
  .call (.beginConnect ⟨FixClient.connectReason freshClient.config, .deribitFix, none, .opened, 0, 0, 0, 1, true, true⟩) ::
    payloads.map fun payload => .call (.onWireMessage ⟨payload, .deribitFix, 2, true, true⟩)

theorem captured_three (a b c : Bytes) :
    ∃ s, (CaptureSession.start {}).run blankJournal (captureActions [a, b, c]) = some s ∧
      s.sinkCalls.map FeedEvent.adapterCall = .onConnect 1 :: [a, b, c].map .onFrame :=
  ⟨_, rfl, rfl⟩

/-- Three messages have been captured, with whatever the client has sent between them. -/
theorem moment_three {run : ConnectionRun} {a b c : Bytes} (count : ℕ)
    (heffects : (((freshClient.runOneConnection plainPlatform healthyWorld run).effects.take count).filter
      (!·.isSend)) = .beginConnect (FixClient.connectReason freshClient.config) :: [a, b, c].map .onWireMessage) :
    Moment plainPlatform healthyWorld blankJournal {} freshClient run (.onConnect 1 :: [a, b, c].map .onFrame) := by
  obtain ⟨s, hrun, hcalls⟩ := captured_three a b c
  refine ⟨(freshClient.runOneConnection plainPlatform healthyWorld run).effects.take count, ?_, _, s, hrun,
    heffects.symm, hcalls.symm⟩
  have hfresh : freshClient.effects = [] := rfl
  rw [hfresh, List.nil_append]
  exact List.take_prefix _ _

/-- An update as the third frame is applied to the book of the snapshot before it. -/
theorem applied_after_snapshot {raw : Bytes} {updates : List L2Update}
    (hupdate : parseDeribitFixMessage wholePlatform perpetualSettings.scale raw = .ok (.update perpetual updates)) :
    AppliedSinceSnapshot wholePlatform perpetualSettings
      [.onConnect 1, .onFrame logonReply, .onFrame (bookSnapshot 2), .onFrame raw] perpetual
      [logonReply, bookSnapshot 2] raw := by
  have hready : LiveReady wholePlatform perpetualSettings
      [.onConnect 1, .onFrame logonReply, .onFrame (bookSnapshot 2)] perpetual := by decide +kernel
  exact ⟨_, [], updates, rfl, rfl, hready, hupdate, by simp⟩

/-- The peer's third message is lost. -/
def gapRun : ConnectionRun := oneRound (logonReply ++ bookSnapshot 2 ++ bookUpdate 4)

/-- The update after the lost message has been applied and the book reads Ready. -/
theorem update_after_gap_applied :
    ∃ calls, Moment plainPlatform healthyWorld blankJournal {} freshClient gapRun calls ∧
      ¬ ReadyInSequence wholePlatform perpetualSettings calls := by
  refine ⟨_, moment_three (a := logonReply) (b := bookSnapshot 2) (c := bookUpdate 4) 6 (by decide +kernel), ?_⟩
  intro hsequence
  have hready : LiveReady wholePlatform perpetualSettings
      [.onConnect 1, .onFrame logonReply, .onFrame (bookSnapshot 2), .onFrame (bookUpdate 4)] perpetual := by
    decide +kernel
  have hupdate : parseDeribitFixMessage wholePlatform perpetualSettings.scale (bookUpdate 4) =
      .ok (.update perpetual [⟨.bid, 100, 7, .change⟩]) := by decide +kernel
  obtain ⟨message, hmessage, hin⟩ := hsequence perpetual hready _ (bookUpdate 4) (applied_after_snapshot hupdate)
  have hout : ∀ message ∈ parsed (bookUpdate 4), ¬ InSequence [logonReply, bookSnapshot 2] message := by decide +kernel
  exact hout message hmessage hin

/-- The peer's fourth message is lost, and the one after it is no update. -/
def heartbeatGapRun : ConnectionRun := oneRound (logonReply ++ bookSnapshot 2 ++ bookUpdate 3 ++ lateHeartbeat)

theorem heartbeat_gap_ready_in_sequence :
    arrived freshClient heartbeatGapRun = [logonReply, bookSnapshot 2, bookUpdate 3, lateHeartbeat] ∧
    handled (arrived freshClient heartbeatGapRun) = [logonReply, bookSnapshot 2, bookUpdate 3] ∧
    ∃ calls, Moment plainPlatform healthyWorld blankJournal {} freshClient heartbeatGapRun calls ∧
      LiveReady wholePlatform perpetualSettings calls perpetual ∧
      AppliedSinceSnapshot wholePlatform perpetualSettings calls perpetual [logonReply, bookSnapshot 2] (bookUpdate 3) ∧
      ReadyInSequence wholePlatform perpetualSettings calls := by
  have harrived : arrived freshClient heartbeatGapRun = [logonReply, bookSnapshot 2, bookUpdate 3, lateHeartbeat] := by
    decide +kernel
  have hhandled : handled (arrived freshClient heartbeatGapRun) = [logonReply, bookSnapshot 2, bookUpdate 3] := by
    rw [harrived]
    decide +kernel
  have hmoment : Moment plainPlatform healthyWorld blankJournal {} freshClient heartbeatGapRun
      (.onConnect 1 :: [logonReply, bookSnapshot 2, bookUpdate 3].map .onFrame) := moment_three 6 (by decide +kernel)
  have hupdate : parseDeribitFixMessage wholePlatform perpetualSettings.scale (bookUpdate 3) =
      .ok (.update perpetual [⟨.bid, 100, 7, .change⟩]) := by decide +kernel
  refine ⟨harrived, hhandled, _, hmoment, by decide +kernel, ?_, ?_⟩
  · exact applied_after_snapshot hupdate
  · refine ready_in_sequence wholePlatform perpetualSettings plainPlatform healthyWorld blankJournal {} freshClient
      heartbeatGapRun ?_ _ hmoment
    rw [hhandled, harrived]
    rintro _ ⟨rfl⟩ ⟨message, symbol, updates, -, -, hupdate, -⟩
    have hignored : parseDeribitFixMessage wholePlatform perpetualSettings.scale lateHeartbeat = .ok .ignored := by
      decide +kernel
    rw [hignored] at hupdate
    cases hupdate

end CryptoTrader.Deribit
