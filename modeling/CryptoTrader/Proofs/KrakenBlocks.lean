import CryptoTrader.Proofs.KrakenPacing
import CryptoTrader.Proofs.SinkBlocks
import Mathlib.Data.List.ModifyLast

/-! What the sinks hear of a Kraken connection. The library reports sockets one after another,
and the client opens a connect on its session once per socket, before the socket's first
message, and closes it with the socket. So a block is never made of two sockets and never
misses a message of the one it is made of. -/

namespace CryptoTrader

open CaptureSession

namespace SinkBlock

def payloads (b : SinkBlock) : List Bytes := b.frames.map (·.payload)

/-- The block with one more frame, and the block once its connect has ended. -/
def take (b : SinkBlock) (frame : CaptureFrame) : SinkBlock := { b with frames := b.frames ++ [frame] }

def finish (b : SinkBlock) : SinkBlock := { b with ended := true }

theorem calls_take {b : SinkBlock} (hopen : b.ended = false) (frame : CaptureFrame) :
    (b.take frame).calls = b.calls ++ [.frame frame] := by
  simp [calls, take, hopen]

theorem calls_finish {b : SinkBlock} (hopen : b.ended = false) :
    b.finish.calls = b.calls ++ [.disconnect b.connectId] := by
  simp [calls, finish, hopen]

theorem payloads_take (b : SinkBlock) (frame : CaptureFrame) : (b.take frame).payloads = b.payloads ++ [frame.payload] :=
  List.map_append

theorem payloads_finish (b : SinkBlock) : b.finish.payloads = b.payloads := rfl

end SinkBlock

namespace Kraken

/-- The connections a log says were set up. -/
def connectedCount (setups : List SetupEvent) : ℕ :=
  setups.countP fun event => match event with
    | .connected _ => true
    | _ => false

theorem connectedCount_snoc (setups : List SetupEvent) (event : SetupEvent) :
    connectedCount (setups ++ [event]) = connectedCount setups + connectedCount [event] := List.countP_append

/-- The places of `HandleOpen` at which the session has not been told yet. -/
def SocketThread.setting : SocketThread → Bool
  | .idle | .closing | .starting => false
  | _ => true

/-- The blocks heard are what the session's sinks were called with. -/
structure Lines (config : WsClientConfig) (s : CaptureSession) (past : List SinkBlock) (current : Option SinkBlock) :
    Prop where
  mode : s.config.journalMode = .threaded
  calls : s.sinkCalls = (past ++ current.toList).flatMap (·.calls)
  announced : s.announced = current.isSome
  past_ended : ∀ b ∈ past, b.ended = true
  current_open : ∀ b, current = some b → b.ended = false ∧ b.connectId = s.connectId
  ours : ∀ b ∈ past ++ current.toList,
    b.reason = connectReason config ∧ ∀ frame ∈ b.frames, frame.source = .krakenJson

namespace Lines

variable {J : JournalPlatform} {config : WsClientConfig} {s t : CaptureSession} {past : List SinkBlock}
  {current : Option SinkBlock}

theorem keep (h : Lines config s past current) (hmode : t.config = s.config) (hcalls : t.sinkCalls = s.sinkCalls)
    (hannounced : t.announced = s.announced) (hid : t.connectId = s.connectId) :
    Lines config t past current where
  mode := by rw [hmode, h.mode]
  calls := hcalls.trans h.calls
  announced := hannounced.trans h.announced
  past_ended := h.past_ended
  current_open := by
    rw [hid]
    exact h.current_open
  ours := h.ours

/-- A message joins the open block; outside one it is lost. -/
theorem wire (h : Lines config s past current) (hinv : s.ModeInv) (call : WireCall) (hsource : call.source = .krakenJson) :
    Lines config (s.onWireMessage call) past (current.map (·.take (s.wireFrame call))) := by
  obtain ⟨hcalls, hannounced⟩ := s.onWireMessage_threaded h.mode hinv call
  obtain ⟨hconfig, hid, -⟩ := s.onWireMessage_keeps call
  cases current with
  | none =>
    rw [h.announced, Option.isSome_none, if_neg Bool.false_ne_true, List.append_nil] at hcalls
    exact h.keep hconfig hcalls hannounced hid
  | some b =>
    obtain ⟨hopen, hsame⟩ := h.current_open b rfl
    rw [h.announced, Option.isSome_some, if_pos rfl, h.calls] at hcalls
    refine ⟨by rw [hconfig, h.mode], ?_, hannounced.trans h.announced, h.past_ended, fun b' hb' => ?_,
      fun b' hb' => ?_⟩
    · rw [hcalls, Option.map_some, Option.toList_some, Option.toList_some, List.flatMap_append, List.flatMap_append,
        List.flatMap_singleton, List.flatMap_singleton, SinkBlock.calls_take hopen, List.append_assoc]
    · cases hb'
      exact ⟨hopen, hsame.trans hid.symm⟩
    · rcases List.mem_append.1 hb' with hb' | hb'
      · exact h.ours b' (List.mem_append_left _ hb')
      · obtain rfl := List.mem_singleton.1 hb'
        obtain ⟨hreason, hframes⟩ := h.ours b (List.mem_append_right _ (List.mem_singleton_self b))
        refine ⟨hreason, fun frame hframe => ?_⟩
        rcases List.mem_append.1 hframe with hframe | hframe
        · exact hframes frame hframe
        · obtain rfl := List.mem_singleton.1 hframe
          exact hsource

/-- The end of a connect ends the open block. -/
theorem ended (h : Lines config s past current) (flushed : Bool) (records : ℕ) :
    Lines config (s.ended flushed records) (past ++ (current.map (·.finish)).toList) none := by
  rw [ended_eq]
  have hcalls := h.calls
  cases current with
  | none =>
    have hannounced : s.announced = false := h.announced
    refine ⟨h.mode, ?_, rfl, ?_, (fun _ hb => by cases hb), ?_⟩
    · simp only [hannounced, Bool.false_eq_true, if_false, List.append_nil]
      simpa using hcalls
    · simpa using h.past_ended
    · simpa using h.ours
  | some b =>
    have hannounced : s.announced = true := h.announced
    obtain ⟨hopen, hid⟩ := h.current_open b rfl
    have hours := h.ours b (List.mem_append_right _ (List.mem_singleton_self b))
    refine ⟨h.mode, ?_, rfl, fun b' hb' => ?_, (fun _ hb => by cases hb), fun b' hb' => ?_⟩
    · simp only [hannounced, if_true, hcalls, Option.toList_some, Option.map_some, Option.toList_none, List.append_nil,
        List.flatMap_append, List.flatMap_singleton, ← hid, SinkBlock.calls_finish hopen, List.append_assoc]
    · rcases List.mem_append.1 hb' with hb' | hb'
      · exact h.past_ended b' hb'
      · obtain rfl := List.mem_singleton.1 hb'
        rfl
    · rw [Option.toList_none, List.append_nil] at hb'
      rcases List.mem_append.1 hb' with hb' | hb'
      · exact h.ours b' (List.mem_append_left _ hb')
      · obtain rfl := List.mem_singleton.1 hb'
        exact hours

/-- A connect on a session with nothing open fails unheard, or opens an empty block. -/
theorem connect (h : Lines config s past none) (call : ConnectCall) (hreason : call.reason = connectReason config) :
    ((∃ error, (s.openConnect J call).results.getLast? = some (.connectFailed error)) ∧
      Lines config (s.openConnect J call) past none) ∨
    (∃ path, (s.openConnect J call).results.getLast? = some (.connected path)) ∧
      Lines config (s.openConnect J call) past
        (some { connectId := (s.openConnect J call).connectId, reason := call.reason }) := by
  have hconfig := (openConnect_keeps J s call).1
  have hmode : (s.openConnect J call).config.journalMode = .threaded := by rw [hconfig, h.mode]
  rcases openConnect_threaded (J := J) h.mode call with ⟨hcalls, hannounced, hfailed⟩ | ⟨hcalls, hannounced, hpath⟩
  · exact Or.inl ⟨hfailed, hmode, hcalls.trans h.calls, hannounced.trans h.announced, h.past_ended,
      (fun _ hb => by cases hb), h.ours⟩
  · refine Or.inr ⟨hpath, hmode, ?_, hannounced, h.past_ended, fun b hb => ?_, fun b hb => ?_⟩
    · rw [hcalls, h.calls, Option.toList_none, List.append_nil, Option.toList_some, List.flatMap_append,
        List.flatMap_singleton]
      rfl
    · cases hb
      exact ⟨rfl, rfl⟩
    · rcases List.mem_append.1 hb with hb | hb
      · exact h.ours b (List.mem_append_left _ hb)
      · obtain rfl := List.mem_singleton.1 hb
        exact ⟨hreason, fun _ hf => by cases hf⟩

end Lines

/-- How the blocks and the messages of the sockets stand while the library's thread is at a
place. -/
def BlockPlace (c : WsClient) (past : List SinkBlock) (current : Option SinkBlock) : SocketThread → Prop
  | .idle =>
    c.session.waiting = none ∧
      if c.socketOpen then
        ∃ earlier last, c.streams = earlier ++ [last] ∧ (past.map (·.payloads)).Sublist earlier ∧
          ∀ b, current = some b → last = b.payloads
      else current = none ∧ (past.map (·.payloads)).Sublist c.streams
  | .closing =>
    c.socketOpen = false ∧ (∃ flushed, c.session.waiting = some (.close flushed)) ∧
      ((past ++ current.toList).map (·.payloads)).Sublist c.streams
  -- a connect never finds a file to close, so `BeginConnect` never waits
  | .starting => False
  | _ =>
    c.socketOpen = true ∧ c.session.waiting = none ∧ current = none ∧
      ∃ earlier, c.streams = earlier ++ [[]] ∧ (past.map (·.payloads)).Sublist earlier

structure Blocks (c : WsClient) (past : List SinkBlock) (current : Option SinkBlock) : Prop where
  inv : c.session.ModeInv
  lines : Lines c.config c.session past current
  count : (past ++ current.toList).length = connectedCount c.setups
  place : BlockPlace c past current c.socket

namespace Blocks

variable {J : JournalPlatform} {c c' : WsClient} {past : List SinkBlock} {current : Option SinkBlock}

theorem called_waits {session : CaptureSession} (h : session.waiting.isSome = true) (waits : SocketThread)
    (returned : WsClient → WsClient) : c.called session waits returned = { c with session, socket := waits } := by
  simp only [WsClient.called, h, if_true]

theorem called_returns {session : CaptureSession} (h : session.waiting = none) (waits : SocketThread)
    (returned : WsClient → WsClient) : c.called session waits returned = returned { c with session } := by
  simp only [WsClient.called, h, Option.isSome_none, Bool.false_eq_true, if_false]

theorem blockPlace_keep (hsession : c'.session.waiting = c.session.waiting) (hopen : c'.socketOpen = c.socketOpen)
    (hstreams : c'.streams = c.streams) {socket : SocketThread} (h : BlockPlace c past current socket) :
    BlockPlace c' past current socket := by
  cases socket <;> simp only [BlockPlace, hsession, hopen, hstreams] at h ⊢ <;> exact h

theorem setting (h : Blocks c past current) (hset : c.socket.setting = true) :
    c.socketOpen = true ∧ c.session.waiting = none ∧ current = none ∧
      ∃ earlier, c.streams = earlier ++ [[]] ∧ (past.map (·.payloads)).Sublist earlier := by
  have hplace := h.place
  cases hsocket : c.socket <;> rw [hsocket] at hplace hset <;> first | exact hplace | cases hset

/-- Steps of a setup before it reaches the session. -/
theorem move (h : Blocks c past current) (hset : c.socket.setting = true) (hconfig : c'.config = c.config)
    (hsession : c'.session = c.session) (hopen : c'.socketOpen = c.socketOpen) (hstreams : c'.streams = c.streams)
    (hcount : connectedCount c'.setups = connectedCount c.setups)
    (hsocket : c'.socket.setting = true ∨ c'.socket = .idle) : Blocks c' past current := by
  obtain ⟨hup, hwaiting, hcurrent, earlier, hearlier, hsub⟩ := h.setting hset
  refine ⟨by rw [hsession]; exact h.inv, by rw [hconfig, hsession]; exact h.lines, by rw [hcount]; exact h.count, ?_⟩
  rcases hsocket with hsocket | hsocket
  · have hall : c'.socketOpen = true ∧ c'.session.waiting = none ∧ current = none ∧
        ∃ earlier, c'.streams = earlier ++ [[]] ∧ (past.map (·.payloads)).Sublist earlier :=
      ⟨hopen.trans hup, by rw [hsession, hwaiting], hcurrent, earlier, hstreams.trans hearlier, hsub⟩
    cases hplace : c'.socket <;> rw [hplace] at hsocket <;> first | exact hall | cases hsocket
  · rw [hsocket]
    refine ⟨by rw [hsession, hwaiting], ?_⟩
    rw [hopen, hup, if_pos rfl]
    refine ⟨earlier, [], hstreams.trans hearlier, hsub, fun b hb => ?_⟩
    rw [hcurrent] at hb
    cases hb

theorem keep (h : Blocks c past current) (hconfig : c'.config = c.config) (hsession : c'.session = c.session)
    (hopen : c'.socketOpen = c.socketOpen) (hstreams : c'.streams = c.streams) (hsetups : c'.setups = c.setups)
    (hsocket : c'.socket = c.socket) : Blocks c' past current := by
  refine ⟨by rw [hsession]; exact h.inv, by rw [hconfig, hsession]; exact h.lines, by rw [hsetups]; exact h.count, ?_⟩
  rw [hsocket]
  exact blockPlace_keep (by rw [hsession]) hopen hstreams h.place

theorem opened (h : Blocks c past current) (hidle : c.socket = .idle) (hclosed : c.socketOpen = false) :
    Blocks ({ c with socketOpen := true, streams := c.streams ++ [[]] } : WsClient).throttle past current := by
  have hplace := h.place
  rw [hidle] at hplace
  obtain ⟨hwaiting, hplace⟩ := hplace
  rw [hclosed, if_neg Bool.false_ne_true] at hplace
  obtain ⟨hcurrent, hsub⟩ := hplace
  have hset : ∀ socket : SocketThread, socket.setting = true → Blocks
      { c with socketOpen := true, streams := c.streams ++ [[]], socket := socket } past current := by
    intro socket hsocket
    refine ⟨h.inv, h.lines, h.count, ?_⟩
    have hall : true = true ∧ c.session.waiting = none ∧ current = none ∧
        ∃ earlier, c.streams ++ [[]] = earlier ++ [[]] ∧ (past.map (·.payloads)).Sublist earlier :=
      ⟨rfl, hwaiting, hcurrent, c.streams, rfl, hsub⟩
    cases socket <;> first | exact hall | cases hsocket
  unfold WsClient.throttle
  simp only
  split_ifs
  · exact hset _ rfl
  · exact hset _ rfl
  · exact hset _ rfl
  · exact hset _ rfl

theorem message (h : Blocks c past current) (hidle : c.socket = .idle) (hup : c.socketOpen = true) {call : WireCall}
    (hnext : c.handleMessage J call = some c') : ∃ current', Blocks c' past current' := by
  obtain ⟨session, hstep, rfl⟩ := Option.map_eq_some_iff.1 hnext
  have hplace := h.place
  rw [hidle] at hplace
  obtain ⟨hwaiting, hplace⟩ := hplace
  rw [hup, if_pos rfl] at hplace
  obtain ⟨earlier, last, hstreams, hsub, hlast⟩ := hplace
  set wire : WireCall := { call with source := .krakenJson } with hwire
  have hcalled : c.session.onWireMessage wire = session := by
    simpa only [CaptureSession.step, hwaiting, Option.isSome_none, Bool.false_eq_true, if_false, Option.some.injEq]
      using hstep
  subst hcalled
  have hlines := h.lines.wire h.inv wire rfl
  refine ⟨_, h.inv.wire wire, hlines, ?_, ?_⟩
  · have hlength : (current.map (·.take (c.session.wireFrame wire))).toList.length = current.toList.length := by
      cases current <;> rfl
    rw [List.length_append, hlength, ← List.length_append]
    exact h.count
  · change BlockPlace _ _ _ c.socket
    rw [hidle]
    refine ⟨(c.session.onWireMessage_keeps wire).2.2.trans hwaiting, ?_⟩
    change if c.socketOpen then _ else _
    rw [hup, if_pos rfl]
    refine ⟨earlier, last ++ [call.payload], ?_, hsub, fun b hb => ?_⟩
    · change c.streams.modifyLast _ = _
      rw [hstreams, List.modifyLast_concat]
    · obtain ⟨b, hcurrent, rfl⟩ := Option.map_eq_some_iff.1 hb
      rw [hlast b hcurrent, SinkBlock.payloads_take]
      rfl

/-- The blocks once the open one has ended are those before. -/
theorem payloads_ended :
    (past ++ (current.map (·.finish)).toList).map (·.payloads) =
      (past ++ current.toList).map (·.payloads) := by
  cases current <;> simp [SinkBlock.payloads_finish]

theorem length_ended :
    (past ++ (current.map (·.finish)).toList ++ (none : Option SinkBlock).toList).length =
      (past ++ current.toList).length := by
  cases current <;> simp

theorem sublist_of_up (h : Blocks c past current) (hidle : c.socket = .idle) (hup : c.socketOpen = true) :
    c.session.waiting = none ∧ ((past ++ current.toList).map (·.payloads)).Sublist c.streams := by
  have hplace := h.place
  rw [hidle] at hplace
  obtain ⟨hwaiting, hplace⟩ := hplace
  rw [hup, if_pos rfl] at hplace
  obtain ⟨earlier, last, hstreams, hsub, hlast⟩ := hplace
  refine ⟨hwaiting, ?_⟩
  rw [hstreams, List.map_append]
  refine hsub.append ?_
  cases current with
  | none => exact List.nil_sublist _
  | some b =>
    rw [hlast b rfl]
    exact List.Sublist.refl _

theorem closed (h : Blocks c past current) (hidle : c.socket = .idle) (hup : c.socketOpen = true) {flushed : Bool}
    (hnext : c.handleClose J flushed = some c') : ∃ past' current', Blocks c' past' current' := by
  obtain ⟨session, hstep, rfl⟩ := Option.map_eq_some_iff.1 hnext
  obtain ⟨hwaiting, hsub⟩ := h.sublist_of_up hidle hup
  have hinversion := step_inversion h.inv hstep
  have hinv := h.inv.step hinversion
  cases hinversion with
  | wait call hcall hnone hopen =>
    rw [called_waits rfl]
    exact ⟨past, current, hinv, h.lines.keep rfl rfl rfl rfl, h.count, rfl, ⟨flushed, rfl⟩, hsub⟩
  | close call flushed' hcall hnone hopen =>
    have hquiet := ended_quiet c.session flushed' 0
    rw [called_returns (hquiet.goOn_waiting _)]
    refine ⟨_, none, hinv, (h.lines.ended flushed' 0).keep rfl rfl rfl rfl, length_ended.trans h.count,
      hquiet.goOn_waiting _, ?_⟩
    change if (false : Bool) then _ else _
    rw [if_neg Bool.false_ne_true, payloads_ended]
    exact ⟨rfl, hsub⟩

theorem closeReturned (h : Blocks c past current) (hclosing : c.socket = .closing) {session : CaptureSession}
    (hstep : c.session.step J .resume = some session) :
    ∃ past' current', Blocks ({ c with session := session } : WsClient).goIdle past' current' := by
  have hplace := h.place
  rw [hclosing] at hplace
  obtain ⟨hdown, ⟨flushed, hwaiting⟩, hsub⟩ := hplace
  have hinversion := step_inversion h.inv hstep
  have hinv := h.inv.step hinversion
  cases hinversion with
  | resume call records hcall hcalled hsignal hopen =>
    rw [hwaiting] at hcalled
    cases hcalled
    have hquiet := ended_quiet c.session true records
    refine ⟨_, none, hinv, (h.lines.ended true records).keep rfl rfl rfl rfl, length_ended.trans h.count,
      hquiet.goOn_waiting _, ?_⟩
    change if c.socketOpen then _ else _
    rw [hdown, if_neg Bool.false_ne_true, payloads_ended]
    exact ⟨rfl, hsub⟩

theorem connect (h : Blocks c past current) (hplace : c.socket = .connecting) {call : ConnectCall}
    (hnext : c.beginConnect J call = some c') : ∃ current', Blocks c' past current' := by
  obtain ⟨session, hstep, rfl⟩ := Option.map_eq_some_iff.1 hnext
  obtain ⟨hup, hwaiting, rfl, earlier, hstreams, hsub⟩ := h.setting (by rw [hplace]; rfl)
  have hclosed : c.session.journalOpen = false := by
    rw [(h.inv.threaded h.lines.mode).2, h.lines.announced]
    rfl
  have hinversion := step_inversion h.inv hstep
  have hinv := h.inv.step hinversion
  cases hinversion with
  | wait call hcall hnone hopen =>
    rw [hclosed] at hopen
    cases hopen
  | close call' flushed hcall hnone hopen =>
    have hquiet := ended_quiet c.session flushed 0
    have hlines := h.lines.ended flushed 0
    rw [Option.map_none, Option.toList_none, List.append_nil] at hlines
    set connect : ConnectCall := { call with reason := connectReason c.config, source := .krakenJson } with hconnect
    have hwaits := hquiet.goOn_waiting (J := J) (.beginConnect connect)
    rw [called_returns hwaits, WsClient.connectReturned]
    have hcount : past.length = connectedCount c.setups := by simpa using h.count
    rcases hlines.connect (J := J) connect rfl with ⟨⟨error, hlast⟩, hnow⟩ | ⟨⟨path, hlast⟩, hnow⟩
    · simp only [goOn, hlast]
      refine ⟨none, hinv, hnow, h.count, hwaits, ?_⟩
      change if c.socketOpen then _ else _
      rw [hup, if_pos rfl]
      exact ⟨earlier, [], hstreams, hsub, fun b hb => by cases hb⟩
    · simp only [goOn, hlast]
      refine ⟨_, hinv, hnow, ?_, hwaits, ?_⟩
      · change _ = connectedCount (c.setups ++ [_])
        rw [connectedCount_snoc, List.length_append, hcount]
        rfl
      · change if c.socketOpen then _ else _
        rw [hup, if_pos rfl]
        refine ⟨earlier, [], hstreams, hsub, fun b hb => ?_⟩
        cases hb
        rfl

theorem advance (h : Blocks c past current) (hnext : c.advance = some c') : Blocks c' past current := by
  unfold WsClient.advance at hnext
  split at hnext
  · next untilNs hplace =>
    have hset : c.socket.setting = true := by
      rw [hplace]
      rfl
    split_ifs at hnext
    · cases hnext
      exact h.move hset rfl rfl rfl rfl rfl (Or.inr rfl)
    · cases hnext
      exact h.move hset rfl rfl rfl rfl rfl (Or.inl rfl)
  · next hplace =>
    cases hnext
    exact h.move (by rw [hplace]; rfl) rfl rfl rfl rfl (connectedCount_snoc _ _) (Or.inl rfl)
  · next hplace =>
    cases hnext
    exact h.move (by rw [hplace]; rfl) rfl rfl rfl rfl (connectedCount_snoc _ _) (Or.inl rfl)
  · next untilNs hplace =>
    split_ifs at hnext
    cases hnext
    exact h.move (by rw [hplace]; rfl) rfl rfl rfl rfl rfl (Or.inr rfl)
  · cases hnext

theorem watch (h : Blocks c past current) (hnext : c.watch = some c') : Blocks c' past current := by
  unfold WsClient.watch at hnext
  split at hnext
  · split_ifs at hnext
    · cases hnext
      exact h.keep rfl rfl rfl rfl rfl rfl
    · cases hnext
      exact h.keep rfl rfl rfl rfl rfl rfl
  · split_ifs at hnext
    · cases hnext
      exact h.keep rfl rfl rfl rfl rfl rfl
    · cases hnext
      exact h.keep rfl rfl rfl rfl rfl rfl
  · cases hnext
    exact h.keep rfl rfl rfl rfl rfl rfl
  · cases hnext
    exact h.keep rfl rfl rfl rfl rfl rfl
  · cases hnext

theorem step (h : Blocks c past current) {action : WsAction} (hnext : c.step J action = some c') :
    ∃ past' current', Blocks c' past' current' := by
  cases action with
  | tick ns =>
    cases hnext
    exact ⟨past, current, h.keep rfl rfl rfl rfl rfl rfl⟩
  | opened =>
    obtain ⟨hidle, hclosed, hnext⟩ := WsClient.calledBack_eq_some hnext
    cases hnext
    exact ⟨past, current, h.opened hidle hclosed⟩
  | message call =>
    obtain ⟨hidle, hup, hnext⟩ := WsClient.calledBack_eq_some hnext
    exact ⟨past, h.message hidle hup hnext⟩
  | closed flushed =>
    obtain ⟨hidle, hup, hnext⟩ := WsClient.calledBack_eq_some hnext
    exact h.closed hidle hup hnext
  | error =>
    obtain ⟨-, -, hnext⟩ := WsClient.calledBack_eq_some hnext
    cases hnext
    exact ⟨past, current, h.keep rfl rfl rfl rfl rfl rfl⟩
  | alive =>
    obtain ⟨-, -, hnext⟩ := WsClient.calledBack_eq_some hnext
    cases hnext
    exact ⟨past, current, h.keep rfl rfl rfl rfl rfl rfl⟩
  | advance => exact ⟨past, current, h.advance hnext⟩
  | fetched token =>
    simp only [WsClient.step] at hnext
    split_ifs at hnext with hplace
    have hset : c.socket.setting = true := by
      rw [hplace]
      rfl
    cases token with
    | some token =>
      cases hnext
      exact ⟨past, current, h.move hset rfl rfl rfl rfl rfl (Or.inl rfl)⟩
    | none =>
      cases hnext
      exact ⟨past, current, h.move hset rfl rfl rfl rfl (connectedCount_snoc _ _) (Or.inl rfl)⟩
  | sent success =>
    simp only [WsClient.step] at hnext
    split at hnext
    · next token hplace =>
      have hset : c.socket.setting = true := by
        rw [hplace]
        rfl
      cases success with
      | true =>
        cases hnext
        exact ⟨past, current, h.move hset rfl rfl rfl rfl rfl (Or.inl rfl)⟩
      | false =>
        cases hnext
        exact ⟨past, current, h.move hset rfl rfl rfl rfl (connectedCount_snoc _ _) (Or.inl rfl)⟩
    · cases hnext
  | connect call =>
    simp only [WsClient.step] at hnext
    split_ifs at hnext with hplace
    exact ⟨past, h.connect hplace hnext⟩
  | resume =>
    simp only [WsClient.step, WsClient.resume] at hnext
    split at hnext
    · next hplace =>
      have hnever := h.place
      rw [hplace] at hnever
      cases hnever
    · next hplace =>
      obtain ⟨session, hstep, rfl⟩ := Option.map_eq_some_iff.1 hnext
      exact h.closeReturned hplace hstep
    · cases hnext
  | journal written =>
    obtain ⟨session, hstep, rfl⟩ := Option.map_eq_some_iff.1 hnext
    have hinversion := step_inversion h.inv hstep
    have hinv := h.inv.step hinversion
    cases hinversion with
    | journal written journal hjournal =>
      exact ⟨past, current, hinv, h.lines.keep rfl rfl rfl rfl, h.count, blockPlace_keep rfl rfl rfl h.place⟩
  | report =>
    simp only [WsClient.step] at hnext
    split_ifs at hnext
    cases hnext
    exact ⟨past, current, h.keep rfl rfl rfl rfl rfl rfl⟩
  | watchdog => exact ⟨past, current, h.watch hnext⟩
  | requestStop =>
    cases hnext
    unfold WsClient.requestStop
    split_ifs
    · exact ⟨past, current, h⟩
    · exact ⟨past, current, h.keep rfl rfl rfl rfl rfl rfl⟩

theorem sublist (h : Blocks c past current) : ((past ++ current.toList).map (·.payloads)).Sublist c.streams := by
  cases hset : c.socket.setting with
  | true =>
    obtain ⟨-, -, rfl, earlier, hstreams, hsub⟩ := h.setting hset
    rw [hstreams, Option.toList_none, List.append_nil]
    exact hsub.trans (List.sublist_append_left _ _)
  | false =>
    have hplace := h.place
    cases hsocket : c.socket with
    | idle =>
      cases hup : c.socketOpen with
      | true => exact (h.sublist_of_up hsocket hup).2
      | false =>
        rw [hsocket] at hplace
        obtain ⟨-, hplace⟩ := hplace
        rw [hup, if_neg Bool.false_ne_true] at hplace
        obtain ⟨rfl, hsub⟩ := hplace
        rw [Option.toList_none, List.append_nil]
        exact hsub
    | closing =>
      rw [hsocket] at hplace
      exact hplace.2.2
    | starting =>
      rw [hsocket] at hplace
      cases hplace
    | _ =>
      rw [hsocket] at hset
      cases hset

end Blocks

section Runs

variable {J : JournalPlatform} {session : SessionConfig} {config : WsClientConfig} {startNs : ℕ}
  {actions : List WsAction} {c : WsClient}

theorem WsClient.step_config {c c' : WsClient} {action : WsAction} (h : c.step J action = some c') :
    c'.config = c.config := (step_setup h).config_eq

theorem WsClient.run_blocks (hrun : (WsClient.start session config startNs).run J actions = some c) :
    (∃ past current, Blocks c past current) ∧ c.config = config := by
  refine Machine.run_invariant (I := fun _ c => (∃ past current, Blocks c past current) ∧ c.config = config) ⟨?_, rfl⟩
    (fun _ c action c' _ hinv hstep => ?_) hrun
  · refine ⟨[], none, ModeInv.start _, ⟨rfl, rfl, rfl, ?_, ?_, ?_⟩, rfl, rfl, rfl, List.nil_sublist _⟩
    all_goals
      intro b hb
      cases hb
  · obtain ⟨⟨past, current, hblocks⟩, hconfig⟩ := hinv
    exact ⟨hblocks.step hstep, (step_config hstep).trans hconfig⟩

/-- Whatever the sockets, the exchange, the disk, the watchdog and stop requests do: what the
sinks hear is, block by block, the complete message streams of some of the sockets so far, in
order, each with the client's own reason and its frames marked as Kraken's. There are as many
blocks as setups that succeeded, every block but the last has ended, and a setup never waits
for the journal thread. -/
theorem kraken_blocks_are_sockets (hrun : (WsClient.start session config startNs).run J actions = some c) :
    ∃ blocks : List SinkBlock, c.session.sinkCalls = blocks.flatMap (·.calls) ∧
      (blocks.map fun b => b.frames.map (·.payload)).Sublist c.streams ∧
      blocks.length = connectedCount c.setups ∧
      (∀ b ∈ blocks, b.reason = connectReason config ∧ ∀ frame ∈ b.frames, frame.source = .krakenJson) ∧
      (∀ b ∈ blocks.dropLast, b.ended = true) ∧ c.socket ≠ .starting := by
  obtain ⟨⟨past, current, hblocks⟩, hconfig⟩ := WsClient.run_blocks hrun
  have hours := hblocks.lines.ours
  rw [hconfig] at hours
  refine ⟨past ++ current.toList, hblocks.lines.calls, hblocks.sublist, hblocks.count, hours, fun b hb => ?_,
    fun hstarting => ?_⟩
  · cases current with
    | none =>
      rw [Option.toList_none, List.append_nil] at hb
      exact hblocks.lines.past_ended b (List.dropLast_subset _ hb)
    | some last =>
      rw [Option.toList_some, List.dropLast_concat] at hb
      exact hblocks.lines.past_ended b hb
  · have hplace := hblocks.place
    rw [hstarting] at hplace
    cases hplace

end Runs

/-- A connection that delivers a message and closes, and one whose token is refused. -/
def captureThenRefusal : List WsAction :=
  [.opened, .advance, .advance, .fetched (some []), .sent true, .connect firstConnect, .message firstWire,
    .closed true, .journal true, .journal true, .journal true, .resume, .tick 1000000000,
    .opened, .advance, .advance, .fetched none, .requestStop, .advance, .message { firstWire with payload := [8] }]

theorem captureThenRefusal_runs :
    ((WsClient.start {} {} 1).run blankJournal captureThenRefusal).isSome = true := by decide +kernel

/-- The message of the refused connection is in no block. -/
theorem refused_socket_unheard :
    let c := ((WsClient.start {} {} 1).run blankJournal captureThenRefusal).get captureThenRefusal_runs
    c.streams = [[[7]], [[8]]] ∧ ∃ blocks : List SinkBlock, c.session.sinkCalls = blocks.flatMap (·.calls) ∧
      (blocks.map fun b => b.frames.map (·.payload)).Sublist [[[7]], [[8]]] ∧ blocks.length = 1 := by
  intro c
  obtain ⟨blocks, hcalls, hsub, hlength, -⟩ := kraken_blocks_are_sockets (Option.some_get captureThenRefusal_runs).symm
  have hstreams : c.streams = [[[7]], [[8]]] := by decide +kernel
  have hcount : connectedCount c.setups = 1 := by decide +kernel
  exact ⟨hstreams, blocks, hcalls, hstreams ▸ hsub, hlength.trans hcount⟩

end Kraken

end CryptoTrader
