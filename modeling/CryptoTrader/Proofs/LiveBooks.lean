import CryptoTrader.Proofs.LossyPath
import CryptoTrader.Proofs.SinkBlocks
import CryptoTrader.Sanity.FeedHandler

/-! The live books of the running process. Sessions, journal threads, the book thread and the
main thread act in any order, and rings refuse frames as they please. At every moment a book
that reads Ready is a snapshot and every update after it among the frames that its session
captured on one connect, up to some moment in the past; at the exit that moment is the last. -/

namespace CryptoTrader

open LossyChannel GranularityPolicy

section Connects

/-- The frames captured since the last connect. -/
def capturedSinceConnect (calls : List FeedEvent) : List CaptureFrame :=
  calls.foldl (fun frames call => match call with
    | .frame frame => frames ++ [frame]
    | .connect _ _ => []
    | .disconnect _ => frames) []

variable {Snap Batch : Type} (frameEvents : Bytes → List (SymbolEvent Snap Batch))

/-- Where sinks are called with blocks, a symbol's trace is what the frames of the last block
hold for it. -/
theorem trace_of_inside {calls : List FeedEvent} {open_ : Bool} (hinside : inside calls = some open_) :
    (SymbolTrace.ofCalls frameEvents (calls.map (·.adapterCall))).events =
      (capturedSinceConnect calls).flatMap (fun frame => frameEvents frame.payload) ∧
    (open_ = true → (SymbolTrace.ofCalls frameEvents (calls.map (·.adapterCall))).stale = false) := by
  induction calls using List.reverseRecOn generalizing open_ with
  | nil => exact ⟨rfl, fun _ => rfl⟩
  | append_singleton calls call ih =>
    obtain ⟨before, hbefore, hstep⟩ := (Machine.run_snoc_eq_some _).1 hinside
    obtain ⟨hevents, hstale⟩ := ih hbefore
    rw [List.map_append, List.map_singleton, SymbolTrace.ofCalls_snoc, capturedSinceConnect, List.foldl_concat]
    rw [capturedSinceConnect] at hevents
    generalize SymbolTrace.ofCalls frameEvents (calls.map (·.adapterCall)) = t at hevents hstale ⊢
    cases call with
    | frame frame =>
      cases before with
      | false => cases hstep
      | true =>
        have hlive : t.stale = false := hstale rfl
        simp only [FeedEvent.adapterCall, SymbolTrace.step, hlive, Bool.false_eq_true, if_false, hevents,
          List.flatMap_append, List.flatMap_singleton]
        exact ⟨trivial, fun _ => trivial⟩
    | connect connectId reason => exact ⟨rfl, fun _ => rfl⟩
    | disconnect connectId =>
      refine ⟨hevents, fun hopen => ?_⟩
      cases before with
      | false => cases hstep
      | true =>
        cases hstep
        cases hopen

end Connects

namespace CaptureSession

variable {J : JournalPlatform} {s s' : CaptureSession} {action : SessionAction}

theorem step_inside_threaded (hmode : s.config.journalMode = .threaded) (hinv : s.ModeInv) (hstep : Step J s action s') :
    ∃ calls, s'.sinkCalls = s.sinkCalls ++ calls ∧ Machine.run insideStep s.announced calls = some s'.announced := by
  cases hstep with
  | wire call hwaiting =>
    obtain ⟨hcalls, hannounced⟩ := s.onWireMessage_threaded hmode hinv call
    refine ⟨_, hcalls, ?_⟩
    rw [hannounced]
    cases s.announced <;> rfl
  | wait call hcall hwaiting hopen => exact ⟨[], (List.append_nil _).symm, rfl⟩
  | close call flushed hcall hwaiting hopen => exact ended_inside s flushed 0 call
  | resume call records hcall hwaiting hsignal hopen => exact ended_inside s true records call
  | journal written journal hjournal => exact ⟨[], (List.append_nil _).symm, rfl⟩

/-- The sinks of a threaded session are inside a block when it has announced one. -/
theorem run_inside_threaded {config : SessionConfig} (hmode : config.journalMode = .threaded)
    {actions : List SessionAction} (hrun : (start config).run J actions = some s) :
    inside s.sinkCalls = some s.announced := by
  have hinv : s.config.journalMode = .threaded ∧ inside s.sinkCalls = some s.announced := by
    refine run_induction (I := fun _ s => s.config.journalMode = .threaded ∧ inside s.sinkCalls = some s.announced)
      ⟨hmode, rfl⟩ (fun actions s action s' _ hinv ih hstep => ?_) hrun
    refine ⟨by rw [hstep.config]; exact ih.1, ?_⟩
    obtain ⟨calls, hcalls, hnext⟩ := step_inside_threaded ih.1 hinv hstep
    have hbefore := ih.2
    rw [inside] at hbefore
    rw [hcalls, inside, Machine.run_append, hbefore]
    exact hnext
  exact hinv.2

end CaptureSession

section Ready

variable {π σ Snap Batch : Type} [GranularityPolicy π Snap Batch] {settings : π → σ} {fresh : π}

/-- A Ready book of the lossy path is a snapshot and the updates after it, and they are the
last of what the lossless path has. -/
theorem ready_offered (hr : SnapshotReplaces settings) (frameEvents : Bytes → List (SymbolEvent Snap Batch))
    (offered : List (FeedEvent × Bool)) {b : AdapterBook π}
    (hb : symbolBook fresh
      (SymbolTrace.ofCalls frameEvents ((collapse (offered.map offerOf)).map deliveryCall)).events = some b)
    (hready : b.isReady = true) :
    ∃ before snap bs,
      (SymbolTrace.ofCalls frameEvents (offered.map (·.1.adapterCall))).events = before ++ snapshotAndBatches snap bs ∧
      CleanReplay fresh snap bs ∧ b.policy = replay fresh snap bs := by
  obtain ⟨before, snap, bs, heq, hclean, hpolicy⟩ := ready_events hr _ hb hready
  obtain ⟨before', hfull⟩ := (SymbolTrace.ofCalls_aligned frameEvents offered).2.suffix heq
  exact ⟨before', snap, bs, hfull, hclean, hpolicy⟩

end Ready

namespace FeedHandler

variable {J : JournalPlatform} {h : FeedHandler} {actions : List ServiceAction} {i feed : ℕ} {capture : ClientCapture}

theorem endsInItem_of_calls {deliveries : List (Delivery FeedEvent)}
    (hends : deliveries.map deliveryCall = [] ∨
      ∃ before event, deliveries.map deliveryCall = before ++ [FeedEvent.adapterCall event]) : EndsInItem deliveries := by
  rcases List.eq_nil_or_concat deliveries with rfl | ⟨before, last, rfl⟩
  · exact .inl rfl
  · rw [List.concat_eq_append, List.map_append, List.map_singleton] at hends
    rw [List.concat_eq_append]
    rcases hends with hnil | ⟨calls, event, hcalls⟩
    · simp at hnil
    · have hlast := List.singleton_inj.1 (List.append_inj_right' hcalls rfl)
      cases last with
      | item event => exact .inr ⟨before, event, rfl⟩
      | lost count => cases event <;> cases hlast

/-- What the adapter has been told of a connection is all there is to tell of some first calls
on its sink. -/
theorem Wired.offered (hw : h.Wired actions) (hroutes : h.Routes i capture feed) :
    ∃ offered, offered <+: sinkCalls feed actions ∧
      callsOf feed h.books.received = (collapse (offered.map offerOf)).map deliveryCall ∧
      (h.books.stopped = true → offered = sinkCalls feed actions) := by
  have hfeed := List.getElem?_eq_getElem (hw.within _ _ _ hroutes)
  cases hstopped : h.books.stopped with
  | true => exact ⟨_, List.prefix_rfl, ((hw.inv.ended hstopped).2 feed _ hfeed).1, fun _ => rfl⟩
  | false =>
    obtain ⟨c, hfollows, htracks⟩ := hw.inv.running hstopped feed _ hfeed
    have hends := hw.ends hstopped feed
    rw [hfollows.calls] at hends
    obtain ⟨before, hbefore, hall⟩ := htracks.exists_collapse_eq (endsInItem_of_calls hends)
    have htake : ((sinkCalls feed actions).take before.length).map offerOf = before := by
      rw [List.map_take]
      exact (List.prefix_iff_eq_take.1 hbefore).symm
    refine ⟨_, List.take_prefix before.length _, ?_, fun hyes => by cases hyes⟩
    rw [htake, hall]
    exact hfollows.calls

theorem adapter_connection {N D : Type} (P : Platform N D) {settings : BookSettings}
    (hsettings : h.added[feed]? = some settings) :
    (h.books.adapter P h.added).connections[feed]? =
      some ((Connection.add settings).run P (callsOf feed h.books.received)) := by
  rw [BookService.adapter, BookAdapter.run_connection, BookAdapter.connections_addAll]
  simp [hsettings]

/-- What a live feed has been told: all there is to tell of the first calls on its sink, which
are first calls of its session. -/
structure LiveFeed (h : FeedHandler) (feed : ℕ) (calls : List FeedEvent) (settings : BookSettings)
    (offered : List (FeedEvent × Bool)) : Prop where
  added : h.added[feed]? = some settings
  told : callsOf feed h.books.received = (collapse (offered.map offerOf)).map deliveryCall
  heard : offered.map (·.1) <+: calls
  ended : (∃ code, h.main = .exited code) → offered.map (·.1) = calls
  blocks : ∃ open_, inside (offered.map (·.1)) = some open_

theorem Sound.liveFeed (hsound : h.Sound J) (hroutes : h.Routes i capture feed) :
    ∃ settings offered, h.LiveFeed feed capture.session.sinkCalls settings offered ∧
      resolveBookSettings capture.entry (if capture.entry.exchange = .kraken then some h.rest else none) =
        .ok settings := by
  obtain ⟨service, hw⟩ := hsound.wired
  obtain ⟨settings, hadded, hresolved⟩ := hw.settled _ _ _ hroutes
  obtain ⟨offered, hoffered, htold, hall⟩ := hw.offered hroutes
  obtain ⟨config, sessionActions, hmode, hsession⟩ := hsound.runs i capture hroutes.1
  have hheard : offered.map (·.1) <+: capture.session.sinkCalls := by
    rw [← hw.heard _ _ _ hroutes]
    exact hoffered.map _
  have hinside := CaptureSession.run_inside_threaded hmode hsession
  have hblocks := Option.isSome_iff_exists.1
    (Machine.run_isSome_of_isPrefix insideStep hheard (Option.isSome_iff_exists.2 ⟨_, hinside⟩))
  refine ⟨settings, offered, ⟨hadded, htold, hheard, ?_, hblocks⟩, hresolved⟩
  rintro ⟨code, hexited⟩
  have hphase := hsound.phase
  rw [hexited] at hphase
  rcases hphase.1 with hstopped | hnil
  · rw [hall hstopped]
    exact hw.heard _ _ _ hroutes
  · have hlt := hw.within _ _ _ hroutes
    rw [hnil] at hlt
    exact absurd hlt (Nat.not_lt_zero _)

namespace LiveFeed

variable {calls : List FeedEvent} {settings : BookSettings} {offered : List (FeedEvent × Bool)} {N D : Type}
  (P : Platform N D)

theorem events (hlive : h.LiveFeed feed calls settings offered) {Snap Batch : Type}
    (frameEvents : Bytes → List (SymbolEvent Snap Batch)) :
    (SymbolTrace.ofCalls frameEvents (offered.map (·.1.adapterCall))).events =
      (capturedSinceConnect (offered.map (·.1))).flatMap fun frame => frameEvents frame.payload := by
  obtain ⟨open_, hopen⟩ := hlive.blocks
  rw [← (trace_of_inside _ hopen).1, List.map_map]
  rfl

theorem kraken_ready (hlive : h.LiveFeed feed calls settings offered) {symbol : Bytes} {b : AdapterBook KrakenL3Policy}
    (hb : ((Connection.add settings).run P (callsOf feed h.books.received)).books symbol = some b)
    (hready : b.isReady = true) :
    ∃ before snap bs,
      ((capturedSinceConnect (offered.map (·.1))).flatMap fun frame => krakenEvents P settings.scale symbol frame.payload) =
        before ++ snapshotAndBatches snap bs ∧
      CleanReplay (KrakenL3Policy.init (some settings.krakenDepth)) snap bs ∧
      b.policy = replay (KrakenL3Policy.init (some settings.krakenDepth)) snap bs := by
  by_cases hsource : settings.source = .krakenJson
  · rw [(Connection.kraken_trace P settings symbol hsource _).2, hlive.told] at hb
    have hreplay := ready_offered KrakenL3Policy.snapshotReplaces _ offered hb hready
    rw [hlive.events] at hreplay
    exact hreplay
  · rw [(Connection.other_books_empty P settings _).1 hsource] at hb
    cases hb

theorem deribit_ready (hlive : h.LiveFeed feed calls settings offered) {symbol : Bytes}
    {b : AdapterBook UnsequencedL2Policy}
    (hb : ((Connection.add settings).run P (callsOf feed h.books.received)).deribitBooks symbol = some b)
    (hready : b.isReady = true) :
    ∃ before snap bs,
      ((capturedSinceConnect (offered.map (·.1))).flatMap fun frame => deribitEvents P settings.scale symbol frame.payload) =
        before ++ snapshotAndBatches snap bs ∧
      CleanReplay UnsequencedL2Policy.init snap bs ∧ b.policy = replay UnsequencedL2Policy.init snap bs := by
  by_cases hsource : settings.source = .deribitFix
  · rw [(Connection.deribit_trace P settings symbol hsource _).2, hlive.told] at hb
    have hreplay := ready_offered UnsequencedL2Policy.snapshotReplaces _ offered hb hready
    rw [hlive.events] at hreplay
    exact hreplay
  · rw [(Connection.other_books_empty P settings _).2 hsource] at hb
    cases hb

end LiveFeed

end FeedHandler

open FeedHandler in
/-- At every moment of the process a live book that reads Ready is its last snapshot and every
update since, all clean, among the frames its session has captured since a connect, as of some
moment so far. When the process has exited, that moment is the end. -/
theorem live_books_replay_captured {N D : Type} (P : Platform N D) (J : JournalPlatform) (orderBooks : Bool)
    (rest : RestClient) (entries : List (Config.Connection × SessionConfig)) (actions : List HandlerAction)
    (h : FeedHandler) (hrun : (start orderBooks rest entries).run J actions = some h) (i feed : ℕ)
    (capture : ClientCapture) (hcapture : h.captures[i]? = some capture) (hfeed : capture.feed = some feed) :
    ∃ settings conn heard,
      resolveBookSettings capture.entry (if capture.entry.exchange = .kraken then some h.rest else none) = .ok settings ∧
      (h.books.adapter P h.added).connections[feed]? = some conn ∧ heard <+: capture.session.sinkCalls ∧
      ((∃ code, h.main = .exited code) → heard = capture.session.sinkCalls) ∧
      (∀ symbol b, conn.books symbol = some b → b.isReady = true → ∃ before snap bs,
        ((capturedSinceConnect heard).flatMap fun frame => krakenEvents P settings.scale symbol frame.payload) =
          before ++ snapshotAndBatches snap bs ∧
        CleanReplay (KrakenL3Policy.init (some settings.krakenDepth)) snap bs ∧
        b.policy = replay (KrakenL3Policy.init (some settings.krakenDepth)) snap bs) ∧
      (∀ symbol b, conn.deribitBooks symbol = some b → b.isReady = true → ∃ before snap bs,
        ((capturedSinceConnect heard).flatMap fun frame => deribitEvents P settings.scale symbol frame.payload) =
          before ++ snapshotAndBatches snap bs ∧
        CleanReplay UnsequencedL2Policy.init snap bs ∧ b.policy = replay UnsequencedL2Policy.init snap bs) := by
  obtain ⟨settings, offered, hlive, hresolved⟩ := (run_sound hrun).liveFeed ⟨hcapture, hfeed⟩
  exact ⟨settings, _, offered.map (·.1), hresolved, adapter_connection P hlive.added, hlive.heard, hlive.ended,
    fun symbol b => hlive.kraken_ready P, fun symbol b => hlive.deribit_ready P⟩

section Witness

/-- A connection starts, captures a snapshot, an update that the ring refuses and a snapshot
that recovers; the book thread has taken the two snapshots, and one more frame waits. -/
def recoveringProcess : List HandlerAction :=
  let frame (payload : Bytes) (room : Bool) : HandlerAction :=
    .session 0 (.call (.onWireMessage { firstWire with payload })) room
  [.main false true, .main false true, .session 0 (.call (.beginConnect firstConnect)) true, frame [0] true,
    frame [1] false, frame [0] true, .books, .books, .books, .books, frame [7] true]

theorem recoveringProcess_runs :
    ((FeedHandler.start true tinyReference tinyEntries).run blankJournal recoveringProcess).isSome = true := by
  decide +kernel

theorem recovering_book_replays :
    let h := ((FeedHandler.start true tinyReference tinyEntries).run blankJournal recoveringProcess).get
      recoveringProcess_runs
    ∃ conn b, (h.books.adapter tinyPlatform h.added).connections[0]? = some conn ∧
      conn.books (ascii "BTC/USD") = some b ∧ b.isReady = true ∧
      ∃ depth snap bs, b.policy = replay (KrakenL3Policy.init (some depth)) snap bs := by
  intro h
  have hcapture : (h.captures[0]?.any fun capture => capture.feed = some 0) = true := by decide +kernel
  have hready : ((h.books.adapter tinyPlatform h.added).connections[0]?.any fun conn =>
      (conn.books (ascii "BTC/USD")).any (·.isReady)) = true := by decide +kernel
  obtain ⟨capture, hcapture, hfeed⟩ := (Option.any_eq_true _ _).1 hcapture
  obtain ⟨settings, conn, heard, hresolved, hconn, -, -, hkraken, -⟩ := live_books_replay_captured tinyPlatform blankJournal
    true tinyReference tinyEntries recoveringProcess h (Option.some_get recoveringProcess_runs).symm 0 0 capture hcapture
    (of_decide_eq_true hfeed)
  rw [hconn, Option.any_some, Option.any_eq_true] at hready
  obtain ⟨b, hb, hr⟩ := hready
  obtain ⟨before, snap, bs, -, -, hpolicy⟩ := hkraken _ b hb hr
  exact ⟨conn, b, hconn, hb, hr, _, snap, bs, hpolicy⟩

end Witness

end CryptoTrader
