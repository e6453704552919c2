import CryptoTrader.Proofs.KrakenWindow
import CryptoTrader.Proofs.LiveBooks
import CryptoTrader.Proofs.ScaleExact
import CryptoTrader.Sanity.FeedReplay

/-! From the exchange to the live book. Kraken moves its book and states each move in a
message; a session captures what its sockets bring, a ring loses some of it, and the book
thread parses and applies the rest. A live book that reads Ready is the window of the
exchange's book, as of a message that was captured. -/

namespace CryptoTrader

open GranularityPolicy

section Frames

variable {libraries : WireLibraries} {scale : InstrumentScale} {symbol : Bytes} {payload : Bytes}

theorem messagesFor_bookMessages (symbol : Bytes) (messages : List KrakenL3Message) :
    messagesFor symbol (messages.map (·.bookMessage)) =
      (messages.filter (·.symbol = symbol)).map fun m => .message m.bookMessage.content := by
  rw [messagesFor, List.filter_map, List.map_map]
  rfl

theorem SendsOther.events (h : SendsOther libraries payload) :
    krakenEvents libraries.platform scale symbol payload = [] := by
  obtain ⟨message, hparse, hchannel⟩ := h
  have hnone : parseKrakenL3Messages libraries.platform scale message = some [] := by
    unfold parseKrakenL3Messages
    rcases hchannel with hnone | ⟨channel, hsome, hother⟩
    · rw [hnone]
    · simp only [hsome, Json.string?, Option.bind_eq_bind, Option.bind_some, ne_eq, hother, not_false_eq_true, if_true,
        Option.pure_def]
  have hframe : parseKrakenFrame libraries.platform scale payload = some [] := by
    rw [parseKrakenFrame]
    exact Option.bind_eq_some_iff.2 ⟨message, hparse, hnone⟩
  rw [krakenEvents, hframe]
  rfl

theorem StatesMessage.kind {isSnapshot : Bool} {message : Json ℚ} {messages : List KrakenL3Message} {m : KrakenL3Message}
    (h : StatesMessage libraries scale isSnapshot message messages) (hm : m ∈ messages) : m.isSnapshot = isSnapshot := by
  obtain ⟨-, -, entries, -, hall⟩ := h
  induction hall with
  | nil => cases hm
  | cons hhead _ ih =>
    rcases List.mem_cons.1 hm with rfl | hm
    · exact hhead.kind
    · exact ih hm

variable (hprice : scale.priceDecimals ≤ 15) (hquantity : scale.quantityDecimals ≤ 15)
include hprice hquantity

theorem SendsMessages.events {isSnapshot : Bool} {messages : List KrakenL3Message}
    (h : SendsMessages libraries scale isSnapshot payload messages) :
    krakenEvents libraries.platform scale symbol payload =
      (messages.filter (·.symbol = symbol)).map fun m => .message m.bookMessage.content := by
  obtain ⟨message, hparse, hstates⟩ := h
  have hframe : parseKrakenFrame libraries.platform scale payload = some messages := by
    rw [parseKrakenFrame]
    exact Option.bind_eq_some_iff.2 ⟨message, hparse, hstates.parsed hprice hquantity⟩
  rw [krakenEvents, hframe]
  exact messagesFor_bookMessages symbol messages

theorem SendsMessages.events_single {isSnapshot : Bool} {messages : List KrakenL3Message} {m : KrakenL3Message}
    (h : SendsMessages libraries scale isSnapshot payload messages) (hm : messages.filter (·.symbol = symbol) = [m]) :
    m.isSnapshot = isSnapshot ∧
      krakenEvents libraries.platform scale symbol payload = [.message m.bookMessage.content] := by
  refine ⟨?_, by rw [h.events hprice hquantity, hm]; rfl⟩
  obtain ⟨message, -, hstates⟩ := h
  exact hstates.kind (List.mem_of_mem_filter (by rw [hm]; exact List.mem_cons_self))

end Frames

/-- The book holds the window of the exchange's. -/
def KeepsWindow (depth : ℕ) (e : ExchangeBook) (p : KrakenL3Policy) : Prop :=
  p.book.state.maxDepth = some depth ∧ Rep (e.window depth) p.book.state

/-- What a socket has brought of a symbol follows the window of the exchange's book. -/
theorem KrakenFeed.follows {libraries : WireLibraries} {scale : InstrumentScale} {depth : ℕ} {symbol : Bytes}
    (hprice : scale.priceDecimals ≤ 15) (hquantity : scale.quantityDecimals ≤ 15) {payloads : List Bytes}
    {book : Option ExchangeBook} (hfeed : KrakenFeed libraries scale depth symbol payloads book) :
    FollowsExchange (KrakenL3Policy.init (some depth)) (KeepsWindow depth)
      (payloads.flatMap (krakenEvents libraries.platform scale symbol)) book := by
  induction hfeed with
  | opened => rfl
  | other payload hother _ ih =>
    rw [List.flatMap_append, List.flatMap_singleton, hother.events, List.append_nil]
    exact ih
  | silent payload isSnapshot messages hsent hsilent _ ih =>
    have hnone : messages.filter (·.symbol = symbol) = [] := by simpa using hsilent
    rw [List.flatMap_append, List.flatMap_singleton, hsent.events hprice hquantity, hnone, List.map_nil, List.append_nil]
    exact ih
  | snapshot payload messages m e hsent hm hwindow _ _ =>
    obtain ⟨hkind, hsingle⟩ := hsent.events_single hprice hquantity hm
    rw [List.flatMap_append, List.flatMap_singleton, hsingle, KrakenL3Message.bookMessage, if_pos hkind]
    obtain ⟨hclean, hrep⟩ := KrakenL3Policy.applySnapshot_tracks (p := KrakenL3Policy.init (some depth)) rfl hwindow
    exact .snapshot hclean ⟨KrakenL3Policy.applySnapshot_maxDepth _ _, hrep⟩
  | update payload messages m e e' hsent hm hmoves hstep _ ih =>
    obtain ⟨hkind, hsingle⟩ := hsent.events_single hprice hquantity hm
    rw [List.flatMap_append, List.flatMap_singleton, hsingle, KrakenL3Message.bookMessage, hkind, if_neg (by simp)]
    refine ih.batch fun p ⟨hdepth, hrep⟩ => ?_
    obtain ⟨hclean, hrep'⟩ := KrakenL3Policy.applyBatch_tracks hdepth hrep hmoves hstep
    exact ⟨hclean, (KrakenL3Policy.applyBatch_maxDepth _ _).trans hdepth, hrep'⟩

open FeedHandler in
/-- At every moment of the process, a live book of Kraken's that reads Ready is the window of
the exchange's book as of the last message about it among the first calls on the session's sinks.
Frames may be lost on the way; when the process has exited, these are all the calls. -/
theorem live_book_is_exchange_window (libraries : WireLibraries) (J : JournalPlatform) (orderBooks : Bool)
    (rest : RestClient) (entries : List (Config.Connection × SessionConfig)) (actions : List HandlerAction)
    (h : FeedHandler) (hrun : (start orderBooks rest entries).run J actions = some h) (i feed : ℕ)
    (capture : ClientCapture) (hcapture : h.captures[i]? = some capture) (hfeed : capture.feed = some feed)
    (settings : BookSettings) (hsettings : h.added[feed]? = some settings)
    (hprice : settings.scale.priceDecimals ≤ 15) (hquantity : settings.scale.quantityDecimals ≤ 15)
    (symbol : Bytes) (exchange : ℕ → Option ExchangeBook)
    (hsent : ∀ k ≤ capture.session.sinkCalls.length,
      KrakenFeed libraries settings.scale settings.krakenDepth symbol
        ((capturedSinceConnect (capture.session.sinkCalls.take k)).map (·.payload)) (exchange k)) :
    ∃ k conn, k ≤ capture.session.sinkCalls.length ∧
      ((∃ code, h.main = .exited code) → k = capture.session.sinkCalls.length) ∧
      (h.books.adapter libraries.platform h.added).connections[feed]? = some conn ∧
      ∀ b, conn.books symbol = some b → b.isReady = true →
        ∃ e, exchange k = some e ∧ b.policy.book.getBookView none = PriceTime.view (e.window settings.krakenDepth) := by
  obtain ⟨settings', offered, hlive, -⟩ := (run_sound hrun).liveFeed ⟨hcapture, hfeed⟩
  obtain rfl : settings' = settings := Option.some.inj (hlive.added.symm.trans hsettings)
  have hle := hlive.heard.length_le
  have htake : capture.session.sinkCalls.take (offered.map (·.1)).length = offered.map (·.1) :=
    (List.prefix_iff_eq_take.1 hlive.heard).symm
  refine ⟨(offered.map (·.1)).length, _, hle, fun hexit => by rw [hlive.ended hexit], adapter_connection _ hlive.added,
    fun b hb hready => ?_⟩
  obtain ⟨before, snap, bs, hevents, -, hpolicy⟩ := hlive.kraken_ready libraries.platform hb hready
  have hfed := hsent _ hle
  rw [htake] at hfed
  obtain ⟨e, he, -, hrep⟩ := (hfed.follows hprice hquantity).replayed (by rw [List.flatMap_map]; exact hevents)
  refine ⟨e, he, ?_⟩
  rw [hpolicy]
  exact L3Policy.view_eq hrep

section Witness

def statedOrder (event : Option OrderEventKind) (id : UInt8) (price quantity : ℤ) (timestamp : UInt8) : Json ℚ :=
  .obj ((event.toList.map fun kind => (ascii "event", .str kind.wireText)) ++
    [(ascii "order_id", .str [id]), (ascii "limit_price", .num (price / 10 ^ 0)), (ascii "order_qty", .num (quantity / 10 ^ 0)),
      (ascii "timestamp", .str [timestamp])])

def statedMessage (type : Bytes) (checksum : BitVec 32) (bids asks : List (Json ℚ)) : Json ℚ :=
  .obj [(ascii "channel", .str (ascii "level3")), (ascii "type", .str type),
    (ascii "data", .arr [.obj [(ascii "symbol", .str (ascii "BTC/USD")), (ascii "checksum", .num checksum.toNat),
      (ascii "bids", .arr bids), (ascii "asks", .arr asks)]])]

/-- Payload 0 states the window of the first book, payload 1 the move to the second. -/
def shortLibraries : WireLibraries where
  parseJson payload :=
    if payload = [0] then
      some (statedMessage (ascii "snapshot") shortSnapshot.msgMeta.checksum [statedOrder none 1 100 5 49]
        [statedOrder none 3 101 2 49])
    else if payload = [1] then
      some (statedMessage (ascii "update") (shortFeed 0).msgMeta.checksum
        [statedOrder (some .added) 5 99 1 52, statedOrder (some .added) 2 99 3 50, statedOrder (some .deleted) 1 100 5 51]
        [statedOrder (some .added) 4 101 7 53, statedOrder (some .modified) 3 101 4 49])
    else none
  readDecimal _ := none
  hashOrderId raw := (raw.headD 0).toNat
  unspecified _ := 0

theorem statedOrder_states (side : Side) (event : Option OrderEventKind) (id : UInt8) {price quantity : ℤ}
    (timestamp : UInt8) (hprice : |price| < kExactUnits) (hquantity : |quantity| < kExactUnits) :
    StatesOrder shortLibraries ⟨0, 0⟩ side (statedOrder event id price quantity timestamp)
      ⟨⟨event.getD .added, id.toNat, side, price, quantity⟩, [timestamp]⟩ := by
  cases event with
  | none => exact ⟨.inr ⟨rfl, rfl⟩, ⟨[id], rfl, rfl⟩, rfl, ⟨rfl, hprice⟩, ⟨rfl, hquantity⟩, rfl⟩
  | some kind => exact ⟨.inl rfl, ⟨[id], rfl, rfl⟩, rfl, ⟨rfl, hprice⟩, ⟨rfl, hquantity⟩, rfl⟩

def shortSnapshotMessage : KrakenL3Message :=
  ⟨true, ascii "BTC/USD", shortSnapshot.msgMeta, [⟨⟨.added, 1, .bid, 100, 5⟩, [49]⟩, ⟨⟨.added, 3, .ask, 101, 2⟩, [49]⟩]⟩

def shortUpdateMessage : KrakenL3Message := ⟨false, ascii "BTC/USD", (shortFeed 0).msgMeta, (shortFeed 0).updates⟩

theorem snapshot_payload_sends : SendsMessages shortLibraries ⟨0, 0⟩ true [0] [shortSnapshotMessage] := by
  refine ⟨_, rfl, rfl, rfl, _, rfl, .cons ⟨rfl, rfl, rfl, _, _, [_], [_], rfl, rfl, rfl, ?_, ?_⟩ .nil⟩
  · exact .cons (statedOrder_states .bid none 1 49 (by decide) (by decide)) .nil
  · exact .cons (statedOrder_states .ask none 3 49 (by decide) (by decide)) .nil

theorem update_payload_sends : SendsMessages shortLibraries ⟨0, 0⟩ false [1] [shortUpdateMessage] := by
  refine ⟨_, rfl, rfl, rfl, _, rfl, .cons ⟨rfl, rfl, rfl, _, _, [_, _, _], [_, _], rfl, rfl, rfl, ?_, ?_⟩ .nil⟩
  · exact .cons (statedOrder_states .bid (some .added) 5 52 (by decide) (by decide))
      (.cons (statedOrder_states .bid (some .added) 2 50 (by decide) (by decide))
        (.cons (statedOrder_states .bid (some .deleted) 1 51 (by decide) (by decide)) .nil))
  · exact .cons (statedOrder_states .ask (some .added) 4 53 (by decide) (by decide))
      (.cons (statedOrder_states .ask (some .modified) 3 49 (by decide) (by decide)) .nil)

/-- The exchange's book as of the first calls on the session's sinks. -/
def shortExchange : ℕ → Option ExchangeBook
  | 0 | 1 => none
  | 2 => some bookBefore
  | _ => some bookAfter

/-- A connection captures the two messages, and the book thread takes them. -/
def trackingProcess : List HandlerAction :=
  let frame (payload : Bytes) : HandlerAction := .session 0 (.call (.onWireMessage { firstWire with payload })) true
  [.main false true, .main false true, .session 0 (.call (.beginConnect firstConnect)) true, frame [0], frame [1], .books,
    .books, .books, .books]

theorem trackingProcess_runs :
    ((FeedHandler.start true tinyReference tinyEntries).run blankJournal trackingProcess).isSome = true := by
  decide +kernel

theorem shortExchange_feeds : ∀ k ≤ 3,
    KrakenFeed shortLibraries ⟨0, 0⟩ 1 (ascii "BTC/USD") (([[0], [1]] : List Bytes).take (k - 1)) (shortExchange k) := by
  have hwindow : DescribesWindow 1 bookBefore ⟨shortSnapshotMessage.snapshot, shortSnapshotMessage.msgMeta⟩ :=
    ⟨fun s => by cases s <;> decide, rfl⟩
  have hmoves : ExchangeStep 1 bookBefore bookAfter := ⟨by decide, fun s => by cases s <;> decide⟩
  have hstep : DescribesStep 1 bookBefore bookAfter ⟨shortUpdateMessage.orders, shortUpdateMessage.msgMeta⟩ :=
    ⟨by decide, rfl⟩
  have hfirst : KrakenFeed shortLibraries ⟨0, 0⟩ 1 (ascii "BTC/USD") ([] ++ [[0]]) (some bookBefore) :=
    .snapshot [0] _ shortSnapshotMessage bookBefore snapshot_payload_sends
      (List.filter_cons_of_pos (by decide)) hwindow .opened
  intro k hk
  rcases k with _ | _ | _ | _ | k
  · exact .opened
  · exact .opened
  · exact hfirst
  · exact .update [1] _ shortUpdateMessage bookBefore bookAfter update_payload_sends
      (List.filter_cons_of_pos (by decide)) hmoves hstep hfirst
  · omega

theorem tracking_book_is_window :
    let h := ((FeedHandler.start true tinyReference tinyEntries).run blankJournal trackingProcess).get trackingProcess_runs
    ∃ k conn b, (h.books.adapter shortLibraries.platform h.added).connections[0]? = some conn ∧
      conn.books (ascii "BTC/USD") = some b ∧ b.isReady = true ∧
      ∃ e, shortExchange k = some e ∧ b.policy.book.getBookView none = PriceTime.view (e.window 1) := by
  intro h
  have hany : (h.captures[0]?.any fun capture => capture.feed = some 0 ∧ capture.session.sinkCalls.length = 3 ∧
      ∀ k ≤ 3, (capturedSinceConnect (capture.session.sinkCalls.take k)).map (·.payload) =
        ([[0], [1]] : List Bytes).take (k - 1)) = true := by decide +kernel
  have hready : ((h.books.adapter shortLibraries.platform h.added).connections[0]?.any fun conn =>
      (conn.books (ascii "BTC/USD")).any (·.isReady)) = true := by decide +kernel
  obtain ⟨capture, hcapture, hfacts⟩ := (Option.any_eq_true _ _).1 hany
  obtain ⟨hfeed, hlength, hframes⟩ := of_decide_eq_true hfacts
  obtain ⟨k, conn, -, -, hconn, hwindow⟩ := live_book_is_exchange_window shortLibraries blankJournal true tinyReference
    tinyEntries trackingProcess h (Option.some_get trackingProcess_runs).symm 0 0 capture hcapture hfeed
    ⟨.krakenJson, ⟨0, 0⟩, 1⟩ (by decide +kernel) (by decide) (by decide) (ascii "BTC/USD") shortExchange (by
      rw [hlength]
      intro k hk
      rw [hframes k hk]
      exact shortExchange_feeds k hk)
  rw [hconn, Option.any_some, Option.any_eq_true] at hready
  obtain ⟨b, hb, hr⟩ := hready
  exact ⟨k, conn, b, hconn, hb, hr, hwindow b hb hr⟩

end Witness

end CryptoTrader
