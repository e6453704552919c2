import CryptoTrader.Sanity.SymbolBook
import CryptoTrader.Sanity.AdapterRun
import CryptoTrader.Proofs.KrakenCertified

/-! A Ready book of the adapter has missed nothing. What a connection's calls mean for
one symbol is read off as a trace: the messages for the symbol and the losses that may
have held one, since the last connect. The book of the symbol is the fold of its trace,
and a Ready one ends in a snapshot with nothing lost after it. -/

namespace CryptoTrader

open GranularityPolicy

section Trace

variable {N D : Type} (P : Platform N D) (scale : InstrumentScale) (s : Bytes)

/-- What a Kraken frame holds for the symbol. An unparsable frame may have been for any. -/
def krakenEvents (payload : Bytes) : List (SymbolEvent KrakenSnapshot KrakenBatch) :=
  match parseKrakenFrame P scale payload with
  | none => [.lost]
  | some messages => messagesFor s (messages.map (·.bookMessage))

/-- What a Deribit frame holds for the symbol. An unusable one may have been for it if
it names it or names none. -/
def deribitEvents (payload : Bytes) : List (SymbolEvent UnsequencedL2Snapshot (List L2Update)) :=
  match parseDeribitFixMessage P scale payload with
  | .error error => if error.symbol = [] ∨ error.symbol = s then [.lost] else []
  | .ok message => messagesFor s message.bookMessages

end Trace

/-- What has happened to a symbol since the last connect, and whether frames count. -/
structure SymbolTrace (Snap Batch : Type) where
  stale : Bool
  events : List (SymbolEvent Snap Batch)

namespace SymbolTrace

variable {Snap Batch : Type} (frameEvents : Bytes → List (SymbolEvent Snap Batch))

/-- A connect starts over, a frame counts while the connection is not stale, and a
reported drop is a loss. -/
def step (t : SymbolTrace Snap Batch) : AdapterCall → SymbolTrace Snap Batch
  | .onConnect _ => ⟨false, []⟩
  | .onDisconnect _ => { t with stale := true }
  | .onFrame payload => if t.stale then t else { t with events := t.events ++ frameEvents payload }
  | .onFramesDropped count => if count = 0 then t else { t with events := t.events ++ [.lost] }

def ofCalls (calls : List AdapterCall) : SymbolTrace Snap Batch := calls.foldl (step frameEvents) ⟨false, []⟩

theorem ofCalls_snoc (calls : List AdapterCall) (call : AdapterCall) :
    ofCalls frameEvents (calls ++ [call]) = (ofCalls frameEvents calls).step frameEvents call := by
  simp [ofCalls, List.foldl_append]

end SymbolTrace

namespace L3Policy

theorem applySnapshot_of_depth {p q : L3Policy} (h : p.state.maxDepth = q.state.maxDepth) (snapshot : L3Snapshot) :
    p.applySnapshot snapshot = q.applySnapshot snapshot := by
  have hstate : p.state.applySnapshot snapshot = q.state.applySnapshot snapshot := by
    simp only [L3State.applySnapshot, h]
  obtain ⟨r, hr⟩ := q.applySnapshot_ok snapshot
  have hp := okValue_eq (p.applySnapshot_ok snapshot) (hstate.trans hr)
  have hq := okValue_eq (q.applySnapshot_ok snapshot) hr
  have hsame := hp.trans hq.symm
  refine Prod.ext (eq_of_state ?_) ?_
  · exact congrArg Prod.fst hsame
  · have hsnd := congrArg Prod.snd hsame
    exact hsnd

end L3Policy

theorem KrakenL3Policy.snapshotReplaces :
    SnapshotReplaces fun p : KrakenL3Policy => p.book.state.maxDepth where
  snapshot_settings := applySnapshot_maxDepth
  batch_settings := applyBatch_maxDepth
  snapshot_eq p q snap h := by
    change p.applySnapshot snap = q.applySnapshot snap
    rw [applySnapshot, applySnapshot, L3Policy.applySnapshot_of_depth h]

theorem UnsequencedL2Policy.snapshotReplaces : SnapshotReplaces fun _ : UnsequencedL2Policy => () where
  snapshot_settings _ _ := rfl
  batch_settings _ _ := rfl
  snapshot_eq _ _ _ _ := rfl

namespace Connection

variable {N D : Type} (P : Platform N D) (settings : BookSettings) (s : Bytes)

section Frame

variable (conn : Connection) (payload : Bytes)

theorem dispatchFrame_kraken (hsource : conn.settings.source = .krakenJson) :
    (conn.dispatchFrame P payload).books s =
      (krakenEvents P conn.settings.scale s payload).foldl
        (bookStep (KrakenL3Policy.init (some conn.settings.krakenDepth))) (conn.books s) ∧
    (conn.deribitBooks = BookMap.empty → (conn.dispatchFrame P payload).deribitBooks = BookMap.empty) := by
  simp only [dispatchFrame, hsource, onKrakenFrame, krakenEvents]
  cases parseKrakenFrame P conn.settings.scale payload with
  | none =>
    refine ⟨rfl, fun h => ?_⟩
    simp only [markAllDesynced, tally_deribitBooks, h]
    rfl
  | some messages => exact ⟨foldl_applyMessage_book _ _ _ s, fun h => h⟩

theorem dispatchFrame_deribit (hsource : conn.settings.source = .deribitFix) :
    (conn.dispatchFrame P payload).deribitBooks s =
      (deribitEvents P conn.settings.scale s payload).foldl (bookStep UnsequencedL2Policy.init) (conn.deribitBooks s) ∧
    (conn.books = BookMap.empty → (conn.dispatchFrame P payload).books = BookMap.empty) := by
  simp only [dispatchFrame, hsource, onDeribitFixFrame, deribitEvents]
  cases parseDeribitFixMessage P conn.settings.scale payload with
  | error error =>
    simp only [onDeribitParseError]
    by_cases hempty : error.symbol = []
    · rw [if_pos hempty, if_pos (Or.inl hempty)]
      refine ⟨rfl, fun h => ?_⟩
      simp only [markAllDesynced, tally_books, h]
      rfl
    · rw [if_neg hempty]
      refine ⟨?_, fun h => h⟩
      by_cases hnamed : error.symbol = s
      · subst hnamed
        rw [if_pos (Or.inr rfl)]
        simp only [BookMap.markDesynced, tally_deribitBooks, if_true]
        rfl
      · rw [if_neg (not_or.2 ⟨hempty, hnamed⟩)]
        simp only [BookMap.markDesynced, tally_deribitBooks, if_neg (Ne.symm hnamed)]
        rfl
  | ok message => exact ⟨foldl_applyMessage_book _ _ _ s, fun h => h⟩

end Frame

/-- A view of the connection on which every call has the effect the trace gives it
is the fold of the trace. -/
theorem follows_trace {π Snap Batch : Type} [GranularityPolicy π Snap Batch] {fresh : π}
    {frameEvents : Bytes → List (SymbolEvent Snap Batch)} (book : Connection → Option (AdapterBook π))
    (hadd : book (add settings) = none) (hconnect : ∀ (conn : Connection) id, book (conn.onConnect id) = none)
    (htally : ∀ (conn : Connection) count, book (conn.tally count) = book conn)
    (hdisconnect : ∀ conn : Connection, book conn.onDisconnect = book conn)
    (hdesync : ∀ conn : Connection, book conn.markAllDesynced = (book conn).map .markDesynced)
    (hframe : ∀ (conn : Connection) payload, conn.settings = settings →
      book (conn.dispatchFrame P payload) = (frameEvents payload).foldl (bookStep fresh) (book conn))
    (calls : List AdapterCall) :
    ((add settings).run P calls).stale = (SymbolTrace.ofCalls frameEvents calls).stale ∧
      book ((add settings).run P calls) = symbolBook fresh (SymbolTrace.ofCalls frameEvents calls).events := by
  induction calls using List.reverseRecOn with
  | nil => exact ⟨rfl, hadd⟩
  | append_singleton calls c ih =>
    obtain ⟨hs, hb⟩ := ih
    have hsettings := run_settings P settings calls
    rw [run_snoc, SymbolTrace.ofCalls_snoc]
    cases c with
    | onConnect connectId => exact ⟨rfl, hconnect _ _⟩
    | onDisconnect connectId => exact ⟨rfl, (hdisconnect _).trans hb⟩
    | onFramesDropped count =>
      simp only [call, onFramesDropped, SymbolTrace.step]
      split_ifs with hcount
      · exact ⟨hs, hb⟩
      · refine ⟨hs, ?_⟩
        rw [hdesync, htally, symbolBook_snoc, hb]
        rfl
    | onFrame payload =>
      have hkeep := (onFrame_frame P ((add settings).run P calls) payload).2.1
      cases hstale : ((add settings).run P calls).stale with
      | true =>
        simp only [call, SymbolTrace.step, ← hs, hstale, if_true]
        refine ⟨hkeep.trans hstale, ?_⟩
        rw [onFrame_stale P _ payload hstale, htally, htally, hb]
      | false =>
        simp only [call, SymbolTrace.step, ← hs, hstale, Bool.false_eq_true, if_false]
        refine ⟨hkeep.trans hstale, ?_⟩
        rw [onFrame_live P _ payload hstale, hframe _ payload (by rw [tally_settings, hsettings]), htally, hb]
        simp only [symbolBook, List.foldl_append]

/-- A Kraken connection's book is the fold of its symbol's trace. -/
theorem kraken_trace (hsource : settings.source = .krakenJson) (calls : List AdapterCall) :
    ((add settings).run P calls).stale = (SymbolTrace.ofCalls (krakenEvents P settings.scale s) calls).stale ∧
      ((add settings).run P calls).books s = symbolBook (KrakenL3Policy.init (some settings.krakenDepth))
        (SymbolTrace.ofCalls (krakenEvents P settings.scale s) calls).events := by
  refine follows_trace P settings (fun conn => conn.books s) rfl (fun _ _ => rfl) (fun _ _ => rfl)
    (fun _ => rfl) (fun _ => rfl) (fun conn payload h => ?_) calls
  have hconn := (dispatchFrame_kraken P s conn payload (by rw [h, hsource])).1
  rwa [h] at hconn

/-- A Deribit connection's book is the fold of its symbol's trace. -/
theorem deribit_trace (hsource : settings.source = .deribitFix) (calls : List AdapterCall) :
    ((add settings).run P calls).stale = (SymbolTrace.ofCalls (deribitEvents P settings.scale s) calls).stale ∧
      ((add settings).run P calls).deribitBooks s = symbolBook UnsequencedL2Policy.init
        (SymbolTrace.ofCalls (deribitEvents P settings.scale s) calls).events := by
  refine follows_trace P settings (fun conn => conn.deribitBooks s) rfl (fun _ _ => rfl) (fun _ _ => rfl)
    (fun _ => rfl) (fun _ => rfl) (fun conn payload h => ?_) calls
  have hconn := (dispatchFrame_deribit P s conn payload (by rw [h, hsource])).1
  rwa [h] at hconn

/-- A connection has books of its own source only. -/
theorem other_books_empty (calls : List AdapterCall) :
    (settings.source ≠ .krakenJson → ((add settings).run P calls).books = BookMap.empty) ∧
      (settings.source ≠ .deribitFix → ((add settings).run P calls).deribitBooks = BookMap.empty) := by
  induction calls using List.reverseRecOn with
  | nil => exact ⟨fun _ => rfl, fun _ => rfl⟩
  | append_singleton calls c ih =>
    obtain ⟨hk, hd⟩ := ih
    have hsettings := run_settings P settings calls
    rw [run_snoc]
    cases c with
    | onConnect connectId => exact ⟨fun _ => rfl, fun _ => rfl⟩
    | onDisconnect connectId => exact ⟨hk, hd⟩
    | onFramesDropped count =>
      simp only [call, onFramesDropped]
      split_ifs
      · exact ⟨hk, hd⟩
      · refine ⟨fun h => ?_, fun h => ?_⟩
        · simp only [markAllDesynced, tally_books, hk h]
          rfl
        · simp only [markAllDesynced, tally_deribitBooks, hd h]
          rfl
    | onFrame payload =>
      simp only [call]
      cases hstale : ((add settings).run P calls).stale with
      | true =>
        rw [onFrame_stale P _ payload hstale]
        exact ⟨hk, hd⟩
      | false =>
        rw [onFrame_live P _ payload hstale]
        set conn := ((add settings).run P calls).tally fun stats => { stats with frames := stats.frames + 1 }
        have hconn : conn.settings.source = settings.source := by rw [tally_settings, hsettings]
        cases hsource : settings.source with
        | unknown =>
          simp only [dispatchFrame, hconn, hsource]
          exact ⟨fun _ => hk (by simp [hsource]), fun _ => hd (by simp [hsource])⟩
        | krakenJson =>
          refine ⟨fun h => absurd rfl h, fun _ => ?_⟩
          exact (dispatchFrame_kraken P [] conn payload (hconn.trans hsource)).2 (hd (by simp [hsource]))
        | deribitFix =>
          refine ⟨fun _ => ?_, fun h => absurd rfl h⟩
          exact (dispatchFrame_deribit P [] conn payload (hconn.trans hsource)).2 (hk (by simp [hsource]))

end Connection

/-- A Ready book is its last snapshot since the connect and every update since, all
clean, with no drop and no frame lost that could have concerned it. -/
theorem ready_adapter_book_missed_nothing {N D : Type} (P : Platform N D) (settings : BookSettings)
    (calls : List AdapterCall) (s : Bytes) :
    (∀ b, ((Connection.add settings).run P calls).books s = some b → b.isReady = true →
      ∃ before snap bs,
        (SymbolTrace.ofCalls (krakenEvents P settings.scale s) calls).events = before ++ snapshotAndBatches snap bs ∧
        CleanReplay (KrakenL3Policy.init (some settings.krakenDepth)) snap bs ∧
        b.policy = replay (KrakenL3Policy.init (some settings.krakenDepth)) snap bs) ∧
    (∀ b, ((Connection.add settings).run P calls).deribitBooks s = some b → b.isReady = true →
      ∃ before snap bs,
        (SymbolTrace.ofCalls (deribitEvents P settings.scale s) calls).events = before ++ snapshotAndBatches snap bs ∧
        CleanReplay UnsequencedL2Policy.init snap bs ∧
        b.policy = replay UnsequencedL2Policy.init snap bs) := by
  obtain ⟨hkraken, hderibit⟩ := Connection.other_books_empty P settings calls
  refine ⟨fun b hb hready => ?_, fun b hb hready => ?_⟩
  · by_cases hsource : settings.source = .krakenJson
    · rw [(Connection.kraken_trace P settings s hsource calls).2] at hb
      exact ready_events KrakenL3Policy.snapshotReplaces _ hb hready
    · rw [hkraken hsource] at hb
      cases hb
  · by_cases hsource : settings.source = .deribitFix
    · rw [(Connection.deribit_trace P settings s hsource calls).2] at hb
      exact ready_events UnsequencedL2Policy.snapshotReplaces _ hb hready
    · rw [hderibit hsource] at hb
      cases hb

section Recovered

def entryJson (orderId : String) (price quantity : ℕ) (rest : List (Bytes × Json ℕ)) : Json ℕ :=
  .obj ([(ascii "order_id", .str (ascii orderId)), (ascii "limit_price", .num price), (ascii "order_qty", .num quantity)]
    ++ rest)

def level3Json (type : String) (checksum : ℕ) (bids asks : List (Json ℕ)) : Json ℕ :=
  .obj [(ascii "channel", .str (ascii "level3")), (ascii "type", .str (ascii type)),
    (ascii "data", .arr [.obj [(ascii "symbol", .str (ascii "BTC/USD")), (ascii "checksum", .num checksum),
      (ascii "bids", .arr bids), (ascii "asks", .arr asks)]])]

/-- Frame 0 is a snapshot, frame 1 an update with its adds out of order, and every
other frame is unparsable. -/
def tinyPlatform : Platform ℕ ℕ where
  parseJson payload :=
    let stamp (text : String) := (ascii "timestamp", Json.str (ascii text))
    let event (text : String) := (ascii "event", Json.str (ascii text))
    if payload = [0] then
      some (level3Json "snapshot" 1978179250 [entryJson "a" 100 5 [stamp "1"]] [entryJson "bb" 101 2 [stamp "2"]])
    else if payload = [1] then
      some (level3Json "update" 995567749
        [entryJson "ccc" 100 4 [event "add", stamp "9"], entryJson "dddd" 100 1 [event "add", stamp "7"]]
        [entryJson "bb" 101 2 [event "delete", stamp "8"]])
    else none
  toDouble n := n
  toUint32 n := BitVec.ofNat 32 n
  parseDecimal _ := none
  zero := 0
  isNegative _ := false
  scaled _ d := d
  hashOrderId text := text.length

def tinySettings : BookSettings := ⟨.krakenJson, ⟨0, 0⟩, 1⟩

/-- A drop, an unparsable frame and an update in between, then a snapshot that recovers. -/
def recoveredCalls : List AdapterCall :=
  [.onConnect 1, .onFrame [0], .onFramesDropped 3, .onFrame [1], .onFrame [7], .onFrame [0], .onFrame [1]]

theorem recovered_book_missed_nothing :
    ∃ b, ((Connection.add tinySettings).run tinyPlatform recoveredCalls).books (ascii "BTC/USD") = some b ∧
      b.isReady = true ∧ ∃ before snap bs,
        (SymbolTrace.ofCalls (krakenEvents tinyPlatform ⟨0, 0⟩ (ascii "BTC/USD")) recoveredCalls).events =
          before ++ snapshotAndBatches snap bs ∧
        CleanReplay (KrakenL3Policy.init (some 1)) snap bs ∧
        b.policy = replay (KrakenL3Policy.init (some 1)) snap bs := by
  have hready : (((Connection.add tinySettings).run tinyPlatform recoveredCalls).books (ascii "BTC/USD")).any
      (·.isReady) = true := by decide +kernel
  obtain ⟨b, hb, hr⟩ := (Option.any_eq_true _ _).1 hready
  exact ⟨b, hb, hr,
    (ready_adapter_book_missed_nothing tinyPlatform tinySettings recoveredCalls (ascii "BTC/USD")).1 b hb hr⟩

end Recovered

end CryptoTrader
