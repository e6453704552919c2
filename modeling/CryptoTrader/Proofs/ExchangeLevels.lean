import CryptoTrader.Proofs.ChangeSets
import CryptoTrader.Proofs.ExchangeWindow
import CryptoTrader.Proofs.MarketDataRoundTrip
import CryptoTrader.Spec.DeribitFeed

/-! From Deribit's book to the live one. The exchange states its levels and their moves in
FIX messages; what the parser makes of the decimals is exact, and the aggregated book that
applies them is the exchange's. -/

namespace CryptoTrader

open GranularityPolicy

section Frames

variable {libraries : WireLibraries} {scale : InstrumentScale} {symbol payload : Bytes}

/-- A number that is not negative is not negative as a double. -/
theorem double_units_nonneg {units : ℤ} {decimals : ℕ} (h : decimals ≤ 15) (hunits : 0 ≤ units) :
    0 ≤ double (units / 10 ^ decimals) := by
  have hnear := InstrumentScale.double_units_near (m := units) h
  have hexact : (0 : ℚ) ≤ units / 10 ^ decimals := by positivity
  rw [abs_of_nonneg hexact] at hnear
  have hlow := (abs_le.1 hnear).1
  norm_num at hlow
  linarith

theorem SendsOtherType.events (h : SendsOtherType payload) : deribitEvents libraries.platform scale symbol payload = [] := by
  obtain ⟨message, hparsed, htype⟩ := h
  have hother : parseDeribitFixMessage libraries.platform scale payload = .ok .ignored := by
    rw [parseDeribitFixMessage, hparsed]
    exact if_pos ⟨htype true, htype false⟩
  rw [deribitEvents, hother]
  rfl

variable (hprice : scale.priceDecimals ≤ 15) (hquantity : scale.quantityDecimals ≤ 15)
include hprice hquantity

/-- An entry is read as the level or the move it states. -/
theorem StatesLevel.update? {isSnapshot : Bool} {entry : LevelEntry} {update : L2Update}
    (h : StatesLevel libraries scale isSnapshot entry update) :
    entry.update? libraries.platform scale isSnapshot = some update := by
  obtain ⟨side, price, quantity, operation⟩ := update
  obtain ⟨hside, hoperation, ⟨hread, hsmall⟩, hsize⟩ := h
  have hprices : libraries.platform.parseDecimal entry.price = some (double (price / 10 ^ scale.priceDecimals)) := by
    simp only [WireLibraries.platform, hread, Option.map_some]
  have hsizes : ∃ size, entry.size? libraries.platform isSnapshot = some size ∧
      libraries.platform.scaled scale.quantityDecimals size = quantity := by
    rcases hsize with ⟨text, htext, hnonneg, hreads, hunits⟩ | ⟨hupdate, hdelete, hnone, hzero⟩
    · refine ⟨double (quantity / 10 ^ scale.quantityDecimals), ?_, scaled_exact hquantity hunits⟩
      have hpositive := double_units_nonneg hquantity hnonneg
      simp only [LevelEntry.size?, htext, WireLibraries.platform, hreads, Option.map_some]
      simp [hpositive]
    · refine ⟨0, ?_, ?_⟩
      · simp [LevelEntry.size?, hnone, hupdate, hdelete, WireLibraries.platform]
      · have hexact : libraries.platform.scaled scale.quantityDecimals (double ((0 : ℤ) / 10 ^ scale.quantityDecimals)) = 0 :=
          scaled_exact hquantity (by decide)
        rw [Int.cast_zero, zero_div, double_zero] at hexact
        exact hexact.trans hzero.symm
  obtain ⟨size, hsize, hscaled⟩ := hsizes
  have hexact : libraries.platform.scaled scale.priceDecimals (double (price / 10 ^ scale.priceDecimals)) = price :=
    scaled_exact hprice hsmall
  simp only [LevelEntry.update?, hprices, hsize, Option.bind_eq_bind, Option.bind_some, hexact, hscaled, ← hoperation, hside]
  rfl

/-- A market data message is read as the levels or the moves it states. -/
theorem SendsLevels.parsed {isSnapshot : Bool} {updates : List L2Update}
    (h : SendsLevels libraries scale isSnapshot payload symbol updates) :
    parseDeribitFixMessage libraries.platform scale payload = .ok (bookMessage isSnapshot symbol updates) := by
  obtain ⟨message, entries, rfl, hsize, rfl, rfl, hentries, hstates⟩ := h
  obtain ⟨parsed, hbody, hparse⟩ := message.parse_payload libraries.platform scale hsize
  have hgroup := message.groupBody hsize
  rw [← hbody] at hgroup
  have hsaid : List.Forall₂ (Says libraries.platform scale message.isSnapshot) message.groups updates := by
    rw [MarketDataText.groups, hentries, List.map_map, List.forall₂_map_left_iff]
    exact hstates.imp fun entry update h => LevelEntry.said (h.update? hprice hquantity)
  rw [hparse, (parseMarketData_eq_ok_iff libraries.platform scale).2 ⟨message.groups, hgroup, hsaid⟩]

theorem SendsLevels.events {isSnapshot : Bool} {instrument : Bytes} {updates : List L2Update}
    (h : SendsLevels libraries scale isSnapshot payload instrument updates) :
    deribitEvents libraries.platform scale symbol payload =
      if instrument = symbol then
        [.message (if isSnapshot then .snapshot ⟨updates⟩ else .batch updates)]
      else [] := by
  have hevents : deribitEvents libraries.platform scale symbol payload =
      messagesFor symbol (bookMessage isSnapshot instrument updates).bookMessages := by
    rw [deribitEvents, h.parsed hprice hquantity]
  have hmessages : (bookMessage isSnapshot instrument updates).bookMessages =
      [⟨instrument, if isSnapshot then .snapshot ⟨updates⟩ else .batch updates⟩] := by
    cases isSnapshot <;> rfl
  rw [hevents, hmessages, messagesFor, List.filter_singleton]
  by_cases heq : instrument = symbol <;> simp [heq]

end Frames

namespace L2Levels

/-- The levels are the exchange's. -/
def Shows (l : L2Levels) (book : AggregateBook) : Prop :=
  ∀ side price, (l.levels.get side).find? price = book side price

theorem shows_apply {l : L2Levels} {book : AggregateBook} (h : l.Shows book) (side : Side) (price : Price)
    (quantity : Option Quantity) :
    Shows ⟨LevelMirror.apply l.levels ⟨side, price, quantity⟩⟩ (book.set side price quantity) := by
  intro s p
  rw [LevelMirror.find?_apply, AggregateBook.set, h]

/-- A move of the exchange's book is one the levels can make. -/
theorem applyOne_shows {l : L2Levels} {book next : AggregateBook} {update : L2Update} (cs : ChangeSet)
    (hshows : l.Shows book) (hmove : DescribesMove book update next) :
    (applyOne (l, cs) update).1.Shows next ∧ (applyOne (l, cs) update).2.integrityIssue = cs.integrityIssue := by
  cases hmove with
  | new side price quantity habsent =>
    have hone : applyOne (l, cs) ⟨side, price, quantity, .new⟩ =
        (⟨LevelMirror.apply l.levels ⟨side, price, some quantity⟩⟩, cs.pushLevel ⟨side, price, some quantity⟩) := by
      simp [applyOne, applyOneTo, LevelMirror.apply]
    rw [hone]
    exact ⟨shows_apply hshows side price (some quantity), rfl⟩
  | change side price quantity hthere =>
    obtain ⟨held, hheld⟩ := Option.isSome_iff_exists.1 hthere
    have hfind := (hshows side price).trans hheld
    have hone : applyOne (l, cs) ⟨side, price, quantity, .change⟩ =
        (⟨LevelMirror.apply l.levels ⟨side, price, some quantity⟩⟩, cs.pushLevel ⟨side, price, some quantity⟩) := by
      simp [applyOne, applyOneTo, LevelMirror.apply, hfind]
    rw [hone]
    exact ⟨shows_apply hshows side price (some quantity), rfl⟩
  | delete side price quantity hthere =>
    obtain ⟨held, hheld⟩ := Option.isSome_iff_exists.1 hthere
    have hfind := (hshows side price).trans hheld
    have hone : applyOne (l, cs) ⟨side, price, quantity, .delete⟩ =
        (⟨LevelMirror.apply l.levels ⟨side, price, none⟩⟩, cs.pushLevel ⟨side, price, none⟩) := by
      simp [applyOne, applyOneTo, LevelMirror.apply, hfind]
    rw [hone]
    exact ⟨shows_apply hshows side price none, rfl⟩

theorem foldl_applyOne_shows {book last : AggregateBook} {updates : List L2Update} (hmoves : DescribesMoves book updates last)
    {l : L2Levels} (cs : ChangeSet) (hshows : l.Shows book) :
    (updates.foldl applyOne (l, cs)).1.Shows last ∧
      (updates.foldl applyOne (l, cs)).2.integrityIssue = cs.integrityIssue := by
  induction hmoves generalizing l cs with
  | nil book => exact ⟨hshows, rfl⟩
  | cons hmove _ ih =>
    obtain ⟨hnext, hissue⟩ := applyOne_shows cs hshows hmove
    obtain ⟨hlast, hrest⟩ := ih _ hnext
    exact ⟨hlast, hrest.trans hissue⟩

/-- After the loop of a snapshot, a level is one that was listed or has been there before. -/
theorem find?_foldl_replaceOne {levels : List L2Update} (hnew : ∀ level ∈ levels, level.operation = .new)
    (acc : L2Levels × List LevelChange) (s : Side) (p : Price) :
    (∃ quantity, ⟨s, p, quantity, .new⟩ ∈ levels ∧
        (((levels.foldl replaceOne acc).1.levels.get s).find? p = some quantity)) ∨
      ((∀ quantity, ⟨s, p, quantity, .new⟩ ∉ levels) ∧
        ((levels.foldl replaceOne acc).1.levels.get s).find? p = (acc.1.levels.get s).find? p) := by
  induction levels generalizing acc with
  | nil => exact .inr ⟨by simp, rfl⟩
  | cons level levels ih =>
    obtain ⟨side, price, quantity, operation⟩ := level
    obtain rfl : operation = .new := hnew _ List.mem_cons_self
    have hone : (replaceOne acc ⟨side, price, quantity, .new⟩).1 =
        ⟨LevelMirror.apply acc.1.levels ⟨side, price, some quantity⟩⟩ := rfl
    rw [List.foldl_cons]
    rcases ih (fun level hlevel => hnew level (List.mem_cons_of_mem _ hlevel)) (replaceOne acc ⟨side, price, quantity, .new⟩)
      with ⟨q, hmem, hfind⟩ | ⟨hnone, hfind⟩
    · exact .inl ⟨q, List.mem_cons_of_mem _ hmem, hfind⟩
    · rw [hone, LevelMirror.find?_apply] at hfind
      by_cases hplace : s = side ∧ p = price
      · obtain ⟨rfl, rfl⟩ := hplace
        exact .inl ⟨quantity, List.mem_cons_self, by rw [hfind, if_pos ⟨rfl, rfl⟩]⟩
      · rw [if_neg hplace] at hfind
        refine .inr ⟨fun q hmem => ?_, hfind⟩
        rcases List.mem_cons.1 hmem with heq | hmem
        · cases heq
          exact hplace ⟨rfl, rfl⟩
        · exact hnone q hmem

theorem replaceWith_shows {levels : List L2Update} {book : AggregateBook} (h : DescribesLevels levels book) :
    (replaceWith levels).1.Shows book := by
  intro s p
  have hcases := find?_foldl_replaceOne h.operation (empty, []) s p
  rcases hcases with ⟨quantity, hmem, hfind⟩ | ⟨hnone, hfind⟩
  · exact hfind.trans ((h.listed s p quantity).2 hmem).symm
  · have habsent : book s p = none := by
      rw [Option.eq_none_iff_forall_not_mem]
      exact fun quantity hsome => hnone quantity ((h.listed s p quantity).1 hsome)
    rw [habsent]
    exact hfind.trans (LevelMirror.find?_empty s p)

end L2Levels

/-- Levels of an uncrossed book are not crossed. -/
theorem L2Levels.Shows.not_crossed {l : L2Levels} {book : AggregateBook} (h : l.Shows book) (hbook : book.Uncrossed) :
    isCrossed (l.best .bid) (l.best .ask) = false := by
  have hbest : ∀ side entry, l.best side = some entry → (book side entry.price).isSome = true := by
    intro side entry hentry
    obtain ⟨head, hhead, rfl⟩ := Option.map_eq_some_iff.1 hentry
    rw [← h side head.1, OrdMap.find?_eq_some.2 (List.mem_of_mem_head? hhead)]
    rfl
  cases hbid : l.best .bid with
  | none => rfl
  | some bid =>
    cases hask : l.best .ask with
    | none => rfl
    | some ask =>
      have hless := hbook _ _ (hbest .bid bid hbid) (hbest .ask ask hask)
      simpa [isCrossed] using hless

/-- What a connection has brought of a symbol follows the exchange's book. -/
theorem DeribitFeed.follows {libraries : WireLibraries} {scale : InstrumentScale} {symbol : Bytes}
    (hprice : scale.priceDecimals ≤ 15) (hquantity : scale.quantityDecimals ≤ 15) {payloads : List Bytes}
    {book : Option AggregateBook} (hfeed : DeribitFeed libraries scale symbol payloads book) :
    FollowsExchange UnsequencedL2Policy.init (fun e (p : UnsequencedL2Policy) => p.levels.Shows e)
      (payloads.flatMap (deribitEvents libraries.platform scale symbol)) book := by
  induction hfeed with
  | opened => rfl
  | other payload hother _ ih =>
    rw [List.flatMap_append, List.flatMap_singleton, hother.events, List.append_nil]
    exact ih
  | elsewhere payload isSnapshot instrument updates hsent helsewhere _ ih =>
    rw [List.flatMap_append, List.flatMap_singleton, hsent.events hprice hquantity, if_neg helsewhere, List.append_nil]
    exact ih
  | snapshot payload levels e hsent hlevels huncrossed _ _ =>
    rw [List.flatMap_append, List.flatMap_singleton, hsent.events hprice hquantity, if_pos rfl, if_pos rfl]
    have hshows := L2Levels.replaceWith_shows hlevels
    have hcrossed := hshows.not_crossed huncrossed
    exact .snapshot (if_neg (Bool.eq_false_iff.1 hcrossed)) hshows
  | update payload updates e e' hsent hmoves huncrossed _ ih =>
    rw [List.flatMap_append, List.flatMap_singleton, hsent.events hprice hquantity, if_pos rfl, if_neg (by simp)]
    refine ih.batch fun p hshows => ?_
    obtain ⟨hshows', hissue⟩ := L2Levels.foldl_applyOne_shows hmoves {} hshows
    have hcrossed := hshows'.not_crossed huncrossed
    exact ⟨(if_neg (Bool.eq_false_iff.1 hcrossed)).trans hissue, hshows'⟩

open FeedHandler in
/-- At every moment of the process, a live book of Deribit's that reads Ready has exactly the
levels of the exchange's book as of the last message about it among the first calls on the
session's sinks. Frames may be lost on the way; when the process has exited, these are all
the calls. -/
theorem live_book_is_exchange_book (libraries : WireLibraries) (J : JournalPlatform) (orderBooks : Bool)
    (rest : RestClient) (entries : List (Config.Connection × SessionConfig)) (actions : List HandlerAction)
    (h : FeedHandler) (hrun : (start orderBooks rest entries).run J actions = some h) (i feed : ℕ)
    (capture : ClientCapture) (hcapture : h.captures[i]? = some capture) (hfeed : capture.feed = some feed)
    (settings : BookSettings) (hsettings : h.added[feed]? = some settings)
    (hprice : settings.scale.priceDecimals ≤ 15) (hquantity : settings.scale.quantityDecimals ≤ 15)
    (symbol : Bytes) (exchange : ℕ → Option AggregateBook)
    (hsent : ∀ k ≤ capture.session.sinkCalls.length,
      DeribitFeed libraries settings.scale symbol
        ((capturedSinceConnect (capture.session.sinkCalls.take k)).map (·.payload)) (exchange k)) :
    ∃ k conn, k ≤ capture.session.sinkCalls.length ∧
      ((∃ code, h.main = .exited code) → k = capture.session.sinkCalls.length) ∧
      (h.books.adapter libraries.platform h.added).connections[feed]? = some conn ∧
      ∀ b, conn.deribitBooks symbol = some b → b.isReady = true →
        ∃ e, exchange k = some e ∧ ∀ side price, (b.policy.levels.levels.get side).find? price = e side price := by
  obtain ⟨settings', offered, hlive, -⟩ := (run_sound hrun).liveFeed ⟨hcapture, hfeed⟩
  obtain rfl : settings' = settings := Option.some.inj (hlive.added.symm.trans hsettings)
  have hle := hlive.heard.length_le
  have htake : capture.session.sinkCalls.take (offered.map (·.1)).length = offered.map (·.1) :=
    (List.prefix_iff_eq_take.1 hlive.heard).symm
  refine ⟨(offered.map (·.1)).length, _, hle, fun hexit => by rw [hlive.ended hexit], adapter_connection _ hlive.added,
    fun b hb hready => ?_⟩
  obtain ⟨before, snap, bs, hevents, -, hpolicy⟩ := hlive.deribit_ready libraries.platform hb hready
  have hfed := hsent _ hle
  rw [htake] at hfed
  obtain ⟨e, he, hshows⟩ := (hfed.follows hprice hquantity).replayed (by rw [List.flatMap_map]; exact hevents)
  refine ⟨e, he, ?_⟩
  rw [hpolicy]
  exact hshows

section Witness

open CryptoTrader.Fix CryptoTrader.Deribit

def levelsSnapshot : MarketDataText :=
  { mixedSnapshot with
    entries := [⟨.bid, ascii "100", some (ascii "5"), .new, none⟩, ⟨.ask, ascii "101", some (ascii "2"), .new, none⟩].map
      LevelEntry.text
    entries_soh := by decide }

/-- The bid changes, and the offer goes. -/
def levelsUpdate : MarketDataText :=
  { mixedUpdate with
    entries := [⟨.bid, ascii "100", some (ascii "7"), .change, none⟩, ⟨.ask, ascii "101", none, .delete, none⟩].map
      LevelEntry.text
    entries_soh := by decide }

/-- Decimals without a point. -/
def wholeLibraries : WireLibraries where
  parseJson _ := none
  readDecimal text := (toSize text).map fun (units : ℕ) => ((units : ℤ) : ℚ) / 10 ^ 0
  hashOrderId _ := 0
  unspecified _ := 0

def twoLevels : AggregateBook
  | .bid, price => if price = 100 then some 5 else none
  | .ask, price => if price = 101 then some 2 else none

def oneLevel : AggregateBook := (twoLevels.set .bid 100 (some 7)).set .ask 101 none

theorem whole_states {text : Bytes} {units : ℕ} (hread : toSize text = some units) (hsmall : |(units : ℤ)| < kExactUnits) :
    TextStates wholeLibraries text units 0 := by
  refine ⟨?_, hsmall⟩
  simp only [wholeLibraries, hread, Option.map_some]

theorem levelsSnapshot_sends :
    SendsLevels wholeLibraries ⟨0, 0⟩ true levelsSnapshot.payload perpetual [⟨.bid, 100, 5, .new⟩, ⟨.ask, 101, 2, .new⟩] := by
  refine ⟨levelsSnapshot, _, rfl, by decide +kernel, rfl, rfl, rfl, .cons ?_ (.cons ?_ .nil)⟩
  · exact ⟨rfl, rfl, whole_states (by decide) (by decide),
      .inl ⟨_, rfl, by decide, whole_states (by decide) (by decide)⟩⟩
  · exact ⟨rfl, rfl, whole_states (by decide) (by decide),
      .inl ⟨_, rfl, by decide, whole_states (by decide) (by decide)⟩⟩

theorem levelsUpdate_sends :
    SendsLevels wholeLibraries ⟨0, 0⟩ false levelsUpdate.payload perpetual
      [⟨.bid, 100, 7, .change⟩, ⟨.ask, 101, 0, .delete⟩] := by
  refine ⟨levelsUpdate, _, rfl, by decide +kernel, rfl, rfl, rfl, .cons ?_ (.cons ?_ .nil)⟩
  · exact ⟨rfl, rfl, whole_states (by decide) (by decide),
      .inl ⟨_, rfl, by decide, whole_states (by decide) (by decide)⟩⟩
  · exact ⟨rfl, rfl, whole_states (by decide) (by decide), .inr ⟨rfl, rfl, rfl, rfl⟩⟩

/-- The exchange's book as of the first calls on the session's sinks. -/
def levelsExchange : ℕ → Option AggregateBook
  | 0 | 1 => none
  | 2 => some twoLevels
  | _ => some oneLevel

def perpetualEntries : List (Config.Connection × SessionConfig) :=
  [({ id := ascii "d", exchange := .deribit, symbols := [perpetual], priceDecimals := some 0, quantityDecimals := some 0 }, {})]

/-- A connection captures the two messages, and the book thread takes them. -/
def levelsProcess : List HandlerAction :=
  let frame (payload : Bytes) : HandlerAction := .session 0 (.call (.onWireMessage { firstWire with payload })) true
  [.main false true, .main false true, .session 0 (.call (.beginConnect firstConnect)) true, frame levelsSnapshot.payload,
    frame levelsUpdate.payload, .books, .books, .books, .books]

theorem levelsProcess_runs :
    ((FeedHandler.start true tinyReference perpetualEntries).run blankJournal levelsProcess).isSome = true := by
  decide +kernel

theorem levelsExchange_feeds : ∀ k ≤ 3,
    DeribitFeed wholeLibraries ⟨0, 0⟩ perpetual ([levelsSnapshot.payload, levelsUpdate.payload].take (k - 1))
      (levelsExchange k) := by
  have hlevels : DescribesLevels [⟨.bid, 100, 5, .new⟩, ⟨.ask, 101, 2, .new⟩] twoLevels := by
    refine ⟨by decide, fun side price quantity => ?_⟩
    cases side <;> simp [twoLevels] <;> exact fun _ => eq_comm
  have hmoves : DescribesMoves twoLevels [⟨.bid, 100, 7, .change⟩, ⟨.ask, 101, 0, .delete⟩] oneLevel :=
    .cons (.change .bid 100 7 (by decide)) (.cons (.delete .ask 101 0 (by decide)) (.nil _))
  have htwo : twoLevels.Uncrossed := by
    intro bid ask hbid hask
    obtain ⟨rfl, rfl⟩ : bid = 100 ∧ ask = 101 := ⟨by simpa [twoLevels] using hbid, by simpa [twoLevels] using hask⟩
    decide
  have hone : oneLevel.Uncrossed := by
    intro bid ask hbid hask
    have hnone : oneLevel .ask ask = none := by
      by_cases heq : ask = 101 <;> simp [oneLevel, twoLevels, AggregateBook.set, heq]
    rw [hnone] at hask
    cases hask
  have hfirst : DeribitFeed wholeLibraries ⟨0, 0⟩ perpetual ([] ++ [levelsSnapshot.payload]) (some twoLevels) :=
    .snapshot _ _ twoLevels levelsSnapshot_sends hlevels htwo .opened
  intro k hk
  rcases k with _ | _ | _ | _ | k
  · exact .opened
  · exact .opened
  · exact hfirst
  · exact .update _ _ twoLevels oneLevel levelsUpdate_sends hmoves hone hfirst
  · omega

theorem perpetual_book_is_exchange_book :
    let h := ((FeedHandler.start true tinyReference perpetualEntries).run blankJournal levelsProcess).get levelsProcess_runs
    ∃ k conn b, (h.books.adapter wholeLibraries.platform h.added).connections[0]? = some conn ∧
      conn.deribitBooks perpetual = some b ∧ b.isReady = true ∧
      ∃ e, levelsExchange k = some e ∧ ∀ side price, (b.policy.levels.levels.get side).find? price = e side price := by
  intro h
  have hany : (h.captures[0]?.any fun capture => capture.feed = some 0 ∧ capture.session.sinkCalls.length = 3 ∧
      ∀ k ≤ 3, (capturedSinceConnect (capture.session.sinkCalls.take k)).map (·.payload) =
        [levelsSnapshot.payload, levelsUpdate.payload].take (k - 1)) = true := by decide +kernel
  have hready : ((h.books.adapter wholeLibraries.platform h.added).connections[0]?.any fun conn =>
      (conn.deribitBooks perpetual).any (·.isReady)) = true := by decide +kernel
  obtain ⟨capture, hcapture, hfacts⟩ := (Option.any_eq_true _ _).1 hany
  obtain ⟨hfeed, hlength, hframes⟩ := of_decide_eq_true hfacts
  obtain ⟨k, conn, -, -, hconn, hshows⟩ := live_book_is_exchange_book wholeLibraries blankJournal true tinyReference
    perpetualEntries levelsProcess h (Option.some_get levelsProcess_runs).symm 0 0 capture hcapture hfeed
    ⟨.deribitFix, ⟨0, 0⟩, kDefaultKrakenDepth⟩ (by decide +kernel) (by decide) (by decide) perpetual levelsExchange (by
      rw [hlength]
      intro k hk
      rw [hframes k hk]
      exact levelsExchange_feeds k hk)
  rw [hconn, Option.any_some, Option.any_eq_true] at hready
  obtain ⟨b, hb, hr⟩ := hready
  exact ⟨k, conn, b, hconn, hb, hr, hshows b hb hr⟩

end Witness

end CryptoTrader
