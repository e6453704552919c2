import CryptoTrader.Proofs.MarketDataRoundTrip
import CryptoTrader.Sanity.ConfigFile
import CryptoTrader.Spec.FixSession

/-! A symbol goes from the configuration into a FIX message as it is. The characters the
configuration admits cannot end a field, so the request for market data is read back with
exactly the symbols that were configured. -/

namespace CryptoTrader

namespace Config

theorem soh_not_isSymbolChar : isSymbolChar Fix.kSoh = false := by decide

theorem soh_not_mem_of_isValidSymbol {symbol : Bytes} (h : isValidSymbol symbol = true) : Fix.kSoh ∉ symbol := by
  unfold isValidSymbol at h
  split_ifs at h
  intro hmem
  have hchar := List.all_eq_true.1 h _ hmem
  rw [soh_not_isSymbolChar] at hchar
  cases hchar

end Config

namespace Deribit

open CryptoTrader.Fix

/-- `strftime` prints no SOH. -/
def PrintsTime (P : SessionPlatform) : Prop := ∀ second, kSoh ∉ P.utcText second

section Request

variable (P : SessionPlatform) (s : FixSession) (mdReqId : Bytes) (symbols : List Bytes) (clockNs : ℕ)

/-- The fields before the symbols. -/
def requestHead : List Field :=
  [⟨Tag.kMsgType, MsgType.kMarketDataRequest⟩, ⟨Tag.kSenderCompId, s.config.clientId⟩,
    ⟨Tag.kTargetCompId, s.config.targetCompId⟩, ⟨Tag.kMsgSeqNum, natText s.nextOutbound⟩,
    ⟨Tag.kSendingTime, formatUtcTimestamp P clockNs⟩, ⟨Tag.kMdReqId, mdReqId⟩,
    ⟨Tag.kSubscriptionRequestType, ascii "1"⟩, ⟨Tag.kMarketDepth, ascii "0"⟩, ⟨Tag.kNoMdEntryTypes, ascii "2"⟩,
    ⟨Tag.kMdEntryType, ascii "0"⟩, ⟨Tag.kMdEntryType, ascii "1"⟩]

def requestFields : List Field :=
  requestHead P s mdReqId clockNs ++ ⟨Tag.kNoRelatedSym, natText symbols.length⟩ ::
    symbols.map fun symbol => ⟨Tag.kSymbol, symbol⟩

theorem marketDataRequest_bytes :
    (s.buildMarketDataRequest P mdReqId symbols clockNs).2 = buildMessage (requestFields P s mdReqId symbols clockNs) := rfl

theorem formatUtcTimestamp_soh (hutc : PrintsTime P) : kSoh ∉ formatUtcTimestamp P clockNs := by
  have hdigit (n : ℕ) : kSoh ≠ (48 + n % 10).toUInt8 := by
    have hlt := Nat.mod_lt n (show 10 > 0 by decide)
    generalize n % 10 = digit at hlt
    revert digit
    decide
  simp only [formatUtcTimestamp, List.mem_append, List.map_cons, List.map_nil, List.mem_cons, List.not_mem_nil, or_false,
    not_or]
  exact ⟨⟨hutc _, by decide⟩, hdigit _, hdigit _, hdigit _⟩

variable {P s mdReqId symbols}

theorem requestFields_wrappable (hutc : PrintsTime P) (hclient : kSoh ∉ s.config.clientId)
    (htarget : kSoh ∉ s.config.targetCompId) (hid : kSoh ∉ mdReqId) (hsymbols : ∀ symbol ∈ symbols, kSoh ∉ symbol) :
    Wrappable (requestFields P s mdReqId symbols clockNs) := by
  have htag : ∀ one ∈ (requestFields P s mdReqId symbols clockNs).tail,
      one.tag < 2 ^ 31 ∧ one.tag ≠ Tag.kMsgType ∧ one.tag ≠ Tag.kCheckSum := by
    simp only [requestFields, requestHead, List.cons_append, List.nil_append, List.tail_cons, List.forall_mem_cons,
      List.forall_mem_map]
    exact ⟨by decide, by decide, by decide, by decide, by decide, by decide, by decide, by decide, by decide, by decide,
      by decide, fun _ _ => by decide⟩
  have hvalue : ∀ one ∈ requestFields P s mdReqId symbols clockNs, kSoh ∉ one.value := by
    simp only [requestFields, requestHead, List.cons_append, List.nil_append, List.forall_mem_cons, List.forall_mem_map]
    exact ⟨by decide, hclient, htarget, (natText_isDecimal _).soh_not_mem, formatUtcTimestamp_soh P clockNs hutc, hid,
      by decide, by decide, by decide, by decide, by decide, (natText_isDecimal _).soh_not_mem, hsymbols⟩
  refine ⟨⟨MsgType.kMarketDataRequest, _, rfl, by decide, fun one hone => (htag one hone).2.1⟩, ?_, ?_, hvalue⟩
  · exact List.forall_mem_cons.2 ⟨show Tag.kMsgType < 2 ^ 31 by decide, fun one hone => (htag one hone).1⟩
  · exact List.forall_mem_cons.2 ⟨show Tag.kMsgType ≠ Tag.kCheckSum by decide, fun one hone => (htag one hone).2.2⟩

variable (P s mdReqId)

/-- The entry of one symbol. -/
def symbolEntry (symbol : Bytes) : GroupEntry := ⟨[⟨Tag.kSymbol, symbol⟩]⟩

theorem symbols_group (hcount : symbols.length < 2 ^ 63) :
    GroupBody Tag.kNoRelatedSym [Tag.kSymbol] symbols.length (symbols.map symbolEntry)
      (requestFields P s mdReqId symbols clockNs) := by
  have hfields : entryFields (symbols.map symbolEntry) = symbols.map fun symbol => (⟨Tag.kSymbol, symbol⟩ : FieldView) := by
    rw [entryFields, List.flatMap_map]
    exact List.flatMap_pure_eq_map _ _
  refine ⟨⟨requestHead P s mdReqId clockNs, ⟨Tag.kNoRelatedSym, natText symbols.length⟩, [], ?_, ?_, rfl,
    toInt_natText hcount, Tag.kSymbol, ?_, by simp [StopsAt]⟩, by rw [List.length_map]⟩
  · rw [hfields, List.append_nil, requestFields]
  · simp only [requestHead, List.forall_mem_cons]
    exact ⟨by decide, by decide, by decide, by decide, by decide, by decide, by decide, by decide, by decide, by decide,
      by decide, by simp⟩
  · intro entry hentry
    obtain ⟨symbol, -, rfl⟩ := List.mem_map.1 hentry
    exact ⟨List.mem_singleton_self _, ⟨Tag.kSymbol, symbol⟩, [], rfl, rfl, by simp⟩

/-- The two sides. -/
def sideEntries : List GroupEntry := [⟨[⟨Tag.kMdEntryType, ascii "0"⟩]⟩, ⟨[⟨Tag.kMdEntryType, ascii "1"⟩]⟩]

theorem sides_group :
    GroupBody Tag.kNoMdEntryTypes [Tag.kMdEntryType] 2 sideEntries (requestFields P s mdReqId symbols clockNs) := by
  refine ⟨⟨(requestHead P s mdReqId clockNs).take 8, ⟨Tag.kNoMdEntryTypes, ascii "2"⟩,
    ⟨Tag.kNoRelatedSym, natText symbols.length⟩ :: symbols.map fun symbol => ⟨Tag.kSymbol, symbol⟩, rfl, ?_, rfl, by decide,
    Tag.kMdEntryType, ?_, ?_⟩, Nat.le_refl 2⟩
  · simp only [requestHead, List.take_succ_cons, List.take_zero, List.forall_mem_cons]
    exact ⟨by decide, by decide, by decide, by decide, by decide, by decide, by decide, by decide, by simp⟩
  · simp only [sideEntries, List.forall_mem_cons]
    exact ⟨⟨by decide, _, [], rfl, rfl, by simp⟩, ⟨by decide, _, [], rfl, rfl, by simp⟩, by simp⟩
  · rintro one ⟨⟩ hmember
    exact absurd (List.mem_singleton.1 hmember) (show Tag.kNoRelatedSym ≠ Tag.kMdEntryType by decide)

end Request

/-- The request for market data for any configured symbols is parsed back: its number is
the session's next, its symbols are the configured ones in their order, and its entry types
are the two sides. -/
theorem configured_symbols_survive (P : SessionPlatform) (hutc : PrintsTime P) (s : FixSession)
    (hclient : kSoh ∉ s.config.clientId) (htarget : kSoh ∉ s.config.targetCompId) (mdReqId : Bytes)
    (hid : kSoh ∉ mdReqId) (node : Option Config.SymbolsNode) (exchange : Config.Exchange) (place : Bytes)
    (symbols : List Bytes) (hsymbols : Config.parseSymbols node exchange place = .ok symbols) (clockNs : ℕ)
    (hsize : (s.buildMarketDataRequest P mdReqId symbols clockNs).2.length < 2 ^ 64) :
    ∃ parsed, parseMessage (s.buildMarketDataRequest P mdReqId symbols clockNs).2 = .ok parsed ∧
      parsed.msgType = MsgType.kMarketDataRequest ∧
      parsed.get Tag.kMsgSeqNum = some (natText s.nextOutbound) ∧
      (s.nextOutbound < 2 ^ 63 → parsed.getInt Tag.kMsgSeqNum = some (s.nextOutbound : Int)) ∧
      (∃ group, readGroup parsed Tag.kNoRelatedSym [Tag.kSymbol] = .ok group ∧ group.truncated = false ∧
        group.entries.map (·.get Tag.kSymbol) = symbols.map some ∧ ∀ entry ∈ group.entries, entry.fields.length = 1) ∧
      ∃ group, readGroup parsed Tag.kNoMdEntryTypes [Tag.kMdEntryType] = .ok group ∧ group.truncated = false ∧
        group.entries = sideEntries := by
  have hvalid := Config.parseSymbols_valid hsymbols
  have hsoh : ∀ symbol ∈ symbols, kSoh ∉ symbol := fun symbol hsymbol =>
    Config.soh_not_mem_of_isValidSymbol (hvalid symbol hsymbol)
  rw [marketDataRequest_bytes] at hsize ⊢
  have hcount : symbols.length < 2 ^ 63 := by
    have hbytes := two_mul_length_le (requestFields P s mdReqId symbols clockNs)
    have hfields : symbols.length ≤ (requestFields P s mdReqId symbols clockNs).length := by
      rw [requestFields, List.length_append, List.length_cons, List.length_map]
      omega
    rw [buildMessage_length, buildUnchecked_length] at hsize
    omega
  obtain ⟨parsed, hparse, hbody, hfields, htype⟩ :=
    (requestFields_wrappable clockNs hutc hclient htarget hid hsoh).parse_build hsize
  have hnumber : parsed.get Tag.kMsgSeqNum = some (natText s.nextOutbound) := by
    rw [ParsedMessage.get, hfields]
    rfl
  have hsymbolGroup := symbols_group P s mdReqId clockNs hcount
  have hsideGroup : GroupBody _ _ _ _ (requestFields P s mdReqId symbols clockNs) := sides_group P s mdReqId clockNs
  rw [← hbody] at hsymbolGroup hsideGroup
  refine ⟨parsed, hparse, Option.some.inj htype, hnumber, fun hlt => ?_,
    ⟨_, readGroup_of_body hsymbolGroup, ?_, ?_, ?_⟩, ⟨_, readGroup_of_body hsideGroup, rfl, rfl⟩⟩
  · rw [ParsedMessage.getInt, hnumber]
    exact toInt_natText hlt
  · simp [RepeatingGroup.truncated]
  · rw [List.map_map]
    rfl
  · intro entry hentry
    obtain ⟨symbol, -, rfl⟩ := List.mem_map.1 hentry
    rfl

/-- A session that has sent two messages. -/
def twoSentSession : FixSession := { config := ⟨ascii "client", ascii "secret", kTargetCompId, 30⟩, nextOutbound := 3 }

def perpetuals : List Bytes := [ascii "BTC-PERPETUAL", ascii "ETH-PERPETUAL"]

theorem perpetuals_survive :
    ∃ parsed, parseMessage (twoSentSession.buildMarketDataRequest ⟨id, some, fun _ => ascii "now"⟩ (ascii "md1") perpetuals
        0).2 = .ok parsed ∧ parsed.getInt Tag.kMsgSeqNum = some 3 ∧
      ∃ group, readGroup parsed Tag.kNoRelatedSym [Tag.kSymbol] = .ok group ∧
        group.entries.map (·.get Tag.kSymbol) = perpetuals.map some := by
  obtain ⟨parsed, hparse, -, -, hnumber, ⟨group, hgroup, -, hsymbols, -⟩, -⟩ :=
    configured_symbols_survive ⟨id, some, fun _ => ascii "now"⟩
      (fun _ => show kSoh ∉ ascii "now" by decide) twoSentSession (by decide) (by decide) (ascii "md1") (by decide)
      (some (.array (perpetuals.map some))) .deribit (ascii "connections[0]") perpetuals (by decide) 0 (by decide +kernel)
  exact ⟨parsed, hparse, hnumber (by decide), group, hgroup, hsymbols⟩

end Deribit

end CryptoTrader
