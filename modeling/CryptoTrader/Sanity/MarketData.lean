import CryptoTrader.Sanity.FixGroup
import CryptoTrader.Spec.MarketData
import Mathlib.Data.List.Forall2

/-! What the parser makes of Deribit's market data: it succeeds exactly when every
repetition of a group that is not cut short says an update. -/

namespace CryptoTrader

open CryptoTrader.Fix

variable {N D : Type} (P : Platform N D) (scale : InstrumentScale) {entry : GroupEntry} {index : ℕ}

section Members

variable {P}

theorem parseSide_eq_ok_iff {side : Side} :
    parseSide entry index = .ok side ↔ entry.getInt Tag.kMdEntryType = some (sideCode side) := by
  rw [parseSide]
  split
  · simp [*]
  · cases side <;> simp [*, sideCode]
  · cases side <;> simp [*, sideCode]
  · rename_i code hzero hone hcode
    cases side
    · simpa [hcode, sideCode] using hzero
    · simpa [hcode, sideCode] using hone

theorem parseAction_eq_ok_iff {operation : L2Operation} :
    parseAction entry index = .ok operation ↔ entry.getInt Tag.kMdUpdateAction = some (actionCode operation) := by
  rw [parseAction]
  split
  · simp [*]
  · cases operation <;> simp [*, actionCode]
  · cases operation <;> simp [*, actionCode]
  · cases operation <;> simp [*, actionCode]
  · rename_i code hzero hone htwo hcode
    cases operation
    · simpa [hcode, actionCode] using hzero
    · simpa [hcode, actionCode] using hone
    · simpa [hcode, actionCode] using htwo

theorem parsePrice_eq_ok_iff {price : D} :
    parsePrice P entry index = .ok price ↔ (entry.get Tag.kMdEntryPx).bind P.parseDecimal = some price := by
  rw [parsePrice]
  split <;> simp [*]

theorem parseSize_eq_ok_iff {operation : L2Operation} {size : D} :
    parseSize P entry index operation = .ok size ↔ StatesSize P entry operation size := by
  rw [parseSize, StatesSize]
  cases entry.get Tag.kMdEntrySize with
  | none =>
    change (if operation ≠ .delete then _ else _) = _ ↔ operation = .delete ∧ size = P.zero
    split_ifs with hdelete
    · simp [hdelete]
    · simp [not_not.1 hdelete, eq_comm]
  | some text =>
    dsimp only
    cases P.parseDecimal text with
    | none => simp
    | some stated =>
      change (if P.isNegative stated then _ else _) = _ ↔ _
      split_ifs with hnegative
      · simp only [Option.some.injEq, false_iff, not_and]
        rintro rfl
        simp [hnegative]
      · simp only [Except.ok.injEq, Option.some.injEq, iff_self_and]
        rintro rfl
        simpa using hnegative

end Members

/-- A step that may fail, and what follows it. -/
theorem except_bind_eq_ok_iff {ε α β : Type} {first : Except ε α} {next : α → Except ε β} {result : β} :
    (first >>= next) = .ok result ↔ ∃ value, first = .ok value ∧ next value = .ok result := by
  cases first with
  | error reason => simp [bind, Except.bind]
  | ok value => simp [bind, Except.bind]

theorem parseEntry_eq_ok_iff {operation : L2Operation} {update : L2Update} :
    parseEntry P scale entry index operation = .ok update ↔
      update.operation = operation ∧ entry.getInt Tag.kMdEntryType = some (sideCode update.side) ∧
      (∃ price, (entry.get Tag.kMdEntryPx).bind P.parseDecimal = some price ∧
        update.price = P.scaled scale.priceDecimals price) ∧
      ∃ size, StatesSize P entry operation size ∧ update.quantity = P.scaled scale.quantityDecimals size := by
  simp only [parseEntry, except_bind_eq_ok_iff, parseSide_eq_ok_iff, parsePrice_eq_ok_iff, parseSize_eq_ok_iff]
  constructor
  · rintro ⟨side, hside, price, hprice, size, hsize, ⟨⟩⟩
    exact ⟨rfl, hside, ⟨price, hprice, rfl⟩, size, hsize, rfl⟩
  · obtain ⟨side, stated, quantity, stated'⟩ := update
    rintro ⟨rfl, hside, ⟨price, hprice, rfl⟩, size, hsize, rfl⟩
    exact ⟨side, hside, price, hprice, size, hsize, rfl⟩

/-- The operation of an entry. -/
def entryOperation (isSnapshot : Bool) (entry : GroupEntry) (index : ℕ) : Except String L2Operation :=
  if isSnapshot then .ok .new else parseAction entry index

theorem parseEntries_cons (isSnapshot : Bool) (entries : List GroupEntry) :
    parseEntries P scale isSnapshot index (entry :: entries) = (do
      let operation ← entryOperation isSnapshot entry index
      let update ← parseEntry P scale entry index operation
      let rest ← parseEntries P scale isSnapshot (index + 1) entries
      return update :: rest) := by
  cases isSnapshot <;> rfl

theorem says_iff {isSnapshot : Bool} {update : L2Update} :
    Says P scale isSnapshot entry update ↔ ∃ operation,
      entryOperation isSnapshot entry index = .ok operation ∧ parseEntry P scale entry index operation = .ok update := by
  simp only [parseEntry_eq_ok_iff]
  constructor
  · rintro ⟨hoperation, hside, hprice, hsize⟩
    refine ⟨update.operation, ?_, rfl, hside, hprice, hsize⟩
    cases isSnapshot with
    | true => exact congrArg Except.ok (show update.operation = .new from hoperation).symm
    | false => exact parseAction_eq_ok_iff.2 hoperation
  · rintro ⟨_, haction, rfl, hside, hprice, hsize⟩
    refine ⟨?_, hside, hprice, hsize⟩
    cases isSnapshot with
    | true => exact (Except.ok.inj haction).symm
    | false => exact parseAction_eq_ok_iff.1 haction

/-- The loop succeeds exactly with the updates its entries say, in their order. -/
theorem parseEntries_eq_ok_iff {isSnapshot : Bool} {entries : List GroupEntry} {updates : List L2Update} :
    parseEntries P scale isSnapshot index entries = .ok updates ↔
      List.Forall₂ (Says P scale isSnapshot) entries updates := by
  induction entries generalizing index updates with
  | nil => simp [parseEntries, eq_comm]
  | cons entry entries ih =>
    simp only [parseEntries_cons, except_bind_eq_ok_iff, ih, List.forall₂_cons_left_iff,
      @says_iff _ _ P scale entry index]
    constructor
    · rintro ⟨operation, haction, update, hupdate, rest, hrest, ⟨⟩⟩
      exact ⟨update, rest, ⟨operation, haction, hupdate⟩, hrest, rfl⟩
    · rintro ⟨update, rest, ⟨operation, haction, hupdate⟩, hrest, rfl⟩
      exact ⟨operation, haction, update, hupdate, rest, hrest, rfl⟩

/-- The parser after the symbol: it succeeds exactly on a group whose repetitions are as
many as declared and say the updates. -/
theorem parseMarketData_eq_ok_iff {message : ParsedMessage} {isSnapshot : Bool} {updates : List L2Update} :
    parseMarketData P scale message isSnapshot = .ok updates ↔
      ∃ entries, GroupBody Tag.kNoMdEntries (entryTags isSnapshot) entries.length entries message.bodyFields ∧
        List.Forall₂ (Says P scale isSnapshot) entries updates := by
  simp only [parseMarketData, readEntries, except_bind_eq_ok_iff, parseEntries_eq_ok_iff]
  constructor
  · rintro ⟨group, ⟨whole, hgroup, hwhole⟩, hentries⟩
    split_ifs at hwhole with htruncated
    cases hwhole
    have hbody := body_of_readGroup hgroup
    have hcount : group.declaredCount = group.entries.length :=
      Nat.le_antisymm (by simpa [RepeatingGroup.truncated] using htruncated) hbody.le
    exact ⟨group.entries, hcount ▸ hbody, hentries⟩
  · rintro ⟨entries, hbody, hentries⟩
    refine ⟨⟨entries.length, entries⟩, ⟨_, readGroup_of_body hbody, if_neg ?_⟩, hentries⟩
    simp [RepeatingGroup.truncated]

/-- The parser on a market data message. -/
theorem parseDeribitFixMessage_marketData {payload : Bytes} {parsed : ParsedMessage} {isSnapshot : Bool} {symbol : Bytes}
    (hparsed : parseMessage payload = .ok parsed) (htype : parsed.msgType = marketDataType isSnapshot)
    (hsymbol : parsed.get Tag.kSymbol = some symbol) (hne : symbol ≠ []) :
    parseDeribitFixMessage P scale payload =
      match parseMarketData P scale parsed isSnapshot with
      | .error what => .error ⟨what, symbol⟩
      | .ok updates => .ok (bookMessage isSnapshot symbol updates) := by
  obtain ⟨first, rest, rfl⟩ := List.exists_cons_of_ne_nil hne
  have hsnapshot : parsed.msgType = ascii "W" ↔ isSnapshot = true := by
    rw [htype]
    cases isSnapshot <;> decide
  have hmarket : ¬ (¬ isSnapshot = true ∧ parsed.msgType ≠ ascii "X") := by
    rw [htype]
    cases isSnapshot <;> decide
  rw [parseDeribitFixMessage, hparsed]
  simp only [hsymbol, hsnapshot, if_neg hmarket, Bool.decide_eq_true]
  rfl

/-- A message the parser takes for market data. -/
theorem parseDeribitFixMessage_eq_ok {payload : Bytes} {isSnapshot : Bool} {symbol : Bytes} {updates : List L2Update}
    (h : parseDeribitFixMessage P scale payload = .ok (bookMessage isSnapshot symbol updates)) :
    ∃ parsed, parseMessage payload = .ok parsed ∧ parseMarketData P scale parsed isSnapshot = .ok updates := by
  cases hparsed : parseMessage payload with
  | error what =>
    rw [parseDeribitFixMessage, hparsed] at h
    cases h
  | ok parsed =>
    rw [parseDeribitFixMessage, hparsed] at h
    simp only at h
    by_cases hother : ¬ parsed.msgType = ascii "W" ∧ parsed.msgType ≠ ascii "X"
    · rw [if_pos hother] at h
      cases isSnapshot <;> cases h
    · rw [if_neg hother] at h
      split at h
      · cases h
      · cases h
      · split at h
        · cases h
        · rename_i found hdata
          refine ⟨parsed, rfl, ?_⟩
          have hmessage := Except.ok.inj h
          by_cases htype : parsed.msgType = ascii "W"
          · rw [if_pos htype] at hmessage
            cases isSnapshot <;> cases hmessage
            simpa [htype] using hdata
          · rw [if_neg htype] at hmessage
            cases isSnapshot <;> cases hmessage
            simpa [htype] using hdata

end CryptoTrader
