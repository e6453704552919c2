import CryptoTrader.Sanity.MarketData
import CryptoTrader.Proofs.SequenceBreak

/-! A market data message is applied as its NoMDEntries says. The updates of an accepted
message are what the repetitions right after the count say, as many as it declares and in
their order; entries the count does not cover are outside the group. -/

namespace CryptoTrader

open CryptoTrader.Fix

/-- How many fields of a tag the body has. -/
def bodyCount (message : ParsedMessage) (tag : ℕ) : ℕ := message.bodyFields.countP (·.tag = tag)

/-- The number the first NoMDEntries of the body declares. -/
def declaredEntries (message : ParsedMessage) : Option Int :=
  (firstValue message.bodyFields Tag.kNoMdEntries).bind toInt

variable {N D : Type} {P : Platform N D} {scale : InstrumentScale}

theorem Says.get_entryTag {isSnapshot : Bool} {entry : GroupEntry} {update : L2Update}
    (h : Says P scale isSnapshot entry update) : entry.get (entryTag isSnapshot) ≠ none := by
  intro hnone
  cases isSnapshot with
  | true =>
    have hside := h.side
    rw [GroupEntry.getInt, show entry.get Tag.kMdEntryType = none from hnone] at hside
    cases hside
  | false =>
    have haction : entry.getInt Tag.kMdUpdateAction = _ := h.operation
    rw [GroupEntry.getInt, show entry.get Tag.kMdUpdateAction = none from hnone] at haction
    cases haction

/-- Entries that say updates have at least one field of their tag each. -/
theorem length_le_countP {isSnapshot : Bool} {entries : List GroupEntry} {updates : List L2Update}
    (h : List.Forall₂ (Says P scale isSnapshot) entries updates) :
    updates.length ≤ (entryFields entries).countP (·.tag = entryTag isSnapshot) := by
  induction h with
  | nil => exact Nat.le_refl 0
  | @cons entry update entries updates hsaid _ ih =>
    have hhere : 0 < entry.fields.countP (·.tag = entryTag isSnapshot) :=
      Nat.pos_of_ne_zero fun hzero => hsaid.get_entryTag (firstValue_eq_none_iff.2 hzero)
    rw [entryFields, List.flatMap_cons, List.countP_append, List.length_cons]
    rw [entryFields] at ih
    omega

/-- The updates of an accepted message are as many as its NoMDEntries declares, and are
what the repetitions right after that field say, in wire order. They are all the entries
on the wire exactly if the count says so. -/
theorem accepted_entries_are_declared (P : Platform N D) (scale : InstrumentScale) (payload : Bytes)
    (isSnapshot : Bool) (symbol : Bytes) (updates : List L2Update)
    (h : parseDeribitFixMessage P scale payload = .ok (bookMessage isSnapshot symbol updates)) :
    ∃ parsed, parseMessage payload = .ok parsed ∧ declaredEntries parsed = some (updates.length : Int) ∧
      (∃ entries, GroupBody Tag.kNoMdEntries (entryTags isSnapshot) updates.length entries parsed.bodyFields ∧
        List.Forall₂ (Says P scale isSnapshot) entries updates) ∧
      updates.length ≤ bodyCount parsed (entryTag isSnapshot) ∧
      (updates.length = bodyCount parsed (entryTag isSnapshot) ↔
        declaredEntries parsed = some (bodyCount parsed (entryTag isSnapshot) : Int)) := by
  obtain ⟨parsed, hparsed, hdata⟩ := parseDeribitFixMessage_eq_ok P scale h
  obtain ⟨entries, hbody, hsaid⟩ := (parseMarketData_eq_ok_iff P scale).1 hdata
  have hlength : entries.length = updates.length := hsaid.length_eq
  have hdeclared : declaredEntries parsed = some (updates.length : Int) := hlength ▸ hbody.firstValue_eq
  refine ⟨parsed, hparsed, hdeclared, ⟨entries, hlength ▸ hbody, hsaid⟩, ?_, ?_⟩
  · obtain ⟨before, count, after, hfields, -⟩ := hbody.split
    have hle := length_le_countP hsaid
    rw [bodyCount, hfields, List.countP_append, List.countP_cons, List.countP_append]
    omega
  · rw [hdeclared, Option.some.injEq, Nat.cast_inj]

namespace Deribit

/-- One entry declared, two on the wire. -/
def declaresOne : Bytes :=
  buildMessage [⟨Tag.kMsgType, MsgType.kMarketDataIncrementalRefresh⟩, ⟨Tag.kSymbol, perpetual⟩,
    ⟨Tag.kNoMdEntries, ascii "1"⟩,
    ⟨Tag.kMdUpdateAction, ascii "1"⟩, ⟨Tag.kMdEntryType, ascii "0"⟩, ⟨Tag.kMdEntryPx, ascii "100"⟩,
    ⟨Tag.kMdEntrySize, ascii "7"⟩,
    ⟨Tag.kMdUpdateAction, ascii "2"⟩, ⟨Tag.kMdEntryType, ascii "1"⟩, ⟨Tag.kMdEntryPx, ascii "101"⟩]

/-- The second entry is left out of an accepted batch. -/
theorem second_entry_left_out :
    ∃ parsed updates, parseMessage declaresOne = .ok parsed ∧
      parseDeribitFixMessage wholePlatform perpetualSettings.scale declaresOne = .ok (.update perpetual updates) ∧
      updates = [⟨.bid, 100, 7, .change⟩] ∧ bodyCount parsed Tag.kMdUpdateAction = 2 := by
  have hcount : (parseMessage declaresOne).map (bodyCount · Tag.kMdUpdateAction) = .ok 2 := by decide +kernel
  cases hparsed : parseMessage declaresOne with
  | error what =>
    rw [hparsed] at hcount
    cases hcount
  | ok parsed =>
    rw [hparsed] at hcount
    exact ⟨parsed, _, rfl, by decide +kernel, rfl, Except.ok.inj hcount⟩

theorem declared_entry_accepted :
    ∃ parsed, parseMessage declaresOne = .ok parsed ∧ declaredEntries parsed = some 1 ∧
      1 ≤ bodyCount parsed Tag.kMdUpdateAction := by
  obtain ⟨parsed, hparsed, hdeclared, -, hle, -⟩ :=
    accepted_entries_are_declared wholePlatform perpetualSettings.scale declaresOne false perpetual
      [⟨.bid, 100, 7, .change⟩] (by decide +kernel)
  exact ⟨parsed, hparsed, hdeclared, hle⟩

end Deribit

end CryptoTrader
