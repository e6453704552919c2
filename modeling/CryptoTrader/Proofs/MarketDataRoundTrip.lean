import CryptoTrader.Proofs.FixRoundTrip
import CryptoTrader.Proofs.SequenceBreak
import CryptoTrader.Sanity.MarketData

/-! A market data message that is built from a list of entries is decoded into exactly the
updates they mean, and into an error that names the symbol if one of them is malformed. -/

namespace CryptoTrader

open CryptoTrader.Fix

section Entry

variable (entry : EntryText) (isSnapshot : Bool)

/-- The repetition an entry is read back as. -/
def EntryText.group : GroupEntry := ⟨entry.fields isSnapshot⟩

theorem EntryText.get_type : (entry.group isSnapshot).get Tag.kMdEntryType = some entry.type := by
  cases isSnapshot <;> rfl

theorem EntryText.get_price : (entry.group isSnapshot).get Tag.kMdEntryPx = some entry.price := by
  cases isSnapshot <;> rfl

theorem EntryText.get_size : (entry.group isSnapshot).get Tag.kMdEntrySize = entry.size := by
  obtain ⟨action, type, price, size, date⟩ := entry
  cases isSnapshot <;> cases size <;> cases date <;> rfl

/-- The tags of an entry in their order, some left out. -/
theorem EntryText.tags_sublist : ((entry.fields isSnapshot).map (·.tag)).Sublist (entryTags isSnapshot) := by
  obtain ⟨action, type, price, size, date⟩ := entry
  cases isSnapshot <;> cases size <;> cases date <;> exact List.isSublist_iff_sublist.1 rfl

theorem EntryText.later_tags (one : Field) (hone : one ∈ (entry.fields isSnapshot).tail) :
    one.tag ∈ entryTags isSnapshot ∧ one.tag ≠ entryTag isSnapshot := by
  have hlater : ∀ tag ∈ (entryTags isSnapshot).tail, tag ∈ entryTags isSnapshot ∧ tag ≠ entryTag isSnapshot := by
    cases isSnapshot <;> decide
  refine hlater one.tag ((entry.tags_sublist isSnapshot).tail.subset ?_)
  rw [← List.map_tail]
  exact List.mem_map_of_mem hone

theorem EntryText.isEntry : IsEntry (entryTags isSnapshot) (entryTag isSnapshot) (entry.group isSnapshot) := by
  have hlater := entry.later_tags isSnapshot
  cases isSnapshot
  · exact ⟨_, _, rfl, rfl, hlater⟩
  · exact ⟨_, _, rfl, rfl, hlater⟩

theorem entryTag_mem : entryTag isSnapshot ∈ entryTags isSnapshot := by cases isSnapshot <;> decide

theorem entryTags_other : ∀ tag ∈ entryTags isSnapshot, tag < 2 ^ 31 ∧ tag ∉ reservedTags := by
  cases isSnapshot <;> decide

theorem EntryText.tag_mem (one : Field) (hone : one ∈ entry.fields isSnapshot) : one.tag ∈ entryTags isSnapshot :=
  (entry.tags_sublist isSnapshot).subset (List.mem_map_of_mem hone)

end Entry

section Meaning

variable {N D : Type} {P : Platform N D} {scale : InstrumentScale} {isSnapshot : Bool}

theorem toInt_sideText (side : Side) : toInt (sideText side) = some (sideCode side) := by cases side <;> rfl

theorem toInt_actionText (operation : L2Operation) : toInt (actionText operation) = some (actionCode operation) := by
  cases operation <;> rfl

/-- An entry says what its sender means. -/
theorem LevelEntry.said {entry : LevelEntry} {update : L2Update} (h : entry.update? P scale isSnapshot = some update) :
    Says P scale isSnapshot (entry.text.group isSnapshot) update := by
  simp only [LevelEntry.update?, Option.bind_eq_bind, Option.bind_eq_some_iff] at h
  obtain ⟨price, hprice, size, hsize, ⟨⟩⟩ := h
  refine ⟨?_, ?_, ⟨price, ?_, rfl⟩, size, ?_, rfl⟩
  · cases isSnapshot with
    | true => rfl
    | false => exact toInt_actionText entry.operation
  · rw [GroupEntry.getInt, EntryText.get_type]
    exact toInt_sideText entry.side
  · rw [EntryText.get_price]
    exact hprice
  · have htext : entry.text.size = entry.size := rfl
    rw [StatesSize, EntryText.get_size, htext]
    rw [LevelEntry.size?] at hsize
    cases hstated : entry.size with
    | some text =>
      rw [hstated] at hsize
      obtain ⟨hparsed, hsign⟩ := Option.filter_eq_some_iff.1 hsize
      exact ⟨hparsed, by simpa using hsign⟩
    | none =>
      simp only [hstated] at hsize
      split_ifs at hsize with hdelete
      obtain ⟨rfl, hdelete⟩ := hdelete
      exact ⟨hdelete, (Option.some.inj hsize).symm⟩

/-- A malformed entry says nothing. -/
theorem EntryText.Bad.not_said {entry : EntryText} (h : entry.Bad P isSnapshot) (update : L2Update) :
    ¬ Says P scale isSnapshot (entry.group isSnapshot) update := by
  rintro ⟨hoperation, hside, ⟨price, hprice, -⟩, size, hsize, -⟩
  rw [GroupEntry.getInt, EntryText.get_type] at hside
  rw [EntryText.get_price] at hprice
  rw [StatesSize, EntryText.get_size] at hsize
  cases h with
  | type h =>
    change toInt entry.type = _ at hside
    cases hupdate : update.side <;> rw [hupdate] at hside
    · exact h.1 hside
    · exact h.2 hside
  | action hupdate h =>
    subst hupdate
    change toInt entry.action = _ at hoperation
    cases hnamed : update.operation <;> rw [hnamed] at hoperation
    · exact h.1 hoperation
    · exact h.2.1 hoperation
    · exact h.2.2 hoperation
  | price h => exact absurd (h.symm.trans hprice) (by simp)
  | size text htext h =>
    rw [htext] at hsize
    exact absurd (h.symm.trans hsize.1) (by simp)
  | negative text htext stated hstated h =>
    rw [htext] at hsize
    obtain rfl := Option.some.inj (hstated.symm.trans hsize.1)
    exact absurd (h.symm.trans hsize.2) (by simp)
  | missing hmissing h =>
    rw [hmissing] at hsize
    have hdelete : update.operation = .delete := hsize.1
    cases isSnapshot with
    | true => exact absurd (hdelete.symm.trans hoperation) (by simp)
    | false =>
      change toInt entry.action = _ at hoperation
      rw [hdelete] at hoperation
      exact h.elim (by simp) fun hother => hother hoperation

end Meaning

theorem toInt_natText {n : ℕ} (hn : n < 2 ^ 63) : toInt (natText n) = some (n : Int) := by
  obtain ⟨hne, hdigits, hvalue⟩ := natText_isDecimal n
  obtain ⟨first, rest, htext⟩ := List.exists_cons_of_ne_nil hne
  have hfirst : first ≠ kMinus := by
    rintro rfl
    exact absurd (hdigits kMinus (htext ▸ List.mem_cons_self)) (by decide)
  rw [htext] at hdigits hvalue ⊢
  rw [toInt, if_neg hfirst, if_pos ⟨List.all_eq_true.2 hdigits, hvalue.trans_lt hn⟩, hvalue]

/-- Every field takes at least two bytes. -/
theorem two_mul_length_le (fields : List Field) : 2 * fields.length ≤ (fields.flatMap Field.bytes).length := by
  induction fields with
  | nil => exact Nat.le_refl 0
  | cons one fields ih =>
    rw [List.flatMap_cons, List.length_append, List.length_cons, Field.bytes]
    simp only [List.length_append, List.length_singleton]
    omega

namespace MarketDataText

variable (message : MarketDataText)

/-- The repetitions of the group. -/
def groups : List GroupEntry := message.entries.map (·.group message.isSnapshot)

theorem entryFields_groups :
    entryFields message.groups = message.entries.flatMap (EntryText.fields message.isSnapshot) := by
  rw [entryFields, groups, List.flatMap_map]
  rfl

/-- The fields after the MsgType, one kind at a time. -/
theorem forall_tail {p : Field → Prop} (hsymbol : p ⟨Tag.kSymbol, message.symbol⟩)
    (hcount : p ⟨Tag.kNoMdEntries, natText message.entries.length⟩)
    (hother : ∀ one ∈ message.header ++ message.between ++ message.trailer, p one)
    (hentries : ∀ entry ∈ message.entries, ∀ one ∈ entry.fields message.isSnapshot, p one) :
    ∀ one ∈ message.fields.tail, p one := by
  simp only [List.forall_mem_append] at hother
  obtain ⟨⟨hheader, hbetween⟩, htrailer⟩ := hother
  simp only [fields, List.tail_cons, List.forall_mem_append, List.forall_mem_cons, List.mem_flatMap]
  refine ⟨hheader, hsymbol, hbetween, hcount, ?_, htrailer⟩
  rintro one ⟨entry, hentry, hone⟩
  exact hentries entry hentry one hone

theorem other_of_tag {one : Field} (h : one ∈ message.header ++ message.between ++ message.trailer) {tag : ℕ}
    (htag : tag ∈ reservedTags) : one.tag ≠ tag := by
  rintro rfl
  exact (message.other_tag one h).2 htag

theorem wrappable : Wrappable message.fields := by
  have htail : ∀ one ∈ message.fields.tail, one.tag < 2 ^ 31 ∧ one.tag ≠ Tag.kMsgType ∧ one.tag ≠ Tag.kCheckSum ∧
      kSoh ∉ one.value := by
    have hnamed : ∀ tag ∈ [Tag.kSymbol, Tag.kNoMdEntries], tag < 2 ^ 31 ∧ tag ≠ Tag.kMsgType ∧ tag ≠ Tag.kCheckSum := by
      decide
    refine message.forall_tail ?_ ?_ (fun one hone => ?_) fun entry hentry one hone => ?_
    · obtain ⟨hlt, htype, hcheck⟩ := hnamed Tag.kSymbol (by decide)
      exact ⟨hlt, htype, hcheck, message.symbol_soh⟩
    · obtain ⟨hlt, htype, hcheck⟩ := hnamed Tag.kNoMdEntries (by decide)
      exact ⟨hlt, htype, hcheck, (natText_isDecimal _).soh_not_mem⟩
    · exact ⟨(message.other_tag one hone).1, message.other_of_tag hone (by decide),
        message.other_of_tag hone (by decide), message.other_soh one hone⟩
    · obtain ⟨hlt, hother⟩ := entryTags_other message.isSnapshot one.tag (entry.tag_mem message.isSnapshot one hone)
      refine ⟨hlt, ?_, ?_, message.entries_soh entry hentry one hone⟩
      · intro htag
        exact hother (htag ▸ by decide)
      · intro htag
        exact hother (htag ▸ by decide)
  have htype : marketDataType message.isSnapshot ≠ [] ∧ kSoh ∉ marketDataType message.isSnapshot := by
    cases message.isSnapshot <;> decide
  refine ⟨⟨marketDataType message.isSnapshot, message.fields.tail, rfl, htype.1, fun one hone => (htail one hone).2.1⟩,
    ?_, ?_, ?_⟩
  · exact List.forall_mem_cons.2 ⟨show Tag.kMsgType < 2 ^ 31 by decide, fun one hone => (htail one hone).1⟩
  · exact List.forall_mem_cons.2 ⟨show Tag.kMsgType ≠ Tag.kCheckSum by decide, fun one hone => (htail one hone).2.2.1⟩
  · exact List.forall_mem_cons.2 ⟨htype.2, fun one hone => (htail one hone).2.2.2⟩

theorem entries_le (isSnapshot : Bool) (entries : List EntryText) :
    entries.length ≤ (entries.flatMap (EntryText.fields isSnapshot)).length := by
  induction entries with
  | nil => exact Nat.le_refl 0
  | cons entry entries ih =>
    obtain ⟨first, rest, hfields, -⟩ := entry.isEntry isSnapshot
    rw [List.flatMap_cons, show entry.fields isSnapshot = first :: rest from hfields, List.length_append,
      List.length_cons, List.length_cons]
    omega

/-- The count fits its type: every entry takes more than two bytes. -/
theorem entries_lt (hsize : message.payload.length < 2 ^ 64) : message.entries.length < 2 ^ 63 := by
  have hentries := entries_le message.isSnapshot message.entries
  have hfields : (message.entries.flatMap (EntryText.fields message.isSnapshot)).length ≤ message.fields.length := by
    simp only [fields, List.length_cons, List.length_append]
    omega
  have hbytes := two_mul_length_le message.fields
  rw [payload, buildMessage_length, buildUnchecked_length] at hsize
  omega

theorem groupBody (hsize : message.payload.length < 2 ^ 64) :
    GroupBody Tag.kNoMdEntries (entryTags message.isSnapshot) message.groups.length message.groups message.fields := by
  refine ⟨⟨⟨Tag.kMsgType, marketDataType message.isSnapshot⟩ :: (message.header ++ ⟨Tag.kSymbol, message.symbol⟩ ::
    message.between), ⟨Tag.kNoMdEntries, natText message.entries.length⟩, message.trailer, ?_, ?_, rfl, ?_,
    entryTag message.isSnapshot, ?_, ?_⟩, Nat.le_refl _⟩
  · rw [entryFields_groups, fields]
    simp only [List.cons_append, List.append_assoc]
  · simp only [List.forall_mem_cons, List.forall_mem_append]
    refine ⟨by decide, fun one hone => ?_, by decide, fun one hone => ?_⟩
    · exact message.other_of_tag (List.mem_append_left _ (List.mem_append_left _ hone)) (by decide)
    · exact message.other_of_tag (List.mem_append_left _ (List.mem_append_right _ hone)) (by decide)
  · rw [groups, List.length_map]
    exact toInt_natText (message.entries_lt hsize)
  · intro entry hentry
    obtain ⟨text, -, rfl⟩ := List.mem_map.1 hentry
    exact ⟨entryTag_mem _, text.isEntry _⟩
  · intro one hone hmember
    exact absurd hmember (message.trailer_tag one (List.mem_of_mem_head? hone))

/-- The first Symbol is the one that is meant. -/
theorem firstValue_symbol : firstValue (Buildable.wrapped message.fields) Tag.kSymbol = some message.symbol := by
  have hheader : message.header.find? (·.tag = Tag.kSymbol) = none := by
    refine List.find?_eq_none.2 fun one hone => ?_
    simpa using message.other_of_tag (List.mem_append_left _ (List.mem_append_left _ hone)) (by decide)
  have hskip : ∀ rest : List Field,
      (message.header ++ ⟨Tag.kSymbol, message.symbol⟩ :: rest).find? (·.tag = Tag.kSymbol) =
      some ⟨Tag.kSymbol, message.symbol⟩ := by
    intro rest
    rw [List.find?_append, hheader, Option.none_or, List.find?_cons_of_pos (by simp)]
  rw [firstValue, Buildable.wrapped, fields]
  simp only [List.cons_append, List.append_assoc]
  -- the fields before the header are of three other tags
  rw [List.find?_cons_of_neg (by decide), List.find?_cons_of_neg (by simp [Tag.kBodyLength, Tag.kSymbol]),
    List.find?_cons_of_neg (by simp [Tag.kMsgType, Tag.kSymbol]), hskip]
  rfl

variable {N D : Type} (P : Platform N D) (scale : InstrumentScale)

/-- The parser on a message that is built: its symbol is found, and the rest of it is
whether the entries say updates. -/
theorem parse_payload (hsize : message.payload.length < 2 ^ 64) :
    ∃ parsed, parsed.bodyFields = message.fields ∧ parseDeribitFixMessage P scale message.payload =
      match parseMarketData P scale parsed message.isSnapshot with
      | .error what => .error ⟨what, message.symbol⟩
      | .ok updates => .ok (bookMessage message.isSnapshot message.symbol updates) := by
  obtain ⟨parsed, hparsed, hbody, hfields, htype⟩ := message.wrappable.parse_build hsize
  refine ⟨parsed, hbody, parseDeribitFixMessage_marketData P scale hparsed ?_ ?_ message.symbol_ne_nil⟩
  · exact Option.some.inj htype
  · rw [ParsedMessage.get, hfields]
    exact message.firstValue_symbol

end MarketDataText

/-- A market data message round trip: a message built from entries with usable decimals is
decoded into the updates they mean, in their order; one with a malformed entry is an error
that names the symbol. -/
theorem market_data_round_trip {N D : Type} (P : Platform N D) (scale : InstrumentScale) (message : MarketDataText)
    (hsize : message.payload.length < 2 ^ 64) :
    (∀ (entries : List LevelEntry) (updates : List L2Update), message.entries = entries.map LevelEntry.text →
      entries.map (LevelEntry.update? P scale message.isSnapshot) = updates.map some →
      parseDeribitFixMessage P scale message.payload = .ok (bookMessage message.isSnapshot message.symbol updates)) ∧
    ((∃ entry ∈ message.entries, entry.Bad P message.isSnapshot) →
      ∃ what, parseDeribitFixMessage P scale message.payload = .error ⟨what, message.symbol⟩) := by
  obtain ⟨parsed, hbody, hparse⟩ := message.parse_payload P scale hsize
  have hgroup := message.groupBody hsize
  rw [← hbody] at hgroup
  rw [hparse]
  constructor
  · intro entries updates hentries hmeant
    have hsaid : List.Forall₂ (Says P scale message.isSnapshot) message.groups updates := by
      rw [MarketDataText.groups, hentries, List.map_map, List.forall₂_map_left_iff]
      rw [← List.forall₂_eq_eq_eq, List.forall₂_map_left_iff, List.forall₂_map_right_iff] at hmeant
      exact hmeant.imp fun entry update h => LevelEntry.said h
    rw [(parseMarketData_eq_ok_iff P scale).2 ⟨message.groups, hgroup, hsaid⟩]
  · rintro ⟨entry, hentry, hbad⟩
    cases hdata : parseMarketData P scale parsed message.isSnapshot with
    | error what => exact ⟨what, rfl⟩
    | ok updates =>
      obtain ⟨entries, hentries, hsaid⟩ := (parseMarketData_eq_ok_iff P scale).1 hdata
      have hsame := (readGroup_of_body hentries).symm.trans (readGroup_of_body hgroup)
      obtain rfl : entries = message.groups := congrArg RepeatingGroup.entries (Except.ok.inj hsame)
      have hall : ∀ group ∈ message.groups, ∃ update, Says P scale message.isSnapshot group update :=
        ((List.forall₂_and_left _ _).1 (hsaid.imp fun group update h => ⟨⟨update, h⟩, h⟩)).1
      obtain ⟨update, hupdate⟩ := hall _ (List.mem_map_of_mem hentry)
      exact absurd hupdate (hbad.not_said update)

namespace Deribit

/-- A new bid with a date and a deleted offer without a size, behind a field that is spelled
like a member and before one that is not. -/
def mixedEntries : List LevelEntry :=
  [⟨.bid, ascii "100", some (ascii "5"), .new, some (ascii "20260916")⟩, ⟨.ask, ascii "101", none, .delete, none⟩]

def mixedUpdate : MarketDataText where
  isSnapshot := false
  symbol := perpetual
  header := [⟨Tag.kMdEntryType, ascii "9"⟩]
  between := []
  entries := mixedEntries.map LevelEntry.text
  trailer := [⟨Tag.kText, ascii "270=1"⟩]
  symbol_ne_nil := by decide
  symbol_soh := by decide
  other_tag := by decide
  trailer_tag := by decide
  other_soh := by decide
  entries_soh := by decide

/-- The same entries in a snapshot, where each needs a size. -/
def mixedSnapshot : MarketDataText where
  isSnapshot := true
  symbol := perpetual
  header := []
  between := []
  entries := mixedEntries.map LevelEntry.text
  trailer := []
  symbol_ne_nil := by decide
  symbol_soh := by decide
  other_tag := by decide
  trailer_tag := by decide
  other_soh := by decide
  entries_soh := by decide

theorem mixed_entries_round_trip :
    parseDeribitFixMessage wholePlatform perpetualSettings.scale mixedUpdate.payload =
      .ok (.update perpetual [⟨.bid, 100, 5, .new⟩, ⟨.ask, 101, 0, .delete⟩]) ∧
    ∃ what, parseDeribitFixMessage wholePlatform perpetualSettings.scale mixedSnapshot.payload =
      .error ⟨what, perpetual⟩ := by
  constructor
  · exact (market_data_round_trip wholePlatform perpetualSettings.scale mixedUpdate (by decide +kernel)).1 mixedEntries _
      rfl (by decide)
  · refine (market_data_round_trip wholePlatform perpetualSettings.scale mixedSnapshot (by decide +kernel)).2 ?_
    exact ⟨_, List.mem_cons_of_mem _ List.mem_cons_self, .missing rfl (Or.inl rfl)⟩

end Deribit

end CryptoTrader
