import CryptoTrader.Spec.FixBuild
import CryptoTrader.Spec.Wire

/-! Deribit's market data as it is meant: what a repetition of the entries group says, and
the messages that carry a list of entries. The parser is not used to say it. -/

namespace CryptoTrader

open CryptoTrader.Fix

def sideCode : Side → Int
  | .bid => 0
  | .ask => 1

def actionCode : L2Operation → Int
  | .new => 0
  | .change => 1
  | .delete => 2

/-- The tags of an entry. -/
def entryTags (isSnapshot : Bool) : List ℕ := if isSnapshot then snapshotEntryTags else incrementalEntryTags

/-- The tag every entry starts with: the type of a level, the action of an update. -/
def entryTag (isSnapshot : Bool) : ℕ := if isSnapshot then Tag.kMdEntryType else Tag.kMdUpdateAction

/-- A snapshot or a batch of updates. -/
def bookMessage (isSnapshot : Bool) (symbol : Bytes) (updates : List L2Update) : DeribitFixBookMessage :=
  if isSnapshot then .snapshot symbol ⟨updates⟩ else .update symbol updates

def marketDataType (isSnapshot : Bool) : Bytes :=
  if isSnapshot then MsgType.kMarketDataSnapshotFullRefresh else MsgType.kMarketDataIncrementalRefresh

section Says

variable {N D : Type} (P : Platform N D) (scale : InstrumentScale)

/-- The size of a repetition: a decimal that is not negative. A Delete needs none. -/
def StatesSize (entry : GroupEntry) (operation : L2Operation) (size : D) : Prop :=
  match entry.get Tag.kMdEntrySize with
  | some text => P.parseDecimal text = some size ∧ P.isNegative size = false
  | none => operation = .delete ∧ size = P.zero

/-- The update a repetition says. A snapshot's entries are levels, so they have no action. -/
structure Says (isSnapshot : Bool) (entry : GroupEntry) (update : L2Update) : Prop where
  operation : if isSnapshot then update.operation = .new
    else entry.getInt Tag.kMdUpdateAction = some (actionCode update.operation)
  side : entry.getInt Tag.kMdEntryType = some (sideCode update.side)
  price : ∃ price, (entry.get Tag.kMdEntryPx).bind P.parseDecimal = some price ∧
    update.price = P.scaled scale.priceDecimals price
  quantity : ∃ size, StatesSize P entry update.operation size ∧ update.quantity = P.scaled scale.quantityDecimals size

end Says

/-- One entry as it is written. The size and the date may be missing. -/
structure EntryText where
  action : Bytes
  type : Bytes
  price : Bytes
  size : Option Bytes
  date : Option Bytes
  deriving DecidableEq, Repr

/-- An entry of a snapshot has no action. -/
def EntryText.fields (isSnapshot : Bool) (entry : EntryText) : List Field :=
  (if isSnapshot then [] else [⟨Tag.kMdUpdateAction, entry.action⟩]) ++
    [⟨Tag.kMdEntryType, entry.type⟩, ⟨Tag.kMdEntryPx, entry.price⟩] ++
    (entry.size.map (FieldView.mk Tag.kMdEntrySize)).toList ++ (entry.date.map (FieldView.mk Tag.kMdEntryDate)).toList

/-- The tags of the fields around the group that mean something to the parser. -/
def reservedTags : List ℕ := [Tag.kCheckSum, Tag.kMsgType, Tag.kSymbol, Tag.kNoMdEntries]

/-- A market data message: its entries, and other fields around the symbol and the group. -/
structure MarketDataText where
  isSnapshot : Bool
  symbol : Bytes
  header : List Field
  between : List Field
  entries : List EntryText
  trailer : List Field
  symbol_ne_nil : symbol ≠ []
  symbol_soh : kSoh ∉ symbol
  other_tag : ∀ one ∈ header ++ between ++ trailer, one.tag < 2 ^ 31 ∧ one.tag ∉ reservedTags
  trailer_tag : ∀ one ∈ trailer, one.tag ∉ entryTags isSnapshot
  other_soh : ∀ one ∈ header ++ between ++ trailer, kSoh ∉ one.value
  entries_soh : ∀ entry ∈ entries, ∀ one ∈ entry.fields isSnapshot, kSoh ∉ one.value

namespace MarketDataText

def fields (message : MarketDataText) : List Field :=
  ⟨Tag.kMsgType, marketDataType message.isSnapshot⟩ :: (message.header ++ ⟨Tag.kSymbol, message.symbol⟩ ::
    (message.between ++ ⟨Tag.kNoMdEntries, natText message.entries.length⟩ ::
      (message.entries.flatMap (EntryText.fields message.isSnapshot) ++ message.trailer)))

def payload (message : MarketDataText) : Bytes := buildMessage message.fields

end MarketDataText

/-- An entry as its sender means it. -/
structure LevelEntry where
  side : Side
  price : Bytes
  size : Option Bytes
  operation : L2Operation
  date : Option Bytes
  deriving DecidableEq, Repr

def sideText : Side → Bytes
  | .bid => ascii "0"
  | .ask => ascii "1"

def actionText : L2Operation → Bytes
  | .new => ascii "0"
  | .change => ascii "1"
  | .delete => ascii "2"

def LevelEntry.text (entry : LevelEntry) : EntryText :=
  ⟨actionText entry.operation, sideText entry.side, entry.price, entry.size, entry.date⟩

section Meaning

variable {N D : Type} (P : Platform N D) (scale : InstrumentScale) (isSnapshot : Bool)

/-- The size that is meant. Only a Delete may leave it out. -/
def LevelEntry.size? (entry : LevelEntry) : Option D :=
  match entry.size with
  | some text => (P.parseDecimal text).filter fun size => !P.isNegative size
  | none => if isSnapshot = false ∧ entry.operation = .delete then some P.zero else none

/-- The update that is meant, if its decimals are usable. -/
def LevelEntry.update? (entry : LevelEntry) : Option L2Update := do
  let price ← P.parseDecimal entry.price
  let size ← entry.size? P isSnapshot
  return ⟨entry.side, P.scaled scale.priceDecimals price, P.scaled scale.quantityDecimals size,
    if isSnapshot then .new else entry.operation⟩

/-- An entry that makes its message malformed. -/
inductive EntryText.Bad (entry : EntryText) : Prop
  | type (h : toInt entry.type ≠ some 0 ∧ toInt entry.type ≠ some 1)
  | action (hupdate : isSnapshot = false)
      (h : toInt entry.action ≠ some 0 ∧ toInt entry.action ≠ some 1 ∧ toInt entry.action ≠ some 2)
  | price (h : P.parseDecimal entry.price = none)
  | size (text : Bytes) (htext : entry.size = some text) (h : P.parseDecimal text = none)
  | negative (text : Bytes) (htext : entry.size = some text) (size : D) (hsize : P.parseDecimal text = some size)
      (h : P.isNegative size = true)
  | missing (hsize : entry.size = none) (h : isSnapshot = true ∨ toInt entry.action ≠ some 2)

end Meaning

end CryptoTrader
