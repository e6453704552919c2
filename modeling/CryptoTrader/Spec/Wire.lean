import CryptoTrader.Spec.KrakenL3
import CryptoTrader.Spec.L2
import CryptoTrader.Spec.FixMessage

/-! The wire parsers of the books: Kraken's level3 JSON (`order_book/kraken_l3_wire.h`)
and Deribit's FIX market data (`book_adapter/deribit_fix_book_wire.cpp`). An exception
of the Kraken parser is `none`: its text only reaches the log. -/

namespace CryptoTrader

/-- A parsed JSON value, over the numbers `N` of the JSON library. The members of an
object are listed in the library's iteration order. -/
inductive Json (N : Type) where
  | null
  | bool (value : Bool)
  | num (value : N)
  | str (value : Bytes)
  | arr (items : List (Json N))
  | obj (members : List (Bytes × Json N))

namespace Json

variable {N : Type}

/-- `contains` and `at`: a member of an object. -/
def member? (j : Json N) (key : Bytes) : Option (Json N) :=
  match j with
  | .obj members => (members.find? (·.1 = key)).map (·.2)
  | _ => none

/-- `get_ref<const std::string&>` and `get<std::string>`. -/
def string? : Json N → Option Bytes
  | .str value => some value
  | _ => none

/-- What a range-based `for` over the value visits: a primitive is its own only element. -/
def elements : Json N → List (Json N)
  | .null => []
  | .arr items => items
  | .obj members => members.map (·.2)
  | j => [j]

end Json

/-- What the parsers take from libraries and from floating point: the JSON library,
`std::from_chars` of a finite double, rounding to an instrument's scale and
`std::hash`. Nothing is assumed of it. -/
structure Platform (N D : Type) where
  parseJson : Bytes → Option (Json N)
  toDouble : N → D
  toUint32 : N → BitVec 32
  parseDecimal : Bytes → Option D
  zero : D
  isNegative : D → Bool
  /-- `llround(value * 10^decimals)`. -/
  scaled : ℕ → D → Int
  hashOrderId : Bytes → OrderId

structure InstrumentScale where
  priceDecimals : ℕ
  quantityDecimals : ℕ
  deriving DecidableEq, Repr

section Kraken

variable {N D : Type} (P : Platform N D) (scale : InstrumentScale)

/-- `get<double>`: any number, and nothing else. -/
def double? : Json N → Option D
  | .num value => some (P.toDouble value)
  | _ => none

/-- `get<std::uint32_t>`: any number, and a boolean as 0 or 1. -/
def uint32? : Json N → Option (BitVec 32)
  | .num value => some (P.toUint32 value)
  | .bool value => some (if value then 1#32 else 0#32)
  | _ => none

structure KrakenL3Message where
  isSnapshot : Bool
  symbol : Bytes
  msgMeta : ChecksumMeta
  orders : List KrakenL3Update
  deriving DecidableEq, Repr

def KrakenL3Message.snapshot (message : KrakenL3Message) : L3Snapshot := ⟨message.orders.map (·.update)⟩

def toEventKind (event : Bytes) : Option OrderEventKind :=
  if event = ascii "add" then some .added
  else if event = ascii "modify" then some .modified
  else if event = ascii "delete" then some .deleted
  else none

/-- A snapshot entry carries no event: every one is a resting order. -/
def entryEvent (entry : Json N) : Option OrderEventKind :=
  match entry.member? (ascii "event") with
  | some event => event.string?.bind toEventKind
  | none => some .added

def krakenEntry (side : Side) (entry : Json N) : Option KrakenL3Update := do
  let event ← entryEvent entry
  let orderId ← (← entry.member? (ascii "order_id")).string?
  let price ← double? P (← entry.member? (ascii "limit_price"))
  let quantity ← double? P (← entry.member? (ascii "order_qty"))
  let timestamp ← (← entry.member? (ascii "timestamp")).string?
  return ⟨⟨event, P.hashOrderId orderId, side, P.scaled scale.priceDecimals price,
    P.scaled scale.quantityDecimals quantity⟩, timestamp⟩

def appendSide (data : Json N) (side : Side) (key : Bytes) : Option (List KrakenL3Update) := do
  (← data.member? key).elements.mapM (krakenEntry P scale side)

def krakenData (isSnapshot : Bool) (data : Json N) : Option KrakenL3Message := do
  let symbol ← (← data.member? (ascii "symbol")).string?
  let checksum ← uint32? P (← data.member? (ascii "checksum"))
  let bids ← appendSide P scale data .bid (ascii "bids")
  let asks ← appendSide P scale data .ask (ascii "asks")
  return ⟨isSnapshot, symbol, ⟨checksum⟩, bids ++ asks⟩

/-- One message per `data` entry; none for anything that is not a level3 snapshot or
update. -/
def parseKrakenL3Messages (message : Json N) : Option (List KrakenL3Message) :=
  match message.member? (ascii "channel") with
  | none => some []
  | some channel => do
    if (← channel.string?) ≠ ascii "level3" then return []
    let type ← (← message.member? (ascii "type")).string?
    if type ≠ ascii "snapshot" ∧ type ≠ ascii "update" then return []
    (← message.member? (ascii "data")).elements.mapM (krakenData P scale (type = ascii "snapshot"))

/-- `ParseKrakenL3Messages(ParseWirePayload(payload))`. -/
def parseKrakenFrame (payload : Bytes) : Option (List KrakenL3Message) :=
  (P.parseJson payload).bind (parseKrakenL3Messages P scale)

end Kraken

section Deribit

open CryptoTrader.Fix

variable {N D : Type} (P : Platform N D) (scale : InstrumentScale)

/-- `DeribitFixBookMessage`: the kind decides which of its fields mean something. -/
inductive DeribitFixBookMessage where
  | ignored
  | snapshot (symbol : Bytes) (snapshot : UnsequencedL2Snapshot)
  | update (symbol : Bytes) (updates : List L2Update)
  deriving DecidableEq, Repr

/-- The symbol is empty when the message did not get far enough to name it. -/
structure DeribitFixParseError where
  what : String
  symbol : Bytes
  deriving DecidableEq, Repr

def snapshotEntryTags : List ℕ := [Tag.kMdEntryType, Tag.kMdEntryPx, Tag.kMdEntrySize, Tag.kMdEntryDate]

def incrementalEntryTags : List ℕ :=
  [Tag.kMdUpdateAction, Tag.kMdEntryType, Tag.kMdEntryPx, Tag.kMdEntrySize, Tag.kMdEntryDate]

def entryProblem (problem : String) (index : ℕ) : String := problem ++ " in entry " ++ toString index

def parseSide (entry : GroupEntry) (index : ℕ) : Except String Side :=
  match entry.getInt Tag.kMdEntryType with
  | none => .error (entryProblem "no usable MDEntryType(269)" index)
  | some 0 => .ok .bid
  | some 1 => .ok .ask
  | some _ => .error (entryProblem "MDEntryType(269) is neither bid nor offer" index)

def parsePrice (entry : GroupEntry) (index : ℕ) : Except String D :=
  match (entry.get Tag.kMdEntryPx).bind P.parseDecimal with
  | some price => .ok price
  | none => .error (entryProblem "no usable MDEntryPx(270)" index)

/-- The size of a Delete means nothing, so only a New or a Change needs one. -/
def parseSize (entry : GroupEntry) (index : ℕ) (operation : L2Operation) : Except String D :=
  match entry.get Tag.kMdEntrySize with
  | some text =>
    match P.parseDecimal text with
    | some size =>
      if P.isNegative size then .error (entryProblem "no usable MDEntrySize(271)" index) else .ok size
    | none => .error (entryProblem "no usable MDEntrySize(271)" index)
  | none =>
    if operation ≠ .delete then .error (entryProblem "no MDEntrySize(271)" index) else .ok P.zero

def parseEntry (entry : GroupEntry) (index : ℕ) (operation : L2Operation) : Except String L2Update := do
  let side ← parseSide entry index
  let price ← parsePrice P entry index
  let size ← parseSize P entry index operation
  return ⟨side, P.scaled scale.priceDecimals price, P.scaled scale.quantityDecimals size, operation⟩

def parseAction (entry : GroupEntry) (index : ℕ) : Except String L2Operation :=
  match entry.getInt Tag.kMdUpdateAction with
  | none => .error (entryProblem "no usable MDUpdateAction(279)" index)
  | some 0 => .ok .new
  | some 1 => .ok .change
  | some 2 => .ok .delete
  | some _ => .error (entryProblem "MDUpdateAction(279) is not New, Change or Delete" index)

/-- The entries group, refused when it ends short of its count. -/
def readEntries (message : ParsedMessage) (memberTags : List ℕ) : Except String RepeatingGroup := do
  let group ← readGroup message Tag.kNoMdEntries memberTags
  if group.truncated then
    .error ("NoMDEntries(268) declares " ++ toString group.declaredCount ++ " entries but " ++
      toString group.entries.length ++ " are present")
  else .ok group

/-- The loop over the entries. -/
def parseEntries (isSnapshot : Bool) : ℕ → List GroupEntry → Except String (List L2Update)
  | _, [] => .ok []
  | index, entry :: entries => do
    let operation ← if isSnapshot then .ok L2Operation.new else parseAction entry index
    let update ← parseEntry P scale entry index operation
    let rest ← parseEntries isSnapshot (index + 1) entries
    return update :: rest

/-- The part of the parser after the symbol, whose errors name it. -/
def parseMarketData (message : ParsedMessage) (isSnapshot : Bool) : Except String (List L2Update) := do
  let group ← readEntries message (if isSnapshot then snapshotEntryTags else incrementalEntryTags)
  parseEntries P scale isSnapshot 0 group.entries

def parseDeribitFixMessage (payload : Bytes) : Except DeribitFixParseError DeribitFixBookMessage :=
  match parseMessage payload with
  | .error what => .error ⟨what, []⟩
  | .ok parsed =>
    let isSnapshot := parsed.msgType = ascii "W"
    if ¬ isSnapshot ∧ parsed.msgType ≠ ascii "X" then .ok .ignored
    else
      match parsed.get Tag.kSymbol with
      | none | some [] => .error ⟨"market data message without a Symbol(55)", []⟩
      | some symbol =>
        match parseMarketData P scale parsed isSnapshot with
        | .error what => .error ⟨what, symbol⟩
        | .ok updates => .ok (if isSnapshot then .snapshot symbol ⟨updates⟩ else .update symbol updates)

end Deribit

end CryptoTrader
