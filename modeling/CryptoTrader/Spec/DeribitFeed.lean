import CryptoTrader.Spec.KrakenFeed
import CryptoTrader.Spec.MarketData

/-! What Deribit sends on one FIX connection about a symbol: a snapshot of the aggregated
book and from then on every move of one of its levels, as FIX messages with decimals. -/

namespace CryptoTrader

open CryptoTrader.Fix

/-- The exchange's book: the quantity on each level. -/
abbrev AggregateBook := Side → Price → Option Quantity

namespace AggregateBook

def set (book : AggregateBook) (side : Side) (price : Price) (quantity : Option Quantity) : AggregateBook :=
  fun s p => if s = side ∧ p = price then quantity else book s p

/-- No bid is at or above an offer. -/
def Uncrossed (book : AggregateBook) : Prop :=
  ∀ bid ask, (book .bid bid).isSome = true → (book .ask ask).isSome = true → bid < ask

end AggregateBook

/-- A snapshot lists every level once. -/
structure DescribesLevels (levels : List L2Update) (book : AggregateBook) : Prop where
  operation : ∀ level ∈ levels, level.operation = .new
  listed : ∀ side price quantity, book side price = some quantity ↔ ⟨side, price, quantity, .new⟩ ∈ levels

/-- One level is new, changes or goes. -/
inductive DescribesMove (book : AggregateBook) : L2Update → AggregateBook → Prop where
  | new (side : Side) (price : Price) (quantity : Quantity) (habsent : book side price = none) :
      DescribesMove book ⟨side, price, quantity, .new⟩ (book.set side price (some quantity))
  | change (side : Side) (price : Price) (quantity : Quantity) (hthere : (book side price).isSome = true) :
      DescribesMove book ⟨side, price, quantity, .change⟩ (book.set side price (some quantity))
  | delete (side : Side) (price : Price) (quantity : Quantity) (hthere : (book side price).isSome = true) :
      DescribesMove book ⟨side, price, quantity, .delete⟩ (book.set side price none)

/-- A message lists moves in their order. -/
inductive DescribesMoves : AggregateBook → List L2Update → AggregateBook → Prop where
  | nil (book : AggregateBook) : DescribesMoves book [] book
  | cons {book next last : AggregateBook} {update : L2Update} {updates : List L2Update}
      (hmove : DescribesMove book update next) (hmoves : DescribesMoves next updates last) :
      DescribesMoves book (update :: updates) last

section Messages

variable (libraries : WireLibraries) (scale : InstrumentScale)

/-- A text that states a number of units as a decimal. -/
structure TextStates (text : Bytes) (units : ℤ) (decimals : ℕ) : Prop where
  read : libraries.readDecimal text = some ((units : ℚ) / 10 ^ decimals)
  small : |units| < kExactUnits

/-- An entry that states a level or a move. A Delete may leave the size out. -/
structure StatesLevel (isSnapshot : Bool) (entry : LevelEntry) (update : L2Update) : Prop where
  side : entry.side = update.side
  operation : update.operation = if isSnapshot then .new else entry.operation
  price : TextStates libraries entry.price update.price scale.priceDecimals
  quantity : (∃ text, entry.size = some text ∧ 0 ≤ update.quantity ∧
      TextStates libraries text update.quantity scale.quantityDecimals) ∨
    (isSnapshot = false ∧ entry.operation = .delete ∧ entry.size = none ∧ update.quantity = 0)

/-- A market data message that states the levels or moves of a symbol. -/
def SendsLevels (isSnapshot : Bool) (payload symbol : Bytes) (updates : List L2Update) : Prop :=
  ∃ (message : MarketDataText) (entries : List LevelEntry),
    message.payload = payload ∧ payload.length < 2 ^ 64 ∧ message.isSnapshot = isSnapshot ∧ message.symbol = symbol ∧
    message.entries = entries.map LevelEntry.text ∧ List.Forall₂ (StatesLevel libraries scale isSnapshot) entries updates

/-- A FIX message of another type: a heartbeat, a logon and so on. -/
def SendsOtherType (payload : Bytes) : Prop :=
  ∃ message, parseMessage payload = .ok message ∧
    ∀ isSnapshot, message.msgType ≠ marketDataType isSnapshot

variable (symbol : Bytes)

/-- What one connection has sent, and the exchange's book of the symbol as of its last
message. -/
inductive DeribitFeed : List Bytes → Option AggregateBook → Prop where
  | opened : DeribitFeed [] none
  | other {payloads book} (payload : Bytes) (hother : SendsOtherType payload) (hfeed : DeribitFeed payloads book) :
      DeribitFeed (payloads ++ [payload]) book
  | elsewhere {payloads book} (payload : Bytes) (isSnapshot : Bool) (instrument : Bytes) (updates : List L2Update)
      (hsent : SendsLevels libraries scale isSnapshot payload instrument updates) (helsewhere : instrument ≠ symbol)
      (hfeed : DeribitFeed payloads book) : DeribitFeed (payloads ++ [payload]) book
  | snapshot {payloads book} (payload : Bytes) (levels : List L2Update) (e : AggregateBook)
      (hsent : SendsLevels libraries scale true payload symbol levels) (hlevels : DescribesLevels levels e)
      (huncrossed : e.Uncrossed) (hfeed : DeribitFeed payloads book) : DeribitFeed (payloads ++ [payload]) (some e)
  | update {payloads} (payload : Bytes) (updates : List L2Update) (e e' : AggregateBook)
      (hsent : SendsLevels libraries scale false payload symbol updates) (hmoves : DescribesMoves e updates e')
      (huncrossed : e'.Uncrossed) (hfeed : DeribitFeed payloads (some e)) : DeribitFeed (payloads ++ [payload]) (some e')

end Messages

end CryptoTrader
