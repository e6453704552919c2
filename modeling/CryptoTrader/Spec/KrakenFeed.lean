import CryptoTrader.Spec.DoubleScale
import CryptoTrader.Spec.Exchange

/-! What Kraken sends on one socket about a symbol: level3 messages that state orders in
decimals, a snapshot of the window, and from then on one for every move of the exchange's
book. -/

namespace CryptoTrader

/-- Doubles carry every integer number of units below it, twice rounded. -/
def kExactUnits : ℤ := 2 ^ 51

def OrderEventKind.wireText : OrderEventKind → Bytes
  | .added => ascii "add"
  | .modified => ascii "modify"
  | .deleted => ascii "delete"

section Messages

variable (libraries : WireLibraries) (scale : InstrumentScale)

/-- A member that states a number of units as a decimal. -/
structure StatesUnits (entry : Json ℚ) (key : Bytes) (units : ℤ) (decimals : ℕ) : Prop where
  member : entry.member? key = some (.num (units / 10 ^ decimals))
  small : |units| < kExactUnits

/-- An entry that states an order event. In a snapshot it names no event. -/
structure StatesOrder (side : Side) (entry : Json ℚ) (u : KrakenL3Update) : Prop where
  event : entry.member? (ascii "event") = some (.str u.update.event.wireText) ∨
    entry.member? (ascii "event") = none ∧ u.update.event = .added
  orderId : ∃ raw, entry.member? (ascii "order_id") = some (.str raw) ∧ libraries.hashOrderId raw = u.update.orderId
  side : u.update.side = side
  limitPrice : StatesUnits entry (ascii "limit_price") u.update.price scale.priceDecimals
  orderQty : StatesUnits entry (ascii "order_qty") u.update.quantity scale.quantityDecimals
  timestamp : entry.member? (ascii "timestamp") = some (.str u.timestamp)

/-- A `data` entry, with the bids before the asks. -/
structure StatesData (isSnapshot : Bool) (data : Json ℚ) (m : KrakenL3Message) : Prop where
  kind : m.isSnapshot = isSnapshot
  symbol : data.member? (ascii "symbol") = some (.str m.symbol)
  checksum : data.member? (ascii "checksum") = some (.num m.msgMeta.checksum.toNat)
  orders : ∃ bids asks bidUpdates askUpdates,
    data.member? (ascii "bids") = some (.arr bids) ∧ data.member? (ascii "asks") = some (.arr asks) ∧
    m.orders = bidUpdates ++ askUpdates ∧
    List.Forall₂ (StatesOrder libraries scale .bid) bids bidUpdates ∧
    List.Forall₂ (StatesOrder libraries scale .ask) asks askUpdates

/-- A level3 message. -/
structure StatesMessage (isSnapshot : Bool) (message : Json ℚ) (messages : List KrakenL3Message) : Prop where
  channel : message.member? (ascii "channel") = some (.str (ascii "level3"))
  type : message.member? (ascii "type") = some (.str (if isSnapshot then ascii "snapshot" else ascii "update"))
  data : ∃ entries, message.member? (ascii "data") = some (.arr entries) ∧
    List.Forall₂ (StatesData libraries scale isSnapshot) entries messages

/-- A payload that states level3 messages. -/
def SendsMessages (isSnapshot : Bool) (payload : Bytes) (messages : List KrakenL3Message) : Prop :=
  ∃ message, libraries.parseJson payload = some message ∧ StatesMessage libraries scale isSnapshot message messages

/-- A payload that is no level3 message. -/
def SendsOther (payload : Bytes) : Prop :=
  ∃ message, libraries.parseJson payload = some message ∧
    (message.member? (ascii "channel") = none ∨
      ∃ channel, message.member? (ascii "channel") = some (.str channel) ∧ channel ≠ ascii "level3")

variable (depth : ℕ) (symbol : Bytes)

/-- What one socket has sent, and the exchange's book of the symbol as of its last message.
A frame may carry other symbols too. -/
inductive KrakenFeed : List Bytes → Option ExchangeBook → Prop where
  | opened : KrakenFeed [] none
  | other {payloads book} (payload : Bytes) (hother : SendsOther libraries payload) (hfeed : KrakenFeed payloads book) :
      KrakenFeed (payloads ++ [payload]) book
  | silent {payloads book} (payload : Bytes) (isSnapshot : Bool) (messages : List KrakenL3Message)
      (hsent : SendsMessages libraries scale isSnapshot payload messages) (hsilent : ∀ m ∈ messages, m.symbol ≠ symbol)
      (hfeed : KrakenFeed payloads book) : KrakenFeed (payloads ++ [payload]) book
  | snapshot {payloads book} (payload : Bytes) (messages : List KrakenL3Message) (m : KrakenL3Message) (e : ExchangeBook)
      (hsent : SendsMessages libraries scale true payload messages) (hm : messages.filter (·.symbol = symbol) = [m])
      (hwindow : DescribesWindow depth e ⟨m.snapshot, m.msgMeta⟩) (hfeed : KrakenFeed payloads book) :
      KrakenFeed (payloads ++ [payload]) (some e)
  | update {payloads} (payload : Bytes) (messages : List KrakenL3Message) (m : KrakenL3Message) (e e' : ExchangeBook)
      (hsent : SendsMessages libraries scale false payload messages) (hm : messages.filter (·.symbol = symbol) = [m])
      (hmoves : ExchangeStep depth e e') (hstep : DescribesStep depth e e' ⟨m.orders, m.msgMeta⟩)
      (hfeed : KrakenFeed payloads (some e)) : KrakenFeed (payloads ++ [payload]) (some e')

end Messages

end CryptoTrader
