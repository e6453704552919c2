import CryptoTrader.Spec.KrakenL3
import CryptoTrader.Sanity.Window

/-! The exchange a depth-limited Kraken feed describes: its full book, the window of
the best levels a subscriber sees, and what the feed sends when the book moves. -/

namespace CryptoTrader

/-- An order with the time it joined its queue. -/
structure ExchangeOrder where
  order : Order
  timestamp : Bytes
  deriving DecidableEq, Repr

/-- The order of timestamps, the one `arrivesBefore` uses. -/
def ExchangeOrder.key (x : ExchangeOrder) : List ℕ := x.timestamp.map UInt8.toNat

/-- A full book: never crossed, ids distinct, every queue in strict timestamp order. -/
structure ExchangeBook where
  orders : List ExchangeOrder
  nodup : (orders.map fun x => x.order.id).Nodup
  uncrossed : ∀ a ∈ orders, ∀ b ∈ orders, a.order.side = .bid → b.order.side = .ask → a.order.price < b.order.price
  queues : orders.Pairwise fun a b => a.order.side = b.order.side → a.order.price = b.order.price → a.key < b.key

namespace ExchangeBook

def resting (e : ExchangeBook) : List Order := e.orders.map (·.order)

def ids (e : ExchangeBook) : List OrderId := e.resting.map (·.id)

/-- The orders of the best `d` levels per side. -/
def window (d : ℕ) (e : ExchangeBook) : List Order := PriceTime.truncate (some d) e.resting

/-- The ids a subscriber of depth `d` knows. -/
def windowIds (d : ℕ) (e : ExchangeBook) : List OrderId := (e.window d).map (·.id)

end ExchangeBook

/-- `e'` comes after `e`: an order keeps its side and price, and on a level already
inside the window the orders that join queue behind the surviving ones. -/
structure ExchangeStep (d : ℕ) (e e' : ExchangeBook) : Prop where
  fixed : ∀ o ∈ e.resting, ∀ o' ∈ e'.resting, o.id = o'.id → o.side = o'.side ∧ o.price = o'.price
  joins : ∀ s, ∀ p ∈ PriceTime.prices (e.window d) s,
    PriceTime.queue e'.resting s p =
      (PriceTime.queue e.resting s p).filter (· ∈ e'.ids) ++ (PriceTime.queue e'.resting s p).filter (· ∉ e.ids)

/-- What one entry of a feed message says. A delete and a modify name their order by
its id alone. -/
inductive WindowEvent where
  | delete (id : OrderId)
  | modify (id : OrderId) (quantity : Quantity)
  | add (order : ExchangeOrder)
  deriving DecidableEq, Repr

/-- The order a feed event is about. -/
def WindowEvent.id : WindowEvent → OrderId
  | .delete id => id
  | .modify id _ => id
  | .add x => x.order.id

def KrakenL3Update.exchangeOrder (u : KrakenL3Update) : ExchangeOrder := ⟨u.update.order, u.timestamp⟩

def KrakenL3Update.windowEvent (u : KrakenL3Update) : WindowEvent :=
  match u.update.event with
  | .deleted => .delete u.update.orderId
  | .modified => .modify u.update.orderId u.update.quantity
  | .added => .add u.exchangeOrder

/-- What a subscriber of depth `d` is told when `e` becomes `e'`. Nothing is said about
an order whose level merely leaves the window. -/
def windowEvents (d : ℕ) (e e' : ExchangeBook) : List WindowEvent :=
  ((e.window d).filter fun o => o.id ∉ e'.ids).map (fun o => .delete o.id) ++
  ((e'.window d).filter fun o' => ∃ o ∈ e.window d, o.id = o'.id ∧ o.quantity ≠ o'.quantity).map
    (fun o' => .modify o'.id o'.quantity) ++
  (e'.orders.filter fun x => x.order ∈ e'.window d ∧ x.order.id ∉ e.windowIds d).map .add

/-- The snapshot lists the window in priority order, with its checksum. -/
structure DescribesWindow (d : ℕ) (e : ExchangeBook) (snap : KrakenSnapshot) : Prop where
  orders : ∀ s, (snap.snapshot.orders.map L3Update.order).filter (·.side = s) = PriceTime.priority (e.window d) s
  checksum : snap.msgMeta.checksum = krakenL3Checksum (PriceTime.view (e.window d))

/-- The batch carries the window's events in any order, with the new window's checksum. -/
structure DescribesStep (d : ℕ) (e e' : ExchangeBook) (batch : KrakenBatch) : Prop where
  events : (batch.updates.map KrakenL3Update.windowEvent).Perm (windowEvents d e e')
  checksum : batch.msgMeta.checksum = krakenL3Checksum (PriceTime.view (e'.window d))

end CryptoTrader
