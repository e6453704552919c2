import CryptoTrader.Spec.Types

/-! The engine every granularity plugs into (`order_book/engine.h`): the readiness
state machine and the translation of a policy's change set into listener calls.
The listener is the list of calls it receives; one that implements only some of
the hooks sees the sublist of its own. -/

namespace CryptoTrader

/-- What `OrderBook` asks of a granularity policy. `Snap` and `Batch` carry the
message's meta (a checksum, a change id) where the policy takes one. -/
class GranularityPolicy (π : Type) (Snap Batch : outParam Type) where
  best : π → Side → Option BookEntry
  applySnapshot : π → Snap → π × ChangeSet
  applyBatch : π → Batch → π × ChangeSet

inductive ListenerCall where
  | onTopOfBookChanged (side : Side) (best : Option BookEntry)
  | onLevelChanged (side : Side) (price : Price) (quantity : Quantity)
  | onLevelDeleted (side : Side) (price : Price)
  | onOrderAdded (orderId : OrderId) (side : Side) (price : Price) (quantity : Quantity)
  | onOrderModified (orderId : OrderId) (quantity : Quantity)
  | onOrderDeleted (orderId : OrderId)
  | onIntegrityCheckFailed (issue : IntegrityIssue)
  deriving DecidableEq, Repr

def notifyLevel (change : LevelChange) : ListenerCall :=
  match change.quantity with
  | some quantity => .onLevelChanged change.side change.price quantity
  | none => .onLevelDeleted change.side change.price

def notifyOrder (event : OrderEvent) : ListenerCall :=
  match event.kind with
  | .added => .onOrderAdded event.orderId event.side event.price event.quantity
  | .modified => .onOrderModified event.orderId event.quantity
  | .deleted => .onOrderDeleted event.orderId

structure OrderBook (π : Type) where
  policy : π
  readiness : Readiness := .uninitialized
  deriving DecidableEq, Repr

namespace OrderBook

variable {π Snap Batch : Type} [GranularityPolicy π Snap Batch]

def isReady (b : OrderBook π) : Bool := b.readiness = .ready

def best (b : OrderBook π) (side : Side) : Option BookEntry := GranularityPolicy.best b.policy side

def applyReadinessTransition (readiness : Readiness) (changeSet : ChangeSet) : Readiness :=
  if changeSet.integrityIssue.isSome then .desynced else readiness

def notify (policy : π) (changeSet : ChangeSet) : List ListenerCall :=
  (if changeSet.bidTopOfBookChanged then
    [.onTopOfBookChanged .bid (GranularityPolicy.best policy .bid)] else []) ++
  (if changeSet.askTopOfBookChanged then
    [.onTopOfBookChanged .ask (GranularityPolicy.best policy .ask)] else []) ++
  changeSet.levelChanges.map notifyLevel ++
  changeSet.orderEvents.map notifyOrder ++
  (match changeSet.integrityIssue with
    | some issue => [.onIntegrityCheckFailed issue]
    | none => [])

def applySnapshot (b : OrderBook π) (snapshot : Snap) : OrderBook π × List ListenerCall :=
  let (policy, changeSet) := GranularityPolicy.applySnapshot b.policy snapshot
  ({ policy, readiness := applyReadinessTransition .ready changeSet }, notify policy changeSet)

/-- A batch on a book that is not Ready is a defined no-op. -/
def applyBatch (b : OrderBook π) (batch : Batch) : OrderBook π × List ListenerCall :=
  if b.readiness ≠ .ready then (b, [])
  else
    let (policy, changeSet) := GranularityPolicy.applyBatch b.policy batch
    ({ policy, readiness := applyReadinessTransition b.readiness changeSet }, notify policy changeSet)

end OrderBook

/-- One call on an engine. -/
inductive EngineCall (Snap Batch : Type) where
  | snapshot (snap : Snap)
  | batch (batch : Batch)
  deriving DecidableEq, Repr

namespace OrderBook

variable {π Snap Batch : Type} [GranularityPolicy π Snap Batch]

def call (b : OrderBook π) : EngineCall Snap Batch → OrderBook π × List ListenerCall
  | .snapshot snap => b.applySnapshot snap
  | .batch batch => b.applyBatch batch

/-- The book after a sequence of calls. -/
def run (b : OrderBook π) (calls : List (EngineCall Snap Batch)) : OrderBook π :=
  calls.foldl (fun b c => (b.call c).1) b

/-- What the listener receives over a sequence of calls. -/
def heard (b : OrderBook π) : List (EngineCall Snap Batch) → List ListenerCall
  | [] => []
  | c :: cs => (b.call c).2 ++ heard (b.call c).1 cs

end OrderBook

end CryptoTrader
