import CryptoTrader.Spec.Engine
import Mathlib.Order.Nat

/-! The order-by-order book (`order_book/l3_policy.h`). `at` on a missing key throws
in the source and an `assert` stops it, so every operation that uses one returns an
`Except`: an `ok` result says that no lookup failed on the way. -/

namespace CryptoTrader

structure L3Update where
  event : OrderEventKind
  orderId : OrderId
  side : Side
  price : Price
  quantity : Quantity
  deriving DecidableEq, Repr

/-- `event` is ignored: every entry is a resting order. -/
structure L3Snapshot where
  orders : List L3Update
  deriving DecidableEq, Repr

structure OrderRecord where
  side : Side
  price : Price
  quantity : Quantity
  deriving DecidableEq, Repr

/-- The failures the source's `at` and `assert` stand for. -/
inductive L3Fault where
  | noOrder (orderId : OrderId)
  | noLevel (side : Side) (price : Price)
  deriving DecidableEq, Repr

/-- The members of `L3Policy`. A depth of `none` is `kUnlimitedDepth`. -/
structure L3State where
  maxDepth : Option ℕ
  levels : PerSide fun s => LevelMap s (List OrderId)
  orderIndex : OrdMap OrderId OrderRecord (· < ·)

/-- At most `depth` items from the front of a list. -/
def limitTo {α : Type} : Option ℕ → List α → List α
  | none, l => l
  | some depth, l => l.take depth

namespace L3State

def init (maxDepth : Option ℕ) : L3State := ⟨maxDepth, ⟨OrdMap.empty, OrdMap.empty⟩, OrdMap.empty⟩

def setLevels (st : L3State) (s : Side) (levels : LevelMap s (List OrderId)) : L3State :=
  { st with levels := st.levels.set s levels }

/-- `order_index_.at`. -/
def orderAt (st : L3State) (id : OrderId) : Except L3Fault OrderRecord :=
  match st.orderIndex.find? id with
  | some record => .ok record
  | none => .error (.noOrder id)

/-- `bid_levels_.at`, `ask_levels_.at` and the lookup `RemoveOrderFromLevel` asserts on. -/
def levelAt (st : L3State) (s : Side) (price : Price) : Except L3Fault (List OrderId) :=
  match (st.levels.get s).find? price with
  | some ids => .ok ids
  | none => .error (.noLevel s price)

def levelAggregate (st : L3State) : List OrderId → Except L3Fault Quantity
  | [] => .ok 0
  | id :: ids => do
    let record ← st.orderAt id
    let rest ← st.levelAggregate ids
    return record.quantity + rest

def best (st : L3State) (s : Side) : Except L3Fault (Option BookEntry) :=
  match (st.levels.get s).entries with
  | [] => .ok none
  | (price, ids) :: _ => do return some ⟨price, ← st.levelAggregate ids⟩

def orderEntries (st : L3State) (price : Price) : List OrderId → Except L3Fault (List BookEntry)
  | [] => .ok []
  | id :: ids => do
    let record ← st.orderAt id
    let rest ← st.orderEntries price ids
    return ⟨price, record.quantity⟩ :: rest

def levelEntries (st : L3State) : List (Price × List OrderId) → Except L3Fault (List BookEntry)
  | [] => .ok []
  | (price, ids) :: levels => do
    let here ← st.orderEntries price ids
    let rest ← st.levelEntries levels
    return here ++ rest

def entriesOf (st : L3State) (s : Side) (maxLevels : Option ℕ) : Except L3Fault (List BookEntry) :=
  st.levelEntries (limitTo maxLevels (st.levels.get s).entries)

def getBookView (st : L3State) (maxLevels : Option ℕ) : Except L3Fault BookView := do
  return ⟨← st.entriesOf .bid maxLevels, ← st.entriesOf .ask maxLevels⟩

/-- `Levels(side)`: the order ids per level, best level first. -/
def levelsOf (st : L3State) (s : Side) : List (Price × List OrderId) := (st.levels.get s).entries

def orderQuantity (st : L3State) (id : OrderId) : Option Quantity :=
  (st.orderIndex.find? id).map (·.quantity)

/-- Levels past `max_depth_` are dropped with the orders they hold. -/
def truncateToDepth (st : L3State) (s : Side) : L3State :=
  match st.maxDepth with
  | none => st
  | some depth =>
    if (st.levels.get s).size ≤ depth then st
    else
      let dropped := ((st.levels.get s).entries.drop depth).flatMap (·.2)
      { st.setLevels s ((st.levels.get s).take depth) with
        orderIndex := dropped.foldl (fun index id => index.erase id) st.orderIndex }

/-- Called with the order already out of the index. -/
def removeOrderFromLevel (st : L3State) (cs : ChangeSet) (s : Side) (price : Price) (id : OrderId) :
    Except L3Fault (L3State × ChangeSet) := do
  let ids ← st.levelAt s price
  let rest := ids.filter (· ≠ id)
  let cs := cs.pushEvent ⟨.deleted, id, s, price, 0⟩
  if rest.isEmpty then
    return (st.setLevels s ((st.levels.get s).erase price), cs.pushLevel ⟨s, price, none⟩)
  else
    let st := st.setLevels s ((st.levels.get s).insert price rest)
    let total ← st.levelAggregate rest
    return (st, cs.pushLevel ⟨s, price, some total⟩)

def addOrderToLevel (st : L3State) (cs : ChangeSet) (u : L3Update) : Except L3Fault (L3State × ChangeSet) := do
  let ids := ((st.levels.get u.side).find? u.price).getD [] ++ [u.orderId]
  let st := st.setLevels u.side ((st.levels.get u.side).insert u.price ids)
  let cs := cs.pushEvent ⟨.added, u.orderId, u.side, u.price, u.quantity⟩
  let total ← st.levelAggregate ids
  return (st, cs.pushLevel ⟨u.side, u.price, some total⟩)

/-- Removes a tracked order from the index and from its level. -/
def forgetOrder (st : L3State) (cs : ChangeSet) (id : OrderId) (old : OrderRecord) :
    Except L3Fault (L3State × ChangeSet) :=
  removeOrderFromLevel { st with orderIndex := st.orderIndex.erase id } cs old.side old.price id

/-- The part of `AddOrder` before the insertion: an id that is already tracked is
removed first, since a depth-limited feed announces an order again when it
re-enters the window. -/
def forgetStale (st : L3State) (cs : ChangeSet) (id : OrderId) : Except L3Fault (L3State × ChangeSet) :=
  match st.orderIndex.find? id with
  | some old => st.forgetOrder cs id old
  | none => .ok (st, cs)

def addOrder (st : L3State) (cs : ChangeSet) (u : L3Update) : Except L3Fault (L3State × ChangeSet) := do
  let (st, cs) ← st.forgetStale cs u.orderId
  let index := st.orderIndex.insert u.orderId ⟨u.side, u.price, u.quantity⟩
  addOrderToLevel { st with orderIndex := index } cs u

def modifyOrder (st : L3State) (cs : ChangeSet) (u : L3Update) : Except L3Fault (L3State × ChangeSet) :=
  match st.orderIndex.find? u.orderId with
  | none => .ok (st, cs.report .unknownOrder)
  | some old => do
    let st := { st with orderIndex := st.orderIndex.insert u.orderId { old with quantity := u.quantity } }
    let cs := cs.pushEvent ⟨.modified, u.orderId, old.side, old.price, u.quantity⟩
    let ids ← st.levelAt old.side old.price
    let total ← st.levelAggregate ids
    return (st, cs.pushLevel ⟨old.side, old.price, some total⟩)

def deleteOrder (st : L3State) (cs : ChangeSet) (u : L3Update) : Except L3Fault (L3State × ChangeSet) :=
  match st.orderIndex.find? u.orderId with
  | none => .ok (st, cs.report .unknownOrder)
  | some old => st.forgetOrder cs u.orderId old

def applyUpdate (st : L3State) (cs : ChangeSet) (u : L3Update) : Except L3Fault (L3State × ChangeSet) :=
  match u.event with
  | .added => st.addOrder cs u
  | .modified => st.modifyOrder cs u
  | .deleted => st.deleteOrder cs u

def addAll (st : L3State) (cs : ChangeSet) : List L3Update → Except L3Fault (L3State × ChangeSet)
  | [] => .ok (st, cs)
  | u :: us => do
    let (st, cs) ← st.addOrder cs u
    st.addAll cs us

def applyAll (st : L3State) (cs : ChangeSet) : List L3Update → Except L3Fault (L3State × ChangeSet)
  | [] => .ok (st, cs)
  | u :: us => do
    let (st, cs) ← st.applyUpdate cs u
    st.applyAll cs us

def applySnapshot (st : L3State) (snapshot : L3Snapshot) : Except L3Fault (L3State × ChangeSet) := do
  let (st, cs) ← (init st.maxDepth).addAll {} snapshot.orders
  let st := (st.truncateToDepth .bid).truncateToDepth .ask
  let crossed := isCrossed (← st.best .bid) (← st.best .ask)
  return (st, { cs with
    bidTopOfBookChanged := true
    askTopOfBookChanged := true
    integrityIssue := if crossed then reportIssue cs.integrityIssue .crossedBook else cs.integrityIssue })

/-- One batch, then the truncation a depth-limited feed leaves to its client. -/
def applyBatch (st : L3State) (updates : List L3Update) : Except L3Fault (L3State × ChangeSet) := do
  let oldBestBid ← st.best .bid
  let oldBestAsk ← st.best .ask
  let (st, cs) ← st.applyAll {} updates
  let st := (st.truncateToDepth .bid).truncateToDepth .ask
  let newBestBid ← st.best .bid
  let newBestAsk ← st.best .ask
  return (st, { cs with
    bidTopOfBookChanged := oldBestBid != newBestBid
    askTopOfBookChanged := oldBestAsk != newBestAsk
    integrityIssue :=
      if isCrossed newBestBid newBestAsk then reportIssue cs.integrityIssue .crossedBook
      else cs.integrityIssue })

end L3State

end CryptoTrader
