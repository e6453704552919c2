import CryptoTrader.Spec.Engine

/-! The L2 books (`order_book/l2_policy.h`): the price levels both policies share,
the sequenced policy of a feed with change ids and the unsequenced one of a feed
without. `assert` is read as under NDEBUG: it checks nothing and changes nothing. -/

namespace CryptoTrader

abbrev ChangeId := Int

inductive L2Operation where
  | new
  | change
  | delete
  deriving DecidableEq, Repr

structure L2Update where
  side : Side
  price : Price
  quantity : Quantity
  operation : L2Operation
  deriving DecidableEq, Repr

structure ChangeIdMeta where
  changeId : ChangeId
  prevChangeId : ChangeId
  deriving DecidableEq, Repr

structure L2Snapshot where
  levels : List L2Update
  changeId : ChangeId
  deriving DecidableEq, Repr

structure UnsequencedL2Snapshot where
  levels : List L2Update
  deriving DecidableEq, Repr

/-- The arguments of one `L2Policy::ApplyBatch`. -/
structure L2Batch where
  updates : List L2Update
  msgMeta : ChangeIdMeta
  deriving DecidableEq, Repr

/-- Aggregated levels per side. -/
structure L2Levels where
  levels : PerSide fun s => LevelMap s Quantity

namespace L2Levels

def empty : L2Levels := ⟨⟨OrdMap.empty, OrdMap.empty⟩⟩

def bestOf {s : Side} (map : LevelMap s Quantity) : Option BookEntry :=
  map.entries.head?.map fun e => ⟨e.1, e.2⟩

def best (l : L2Levels) (side : Side) : Option BookEntry := bestOf (l.levels.get side)

/-- One level of a snapshot: a `Delete` is skipped. -/
def replaceOne (acc : L2Levels × List LevelChange) (level : L2Update) : L2Levels × List LevelChange :=
  if level.operation = .delete then acc
  else
    (⟨acc.1.levels.set level.side ((acc.1.levels.get level.side).insert level.price level.quantity)⟩,
      acc.2 ++ [⟨level.side, level.price, some level.quantity⟩])

def replaceWith (levels : List L2Update) : L2Levels × ChangeSet :=
  let (l, changes) := levels.foldl replaceOne (empty, [])
  (l, { bidTopOfBookChanged := true
        askTopOfBookChanged := true
        levelChanges := changes
        integrityIssue :=
          if isCrossed (l.best .bid) (l.best .ask) then reportIssue none .crossedBook else none })

/-- What `ApplyOne` does to its map and its change set. -/
def applyOneTo {s : Side} (map : LevelMap s Quantity) (update : L2Update) (changeSet : ChangeSet) :
    LevelMap s Quantity × ChangeSet :=
  if update.operation = .delete then
    if (map.find? update.price).isNone then
      (map, changeSet.report .unknownLevel)
    else
      (map.erase update.price, changeSet.pushLevel ⟨s, update.price, none⟩)
  else if update.operation = .change ∧ (map.find? update.price).isNone then
    (map, changeSet.report .unknownLevel)
  else
    -- a New on a tracked price is only asserted against, then assigned
    (map.insert update.price update.quantity, changeSet.pushLevel ⟨s, update.price, some update.quantity⟩)

def applyOne (acc : L2Levels × ChangeSet) (update : L2Update) : L2Levels × ChangeSet :=
  let (map, changeSet) := applyOneTo (acc.1.levels.get update.side) update acc.2
  (⟨acc.1.levels.set update.side map⟩, changeSet)

def applyUpdates (l : L2Levels) (updates : List L2Update) : L2Levels × ChangeSet :=
  let (l', changeSet) := updates.foldl applyOne (l, {})
  (l', { changeSet with
          bidTopOfBookChanged := l.best .bid != l'.best .bid
          askTopOfBookChanged := l.best .ask != l'.best .ask
          integrityIssue :=
            if isCrossed (l'.best .bid) (l'.best .ask) then reportIssue changeSet.integrityIssue .crossedBook
            else changeSet.integrityIssue })

end L2Levels

/-- The sequenced L2 book: `L2Levels` and the change id the next batch must follow. -/
structure L2Policy where
  levels : L2Levels
  lastChangeId : ChangeId

namespace L2Policy

def init : L2Policy := ⟨L2Levels.empty, 0⟩

def best (p : L2Policy) (side : Side) : Option BookEntry := p.levels.best side

def applySnapshot (_ : L2Policy) (snapshot : L2Snapshot) : L2Policy × ChangeSet :=
  let (levels, changeSet) := L2Levels.replaceWith snapshot.levels
  (⟨levels, snapshot.changeId⟩, changeSet)

def applyBatch (p : L2Policy) (batch : L2Batch) : L2Policy × ChangeSet :=
  if batch.msgMeta.prevChangeId ≠ p.lastChangeId then (p, { integrityIssue := some .gap })
  else
    let (levels, changeSet) := p.levels.applyUpdates batch.updates
    (⟨levels, batch.msgMeta.changeId⟩, changeSet)

instance : GranularityPolicy L2Policy L2Snapshot L2Batch where
  best := best
  applySnapshot := applySnapshot
  applyBatch := applyBatch

end L2Policy

/-- The L2 book of a feed that carries no change id. -/
structure UnsequencedL2Policy where
  levels : L2Levels

namespace UnsequencedL2Policy

def init : UnsequencedL2Policy := ⟨L2Levels.empty⟩

def best (p : UnsequencedL2Policy) (side : Side) : Option BookEntry := p.levels.best side

def applySnapshot (_ : UnsequencedL2Policy) (snapshot : UnsequencedL2Snapshot) :
    UnsequencedL2Policy × ChangeSet :=
  let (levels, changeSet) := L2Levels.replaceWith snapshot.levels
  (⟨levels⟩, changeSet)

def applyBatch (p : UnsequencedL2Policy) (updates : List L2Update) : UnsequencedL2Policy × ChangeSet :=
  let (levels, changeSet) := p.levels.applyUpdates updates
  (⟨levels⟩, changeSet)

instance : GranularityPolicy UnsequencedL2Policy UnsequencedL2Snapshot (List L2Update) where
  best := best
  applySnapshot := applySnapshot
  applyBatch := applyBatch

end UnsequencedL2Policy

end CryptoTrader
