import CryptoTrader.Spec.Engine

/-! The top-of-book policy (`order_book/l1_policy.h`): the best entry of each side and
nothing else. The engine's `Apply` of one update is its batch. -/

namespace CryptoTrader

/-- A zero quantity means that the side has no active level. -/
structure L1Update where
  side : Side
  price : Price
  quantity : Quantity
  deriving DecidableEq, Repr

structure L1Snapshot where
  bid : Option BookEntry
  ask : Option BookEntry
  deriving DecidableEq, Repr

structure L1Policy where
  bid : Option BookEntry := none
  ask : Option BookEntry := none
  deriving DecidableEq, Repr

namespace L1Policy

def best (p : L1Policy) : Side → Option BookEntry
  | .bid => p.bid
  | .ask => p.ask

/-- Both sides are reported, whatever was there before. -/
def applySnapshot (_ : L1Policy) (snapshot : L1Snapshot) : L1Policy × ChangeSet :=
  (⟨snapshot.bid, snapshot.ask⟩, { bidTopOfBookChanged := true, askTopOfBookChanged := true })

def apply (p : L1Policy) (update : L1Update) : L1Policy × ChangeSet :=
  let newValue : Option BookEntry := if update.quantity = 0 then none else some ⟨update.price, update.quantity⟩
  if p.best update.side ≠ newValue then
    match update.side with
    | .bid => ({ p with bid := newValue }, { bidTopOfBookChanged := true })
    | .ask => ({ p with ask := newValue }, { askTopOfBookChanged := true })
  else (p, {})

instance : GranularityPolicy L1Policy L1Snapshot L1Update where
  best := best
  applySnapshot := applySnapshot
  applyBatch := apply

end L1Policy

end CryptoTrader
