import CryptoTrader.Spec.L3

/-! A consumer that mirrors a book from the change sets alone: it applies the level changes
to its own levels and the order events to its own orders. This is what change sets are for;
the source leaves it to its listeners. -/

namespace CryptoTrader

/-- The levels of both sides with their aggregate quantities. -/
abbrev LevelMirror := PerSide fun s => LevelMap s Quantity

namespace LevelMirror

def empty : LevelMirror := ⟨OrdMap.empty, OrdMap.empty⟩

/-- Sets the level's quantity, or deletes the level. -/
def apply (m : LevelMirror) (change : LevelChange) : LevelMirror :=
  m.set change.side (match change.quantity with
    | some quantity => (m.get change.side).insert change.price quantity
    | none => (m.get change.side).erase change.price)

/-- Only the best `depth` levels per side. -/
def keepBest (depth : Option ℕ) (m : LevelMirror) : LevelMirror :=
  match depth with
  | none => m
  | some depth => ⟨m.bid.take depth, m.ask.take depth⟩

theorem find?_empty (s : Side) (p : Price) : (empty.get s).find? p = none := by
  cases s <;> rfl

theorem find?_apply (m : LevelMirror) (change : LevelChange) (s : Side) (p : Price) :
    ((m.apply change).get s).find? p =
      if s = change.side ∧ p = change.price then change.quantity else (m.get s).find? p := by
  obtain ⟨side, price, quantity⟩ := change
  by_cases hs : s = side
  · subst hs
    cases quantity <;> simp [apply]
  · rw [if_neg fun h => hs h.1, apply, PerSide.get_set_ne _ _ hs]

theorem find?_keepBest (m : LevelMirror) (depth : ℕ) (s : Side) (p : Price) :
    ((m.keepBest (some depth)).get s).find? p =
      if ((m.get s).keys.filter fun a => s.better a p).length < depth then (m.get s).find? p else none := by
  cases s <;> exact OrdMap.find?_take _ _ _

end LevelMirror

/-- The orders by id. -/
abbrev OrderMirror := OrdMap OrderId OrderRecord (· < ·)

namespace OrderMirror

def apply (m : OrderMirror) (event : OrderEvent) : OrderMirror :=
  match event.kind with
  | .added => m.insert event.orderId ⟨event.side, event.price, event.quantity⟩
  | .modified =>
    match m.find? event.orderId with
    | some order => m.insert event.orderId { order with quantity := event.quantity }
    | none => m
  | .deleted => m.erase event.orderId

/-- Drops the orders of the levels past the best `depth`. -/
def dropCut (depth : Option ℕ) (levels : LevelMirror) (m : OrderMirror) : OrderMirror :=
  match depth with
  | none => m
  | some depth => m.filter fun _ order => order.price ∉ (levels.get order.side).keys.drop depth

end OrderMirror

namespace L3State

/-- The aggregate quantity of a level, `none` where there is no level. -/
def aggregateAt (st : L3State) (s : Side) (price : Price) : Except L3Fault (Option Quantity) :=
  match (st.levels.get s).find? price with
  | none => .ok none
  | some ids => do return some (← st.levelAggregate ids)

/-- A mirror holds the book's levels with their aggregates, and no other level. -/
def MirroredBy (st : L3State) (m : LevelMirror) : Prop := ∀ s p, st.aggregateAt s p = .ok ((m.get s).find? p)

end L3State

end CryptoTrader
