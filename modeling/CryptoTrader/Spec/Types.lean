import CryptoTrader.Lib.OrdMap
import Mathlib.Algebra.Order.Ring.Int

/-! The order book's vocabulary (`order_book/types.h`, `order_book/book_view.h`).
Prices, quantities and order ids are the source's integers: prices and ids are
only compared, quantities are only summed. -/

namespace CryptoTrader

/-- Wire bytes, symbols and texts taken from the wire. -/
abbrev Bytes := List UInt8

/-- The bytes of a text of the source. -/
def ascii (text : String) : Bytes := text.toList.map fun c => c.toNat.toUInt8

/-- `std::to_string` of a natural number. -/
def natText (n : ℕ) : Bytes := (Nat.toDigits 10 n).map fun c => c.toNat.toUInt8

/-- `std::to_string` of a signed integer. -/
def intText (i : Int) : Bytes := if i < 0 then '-'.toNat.toUInt8 :: natText i.natAbs else natText i.natAbs

inductive Side where
  | bid
  | ask
  deriving DecidableEq, Repr

abbrev Price := Int
abbrev Quantity := Int
abbrev OrderId := Nat

/-- The comparator of a side's level map: `std::greater` for bids, `std::less`
for asks, so that the first level is always the best one. -/
def Side.better : Side → Int → Int → Prop
  | .bid, a, b => b < a
  | .ask, a, b => a < b

instance (s : Side) : DecidableRel s.better := fun a b =>
  match s with
  | .bid => inferInstanceAs (Decidable (b < a))
  | .ask => inferInstanceAs (Decidable (a < b))

instance (s : Side) : IsStrictTotalOrder Int s.better where
  irrefl a := by cases s <;> simp [Side.better]
  trans a b c := by cases s <;> simp only [Side.better] <;> intro h1 h2 <;> omega
  trichotomous a b := by cases s <;> simp only [Side.better] <;> intro h1 h2 <;> omega

/-- One side's levels, best first. -/
abbrev LevelMap (s : Side) (ν : Type) := OrdMap Price ν s.better

/-- One value for each side, as the `bids_`/`asks_` members are. -/
structure PerSide (β : Side → Type) where
  bid : β .bid
  ask : β .ask

namespace PerSide

variable {β : Side → Type}

def get (p : PerSide β) : (s : Side) → β s
  | .bid => p.bid
  | .ask => p.ask

def set (p : PerSide β) : (s : Side) → β s → PerSide β
  | .bid, v => { p with bid := v }
  | .ask, v => { p with ask := v }

@[simp] theorem get_set_self (p : PerSide β) (s : Side) (v : β s) : (p.set s v).get s = v := by
  cases s <;> rfl

theorem get_set_ne (p : PerSide β) {s t : Side} (v : β s) (h : t ≠ s) : (p.set s v).get t = p.get t := by
  cases s <;> cases t <;> first | rfl | exact absurd rfl h

@[simp] theorem set_get (p : PerSide β) (s : Side) : p.set s (p.get s) = p := by
  cases s <;> rfl

theorem ext_get {p q : PerSide β} (h : ∀ s, p.get s = q.get s) : p = q := by
  cases p; cases q
  have hb := h .bid
  have ha := h .ask
  simp only [get] at hb ha
  rw [hb, ha]

end PerSide

/-- One priced entry of a view: a level's aggregate (L2) or one order (L3). -/
structure BookEntry where
  price : Price
  quantity : Quantity
  deriving DecidableEq, Repr

structure BookView where
  bids : List BookEntry
  asks : List BookEntry
  deriving DecidableEq, Repr

/-- True when the best bid is at or above the best ask. -/
def isCrossed : Option BookEntry → Option BookEntry → Bool
  | some bid, some ask => decide (ask.price ≤ bid.price)
  | _, _ => false

theorem lt_of_not_crossed {bid ask : Option BookEntry} (h : isCrossed bid ask = false) :
    ∀ b a, bid = some b → ask = some a → b.price < a.price := by
  rintro b a rfl rfl
  simpa [isCrossed] using h

inductive IntegrityIssue where
  | gap
  | checksumMismatch
  | crossedBook
  | unknownOrder
  | unknownLevel
  deriving DecidableEq, Repr

/-- Records an issue unless one is already recorded. -/
def reportIssue (slot : Option IntegrityIssue) (issue : IntegrityIssue) : Option IntegrityIssue :=
  match slot with
  | none => some issue
  | some first => some first

@[simp] theorem reportIssue_ne_none (slot : Option IntegrityIssue) (issue : IntegrityIssue) :
    reportIssue slot issue ≠ none := by
  cases slot <;> simp [reportIssue]

inductive Readiness where
  | uninitialized
  | ready
  | desynced
  deriving DecidableEq, Repr

/-- A touched level's new aggregate, `none` when the level is gone. -/
structure LevelChange where
  side : Side
  price : Price
  quantity : Option Quantity
  deriving DecidableEq, Repr

inductive OrderEventKind where
  | added
  | modified
  | deleted
  deriving DecidableEq, Repr

structure OrderEvent where
  kind : OrderEventKind
  orderId : OrderId
  side : Side
  price : Price
  quantity : Quantity
  deriving DecidableEq, Repr

/-- The union of `L1ChangeSet`, `L2ChangeSet` and `L3ChangeSet`: the engine finds
the parts a policy's change set has by `requires`, and a part that is missing
there is empty here. -/
structure ChangeSet where
  bidTopOfBookChanged : Bool := false
  askTopOfBookChanged : Bool := false
  levelChanges : List LevelChange := []
  orderEvents : List OrderEvent := []
  integrityIssue : Option IntegrityIssue := none
  deriving DecidableEq, Repr

namespace ChangeSet

def pushLevel (cs : ChangeSet) (change : LevelChange) : ChangeSet :=
  { cs with levelChanges := cs.levelChanges ++ [change] }

def pushEvent (cs : ChangeSet) (event : OrderEvent) : ChangeSet :=
  { cs with orderEvents := cs.orderEvents ++ [event] }

def report (cs : ChangeSet) (issue : IntegrityIssue) : ChangeSet :=
  { cs with integrityIssue := reportIssue cs.integrityIssue issue }

@[simp] theorem pushLevel_integrityIssue (cs : ChangeSet) (change : LevelChange) :
    (cs.pushLevel change).integrityIssue = cs.integrityIssue := rfl

@[simp] theorem pushEvent_integrityIssue (cs : ChangeSet) (event : OrderEvent) :
    (cs.pushEvent event).integrityIssue = cs.integrityIssue := rfl

end ChangeSet

end CryptoTrader
