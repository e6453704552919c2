import CryptoTrader.Proofs.L3Consistent
import CryptoTrader.Sanity.Window

/-! The order-by-order book is a price-time book. Its reference is the plain list of resting
orders, in the order they came: every query of the policy is a query of the list, after any
sequence of snapshots and batches. -/

namespace CryptoTrader

open PriceTime

namespace PriceTime

/-- The levels of a side, best first, each with its queue. -/
def levels (L : List Order) (s : Side) : List (Price × List OrderId) := (levelPrices L s).map fun p => (p, queue L s p)

/-- The orders on the best levels of a side, level by level. -/
def sideView (L : List Order) (s : Side) (maxLevels : Option ℕ) : List BookEntry :=
  (limitTo maxLevels (levelPrices L s)).flatMap fun p => (level L s p).map fun o => ⟨o.price, o.quantity⟩

end PriceTime

/-- What a call leaves of the reference book. -/
def L3Call.orders (depth : Option ℕ) (L : List Order) : L3Call → List Order
  | .snapshot snap => truncate depth (snap.orders.foldl (fun L u => add L u.order) [])
  | .batch updates => truncate depth (updates.foldl updateOrders L)

/-- The reference book after a list of calls. -/
def referenceBook (depth : Option ℕ) (calls : List L3Call) : List Order := calls.foldl (L3Call.orders depth) []

/-- The issue a call reports. Only a batch can name an order that does not rest. -/
def L3Call.issue (depth : Option ℕ) (L : List Order) (call : L3Call) : Option IntegrityIssue :=
  if (match call with
    | .snapshot _ => false
    | .batch updates => anyUnknown L updates) then some .unknownOrder
  else if isCrossed (best (call.orders depth L) .bid) (best (call.orders depth L) .ask) then some .crossedBook
  else none

namespace Rep

variable {L : List Order} {st : L3State}

theorem keys_eq (h : Rep L st) (s : Side) : (st.levels.get s).keys = levelPrices L s :=
  eq_levelPrices (st.levels.get s).keys_pairwise (h.keys_perm s)

/-- The level map is the list of queues, best price first. -/
theorem levelsOf_eq (h : Rep L st) (s : Side) : st.levelsOf s = PriceTime.levels L s := by
  have hentry : ∀ e ∈ (st.levels.get s).entries, e = (e.1, queue L s e.1) := by
    rintro ⟨p, ids⟩ he
    obtain ⟨-, rfl⟩ := h.mem_entries.1 he
    rfl
  calc st.levelsOf s = (st.levels.get s).entries.map fun e => (e.1, queue L s e.1) :=
        ((List.map_congr_left fun e he => (hentry e he).symm).trans (List.map_id _)).symm
    _ = (st.levels.get s).keys.map fun p => (p, queue L s p) := by rw [OrdMap.keys, List.map_map]; rfl
    _ = PriceTime.levels L s := by rw [h.keys_eq, PriceTime.levels]

theorem orderQuantity_eq (h : Rep L st) (id : OrderId) :
    st.orderQuantity id = (lookup L id).map (·.quantity) := by
  rw [L3State.orderQuantity, h.index, Option.map_map]
  rfl

theorem levelView_eq (L : List Order) (s : Side) (p : Price) :
    levelView L s p = (level L s p).map fun o => ⟨o.price, o.quantity⟩ := by
  refine List.map_congr_left fun o ho => ?_
  rw [(mem_level.1 ho).2.2]

theorem getBookView_eq (h : Rep L st) (maxLevels : Option ℕ) :
    st.getBookView maxLevels = .ok ⟨sideView L .bid maxLevels, sideView L .ask maxLevels⟩ := by
  have hside : ∀ s, (limitTo maxLevels (st.levels.get s).keys).flatMap (levelView L s) = sideView L s maxLevels := by
    intro s
    rw [h.keys_eq, sideView]
    exact List.flatMap_congr fun p _ => levelView_eq L s p
  rw [h.getBookView, hside, hside]

/-- A call on a represented book is the reference call on its list. -/
theorem call_orders (h : Rep L st) (call : L3Call) :
    ∃ st' cs, st.call call = .ok (st', cs) ∧ cs.integrityIssue = call.issue st.maxDepth L ∧
      Rep (call.orders st.maxDepth L) st' ∧ st'.maxDepth = st.maxDepth := by
  cases call with
  | snapshot snapshot =>
    obtain ⟨st', hok, hrep, hdepth⟩ := Rep.applySnapshot st snapshot
    exact ⟨st', _, hok, rfl, hrep, hdepth⟩
  | batch updates =>
    obtain ⟨st', hok, hrep, hdepth⟩ := h.applyBatch updates
    refine ⟨st', _, hok, ?_, hrep, hdepth⟩
    change crossedIssue (batchOrders st.maxDepth L updates) _ = _
    rw [L3Call.issue, crossedIssue]
    by_cases hunknown : anyUnknown L updates = true
    · rw [if_pos hunknown, if_pos hunknown]
      exact ite_self _
    · rw [if_neg hunknown, if_neg hunknown]
      rfl

theorem run_orders (h : Rep L st) (calls : List L3Call) :
    ∃ st', st.run calls = .ok st' ∧ Rep (calls.foldl (L3Call.orders st.maxDepth) L) st' ∧
      st'.maxDepth = st.maxDepth := by
  induction calls generalizing L st with
  | nil => exact ⟨st, rfl, h, rfl⟩
  | cons call calls ih =>
    obtain ⟨st', cs, hok, -, hrep, hdepth⟩ := h.call_orders call
    obtain ⟨final, hrun, hfinal, hsame⟩ := ih hrep
    rw [hdepth] at hfinal hsame
    exact ⟨final, by rw [L3State.run, hok]; exact hrun, hfinal, hsame⟩

end Rep

/-- A new book after its calls represents the reference book. -/
theorem run_represents (depth : Option ℕ) (calls : List L3Call) :
    ∃ st, (L3State.init depth).run calls = .ok st ∧ Rep (referenceBook depth calls) st ∧ st.maxDepth = depth :=
  (Rep.init depth).run_orders calls

/-- The book implements price-time priority: after any calls its queries are those of the
reference list, and the next call reports what the list says. -/
theorem l3_policy_is_price_time (depth : Option ℕ) (calls : List L3Call) :
    ∃ st, (L3State.init depth).run calls = .ok st ∧
      (∀ s, st.levelsOf s = levels (referenceBook depth calls) s) ∧
      (∀ id, st.orderQuantity id = (lookup (referenceBook depth calls) id).map (·.quantity)) ∧
      (∀ k, st.getBookView k =
        .ok ⟨sideView (referenceBook depth calls) .bid k, sideView (referenceBook depth calls) .ask k⟩) ∧
      (∀ s, st.best s = .ok (best (referenceBook depth calls) s)) ∧
      ∀ call, ∃ st' cs, st.call call = .ok (st', cs) ∧
        cs.integrityIssue = call.issue depth (referenceBook depth calls) := by
  obtain ⟨st, hrun, hrep, hdepth⟩ := run_represents depth calls
  refine ⟨st, hrun, hrep.levelsOf_eq, hrep.orderQuantity_eq, hrep.getBookView_eq, hrep.best, fun call => ?_⟩
  obtain ⟨st', cs, hok, hissue, -⟩ := hrep.call_orders call
  rw [hdepth] at hissue
  exact ⟨st', cs, hok, hissue⟩

end CryptoTrader
