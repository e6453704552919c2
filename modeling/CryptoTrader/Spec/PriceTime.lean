import CryptoTrader.Spec.Types
import Mathlib.Data.List.Dedup
import Mathlib.Data.List.Sort
import Mathlib.Algebra.BigOperators.Group.List.Basic
import Mathlib.Algebra.Order.Ring.Int

/-! What an order-by-order book is for: orders in arrival order under price-time
priority. A book is the plain list of its resting orders, oldest first; levels,
queues and the depth window are read off the list. -/

namespace CryptoTrader

/-- A resting order. -/
structure Order where
  id : OrderId
  side : Side
  price : Price
  quantity : Quantity
  deriving DecidableEq, Repr

namespace PriceTime

/-- The orders resting at a price, oldest first. -/
def level (L : List Order) (s : Side) (p : Price) : List Order :=
  L.filter fun o => o.side = s ∧ o.price = p

/-- The queue at a price. -/
def queue (L : List Order) (s : Side) (p : Price) : List OrderId := (level L s p).map (·.id)

/-- The aggregate quantity at a price, `none` where nothing rests. -/
def volume (L : List Order) (s : Side) (p : Price) : Option Quantity :=
  if level L s p = [] then none else some ((level L s p).map (·.quantity)).sum

/-- The distinct prices of a side. -/
def prices (L : List Order) (s : Side) : List Price := ((L.filter (·.side = s)).map (·.price)).dedup

/-- How many distinct prices of the side are better than `p`. -/
def rank (L : List Order) (s : Side) (p : Price) : ℕ := ((prices L s).filter (s.better · p)).length

/-- The best price of a side and what rests there. -/
def best (L : List Order) (s : Side) : Option BookEntry :=
  ((prices L s).find? fun p => rank L s p = 0).map fun p => ⟨p, ((level L s p).map (·.quantity)).sum⟩

def lookup (L : List Order) (id : OrderId) : Option Order := L.find? (·.id = id)

/-- An order joins the back of its queue, leaving the place it had before. -/
def add (L : List Order) (o : Order) : List Order := L.filter (·.id ≠ o.id) ++ [o]

def modify (L : List Order) (id : OrderId) (q : Quantity) : List Order :=
  L.map fun o => if o.id = id then { o with quantity := q } else o

def delete (L : List Order) (id : OrderId) : List Order := L.filter (·.id ≠ id)

/-- The order's level is one of the best `depth` of its side. -/
def InWindow (depth : Option ℕ) (L : List Order) (s : Side) (p : Price) : Prop :=
  ∀ d, depth = some d → rank L s p < d

instance (depth : Option ℕ) (L : List Order) (s : Side) (p : Price) : Decidable (InWindow depth L s p) :=
  match depth with
  | none => isTrue (by rintro d ⟨⟩)
  | some d => decidable_of_iff (rank L s p < d) (by simp [InWindow])

def truncateSide (depth : Option ℕ) (s : Side) (L : List Order) : List Order :=
  L.filter fun o => o.side = s → InWindow depth L s o.price

/-- Only the best `depth` levels per side are kept. -/
def truncate (depth : Option ℕ) (L : List Order) : List Order :=
  L.filter fun o => InWindow depth L o.side o.price

/-- The distinct prices of a side, best first. -/
def levelPrices (L : List Order) (s : Side) : List Price := (prices L s).insertionSort fun a b => ¬ s.better b a

/-- The orders of a side in priority order: by price, then by arrival. -/
def priority (L : List Order) (s : Side) : List Order := (levelPrices L s).flatMap (level L s)

/-- The book as a view shows it. -/
def view (L : List Order) : BookView :=
  ⟨(priority L .bid).map fun o => ⟨o.price, o.quantity⟩, (priority L .ask).map fun o => ⟨o.price, o.quantity⟩⟩

theorem mem_prices {L : List Order} {s : Side} {p : Price} :
    p ∈ prices L s ↔ ∃ o ∈ L, o.side = s ∧ o.price = p := by
  simp only [prices, List.mem_dedup, List.mem_map, List.mem_filter, decide_eq_true_eq, and_assoc]

theorem prices_nodup (L : List Order) (s : Side) : (prices L s).Nodup := List.nodup_dedup _

theorem mem_level {L : List Order} {s : Side} {p : Price} {o : Order} :
    o ∈ level L s p ↔ o ∈ L ∧ o.side = s ∧ o.price = p := by
  simp [level]

theorem queue_eq_nil {L : List Order} {s : Side} {p : Price} : queue L s p = [] ↔ p ∉ prices L s := by
  rw [queue, List.map_eq_nil_iff, mem_prices, List.eq_nil_iff_forall_not_mem]
  simp only [mem_level, not_and, not_exists]

theorem lookup_eq_some {L : List Order} (hnd : (L.map (·.id)).Nodup) {id : OrderId} {o : Order} :
    lookup L id = some o ↔ o ∈ L ∧ o.id = id := by
  induction L with
  | nil => simp [lookup]
  | cons a L ih =>
    rw [List.map_cons, List.nodup_cons] at hnd
    simp only [lookup, List.find?_cons, List.mem_cons] at ih ⊢
    by_cases ha : a.id = id
    · simp only [ha, decide_true, Option.some.injEq]
      refine ⟨fun h => h ▸ ⟨Or.inl rfl, ha⟩, ?_⟩
      rintro ⟨rfl | ho, hid⟩
      · rfl
      · exact absurd (List.mem_map.2 ⟨o, ho, hid.trans ha.symm⟩) hnd.1
    · simp only [ha, decide_false, ih hnd.2]
      refine ⟨fun h => ⟨Or.inr h.1, h.2⟩, ?_⟩
      rintro ⟨rfl | ho, hid⟩
      · exact absurd hid ha
      · exact ⟨ho, hid⟩

theorem lookup_eq_none {L : List Order} {id : OrderId} : lookup L id = none ↔ id ∉ L.map (·.id) := by
  simp [lookup, List.find?_eq_none]

theorem mem_of_lookup {L : List Order} {id : OrderId} {o : Order} (h : lookup L id = some o) : id ∈ L.map (·.id) := by
  by_contra hid
  rw [lookup_eq_none.2 hid] at h
  cases h

section Ops

variable {L : List Order} {s : Side} {p : Price}

theorem delete_of_not_mem {id : OrderId} (h : id ∉ L.map (·.id)) : delete L id = L :=
  List.filter_eq_self.2 fun o ho => by
    simpa using fun he : o.id = id => h (List.mem_map.2 ⟨o, ho, he⟩)

theorem add_eq (L : List Order) (o : Order) : add L o = delete L o.id ++ [o] := rfl

theorem mem_delete {id : OrderId} {o : Order} : o ∈ delete L id ↔ o ∈ L ∧ o.id ≠ id := by
  simp [delete]

theorem delete_nodup (h : (L.map (·.id)).Nodup) (id : OrderId) : ((delete L id).map (·.id)).Nodup :=
  h.sublist (List.filter_sublist.map _)

theorem add_nodup (h : (L.map (·.id)).Nodup) (o : Order) : ((add L o).map (·.id)).Nodup := by
  rw [add_eq, List.map_append, List.map_singleton, List.nodup_append]
  refine ⟨delete_nodup h o.id, by simp, ?_⟩
  intro a ha b hb hab
  obtain ⟨x, hx, rfl⟩ := List.mem_map.1 ha
  exact (mem_delete.1 hx).2 (hab.trans (List.mem_singleton.1 hb))

theorem map_id_modify (L : List Order) (id : OrderId) (q : Quantity) :
    (modify L id q).map (·.id) = L.map (·.id) := by
  simp only [modify, List.map_map]
  exact List.map_congr_left fun o _ => by simp only [Function.comp]; split_ifs <;> rfl

theorem level_delete (L : List Order) (id : OrderId) (s : Side) (p : Price) :
    level (delete L id) s p = (level L s p).filter (·.id ≠ id) := by
  simp only [level, delete, List.filter_filter, Bool.and_comm]

theorem queue_delete (L : List Order) (id : OrderId) (s : Side) (p : Price) :
    queue (delete L id) s p = (queue L s p).filter (· ≠ id) := by
  rw [queue, queue, level_delete, List.filter_map]
  rfl

/-- Deleting an order leaves every queue but its own as it was. -/
theorem queue_delete_of_ne (hnd : (L.map (·.id)).Nodup) {o : Order} (ho : o ∈ L)
    (hne : ¬ (o.side = s ∧ o.price = p)) : queue (delete L o.id) s p = queue L s p := by
  rw [queue_delete, List.filter_eq_self]
  intro a ha
  obtain ⟨x, hx, rfl⟩ := List.mem_map.1 ha
  have hmem := mem_level.1 hx
  suffices x.id ≠ o.id by simpa using this
  intro he
  exact hne (List.inj_on_of_nodup_map hnd hmem.1 ho he ▸ hmem.2)

theorem queue_append (L : List Order) (o : Order) (s : Side) (p : Price) :
    queue (L ++ [o]) s p = queue L s p ++ if o.side = s ∧ o.price = p then [o.id] else [] := by
  simp only [queue, level, List.filter_append, List.map_append]
  by_cases h : o.side = s ∧ o.price = p <;> simp [h]

theorem level_modify (L : List Order) (id : OrderId) (q : Quantity) (s : Side) (p : Price) :
    level (modify L id q) s p = modify (level L s p) id q := by
  simp only [level, modify, List.filter_map]
  congr 1
  exact List.filter_congr fun o _ => by simp only [Function.comp]; split_ifs <;> rfl

theorem queue_modify (L : List Order) (id : OrderId) (q : Quantity) (s : Side) (p : Price) :
    queue (modify L id q) s p = queue L s p := by
  rw [queue, level_modify, map_id_modify, queue]

theorem lookup_delete (L : List Order) (id k : OrderId) :
    lookup (delete L id) k = if k = id then none else lookup L k := by
  split_ifs with h
  · subst h
    exact lookup_eq_none.2 fun hm => by
      obtain ⟨o, ho, he⟩ := List.mem_map.1 hm
      exact (mem_delete.1 ho).2 he
  · simp only [lookup, delete, List.find?_filter]
    congr 1
    funext o
    by_cases ho : o.id = k
    · simp [ho, h]
    · simp [ho]

theorem lookup_append {o : Order} (h : o.id ∉ L.map (·.id)) (k : OrderId) :
    lookup (L ++ [o]) k = if k = o.id then some o else lookup L k := by
  simp only [lookup, List.find?_append]
  split_ifs with hk
  · subst hk
    rw [show L.find? (fun x => decide (x.id = o.id)) = none from lookup_eq_none.2 h]
    simp
  · have ho : ¬ o.id = k := fun e => hk e.symm
    simp [ho]

theorem lookup_modify (L : List Order) (id k : OrderId) (q : Quantity) :
    lookup (modify L id q) k = (lookup L k).map fun o => if o.id = id then { o with quantity := q } else o := by
  simp only [lookup, modify, List.find?_map]
  congr 2
  funext o
  simp only [Function.comp]
  split_ifs <;> rfl

theorem modify_of_not_mem {id : OrderId} (h : id ∉ L.map (·.id)) (q : Quantity) : modify L id q = L := by
  refine (List.map_congr_left fun o ho => ?_).trans (List.map_id L)
  rw [if_neg fun he => h (List.mem_map.2 ⟨o, ho, he⟩)]
  rfl

theorem mem_truncateSide {depth : Option ℕ} {o : Order} :
    o ∈ truncateSide depth s L ↔ o ∈ L ∧ (o.side = s → InWindow depth L s o.price) := by
  simp [truncateSide, imp_iff_not_or]

theorem truncateSide_nodup (h : (L.map (·.id)).Nodup) (depth : Option ℕ) (s : Side) :
    ((truncateSide depth s L).map (·.id)).Nodup :=
  h.sublist (List.filter_sublist.map _)

/-- Truncation keeps a level whole or drops it whole. -/
theorem level_truncateSide (depth : Option ℕ) (s t : Side) (p : Price) :
    level (truncateSide depth s L) t p = if t = s → InWindow depth L s p then level L t p else [] := by
  simp only [level, truncateSide, List.filter_filter]
  split_ifs with h
  · refine List.filter_congr fun o _ => ?_
    by_cases ho : o.side = t ∧ o.price = p
    · obtain ⟨rfl, rfl⟩ := ho
      simpa [imp_iff_not_or] using h
    · simp [ho]
  · refine List.filter_eq_nil_iff.2 fun o _ => ?_
    simp only [Bool.and_eq_true, decide_eq_true_eq, not_and]
    rintro ⟨rfl, rfl⟩
    exact h

theorem prices_truncateSide_ne (depth : Option ℕ) {s t : Side} (h : t ≠ s) :
    prices (truncateSide depth s L) t = prices L t := by
  unfold prices truncateSide
  rw [List.filter_filter]
  congr 2
  refine List.filter_congr fun o _ => ?_
  by_cases ho : o.side = t
  · simp [ho, h]
  · simp [ho]

/-- The sides are truncated independently. -/
theorem truncateSide_bid_ask (depth : Option ℕ) (L : List Order) :
    truncateSide depth .ask (truncateSide depth .bid L) = truncate depth L := by
  have hwin (p : Price) : InWindow depth (truncateSide depth .bid L) .ask p ↔ InWindow depth L .ask p := by
    unfold InWindow rank
    rw [prices_truncateSide_ne depth (by decide)]
  have hask : truncateSide depth .ask (truncateSide depth .bid L) =
      (truncateSide depth .bid L).filter fun o => o.side = .ask → InWindow depth L .ask o.price :=
    List.filter_congr fun o _ => by simp only [hwin]
  rw [hask, truncateSide, truncate, List.filter_filter]
  refine List.filter_congr fun o _ => ?_
  cases ho : o.side <;> simp

/-- Fewer orders leave no price further down. -/
theorem rank_le_of_subset {L' : List Order} (h : L' ⊆ L) (s : Side) (p : Price) : rank L' s p ≤ rank L s p := by
  have hsub : (prices L' s).filter (s.better · p) ⊆ (prices L s).filter (s.better · p) := by
    intro q hq
    obtain ⟨hq, hbetter⟩ := List.mem_filter.1 hq
    obtain ⟨o, ho, hop⟩ := mem_prices.1 hq
    exact List.mem_filter.2 ⟨mem_prices.2 ⟨o, h ho, hop⟩, hbetter⟩
  exact (List.subperm_of_subset ((prices_nodup _ _).filter _) hsub).length_le

theorem mem_truncate {depth : Option ℕ} {o : Order} :
    o ∈ truncate depth L ↔ o ∈ L ∧ InWindow depth L o.side o.price := by
  simp [truncate]

theorem truncate_nodup (h : (L.map (·.id)).Nodup) (depth : Option ℕ) : ((truncate depth L).map (·.id)).Nodup :=
  h.sublist (List.filter_sublist.map _)

end Ops

end PriceTime

end CryptoTrader
