import CryptoTrader.Lib.StableSort
import CryptoTrader.Spec.KrakenL3

/-! What a Kraken batch does as a whole: the reordering of its adds is a permutation
that leaves every other entry alone, and updates of distinct orders amount to
dropping, revising and appending. -/

namespace CryptoTrader

open PriceTime

def KrakenL3Update.isAdd (u : KrakenL3Update) : Bool := u.update.event = .added

/-- The adds fill the slots adds held. -/
theorem placeAdds_eq_fill (adds updates : List KrakenL3Update) :
    placeAdds adds updates = (StableSort.fill KrakenL3Update.isAdd adds updates).map (·.update) := by
  induction updates generalizing adds with
  | nil => rfl
  | cons u updates ih =>
    by_cases hu : u.update.event = .added
    · rw [placeAdds, if_pos hu, StableSort.fill, if_pos (by simpa [KrakenL3Update.isAdd] using hu), List.map_append, ih]
    · rw [placeAdds, if_neg hu, StableSort.fill, if_neg (by simpa [KrakenL3Update.isAdd] using hu), List.map_cons, ih]

theorem placeAdds_adds {adds updates : List KrakenL3Update} (hlen : adds.length = (updates.filter (·.isAdd)).length)
    (hadds : ∀ a ∈ adds, a.isAdd) :
    (placeAdds adds updates).filter (·.event = .added) = adds.map (·.update) := by
  rw [← List.countP_eq_length_filter] at hlen
  rw [placeAdds_eq_fill, List.filter_map]
  exact congrArg _ (StableSort.fill_filter hlen hadds)

/-- The adds of a message in the order of their timestamps. -/
def sortedAdds (updates : List KrakenL3Update) : List KrakenL3Update :=
  (updates.filter (·.isAdd)).insertionSort arrivesBefore

theorem sortedAdds_perm (updates : List KrakenL3Update) : (sortedAdds updates).Perm (updates.filter (·.isAdd)) :=
  List.perm_insertionSort _ _

theorem sortedAdds_pairwise (updates : List KrakenL3Update) : (sortedAdds updates).Pairwise arrivesBefore :=
  List.pairwise_insertionSort _ _

theorem mem_sortedAdds {updates : List KrakenL3Update} {u : KrakenL3Update} :
    u ∈ sortedAdds updates ↔ u ∈ updates ∧ u.isAdd := by
  rw [(sortedAdds_perm updates).mem_iff, List.mem_filter]

theorem addsInArrivalOrder_adds (updates : List KrakenL3Update) :
    (addsInArrivalOrder updates).filter (·.event = .added) = (sortedAdds updates).map (·.update) :=
  placeAdds_adds (sortedAdds_perm updates).length_eq fun _ ha => (mem_sortedAdds.1 ha).2

theorem addsInArrivalOrder_eq (updates : List KrakenL3Update) :
    addsInArrivalOrder updates = (StableSort.fill KrakenL3Update.isAdd (sortedAdds updates) updates).map (·.update) :=
  placeAdds_eq_fill _ _

theorem addsInArrivalOrder_perm (updates : List KrakenL3Update) :
    (addsInArrivalOrder updates).Perm (updates.map (·.update)) := by
  rw [addsInArrivalOrder_eq]
  exact (StableSort.fill_perm (sortedAdds_perm updates)).map _

/-- The batch takes the order out of its queue, for good or to add it again. -/
def droppedBy (us : List L3Update) (id : OrderId) : Bool := us.any fun u => u.event ≠ .modified ∧ u.orderId = id

/-- The order with the quantity the batch gives it. -/
def revisedBy (us : List L3Update) (o : Order) : Order :=
  match us.find? fun u => u.event = .modified ∧ u.orderId = o.id with
  | some u => { o with quantity := u.quantity }
  | none => o

theorem droppedBy_of_not_mem {us : List L3Update} {id : OrderId} (h : id ∉ us.map (·.orderId)) :
    droppedBy us id = false := by
  rw [droppedBy, List.any_eq_false]
  rintro u hu hd
  exact h (List.mem_map.2 ⟨u, hu, (of_decide_eq_true hd).2⟩)

theorem revisedBy_of_not_mem {us : List L3Update} {o : Order} (h : o.id ∉ us.map (·.orderId)) : revisedBy us o = o := by
  have hnone : us.find? (fun u => u.event = .modified ∧ u.orderId = o.id) = none := by
    rw [List.find?_eq_none]
    rintro u hu hd
    exact h (List.mem_map.2 ⟨u, hu, (of_decide_eq_true hd).2⟩)
  rw [revisedBy, hnone]

@[simp] theorem revisedBy_id (us : List L3Update) (o : Order) : (revisedBy us o).id = o.id := by
  unfold revisedBy
  split <;> rfl

@[simp] theorem revisedBy_side (us : List L3Update) (o : Order) : (revisedBy us o).side = o.side := by
  unfold revisedBy
  split <;> rfl

@[simp] theorem revisedBy_price (us : List L3Update) (o : Order) : (revisedBy us o).price = o.price := by
  unfold revisedBy
  split <;> rfl

theorem level_revisedBy (us : List L3Update) (L : List Order) (s : Side) (p : Price) :
    level (L.map (revisedBy us)) s p = (level L s p).map (revisedBy us) := by
  simp only [level, List.filter_map, Function.comp_def, revisedBy_side, revisedBy_price]

section Cons

variable {u : L3Update} {us : List L3Update}

theorem revisedBy_cons_of_ne (hev : u.event ≠ .modified) : revisedBy (u :: us) = revisedBy us :=
  funext fun o => by simp [revisedBy, hev]

theorem revisedBy_cons_modified (hev : u.event = .modified) {o : Order} (ho : o.id = u.orderId) :
    revisedBy (u :: us) o = { o with quantity := u.quantity } := by
  rw [revisedBy, List.find?_cons_of_pos (by simp [hev, ho])]

theorem revisedBy_cons_other {o : Order} (ho : o.id ≠ u.orderId) : revisedBy (u :: us) o = revisedBy us o := by
  rw [revisedBy, revisedBy, List.find?_cons_of_neg (by simp [ho.symm])]

theorem droppedBy_cons_modified (hev : u.event = .modified) (id : OrderId) :
    droppedBy (u :: us) id = droppedBy us id := by simp [droppedBy, hev]

/-- An add or a delete takes its own order out too. -/
theorem filter_droppedBy_cons (us : List L3Update) (hev : u.event ≠ .modified) (L : List Order) :
    (L.filter fun o => o.id ≠ u.orderId).filter (fun o => !droppedBy us o.id) =
      L.filter fun o => !droppedBy (u :: us) o.id := by
  rw [List.filter_filter]
  refine List.filter_congr fun o _ => ?_
  by_cases ho : o.id = u.orderId
  · simp [droppedBy, hev, ho]
  · have ho' : ¬ u.orderId = o.id := fun h => ho h.symm
    simp [droppedBy, ho, ho']

end Cons

/-- Updates of distinct orders: what is dropped goes, what is modified is revised in
place, and the adds are appended in their order. -/
theorem foldl_updateOrders {us : List L3Update} (hnd : (us.map (·.orderId)).Nodup) (L : List Order) :
    us.foldl updateOrders L =
      (L.filter fun o => !droppedBy us o.id).map (revisedBy us) ++
        (us.filter (·.event = .added)).map L3Update.order := by
  induction us generalizing L with
  | nil =>
    have hid : revisedBy [] = id := rfl
    simp [droppedBy, hid]
  | cons u us ih =>
    rw [List.map_cons, List.nodup_cons] at hnd
    rw [List.foldl_cons, ih hnd.2]
    -- the updates after it leave its order alone
    have hkeep (o : Order) (ho : o.id = u.orderId) : droppedBy us o.id = false ∧ revisedBy us o = o :=
      ⟨droppedBy_of_not_mem (ho ▸ hnd.1), revisedBy_of_not_mem (ho ▸ hnd.1)⟩
    cases hev : u.event with
    | added =>
      have hne : u.event ≠ .modified := by rw [hev]; decide
      obtain ⟨hdrop, hrev⟩ := hkeep u.order rfl
      have hfilter := filter_droppedBy_cons us hne L
      simp only [updateOrders, hev, add, List.filter_append, List.map_append, revisedBy_cons_of_ne hne]
      rw [List.filter_cons_of_pos (by simp [hdrop]), List.filter_nil, List.map_singleton, hrev,
        List.filter_cons_of_pos (by simp [hev]), List.map_cons, List.append_assoc, List.singleton_append, ← hfilter]
      rfl
    | modified =>
      have hrevised (o : Order) : revisedBy us (if o.id = u.orderId then { o with quantity := u.quantity } else o) =
          revisedBy (u :: us) o := by
        split_ifs with ho
        · rw [(hkeep { o with quantity := u.quantity } ho).2, revisedBy_cons_modified hev ho]
        · rw [revisedBy_cons_other ho]
      have hid (o : Order) : (if o.id = u.orderId then { o with quantity := u.quantity } else o).id = o.id := by
        split_ifs <;> rfl
      simp only [updateOrders, hev, PriceTime.modify, List.filter_map, Function.comp_def, List.map_map, hid,
        droppedBy_cons_modified hev]
      rw [List.filter_cons_of_neg (by simp [hev])]
      congr 1
      exact List.map_congr_left fun o _ => hrevised o
    | deleted =>
      have hne : u.event ≠ .modified := by rw [hev]; decide
      have hfilter := filter_droppedBy_cons us hne L
      simp only [updateOrders, hev, delete, revisedBy_cons_of_ne hne]
      rw [List.filter_cons_of_neg (by simp [hev]), ← hfilter]

/-- Adding orders with distinct ids to an empty book lists them. -/
theorem foldl_add {us : List L3Update} (hnd : (us.map (·.orderId)).Nodup) (L : List Order)
    (hL : ∀ u ∈ us, u.orderId ∉ L.map (·.id)) :
    us.foldl (fun L u => add L u.order) L = L ++ us.map L3Update.order := by
  induction us generalizing L with
  | nil => simp
  | cons u us ih =>
    rw [List.map_cons, List.nodup_cons] at hnd
    have hadd : add L u.order = L ++ [u.order] := by
      rw [add_eq, L3Update.order_id, delete_of_not_mem (hL u List.mem_cons_self)]
    rw [List.foldl_cons, hadd, ih hnd.2, List.append_assoc, List.singleton_append, List.map_cons]
    intro v hv hmem
    rw [List.map_append, List.mem_append, List.map_singleton, List.mem_singleton] at hmem
    rcases hmem with hmem | hmem
    · exact hL v (List.mem_cons_of_mem _ hv) hmem
    · exact hnd.1 (List.mem_map.2 ⟨v, hv, hmem⟩)

/-- Updates of distinct orders are all known if each one that needs its order has it
at the start. -/
theorem anyUnknown_eq_false {us : List L3Update} (hnd : (us.map (·.orderId)).Nodup) {L : List Order}
    (hus : ∀ u ∈ us, u.event ≠ .added → u.orderId ∈ L.map (·.id)) : anyUnknown L us = false := by
  induction us generalizing L with
  | nil => rfl
  | cons u us ih =>
    rw [List.map_cons, List.nodup_cons] at hnd
    have hu : unknownIn L u = false := by
      simp only [unknownIn, decide_eq_false_iff_not, not_and, not_not]
      exact hus u List.mem_cons_self
    rw [anyUnknown, hu, Bool.false_or]
    refine ih hnd.2 fun v hv hadd => ?_
    have hne : v.orderId ≠ u.orderId := fun h => hnd.1 (List.mem_map.2 ⟨v, hv, h⟩)
    obtain ⟨o, ho, hid⟩ := List.mem_map.1 (hus v (List.mem_cons_of_mem _ hv) hadd)
    have hou : o.id ≠ u.orderId := fun h => hne (hid.symm.trans h)
    cases hev : u.event with
    | added =>
      simp only [updateOrders, hev, add_eq, List.map_append, List.mem_append]
      exact Or.inl (List.mem_map.2 ⟨o, mem_delete.2 ⟨ho, hou⟩, hid⟩)
    | modified =>
      simp only [updateOrders, hev, map_id_modify]
      exact List.mem_map.2 ⟨o, ho, hid⟩
    | deleted =>
      simp only [updateOrders, hev]
      exact List.mem_map.2 ⟨o, mem_delete.2 ⟨ho, hou⟩, hid⟩

end CryptoTrader
