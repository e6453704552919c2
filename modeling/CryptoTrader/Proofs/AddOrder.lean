import CryptoTrader.Lib.StableSort
import CryptoTrader.Sanity.KrakenBatch

/-! What the reordering of a message's adds does to the events of one order. An add moves
to the place its arrival has among the message's adds. Its order's other events stay, so
they keep their order exactly if none of them lies on the way. -/

namespace CryptoTrader

/-- The events of one order. -/
def eventsOf (id : OrderId) (updates : List L3Update) : List L3Update := updates.filter (·.orderId = id)

/-- A modification or deletion of an order. -/
def KrakenL3Update.touches (id : OrderId) (u : KrakenL3Update) : Bool := !u.isAdd && u.update.orderId = id

/-- The number of adds listed before a place. -/
def addsBefore (updates : List KrakenL3Update) (place : ℕ) : ℕ := (updates.take place).countP (·.isAdd)

/-- The number of a message's adds that arrived before the one at a place: those with an
earlier timestamp, and those with the same that are listed before it. -/
def arrivalRank (updates : List KrakenL3Update) (place : ℕ) (add : KrakenL3Update) : ℕ :=
  (updates.take place).countP (fun u => u.isAdd ∧ arrivesBefore u add) +
    (updates.drop (place + 1)).countP fun u => u.isAdd ∧ ¬arrivesBefore add u

section Place

variable (id : OrderId)

/-- The events of an order that has no add. -/
def touchesOf (updates : List KrakenL3Update) : List L3Update := (updates.filter (·.touches id)).map (·.update)

/-- An add goes to the slot its place among the adds has among the slots. -/
theorem placeAdds_split {adds front : List KrakenL3Update} (hlength : adds.length = front.countP (·.isAdd))
    {slot : KrakenL3Update} (hslot : slot.isAdd = true) (add : KrakenL3Update) (later back : List KrakenL3Update) :
    placeAdds (adds ++ add :: later) (front ++ slot :: back) =
      placeAdds adds front ++ add.update :: placeAdds later back := by
  induction front generalizing adds with
  | nil =>
    obtain rfl := List.eq_nil_of_length_eq_zero hlength
    have hadded : slot.update.event = .added := of_decide_eq_true hslot
    simp [placeAdds, hadded]
  | cons u front ih =>
    by_cases hu : u.update.event = .added
    · rw [List.countP_cons_of_pos (by simpa [KrakenL3Update.isAdd] using hu)] at hlength
      obtain ⟨first, adds, rfl⟩ := List.exists_cons_of_length_eq_add_one hlength
      have hrest := ih (Nat.succ.inj hlength)
      simp [placeAdds, hu, hrest]
    · rw [List.countP_cons_of_neg (by simpa [KrakenL3Update.isAdd] using hu)] at hlength
      simp [placeAdds, hu, ih hlength]

variable {id}

/-- Adds of other orders do not show in the events of one. -/
theorem eventsOf_placeAdds {adds : List KrakenL3Update} (hother : ∀ add ∈ adds, add.update.orderId ≠ id)
    (updates : List KrakenL3Update) : eventsOf id (placeAdds adds updates) = touchesOf id updates := by
  induction updates generalizing adds with
  | nil => rfl
  | cons u updates ih =>
    by_cases hu : u.update.event = .added
    · have htouches : u.touches id = false := by simp [KrakenL3Update.touches, KrakenL3Update.isAdd, hu]
      have hrest := ih fun add (hadd : add ∈ adds.drop 1) => hother add (List.mem_of_mem_drop hadd)
      rw [placeAdds, if_pos hu, touchesOf, List.filter_cons_of_neg (by simp [htouches])]
      cases adds with
      | nil => exact hrest
      | cons first adds =>
        have hfirst := hother first List.mem_cons_self
        rw [eventsOf, List.filter_append, List.filter_eq_nil_iff.2 (by simpa using hfirst), List.nil_append]
        exact hrest
    · rw [placeAdds, if_neg hu, eventsOf, touchesOf]
      by_cases hid : u.update.orderId = id
      · have htouches : u.touches id = true := by simp [KrakenL3Update.touches, KrakenL3Update.isAdd, hu, hid]
        rw [List.filter_cons_of_pos (by simpa using hid), List.filter_cons_of_pos htouches, List.map_cons]
        exact congrArg _ (ih hother)
      · have htouches : u.touches id = false := by simp [KrakenL3Update.touches, hid]
        rw [List.filter_cons_of_neg (by simpa using hid), List.filter_cons_of_neg (by simp [htouches])]
        exact ih hother

theorem eventsOf_wire {updates : List KrakenL3Update}
    (hother : ∀ u ∈ updates, u.isAdd = true → u.update.orderId ≠ id) :
    eventsOf id (updates.map (·.update)) = touchesOf id updates := by
  rw [eventsOf, List.filter_map, touchesOf]
  congr 1
  refine List.filter_congr fun u hu => ?_
  by_cases hadd : u.isAdd = true
  · simp [KrakenL3Update.touches, hadd, hother u hu hadd]
  · simp [KrakenL3Update.touches, hadd]

theorem length_touchesOf (updates : List KrakenL3Update) :
    (touchesOf id updates).length = updates.countP (·.touches id) := by
  rw [touchesOf, List.length_map, List.countP_eq_length_filter]

theorem not_added_of_mem_touchesOf {updates : List KrakenL3Update} {u : L3Update} (h : u ∈ touchesOf id updates) :
    u.event ≠ .added := by
  obtain ⟨entry, hentry, rfl⟩ := List.mem_map.1 h
  have htouches := (List.mem_filter.1 hentry).2
  simp only [KrakenL3Update.touches, KrakenL3Update.isAdd, Bool.and_eq_true, Bool.not_eq_true',
    decide_eq_false_iff_not] at htouches
  exact htouches.1

end Place

section Batch

variable {updates : List KrakenL3Update} {place : ℕ} {add : KrakenL3Update}

theorem split_at_place (hadd : updates[place]? = some add) :
    updates = updates.take place ++ add :: updates.drop (place + 1) := by
  obtain ⟨hlt, rfl⟩ := List.getElem?_eq_some_iff.1 hadd
  rw [List.getElem_cons_drop, List.take_append_drop]

/-- The other adds of a message whose adds are all of different orders. -/
theorem other_order {before after : List KrakenL3Update}
    (hunique : (((before ++ add :: after).filter (·.isAdd)).map (·.update.orderId)).Nodup) (hisAdd : add.isAdd = true) :
    ∀ u ∈ before ++ after, u.isAdd = true → u.update.orderId ≠ add.update.orderId := by
  have hperm : ((before ++ add :: after).filter (·.isAdd)).Perm (add :: (before ++ after).filter (·.isAdd)) := by
    have hmiddle : (before ++ add :: after).Perm (add :: (before ++ after)) := List.perm_middle
    have hfirst := hmiddle.filter (·.isAdd)
    rwa [List.filter_cons_of_pos hisAdd] at hfirst
  rw [(hperm.map _).nodup_iff, List.map_cons, List.nodup_cons] at hunique
  intro u hu hadd heq
  exact hunique.1 (List.mem_map.2 ⟨u, List.mem_filter.2 ⟨hu, hadd⟩, heq⟩)

/-- Where the sort puts the add of a place. -/
theorem sortedAdds_split (hadd : updates[place]? = some add) (hisAdd : add.isAdd = true) :
    ∃ earlier later, sortedAdds updates = earlier ++ add :: later ∧ earlier.length = arrivalRank updates place add ∧
      ∀ other ∈ earlier ++ later, other.isAdd = true ∧ other ∈ updates.take place ++ updates.drop (place + 1) := by
  have hfilter : updates.filter (·.isAdd) = (updates.take place).filter (·.isAdd) ++
      add :: (updates.drop (place + 1)).filter (·.isAdd) := by
    rw [← List.filter_cons_of_pos hisAdd, ← List.filter_append, ← split_at_place hadd]
  obtain ⟨earlier, later, hsort, hperm, hlength⟩ := StableSort.insertionSort_split arrivesBefore
    ((updates.take place).filter (·.isAdd)) add ((updates.drop (place + 1)).filter (·.isAdd))
  refine ⟨earlier, later, by rw [sortedAdds, hfilter, hsort], ?_, fun other hother => ?_⟩
  · rw [hlength, List.countP_filter, List.countP_filter]
    simp only [arrivalRank, Bool.decide_and, Bool.decide_eq_true, Bool.and_comm]
  · rw [hperm.mem_iff, ← List.filter_append] at hother
    exact (List.mem_filter.1 hother).symm

/-- The events of an order with an add, before and after the reordering. -/
theorem eventsOf_addsInArrivalOrder (hunique : ((updates.filter (·.isAdd)).map (·.update.orderId)).Nodup)
    (hadd : updates[place]? = some add) (hisAdd : add.isAdd = true) :
    ∃ slot entry, updates[slot]? = some entry ∧ entry.isAdd = true ∧
      addsBefore updates slot = arrivalRank updates place add ∧
      eventsOf add.update.orderId (addsInArrivalOrder updates) =
        touchesOf add.update.orderId (updates.take slot) ++
          add.update :: touchesOf add.update.orderId (updates.drop (slot + 1)) ∧
      eventsOf add.update.orderId (updates.map (·.update)) =
        touchesOf add.update.orderId (updates.take place) ++
          add.update :: touchesOf add.update.orderId (updates.drop (place + 1)) := by
  have hsplit := split_at_place hadd
  have hothers := other_order (hsplit ▸ hunique) hisAdd
  obtain ⟨earlier, later, hsorted, hrank, hmem⟩ := sortedAdds_split hadd hisAdd
  have hforeign : ∀ other ∈ earlier ++ later, other.update.orderId ≠ add.update.orderId := fun other hother =>
    hothers other (hmem other hother).2 (hmem other hother).1
  have hmany : arrivalRank updates place add < updates.countP (·.isAdd) := by
    have hlength := (sortedAdds_perm updates).length_eq
    rw [hsorted, List.length_append, List.length_cons, ← List.countP_eq_length_filter] at hlength
    omega
  obtain ⟨slot, entry, hentry, hslot, hcount⟩ := StableSort.exists_countP_take _ hmany
  refine ⟨slot, entry, hentry, hslot, hcount, ?_, ?_⟩
  · have hplaced : addsInArrivalOrder updates = placeAdds earlier (updates.take slot) ++
        add.update :: placeAdds later (updates.drop (slot + 1)) := by
      rw [← placeAdds_split (by rw [hrank, hcount]) hslot, ← hsorted, ← split_at_place hentry]
      rfl
    rw [hplaced, eventsOf, List.filter_append, List.filter_cons_of_pos (by simp)]
    congr 1
    · exact eventsOf_placeAdds (fun other hother => hforeign other (List.mem_append_left _ hother)) _
    · congr 1
      exact eventsOf_placeAdds (fun other hother => hforeign other (List.mem_append_right _ hother)) _
  · have hwire : updates.map (·.update) = (updates.take place).map (·.update) ++
        add.update :: (updates.drop (place + 1)).map (·.update) := by
      rw [← List.map_cons, ← List.map_append, ← hsplit]
    rw [hwire, eventsOf, List.filter_append, List.filter_cons_of_pos (by simp)]
    congr 1
    · exact eventsOf_wire fun u hu => hothers u (List.mem_append_left _ hu)
    · congr 1
      exact eventsOf_wire fun u hu => hothers u (List.mem_append_right _ hu)

theorem touchesOf_split {slot : ℕ} {entry : KrakenL3Update} (hentry : updates[slot]? = some entry)
    (hslot : entry.isAdd = true) (id : OrderId) :
    touchesOf id updates = touchesOf id (updates.take slot) ++ touchesOf id (updates.drop (slot + 1)) := by
  have hskip : ¬entry.touches id = true := by simp [KrakenL3Update.touches, hslot]
  have hfilter : updates.filter (·.touches id) = (updates.take slot).filter (·.touches id) ++
      (updates.drop (slot + 1)).filter (·.touches id) := by
    conv_lhs => rw [split_at_place hentry, List.filter_append, List.filter_cons_of_neg hskip]
  rw [touchesOf, hfilter, List.map_append]
  rfl

/-- An order's events keep their order exactly if those listed before its add are those
listed before the slot it moves to. -/
theorem eventsOf_eq_iff (hunique : ((updates.filter (·.isAdd)).map (·.update.orderId)).Nodup)
    (hadd : updates[place]? = some add) (hisAdd : add.isAdd = true) :
    eventsOf add.update.orderId (addsInArrivalOrder updates) = eventsOf add.update.orderId (updates.map (·.update)) ↔
      ∀ p e, updates[p]? = some e → e.touches add.update.orderId = true →
        (addsBefore updates p ≤ arrivalRank updates place add ↔ p < place) := by
  obtain ⟨slot, entry, hentry, hslot, hcount, hordered, hwire⟩ := eventsOf_addsInArrivalOrder hunique hadd hisAdd
  have hevent : add.update.event = .added := of_decide_eq_true hisAdd
  have hlength : touchesOf add.update.orderId (updates.take slot) ++
        add.update :: touchesOf add.update.orderId (updates.drop (slot + 1)) =
      touchesOf add.update.orderId (updates.take place) ++
        add.update :: touchesOf add.update.orderId (updates.drop (place + 1)) ↔
      (updates.take slot).countP (·.touches add.update.orderId) =
        (updates.take place).countP (·.touches add.update.orderId) := by
    rw [← length_touchesOf, ← length_touchesOf]
    constructor
    · intro h
      rw [List.append_cons_inj_of_notMem (fun hmem => not_added_of_mem_touchesOf hmem hevent)
        fun hmem => not_added_of_mem_touchesOf hmem hevent] at h
      rw [h.1]
    · intro h
      have hsame := (touchesOf_split hentry hslot add.update.orderId).symm.trans
        (touchesOf_split hadd hisAdd add.update.orderId)
      obtain ⟨hfront, hback⟩ := List.append_inj hsame h
      rw [hfront, hback]
  rw [hordered, hwire, hlength, StableSort.countP_take_eq_iff]
  refine forall₄_congr fun p e he htouches => ?_
  have hother : e.isAdd = false := by
    simp only [KrakenL3Update.touches, Bool.and_eq_true, Bool.not_eq_true'] at htouches
    exact htouches.1
  rw [StableSort.lt_iff_countP_take_le (·.isAdd) hentry hslot he hother, ← hcount]
  rfl

/-- An order without an add keeps its events as they are. -/
theorem eventsOf_eq_of_no_add {id : OrderId} (hnone : ∀ u ∈ updates, u.isAdd = true → u.update.orderId ≠ id) :
    eventsOf id (addsInArrivalOrder updates) = eventsOf id (updates.map (·.update)) := by
  have hordered : eventsOf id (addsInArrivalOrder updates) = touchesOf id updates :=
    eventsOf_placeAdds (fun u hu => hnone u (mem_sortedAdds.1 hu).1 (mem_sortedAdds.1 hu).2) updates
  rw [hordered, eventsOf_wire hnone]

/-- In a message with at most one add for each order, every order's events are applied as
listed exactly if this holds for each add and each modification or deletion of its order:
the event is listed before the add if and only if no more adds are listed before the event
than arrived before the add. -/
theorem events_keep_order_iff (updates : List KrakenL3Update)
    (hunique : ((updates.filter (·.isAdd)).map (·.update.orderId)).Nodup) :
    (∀ id, eventsOf id (addsInArrivalOrder updates) = eventsOf id (updates.map (·.update))) ↔
      ∀ place add p e, updates[place]? = some add → add.isAdd = true → updates[p]? = some e → e.isAdd = false →
        e.update.orderId = add.update.orderId →
        (addsBefore updates p ≤ arrivalRank updates place add ↔ p < place) := by
  constructor
  · intro h place add p e hadd hisAdd he hother hid
    refine (eventsOf_eq_iff hunique hadd hisAdd).1 (h _) p e he ?_
    simp [KrakenL3Update.touches, hother, hid]
  · intro h id
    by_cases hsome : ∃ u ∈ updates, u.isAdd = true ∧ u.update.orderId = id
    · obtain ⟨add, hmem, hisAdd, rfl⟩ := hsome
      obtain ⟨place, hadd⟩ := List.mem_iff_getElem?.1 hmem
      refine (eventsOf_eq_iff hunique hadd hisAdd).2 fun p e he htouches => ?_
      simp only [KrakenL3Update.touches, Bool.and_eq_true, Bool.not_eq_true', decide_eq_true_eq] at htouches
      exact h place add p e hadd hisAdd he htouches.1 htouches.2
    · exact eventsOf_eq_of_no_add fun u hu hisAdd hid => hsome ⟨u, hu, hisAdd, hid⟩

/-- An add and its modification, and a later add of another order. -/
def addThenModify : List KrakenL3Update :=
  [⟨⟨.added, 1, .bid, 100, 5⟩, ascii "1"⟩, ⟨⟨.modified, 1, .bid, 0, 9⟩, ascii "3"⟩,
    ⟨⟨.added, 2, .bid, 101, 3⟩, ascii "2"⟩]

theorem add_then_modify_keeps_order :
    ((addThenModify.filter (·.isAdd)).map (·.update.orderId)).Nodup ∧
      ∀ id, eventsOf id (addsInArrivalOrder addThenModify) = eventsOf id (addThenModify.map (·.update)) := by
  have hunique : ((addThenModify.filter (·.isAdd)).map (·.update.orderId)).Nodup := by decide
  refine ⟨hunique, (events_keep_order_iff addThenModify hunique).2 fun place add p e hadd hisAdd he hother _ => ?_⟩
  obtain ⟨hplace, rfl⟩ := List.getElem?_eq_some_iff.1 hadd
  obtain ⟨hp, rfl⟩ := List.getElem?_eq_some_iff.1 he
  have hall : ∀ (place : ℕ) (hplace : place < addThenModify.length) (p : ℕ) (hp : p < addThenModify.length),
      addThenModify[place].isAdd = true → addThenModify[p].isAdd = false →
      (addsBefore addThenModify p ≤ arrivalRank addThenModify place addThenModify[place] ↔ p < place) := by decide
  exact hall place hplace p hp hisAdd hother

/-- An add, its modification, and an add of another order that arrived before it. -/
def overtakenAdd : List KrakenL3Update :=
  [⟨⟨.added, 1, .bid, 100, 5⟩, ascii "2"⟩, ⟨⟨.modified, 1, .bid, 0, 9⟩, ascii "3"⟩,
    ⟨⟨.added, 2, .bid, 101, 3⟩, ascii "1"⟩]

/-- The modification is applied before the order exists. -/
theorem overtaken_add_changes_order :
    ((overtakenAdd.filter (·.isAdd)).map (·.update.orderId)).Nodup ∧
      ¬∀ id, eventsOf id (addsInArrivalOrder overtakenAdd) = eventsOf id (overtakenAdd.map (·.update)) := by
  refine ⟨by decide, fun h => absurd (h 1) (by decide)⟩

end Batch

end CryptoTrader
