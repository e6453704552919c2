import CryptoTrader.Spec.L3
import CryptoTrader.Spec.PriceTime
import Mathlib.Data.List.Induction
import Mathlib.Tactic.Common

/-! The order-by-order book represents a list of resting orders: its levels are the
list's queues and its index is the list's lookup. Every operation of the book is
shown to take a represented list to the list that the abstract operation gives, and
never to fault. -/

namespace CryptoTrader

open PriceTime

theorem ok_bind {ε α β : Type} (a : α) (f : α → Except ε β) : (Except.ok a >>= f) = f a := rfl

def Order.record (o : Order) : OrderRecord := ⟨o.side, o.price, o.quantity⟩

def L3Update.order (u : L3Update) : Order := ⟨u.orderId, u.side, u.price, u.quantity⟩

theorem L3Update.order_id (u : L3Update) : u.order.id = u.orderId := rfl

/-- The queue at a price as the level map holds it. -/
def heldQueue (L : List Order) (s : Side) (p : Price) : Option (List OrderId) :=
  if queue L s p = [] then none else some (queue L s p)

/-- `st` holds exactly the resting orders of `L`, which have distinct ids. -/
structure Rep (L : List Order) (st : L3State) : Prop where
  nodup : (L.map (·.id)).Nodup
  levels : ∀ s p, (st.levels.get s).find? p = heldQueue L s p
  index : ∀ id, st.orderIndex.find? id = (lookup L id).map Order.record

theorem reportIssue_twice (slot : Option IntegrityIssue) (issue : IntegrityIssue) :
    reportIssue (reportIssue slot issue) issue = reportIssue slot issue := by
  cases slot <;> rfl

/-- One update on the list of resting orders. -/
def updateOrders (L : List Order) (u : L3Update) : List Order :=
  match u.event with
  | .added => add L u.order
  | .modified => modify L u.orderId u.quantity
  | .deleted => delete L u.orderId

/-- What the change set says of an order that leaves the list. -/
def forgetChanges (L : List Order) (cs : ChangeSet) (o : Order) : ChangeSet :=
  (cs.pushEvent ⟨.deleted, o.id, o.side, o.price, 0⟩).pushLevel
    ⟨o.side, o.price, volume (delete L o.id) o.side o.price⟩

def staleChanges (L : List Order) (cs : ChangeSet) (id : OrderId) : ChangeSet :=
  match lookup L id with
  | none => cs
  | some o => forgetChanges L cs o

def addChanges (L : List Order) (cs : ChangeSet) (u : L3Update) : ChangeSet :=
  ((staleChanges L cs u.orderId).pushEvent ⟨.added, u.orderId, u.side, u.price, u.quantity⟩).pushLevel
    ⟨u.side, u.price, volume (add L u.order) u.side u.price⟩

/-- What the change set says of one update. -/
def updateChanges (L : List Order) (cs : ChangeSet) (u : L3Update) : ChangeSet :=
  match u.event with
  | .added => addChanges L cs u
  | .modified =>
    match lookup L u.orderId with
    | none => cs.report .unknownOrder
    | some o => (cs.pushEvent ⟨.modified, o.id, o.side, o.price, u.quantity⟩).pushLevel
        ⟨o.side, o.price, volume (modify L u.orderId u.quantity) o.side o.price⟩
  | .deleted =>
    match lookup L u.orderId with
    | none => cs.report .unknownOrder
    | some o => forgetChanges L cs o

/-- What the change set says of a list of updates. -/
def batchChanges : List Order → ChangeSet → List L3Update → ChangeSet
  | _, cs, [] => cs
  | L, cs, u :: us => batchChanges (updateOrders L u) (updateChanges L cs u) us

/-- What it says of the orders of a snapshot, each of them added. -/
def snapshotChanges : List Order → ChangeSet → List L3Update → ChangeSet
  | _, cs, [] => cs
  | L, cs, u :: us => snapshotChanges (add L u.order) (addChanges L cs u) us

/-- A modify or a delete of an order that does not rest. -/
def unknownIn (L : List Order) (u : L3Update) : Bool := u.event ≠ .added ∧ u.orderId ∉ L.map (·.id)

/-- Some update of the batch is unknown when its turn comes. -/
def anyUnknown : List Order → List L3Update → Bool
  | _, [] => false
  | L, u :: us => unknownIn L u || anyUnknown (updateOrders L u) us

theorem staleChanges_issue (L : List Order) (cs : ChangeSet) (id : OrderId) :
    (staleChanges L cs id).integrityIssue = cs.integrityIssue := by
  unfold staleChanges
  cases lookup L id <;> rfl

theorem addChanges_issue (L : List Order) (cs : ChangeSet) (u : L3Update) :
    (addChanges L cs u).integrityIssue = cs.integrityIssue :=
  staleChanges_issue L cs u.orderId

/-- Only an unknown order is reported. -/
theorem updateChanges_issue (L : List Order) (cs : ChangeSet) (u : L3Update) :
    (updateChanges L cs u).integrityIssue =
      if unknownIn L u then reportIssue cs.integrityIssue .unknownOrder else cs.integrityIssue := by
  unfold updateChanges unknownIn
  cases hev : u.event with
  | added => simpa using addChanges_issue L cs u
  | modified =>
    cases hlook : lookup L u.orderId with
    | none => rw [if_pos (decide_eq_true ⟨by simp, lookup_eq_none.1 hlook⟩), ChangeSet.report]
    | some o => rw [if_neg fun h => (of_decide_eq_true h).2 (mem_of_lookup hlook)]; rfl
  | deleted =>
    cases hlook : lookup L u.orderId with
    | none => rw [if_pos (decide_eq_true ⟨by simp, lookup_eq_none.1 hlook⟩), ChangeSet.report]
    | some o => rw [if_neg fun h => (of_decide_eq_true h).2 (mem_of_lookup hlook)]; rfl

theorem batchChanges_issue (L : List Order) (cs : ChangeSet) (us : List L3Update) :
    (batchChanges L cs us).integrityIssue =
      if anyUnknown L us then reportIssue cs.integrityIssue .unknownOrder else cs.integrityIssue := by
  induction us generalizing L cs with
  | nil => rfl
  | cons u us ih =>
    rw [batchChanges, ih, updateChanges_issue, anyUnknown]
    cases unknownIn L u <;> cases anyUnknown (updateOrders L u) us <;> simp [reportIssue_twice]

theorem snapshotChanges_issue (L : List Order) (cs : ChangeSet) (us : List L3Update) :
    (snapshotChanges L cs us).integrityIssue = cs.integrityIssue := by
  induction us generalizing L cs with
  | nil => rfl
  | cons u us ih => rw [snapshotChanges, ih, addChanges_issue]

namespace Rep

variable {L : List Order} {st : L3State}

theorem init (depth : Option ℕ) : Rep [] (L3State.init depth) :=
  ⟨List.nodup_nil, fun s _ => by cases s <;> rfl, fun _ => rfl⟩

/-- A book is determined by the list it represents and its depth. -/
theorem unique {st' : L3State} (h : Rep L st) (h' : Rep L st') (hd : st.maxDepth = st'.maxDepth) : st = st' := by
  obtain ⟨d, levels, index⟩ := st
  obtain ⟨d', levels', index'⟩ := st'
  have hl : levels = levels' :=
    PerSide.ext_get fun s => OrdMap.ext_find fun p => (h.levels s p).trans (h'.levels s p).symm
  have hi : index = index' := OrdMap.ext_find fun id => (h.index id).trans (h'.index id).symm
  simp only at hd
  rw [hd, hl, hi]

/-- Lookups in the index alone, for the states in the middle of an operation. -/
def Indexes (L : List Order) (st : L3State) : Prop :=
  ∀ id, st.orderIndex.find? id = (lookup L id).map Order.record

theorem Indexes.find_record (hnd : (L.map (·.id)).Nodup) (h : Indexes L st) {o : Order} (ho : o ∈ L) :
    st.orderIndex.find? o.id = some o.record := by
  rw [h, (lookup_eq_some hnd).2 ⟨ho, rfl⟩]
  rfl

theorem levelAggregate_of_index (hnd : (L.map (·.id)).Nodup) (h : Indexes L st) {os : List Order}
    (hos : ∀ o ∈ os, o ∈ L) : st.levelAggregate (os.map (·.id)) = .ok (os.map (·.quantity)).sum := by
  induction os with
  | nil => rfl
  | cons o os ih =>
    have hf := h.find_record hnd (hos o List.mem_cons_self)
    simp only [List.map_cons, L3State.levelAggregate, L3State.orderAt, hf,
      ih fun o ho => hos o (List.mem_cons_of_mem _ ho), ok_bind, List.sum_cons]
    rfl

theorem levelAggregate_queue (hnd : (L.map (·.id)).Nodup) (h : Indexes L st) (s : Side) (p : Price) :
    st.levelAggregate (queue L s p) = .ok ((level L s p).map (·.quantity)).sum :=
  levelAggregate_of_index hnd h fun _ ho => (mem_level.1 ho).1

theorem volume_eq_some {s : Side} {p : Price} (h : queue L s p ≠ []) :
    volume L s p = some ((level L s p).map (·.quantity)).sum :=
  if_neg fun hl => h (by rw [queue, hl]; rfl)

theorem volume_eq_none {s : Side} {p : Price} (h : queue L s p = []) : volume L s p = none :=
  if_pos (List.map_eq_nil_iff.1 h)

theorem levelAt (h : Rep L st) {o : Order} (ho : o ∈ L) :
    st.levelAt o.side o.price = .ok (queue L o.side o.price) := by
  have hq : queue L o.side o.price ≠ [] := by
    rw [Ne, queue_eq_nil, not_not]
    exact mem_prices.2 ⟨o, ho, rfl, rfl⟩
  have hf := h.levels o.side o.price
  rw [heldQueue, if_neg hq] at hf
  simp [L3State.levelAt, hf]

@[simp] theorem levelAggregate_setLevels (st : L3State) (s : Side) (m : LevelMap s (List OrderId))
    (ids : List OrderId) : (st.setLevels s m).levelAggregate ids = st.levelAggregate ids := by
  induction ids with
  | nil => rfl
  | cons id ids ih =>
    simp only [L3State.levelAggregate, ih]
    rfl

/-- Rewriting one level completes a representation that holds everywhere else. -/
theorem of_setLevels {s₀ : Side} {p₀ : Price} {m : LevelMap s₀ (List OrderId)}
    (hnd : (L.map (·.id)).Nodup) (hidx : Indexes L st)
    (hother : ∀ s p, ¬ (s₀ = s ∧ p₀ = p) → (st.levels.get s).find? p = heldQueue L s p)
    (hm : ∀ p, m.find? p = if p = p₀ then heldQueue L s₀ p₀ else (st.levels.get s₀).find? p) :
    Rep L (st.setLevels s₀ m) := by
  refine ⟨hnd, fun s p => ?_, hidx⟩
  by_cases hs : s = s₀
  · subst hs
    simp only [L3State.setLevels, PerSide.get_set_self, hm]
    split_ifs with hp
    · rw [hp]
    · exact hother s p fun hsp => hp hsp.2.symm
  · simp only [L3State.setLevels, PerSide.get_set_ne _ _ hs]
    exact hother s p fun hsp => hs hsp.1.symm

/-- A tracked order leaves its level and the index; its level goes with its last order. -/
theorem forgetOrder (h : Rep L st) (cs : ChangeSet) {o : Order} (ho : o ∈ L) :
    ∃ st', st.forgetOrder cs o.id o.record = .ok (st', forgetChanges L cs o) ∧
      Rep (delete L o.id) st' ∧ st'.maxDepth = st.maxDepth := by
  unfold forgetChanges
  set L' := delete L o.id with hL'
  have hnd' : (L'.map (·.id)).Nodup := delete_nodup h.nodup o.id
  set st1 : L3State := { st with orderIndex := st.orderIndex.erase o.id } with hst1
  have hidx : Indexes L' st1 := by
    intro id
    simp only [hst1, hL', OrdMap.find?_erase, lookup_delete, h.index]
    split_ifs <;> rfl
  have hat : st1.levelAt o.side o.price = .ok (queue L o.side o.price) := h.levelAt ho
  have hrest : (queue L o.side o.price).filter (· ≠ o.id) = queue L' o.side o.price :=
    (queue_delete L o.id o.side o.price).symm
  have hother : ∀ s p, ¬ (o.side = s ∧ o.price = p) → (st1.levels.get s).find? p = heldQueue L' s p := by
    intro s p hne
    rw [hst1, h.levels, heldQueue, heldQueue, hL', queue_delete_of_ne h.nodup ho hne]
  unfold L3State.forgetOrder L3State.removeOrderFromLevel
  simp only [Order.record, ← hst1, hat, ok_bind, hrest]
  by_cases hempty : queue L' o.side o.price = []
  · refine ⟨st1.setLevels o.side ((st1.levels.get o.side).erase o.price), ?_,
      of_setLevels hnd' hidx hother fun p => ?_, rfl⟩
    · rw [volume_eq_none hempty, hempty]
      rfl
    · rw [OrdMap.find?_erase, heldQueue, if_pos hempty]
  · refine ⟨st1.setLevels o.side ((st1.levels.get o.side).insert o.price (queue L' o.side o.price)), ?_,
      of_setLevels hnd' hidx hother fun p => ?_, rfl⟩
    · rw [List.isEmpty_eq_false_iff.2 hempty, levelAggregate_setLevels,
        levelAggregate_queue hnd' hidx, volume_eq_some hempty]
      rfl
    · rw [OrdMap.find?_insert, heldQueue, if_neg hempty]

theorem forgetStale (h : Rep L st) (cs : ChangeSet) (id : OrderId) :
    ∃ st', st.forgetStale cs id = .ok (st', staleChanges L cs id) ∧
      Rep (delete L id) st' ∧ st'.maxDepth = st.maxDepth := by
  unfold L3State.forgetStale staleChanges
  rw [h.index]
  cases ho : lookup L id with
  | none => exact ⟨st, rfl, by rwa [delete_of_not_mem (lookup_eq_none.1 ho)], rfl⟩
  | some o =>
    obtain ⟨hmem, rfl⟩ := (PriceTime.lookup_eq_some h.nodup).1 ho
    exact h.forgetOrder cs hmem

/-- An order that is not tracked joins the back of its queue. -/
theorem addOrderToLevel (h : Rep L st) (cs : ChangeSet) (u : L3Update) (hu : u.orderId ∉ L.map (·.id)) :
    ∃ st', L3State.addOrderToLevel
        { st with orderIndex := st.orderIndex.insert u.orderId ⟨u.side, u.price, u.quantity⟩ } cs u =
        .ok (st', (cs.pushEvent ⟨.added, u.orderId, u.side, u.price, u.quantity⟩).pushLevel
          ⟨u.side, u.price, volume (L ++ [u.order]) u.side u.price⟩) ∧
      Rep (L ++ [u.order]) st' ∧ st'.maxDepth = st.maxDepth := by
  set L' := L ++ [u.order] with hL'
  set st1 : L3State :=
    { st with orderIndex := st.orderIndex.insert u.orderId ⟨u.side, u.price, u.quantity⟩ } with hst1
  have hnd' : (L'.map (·.id)).Nodup := by
    have hadd := add_nodup h.nodup u.order
    rwa [add_eq, show u.order.id = u.orderId from rfl, delete_of_not_mem hu] at hadd
  have hidx : Indexes L' st1 := by
    intro id
    simp only [hst1, hL', OrdMap.find?_insert, lookup_append (show u.order.id ∉ L.map (·.id) from hu), h.index]
    split_ifs with h1 h2 h2
    · rfl
    · exact absurd h1 h2
    · exact absurd h2 h1
    · rfl
  have hqueue : ((st1.levels.get u.side).find? u.price).getD [] ++ [u.orderId] = queue L' u.side u.price := by
    have hq : queue L' u.side u.price = queue L u.side u.price ++ [u.orderId] := by
      rw [hL', queue_append, if_pos ⟨rfl, rfl⟩]
      rfl
    rw [hq, hst1, h.levels, heldQueue]
    split_ifs with he
    · rw [he]; rfl
    · rfl
  have hne : queue L' u.side u.price ≠ [] := by
    rw [← hqueue]
    simp
  have hother : ∀ s p, ¬ (u.side = s ∧ u.price = p) → (st1.levels.get s).find? p = heldQueue L' s p := by
    intro s p hsp
    have hq : queue L' s p = queue L s p := by
      rw [hL', queue_append, if_neg (show ¬ (u.order.side = s ∧ u.order.price = p) from hsp), List.append_nil]
    rw [hst1, h.levels, heldQueue, heldQueue, hq]
  refine ⟨st1.setLevels u.side ((st1.levels.get u.side).insert u.price (queue L' u.side u.price)), ?_,
    of_setLevels hnd' hidx hother fun p => ?_, rfl⟩
  · unfold L3State.addOrderToLevel
    simp only [hqueue, levelAggregate_setLevels, levelAggregate_queue hnd' hidx, ok_bind, volume_eq_some hne]
    rfl
  · rw [OrdMap.find?_insert, heldQueue, if_neg hne]

theorem addOrder (h : Rep L st) (cs : ChangeSet) (u : L3Update) :
    ∃ st', st.addOrder cs u = .ok (st', addChanges L cs u) ∧
      Rep (add L u.order) st' ∧ st'.maxDepth = st.maxDepth := by
  obtain ⟨st1, hforget, hrep, hdepth⟩ := h.forgetStale cs u.orderId
  have hu : u.orderId ∉ (delete L u.orderId).map (·.id) := by
    intro hm
    obtain ⟨o, ho, he⟩ := List.mem_map.1 hm
    exact (mem_delete.1 ho).2 he
  obtain ⟨st2, hadd, hrep2, hdepth2⟩ := hrep.addOrderToLevel (staleChanges L cs u.orderId) u hu
  refine ⟨st2, ?_, hrep2, hdepth2.trans hdepth⟩
  simp only [L3State.addOrder, hforget, ok_bind, hadd]
  rfl

/-- A tracked order keeps its place with a new quantity. -/
theorem modifyOrder (h : Rep L st) (cs : ChangeSet) (u : L3Update) {o : Order} (ho : o ∈ L) (hid : o.id = u.orderId) :
    ∃ st', st.modifyOrder cs u = .ok (st', (cs.pushEvent ⟨.modified, o.id, o.side, o.price, u.quantity⟩).pushLevel
          ⟨o.side, o.price, volume (modify L u.orderId u.quantity) o.side o.price⟩) ∧
      Rep (modify L u.orderId u.quantity) st' ∧ st'.maxDepth = st.maxDepth := by
  set L' := modify L u.orderId u.quantity with hL'
  have hnd' : (L'.map (·.id)).Nodup := by rw [hL', map_id_modify]; exact h.nodup
  have hlook : lookup L u.orderId = some o := (PriceTime.lookup_eq_some h.nodup).2 ⟨ho, hid⟩
  set st1 : L3State := { st with
    orderIndex := st.orderIndex.insert u.orderId ⟨o.side, o.price, u.quantity⟩ } with hst1
  have hidx : Indexes L' st1 := by
    intro id
    simp only [hst1, hL', OrdMap.find?_insert, lookup_modify, h.index]
    split_ifs with he
    · rw [he, hlook]
      simp [Order.record, hid]
    · rw [Option.map_map]
      cases hk : lookup L id with
      | none => rfl
      | some a =>
        have ha := ((PriceTime.lookup_eq_some h.nodup).1 hk).2
        simp only [Option.map_some, Function.comp]
        rw [if_neg fun hu => he (ha.symm.trans hu)]
  have hlevels : ∀ s p, (st1.levels.get s).find? p = heldQueue L' s p := by
    intro s p
    rw [hst1, h.levels, heldQueue, heldQueue, hL', queue_modify]
  have hat : st1.levelAt o.side o.price = .ok (queue L' o.side o.price) := by
    rw [hL', queue_modify]
    exact h.levelAt ho
  have hqueue : queue L' o.side o.price ≠ [] := by
    rw [hL', queue_modify, Ne, queue_eq_nil, not_not]
    exact mem_prices.2 ⟨o, ho, rfl, rfl⟩
  refine ⟨st1, ?_, ⟨hnd', hlevels, hidx⟩, rfl⟩
  unfold L3State.modifyOrder
  rw [h.index, hlook]
  simp only [Option.map_some, Order.record, ← hst1, hat, ok_bind, levelAggregate_queue hnd' hidx, hid,
    volume_eq_some hqueue]
  rfl

theorem deleteOrder (h : Rep L st) (cs : ChangeSet) (u : L3Update) {o : Order} (ho : o ∈ L) (hid : o.id = u.orderId) :
    ∃ st', st.deleteOrder cs u = .ok (st', forgetChanges L cs o) ∧
      Rep (delete L u.orderId) st' ∧ st'.maxDepth = st.maxDepth := by
  have hlook : lookup L u.orderId = some o := (PriceTime.lookup_eq_some h.nodup).2 ⟨ho, hid⟩
  obtain ⟨st', hforget, hrep, hdepth⟩ := h.forgetOrder cs ho
  have hstep : st.deleteOrder cs u = st.forgetOrder cs o.id o.record := by
    unfold L3State.deleteOrder
    rw [h.index, hlook, hid]
    rfl
  exact ⟨st', hstep.trans hforget, hid ▸ hrep, hdepth⟩

theorem unknown_order (h : Rep L st) {u : L3Update} (hu : u.orderId ∉ L.map (·.id)) :
    st.orderIndex.find? u.orderId = none := by
  rw [h.index, lookup_eq_none.2 hu]
  rfl

/-- Every update is the abstract one, on the orders and on the change set. -/
theorem applyUpdate (h : Rep L st) (cs : ChangeSet) (u : L3Update) :
    ∃ st', st.applyUpdate cs u = .ok (st', updateChanges L cs u) ∧
      Rep (updateOrders L u) st' ∧ st'.maxDepth = st.maxDepth := by
  unfold L3State.applyUpdate updateOrders updateChanges
  cases u.event with
  | added => exact h.addOrder cs u
  | modified =>
    cases hlook : lookup L u.orderId with
    | none =>
      have hu := lookup_eq_none.1 hlook
      refine ⟨st, ?_, by simpa only [modify_of_not_mem hu] using h, rfl⟩
      simp [L3State.modifyOrder, h.unknown_order hu]
    | some o =>
      obtain ⟨ho, hid⟩ := (PriceTime.lookup_eq_some h.nodup).1 hlook
      exact h.modifyOrder cs u ho hid
  | deleted =>
    cases hlook : lookup L u.orderId with
    | none =>
      have hu := lookup_eq_none.1 hlook
      refine ⟨st, ?_, by simpa only [delete_of_not_mem hu] using h, rfl⟩
      simp [L3State.deleteOrder, h.unknown_order hu]
    | some o =>
      obtain ⟨ho, hid⟩ := (PriceTime.lookup_eq_some h.nodup).1 hlook
      exact h.deleteOrder cs u ho hid

theorem applyAll (h : Rep L st) (cs : ChangeSet) (us : List L3Update) :
    ∃ st', st.applyAll cs us = .ok (st', batchChanges L cs us) ∧
      Rep (us.foldl updateOrders L) st' ∧ st'.maxDepth = st.maxDepth := by
  induction us generalizing L st cs with
  | nil => exact ⟨st, rfl, h, rfl⟩
  | cons u us ih =>
    obtain ⟨st1, hstep, hrep, hdepth⟩ := h.applyUpdate cs u
    obtain ⟨st2, hsteps, hrep2, hdepth2⟩ := ih hrep (updateChanges L cs u)
    refine ⟨st2, ?_, hrep2, hdepth2.trans hdepth⟩
    simp only [L3State.applyAll, hstep, ok_bind, hsteps, batchChanges]

theorem addAll (h : Rep L st) (cs : ChangeSet) (us : List L3Update) :
    ∃ st', st.addAll cs us = .ok (st', snapshotChanges L cs us) ∧
      Rep (us.foldl (fun L u => add L u.order) L) st' ∧ st'.maxDepth = st.maxDepth := by
  induction us generalizing L st cs with
  | nil => exact ⟨st, rfl, h, rfl⟩
  | cons u us ih =>
    obtain ⟨st1, hstep, hrep, hdepth⟩ := h.addOrder cs u
    obtain ⟨st2, hsteps, hrep2, hdepth2⟩ := ih hrep (addChanges L cs u)
    refine ⟨st2, ?_, hrep2, hdepth2.trans hdepth⟩
    simp only [L3State.addAll, hstep, ok_bind, hsteps, snapshotChanges]

/-- The level map lists the side's prices. -/
theorem keys_perm (h : Rep L st) (s : Side) : (st.levels.get s).keys.Perm (prices L s) := by
  refine OrdMap.keys_eq_perm _ (prices_nodup L s) fun p => ?_
  rw [h.levels, heldQueue]
  split_ifs with hq
  · simpa using queue_eq_nil.1 hq
  · simpa using not_not.1 fun hp => hq (queue_eq_nil.2 hp)

theorem rank_eq (h : Rep L st) (s : Side) (p : Price) :
    ((st.levels.get s).keys.filter fun a => s.better a p).length = rank L s p :=
  ((h.keys_perm s).filter _).length_eq

theorem mem_entries (h : Rep L st) {s : Side} {p : Price} {ids : List OrderId} :
    (p, ids) ∈ (st.levels.get s).entries ↔ p ∈ prices L s ∧ ids = queue L s p := by
  rw [← OrdMap.find?_eq_some, h.levels, heldQueue]
  split_ifs with hq
  · simp [queue_eq_nil.1 hq]
  · simp [not_not.1 fun hp => hq (queue_eq_nil.2 hp), eq_comm]

theorem truncateSide_of_size_le (h : Rep L st) {s : Side} {depth : ℕ} (hd : (st.levels.get s).size ≤ depth) :
    truncateSide (some depth) s L = L := by
  refine List.filter_eq_self.2 fun o ho => ?_
  simp only [decide_eq_true_eq]
  rintro rfl d ⟨⟩
  have hp : o.price ∈ (st.levels.get o.side).keys := (h.keys_perm o.side).mem_iff.2 (mem_prices.2 ⟨o, ho, rfl, rfl⟩)
  have hlt : ((st.levels.get o.side).keys.filter fun a => o.side.better a o.price).length <
      (st.levels.get o.side).keys.length :=
    List.length_filter_lt_length_iff_exists.2 ⟨_, hp, by simpa using irrefl_of o.side.better o.price⟩
  rw [h.rank_eq, OrdMap.keys, List.length_map] at hlt
  exact lt_of_lt_of_le hlt hd

/-- The orders the truncation forgets are those outside the window. -/
theorem mem_dropped (h : Rep L st) {s : Side} {depth : ℕ} {id : OrderId} :
    id ∈ ((st.levels.get s).entries.drop depth).flatMap (·.2) ↔
      ∃ o ∈ L, o.id = id ∧ o.side = s ∧ ¬ InWindow (some depth) L s o.price := by
  simp only [List.mem_flatMap, Prod.exists, OrdMap.mem_drop, h.mem_entries, h.rank_eq, InWindow,
    Option.some.injEq, forall_eq', not_lt]
  constructor
  · rintro ⟨p, _, ⟨⟨_, rfl⟩, hrank⟩, hid⟩
    obtain ⟨o, ho, rfl⟩ := List.mem_map.1 hid
    obtain ⟨hoL, rfl, rfl⟩ := mem_level.1 ho
    exact ⟨o, hoL, rfl, rfl, hrank⟩
  · rintro ⟨o, ho, rfl, rfl, hrank⟩
    exact ⟨o.price, _, ⟨⟨mem_prices.2 ⟨o, ho, rfl, rfl⟩, rfl⟩, hrank⟩,
      List.mem_map.2 ⟨o, mem_level.2 ⟨ho, rfl, rfl⟩, rfl⟩⟩

theorem lookup_truncateSide (hnd : (L.map (·.id)).Nodup) (depth : Option ℕ) (s : Side) (id : OrderId) :
    lookup (truncateSide depth s L) id =
      (lookup L id).filter fun o => o.side = s → InWindow depth L s o.price := by
  ext o
  rw [PriceTime.lookup_eq_some (truncateSide_nodup hnd depth s), mem_truncateSide, Option.filter_eq_some_iff,
    PriceTime.lookup_eq_some hnd, decide_eq_true_eq]
  exact and_right_comm

/-- Truncation keeps the levels of the window with their orders. -/
theorem truncateToDepth (h : Rep L st) (s : Side) :
    Rep (truncateSide st.maxDepth s L) (st.truncateToDepth s) ∧ (st.truncateToDepth s).maxDepth = st.maxDepth := by
  unfold L3State.truncateToDepth
  cases hdepth : st.maxDepth with
  | none =>
    refine ⟨?_, hdepth⟩
    rwa [truncateSide, List.filter_eq_self.2 fun o _ => by simp [InWindow]]
  | some depth =>
    simp only
    split_ifs with hsize
    · exact ⟨by rwa [h.truncateSide_of_size_le hsize], hdepth⟩
    · refine ⟨⟨truncateSide_nodup h.nodup _ s, fun t p => ?_, fun id => ?_⟩, hdepth⟩
      · rw [heldQueue, queue, level_truncateSide]
        by_cases hts : t = s
        · subst hts
          simp only [L3State.setLevels, PerSide.get_set_self, OrdMap.find?_take, h.rank_eq, h.levels, heldQueue,
            InWindow, forall_const, Option.some.injEq, forall_eq']
          split_ifs <;> simp_all [queue]
        · simp only [L3State.setLevels, PerSide.get_set_ne _ _ hts, h.levels, heldQueue, queue]
          simp [hts]
      · rw [OrdMap.find?_foldl_erase, lookup_truncateSide h.nodup, h.index]
        cases hk : lookup L id with
        | none => simp
        | some o =>
          obtain ⟨ho, rfl⟩ := (PriceTime.lookup_eq_some h.nodup).1 hk
          have hiff : o.id ∈ ((st.levels.get s).entries.drop depth).flatMap (·.2) ↔
              ¬ (o.side = s → InWindow (some depth) L s o.price) := by
            rw [h.mem_dropped]
            constructor
            · rintro ⟨o', ho', hid, hside, hout⟩ hin
              obtain rfl : o' = o := by
                have := (PriceTime.lookup_eq_some h.nodup).2 ⟨ho', hid⟩
                rw [hk, Option.some.injEq] at this
                exact this.symm
              exact hout (hin hside)
            · intro hn
              rw [Classical.not_imp] at hn
              exact ⟨o, ho, rfl, hn⟩
          by_cases hin : o.side = s → InWindow (some depth) L s o.price
          · rw [if_neg (by rw [hiff]; exact not_not.2 hin), Option.filter_some, if_pos (decide_eq_true hin)]
          · rw [if_pos (hiff.2 hin), Option.filter_some, if_neg (by simpa using hin)]
            rfl

theorem truncate (h : Rep L st) :
    Rep (truncate st.maxDepth L) ((st.truncateToDepth .bid).truncateToDepth .ask) ∧
      ((st.truncateToDepth .bid).truncateToDepth .ask).maxDepth = st.maxDepth := by
  obtain ⟨hbid, hdepth⟩ := h.truncateToDepth .bid
  obtain ⟨hask, hdepth'⟩ := hbid.truncateToDepth .ask
  rw [hdepth, truncateSide_bid_ask] at hask
  exact ⟨hask, hdepth'.trans hdepth⟩

/-- A truncated book holds no more levels than its depth. -/
theorem size_le_depth {depth : ℕ} (h : Rep (PriceTime.truncate (some depth) L) st) (s : Side) :
    (st.levels.get s).size ≤ depth := by
  have hsub : (st.levels.get s).keys ⊆ (st.levels.get s).keys.take depth := by
    intro p hp
    obtain ⟨o, ho, rfl, rfl⟩ := mem_prices.1 ((h.keys_perm s).mem_iff.1 hp)
    have hwin : rank L o.side o.price < depth := (mem_truncate.1 ho).2 depth rfl
    rw [OrdMap.mem_take_sorted (st.levels.get o.side).keys_pairwise, h.rank_eq]
    exact ⟨hp, lt_of_le_of_lt (rank_le_of_subset (fun o ho => (mem_truncate.1 ho).1) _ _) hwin⟩
  have hle := (List.subperm_of_subset (st.levels.get s).keys_nodup hsub).length_le
  rw [List.length_take, OrdMap.keys, List.length_map] at hle
  exact le_trans hle (min_le_left _ _)

/-- The first level of the map is the best price. -/
theorem best (h : Rep L st) (s : Side) : st.best s = .ok (PriceTime.best L s) := by
  unfold L3State.best PriceTime.best
  cases hent : (st.levels.get s).entries with
  | nil =>
    have hnil : prices L s = [] := by
      refine List.Perm.nil_eq ?_ |>.symm
      simpa only [OrdMap.keys, hent, List.map_nil] using h.keys_perm s
    simp [hnil]
  | cons e es =>
    obtain ⟨p, ids⟩ := e
    obtain ⟨hp, rfl⟩ := h.mem_entries.1 (hent ▸ List.mem_cons_self)
    have hkeys : (st.levels.get s).keys = p :: es.map Prod.fst := by simp only [OrdMap.keys, hent, List.map_cons]
    have hfirst : ∀ q ∈ es.map Prod.fst, s.better p q :=
      (List.pairwise_cons.1 (hkeys ▸ (st.levels.get s).keys_pairwise)).1
    have hzero : ∀ q ∈ prices L s, rank L s q = 0 ↔ q = p := by
      intro q hq
      have hq' : q = p ∨ q ∈ es.map Prod.fst := by
        simpa only [hkeys, List.mem_cons] using (h.keys_perm s).mem_iff.2 hq
      rw [← h.rank_eq, hkeys, List.length_eq_zero_iff, List.filter_eq_nil_iff]
      simp only [decide_eq_true_eq, List.mem_cons]
      constructor
      · intro hnone
        exact hq'.resolve_right fun hq' => hnone p (Or.inl rfl) (hfirst q hq')
      · rintro rfl a (rfl | ha)
        · exact irrefl_of s.better a
        · exact asymm_of s.better (hfirst a ha)
    have hfind : (prices L s).find? (fun q => rank L s q = 0) = some p := by
      cases hf : (prices L s).find? (fun q => rank L s q = 0) with
      | none => exact absurd ((hzero p hp).2 rfl) (by simpa using List.find?_eq_none.1 hf p hp)
      | some q =>
        have hq := List.mem_of_find?_eq_some hf
        rw [(hzero q hq).1 (by simpa using List.find?_some hf)]
    simp only [hfind, levelAggregate_queue h.nodup h.index, ok_bind]
    rfl

theorem orderEntries_of_index (hnd : (L.map (·.id)).Nodup) (h : Indexes L st) (p : Price) {os : List Order}
    (hos : ∀ o ∈ os, o ∈ L) : st.orderEntries p (os.map (·.id)) = .ok (os.map fun o => ⟨p, o.quantity⟩) := by
  induction os with
  | nil => rfl
  | cons o os ih =>
    have hf := h.find_record hnd (hos o List.mem_cons_self)
    simp only [List.map_cons, L3State.orderEntries, L3State.orderAt, hf,
      ih fun o ho => hos o (List.mem_cons_of_mem _ ho), ok_bind]
    rfl

/-- The entries of a level: its orders, oldest first. -/
def levelView (L : List Order) (s : Side) (p : Price) : List BookEntry :=
  (level L s p).map fun o => ⟨p, o.quantity⟩

theorem levelEntries (h : Rep L st) (s : Side) {es : List (Price × List OrderId)}
    (hes : ∀ e ∈ es, e ∈ (st.levels.get s).entries) :
    st.levelEntries es = .ok (es.flatMap fun e => levelView L s e.1) := by
  induction es with
  | nil => rfl
  | cons e es ih =>
    obtain ⟨p, ids⟩ := e
    obtain ⟨-, rfl⟩ := h.mem_entries.1 (hes _ List.mem_cons_self)
    have hlevel : st.orderEntries p (queue L s p) = .ok (levelView L s p) :=
      orderEntries_of_index h.nodup h.index p fun _ ho => (mem_level.1 ho).1
    simp only [L3State.levelEntries, hlevel, ih fun e he => hes e (List.mem_cons_of_mem _ he), ok_bind,
      List.flatMap_cons]
    rfl

/-- A view is the orders of the levels it covers, level by level. -/
theorem entriesOf (h : Rep L st) (s : Side) (maxLevels : Option ℕ) :
    st.entriesOf s maxLevels = .ok ((limitTo maxLevels (st.levels.get s).keys).flatMap (levelView L s)) := by
  have hsub : ∀ e ∈ limitTo maxLevels (st.levels.get s).entries, e ∈ (st.levels.get s).entries := by
    cases maxLevels with
    | none => exact fun e he => he
    | some n => exact fun e he => List.mem_of_mem_take he
  rw [L3State.entriesOf, h.levelEntries s hsub]
  cases maxLevels with
  | none => simp only [limitTo, OrdMap.keys, List.flatMap_map]
  | some n => simp only [limitTo, OrdMap.keys, ← List.map_take, List.flatMap_map]

theorem getBookView (h : Rep L st) (maxLevels : Option ℕ) :
    st.getBookView maxLevels =
      .ok ⟨(limitTo maxLevels (st.levels.get .bid).keys).flatMap (levelView L .bid),
        (limitTo maxLevels (st.levels.get .ask).keys).flatMap (levelView L .ask)⟩ := by
  simp only [L3State.getBookView, h.entriesOf, ok_bind]
  rfl

/-- What a snapshot leaves: its orders as if each had been added, within the window. -/
def snapshotOrders (depth : Option ℕ) (snapshot : L3Snapshot) : List Order :=
  PriceTime.truncate depth (snapshot.orders.foldl (fun L u => add L u.order) [])

/-- What a batch leaves: the updates in order, within the window. -/
def batchOrders (depth : Option ℕ) (L : List Order) (updates : List L3Update) : List Order :=
  PriceTime.truncate depth (updates.foldl updateOrders L)

/-- The issue a crossed result adds to what the updates reported. -/
def crossedIssue (L : List Order) (slot : Option IntegrityIssue) : Option IntegrityIssue :=
  if isCrossed (PriceTime.best L .bid) (PriceTime.best L .ask) then reportIssue slot .crossedBook else slot

/-- The change set of a snapshot. -/
def snapshotResult (depth : Option ℕ) (snapshot : L3Snapshot) : ChangeSet :=
  { snapshotChanges [] {} snapshot.orders with
    bidTopOfBookChanged := true
    askTopOfBookChanged := true
    integrityIssue := crossedIssue (snapshotOrders depth snapshot) none }

/-- The change set of a batch. -/
def batchResult (depth : Option ℕ) (L : List Order) (updates : List L3Update) : ChangeSet :=
  { batchChanges L {} updates with
    bidTopOfBookChanged := PriceTime.best L .bid != PriceTime.best (batchOrders depth L updates) .bid
    askTopOfBookChanged := PriceTime.best L .ask != PriceTime.best (batchOrders depth L updates) .ask
    integrityIssue := crossedIssue (batchOrders depth L updates)
      (if anyUnknown L updates then some .unknownOrder else none) }

theorem applySnapshot (st : L3State) (snapshot : L3Snapshot) :
    ∃ st', st.applySnapshot snapshot = .ok (st', snapshotResult st.maxDepth snapshot) ∧
      Rep (snapshotOrders st.maxDepth snapshot) st' ∧ st'.maxDepth = st.maxDepth := by
  obtain ⟨st1, hadd, hrep, hdepth⟩ := (Rep.init st.maxDepth).addAll {} snapshot.orders
  replace hdepth : st1.maxDepth = st.maxDepth := hdepth
  obtain ⟨hrep2, hdepth2⟩ := hrep.truncate
  rw [hdepth] at hrep2 hdepth2
  refine ⟨_, ?_, hrep2, hdepth2⟩
  simp only [L3State.applySnapshot, hadd, ok_bind, hrep2.best, snapshotChanges_issue]
  rfl

theorem applyBatch (h : Rep L st) (updates : List L3Update) :
    ∃ st', st.applyBatch updates = .ok (st', batchResult st.maxDepth L updates) ∧
      Rep (batchOrders st.maxDepth L updates) st' ∧ st'.maxDepth = st.maxDepth := by
  obtain ⟨st1, happ, hrep, hdepth⟩ := h.applyAll {} updates
  obtain ⟨hrep2, hdepth2⟩ := hrep.truncate
  rw [hdepth] at hrep2 hdepth2
  refine ⟨_, ?_, hrep2, hdepth2⟩
  simp only [L3State.applyBatch, happ, ok_bind, h.best, hrep2.best, batchChanges_issue]
  rfl

end Rep

end CryptoTrader
