import CryptoTrader.Spec.Exchange
import CryptoTrader.Sanity.KrakenBatch
import CryptoTrader.Sanity.Engine
import CryptoTrader.Proofs.KrakenCertified
import CryptoTrader.Proofs.L3PriceTime

/-! A Kraken book of depth `d` tracks the exchange's depth-`d` window for as long as
the feed describes it. One message takes the represented window to the next one: the
deletes and the truncation remove exactly what left it, and the adds, sorted by
timestamp, rebuild the queues of the levels that entered. -/

namespace CryptoTrader

open PriceTime OrderBook

/-- Orders of one book are told apart by their ids. -/
theorem eq_of_ids {E l l' : List Order} (hnd : (E.map (·.id)).Nodup) (hl : ∀ o ∈ l, o ∈ E) (hl' : ∀ o ∈ l', o ∈ E)
    (h : l.map (·.id) = l'.map (·.id)) : l = l' := by
  induction l generalizing l' with
  | nil => exact (List.map_eq_nil_iff.1 h.symm).symm
  | cons o l ih =>
    obtain ⟨o', l', rfl, hid, htail⟩ := List.map_eq_cons_iff.1 h.symm
    rw [List.inj_on_of_nodup_map hnd (hl o List.mem_cons_self) (hl' o' List.mem_cons_self) hid.symm,
      ih (fun a ha => hl a (List.mem_cons_of_mem _ ha)) (fun a ha => hl' a (List.mem_cons_of_mem _ ha)) htail.symm]

namespace ExchangeBook

variable {d : ℕ} {e : ExchangeBook} {o : Order}

theorem resting_nodup (e : ExchangeBook) : (e.resting.map (·.id)).Nodup := by
  have h := e.nodup
  rwa [resting, List.map_map]

theorem window_nodup (d : ℕ) (e : ExchangeBook) : ((e.window d).map (·.id)).Nodup := truncate_nodup e.resting_nodup _

theorem mem_resting_of_window (h : o ∈ e.window d) : o ∈ e.resting := (mem_truncate.1 h).1

theorem mem_ids (h : o ∈ e.resting) : o.id ∈ e.ids := List.mem_map.2 ⟨o, h, rfl⟩

theorem mem_windowIds (h : o ∈ e.window d) : o.id ∈ e.windowIds d := List.mem_map.2 ⟨o, h, rfl⟩

theorem price_mem_window (h : o ∈ e.window d) : o.price ∈ prices (e.window d) o.side :=
  mem_prices.2 ⟨o, h, rfl, rfl⟩

/-- A level is in the window as a whole. -/
theorem mem_window_of_price (h : o ∈ e.resting) (hp : o.price ∈ prices (e.window d) o.side) : o ∈ e.window d :=
  mem_truncate.2 ⟨h, (mem_prices_truncate.1 hp).2⟩

theorem level_window {s : Side} {p : Price} (hp : p ∈ prices (e.window d) s) :
    level (e.window d) s p = level e.resting s p := by
  rw [window, level_truncate, if_pos (mem_prices_truncate.1 hp).2]

theorem eq_of_id {a b : Order} (ha : a ∈ e.resting) (hb : b ∈ e.resting) (h : a.id = b.id) : a = b :=
  List.inj_on_of_nodup_map e.resting_nodup ha hb h

/-- No window is crossed. -/
theorem window_not_crossed (d : ℕ) (e : ExchangeBook) (slot : Option IntegrityIssue) :
    Rep.crossedIssue (e.window d) slot = slot := by
  have hbest : isCrossed (best (e.window d) .bid) (best (e.window d) .ask) = false := by
    cases hb : best (e.window d) .bid with
    | none => rfl
    | some b =>
      cases ha : best (e.window d) .ask with
      | none => rfl
      | some a =>
        obtain ⟨ob, hob, hbs, hbp⟩ := mem_prices.1 (best_mem hb)
        obtain ⟨oa, hoa, has, hap⟩ := mem_prices.1 (best_mem ha)
        obtain ⟨xb, hxb, rfl⟩ := List.mem_map.1 (mem_resting_of_window hob)
        obtain ⟨xa, hxa, rfl⟩ := List.mem_map.1 (mem_resting_of_window hoa)
        have hlt := e.uncrossed xb hxb xa hxa hbs has
        rw [hbp, hap] at hlt
        simpa [isCrossed] using hlt
  rw [Rep.crossedIssue, hbest]
  rfl

end ExchangeBook

open ExchangeBook

section Events

variable {d : ℕ} {e e' : ExchangeBook}

theorem delete_mem_windowEvents {id : OrderId} :
    WindowEvent.delete id ∈ windowEvents d e e' ↔ ∃ o ∈ e.window d, o.id ∉ e'.ids ∧ o.id = id := by
  simp [windowEvents, and_assoc]

theorem modify_mem_windowEvents {id : OrderId} {q : Quantity} :
    WindowEvent.modify id q ∈ windowEvents d e e' ↔
      ∃ o' ∈ e'.window d, (∃ o ∈ e.window d, o.id = o'.id ∧ o.quantity ≠ o'.quantity) ∧
        o'.id = id ∧ o'.quantity = q := by
  simp [windowEvents, and_assoc]

theorem add_mem_windowEvents {x : ExchangeOrder} :
    WindowEvent.add x ∈ windowEvents d e e' ↔
      x ∈ e'.orders ∧ x.order ∈ e'.window d ∧ x.order.id ∉ e.windowIds d := by
  simp [windowEvents]

/-- Each order is named at most once. -/
theorem windowEvents_nodup (d : ℕ) (e e' : ExchangeBook) : ((windowEvents d e e').map WindowEvent.id).Nodup := by
  have hdel : (((e.window d).filter fun o => o.id ∉ e'.ids).map (·.id)).Nodup :=
    (e.window_nodup d).sublist (List.filter_sublist.map _)
  have hmod (P : Order → Bool) : (((e'.window d).filter P).map (·.id)).Nodup :=
    (e'.window_nodup d).sublist (List.filter_sublist.map _)
  have hadd (P : ExchangeOrder → Bool) : ((e'.orders.filter P).map fun x => x.order.id).Nodup :=
    e'.nodup.sublist (List.filter_sublist.map _)
  simp only [windowEvents, List.map_append, List.map_map, Function.comp_def, WindowEvent.id]
  refine List.nodup_append.2 ⟨List.nodup_append.2 ⟨hdel, hmod _, ?_⟩, hadd _, ?_⟩
  · intro a ha b hb hab
    obtain ⟨o, ho, rfl⟩ := List.mem_map.1 ha
    obtain ⟨o', ho', rfl⟩ := List.mem_map.1 hb
    have hgone := (List.mem_filter.1 ho).2
    simp only [decide_eq_true_eq] at hgone
    exact hgone (hab ▸ mem_ids (mem_resting_of_window (List.mem_filter.1 ho').1))
  · intro a ha b hb hab
    obtain ⟨x, hx, rfl⟩ := List.mem_map.1 hb
    obtain ⟨hx', hnew⟩ := List.mem_filter.1 hx
    simp only [decide_eq_true_eq] at hnew
    rcases List.mem_append.1 ha with ha | ha
    · obtain ⟨o, ho, rfl⟩ := List.mem_map.1 ha
      exact hnew.2 (hab ▸ mem_windowIds (List.mem_filter.1 ho).1)
    · obtain ⟨o', ho', rfl⟩ := List.mem_map.1 ha
      have hold := (List.mem_filter.1 ho').2
      simp only [decide_eq_true_eq] at hold
      obtain ⟨o, ho, hid, -⟩ := hold
      exact hnew.2 (hab ▸ hid ▸ mem_windowIds ho)

end Events

theorem KrakenL3Update.windowEvent_id (u : KrakenL3Update) : u.windowEvent.id = u.update.orderId := by
  unfold KrakenL3Update.windowEvent
  cases hev : u.update.event <;> rfl

/-- The order an add announces. -/
def WindowEvent.added? : WindowEvent → Option ExchangeOrder
  | .add x => some x
  | _ => none

theorem filterMap_added (us : List KrakenL3Update) :
    (us.map KrakenL3Update.windowEvent).filterMap WindowEvent.added? = (us.filter (·.isAdd)).map (·.exchangeOrder) := by
  induction us with
  | nil => rfl
  | cons u us ih =>
    rw [List.map_cons, List.filterMap_cons, ih]
    cases hev : u.update.event <;>
      simp [KrakenL3Update.windowEvent, KrakenL3Update.isAdd, hev, WindowEvent.added?]

namespace DescribesStep

variable {d : ℕ} {e e' : ExchangeBook} {batch : KrakenBatch}

theorem mem_iff (hm : DescribesStep d e e' batch) {event : WindowEvent} :
    event ∈ windowEvents d e e' ↔ ∃ u ∈ batch.updates, u.windowEvent = event := by
  rw [← hm.events.mem_iff, List.mem_map]

/-- The updates in the order the book applies them. -/
theorem mem_ordered {batch : KrakenBatch} {u : L3Update} :
    u ∈ addsInArrivalOrder batch.updates ↔ ∃ v ∈ batch.updates, v.update = u := by
  rw [(addsInArrivalOrder_perm batch.updates).mem_iff, List.mem_map]

theorem ids_nodup (hm : DescribesStep d e e' batch) : ((addsInArrivalOrder batch.updates).map (·.orderId)).Nodup := by
  have hids : (batch.updates.map (·.update)).map (·.orderId) =
      (batch.updates.map KrakenL3Update.windowEvent).map WindowEvent.id := by
    simp only [List.map_map, Function.comp_def, KrakenL3Update.windowEvent_id]
  rw [((addsInArrivalOrder_perm batch.updates).map _).nodup_iff, hids, (hm.events.map _).nodup_iff]
  exact windowEvents_nodup d e e'

theorem known (hm : DescribesStep d e e' batch) :
    ∀ u ∈ addsInArrivalOrder batch.updates, u.event ≠ .added → u.orderId ∈ (e.window d).map (·.id) := by
  intro u hu hadd
  obtain ⟨v, hv, rfl⟩ := mem_ordered.1 hu
  have hmem := hm.mem_iff.2 ⟨v, hv, rfl⟩
  cases hev : v.update.event with
  | added => exact absurd hev hadd
  | modified =>
    simp only [KrakenL3Update.windowEvent, hev] at hmem
    obtain ⟨o', -, ⟨o, ho, hid, -⟩, hid', -⟩ := modify_mem_windowEvents.1 hmem
    exact List.mem_map.2 ⟨o, ho, hid.trans hid'⟩
  | deleted =>
    simp only [KrakenL3Update.windowEvent, hev] at hmem
    obtain ⟨o, ho, -, hid⟩ := delete_mem_windowEvents.1 hmem
    exact List.mem_map.2 ⟨o, ho, hid⟩

/-- Of the window's orders, the batch drops those that left the book. -/
theorem dropped_iff (hm : DescribesStep d e e' batch) {o : Order} (ho : o ∈ e.window d) :
    droppedBy (addsInArrivalOrder batch.updates) o.id = true ↔ o.id ∉ e'.ids := by
  rw [droppedBy, List.any_eq_true]
  constructor
  · rintro ⟨u, hu, hdrop⟩
    obtain ⟨hev, hid⟩ := of_decide_eq_true hdrop
    obtain ⟨v, hv, rfl⟩ := mem_ordered.1 hu
    have hmem := hm.mem_iff.2 ⟨v, hv, rfl⟩
    cases hev' : v.update.event with
    | added =>
      simp only [KrakenL3Update.windowEvent, hev'] at hmem
      exact absurd (mem_windowIds ho) (hid ▸ (add_mem_windowEvents.1 hmem).2.2)
    | modified => exact absurd hev' hev
    | deleted =>
      simp only [KrakenL3Update.windowEvent, hev'] at hmem
      obtain ⟨a, -, hgone, ha⟩ := delete_mem_windowEvents.1 hmem
      rwa [ha, hid] at hgone
  · intro hgone
    obtain ⟨v, hv, hfeed⟩ := hm.mem_iff.1 (delete_mem_windowEvents.2 ⟨o, ho, hgone, rfl⟩)
    refine ⟨v.update, mem_ordered.2 ⟨v, hv, rfl⟩, ?_⟩
    unfold KrakenL3Update.windowEvent at hfeed
    cases hev : v.update.event <;> simp_all

/-- An order that stays in the window has its new quantity after the batch. -/
theorem revised_eq (hf : ExchangeStep d e e') (hm : DescribesStep d e e' batch) {o o' : Order} (ho : o ∈ e.window d)
    (ho' : o' ∈ e'.window d) (hid : o.id = o'.id) : revisedBy (addsInArrivalOrder batch.updates) o = o' := by
  obtain ⟨hside, hprice⟩ := hf.fixed o (mem_resting_of_window ho) o' (mem_resting_of_window ho') hid
  have hsame {q : Quantity} (hq : q = o'.quantity) : ({ o with quantity := q } : Order) = o' := by
    cases o; cases o'
    simp_all
  unfold revisedBy
  cases hfind : (addsInArrivalOrder batch.updates).find? fun u => u.event = .modified ∧ u.orderId = o.id with
  | some u =>
    have hsome := List.find?_some hfind
    simp only [decide_eq_true_eq] at hsome
    obtain ⟨hev, hu⟩ := hsome
    obtain ⟨v, hv, rfl⟩ := mem_ordered.1 (List.mem_of_find?_eq_some hfind)
    have hmem := hm.mem_iff.2 ⟨v, hv, rfl⟩
    simp only [KrakenL3Update.windowEvent, hev] at hmem
    obtain ⟨a, ha, -, haid, haq⟩ := modify_mem_windowEvents.1 hmem
    have hao : a = o' :=
      eq_of_id (mem_resting_of_window ha) (mem_resting_of_window ho') (haid.trans (hu.trans hid))
    exact hsame (haq.symm.trans (congrArg Order.quantity hao))
  | none =>
    refine hsame (not_not.1 fun hq => ?_)
    obtain ⟨v, hv, hfeed⟩ := hm.mem_iff.1 (modify_mem_windowEvents.2 ⟨o', ho', ⟨o, ho, hid, hq⟩, rfl, rfl⟩)
    have hnone := List.find?_eq_none.1 hfind v.update (mem_ordered.2 ⟨v, hv, rfl⟩)
    unfold KrakenL3Update.windowEvent at hfeed
    cases hev : v.update.event <;> simp_all

/-- The orders that enter the window, in the order the book adds them. -/
def joining (batch : KrakenBatch) : List ExchangeOrder := (sortedAdds batch.updates).map (·.exchangeOrder)

theorem joining_perm (hm : DescribesStep d e e' batch) :
    (joining batch).Perm (e'.orders.filter fun x => x.order ∈ e'.window d ∧ x.order.id ∉ e.windowIds d) := by
  have hevents := hm.events.filterMap WindowEvent.added?
  rw [filterMap_added] at hevents
  refine ((sortedAdds_perm batch.updates).map _).trans (hevents.trans (List.Perm.of_eq ?_))
  simp only [windowEvents, List.filterMap_append, List.filterMap_map, Function.comp_def, WindowEvent.added?,
    List.filterMap_none, List.nil_append, List.filterMap_some]

theorem joining_pairwise (batch : KrakenBatch) : (joining batch).Pairwise fun a b => a.key ≤ b.key :=
  List.pairwise_map.2 (sortedAdds_pairwise batch.updates)

/-- On a level of the new window, the orders that join are those of the exchange's
queue that were not in the old window, in the same order. -/
theorem joining_level (hm : DescribesStep d e e' batch) {s : Side} {p : Price} (hp : p ∈ prices (e'.window d) s) :
    level ((joining batch).map (·.order)) s p = (level e'.resting s p).filter (·.id ∉ e.windowIds d) := by
  let here : ExchangeOrder → Bool := fun x => x.order.side = s ∧ x.order.price = p
  have hlevel (l : List ExchangeOrder) : level (l.map (·.order)) s p = (l.filter here).map (·.order) := by
    rw [level, List.filter_map]
    rfl
  have hperm := hm.joining_perm.filter here
  have hstrict : (((e'.orders.filter fun x => x.order ∈ e'.window d ∧ x.order.id ∉ e.windowIds d).filter
      here)).Pairwise fun a b => a.key < b.key := by
    refine (e'.queues.sublist (List.filter_sublist.trans List.filter_sublist)).imp_of_mem fun {a b} ha hb hab => ?_
    have ha' := of_decide_eq_true (List.mem_filter.1 ha).2
    have hb' := of_decide_eq_true (List.mem_filter.1 hb).2
    exact hab (ha'.1.trans hb'.1.symm) (ha'.2.trans hb'.2.symm)
  have hkeys := (List.pairwise_map (f := ExchangeOrder.key)).2 (hstrict.imp fun h => ne_of_lt h)
  have heq := List.Perm.eq_of_pairwise
    (fun a b ha hb hab hba => List.inj_on_of_nodup_map hkeys (hperm.mem_iff.1 ha) hb (le_antisymm hab hba))
    ((joining_pairwise batch).sublist List.filter_sublist) (hstrict.imp fun h => le_of_lt h) hperm
  rw [hlevel, heq, resting, hlevel, List.filter_map, List.filter_filter, List.filter_filter]
  congr 1
  refine List.filter_congr fun x hx => ?_
  by_cases hxp : x.order.side = s ∧ x.order.price = p
  · obtain ⟨rfl, rfl⟩ := hxp
    have hin : x.order ∈ e'.window d := mem_window_of_price (List.mem_map.2 ⟨x, hx, rfl⟩) hp
    simp [here, hin]
  · have hno : here x = false := decide_eq_false hxp
    simp [hno]

/-- The book after the batch and before the truncation. -/
def applied (d : ℕ) (e : ExchangeBook) (batch : KrakenBatch) : List Order :=
  (addsInArrivalOrder batch.updates).foldl updateOrders (e.window d)

theorem applied_eq (hm : DescribesStep d e e' batch) :
    applied d e batch =
      ((e.window d).filter (·.id ∈ e'.ids)).map (revisedBy (addsInArrivalOrder batch.updates)) ++
        (joining batch).map (·.order) := by
  rw [applied, foldl_updateOrders hm.ids_nodup, addsInArrivalOrder_adds, joining, List.map_map, List.map_map]
  congr 2
  refine List.filter_congr fun o ho => ?_
  have hdrop := hm.dropped_iff ho
  by_cases hin : o.id ∈ e'.ids
  · simpa [hin] using hdrop
  · simpa [hin] using hdrop

theorem mem_joining (hm : DescribesStep d e e' batch) {o : Order} (ho : o ∈ (joining batch).map (·.order)) :
    o ∈ e'.resting := by
  obtain ⟨x, hx, rfl⟩ := List.mem_map.1 ho
  exact List.mem_map.2 ⟨x, (List.mem_filter.1 (hm.joining_perm.mem_iff.1 hx)).1, rfl⟩

/-- An order of the new window is a survivor as the batch revised it, at the place where
the exchange still has it, or it joined. -/
theorem applied_cases (hf : ExchangeStep d e e') (hm : DescribesStep d e e' batch) {o : Order}
    (ho : o ∈ applied d e batch) :
    (∃ a ∈ e.window d, ∃ o' ∈ e'.resting, o = revisedBy (addsInArrivalOrder batch.updates) a ∧ o'.id = a.id ∧
      a.side = o'.side ∧ a.price = o'.price) ∨ o ∈ e'.resting := by
  rw [hm.applied_eq, List.mem_append] at ho
  rcases ho with ho | ho
  · obtain ⟨a, ha, rfl⟩ := List.mem_map.1 ho
    obtain ⟨haw, hin⟩ := List.mem_filter.1 ha
    obtain ⟨o', ho', hid⟩ := List.mem_map.1 (of_decide_eq_true hin)
    obtain ⟨hside, hprice⟩ := hf.fixed a (mem_resting_of_window haw) o' ho' hid.symm
    exact .inl ⟨a, haw, o', ho', rfl, hid, hside, hprice⟩
  · exact .inr (hm.mem_joining ho)

/-- The batch leaves no level that the exchange does not have. -/
theorem applied_prices (hf : ExchangeStep d e e') (hm : DescribesStep d e e' batch) (s : Side) :
    prices (applied d e batch) s ⊆ prices e'.resting s := by
  intro p hp
  obtain ⟨o, ho, rfl, rfl⟩ := mem_prices.1 hp
  rcases hm.applied_cases hf ho with ⟨a, -, o', ho', rfl, -, hside, hprice⟩ | ho
  · rw [revisedBy_side, revisedBy_price]
    exact mem_prices.2 ⟨o', ho', hside.symm, hprice.symm⟩
  · exact mem_prices.2 ⟨o, ho, rfl, rfl⟩

/-- On a level of the new window every order is the exchange's. -/
theorem applied_mem (hf : ExchangeStep d e e') (hm : DescribesStep d e e' batch) {o : Order}
    (ho : o ∈ applied d e batch) (hp : o.price ∈ prices (e'.window d) o.side) : o ∈ e'.resting := by
  rcases hm.applied_cases hf ho with ⟨a, haw, o', ho', rfl, hid, hside, hprice⟩ | ho
  · rw [revisedBy_side, revisedBy_price, hside, hprice] at hp
    rwa [hm.revised_eq hf haw (mem_window_of_price ho' hp) hid.symm]
  · exact ho

/-- The queue of the new window: the survivors of the old one, then those who joined. -/
theorem queue_split (hf : ExchangeStep d e e') {s : Side} {p : Price} :
    queue e'.resting s p =
      (queue (e.window d) s p).filter (· ∈ e'.ids) ++ (queue e'.resting s p).filter (· ∉ e.windowIds d) := by
  -- an order at this price that was in the old book was in the old window if the level was
  have hold {id : OrderId} (hid : id ∈ queue e'.resting s p) {o : Order} (ho : o ∈ e.resting) (hoid : o.id = id) :
      o.side = s ∧ o.price = p := by
    obtain ⟨o', ho', rfl⟩ := List.mem_map.1 hid
    obtain ⟨hmem, rfl, rfl⟩ := mem_level.1 ho'
    exact hf.fixed o ho o' hmem hoid
  by_cases hp : p ∈ prices (e.window d) s
  · have hq : queue (e.window d) s p = queue e.resting s p := by rw [queue, level_window hp, queue]
    have hnew : (queue e'.resting s p).filter (· ∉ e.ids) = (queue e'.resting s p).filter (· ∉ e.windowIds d) := by
      refine List.filter_congr fun id hid => decide_eq_decide.2 (not_congr ?_)
      constructor
      · intro hin
        obtain ⟨o, ho, hoid⟩ := List.mem_map.1 hin
        obtain ⟨rfl, rfl⟩ := hold hid ho hoid
        exact hoid ▸ mem_windowIds (mem_window_of_price ho hp)
      · intro hin
        obtain ⟨o, ho, hoid⟩ := List.mem_map.1 hin
        exact hoid ▸ mem_ids (mem_resting_of_window ho)
    rw [hq, ← hnew]
    exact hf.joins s p hp
  · have hq : queue (e.window d) s p = [] := queue_eq_nil.2 hp
    rw [hq, List.filter_nil, List.nil_append]
    refine (List.filter_eq_self.2 fun id hid => decide_eq_true ?_).symm
    intro hin
    obtain ⟨o, ho, hoid⟩ := List.mem_map.1 hin
    obtain ⟨rfl, rfl⟩ := hold hid (mem_resting_of_window ho) hoid
    exact hp (price_mem_window ho)

theorem applied_level (hf : ExchangeStep d e e') (hm : DescribesStep d e e' batch) {s : Side} {p : Price}
    (hp : p ∈ prices (e'.window d) s) : level (applied d e batch) s p = level e'.resting s p := by
  refine eq_of_ids e'.resting_nodup (fun o ho => ?_) (fun o ho => (mem_level.1 ho).1) ?_
  · obtain ⟨hmem, rfl, rfl⟩ := mem_level.1 ho
    exact hm.applied_mem hf hmem hp
  · have hsurvivors : queue (((e.window d).filter (·.id ∈ e'.ids)).map
        (revisedBy (addsInArrivalOrder batch.updates))) s p =
        (queue (e.window d) s p).filter (· ∈ e'.ids) := by
      rw [queue, level_revisedBy, List.map_map, queue, List.filter_map]
      simp only [level, Function.comp_def, revisedBy_id, List.filter_filter, Bool.and_comm]
    have hjoin : queue ((joining batch).map (·.order)) s p =
        (queue e'.resting s p).filter (· ∉ e.windowIds d) := by
      rw [queue, hm.joining_level hp, queue, List.filter_map]
      rfl
    change queue (applied d e batch) s p = queue e'.resting s p
    rw [hm.applied_eq, queue, level, List.filter_append, List.map_append, queue_split hf, ← hjoin, ← hsurvivors]
    rfl

/-- After the truncation the book has the levels of the new window. -/
theorem applied_window (hf : ExchangeStep d e e') (hm : DescribesStep d e e' batch) :
    SameLevels (truncate (some d) (applied d e batch)) (e'.window d) :=
  truncate_sameLevels (hm.applied_prices hf) fun _ _ hp => hm.applied_level hf hp

end DescribesStep

section Snapshot

variable {d : ℕ} {e : ExchangeBook} {snap : KrakenSnapshot}

theorem DescribesWindow.perm (hw : DescribesWindow d e snap) :
    (snap.snapshot.orders.map L3Update.order).Perm (e.window d) := by
  have hsides (L : List Order) : (L.filter (·.side = .bid) ++ L.filter (·.side = .ask)).Perm L := by
    have hask : L.filter (·.side = .ask) = L.filter fun o => !decide (o.side = .bid) :=
      List.filter_congr fun o _ => by cases o.side <;> rfl
    rw [hask]
    exact List.filter_append_perm _ L
  refine (hsides _).symm.trans (List.Perm.trans ?_ (hsides (e.window d)))
  rw [hw.orders .bid, hw.orders .ask]
  exact (priority_perm _ _).append (priority_perm _ _)

/-- A snapshot of the window leaves the levels of the window. -/
theorem DescribesWindow.sameLevels (hw : DescribesWindow d e snap) :
    SameLevels (Rep.snapshotOrders (some d) snap.snapshot) (e.window d) := by
  have hids : (snap.snapshot.orders.map (·.orderId)).Nodup := by
    have hnd := (hw.perm.map (·.id)).nodup_iff.2 (e.window_nodup d)
    rwa [List.map_map] at hnd
  have hsame : SameLevels (snap.snapshot.orders.map L3Update.order) (e.window d) := by
    intro s p
    have hside : level (snap.snapshot.orders.map L3Update.order) s p =
        ((snap.snapshot.orders.map L3Update.order).filter (·.side = s)).filter
          fun o => o.side = s ∧ o.price = p := by
      rw [level, List.filter_filter]
      refine List.filter_congr fun o _ => ?_
      by_cases ho : o.side = s <;> simp [ho]
    rw [hside, hw.orders, level_priority]
  rw [Rep.snapshotOrders, foldl_add hids [] (by simp), List.nil_append]
  have htrunc := hsame.truncate d
  rwa [show truncate (some d) (e.window d) = e.window d from truncate_truncate _ _] at htrunc

end Snapshot

section Tracking

variable {L L' : List Order} {st : L3State}

theorem Rep.of_sameLevels (h : Rep L st) (hnd : (L'.map (·.id)).Nodup) (hsame : SameLevels L L') : Rep L' st := by
  refine ⟨hnd, fun s p => ?_, fun id => ?_⟩
  · rw [h.levels, heldQueue, heldQueue, queue, queue, hsame]
  · have hlook : lookup L id = lookup L' id := by
      ext o
      rw [lookup_eq_some h.nodup, lookup_eq_some hnd, hsame.mem_iff]
    rw [h.index, hlook]

/-- Whether a book is crossed depends on the book alone. -/
theorem Rep.crossedIssue_eq (h : Rep L st) (h' : Rep L' st) (slot : Option IntegrityIssue) :
    Rep.crossedIssue L slot = Rep.crossedIssue L' slot := by
  have hbest (s : Side) : PriceTime.best L s = PriceTime.best L' s := Except.ok.inj ((h.best s).symm.trans (h'.best s))
  rw [Rep.crossedIssue, Rep.crossedIssue, hbest, hbest]

theorem L3Policy.view_eq {p : L3Policy} (h : Rep L p.state) : p.getBookView none = view L := by
  have hside (s : Side) : (limitTo none (p.state.levels.get s).keys).flatMap (Rep.levelView L s) =
      (priority L s).map fun o => ⟨o.price, o.quantity⟩ := by
    rw [limitTo, h.keys_eq, priority, List.map_flatMap]
    exact List.flatMap_congr fun q _ => Rep.levelView_eq L s q
  rw [L3Policy.getBookView_eq h, hside, hside, view]

namespace KrakenL3Policy

variable {d : ℕ} {e e' : ExchangeBook} {p : KrakenL3Policy}

theorem verifyChecksum_match {book : L3Policy} {cs : ChangeSet} {msgMeta : ChecksumMeta} (h : Rep L book.state)
    (hsum : msgMeta.checksum = krakenL3Checksum (view L)) : verifyChecksum book cs msgMeta = cs := by
  rw [verifyChecksum, if_neg]
  rw [L3Policy.checksum_window, L3Policy.view_eq h, hsum, not_not]

/-- A snapshot of the window puts the book in the window, without an issue. -/
theorem applySnapshot_tracks {snap : KrakenSnapshot} (hdepth : p.book.state.maxDepth = some d)
    (hw : DescribesWindow d e snap) :
    (p.applySnapshot snap).2.integrityIssue = none ∧ Rep (e.window d) (p.applySnapshot snap).1.book.state := by
  obtain ⟨hrep, -, hissue⟩ := p.book.applySnapshot_spec snap.snapshot
  rw [hdepth] at hrep hissue
  have hrep' := hrep.of_sameLevels (e.window_nodup d) hw.sameLevels
  refine ⟨?_, hrep'⟩
  simp only [applySnapshot, verifyChecksum_match hrep' hw.checksum, hissue, hrep.crossedIssue_eq hrep']
  exact window_not_crossed d e none

/-- One message takes the book from one window to the next, without an issue. -/
theorem applyBatch_tracks {batch : KrakenBatch} (hdepth : p.book.state.maxDepth = some d)
    (hrep : Rep (e.window d) p.book.state) (hf : ExchangeStep d e e') (hm : DescribesStep d e e' batch) :
    (p.applyBatch batch).2.integrityIssue = none ∧ Rep (e'.window d) (p.applyBatch batch).1.book.state := by
  obtain ⟨hrep1, -, hissue⟩ := L3Policy.applyBatch_spec hrep (addsInArrivalOrder batch.updates)
  rw [hdepth] at hrep1 hissue
  have hrep' := hrep1.of_sameLevels (e'.window_nodup d) (hm.applied_window hf)
  refine ⟨?_, hrep'⟩
  simp only [applyBatch, verifyChecksum_match hrep' hm.checksum, hissue, hrep1.crossedIssue_eq hrep',
    anyUnknown_eq_false hm.ids_nodup hm.known]
  exact window_not_crossed d e' none

end KrakenL3Policy

end Tracking

open GranularityPolicy in
/-- The snapshot and the first `n` messages are applied cleanly and lead to window `n`. -/
theorem replay_tracks {d : ℕ} {E : ℕ → ExchangeBook} (hstep : ∀ i, ExchangeStep d (E i) (E (i + 1)))
    {snap : KrakenSnapshot} (hsnap : DescribesWindow d (E 0) snap) {msgs : ℕ → KrakenBatch}
    (hmsgs : ∀ i, DescribesStep d (E i) (E (i + 1)) (msgs i)) (n : ℕ) :
    CleanReplay (KrakenL3Policy.init (some d)) snap ((List.range n).map msgs) ∧
      (replay (KrakenL3Policy.init (some d)) snap ((List.range n).map msgs)).book.state.maxDepth = some d ∧
      Rep ((E n).window d) (replay (KrakenL3Policy.init (some d)) snap ((List.range n).map msgs)).book.state := by
  induction n with
  | zero =>
    obtain ⟨hclean, hrep⟩ := KrakenL3Policy.applySnapshot_tracks (p := KrakenL3Policy.init (some d)) rfl hsnap
    exact ⟨⟨hclean, trivial⟩, KrakenL3Policy.applySnapshot_maxDepth _ snap, hrep⟩
  | succ n ih =>
    obtain ⟨hclean, hdepth, hrep⟩ := ih
    obtain ⟨hissue, hrep'⟩ := KrakenL3Policy.applyBatch_tracks hdepth hrep (hstep n) (hmsgs n)
    rw [List.range_succ, List.map_append, List.map_singleton, cleanReplay_snoc, replay_snoc]
    exact ⟨⟨hclean, hissue⟩, (KrakenL3Policy.applyBatch_maxDepth _ _).trans hdepth, hrep'⟩

/-- After the snapshot and any number of messages the book is Ready, has reported no
issue, and holds exactly the exchange's window: its levels, queues and quantities. -/
theorem depth_book_tracks_window {d : ℕ} {E : ℕ → ExchangeBook} (hstep : ∀ i, ExchangeStep d (E i) (E (i + 1)))
    {snap : KrakenSnapshot} (hsnap : DescribesWindow d (E 0) snap) {msgs : ℕ → KrakenBatch}
    (hmsgs : ∀ i, DescribesStep d (E i) (E (i + 1)) (msgs i)) (n : ℕ) :
    let start : OrderBook KrakenL3Policy := ⟨KrakenL3Policy.init (some d), .uninitialized⟩
    let calls := EngineCall.snapshot snap :: batches ((List.range n).map msgs)
    let book := (start.run calls).policy.book
    (start.run calls).readiness = .ready ∧
    (∀ issue, ListenerCall.onIntegrityCheckFailed issue ∉ start.heard calls) ∧
    (∀ s, book.state.levelsOf s =
      (levelPrices ((E n).window d) s).map fun p => (p, queue ((E n).window d) s p)) ∧
    (∀ id, book.state.orderQuantity id = (lookup ((E n).window d) id).map (·.quantity)) ∧
    book.getBookView none = view ((E n).window d) := by
  intro start calls book
  obtain ⟨hclean, -, hrep⟩ := replay_tracks hstep hsnap hmsgs n
  have hrun := run_cleanReplay start snap _ hclean
  have hbook : Rep ((E n).window d) book.state := by
    simp only [book, calls, hrun]
    exact hrep
  refine ⟨?_, heard_cleanReplay start snap _ hclean, hbook.levelsOf_eq, hbook.orderQuantity_eq, L3Policy.view_eq hbook⟩
  simp only [calls, hrun]

/-- Two bid levels and one ask level, of which depth 1 shows the first bid level. -/
def bookBefore : ExchangeBook where
  orders := [⟨⟨1, .bid, 100, 5⟩, [49]⟩, ⟨⟨2, .bid, 99, 3⟩, [50]⟩, ⟨⟨5, .bid, 99, 1⟩, [52]⟩, ⟨⟨3, .ask, 101, 2⟩, [49]⟩]
  nodup := by decide
  uncrossed := by decide
  queues := by decide

/-- The best bid is gone, the second bid level enters the window and an ask joins. -/
def bookAfter : ExchangeBook where
  orders := [⟨⟨2, .bid, 99, 3⟩, [50]⟩, ⟨⟨5, .bid, 99, 1⟩, [52]⟩, ⟨⟨3, .ask, 101, 4⟩, [49]⟩, ⟨⟨4, .ask, 101, 7⟩, [53]⟩]
  nodup := by decide
  uncrossed := by decide
  queues := by decide

def shortHistory : ℕ → ExchangeBook
  | 0 => bookBefore
  | _ + 1 => bookAfter

def shortSnapshot : KrakenSnapshot :=
  ⟨⟨[⟨.added, 1, .bid, 100, 5⟩, ⟨.added, 3, .ask, 101, 2⟩]⟩, ⟨krakenL3Checksum (view (bookBefore.window 1))⟩⟩

def shortFeed : ℕ → KrakenBatch
  | 0 => ⟨[⟨⟨.added, 5, .bid, 99, 1⟩, [52]⟩, ⟨⟨.added, 2, .bid, 99, 3⟩, [50]⟩, ⟨⟨.deleted, 1, .bid, 100, 5⟩, [51]⟩,
      ⟨⟨.added, 4, .ask, 101, 7⟩, [53]⟩, ⟨⟨.modified, 3, .ask, 101, 4⟩, [49]⟩],
      ⟨krakenL3Checksum (view (bookAfter.window 1))⟩⟩
  | _ + 1 => ⟨[], ⟨krakenL3Checksum (view (bookAfter.window 1))⟩⟩

theorem short_history_tracked :
    (((⟨KrakenL3Policy.init (some 1), .uninitialized⟩ : OrderBook KrakenL3Policy).run
      (EngineCall.snapshot shortSnapshot :: batches ((List.range 2).map shortFeed))).readiness = .ready) := by
  have hstep : ∀ i, ExchangeStep 1 (shortHistory i) (shortHistory (i + 1)) := by
    intro i
    cases i with
    | zero => exact ⟨by decide, fun s => by cases s <;> decide⟩
    | succ i =>
      change ExchangeStep 1 bookAfter bookAfter
      exact ⟨by decide, fun s => by cases s <;> decide⟩
  have hsnap : DescribesWindow 1 (shortHistory 0) shortSnapshot := ⟨fun s => by cases s <;> decide, rfl⟩
  have hfeed : ∀ i, DescribesStep 1 (shortHistory i) (shortHistory (i + 1)) (shortFeed i) := by
    intro i
    cases i with
    | zero => exact ⟨by decide, rfl⟩
    | succ i =>
      change DescribesStep 1 bookAfter bookAfter (shortFeed 1)
      exact ⟨by decide, rfl⟩
  exact (depth_book_tracks_window hstep hsnap hfeed 2).1

end CryptoTrader
