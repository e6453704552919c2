import CryptoTrader.Spec.L2
import CryptoTrader.Spec.Mirror
import CryptoTrader.Proofs.L3PriceTime

/-! Change sets are exact: a consumer that applies them to the levels and orders it held
before a call holds those of the book after it, once it drops what lies past the book's
depth. An update the book reports as unknown says nothing. -/

namespace CryptoTrader

open PriceTime

/-- Two change sets that tell a consumer the same. -/
structure SameNews (cs cs' : ChangeSet) : Prop where
  levelChanges : cs.levelChanges = cs'.levelChanges
  orderEvents : cs.orderEvents = cs'.orderEvents

namespace SameNews

variable {cs cs' : ChangeSet}

theorem refl (cs : ChangeSet) : SameNews cs cs := ⟨rfl, rfl⟩

theorem report (cs : ChangeSet) (issue : IntegrityIssue) : SameNews (cs.report issue) cs := ⟨rfl, rfl⟩

theorem pushLevel (h : SameNews cs cs') (change : LevelChange) :
    SameNews (cs.pushLevel change) (cs'.pushLevel change) :=
  ⟨congrArg (· ++ [change]) h.levelChanges, h.orderEvents⟩

theorem pushEvent (h : SameNews cs cs') (event : OrderEvent) :
    SameNews (cs.pushEvent event) (cs'.pushEvent event) :=
  ⟨h.levelChanges, congrArg (· ++ [event]) h.orderEvents⟩

theorem report_both (h : SameNews cs cs') (issue : IntegrityIssue) :
    SameNews (cs.report issue) (cs'.report issue) := ⟨h.levelChanges, h.orderEvents⟩

end SameNews

namespace L2Levels

/-- The update names a level that is not there. -/
def unknownIn (l : L2Levels) (update : L2Update) : Bool :=
  update.operation ≠ .new ∧ ((l.levels.get update.side).find? update.price).isNone

/-- The levels an update leaves, and what it says of them. -/
theorem applyOne_cases (l : L2Levels) (cs : ChangeSet) (update : L2Update) :
    (l.unknownIn update = true ∧ applyOne (l, cs) update = (l, cs.report .unknownLevel)) ∨
      (l.unknownIn update = false ∧ ∃ quantity, applyOne (l, cs) update =
        (⟨LevelMirror.apply l.levels ⟨update.side, update.price, quantity⟩⟩,
          cs.pushLevel ⟨update.side, update.price, quantity⟩)) := by
  obtain ⟨side, price, quantity, operation⟩ := update
  rcases hfind : (l.levels.get side).find? price with _ | held
  · cases operation with
    | new => exact .inr ⟨by simp [unknownIn], some quantity, by simp [applyOne, applyOneTo, LevelMirror.apply]⟩
    | change => exact .inl ⟨by simp [unknownIn, hfind], by simp [applyOne, applyOneTo, hfind]⟩
    | delete => exact .inl ⟨by simp [unknownIn, hfind], by simp [applyOne, applyOneTo, hfind]⟩
  · cases operation with
    | new => exact .inr ⟨by simp [unknownIn], some quantity, by simp [applyOne, applyOneTo, LevelMirror.apply]⟩
    | change =>
      exact .inr ⟨by simp [unknownIn, hfind], some quantity, by simp [applyOne, applyOneTo, hfind, LevelMirror.apply]⟩
    | delete =>
      exact .inr ⟨by simp [unknownIn, hfind], none, by simp [applyOne, applyOneTo, hfind, LevelMirror.apply]⟩

/-- The levels of a batch, followed through its level changes. -/
theorem foldl_applyOne_mirror (before : LevelMirror) (updates : List L2Update) {l : L2Levels} {cs : ChangeSet}
    (h : cs.levelChanges.foldl LevelMirror.apply before = l.levels) :
    (updates.foldl applyOne (l, cs)).2.levelChanges.foldl LevelMirror.apply before =
      (updates.foldl applyOne (l, cs)).1.levels := by
  induction updates generalizing l cs with
  | nil => exact h
  | cons update updates ih =>
    rw [List.foldl_cons]
    rcases l.applyOne_cases cs update with ⟨-, hstep⟩ | ⟨-, quantity, hstep⟩
    · rw [hstep]
      exact ih h
    · rw [hstep]
      refine ih ?_
      rw [ChangeSet.pushLevel, List.foldl_concat, h]

theorem foldl_replaceOne_mirror (levels : List L2Update) {l : L2Levels} {changes : List LevelChange}
    (h : changes.foldl LevelMirror.apply LevelMirror.empty = l.levels) :
    (levels.foldl replaceOne (l, changes)).2.foldl LevelMirror.apply LevelMirror.empty =
      (levels.foldl replaceOne (l, changes)).1.levels := by
  induction levels generalizing l changes with
  | nil => exact h
  | cons level levels ih =>
    rw [List.foldl_cons, replaceOne]
    split_ifs
    · exact ih h
    · refine ih ?_
      rw [List.foldl_concat, h]
      rfl

theorem applyOne_sameNews (l : L2Levels) {cs cs' : ChangeSet} (h : SameNews cs cs') (update : L2Update) :
    (applyOne (l, cs) update).1 = (applyOne (l, cs') update).1 ∧
      SameNews (applyOne (l, cs) update).2 (applyOne (l, cs') update).2 := by
  unfold applyOne applyOneTo
  dsimp only
  split_ifs
  · exact ⟨rfl, h.report_both _⟩
  · exact ⟨rfl, h.pushLevel _⟩
  · exact ⟨rfl, h.report_both _⟩
  · exact ⟨rfl, h.pushLevel _⟩

theorem foldl_applyOne_sameNews (updates : List L2Update) (l : L2Levels) {cs cs' : ChangeSet}
    (h : SameNews cs cs') :
    (updates.foldl applyOne (l, cs)).1 = (updates.foldl applyOne (l, cs')).1 ∧
      SameNews (updates.foldl applyOne (l, cs)).2 (updates.foldl applyOne (l, cs')).2 := by
  induction updates generalizing l cs cs' with
  | nil => exact ⟨rfl, h⟩
  | cons update updates ih =>
    obtain ⟨hl, hnews⟩ := applyOne_sameNews l h update
    simp only [List.foldl_cons]
    generalize hacc : applyOne (l, cs) update = acc at hl hnews ⊢
    generalize hacc' : applyOne (l, cs') update = acc' at hl hnews ⊢
    obtain ⟨mid, cs⟩ := acc
    obtain ⟨mid', cs'⟩ := acc'
    obtain rfl : mid = mid' := hl
    exact ih mid hnews

/-- Before the check for a crossed book, a batch reports at most an unknown level. -/
theorem foldl_applyOne_issue (updates : List L2Update) (l : L2Levels) (cs : ChangeSet)
    (h : cs.integrityIssue = none ∨ cs.integrityIssue = some .unknownLevel) :
    ((updates.foldl applyOne (l, cs)).2.integrityIssue = none ∧ cs.integrityIssue = none) ∨
      (updates.foldl applyOne (l, cs)).2.integrityIssue = some .unknownLevel := by
  induction updates generalizing l cs with
  | nil => exact h.imp_left fun hnone => ⟨hnone, hnone⟩
  | cons update updates ih =>
    rw [List.foldl_cons]
    rcases l.applyOne_cases cs update with ⟨-, hstep⟩ | ⟨-, quantity, hstep⟩
    · have hreport : (cs.report .unknownLevel).integrityIssue = some .unknownLevel := by
        rcases h with h | h <;> rw [ChangeSet.report, h] <;> rfl
      rw [hstep]
      refine .inr ((ih l _ (.inr hreport)).resolve_left ?_)
      rintro ⟨-, hnone⟩
      rw [hreport] at hnone
      cases hnone
    · rw [hstep]
      exact ih _ _ h

/-- An unknown update leaves no trace in a batch but the report. -/
theorem applyUpdates_unknown (l : L2Levels) (before after : List L2Update) (update : L2Update)
    (hunknown : (before.foldl applyOne (l, {})).1.unknownIn update = true) :
    (l.applyUpdates (before ++ update :: after)).1 = (l.applyUpdates (before ++ after)).1 ∧
      SameNews (l.applyUpdates (before ++ update :: after)).2 (l.applyUpdates (before ++ after)).2 ∧
      (l.applyUpdates (before ++ update :: after)).2.integrityIssue = some .unknownLevel := by
  have hbefore := foldl_applyOne_issue before l {} (.inl rfl)
  simp only [applyUpdates, List.foldl_append, List.foldl_cons]
  generalize before.foldl applyOne (l, {}) = acc at hunknown hbefore ⊢
  obtain ⟨mid, cs⟩ := acc
  rcases mid.applyOne_cases cs update with ⟨-, hstep⟩ | ⟨hknown, -⟩
  · have hreport : (cs.report .unknownLevel).integrityIssue = some .unknownLevel := by
      rcases hbefore with ⟨h, -⟩ | h <;> rw [ChangeSet.report, h] <;> rfl
    have hissue := (foldl_applyOne_issue after mid _ (.inr hreport)).resolve_left (by rw [hreport]; simp)
    obtain ⟨hlevels, hnews⟩ := foldl_applyOne_sameNews after mid (SameNews.report cs .unknownLevel)
    rw [hstep]
    refine ⟨hlevels, ⟨hnews.levelChanges, hnews.orderEvents⟩, ?_⟩
    rw [hissue]
    exact ite_self _
  · rw [hknown] at hunknown
    cases hunknown

/-- The level changes of a batch lead from the levels before it to those after it. -/
theorem applyUpdates_exact (l : L2Levels) (updates : List L2Update) :
    (l.applyUpdates updates).2.levelChanges.foldl LevelMirror.apply l.levels = (l.applyUpdates updates).1.levels :=
  foldl_applyOne_mirror l.levels updates rfl

theorem replaceWith_exact (levels : List L2Update) :
    (replaceWith levels).2.levelChanges.foldl LevelMirror.apply LevelMirror.empty = (replaceWith levels).1.levels :=
  foldl_replaceOne_mirror levels rfl

end L2Levels

namespace PriceTime

variable {L L' : List Order} {s : Side} {p : Price}

theorem volume_congr (h : level L s p = level L' s p) : volume L s p = volume L' s p := by
  rw [volume, volume, h]

theorem isSome_volume : (volume L s p).isSome = true ↔ p ∈ prices L s := by
  rw [volume]
  split_ifs with h
  · simpa using level_eq_nil.1 h
  · simpa using not_not.1 (mt level_eq_nil.2 h)

theorem level_delete_of_ne (hnd : (L.map (·.id)).Nodup) {o : Order} (ho : o ∈ L) (hne : ¬(s = o.side ∧ p = o.price)) :
    level (delete L o.id) s p = level L s p := by
  rw [level_delete, List.filter_eq_self]
  intro x hx
  obtain ⟨hmem, hside, hprice⟩ := mem_level.1 hx
  suffices x.id ≠ o.id by simpa using this
  intro hid
  obtain rfl := List.inj_on_of_nodup_map hnd hmem ho hid
  exact hne ⟨hside.symm, hprice.symm⟩

theorem level_append_of_ne (L : List Order) {o : Order} (hne : ¬(s = o.side ∧ p = o.price)) :
    level (L ++ [o]) s p = level L s p := by
  have hout : ¬(o.side = s ∧ o.price = p) := fun h => hne ⟨h.1.symm, h.2.symm⟩
  rw [level, level, List.filter_append, List.filter_cons_of_neg (by simpa using hout), List.filter_nil, List.append_nil]

theorem level_modify_of_ne (hnd : (L.map (·.id)).Nodup) {o : Order} (ho : o ∈ L) (q : Quantity)
    (hne : ¬(s = o.side ∧ p = o.price)) : level (modify L o.id q) s p = level L s p := by
  rw [level_modify]
  refine modify_of_not_mem (fun hid => ?_) q
  obtain ⟨x, hx, hid⟩ := List.mem_map.1 hid
  obtain ⟨hmem, hside, hprice⟩ := mem_level.1 hx
  obtain rfl := List.inj_on_of_nodup_map hnd hmem ho hid
  exact hne ⟨hside.symm, hprice.symm⟩

theorem volume_truncate (depth : Option ℕ) :
    volume (truncate depth L) s p = if InWindow depth L s p then volume L s p else none := by
  rw [volume, volume, level_truncate]
  split_ifs <;> simp_all

theorem lookup_truncate (hnd : (L.map (·.id)).Nodup) (depth : Option ℕ) (id : OrderId) :
    lookup (truncate depth L) id = (lookup L id).filter fun o => InWindow depth L o.side o.price := by
  ext o
  rw [lookup_eq_some (truncate_nodup hnd depth), mem_truncate, Option.filter_eq_some_iff, lookup_eq_some hnd,
    decide_eq_true_eq]
  exact and_right_comm

theorem truncate_none (L : List Order) : truncate none L = L :=
  List.filter_eq_self.2 fun o _ => by simp [InWindow]

end PriceTime

/-- A consumer that held some levels and orders, and was told a change set, holds the
levels and orders of a list. -/
structure Told (held : LevelMirror) (orders : OrderMirror) (cs : ChangeSet) (L : List Order) : Prop where
  nodup : (L.map (·.id)).Nodup
  volumes : ∀ s p, ((cs.levelChanges.foldl LevelMirror.apply held).get s).find? p = volume L s p
  records : ∀ id, (cs.orderEvents.foldl OrderMirror.apply orders).find? id = (lookup L id).map Order.record

namespace Told

variable {held : LevelMirror} {orders : OrderMirror} {cs : ChangeSet} {L : List Order}

/-- One level change is enough where only one level differs. -/
theorem volumes_push (h : Told held orders cs L) {L' : List Order} (side : Side) (price : Price)
    (hother : ∀ s p, ¬(s = side ∧ p = price) → level L' s p = level L s p) (s : Side) (p : Price) :
    (((cs.pushLevel ⟨side, price, volume L' side price⟩).levelChanges.foldl LevelMirror.apply held).get s).find? p =
      volume L' s p := by
  rw [ChangeSet.pushLevel, List.foldl_concat, LevelMirror.find?_apply, h.volumes]
  split_ifs with hplace
  · rw [hplace.1, hplace.2]
  · exact (volume_congr (hother s p hplace)).symm

theorem forget (h : Told held orders cs L) {o : Order} (ho : o ∈ L) :
    Told held orders (forgetChanges L cs o) (delete L o.id) := by
  refine ⟨delete_nodup h.nodup o.id, h.volumes_push o.side o.price fun s p => level_delete_of_ne h.nodup ho, ?_⟩
  intro id
  have hevents : (forgetChanges L cs o).orderEvents = cs.orderEvents ++ [⟨.deleted, o.id, o.side, o.price, 0⟩] := rfl
  rw [hevents, List.foldl_concat, OrderMirror.apply, OrdMap.find?_erase, h.records, lookup_delete]
  split_ifs <;> rfl

theorem stale (h : Told held orders cs L) (id : OrderId) :
    Told held orders (staleChanges L cs id) (delete L id) := by
  unfold staleChanges
  cases hlook : lookup L id with
  | none => rwa [delete_of_not_mem (lookup_eq_none.1 hlook)]
  | some o =>
    obtain ⟨ho, rfl⟩ := (lookup_eq_some h.nodup).1 hlook
    exact h.forget ho

theorem add (h : Told held orders cs L) (u : L3Update) :
    Told held orders (addChanges L cs u) (PriceTime.add L u.order) := by
  have hstale := h.stale u.orderId
  have hgone : u.order.id ∉ (delete L u.orderId).map (·.id) :=
    lookup_eq_none.1 ((lookup_delete L u.orderId u.orderId).trans (if_pos rfl))
  refine ⟨add_nodup h.nodup u.order,
    hstale.volumes_push u.side u.price fun s p => level_append_of_ne (o := u.order) _, ?_⟩
  intro id
  have hevents : (addChanges L cs u).orderEvents =
      (staleChanges L cs u.orderId).orderEvents ++ [⟨.added, u.orderId, u.side, u.price, u.quantity⟩] := rfl
  rw [hevents, List.foldl_concat, OrderMirror.apply, OrdMap.find?_insert, hstale.records, add_eq, L3Update.order_id,
    lookup_append hgone, L3Update.order_id]
  split_ifs <;> rfl

theorem modify (h : Told held orders cs L) {o : Order} (ho : o ∈ L) (quantity : Quantity) :
    Told held orders ((cs.pushEvent ⟨.modified, o.id, o.side, o.price, quantity⟩).pushLevel
      ⟨o.side, o.price, volume (PriceTime.modify L o.id quantity) o.side o.price⟩)
      (PriceTime.modify L o.id quantity) := by
  refine ⟨by rw [map_id_modify]; exact h.nodup,
    h.volumes_push o.side o.price fun s p => level_modify_of_ne h.nodup ho quantity, ?_⟩
  intro id
  have hfound : (cs.orderEvents.foldl OrderMirror.apply orders).find? o.id = some o.record := by
    rw [h.records, (lookup_eq_some h.nodup).2 ⟨ho, rfl⟩]
    rfl
  rw [ChangeSet.pushLevel, ChangeSet.pushEvent, List.foldl_concat, OrderMirror.apply]
  simp only [hfound, OrdMap.find?_insert, h.records, lookup_modify, Option.map_map]
  split_ifs with hid
  · rw [hid, (lookup_eq_some h.nodup).2 ⟨ho, rfl⟩]
    simp [Order.record]
  · cases hlook : lookup L id with
    | none => rfl
    | some other =>
      have hother : other.id ≠ o.id := ((lookup_eq_some h.nodup).1 hlook).2.trans_ne hid
      simp [hother]

theorem report (h : Told held orders cs L) (issue : IntegrityIssue) : Told held orders (cs.report issue) L :=
  ⟨h.nodup, h.volumes, h.records⟩

theorem update (h : Told held orders cs L) (u : L3Update) :
    Told held orders (updateChanges L cs u) (updateOrders L u) := by
  unfold updateChanges updateOrders
  cases u.event with
  | added => exact h.add u
  | modified =>
    cases hlook : lookup L u.orderId with
    | none =>
      rw [modify_of_not_mem (lookup_eq_none.1 hlook)]
      exact h.report _
    | some o =>
      obtain ⟨ho, hid⟩ := (lookup_eq_some h.nodup).1 hlook
      rw [← hid]
      exact h.modify ho u.quantity
  | deleted =>
    cases hlook : lookup L u.orderId with
    | none =>
      rw [delete_of_not_mem (lookup_eq_none.1 hlook)]
      exact h.report _
    | some o =>
      obtain ⟨ho, hid⟩ := (lookup_eq_some h.nodup).1 hlook
      rw [← hid]
      exact h.forget ho

theorem batch (h : Told held orders cs L) (us : List L3Update) :
    Told held orders (batchChanges L cs us) (us.foldl updateOrders L) := by
  induction us generalizing L cs with
  | nil => exact h
  | cons u us ih => exact ih (h.update u)

theorem snapshot (h : Told held orders cs L) (us : List L3Update) :
    Told held orders (snapshotChanges L cs us) (us.foldl (fun L u => PriceTime.add L u.order) L) := by
  induction us generalizing L cs with
  | nil => exact h
  | cons u us ih => exact ih (h.add u)

theorem rank_eq (h : Told held orders cs L) (s : Side) (p : Price) :
    ((((cs.levelChanges.foldl LevelMirror.apply held).get s).keys).filter fun a => s.better a p).length =
      rank L s p := by
  have hperm : ((cs.levelChanges.foldl LevelMirror.apply held).get s).keys.Perm (prices L s) := by
    refine OrdMap.keys_eq_perm _ (prices_nodup L s) fun q => ?_
    rw [h.volumes, isSome_volume]
  exact (hperm.filter _).length_eq

/-- Keeping the best levels is the truncation of the list. -/
theorem keepBest (h : Told held orders cs L) (depth : Option ℕ) (s : Side) (p : Price) :
    (((cs.levelChanges.foldl LevelMirror.apply held).keepBest depth).get s).find? p =
      volume (truncate depth L) s p := by
  cases depth with
  | none =>
    rw [truncate_none]
    exact h.volumes s p
  | some depth =>
    rw [LevelMirror.find?_keepBest, h.rank_eq, h.volumes, volume_truncate]
    simp [InWindow]

/-- And so is dropping the orders of the other levels. -/
theorem dropCut (h : Told held orders cs L) (depth : Option ℕ) (id : OrderId) :
    (OrderMirror.dropCut depth (cs.levelChanges.foldl LevelMirror.apply held)
        (cs.orderEvents.foldl OrderMirror.apply orders)).find? id =
      (lookup (truncate depth L) id).map Order.record := by
  cases depth with
  | none =>
    rw [truncate_none]
    exact h.records id
  | some depth =>
    rw [OrderMirror.dropCut, OrdMap.find?_filter, h.records, lookup_truncate h.nodup]
    cases hlook : lookup L id with
    | none => rfl
    | some o =>
      obtain ⟨ho, -⟩ := (lookup_eq_some h.nodup).1 hlook
      have hkey : o.price ∈ ((cs.levelChanges.foldl LevelMirror.apply held).get o.side).keys := by
        rw [OrdMap.mem_keys, h.volumes, isSome_volume]
        exact mem_prices.2 ⟨o, ho, rfl, rfl⟩
      have hcut : o.record.price ∉
          ((cs.levelChanges.foldl LevelMirror.apply held).get o.record.side).keys.drop depth ↔
          InWindow (some depth) L o.side o.price := by
        have hrank := h.rank_eq o.side o.price
        rw [OrdMap.mem_keys_drop]
        simp only [Order.record, hkey, true_and, InWindow, Option.some.injEq, forall_eq', not_le]
        exact iff_of_eq (congrArg (· < depth) hrank)
      rw [Option.map_some, Option.filter_some, Option.filter_some]
      simp only [hcut]
      split_ifs <;> rfl

end Told

namespace Rep

variable {L : List Order} {st : L3State}

theorem aggregateAt (h : Rep L st) (s : Side) (p : Price) : st.aggregateAt s p = .ok (volume L s p) := by
  rw [L3State.aggregateAt, h.levels, heldQueue]
  split_ifs with hqueue
  · rw [volume_eq_none hqueue]
  · rw [volume_eq_some hqueue]
    simp only [levelAggregate_queue h.nodup h.index, ok_bind]
    rfl

/-- A consumer with the levels of the book and its orders, told nothing yet. -/
theorem told (h : Rep L st) {held : LevelMirror} (hheld : st.MirroredBy held) : Told held st.orderIndex {} L := by
  refine ⟨h.nodup, fun s p => ?_, h.index⟩
  have hmirror := hheld s p
  rw [h.aggregateAt, Except.ok.injEq] at hmirror
  exact hmirror.symm

theorem told_empty : Told LevelMirror.empty OrdMap.empty {} [] :=
  ⟨List.nodup_nil, LevelMirror.find?_empty, fun _ => rfl⟩

/-- The consumer's levels and orders after a call are the book's. -/
theorem of_told {held : LevelMirror} {orders : OrderMirror} {cs : ChangeSet} {depth : Option ℕ}
    (htold : Told held orders cs L) (h : Rep (PriceTime.truncate depth L) st) :
    st.MirroredBy ((cs.levelChanges.foldl LevelMirror.apply held).keepBest depth) ∧
      st.orderIndex = OrderMirror.dropCut depth (cs.levelChanges.foldl LevelMirror.apply held)
        (cs.orderEvents.foldl OrderMirror.apply orders) := by
  refine ⟨fun s p => ?_, OrdMap.ext_find fun id => ?_⟩
  · rw [h.aggregateAt, htold.keepBest]
  · rw [h.index, htold.dropCut]

theorem init_mirrored (depth : Option ℕ) : (L3State.init depth).MirroredBy LevelMirror.empty := by
  intro s p
  rw [(Rep.init depth).aggregateAt, LevelMirror.find?_empty]
  rfl

theorem applySnapshot_told (st : L3State) (snap : L3Snapshot) :
    ∃ st' cs, st.applySnapshot snap = .ok (st', cs) ∧
      Told LevelMirror.empty OrdMap.empty cs (snap.orders.foldl (fun L u => add L u.order) []) ∧
      Rep (snapshotOrders st.maxDepth snap) st' ∧ st'.maxDepth = st.maxDepth := by
  obtain ⟨st', hok, hrep, hdepth⟩ := Rep.applySnapshot st snap
  have htold := told_empty.snapshot snap.orders
  exact ⟨st', _, hok, ⟨htold.nodup, htold.volumes, htold.records⟩, hrep, hdepth⟩

theorem applyBatch_told (h : Rep L st) {held : LevelMirror} (hheld : st.MirroredBy held) (updates : List L3Update) :
    ∃ st' cs, st.applyBatch updates = .ok (st', cs) ∧
      Told held st.orderIndex cs (updates.foldl updateOrders L) ∧
      Rep (batchOrders st.maxDepth L updates) st' ∧ st'.maxDepth = st.maxDepth := by
  obtain ⟨st', hok, hrep, hdepth⟩ := h.applyBatch updates
  have htold := (h.told hheld).batch updates
  exact ⟨st', _, hok, ⟨htold.nodup, htold.volumes, htold.records⟩, hrep, hdepth⟩

/-- In every state of a run some mirror holds the book's levels. -/
theorem run_mirrored (h : Rep L st) {held : LevelMirror} (hheld : st.MirroredBy held) (calls : List L3Call) :
    ∃ L' st' held', st.run calls = .ok st' ∧ Rep L' st' ∧ st'.maxDepth = st.maxDepth ∧ st'.MirroredBy held' := by
  induction calls generalizing L st held with
  | nil => exact ⟨L, st, held, rfl, h, rfl, hheld⟩
  | cons call calls ih =>
    obtain ⟨L', st', held', hok, hrep, hdepth, hheld'⟩ : ∃ L' st' held', (∃ cs, st.call call = .ok (st', cs)) ∧
        Rep L' st' ∧ st'.maxDepth = st.maxDepth ∧ st'.MirroredBy held' := by
      cases call with
      | snapshot snap =>
        obtain ⟨st', cs, hok, htold, hrep, hdepth⟩ := applySnapshot_told st snap
        exact ⟨_, st', _, ⟨cs, hok⟩, hrep, hdepth, (of_told htold hrep).1⟩
      | batch updates =>
        obtain ⟨st', cs, hok, htold, hrep, hdepth⟩ := h.applyBatch_told hheld updates
        exact ⟨_, st', _, ⟨cs, hok⟩, hrep, hdepth, (of_told htold hrep).1⟩
    obtain ⟨cs, hok⟩ := hok
    obtain ⟨L'', final, held'', hrun, hfinal, hsame, hmirror⟩ := ih hrep hheld'
    exact ⟨L'', final, held'', by rw [L3State.run, hok]; exact hrun, hfinal, hsame.trans hdepth, hmirror⟩

end Rep

/-- What a batch says does not depend on what was reported before it. -/
theorem updateChanges_sameNews (L : List Order) {cs cs' : ChangeSet} (h : SameNews cs cs') (u : L3Update) :
    SameNews (updateChanges L cs u) (updateChanges L cs' u) := by
  have hforget : ∀ o, SameNews (forgetChanges L cs o) (forgetChanges L cs' o) :=
    fun o => (h.pushEvent _).pushLevel _
  unfold updateChanges
  cases u.event with
  | added =>
    refine SameNews.pushLevel (SameNews.pushEvent ?_ _) _
    unfold staleChanges
    cases lookup L u.orderId with
    | none => exact h
    | some o => exact hforget o
  | modified =>
    cases lookup L u.orderId with
    | none => exact h.report_both _
    | some o => exact (h.pushEvent _).pushLevel _
  | deleted =>
    cases lookup L u.orderId with
    | none => exact h.report_both _
    | some o => exact hforget o

theorem batchChanges_sameNews (L : List Order) {cs cs' : ChangeSet} (h : SameNews cs cs') (us : List L3Update) :
    SameNews (batchChanges L cs us) (batchChanges L cs' us) := by
  induction us generalizing L cs cs' with
  | nil => exact h
  | cons u us ih => exact ih _ (updateChanges_sameNews L h u)

theorem batchChanges_append (L : List Order) (cs : ChangeSet) (us vs : List L3Update) :
    batchChanges L cs (us ++ vs) = batchChanges (us.foldl updateOrders L) (batchChanges L cs us) vs := by
  induction us generalizing L cs with
  | nil => rfl
  | cons u us ih => exact ih _ _

theorem anyUnknown_append (L : List Order) (us vs : List L3Update) :
    anyUnknown L (us ++ vs) = (anyUnknown L us || anyUnknown (us.foldl updateOrders L) vs) := by
  induction us generalizing L with
  | nil => rfl
  | cons u us ih => rw [List.cons_append, anyUnknown, ih, anyUnknown, Bool.or_assoc, List.foldl_cons]

section Unknown

variable {L : List Order} {u : L3Update}

theorem updateOrders_unknown (h : unknownIn L u = true) : updateOrders L u = L := by
  obtain ⟨hevent, hid⟩ := of_decide_eq_true h
  unfold updateOrders
  cases hev : u.event with
  | added => exact absurd hev hevent
  | modified => exact modify_of_not_mem hid _
  | deleted => exact delete_of_not_mem hid

theorem updateChanges_unknown (h : unknownIn L u = true) (cs : ChangeSet) :
    updateChanges L cs u = cs.report .unknownOrder := by
  obtain ⟨hevent, hid⟩ := of_decide_eq_true h
  unfold updateChanges
  cases hev : u.event with
  | added => exact absurd hev hevent
  | modified => rw [lookup_eq_none.2 hid]
  | deleted => rw [lookup_eq_none.2 hid]

end Unknown

namespace L3State

/-- The update names an order that is not there. -/
def unknownIn (st : L3State) (u : L3Update) : Bool := u.event ≠ .added ∧ (st.orderIndex.find? u.orderId).isNone

end L3State

namespace Rep

variable {L : List Order} {st : L3State}

theorem unknownIn_eq (h : Rep L st) (u : L3Update) : st.unknownIn u = CryptoTrader.unknownIn L u := by
  rw [L3State.unknownIn, CryptoTrader.unknownIn, h.index]
  simp only [Option.isNone_map, Option.isNone_iff_eq_none, lookup_eq_none]

/-- An unknown update leaves no trace in a batch but the report. -/
theorem applyBatch_unknown (h : Rep L st) (before after : List L3Update) {u : L3Update} {mid : L3State}
    {told : ChangeSet} (hmid : st.applyAll {} before = .ok (mid, told)) (hunknown : mid.unknownIn u = true) :
    ∃ st' cs cs', st.applyBatch (before ++ u :: after) = .ok (st', cs) ∧
      st.applyBatch (before ++ after) = .ok (st', cs') ∧ SameNews cs cs' ∧
      cs.integrityIssue = some .unknownOrder := by
  obtain ⟨mid', hmid', hrepMid, -⟩ := h.applyAll {} before
  rw [hmid, Except.ok.injEq] at hmid'
  cases hmid'
  rw [hrepMid.unknownIn_eq] at hunknown
  obtain ⟨st', hok, hrep, hdepth⟩ := h.applyBatch (before ++ u :: after)
  obtain ⟨st'', hok', hrep', hdepth'⟩ := h.applyBatch (before ++ after)
  have horders : batchOrders st.maxDepth L (before ++ u :: after) = batchOrders st.maxDepth L (before ++ after) := by
    simp only [batchOrders, List.foldl_append, List.foldl_cons, updateOrders_unknown hunknown]
  have hany : anyUnknown L (before ++ u :: after) = true := by
    rw [anyUnknown_append, anyUnknown, hunknown, Bool.true_or, Bool.or_true]
  have hnews : SameNews (batchChanges L {} (before ++ u :: after)) (batchChanges L {} (before ++ after)) := by
    rw [batchChanges_append, batchChanges_append, batchChanges, updateOrders_unknown hunknown,
      updateChanges_unknown hunknown]
    exact batchChanges_sameNews _ (SameNews.report _ _) after
  obtain rfl : st' = st'' := (horders ▸ hrep).unique hrep' (hdepth.trans hdepth'.symm)
  refine ⟨st', _, _, hok, hok', ⟨hnews.levelChanges, hnews.orderEvents⟩, ?_⟩
  change crossedIssue _ _ = _
  rw [if_pos hany, crossedIssue]
  exact ite_self _

end Rep

/-- Change sets are exact, in both kinds of book, and unknown updates are silent. -/
theorem change_sets_are_exact :
    (∀ (l : L2Levels) (updates : List L2Update),
      (l.applyUpdates updates).2.levelChanges.foldl LevelMirror.apply l.levels = (l.applyUpdates updates).1.levels) ∧
    (∀ levels : List L2Update,
      (L2Levels.replaceWith levels).2.levelChanges.foldl LevelMirror.apply LevelMirror.empty =
        (L2Levels.replaceWith levels).1.levels) ∧
    (∀ (l : L2Levels) (before after : List L2Update) (update : L2Update),
      (before.foldl L2Levels.applyOne (l, {})).1.unknownIn update = true →
      (l.applyUpdates (before ++ update :: after)).1 = (l.applyUpdates (before ++ after)).1 ∧
        SameNews (l.applyUpdates (before ++ update :: after)).2 (l.applyUpdates (before ++ after)).2 ∧
        (l.applyUpdates (before ++ update :: after)).2.integrityIssue = some .unknownLevel) ∧
    ∀ (depth : Option ℕ) (calls : List L3Call), ∃ st held,
      (L3State.init depth).run calls = .ok st ∧ st.MirroredBy held ∧
      (∀ snap, ∃ st' cs, st.applySnapshot snap = .ok (st', cs) ∧
        st'.MirroredBy ((cs.levelChanges.foldl LevelMirror.apply LevelMirror.empty).keepBest depth) ∧
        st'.orderIndex = OrderMirror.dropCut depth (cs.levelChanges.foldl LevelMirror.apply LevelMirror.empty)
          (cs.orderEvents.foldl OrderMirror.apply OrdMap.empty)) ∧
      (∀ updates, ∃ st' cs, st.applyBatch updates = .ok (st', cs) ∧
        st'.MirroredBy ((cs.levelChanges.foldl LevelMirror.apply held).keepBest depth) ∧
        st'.orderIndex = OrderMirror.dropCut depth (cs.levelChanges.foldl LevelMirror.apply held)
          (cs.orderEvents.foldl OrderMirror.apply st.orderIndex)) ∧
      ∀ before u after mid told, st.applyAll {} before = .ok (mid, told) → mid.unknownIn u = true →
        ∃ st' cs cs', st.applyBatch (before ++ u :: after) = .ok (st', cs) ∧
          st.applyBatch (before ++ after) = .ok (st', cs') ∧ SameNews cs cs' ∧
          cs.integrityIssue = some .unknownOrder := by
  refine ⟨L2Levels.applyUpdates_exact, L2Levels.replaceWith_exact, L2Levels.applyUpdates_unknown, fun depth calls => ?_⟩
  obtain ⟨L, st, held, hrun, hrep, hdepth, hheld⟩ := (Rep.init depth).run_mirrored (Rep.init_mirrored depth) calls
  replace hdepth : st.maxDepth = depth := hdepth
  refine ⟨st, held, hrun, hheld, fun snap => ?_, fun updates => ?_, fun before u after mid told hmid hunknown => ?_⟩
  · obtain ⟨st', cs, hok, htold, hrep', -⟩ := Rep.applySnapshot_told st snap
    rw [hdepth] at hrep'
    exact ⟨st', cs, hok, Rep.of_told htold hrep'⟩
  · obtain ⟨st', cs, hok, htold, hrep', -⟩ := hrep.applyBatch_told hheld updates
    rw [hdepth] at hrep'
    exact ⟨st', cs, hok, Rep.of_told htold hrep'⟩
  · exact hrep.applyBatch_unknown before after hmid hunknown

/-- A change of a level and a modification of an order that are not there. -/
theorem change_sets_of_unknowns :
    SameNews (L2Levels.empty.applyUpdates ([] ++ ⟨.bid, 100, 5, .change⟩ :: [⟨.bid, 99, 1, .new⟩])).2
      (L2Levels.empty.applyUpdates ([] ++ [⟨.bid, 99, 1, .new⟩])).2 ∧
    ∃ st' cs cs', (L3State.init (some 10)).applyBatch ([] ++ ⟨.modified, 7, .bid, 100, 5⟩ :: []) = .ok (st', cs) ∧
      (L3State.init (some 10)).applyBatch ([] ++ []) = .ok (st', cs') ∧ SameNews cs cs' ∧
      cs.integrityIssue = some .unknownOrder := by
  refine ⟨(change_sets_are_exact.2.2.1 L2Levels.empty [] _ _ (by decide)).2.1, ?_⟩
  obtain ⟨st, held, hrun, -, -, -, hunknown⟩ := change_sets_are_exact.2.2.2 (some 10) []
  cases hrun
  exact hunknown [] _ [] _ {} rfl (by decide)

end CryptoTrader
