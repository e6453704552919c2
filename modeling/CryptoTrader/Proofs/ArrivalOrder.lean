import CryptoTrader.Sanity.KrakenBatch

/-! The reordering of a message's adds is a stable sort in place: the adds go into the slots
adds held, by timestamp and otherwise in the order of the wire. -/

namespace CryptoTrader

open StableSort

section Ordered

variable (updates : List KrakenL3Update)

/-- The reordered entries, with their timestamps. -/
def orderedEntries : List KrakenL3Update := fill KrakenL3Update.isAdd (sortedAdds updates) updates

theorem sortedAdds_length : (sortedAdds updates).length = updates.countP (·.isAdd) := by
  rw [(sortedAdds_perm updates).length_eq, List.countP_eq_length_filter]

theorem isAdd_of_mem_sortedAdds : ∀ u ∈ sortedAdds updates, u.isAdd = true := fun _ hu => (mem_sortedAdds.1 hu).2

theorem orderedEntries_adds : (orderedEntries updates).filter (·.isAdd) = sortedAdds updates :=
  fill_filter (sortedAdds_length updates) (isAdd_of_mem_sortedAdds updates)

/-- The adds of one timestamp are those of the wire, in the wire's order. -/
theorem orderedEntries_at (timestamp : Bytes) :
    (orderedEntries updates).filter (fun u => u.isAdd && u.timestamp = timestamp) =
      updates.filter fun u => u.isAdd && u.timestamp = timestamp := by
  have hadds : ∀ entries : List KrakenL3Update, entries.filter (fun u => u.isAdd && u.timestamp = timestamp) =
      (entries.filter (·.isAdd)).filter (·.timestamp = timestamp) := by
    intro entries
    rw [List.filter_filter]
    exact List.filter_congr fun u _ => Bool.and_comm _ _
  rw [hadds, hadds updates, orderedEntries_adds, sortedAdds]
  refine filter_insertionSort arrivesBefore (fun a b ha hb => ?_) _
  rw [arrivesBefore, timestampKey, timestampKey, of_decide_eq_true ha, of_decide_eq_true hb]

/-- Adds that come in order stay where they are. -/
theorem orderedEntries_of_sorted (h : (updates.filter (·.isAdd)).Pairwise arrivesBefore) :
    orderedEntries updates = updates := by
  rw [orderedEntries, sortedAdds, h.insertionSort_eq, fill_self]

end Ordered

/-- `AddsInArrivalOrder` is a stable sort of the adds in their slots. -/
theorem adds_sorted_in_place (updates : List KrakenL3Update) :
    (∃ ordered : List KrakenL3Update, addsInArrivalOrder updates = ordered.map (·.update) ∧
      ordered.length = updates.length ∧ ordered.Perm updates ∧
      (∀ (i : ℕ) (u : KrakenL3Update), updates[i]? = some u → ∃ v, ordered[i]? = some v ∧
        (v.update.event = .added ↔ u.update.event = .added) ∧ (u.update.event ≠ .added → v = u)) ∧
      (ordered.filter (·.isAdd)).Pairwise arrivesBefore ∧
      ∀ timestamp, ordered.filter (fun u => u.isAdd && u.timestamp = timestamp) =
        updates.filter fun u => u.isAdd && u.timestamp = timestamp) ∧
    ((updates.filter (·.isAdd)).Pairwise arrivesBefore → addsInArrivalOrder updates = updates.map (·.update)) := by
  refine ⟨⟨orderedEntries updates, addsInArrivalOrder_eq updates, (fill_perm (sortedAdds_perm updates)).length_eq,
    fill_perm (sortedAdds_perm updates), fun i u hu => ?_, ?_, orderedEntries_at updates⟩, fun hsorted => ?_⟩
  · obtain ⟨v, hv, hkind, hsame⟩ := fill_getElem? (sortedAdds_length updates) (isAdd_of_mem_sortedAdds updates) hu
    refine ⟨v, hv, ?_, fun hother => hsame (by simpa [KrakenL3Update.isAdd] using hother)⟩
    rwa [KrakenL3Update.isAdd, KrakenL3Update.isAdd, decide_eq_decide] at hkind
  · rw [orderedEntries_adds]
    exact sortedAdds_pairwise updates
  · rw [addsInArrivalOrder_eq]
    exact congrArg _ (orderedEntries_of_sorted updates hsorted)

/-- Three adds, the first two of one timestamp, around a deletion. -/
def lateAdds : List KrakenL3Update :=
  [⟨⟨.added, 1, .bid, 100, 5⟩, [50]⟩, ⟨⟨.deleted, 9, .bid, 0, 0⟩, [49]⟩, ⟨⟨.added, 2, .bid, 100, 6⟩, [50]⟩,
    ⟨⟨.added, 3, .ask, 101, 7⟩, [49]⟩]

/-- Without the last one they come in order. -/
theorem early_adds_stay : addsInArrivalOrder (lateAdds.take 3) = (lateAdds.take 3).map (·.update) :=
  (adds_sorted_in_place (lateAdds.take 3)).2 (by decide)

example : (addsInArrivalOrder lateAdds).map (·.orderId) = [3, 9, 1, 2] := by decide

end CryptoTrader
