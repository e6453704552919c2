import CryptoTrader.Proofs.ExchangeLevels

/-! The other side of a Ready book's worth: where no frame was dropped, the books are there.
As long as a connection's drop counter is zero, a symbol has a Ready book from its first
snapshot on, and it is the exchange's. -/

namespace CryptoTrader

open LossyChannel GranularityPolicy

/-- Without refusals the reader gets every call as it was made. -/
theorem calls_of_undropped {offered : List (FeedEvent × Bool)} (h : refusals (offered.map offerOf) = 0) :
    (collapse (offered.map offerOf)).map deliveryCall = offered.map (·.1.adapterCall) := by
  have hkept : ∀ offered : List (FeedEvent × Bool), refusals (offered.map offerOf) = 0 →
      (collapseFrom 0 (offered.map offerOf)).map deliveryCall = offered.map (·.1.adapterCall) := by
    intro offered
    induction offered with
    | nil => intro _; rfl
    | cons call offered ih =>
      intro hnone
      cases hcall : accepted call with
      | true =>
        rw [List.map_cons, offerOf_accepted hcall, refusals_kept] at hnone
        rw [List.map_cons, offerOf_accepted hcall, collapseFrom, announce_zero, List.nil_append, List.map_cons, ih hnone]
        rfl
      | false =>
        rw [List.map_cons, offerOf_refused hcall, refusals_refused] at hnone
        cases hnone
  exact hkept offered h

namespace FeedHandler.LiveFeed

variable {h : FeedHandler} {feed : ℕ} {calls : List FeedEvent} {settings : BookSettings}
  {offered : List (FeedEvent × Bool)} {N D : Type} (P : Platform N D)

/-- A connection without drops has been told of its calls and of nothing else. -/
theorem undropped (hlive : h.LiveFeed feed calls settings offered)
    (hdrops : ((Connection.add settings).run P (callsOf feed h.books.received)).stats.drops = 0) :
    callsOf feed h.books.received = offered.map (·.1.adapterCall) := by
  have hcount := (Connection.run_counters P settings (callsOf feed h.books.received)).2
  change _ = droppedIn _ at hcount
  rw [hdrops, hlive.told, droppedIn_deliveries, collapse, lostCount_collapseFrom, Nat.zero_add] at hcount
  rw [hlive.told, calls_of_undropped hcount.symm]

theorem undropped_frames (hlive : h.LiveFeed feed calls settings offered)
    (hdrops : ((Connection.add settings).run P (callsOf feed h.books.received)).stats.drops = 0) :
    ((Connection.add settings).run P (callsOf feed h.books.received)).stats.frames =
      (offered.map (·.1)).countP (·.isFrame) := by
  rw [(Connection.run_counters P settings _).1, hlive.undropped P hdrops, List.countP_map, List.countP_map]
  refine List.countP_congr fun call _ => ?_
  obtain ⟨frame | ⟨connectId, reason⟩ | connectId, room⟩ := call <;> rfl

end FeedHandler.LiveFeed

end CryptoTrader
