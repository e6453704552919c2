import CryptoTrader.Proofs.BookRing

/-! The lossy live path agrees with a lossless one wherever it claims to. The trace a
symbol has on the live path and the one it would have had with nothing refused are
equal, or equal from some loss on. A Ready book depends only on what follows the last
loss, so it is the same book on both. -/

namespace CryptoTrader

open LossyChannel

section Aligned

variable {Snap Batch : Type}

/-- Two lists of events are equal, or equal after the last of some losses of the first. -/
def AgreeSinceLoss (lossy full : List (SymbolEvent Snap Batch)) : Prop :=
  lossy = full ∨ ∃ before before' since, lossy = before ++ .lost :: since ∧ full = before' ++ since

theorem AgreeSinceLoss.append {lossy full : List (SymbolEvent Snap Batch)} (h : AgreeSinceLoss lossy full)
    (events : List (SymbolEvent Snap Batch)) : AgreeSinceLoss (lossy ++ events) (full ++ events) := by
  rcases h with rfl | ⟨before, before', since, rfl, rfl⟩
  · exact Or.inl rfl
  · exact Or.inr ⟨before, before', since ++ events, by simp, by simp⟩

theorem AgreeSinceLoss.lost (lossy full : List (SymbolEvent Snap Batch)) : AgreeSinceLoss (lossy ++ [.lost]) full :=
  Or.inr ⟨lossy, full, [], rfl, (List.append_nil full).symm⟩

theorem lost_notMem_snapshotAndBatches (snap : Snap) (bs : List Batch) : .lost ∉ snapshotAndBatches snap bs := by
  simp [snapshotAndBatches]

/-- A snapshot and its batches at the end of the lossy list are at the end of the full one. -/
theorem AgreeSinceLoss.suffix {lossy full before : List (SymbolEvent Snap Batch)} {snap : Snap} {bs : List Batch}
    (h : AgreeSinceLoss lossy full) (heq : lossy = before ++ snapshotAndBatches snap bs) :
    ∃ before', full = before' ++ snapshotAndBatches snap bs := by
  have hlost := lost_notMem_snapshotAndBatches snap bs
  rcases h with rfl | ⟨early, early', since, rfl, rfl⟩
  · exact ⟨before, heq⟩
  · rcases List.append_eq_append_iff.1 heq with ⟨rest, -, hrest⟩ | ⟨rest, -, hrest⟩
    · rcases rest with _ | ⟨e, rest⟩
      · rw [List.nil_append] at hrest
        rw [← hrest] at hlost
        exact absurd List.mem_cons_self hlost
      · rw [List.cons_append, List.cons.injEq] at hrest
        exact ⟨early' ++ rest, by rw [hrest.2, List.append_assoc]⟩
    · rw [hrest] at hlost
      exact absurd (List.mem_append_right rest List.mem_cons_self) hlost

variable {π σ : Type} [GranularityPolicy π Snap Batch] {settings : π → σ} {fresh : π}

theorem AgreeSinceLoss.ready {lossy full : List (SymbolEvent Snap Batch)} (h : AgreeSinceLoss lossy full)
    (hr : SnapshotReplaces settings) {b : AdapterBook π} (hb : symbolBook fresh lossy = some b)
    (hready : b.isReady = true) :
    ∃ b', symbolBook fresh full = some b' ∧ b'.isReady = true ∧ b'.policy = b.policy := by
  obtain ⟨before, snap, bs, heq, hclean, hpolicy⟩ := ready_events hr lossy hb hready
  obtain ⟨before', hfull⟩ := h.suffix heq
  rw [hfull]
  exact ⟨_, symbolBook_clean hr before' hclean, AdapterBook.isReady_ready _, hpolicy.symm⟩

end Aligned

namespace SymbolTrace

variable {Snap Batch : Type} (frameEvents : Bytes → List (SymbolEvent Snap Batch))

/-- The connection is stale on both paths or on neither, and the events agree. -/
def Aligned (lossy full : SymbolTrace Snap Batch) : Prop :=
  lossy.stale = full.stale ∧ AgreeSinceLoss lossy.events full.events

variable {lossy full : SymbolTrace Snap Batch}

/-- An event that both paths see keeps them aligned. -/
theorem Aligned.event (h : Aligned lossy full) (event : FeedEvent) :
    Aligned (lossy.step frameEvents event.adapterCall) (full.step frameEvents event.adapterCall) := by
  obtain ⟨hstale, hevents⟩ := h
  rcases event with frame | ⟨connectId, reason⟩ | connectId
  · simp only [FeedEvent.adapterCall, step, hstale]
    split_ifs
    · exact ⟨hstale, hevents⟩
    · exact ⟨rfl, hevents.append _⟩
  · exact ⟨rfl, Or.inl rfl⟩
  · exact ⟨rfl, hevents⟩

theorem step_stale_dropped (t : SymbolTrace Snap Batch) (count : ℕ) :
    (t.step frameEvents (.onFramesDropped count)).stale = t.stale := by
  simp only [step]
  split_ifs <;> rfl

/-- Drops to be reported keep the paths aligned whatever frame the lossy one misses. -/
theorem Aligned.refused {pending : ℕ} (h : Aligned (lossy.step frameEvents (.onFramesDropped pending)) full)
    (payload : Bytes) :
    Aligned (lossy.step frameEvents (.onFramesDropped (pending + 1))) (full.step frameEvents (.onFrame payload)) := by
  have hstale := h.1
  rw [step_stale_dropped] at hstale
  refine ⟨?_, AgreeSinceLoss.lost _ _⟩
  rw [step_stale_dropped, hstale]
  simp only [step]
  split_ifs <;> rfl

theorem foldl_announce (t : SymbolTrace Snap Batch) (pending : ℕ) :
    ((announce pending).map deliveryCall).foldl (step frameEvents) t =
      t.step frameEvents (.onFramesDropped pending) := by
  cases pending <;> rfl

/-- The paths stay aligned along the calls on the sink. -/
theorem Aligned.calls (offered : List (FeedEvent × Bool)) {pending : ℕ}
    (h : Aligned (lossy.step frameEvents (.onFramesDropped pending)) full) :
    Aligned (((collapseFrom pending (offered.map offerOf)).map deliveryCall).foldl (step frameEvents) lossy)
      ((offered.map (·.1.adapterCall)).foldl (step frameEvents) full) := by
  induction offered generalizing lossy full pending with
  | nil =>
    rw [List.map_nil, collapseFrom, foldl_announce]
    exact h
  | cons call offered ih =>
    cases hkept : accepted call with
    | true =>
      rw [List.map_cons, offerOf_accepted hkept, collapseFrom, List.map_append, List.foldl_append, foldl_announce]
      have hnext := h.event frameEvents call.1
      exact ih (show Aligned (step frameEvents _ (.onFramesDropped 0)) _ from hnext)
    | false =>
      rw [List.map_cons, offerOf_refused hkept]
      obtain ⟨event, room⟩ := call
      rcases event with frame | ⟨connectId, reason⟩ | connectId
      · exact ih (h.refused frameEvents frame.payload)
      · cases hkept
      · cases hkept

theorem ofCalls_aligned (offered : List (FeedEvent × Bool)) :
    Aligned (ofCalls frameEvents ((collapse (offered.map offerOf)).map deliveryCall))
      (ofCalls frameEvents (offered.map (·.1.adapterCall))) := by
  have hstart : Aligned (step frameEvents ⟨false, []⟩ (.onFramesDropped 0)) ⟨false, []⟩ := ⟨rfl, Or.inl rfl⟩
  exact hstart.calls frameEvents offered

end SymbolTrace

/-- Whatever the ring refused and however pushes and pops interleaved, a book that reads
Ready once `Stop` has returned is the book of a run in which nothing was refused. -/
theorem ready_live_book_agrees {N D : Type} (P : Platform N D) (settings : List BookSettings)
    (actions : List ServiceAction) (s : BookService)
    (hrun : (BookService.create settings.length).run actions = some s) (hstopped : s.stopped = true)
    (i : ℕ) (hi : i < settings.length) (symbol : Bytes) :
    ∃ conn, (s.adapter P settings).connections[i]? = some conn ∧
      (∀ b, conn.books symbol = some b → b.isReady = true →
        ∃ b', ((Connection.add settings[i]).run P ((sinkCalls i actions).map (·.1.adapterCall))).books symbol = some b' ∧
          b'.isReady = true ∧ b'.policy = b.policy) ∧
      (∀ b, conn.deribitBooks symbol = some b → b.isReady = true →
        ∃ b', ((Connection.add settings[i]).run P ((sinkCalls i actions).map (·.1.adapterCall))).deribitBooks symbol =
            some b' ∧ b'.isReady = true ∧ b'.policy = b.policy) := by
  obtain ⟨hcalls, hconn⟩ := BookService.stopped_connection P settings hrun hstopped hi
  refine ⟨_, hconn, fun b hb hready => ?_, fun b hb hready => ?_⟩
  · by_cases hsource : settings[i].source = .krakenJson
    · rw [(Connection.kraken_trace P settings[i] symbol hsource _).2] at hb ⊢
      rw [hcalls, offersTo] at hb
      exact (SymbolTrace.ofCalls_aligned _ _).2.ready KrakenL3Policy.snapshotReplaces hb hready
    · rw [(Connection.other_books_empty P settings[i] _).1 hsource] at hb
      cases hb
  · by_cases hsource : settings[i].source = .deribitFix
    · rw [(Connection.deribit_trace P settings[i] symbol hsource _).2] at hb ⊢
      rw [hcalls, offersTo] at hb
      exact (SymbolTrace.ofCalls_aligned _ _).2.ready UnsequencedL2Policy.snapshotReplaces hb hready
    · rw [(Connection.other_books_empty P settings[i] _).2 hsource] at hb
      cases hb

/-- A refused update, then a snapshot and an update that recover. -/
def recoveredActions : List ServiceAction :=
  [.sink 0 (.connect 1 (ascii "start")) true, .sink 0 (.frame ⟨[0], 2, 10, .krakenJson⟩) true, .advance, .advance,
   .sink 0 (.frame ⟨[1], 3, 11, .krakenJson⟩) false, .sink 0 (.frame ⟨[0], 4, 12, .krakenJson⟩) true,
   .sink 0 (.frame ⟨[1], 5, 13, .krakenJson⟩) true, .stop] ++ List.replicate 8 .advance ++ [.join]

theorem recovered_live_book_agrees :
    ∃ b', ((Connection.add tinySettings).run tinyPlatform ((sinkCalls 0 recoveredActions).map (·.1.adapterCall))).books
      (ascii "BTC/USD") = some b' ∧ b'.isReady = true := by
  have hready : ∃ s, (BookService.create 1).run recoveredActions = some s ∧ s.stopped = true ∧
      ((s.adapter tinyPlatform [tinySettings]).connections[0]?.any fun conn =>
        (conn.books (ascii "BTC/USD")).any (·.isReady)) = true := by decide +kernel
  obtain ⟨s, hrun, hstopped, hbook⟩ := hready
  obtain ⟨conn, hconn, hkraken, -⟩ := ready_live_book_agrees tinyPlatform [tinySettings] recoveredActions s hrun hstopped
    0 (by decide) (ascii "BTC/USD")
  rw [List.getElem_cons_zero] at hkraken
  rw [hconn, Option.any_some, Option.any_eq_true] at hbook
  obtain ⟨b, hb, hr⟩ := hbook
  obtain ⟨b', hb', hr', -⟩ := hkraken b hb hr
  exact ⟨b', hb', hr'⟩

end CryptoTrader
