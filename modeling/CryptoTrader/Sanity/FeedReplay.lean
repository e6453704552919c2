import CryptoTrader.Sanity.SymbolBook

/-! A symbol's events when the exchange is behind them: nothing before the first snapshot, and
from then on a snapshot and clean batches whose replay keeps up with the exchange's book. -/

namespace CryptoTrader

open GranularityPolicy

section Split

variable {Snap Batch : Type} {events before : List (SymbolEvent Snap Batch)} {snap snap' : Snap} {batch : Batch}
  {bs : List Batch}

/-- A snapshot at the end of some events starts the last of them. -/
theorem snapshot_snoc_eq (h : events ++ [.message (.snapshot snap)] = before ++ snapshotAndBatches snap' bs) :
    snap' = snap ∧ bs = [] := by
  rcases List.eq_nil_or_concat bs with rfl | ⟨bs, batch, rfl⟩
  · have hlast := List.singleton_inj.1 (List.append_inj_right' h rfl)
    cases hlast
    exact ⟨rfl, rfl⟩
  · rw [List.concat_eq_append, snapshotAndBatches_snoc, ← List.append_assoc] at h
    have hlast := List.singleton_inj.1 (List.append_inj_right' h rfl)
    cases hlast

/-- A batch at the end of some events is the last of theirs. -/
theorem batch_snoc_eq (h : events ++ [.message (.batch batch)] = before ++ snapshotAndBatches snap bs) :
    ∃ bs', bs = bs' ++ [batch] ∧ events = before ++ snapshotAndBatches snap bs' := by
  rcases List.eq_nil_or_concat bs with rfl | ⟨bs, batch', rfl⟩
  · have hlast := List.singleton_inj.1 (List.append_inj_right' h rfl)
    cases hlast
  · rw [List.concat_eq_append, snapshotAndBatches_snoc, ← List.append_assoc] at h
    have hlast := List.singleton_inj.1 (List.append_inj_right' h rfl)
    cases hlast
    exact ⟨bs, List.concat_eq_append, List.append_inj_left' h rfl⟩

/-- Events end in one snapshot with batches at most. -/
theorem snapshotAndBatches_inj {before' : List (SymbolEvent Snap Batch)} {bs' : List Batch}
    (h : before ++ snapshotAndBatches snap bs = before' ++ snapshotAndBatches snap' bs') : snap = snap' ∧ bs = bs' := by
  induction bs using List.reverseRecOn generalizing bs' with
  | nil =>
    obtain ⟨rfl, rfl⟩ := snapshot_snoc_eq h
    exact ⟨rfl, rfl⟩
  | append_singleton bs batch ih =>
    rw [snapshotAndBatches_snoc, ← List.append_assoc] at h
    obtain ⟨bs'', rfl, hrest⟩ := batch_snoc_eq h
    obtain ⟨rfl, rfl⟩ := ih hrest
    exact ⟨rfl, rfl⟩

end Split

/-- The events of a symbol follow the exchange's book: their replay is clean and keeps up
with it. -/
def FollowsExchange {π Snap Batch E : Type} [GranularityPolicy π Snap Batch] (fresh : π) (keepsUp : E → π → Prop)
    (events : List (SymbolEvent Snap Batch)) : Option E → Prop
  | none => events = []
  | some e => ∃ before snap bs, events = before ++ snapshotAndBatches snap bs ∧ CleanReplay fresh snap bs ∧
      keepsUp e (replay fresh snap bs)

namespace FollowsExchange

variable {π Snap Batch E σ : Type} [GranularityPolicy π Snap Batch] {fresh : π} {keepsUp : E → π → Prop}
  {events : List (SymbolEvent Snap Batch)} {book : Option E}

theorem snapshot {e : E} {snap : Snap} (hclean : (applySnapshot fresh snap).2.integrityIssue = none)
    (hkeeps : keepsUp e (applySnapshot fresh snap).1) :
    FollowsExchange fresh keepsUp (events ++ [.message (.snapshot snap)]) (some e) :=
  ⟨events, snap, [], rfl, ⟨hclean, trivial⟩, hkeeps⟩

theorem batch {e e' : E} {batch : Batch} (h : FollowsExchange fresh keepsUp events (some e))
    (hstep : ∀ p, keepsUp e p → (applyBatch p batch).2.integrityIssue = none ∧ keepsUp e' (applyBatch p batch).1) :
    FollowsExchange fresh keepsUp (events ++ [.message (.batch batch)]) (some e') := by
  obtain ⟨before, snap, bs, rfl, hclean, hkeeps⟩ := h
  obtain ⟨hissue, hkeeps'⟩ := hstep _ hkeeps
  refine ⟨before, snap, bs ++ [batch], ?_, (cleanReplay_snoc _ _ _ _).2 ⟨hclean, hissue⟩, ?_⟩
  · rw [snapshotAndBatches_snoc, List.append_assoc]
  · rw [replay_snoc]
    exact hkeeps'

/-- What is replayed of them keeps up with the exchange. -/
theorem replayed (h : FollowsExchange fresh keepsUp events book) {before : List (SymbolEvent Snap Batch)} {snap : Snap}
    {bs : List Batch} (hevents : events = before ++ snapshotAndBatches snap bs) :
    ∃ e, book = some e ∧ keepsUp e (replay fresh snap bs) := by
  cases book with
  | none =>
    rw [h] at hevents
    simp [snapshotAndBatches] at hevents
  | some e =>
    obtain ⟨before', snap', bs', heq, -, hkeeps⟩ := h
    rw [heq] at hevents
    obtain ⟨rfl, rfl⟩ := snapshotAndBatches_inj hevents
    exact ⟨e, rfl, hkeeps⟩

/-- Where nothing is lost the book is Ready from the first snapshot on, and keeps up. -/
theorem ready {settings : π → σ} (hr : SnapshotReplaces settings) {e : E}
    (h : FollowsExchange fresh keepsUp events (some e)) :
    ∃ b, symbolBook fresh events = some b ∧ b.isReady = true ∧ keepsUp e b.policy := by
  obtain ⟨before, snap, bs, rfl, hclean, hkeeps⟩ := h
  exact ⟨_, symbolBook_clean hr before hclean, AdapterBook.isReady_ready _, hkeeps⟩

end FollowsExchange

end CryptoTrader
