import CryptoTrader.Spec.L2
import CryptoTrader.Sanity.Engine

/-! The sequenced L2 book never loses or skips a batch unnoticed: while it reads
Ready its batches form an unbroken chain of change ids and its levels are those of
the unsequenced book fed the same messages. -/

namespace CryptoTrader

open GranularityPolicy OrderBook

/-- Each meta follows the one before it, the first one follows `last`. -/
def Linked : ChangeId → List ChangeIdMeta → Prop
  | _, [] => True
  | last, m :: ms => m.prevChangeId = last ∧ Linked m.changeId ms

namespace L2Levels

theorem applyUpdates_uncrossed {l : L2Levels} {updates : List L2Update}
    (h : (l.applyUpdates updates).2.integrityIssue = none) :
    isCrossed ((l.applyUpdates updates).1.best .bid) ((l.applyUpdates updates).1.best .ask) = false := by
  simp only [applyUpdates] at h ⊢
  split_ifs at h with hc
  · exact absurd h (reportIssue_ne_none _ _)
  · simpa using hc

theorem replaceWith_uncrossed {levels : List L2Update} (h : (replaceWith levels).2.integrityIssue = none) :
    isCrossed ((replaceWith levels).1.best .bid) ((replaceWith levels).1.best .ask) = false := by
  simp only [replaceWith] at h ⊢
  split_ifs at h with hc
  · exact absurd h (reportIssue_ne_none _ _)
  · simpa using hc

end L2Levels

namespace L2Policy

theorem applyBatch_gap (p : L2Policy) (batch : L2Batch) (h : batch.msgMeta.prevChangeId ≠ p.lastChangeId) :
    p.applyBatch batch = (p, { integrityIssue := some .gap }) := by
  simp [applyBatch, h]

/-- A batch without an issue follows the baseline and applies its updates. -/
theorem applyBatch_clean {p : L2Policy} {batch : L2Batch} (h : (p.applyBatch batch).2.integrityIssue = none) :
    batch.msgMeta.prevChangeId = p.lastChangeId ∧
      (p.applyBatch batch).1 = ⟨(p.levels.applyUpdates batch.updates).1, batch.msgMeta.changeId⟩ ∧
      (p.levels.applyUpdates batch.updates).2.integrityIssue = none := by
  by_cases hl : batch.msgMeta.prevChangeId = p.lastChangeId
  · simp only [applyBatch, hl, ne_eq, not_true_eq_false, if_false] at h ⊢
    exact ⟨trivial, trivial, h⟩
  · rw [applyBatch_gap p batch hl] at h
    cases h

/-- Clean sequenced batches are linked, and an unsequenced book with the same
levels takes the same updates to the same levels, cleanly. -/
theorem clean_refines (p : L2Policy) (bs : List L2Batch) (h : CleanBatches p bs) :
    Linked p.lastChangeId (bs.map (·.msgMeta)) ∧
      CleanBatches (⟨p.levels⟩ : UnsequencedL2Policy) (bs.map (·.updates)) ∧
      (applyAll (⟨p.levels⟩ : UnsequencedL2Policy) (bs.map (·.updates))).levels = (applyAll p bs).levels := by
  induction bs generalizing p with
  | nil => exact ⟨trivial, trivial, rfl⟩
  | cons b bs ih =>
    obtain ⟨hb, hbs⟩ := h
    obtain ⟨hprev, hnext, hissue⟩ := applyBatch_clean hb
    change CleanBatches (p.applyBatch b).1 bs at hbs
    rw [hnext] at hbs
    obtain ⟨hlinked, hclean, hlevels⟩ := ih _ hbs
    refine ⟨⟨hprev, hlinked⟩, ⟨hissue, hclean⟩, ?_⟩
    have hstep : applyAll p (b :: bs) = applyAll (p.applyBatch b).1 bs := rfl
    rw [hstep, hnext]
    exact hlevels

end L2Policy

/-- The chain, the unsequenced book and the uncrossed top of every Ready state,
and what a batch that breaks the chain does to it. -/
theorem sequenced_book_follows_chain (calls : List (EngineCall L2Snapshot L2Batch))
    (hready : ((⟨L2Policy.init, .uninitialized⟩ : OrderBook L2Policy).run calls).readiness = .ready) :
    let b := (⟨L2Policy.init, .uninitialized⟩ : OrderBook L2Policy).run calls
    (∃ pre snap bs, calls = pre ++ EngineCall.snapshot snap :: batches bs ∧
      b.policy = bs.foldl (fun p batch => (p.applyBatch batch).1) (L2Policy.init.applySnapshot snap).1 ∧
      Linked snap.changeId (bs.map (·.msgMeta)) ∧
      ∀ u : OrderBook UnsequencedL2Policy,
        (u.run (EngineCall.snapshot ⟨snap.levels⟩ :: batches (bs.map (·.updates)))).policy.levels =
          b.policy.levels) ∧
    (∀ bid ask, b.best .bid = some bid → b.best .ask = some ask → bid.price < ask.price) ∧
    ∀ batch : L2Batch, batch.msgMeta.prevChangeId ≠ b.policy.lastChangeId →
      (b.applyBatch batch).1.policy.levels = b.policy.levels ∧
      (b.applyBatch batch).1.policy.lastChangeId = b.policy.lastChangeId ∧
      (∀ side, (b.applyBatch batch).1.best side = b.best side) ∧
      (b.applyBatch batch).2 = [ListenerCall.onIntegrityCheckFailed .gap] ∧
      ∀ later : List L2Batch, (b.applyBatch batch).1.run (batches later) = (b.applyBatch batch).1 ∧
        (b.applyBatch batch).1.heard (batches later) = [] := by
  intro b
  obtain ⟨pre, snap, bs, hcalls, hclean, hpolicy⟩ := ready_history (by decide) calls hready
  change b.policy = _ at hpolicy
  refine ⟨⟨pre, snap, bs, hcalls, hpolicy, ?_⟩, ?_, ?_⟩
  · obtain ⟨hlinked, hcleanU, hlevels⟩ := L2Policy.clean_refines _ bs hclean.2
    refine ⟨hlinked, fun u => ?_⟩
    rw [run_cleanReplay u ⟨snap.levels⟩ _ ⟨hclean.1, hcleanU⟩, hpolicy]
    exact hlevels
  · have huncrossed : isCrossed (b.policy.best .bid) (b.policy.best .ask) = false := by
      rw [hpolicy]
      refine replay_last (P := fun p : L2Policy => isCrossed (p.best .bid) (p.best .ask) = false)
        L2Levels.replaceWith_uncrossed (fun q batch hq => ?_) hclean
      obtain ⟨-, hnext, hissue⟩ := L2Policy.applyBatch_clean hq
      change isCrossed ((q.applyBatch batch).1.best .bid) ((q.applyBatch batch).1.best .ask) = false
      rw [hnext]
      exact L2Levels.applyUpdates_uncrossed hissue
    exact lt_of_not_crossed huncrossed
  · intro batch hgap
    have hstep : b.applyBatch batch = (⟨b.policy, .desynced⟩, [.onIntegrityCheckFailed .gap]) := by
      have hp : GranularityPolicy.applyBatch b.policy batch = (b.policy, { integrityIssue := some .gap }) :=
        L2Policy.applyBatch_gap b.policy batch hgap
      rw [applyBatch_of_ready hready, hp]
      rfl
    rw [hstep]
    exact ⟨rfl, rfl, fun _ => rfl, rfl, run_batches_of_not_ready (by simp)⟩

/-- A snapshot at change id 7 and the two batches that follow it. -/
def twoBatchRun : List (EngineCall L2Snapshot L2Batch) :=
  [.snapshot ⟨[⟨.bid, 100, 5, .new⟩, ⟨.ask, 101, 2, .new⟩], 7⟩,
   .batch ⟨[⟨.bid, 100, 0, .delete⟩, ⟨.bid, 99, 4, .new⟩], ⟨8, 7⟩⟩,
   .batch ⟨[⟨.ask, 101, 3, .change⟩], ⟨9, 8⟩⟩]

theorem sequenced_book_two_batches :
    ((⟨L2Policy.init, .uninitialized⟩ : OrderBook L2Policy).run twoBatchRun).readiness = .ready ∧
    ∃ pre snap bs, twoBatchRun = pre ++ EngineCall.snapshot snap :: batches bs ∧
      Linked snap.changeId (bs.map (·.msgMeta)) := by
  refine ⟨by decide, ?_⟩
  obtain ⟨⟨pre, snap, bs, hcalls, -, hlinked, -⟩, -⟩ :=
    sequenced_book_follows_chain twoBatchRun (by decide)
  exact ⟨pre, snap, bs, hcalls, hlinked⟩

end CryptoTrader
