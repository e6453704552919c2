import CryptoTrader.Spec.Engine
import Mathlib.Data.List.Induction
import Mathlib.Tactic.Common

/-! What a run of engine calls leaves behind, for any granularity policy. A Ready
book has a last snapshot, and its policy is that snapshot followed by every batch
since; a book that is not Ready is frozen until the next snapshot. -/

namespace CryptoTrader

namespace GranularityPolicy

variable {π Snap Batch : Type} [GranularityPolicy π Snap Batch]

/-- The policy after a sequence of batches, each applied. -/
def applyAll (p : π) (bs : List Batch) : π := bs.foldl (fun p b => (applyBatch p b).1) p

/-- None of the batches reports an integrity issue when applied in turn. -/
def CleanBatches : π → List Batch → Prop
  | _, [] => True
  | p, b :: bs => (applyBatch p b).2.integrityIssue = none ∧ CleanBatches (applyBatch p b).1 bs

/-- The policy after a snapshot and the batches that follow it, each applied. -/
def replay (p : π) (snap : Snap) (bs : List Batch) : π := applyAll (applySnapshot p snap).1 bs

/-- Neither the snapshot nor any of the batches reports an integrity issue. -/
def CleanReplay (p : π) (snap : Snap) (bs : List Batch) : Prop :=
  (applySnapshot p snap).2.integrityIssue = none ∧ CleanBatches (applySnapshot p snap).1 bs

theorem applyAll_snoc (p : π) (bs : List Batch) (b : Batch) :
    applyAll p (bs ++ [b]) = (applyBatch (applyAll p bs) b).1 := by
  simp [applyAll, List.foldl_append]

theorem cleanBatches_snoc (p : π) (bs : List Batch) (b : Batch) :
    CleanBatches p (bs ++ [b]) ↔
      CleanBatches p bs ∧ (applyBatch (applyAll p bs) b).2.integrityIssue = none := by
  induction bs generalizing p with
  | nil => simp [CleanBatches, applyAll]
  | cons c cs ih => simp only [List.cons_append, CleanBatches, ih, applyAll, List.foldl_cons, and_assoc]

theorem replay_snoc (p : π) (snap : Snap) (bs : List Batch) (b : Batch) :
    replay p snap (bs ++ [b]) = (applyBatch (replay p snap bs) b).1 := applyAll_snoc _ bs b

theorem cleanReplay_snoc (p : π) (snap : Snap) (bs : List Batch) (b : Batch) :
    CleanReplay p snap (bs ++ [b]) ↔
      CleanReplay p snap bs ∧ (applyBatch (replay p snap bs) b).2.integrityIssue = none := by
  simp only [CleanReplay, cleanBatches_snoc, replay, and_assoc]

/-- What every clean application establishes holds after a clean replay. -/
theorem replay_last {P : π → Prop} {p : π} {snap : Snap} {bs : List Batch}
    (hs : (applySnapshot p snap).2.integrityIssue = none → P (applySnapshot p snap).1)
    (hb : ∀ q : π, ∀ b : Batch, (applyBatch q b).2.integrityIssue = none → P (applyBatch q b).1)
    (h : CleanReplay p snap bs) : P (replay p snap bs) := by
  induction bs using List.reverseRecOn with
  | nil => exact hs h.1
  | append_singleton bs b _ =>
    rw [replay_snoc]
    exact hb _ b ((cleanReplay_snoc p snap bs b).1 h).2

end GranularityPolicy

namespace OrderBook

open GranularityPolicy

variable {π Snap Batch : Type} [GranularityPolicy π Snap Batch]

theorem applyReadinessTransition_ready {r : Readiness} {cs : ChangeSet}
    (h : applyReadinessTransition r cs = .ready) : cs.integrityIssue = none ∧ r = .ready := by
  unfold applyReadinessTransition at h
  split_ifs at h with hi
  exact ⟨by simpa using hi, h⟩

theorem applyReadinessTransition_clean {r : Readiness} {cs : ChangeSet} (h : cs.integrityIssue = none) :
    applyReadinessTransition r cs = r := by
  simp [applyReadinessTransition, h]

theorem applyBatch_of_not_ready {b : OrderBook π} (h : b.readiness ≠ .ready) (batch : Batch) :
    b.applyBatch batch = (b, []) := by
  simp [applyBatch, h]

theorem applyBatch_of_ready {b : OrderBook π} (h : b.readiness = .ready) (batch : Batch) :
    b.applyBatch batch =
      (⟨(GranularityPolicy.applyBatch b.policy batch).1,
        applyReadinessTransition .ready (GranularityPolicy.applyBatch b.policy batch).2⟩,
        notify (GranularityPolicy.applyBatch b.policy batch).1 (GranularityPolicy.applyBatch b.policy batch).2) := by
  simp [applyBatch, h]

/-- A run of batches, with no snapshot in it. -/
def batches (bs : List Batch) : List (EngineCall Snap Batch) := bs.map .batch

theorem run_snoc (b : OrderBook π) (calls : List (EngineCall Snap Batch)) (c : EngineCall Snap Batch) :
    b.run (calls ++ [c]) = ((b.run calls).call c).1 := by
  simp [run, List.foldl_append]

theorem run_append (b : OrderBook π) (xs ys : List (EngineCall Snap Batch)) :
    b.run (xs ++ ys) = (b.run xs).run ys := by
  simp [run, List.foldl_append]

/-- A book that is not Ready ignores every batch, without a listener call. -/
theorem run_batches_of_not_ready {b : OrderBook π} (h : b.readiness ≠ .ready) (bs : List Batch) :
    b.run (batches bs : List (EngineCall Snap Batch)) = b ∧
      b.heard (batches bs : List (EngineCall Snap Batch)) = [] := by
  induction bs with
  | nil => exact ⟨rfl, rfl⟩
  | cons c cs ih =>
    have hc : b.call (.batch c : EngineCall Snap Batch) = (b, []) := applyBatch_of_not_ready h c
    refine ⟨?_, ?_⟩
    · simpa only [run, batches, List.map_cons, List.foldl_cons, hc] using ih.1
    · simpa only [heard, batches, List.map_cons, hc, List.nil_append] using ih.2

/-- A Ready book is its last snapshot and every batch offered since, none of which
reported an issue. -/
theorem ready_history {b : OrderBook π} (hb : b.readiness ≠ .ready) (calls : List (EngineCall Snap Batch))
    (h : (b.run calls).readiness = .ready) :
    ∃ pre snap bs, calls = pre ++ EngineCall.snapshot snap :: batches bs ∧
      CleanReplay (b.run pre).policy snap bs ∧ (b.run calls).policy = replay (b.run pre).policy snap bs := by
  induction calls using List.reverseRecOn with
  | nil => exact absurd h hb
  | append_singleton calls c ih =>
    rw [run_snoc] at h ⊢
    cases c with
    | snapshot snap =>
      obtain ⟨hclean, -⟩ := applyReadinessTransition_ready h
      exact ⟨calls, snap, [], rfl, ⟨hclean, trivial⟩, rfl⟩
    | batch batch =>
      by_cases hr : (b.run calls).readiness = .ready
      · obtain ⟨pre, snap, bs, hcalls, hclean, hpolicy⟩ := ih hr
        simp only [call, applyBatch_of_ready hr] at h ⊢
        obtain ⟨hissue, -⟩ := applyReadinessTransition_ready h
        rw [hpolicy] at hissue ⊢
        exact ⟨pre, snap, bs ++ [batch], by simp [hcalls, batches], (cleanReplay_snoc _ _ _ _).2 ⟨hclean, hissue⟩,
          (replay_snoc _ _ _ _).symm⟩
      · simp only [call, applyBatch_of_not_ready hr] at h
        exact absurd h hr

/-- A snapshot is always applied, a batch only to a Ready book. -/
def takes (b : OrderBook π) : EngineCall Snap Batch → Bool
  | .snapshot _ => true
  | .batch _ => b.isReady

/-- The calls of a run that reached the policy. -/
def applied (b : OrderBook π) : List (EngineCall Snap Batch) → List (EngineCall Snap Batch)
  | [] => []
  | c :: cs => (if b.takes c then [c] else []) ++ applied (b.call c).1 cs

theorem applied_snoc (b : OrderBook π) (calls : List (EngineCall Snap Batch)) (c : EngineCall Snap Batch) :
    b.applied (calls ++ [c]) = b.applied calls ++ if (b.run calls).takes c then [c] else [] := by
  induction calls generalizing b with
  | nil => rw [List.nil_append, applied, applied, applied, List.nil_append, List.append_nil]; rfl
  | cons a calls ih =>
    have hrun : b.run (a :: calls) = (b.call a).1.run calls := rfl
    rw [List.cons_append, applied, applied, ih, hrun, List.append_assoc]

/-- The last call of a run that ends Ready was applied, and what a clean application
establishes holds of the book. -/
theorem ready_last {P : π → EngineCall Snap Batch → Prop} {b : OrderBook π} (hb : b.readiness ≠ .ready)
    (hsnap : ∀ q : π, ∀ snap : Snap, (GranularityPolicy.applySnapshot q snap).2.integrityIssue = none →
      P (GranularityPolicy.applySnapshot q snap).1 (.snapshot snap))
    (hbatch : ∀ q : π, ∀ batch : Batch, (GranularityPolicy.applyBatch q batch).2.integrityIssue = none →
      P (GranularityPolicy.applyBatch q batch).1 (.batch batch))
    (calls : List (EngineCall Snap Batch)) (h : (b.run calls).readiness = .ready) :
    ∃ c, calls.getLast? = some c ∧ (b.applied calls).getLast? = some c ∧ P (b.run calls).policy c := by
  induction calls using List.reverseRecOn with
  | nil => exact absurd h hb
  | append_singleton calls c _ =>
    rw [run_snoc] at h ⊢
    rw [applied_snoc]
    cases c with
    | snapshot snap =>
      obtain ⟨hclean, -⟩ := applyReadinessTransition_ready h
      exact ⟨.snapshot snap, by simp, by simp [takes], hsnap _ snap hclean⟩
    | batch batch =>
      by_cases hr : (b.run calls).readiness = .ready
      · simp only [call, applyBatch_of_ready hr] at h ⊢
        obtain ⟨hclean, -⟩ := applyReadinessTransition_ready h
        exact ⟨.batch batch, by simp, by simp [takes, isReady, hr], hbatch _ batch hclean⟩
      · simp only [call, applyBatch_of_not_ready hr] at h
        exact absurd h hr

/-- What both kinds of application preserve holds of the policy after any run. -/
theorem run_policy_invariant {I : π → Prop} {b : OrderBook π} (hb : I b.policy)
    (hsnap : ∀ q : π, ∀ snap : Snap, I q → I (GranularityPolicy.applySnapshot q snap).1)
    (hbatch : ∀ q : π, ∀ batch : Batch, I q → I (GranularityPolicy.applyBatch q batch).1)
    (calls : List (EngineCall Snap Batch)) : I (b.run calls).policy := by
  induction calls using List.reverseRecOn with
  | nil => exact hb
  | append_singleton calls c ih =>
    rw [run_snoc]
    cases c with
    | snapshot snap => exact hsnap _ snap ih
    | batch batch =>
      by_cases hr : (b.run calls).readiness = .ready
      · simp only [call, applyBatch_of_ready hr]
        exact hbatch _ batch ih
      · simp only [call, applyBatch_of_not_ready hr]
        exact ih

/-- A clean snapshot and clean batches leave the book Ready, in the replayed state. -/
theorem run_cleanReplay (b : OrderBook π) (snap : Snap) (bs : List Batch)
    (h : CleanReplay b.policy snap bs) :
    b.run (EngineCall.snapshot snap :: batches bs) = ⟨replay b.policy snap bs, .ready⟩ := by
  induction bs using List.reverseRecOn with
  | nil =>
    simp only [run, call, applySnapshot, batches, List.map_nil, List.foldl_cons, List.foldl_nil,
      applyReadinessTransition_clean h.1]
    rfl
  | append_singleton bs batch ih =>
    rw [cleanReplay_snoc] at h
    rw [batches, List.map_append, List.map_singleton, ← List.cons_append, ← batches, run_snoc, ih h.1, call,
      applyBatch_of_ready rfl, applyReadinessTransition_clean h.2, replay_snoc]

theorem heard_snoc (b : OrderBook π) (calls : List (EngineCall Snap Batch)) (c : EngineCall Snap Batch) :
    b.heard (calls ++ [c]) = b.heard calls ++ ((b.run calls).call c).2 := by
  induction calls generalizing b with
  | nil => simp [heard, run]
  | cons a calls ih =>
    have hrun : b.run (a :: calls) = (b.call a).1.run calls := rfl
    rw [List.cons_append, heard, heard, ih, hrun, List.append_assoc]

/-- A clean change set is announced without an integrity failure. -/
theorem notify_clean (p : π) {cs : ChangeSet} (h : cs.integrityIssue = none) (issue : IntegrityIssue) :
    ListenerCall.onIntegrityCheckFailed issue ∉ notify p cs := by
  have hlevel (change : LevelChange) : notifyLevel change ≠ .onIntegrityCheckFailed issue := by
    unfold notifyLevel
    split <;> simp
  have horder (event : OrderEvent) : notifyOrder event ≠ .onIntegrityCheckFailed issue := by
    unfold notifyOrder
    split <;> simp
  simp [notify, h, hlevel, horder]

theorem heard_cleanReplay (b : OrderBook π) (snap : Snap) (bs : List Batch) (h : CleanReplay b.policy snap bs)
    (issue : IntegrityIssue) :
    ListenerCall.onIntegrityCheckFailed issue ∉ b.heard (EngineCall.snapshot snap :: batches bs) := by
  induction bs using List.reverseRecOn with
  | nil =>
    simp only [batches, List.map_nil, heard, List.append_nil]
    exact notify_clean _ h.1 issue
  | append_singleton bs batch ih =>
    rw [cleanReplay_snoc] at h
    rw [batches, List.map_append, List.map_singleton, ← List.cons_append, ← batches, heard_snoc, List.mem_append,
      not_or, run_cleanReplay b snap bs h.1, call, applyBatch_of_ready rfl]
    exact ⟨ih h.1, notify_clean _ h.2 issue⟩

end OrderBook

end CryptoTrader
