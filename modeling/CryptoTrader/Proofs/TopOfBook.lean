import CryptoTrader.Spec.L1
import CryptoTrader.Spec.L2
import CryptoTrader.Spec.KrakenL3
import CryptoTrader.Sanity.Engine

/-! The last top-of-book notification is the truth. A policy's flags say which best entries
a call changed; the engine turns each flag into one notification of the entry after the
call. That the flags are right is shown policy by policy, the rest once for any policy. -/

namespace CryptoTrader

/-- The flag of a side. -/
def ChangeSet.topOfBookChanged (cs : ChangeSet) : Side → Bool
  | .bid => cs.bidTopOfBookChanged
  | .ask => cs.askTopOfBookChanged

/-- What a call on a listener says about the top of one side. -/
def ListenerCall.top? (side : Side) : ListenerCall → Option (Option BookEntry)
  | .onTopOfBookChanged s best => if s = side then some best else none
  | _ => none

/-- The top-of-book notifications of one side, in order. -/
def tops (side : Side) (calls : List ListenerCall) : List (Option BookEntry) := calls.filterMap (·.top? side)

theorem tops_append (side : Side) (xs ys : List ListenerCall) : tops side (xs ++ ys) = tops side xs ++ tops side ys :=
  List.filterMap_append

section Flags

variable (π : Type) {Snap Batch : Type} [GranularityPolicy π Snap Batch]

/-- The flags are right: a snapshot sets both, a batch those of the sides whose best entry
it changed. -/
structure FlagsRight : Prop where
  snapshot : ∀ (p : π) (snap : Snap) (s : Side),
    (GranularityPolicy.applySnapshot p snap).2.topOfBookChanged s = true
  batch : ∀ (p : π) (batch : Batch) (s : Side),
    (GranularityPolicy.applyBatch p batch).2.topOfBookChanged s = true ↔
      GranularityPolicy.best (GranularityPolicy.applyBatch p batch).1 s ≠ GranularityPolicy.best p s

end Flags

section Policies

theorem L1Policy.flagsRight : FlagsRight L1Policy where
  snapshot p snap s := by cases s <;> rfl
  batch p update s := by
    change (p.apply update).2.topOfBookChanged s = true ↔ (p.apply update).1.best s ≠ p.best s
    obtain ⟨side, price, quantity⟩ := update
    rw [L1Policy.apply]
    dsimp only
    generalize (if quantity = 0 then none else some (⟨price, quantity⟩ : BookEntry)) = newValue
    split_ifs with hchanged
    · cases side <;> cases s <;> simp_all [ChangeSet.topOfBookChanged, L1Policy.best, eq_comm]
    · cases s <;> simp [ChangeSet.topOfBookChanged]

theorem L2Levels.applyUpdates_flags (l : L2Levels) (updates : List L2Update) (s : Side) :
    (l.applyUpdates updates).2.topOfBookChanged s = true ↔ (l.applyUpdates updates).1.best s ≠ l.best s := by
  rw [ne_comm, ← bne_iff_ne]
  cases s <;> rfl

theorem L2Policy.flagsRight : FlagsRight L2Policy where
  snapshot p snap s := by cases s <;> rfl
  batch p batch s := by
    change (p.applyBatch batch).2.topOfBookChanged s = true ↔ (p.applyBatch batch).1.best s ≠ p.best s
    rw [L2Policy.applyBatch]
    split_ifs with hgap
    · cases s <;> simp [ChangeSet.topOfBookChanged]
    · exact p.levels.applyUpdates_flags batch.updates s

theorem UnsequencedL2Policy.flagsRight : FlagsRight UnsequencedL2Policy where
  snapshot p snap s := by cases s <;> rfl
  batch p updates s := p.levels.applyUpdates_flags updates s

theorem L3Policy.applySnapshot_flags (p : L3Policy) (snap : L3Snapshot) (s : Side) :
    (p.applySnapshot snap).2.topOfBookChanged s = true := by
  rw [applySnapshot_changes]
  cases s <;> rfl

theorem L3Policy.applyBatch_flags (p : L3Policy) (updates : List L3Update) (s : Side) :
    (p.applyBatch updates).2.topOfBookChanged s = true ↔ (p.applyBatch updates).1.best s ≠ p.best s := by
  obtain ⟨L, h⟩ := p.represents
  rw [applyBatch_changes h, best_eq (applyBatch_spec h updates).1, best_eq h, ne_comm, ← bne_iff_ne]
  cases s <;> rfl

theorem L3Policy.flagsRight : FlagsRight L3Policy := ⟨L3Policy.applySnapshot_flags, L3Policy.applyBatch_flags⟩

/-- Checking the checksum can only add an issue. -/
theorem KrakenL3Policy.verifyChecksum_flags (book : L3Policy) (cs : ChangeSet) (msgMeta : ChecksumMeta) (s : Side) :
    (verifyChecksum book cs msgMeta).topOfBookChanged s = cs.topOfBookChanged s := by
  rw [verifyChecksum]
  split_ifs <;> cases s <;> rfl

theorem KrakenL3Policy.flagsRight : FlagsRight KrakenL3Policy where
  snapshot p snap s := (verifyChecksum_flags _ _ _ s).trans (p.book.applySnapshot_flags snap.snapshot s)
  batch p batch s := by
    have hflags := p.book.applyBatch_flags (addsInArrivalOrder batch.updates) s
    rwa [← verifyChecksum_flags _ _ batch.msgMeta s] at hflags

end Policies

namespace OrderBook

variable {π Snap Batch : Type} [GranularityPolicy π Snap Batch]

/-- One notification for a flag, none without. -/
theorem tops_notify (p : π) (cs : ChangeSet) (s : Side) :
    tops s (notify p cs) = if cs.topOfBookChanged s then [GranularityPolicy.best p s] else [] := by
  have hlevels : tops s (cs.levelChanges.map notifyLevel) = [] := by
    rw [tops, List.filterMap_map, List.filterMap_eq_nil_iff]
    rintro ⟨side, price, quantity⟩ -
    cases quantity <;> rfl
  have horders : tops s (cs.orderEvents.map notifyOrder) = [] := by
    rw [tops, List.filterMap_map, List.filterMap_eq_nil_iff]
    rintro ⟨kind, id, side, price, quantity⟩ -
    cases kind <;> rfl
  rw [notify, tops_append, tops_append, tops_append, tops_append, hlevels, horders, List.append_nil, List.append_nil]
  obtain ⟨bid, ask, _, _, issue⟩ := cs
  cases bid <;> cases ask <;> cases issue <;> cases s <;> rfl

/-- A batch notifies a side once if it changed its best entry, and otherwise not. -/
theorem tops_applyBatch (hflags : FlagsRight π) (b : OrderBook π) (batch : Batch) (s : Side) :
    tops s (b.applyBatch batch).2 =
      if (b.applyBatch batch).1.best s = b.best s then [] else [(b.applyBatch batch).1.best s] := by
  by_cases hready : b.readiness = .ready
  · rw [applyBatch_of_ready hready, tops_notify]
    have hflag := hflags.batch b.policy batch s
    by_cases hsame : GranularityPolicy.best (GranularityPolicy.applyBatch b.policy batch).1 s =
        GranularityPolicy.best b.policy s
    · rw [if_neg fun hset => hflag.1 hset hsame]
      exact (if_pos hsame).symm
    · rw [if_pos (hflag.2 hsame)]
      exact (if_neg hsame).symm
  · rw [applyBatch_of_not_ready hready, if_pos rfl]
    rfl

/-- A call leaves the last notification true: a snapshot always notifies, and a batch that
does not has not changed the best entry. -/
theorem lastTop_call (hflags : FlagsRight π) (b : OrderBook π) (c : EngineCall Snap Batch) (s : Side)
    {before : Option (Option BookEntry)} (hbefore : before = some (b.best s) ∨ ∃ snap, c = .snapshot snap) :
    ((tops s (b.call c).2).getLast?.or before) = some ((b.call c).1.best s) := by
  cases c with
  | snapshot snap =>
    rw [call, applySnapshot, tops_notify, if_pos (hflags.snapshot b.policy snap s)]
    rfl
  | batch batch =>
    obtain rfl : before = some (b.best s) := by
      rcases hbefore with hsame | ⟨snap, hne⟩
      · exact hsame
      · cases hne
    rw [call, tops_applyBatch hflags]
    split_ifs with hsame
    · rw [hsame]
      rfl
    · rfl

/-- After a snapshot the last notification of a side is always its best entry. -/
theorem lastTop_run (hflags : FlagsRight π) (b : OrderBook π) (calls : List (EngineCall Snap Batch))
    (hsnapshot : ∃ snap, EngineCall.snapshot snap ∈ calls) (s : Side) :
    (tops s (b.heard calls)).getLast? = some ((b.run calls).best s) := by
  induction calls using List.reverseRecOn with
  | nil =>
    obtain ⟨snap, hmem⟩ := hsnapshot
    cases hmem
  | append_singleton calls c ih =>
    rw [heard_snoc, tops_append, List.getLast?_append, run_snoc]
    refine lastTop_call hflags (b.run calls) c s ?_
    obtain ⟨snap, hmem⟩ := hsnapshot
    rcases List.mem_append.1 hmem with hold | hnew
    · exact .inl (ih ⟨snap, hold⟩)
    · exact .inr ⟨snap, (List.mem_singleton.1 hnew).symm⟩

end OrderBook

/-- The listener of a book of this policy is told the truth about the top of the book. -/
def TopOfBookTold (π : Type) {Snap Batch : Type} [GranularityPolicy π Snap Batch] : Prop :=
  (∀ (b : OrderBook π) (calls : List (EngineCall Snap Batch)) (s : Side),
    (∃ snap, EngineCall.snapshot snap ∈ calls) →
      (tops s (b.heard calls)).getLast? = some ((b.run calls).best s)) ∧
  ∀ (b : OrderBook π) (batch : Batch) (s : Side),
    (tops s (b.applyBatch batch).2).length ≤ 1 ∧
      (tops s (b.applyBatch batch).2 ≠ [] ↔ (b.applyBatch batch).1.best s ≠ b.best s)

theorem FlagsRight.told {π Snap Batch : Type} [GranularityPolicy π Snap Batch] (hflags : FlagsRight π) :
    TopOfBookTold π := by
  refine ⟨fun b calls s hsnapshot => OrderBook.lastTop_run hflags b calls hsnapshot s, fun b batch s => ?_⟩
  rw [OrderBook.tops_applyBatch hflags]
  split_ifs with hsame
  · simp [hsame]
  · simp [hsame]

theorem top_of_book_is_told :
    TopOfBookTold L1Policy ∧ TopOfBookTold L2Policy ∧ TopOfBookTold UnsequencedL2Policy ∧ TopOfBookTold L3Policy ∧
      TopOfBookTold KrakenL3Policy :=
  ⟨L1Policy.flagsRight.told, L2Policy.flagsRight.told, UnsequencedL2Policy.flagsRight.told, L3Policy.flagsRight.told,
    KrakenL3Policy.flagsRight.told⟩

end CryptoTrader
