import CryptoTrader.Proofs.ChangeSets
import CryptoTrader.Sanity.Engine

/-! A listener that only folds level notifications. Batches are conveyed whole. A snapshot
notifies the levels it lists and none of those it replaces, so the listener keeps what the
snapshot does not list: it holds the book as long as every snapshot lists every level the
book had. -/

namespace CryptoTrader

namespace LevelMirror

/-- What a listener with the level hooks does on a call. -/
def hear (m : LevelMirror) : ListenerCall → LevelMirror
  | .onLevelChanged side price quantity => m.apply ⟨side, price, some quantity⟩
  | .onLevelDeleted side price => m.apply ⟨side, price, none⟩
  | _ => m

/-- The levels of a listener that starts empty. -/
def listen (calls : List ListenerCall) : LevelMirror := calls.foldl hear empty

theorem hear_notifyLevel (m : LevelMirror) (change : LevelChange) : m.hear (notifyLevel change) = m.apply change := by
  obtain ⟨side, price, quantity⟩ := change
  cases quantity <;> rfl

theorem foldl_hear_levels (m : LevelMirror) (changes : List LevelChange) :
    (changes.map notifyLevel).foldl hear m = changes.foldl apply m := by
  induction changes generalizing m with
  | nil => rfl
  | cons change changes ih => rw [List.map_cons, List.foldl_cons, List.foldl_cons, hear_notifyLevel, ih]

theorem foldl_hear_orders (m : LevelMirror) (events : List OrderEvent) :
    (events.map notifyOrder).foldl hear m = m := by
  induction events with
  | nil => rfl
  | cons event events ih =>
    have hevent : m.hear (notifyOrder event) = m := by
      obtain ⟨kind, _, _, _, _⟩ := event
      cases kind <;> rfl
    rw [List.map_cons, List.foldl_cons, hevent, ih]

/-- The notifications of a call say to a level listener what the level changes say. -/
theorem foldl_hear_notify {π Snap Batch : Type} [GranularityPolicy π Snap Batch] (m : LevelMirror) (p : π)
    (cs : ChangeSet) : (OrderBook.notify p cs).foldl hear m = cs.levelChanges.foldl apply m := by
  rw [OrderBook.notify, List.foldl_append, List.foldl_append, List.foldl_append, List.foldl_append, foldl_hear_orders,
    foldl_hear_levels]
  obtain ⟨bid, ask, changes, _, issue⟩ := cs
  cases bid <;> cases ask <;> cases issue <;> rfl

/-- Some change is about a level. -/
def Touched (changes : List LevelChange) (s : Side) (p : Price) : Prop := ∃ c ∈ changes, c.side = s ∧ c.price = p

theorem find?_foldl_untouched {changes : List LevelChange} {s : Side} {p : Price} (h : ¬Touched changes s p)
    (m : LevelMirror) : ((changes.foldl apply m).get s).find? p = (m.get s).find? p := by
  induction changes generalizing m with
  | nil => rfl
  | cons change changes ih =>
    rw [List.foldl_cons, ih fun ⟨c, hc, hplace⟩ => h ⟨c, List.mem_cons_of_mem _ hc, hplace⟩, find?_apply, if_neg]
    rintro ⟨hs, hp⟩
    exact h ⟨change, List.mem_cons_self, hs.symm, hp.symm⟩

/-- What was at a touched level before does not matter. -/
theorem find?_foldl_touched {changes : List LevelChange} {s : Side} {p : Price} (h : Touched changes s p)
    (m m' : LevelMirror) : ((changes.foldl apply m).get s).find? p = ((changes.foldl apply m').get s).find? p := by
  induction changes generalizing m m' with
  | nil =>
    obtain ⟨c, hc, -⟩ := h
    cases hc
  | cons change changes ih =>
    by_cases hlater : Touched changes s p
    · exact ih hlater _ _
    · have hplace : s = change.side ∧ p = change.price := by
        obtain ⟨c, hc, hs, hp⟩ := h
        rcases List.mem_cons.1 hc with rfl | hc
        · exact ⟨hs.symm, hp.symm⟩
        · exact absurd ⟨c, hc, hs, hp⟩ hlater
      rw [List.foldl_cons, List.foldl_cons, find?_foldl_untouched hlater, find?_foldl_untouched hlater, find?_apply,
        find?_apply, if_pos hplace, if_pos hplace]

/-- Two mirrors agree after the same changes exactly if they did where nothing changed. -/
theorem foldl_apply_eq_iff (changes : List LevelChange) (m m' : LevelMirror) :
    changes.foldl apply m = changes.foldl apply m' ↔
      ∀ s p, ¬Touched changes s p → (m.get s).find? p = (m'.get s).find? p := by
  constructor
  · intro h s p huntouched
    rw [← find?_foldl_untouched huntouched m, h, find?_foldl_untouched huntouched]
  · intro h
    refine PerSide.ext_get fun s => OrdMap.ext_find fun p => ?_
    by_cases htouched : Touched changes s p
    · exact find?_foldl_touched htouched m m'
    · rw [find?_foldl_untouched htouched, find?_foldl_untouched htouched]
      exact h s p htouched

end LevelMirror

open LevelMirror

namespace L2Levels

/-- A snapshot lists a level: an entry other than a `Delete` names it. -/
def Lists (levels : List L2Update) (s : Side) (p : Price) : Prop :=
  ∃ u ∈ levels, u.operation ≠ .delete ∧ u.side = s ∧ u.price = p

/-- A snapshot lists every level of a book. -/
def ListsAll (levels : List L2Update) (l : L2Levels) : Prop :=
  ∀ s, ∀ p ∈ (l.levels.get s).keys, Lists levels s p

instance (levels : List L2Update) (s : Side) (p : Price) : Decidable (Lists levels s p) :=
  inferInstanceAs (Decidable (∃ u ∈ levels, _))

instance (levels : List L2Update) (l : L2Levels) : Decidable (ListsAll levels l) :=
  decidable_of_iff ((∀ p ∈ (l.levels.get .bid).keys, Lists levels .bid p) ∧
    ∀ p ∈ (l.levels.get .ask).keys, Lists levels .ask p)
    ⟨fun h s => by cases s; exacts [h.1, h.2], fun h => ⟨h .bid, h .ask⟩⟩

theorem touched_foldl_replaceOne (levels : List L2Update) (acc : L2Levels × List LevelChange) (s : Side) (p : Price) :
    Touched (levels.foldl replaceOne acc).2 s p ↔ Touched acc.2 s p ∨ Lists levels s p := by
  induction levels generalizing acc with
  | nil => simp [Lists]
  | cons level levels ih =>
    rw [List.foldl_cons, ih, replaceOne]
    by_cases hdelete : level.operation = .delete
    · simp [Lists, hdelete]
    · simp [Lists, Touched, hdelete, or_assoc, or_and_right, exists_or]

theorem touched_replaceWith (levels : List L2Update) (s : Side) (p : Price) :
    Touched (replaceWith levels).2.levelChanges s p ↔ Lists levels s p := by
  rw [replaceWith]
  refine (touched_foldl_replaceOne levels (empty, []) s p).trans ?_
  simp [Touched]

/-- After a snapshot the listener of a book holds the new levels exactly if the snapshot
lists all the old ones. -/
theorem replaceWith_heard (l : L2Levels) (levels : List L2Update) :
    (replaceWith levels).2.levelChanges.foldl apply l.levels = (replaceWith levels).1.levels ↔ ListsAll levels l := by
  rw [← replaceWith_exact, foldl_apply_eq_iff]
  constructor
  · intro h s p hp
    by_contra hlists
    have hnone := h s p (mt (touched_replaceWith levels s p).1 hlists)
    rw [LevelMirror.find?_empty] at hnone
    rw [OrdMap.mem_keys, hnone] at hp
    cases hp
  · intro h s p huntouched
    rw [LevelMirror.find?_empty, ← Option.not_isSome_iff_eq_none, ← OrdMap.mem_keys]
    exact fun hp => huntouched ((touched_replaceWith levels s p).2 (h s p hp))

end L2Levels

/-- A policy over price levels: what its snapshots list, and that both kinds of call are
those of the levels. -/
structure LevelPolicy (π : Type) {Snap Batch : Type} [GranularityPolicy π Snap Batch] where
  levels : π → L2Levels
  listed : Snap → List L2Update
  snapshot_eq : ∀ p snap, (GranularityPolicy.applySnapshot p snap).2 = (L2Levels.replaceWith (listed snap)).2 ∧
    levels (GranularityPolicy.applySnapshot p snap).1 = (L2Levels.replaceWith (listed snap)).1
  batch_eq : ∀ p batch, (GranularityPolicy.applyBatch p batch).2.levelChanges.foldl apply (levels p).levels =
    (levels (GranularityPolicy.applyBatch p batch).1).levels

namespace LevelPolicy

def sequenced : LevelPolicy L2Policy where
  levels p := p.levels
  listed snap := snap.levels
  snapshot_eq _ _ := ⟨rfl, rfl⟩
  batch_eq p batch := by
    change (p.applyBatch batch).2.levelChanges.foldl apply p.levels.levels = (p.applyBatch batch).1.levels.levels
    rw [L2Policy.applyBatch]
    split_ifs
    · rfl
    · exact p.levels.applyUpdates_exact batch.updates

def unsequenced : LevelPolicy UnsequencedL2Policy where
  levels p := p.levels
  listed snap := snap.levels
  snapshot_eq _ _ := ⟨rfl, rfl⟩
  batch_eq p updates := p.levels.applyUpdates_exact updates

variable {π Snap Batch : Type} [GranularityPolicy π Snap Batch] (P : LevelPolicy π)

/-- Every snapshot of a run lists every level the book holds when it comes. -/
def ListsBefore (b : OrderBook π) : List (EngineCall Snap Batch) → Prop
  | [] => True
  | c :: calls =>
    (∀ snap, c = .snapshot snap → L2Levels.ListsAll (P.listed snap) (P.levels b.policy)) ∧
      ListsBefore (b.call c).1 calls

/-- One call, for a listener that holds the book. -/
theorem hear_call (b : OrderBook π) (c : EngineCall Snap Batch) :
    (b.call c).2.foldl hear (P.levels b.policy).levels = (P.levels (b.call c).1.policy).levels ↔
      ∀ snap, c = .snapshot snap → L2Levels.ListsAll (P.listed snap) (P.levels b.policy) := by
  cases c with
  | snapshot snap =>
    rw [OrderBook.call, OrderBook.applySnapshot, foldl_hear_notify, (P.snapshot_eq b.policy snap).1,
      (P.snapshot_eq b.policy snap).2, L2Levels.replaceWith_heard]
    exact ⟨fun h _ heq => EngineCall.snapshot.inj heq ▸ h, fun h => h snap rfl⟩
  | batch batch =>
    refine iff_of_true ?_ fun snap heq => by cases heq
    rw [OrderBook.call]
    by_cases hready : b.readiness = .ready
    · rw [OrderBook.applyBatch_of_ready hready, foldl_hear_notify]
      exact P.batch_eq b.policy batch
    · rw [OrderBook.applyBatch_of_not_ready hready]
      rfl

theorem hear_run (b : OrderBook π) (calls : List (EngineCall Snap Batch)) (h : P.ListsBefore b calls) :
    (b.heard calls).foldl hear (P.levels b.policy).levels = (P.levels (b.run calls).policy).levels := by
  induction calls generalizing b with
  | nil => rfl
  | cons c calls ih =>
    rw [OrderBook.heard, List.foldl_append, (P.hear_call b c).2 h.1, ih _ h.2]
    rfl

end LevelPolicy

/-- New books of the two policies. -/
def newL2Book : OrderBook L2Policy := { policy := L2Policy.init }
def newUnsequencedL2Book : OrderBook UnsequencedL2Policy := { policy := UnsequencedL2Policy.init }

/-- In a run whose snapshots list every level there is when they come, a level listener
holds the book after every call, and one snapshot that does not is enough to part them. -/
theorem level_listener_holds_book (calls : List (EngineCall L2Snapshot L2Batch))
    (unsequencedCalls : List (EngineCall UnsequencedL2Snapshot (List L2Update))) :
    (LevelPolicy.sequenced.ListsBefore newL2Book calls →
      listen (newL2Book.heard calls) = (newL2Book.run calls).policy.levels.levels) ∧
    (LevelPolicy.unsequenced.ListsBefore newUnsequencedL2Book unsequencedCalls →
      listen (newUnsequencedL2Book.heard unsequencedCalls) =
        (newUnsequencedL2Book.run unsequencedCalls).policy.levels.levels) ∧
    (∀ (b : OrderBook L2Policy) (snap : L2Snapshot),
      (b.applySnapshot snap).2.foldl hear b.policy.levels.levels = (b.applySnapshot snap).1.policy.levels.levels ↔
        L2Levels.ListsAll snap.levels b.policy.levels) ∧
    ∀ (b : OrderBook UnsequencedL2Policy) (snap : UnsequencedL2Snapshot),
      (b.applySnapshot snap).2.foldl hear b.policy.levels.levels = (b.applySnapshot snap).1.policy.levels.levels ↔
        L2Levels.ListsAll snap.levels b.policy.levels := by
  refine ⟨LevelPolicy.sequenced.hear_run newL2Book calls,
    LevelPolicy.unsequenced.hear_run newUnsequencedL2Book unsequencedCalls, fun b snap => ?_, fun b snap => ?_⟩
  · refine (LevelPolicy.sequenced.hear_call b (.snapshot snap)).trans ⟨fun h => h snap rfl, ?_⟩
    rintro h _ ⟨⟩
    exact h
  · refine (LevelPolicy.unsequenced.hear_call b (.snapshot snap)).trans ⟨fun h => h snap rfl, ?_⟩
    rintro h _ ⟨⟩
    exact h

/-- A gap, and a recovery snapshot that still lists the level. -/
def relistedCalls : List (EngineCall L2Snapshot L2Batch) :=
  [.snapshot ⟨[⟨.bid, 100, 1, .new⟩], 1⟩, .batch ⟨[⟨.ask, 101, 4, .new⟩], ⟨9, 8⟩⟩,
    .snapshot ⟨[⟨.bid, 100, 3, .new⟩, ⟨.bid, 99, 2, .new⟩], 9⟩, .batch ⟨[⟨.bid, 100, 0, .delete⟩], ⟨10, 9⟩⟩]

theorem relisted_listener_holds_book :
    LevelPolicy.sequenced.ListsBefore newL2Book relistedCalls ∧
      listen (newL2Book.heard relistedCalls) = (newL2Book.run relistedCalls).policy.levels.levels := by
  have hlists : LevelPolicy.sequenced.ListsBefore newL2Book relistedCalls := by
    refine ⟨?_, ?_, ?_, ?_, trivial⟩
    · rintro _ ⟨⟩
      decide
    · rintro _ ⟨⟩
    · rintro _ ⟨⟩
      decide
    · rintro _ ⟨⟩
  exact ⟨hlists, (level_listener_holds_book relistedCalls []).1 hlists⟩

/-- A gap, and a recovery snapshot without the level. -/
def replacedCalls : List (EngineCall L2Snapshot L2Batch) :=
  [.snapshot ⟨[⟨.bid, 100, 1, .new⟩], 1⟩, .batch ⟨[], ⟨9, 8⟩⟩, .snapshot ⟨[⟨.bid, 99, 2, .new⟩], 9⟩]

/-- The book is Ready again and holds one level, the listener still holds the other too. -/
theorem replaced_level_stays :
    (newL2Book.run replacedCalls).isReady = true ∧
      ((newL2Book.run replacedCalls).policy.levels.levels.get .bid).entries = [(99, 2)] ∧
      ((listen (newL2Book.heard replacedCalls)).get .bid).entries = [(100, 1), (99, 2)] ∧
      listen (newL2Book.heard replacedCalls) ≠ (newL2Book.run replacedCalls).policy.levels.levels := by
  have hbook : ((newL2Book.run replacedCalls).policy.levels.levels.get .bid).entries = [(99, 2)] := by decide
  have hlistener : ((listen (newL2Book.heard replacedCalls)).get .bid).entries = [(100, 1), (99, 2)] := by decide
  refine ⟨by decide, hbook, hlistener, fun hsame => ?_⟩
  rw [hsame, hbook] at hlistener
  exact absurd hlistener (by decide)

end CryptoTrader
