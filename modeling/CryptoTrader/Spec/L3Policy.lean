import CryptoTrader.Sanity.L3Rep

/-! `L3Policy` as a value: its members together with the fact that they represent a
list of resting orders. With that fact no lookup of the source can fail, so the
operations return plain results and the policy can be plugged into the engine. -/

namespace CryptoTrader

/-- The result of a computation that is known to succeed. -/
def okValue {ε α : Type} : (r : Except ε α) → (∃ a, r = .ok a) → α
  | .ok a, _ => a
  | .error _, h => absurd h (by simp)

theorem okValue_eq {ε α : Type} {r : Except ε α} {a : α} (h : ∃ a, r = .ok a) (ha : r = .ok a) : okValue r h = a := by
  subst ha
  rfl

structure L3Policy where
  state : L3State
  represents : ∃ L, Rep L state

namespace L3Policy

theorem eq_of_state {p q : L3Policy} (h : p.state = q.state) : p = q := by
  cases p; cases q; cases h; rfl

instance : DecidableEq L3State := fun a b =>
  decidable_of_iff (a.maxDepth = b.maxDepth ∧ a.levels.bid = b.levels.bid ∧ a.levels.ask = b.levels.ask ∧
    a.orderIndex = b.orderIndex) (by
      obtain ⟨_, ⟨_, _⟩, _⟩ := a
      obtain ⟨_, ⟨_, _⟩, _⟩ := b
      simp [and_assoc])

instance : DecidableEq L3Policy := fun p q =>
  decidable_of_iff (p.state = q.state) ⟨eq_of_state, congrArg state⟩

def init (maxDepth : Option ℕ) : L3Policy := ⟨.init maxDepth, [], Rep.init maxDepth⟩

theorem best_ok (p : L3Policy) (s : Side) : ∃ b, p.state.best s = .ok b := by
  obtain ⟨L, h⟩ := p.represents
  exact ⟨_, h.best s⟩

theorem getBookView_ok (p : L3Policy) (maxLevels : Option ℕ) : ∃ v, p.state.getBookView maxLevels = .ok v := by
  obtain ⟨L, h⟩ := p.represents
  exact ⟨_, h.getBookView maxLevels⟩

theorem applySnapshot_ok (p : L3Policy) (snapshot : L3Snapshot) : ∃ r, p.state.applySnapshot snapshot = .ok r := by
  obtain ⟨st, hok, -⟩ := Rep.applySnapshot p.state snapshot
  exact ⟨_, hok⟩

theorem applyBatch_ok (p : L3Policy) (updates : List L3Update) : ∃ r, p.state.applyBatch updates = .ok r := by
  obtain ⟨L, h⟩ := p.represents
  obtain ⟨st, hok, -⟩ := h.applyBatch updates
  exact ⟨_, hok⟩

def best (p : L3Policy) (s : Side) : Option BookEntry := okValue (p.state.best s) (p.best_ok s)

def getBookView (p : L3Policy) (maxLevels : Option ℕ) : BookView :=
  okValue (p.state.getBookView maxLevels) (p.getBookView_ok maxLevels)

theorem applySnapshot_represents (p : L3Policy) (snapshot : L3Snapshot) :
    ∃ L, Rep L (okValue (p.state.applySnapshot snapshot) (p.applySnapshot_ok snapshot)).1 := by
  obtain ⟨st, hok, hrep, -⟩ := Rep.applySnapshot p.state snapshot
  rw [okValue_eq _ hok]
  exact ⟨_, hrep⟩

theorem applyBatch_represents (p : L3Policy) (updates : List L3Update) :
    ∃ L, Rep L (okValue (p.state.applyBatch updates) (p.applyBatch_ok updates)).1 := by
  obtain ⟨L, h⟩ := p.represents
  obtain ⟨st, hok, hrep, -⟩ := h.applyBatch updates
  rw [okValue_eq _ hok]
  exact ⟨_, hrep⟩

def applySnapshot (p : L3Policy) (snapshot : L3Snapshot) : L3Policy × ChangeSet :=
  (⟨_, p.applySnapshot_represents snapshot⟩,
    (okValue (p.state.applySnapshot snapshot) (p.applySnapshot_ok snapshot)).2)

def applyBatch (p : L3Policy) (updates : List L3Update) : L3Policy × ChangeSet :=
  (⟨_, p.applyBatch_represents updates⟩,
    (okValue (p.state.applyBatch updates) (p.applyBatch_ok updates)).2)

instance : GranularityPolicy L3Policy L3Snapshot (List L3Update) where
  best := best
  applySnapshot := applySnapshot
  applyBatch := applyBatch

section Results

variable {p : L3Policy} {L : List Order}

theorem best_eq (h : Rep L p.state) (s : Side) : p.best s = PriceTime.best L s := okValue_eq _ (h.best s)

theorem getBookView_eq (h : Rep L p.state) (maxLevels : Option ℕ) :
    p.getBookView maxLevels =
      ⟨(limitTo maxLevels (p.state.levels.get .bid).keys).flatMap (Rep.levelView L .bid),
        (limitTo maxLevels (p.state.levels.get .ask).keys).flatMap (Rep.levelView L .ask)⟩ :=
  okValue_eq _ (h.getBookView maxLevels)

theorem applySnapshot_changes (p : L3Policy) (snapshot : L3Snapshot) :
    (p.applySnapshot snapshot).2 = Rep.snapshotResult p.state.maxDepth snapshot := by
  obtain ⟨st, hok, -⟩ := Rep.applySnapshot p.state snapshot
  exact congrArg Prod.snd (okValue_eq (p.applySnapshot_ok snapshot) hok)

theorem applyBatch_changes (h : Rep L p.state) (updates : List L3Update) :
    (p.applyBatch updates).2 = Rep.batchResult p.state.maxDepth L updates := by
  obtain ⟨st, hok, -⟩ := h.applyBatch updates
  exact congrArg Prod.snd (okValue_eq (p.applyBatch_ok updates) hok)

theorem applySnapshot_spec (p : L3Policy) (snapshot : L3Snapshot) :
    Rep (Rep.snapshotOrders p.state.maxDepth snapshot) (p.applySnapshot snapshot).1.state ∧
      (p.applySnapshot snapshot).1.state.maxDepth = p.state.maxDepth ∧
      (p.applySnapshot snapshot).2.integrityIssue =
        Rep.crossedIssue (Rep.snapshotOrders p.state.maxDepth snapshot) none := by
  obtain ⟨st, hok, hrep, hdepth⟩ := Rep.applySnapshot p.state snapshot
  have hvalue := okValue_eq (p.applySnapshot_ok snapshot) hok
  simp only [applySnapshot, hvalue]
  exact ⟨hrep, hdepth, rfl⟩

theorem applyBatch_spec (h : Rep L p.state) (updates : List L3Update) :
    Rep (Rep.batchOrders p.state.maxDepth L updates) (p.applyBatch updates).1.state ∧
      (p.applyBatch updates).1.state.maxDepth = p.state.maxDepth ∧
      (p.applyBatch updates).2.integrityIssue =
        Rep.crossedIssue (Rep.batchOrders p.state.maxDepth L updates)
          (if anyUnknown L updates then some .unknownOrder else none) := by
  obtain ⟨st, hok, hrep, hdepth⟩ := h.applyBatch updates
  have hvalue := okValue_eq (p.applyBatch_ok updates) hok
  simp only [applyBatch, hvalue]
  exact ⟨hrep, hdepth, rfl⟩

end Results

end L3Policy

end CryptoTrader
