import CryptoTrader.Spec.Adapter
import CryptoTrader.Sanity.Engine

/-! One symbol's book as a fold over what concerned it. The adapter's handlers are
written over whole connections; here each is reduced to its effect on the book of one
symbol, as a list of events: a message for the symbol, or a loss that may have held
one. -/

namespace CryptoTrader

open GranularityPolicy

/-- What can happen to the book of one symbol. -/
inductive SymbolEvent (Snap Batch : Type) where
  | message (content : EngineCall Snap Batch)
  | lost
  deriving DecidableEq

/-- Snapshots replace the whole state of a policy: what one leaves depends only on
settings that no operation changes. -/
structure SnapshotReplaces {π Snap Batch σ : Type} [GranularityPolicy π Snap Batch] (settings : π → σ) : Prop where
  snapshot_settings : ∀ (p : π) (snap : Snap), settings (applySnapshot p snap).1 = settings p
  batch_settings : ∀ (p : π) (batch : Batch), settings (applyBatch p batch).1 = settings p
  snapshot_eq : ∀ (p q : π) (snap : Snap), settings p = settings q → applySnapshot p snap = applySnapshot q snap

section Book

variable {π Snap Batch σ : Type} [GranularityPolicy π Snap Batch]

/-- The effect of one event on the symbol's book. -/
def bookStep (fresh : π) (book : Option (AdapterBook π)) : SymbolEvent Snap Batch → Option (AdapterBook π)
  | .message (.snapshot snap) => some ((book.getD (.create fresh)).applySnapshot snap).1
  | .message (.batch batch) => book.map fun b => if b.isReady then (b.applyBatch batch).1 else b
  | .lost => book.map .markDesynced

/-- The book after a list of events, from none. -/
def symbolBook (fresh : π) (events : List (SymbolEvent Snap Batch)) : Option (AdapterBook π) :=
  events.foldl (bookStep fresh) none

/-- A snapshot and the batches after it, as events. -/
def snapshotAndBatches (snap : Snap) (bs : List Batch) : List (SymbolEvent Snap Batch) :=
  .message (.snapshot snap) :: bs.map fun batch => .message (.batch batch)

theorem snapshotAndBatches_snoc (snap : Snap) (bs : List Batch) (batch : Batch) :
    snapshotAndBatches snap (bs ++ [batch]) = snapshotAndBatches snap bs ++ [.message (.batch batch)] := by
  simp [snapshotAndBatches]

theorem symbolBook_snoc (fresh : π) (events : List (SymbolEvent Snap Batch)) (event : SymbolEvent Snap Batch) :
    symbolBook fresh (events ++ [event]) = bookStep fresh (symbolBook fresh events) event := by
  simp [symbolBook, List.foldl_append]

theorem AdapterBook.isReady_iff {b : AdapterBook π} :
    b.isReady = true ↔ b.desynced = false ∧ b.book.readiness = .ready := by
  unfold AdapterBook.isReady AdapterBook.getReadiness
  cases b.desynced <;> simp

variable {settings : π → σ} {fresh : π}

/-- A Ready book is clean and not flagged. -/
theorem AdapterBook.eq_of_ready {b : AdapterBook π} (h : b.isReady = true) : b = ⟨⟨b.policy, .ready⟩, false⟩ := by
  obtain ⟨⟨policy, readiness⟩, desynced⟩ := b
  obtain ⟨hflag, hready⟩ := AdapterBook.isReady_iff.1 h
  simp only at hflag hready
  rw [hflag, hready]
  rfl

theorem AdapterBook.isReady_ready (p : π) : (⟨⟨p, .ready⟩, false⟩ : AdapterBook π).isReady = true :=
  AdapterBook.isReady_iff.2 ⟨rfl, rfl⟩

theorem AdapterBook.applySnapshot_eq (b : AdapterBook π) (snap : Snap) :
    (b.applySnapshot snap).1 = ⟨⟨(GranularityPolicy.applySnapshot b.policy snap).1,
      OrderBook.applyReadinessTransition .ready (GranularityPolicy.applySnapshot b.policy snap).2⟩, false⟩ := rfl

theorem AdapterBook.applyBatch_eq (p : π) (batch : Batch) :
    ((⟨⟨p, .ready⟩, false⟩ : AdapterBook π).applyBatch batch).1 =
      ⟨⟨(GranularityPolicy.applyBatch p batch).1,
        OrderBook.applyReadinessTransition .ready (GranularityPolicy.applyBatch p batch).2⟩, false⟩ := by
  rw [AdapterBook.applyBatch, OrderBook.applyBatch_of_ready rfl]

/-- No operation changes a book's settings. -/
theorem symbolBook_settings (hr : SnapshotReplaces settings)
    (events : List (SymbolEvent Snap Batch)) {b : AdapterBook π} (hb : symbolBook fresh events = some b) :
    settings b.policy = settings fresh := by
  induction events using List.reverseRecOn generalizing b with
  | nil => cases hb
  | append_singleton events event ih =>
    rw [symbolBook_snoc] at hb
    cases hprev : symbolBook fresh events with
    | none =>
      rw [hprev] at hb
      match event, hb with
      | .message (.snapshot snap), hb =>
        cases hb
        exact hr.snapshot_settings fresh snap
    | some b0 =>
      rw [hprev] at hb
      have hb0 := ih hprev
      match event, hb with
      | .message (.snapshot snap), hb =>
        cases hb
        exact (hr.snapshot_settings _ snap).trans hb0
      | .message (.batch batch), hb =>
        simp only [bookStep, Option.map_some, Option.some.injEq] at hb
        subst hb
        split_ifs with hready
        · rw [AdapterBook.eq_of_ready hready, AdapterBook.applyBatch_eq]
          exact (hr.batch_settings _ batch).trans hb0
        · exact hb0
      | .lost, hb =>
        cases hb
        exact hb0

/-- The events of a Ready book end with a snapshot and clean batches, with nothing
lost since, and these alone determine its policy. -/
theorem ready_events (hr : SnapshotReplaces settings) (events : List (SymbolEvent Snap Batch)) {b : AdapterBook π}
    (hb : symbolBook fresh events = some b) (hready : b.isReady = true) :
    ∃ before snap bs, events = before ++ snapshotAndBatches snap bs ∧ CleanReplay fresh snap bs ∧
      b.policy = replay fresh snap bs := by
  induction events using List.reverseRecOn generalizing b with
  | nil => cases hb
  | append_singleton events event ih =>
    rw [symbolBook_snoc] at hb
    match event, hb with
    | .message (.snapshot snap), hb =>
      cases hb
      have hpolicy : applySnapshot ((symbolBook fresh events).getD (.create fresh)).policy snap =
          applySnapshot fresh snap := by
        refine hr.snapshot_eq _ _ snap ?_
        cases hprev : symbolBook fresh events with
        | none => rfl
        | some b0 => exact symbolBook_settings hr events hprev
      rw [AdapterBook.applySnapshot_eq, hpolicy] at hready ⊢
      obtain ⟨hclean, -⟩ := OrderBook.applyReadinessTransition_ready (AdapterBook.isReady_iff.1 hready).2
      exact ⟨events, snap, [], rfl, ⟨hclean, trivial⟩, rfl⟩
    | .message (.batch batch), hb =>
      simp only [bookStep, Option.map_eq_some_iff] at hb
      obtain ⟨b0, hprev, rfl⟩ := hb
      split_ifs at hready ⊢ with hr0
      · obtain ⟨before, snap, bs, hevents, hclean, hpolicy⟩ := ih hprev hr0
        rw [AdapterBook.eq_of_ready hr0, AdapterBook.applyBatch_eq, hpolicy] at hready
        obtain ⟨hissue, -⟩ := OrderBook.applyReadinessTransition_ready (AdapterBook.isReady_iff.1 hready).2
        refine ⟨before, snap, bs ++ [batch], ?_, (cleanReplay_snoc _ _ _ _).2 ⟨hclean, hissue⟩, ?_⟩
        · rw [hevents, snapshotAndBatches_snoc, List.append_assoc]
        · rw [AdapterBook.eq_of_ready hr0, AdapterBook.applyBatch_eq, hpolicy, replay_snoc]
          rfl
      · exact absurd hready hr0
    | .lost, hb =>
      simp only [bookStep, Option.map_eq_some_iff] at hb
      obtain ⟨b0, -, rfl⟩ := hb
      obtain ⟨hflag, -⟩ := AdapterBook.isReady_iff.1 hready
      cases hflag

/-- Conversely, a snapshot and clean batches make a Ready book, whatever came before. -/
theorem symbolBook_clean (hr : SnapshotReplaces settings) (before : List (SymbolEvent Snap Batch)) {snap : Snap}
    {bs : List Batch} (hclean : CleanReplay fresh snap bs) :
    symbolBook fresh (before ++ snapshotAndBatches snap bs) = some ⟨⟨replay fresh snap bs, .ready⟩, false⟩ := by
  induction bs using List.reverseRecOn with
  | nil =>
    have hpolicy : applySnapshot ((symbolBook fresh before).getD (.create fresh)).policy snap =
        applySnapshot fresh snap := by
      refine hr.snapshot_eq _ _ snap ?_
      cases hprev : symbolBook fresh before with
      | none => rfl
      | some b0 => exact symbolBook_settings hr before hprev
    have hlist : snapshotAndBatches snap ([] : List Batch) = [.message (.snapshot snap)] := rfl
    rw [hlist, symbolBook_snoc, bookStep, AdapterBook.applySnapshot_eq, hpolicy,
      OrderBook.applyReadinessTransition_clean hclean.1]
    rfl
  | append_singleton bs batch ih =>
    obtain ⟨hbs, hissue⟩ := (cleanReplay_snoc _ _ _ _).1 hclean
    rw [snapshotAndBatches_snoc, ← List.append_assoc, symbolBook_snoc, ih hbs, bookStep, Option.map_some,
      if_pos (AdapterBook.isReady_ready _), AdapterBook.applyBatch_eq,
      OrderBook.applyReadinessTransition_clean hissue, replay_snoc]

/-- The messages of a list that are for the symbol. -/
def messagesFor (s : Bytes) (messages : List (BookMessage Snap Batch)) : List (SymbolEvent Snap Batch) :=
  (messages.filter (·.symbol = s)).map fun m => .message m.content

/-- A message reaches the book of its symbol and no other. -/
theorem applyMessage_book (fresh : π) (state : ConnectionStats × BookMap π) (message : BookMessage Snap Batch)
    (s : Bytes) :
    (applyMessage fresh state message).2 s =
      if message.symbol = s then bookStep fresh (state.2 s) (.message message.content) else state.2 s := by
  obtain ⟨symbol, content⟩ := message
  cases content with
  | snapshot snap =>
    simp only [applyMessage, applySnapshotMessage, BookMap.set, bookStep]
    by_cases h : symbol = s
    · simp [h]
    · simp [h, Ne.symm h]
  | batch batch =>
    simp only [applyMessage, applyUpdateMessage, bookStep]
    cases hb : state.2 symbol with
    | none =>
      by_cases h : symbol = s
      · subst h
        simp [hb]
      · simp [h]
    | some b =>
      by_cases h : symbol = s
      · subst h
        simp only [hb, Option.map_some, if_true]
        split_ifs with hready <;> simp [BookMap.set, hb]
      · simp only [h, if_false]
        split_ifs with hready <;> simp [BookMap.set, Ne.symm h]

theorem foldl_applyMessage_book (fresh : π) (state : ConnectionStats × BookMap π)
    (messages : List (BookMessage Snap Batch)) (s : Bytes) :
    (messages.foldl (applyMessage fresh) state).2 s = (messagesFor s messages).foldl (bookStep fresh) (state.2 s) := by
  induction messages generalizing state with
  | nil => rfl
  | cons message messages ih =>
    rw [List.foldl_cons, ih, applyMessage_book]
    by_cases h : message.symbol = s <;> simp [messagesFor, h]

end Book

end CryptoTrader
