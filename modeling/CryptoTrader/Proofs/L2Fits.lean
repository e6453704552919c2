import CryptoTrader.Spec.L2Asserts
import CryptoTrader.Proofs.ChangeSets
import CryptoTrader.Proofs.SequenceBreak

/-! Which updates of a batch fit the book they are applied to. A Change or a Delete of a
price that is not tracked is reported; a New of one that is tracked is only asserted
against, so it is absorbed in silence or aborts. -/

namespace CryptoTrader

namespace L2Levels

/-- A New is of a price that is not tracked, a Change or a Delete of one that is. -/
def fits (l : L2Levels) (update : L2Update) : Bool :=
  match update.operation with
  | .new => ((l.levels.get update.side).find? update.price).isNone
  | .change | .delete => ((l.levels.get update.side).find? update.price).isSome

/-- Every update of a batch fits the levels at the moment it is applied. -/
def AllFit (l : L2Levels) (updates : List L2Update) : Prop :=
  ∀ earlier update later, updates = earlier ++ update :: later →
    (earlier.foldl applyOne (l, {})).1.fits update = true

/-- The updates that decide whether a price is tracked. -/
def decisive (s : Side) (p : Price) (update : L2Update) : Bool :=
  update.operation ≠ .change ∧ update.side = s ∧ update.price = p

/-- Whether a price is tracked after some updates: its last New or Delete says so, or the
levels before them. -/
def trackedAfter (l : L2Levels) (earlier : List L2Update) (s : Side) (p : Price) : Bool :=
  match (earlier.filter (decisive s p)).getLast? with
  | some update => update.operation = .new
  | none => ((l.levels.get s).find? p).isSome

/-- Every New of a batch is of a price that is not tracked when its turn comes. -/
def NewsFit (l : L2Levels) (updates : List L2Update) : Prop :=
  ∀ earlier update later, updates = earlier ++ update :: later → update.operation = .new →
    l.trackedAfter earlier update.side update.price = false

theorem isSome_applyOne (l : L2Levels) (cs : ChangeSet) (update : L2Update) (s : Side) (p : Price) :
    ((((applyOne (l, cs) update).1.levels.get s).find? p).isSome) =
      if decisive s p update then decide (update.operation = .new) else ((l.levels.get s).find? p).isSome := by
  obtain ⟨side, price, quantity, operation⟩ := update
  by_cases hplace : side = s ∧ price = p
  · obtain ⟨rfl, rfl⟩ := hplace
    rcases hfind : (l.levels.get side).find? price with _ | held <;> cases operation <;>
      simp [applyOne, applyOneTo, decisive, hfind]
  · have hdecisive : decisive s p ⟨side, price, quantity, operation⟩ = false :=
      decide_eq_false fun h => hplace h.2
    rw [hdecisive]
    rcases l.applyOne_cases cs ⟨side, price, quantity, operation⟩ with ⟨-, hstep⟩ | ⟨-, q, hstep⟩
    · rw [hstep]
      rfl
    · rw [hstep, LevelMirror.find?_apply, if_neg fun h => hplace ⟨h.1.symm, h.2.symm⟩]
      rfl

theorem isSome_foldl_applyOne (l : L2Levels) (earlier : List L2Update) (s : Side) (p : Price) :
    (((earlier.foldl applyOne (l, {})).1.levels.get s).find? p).isSome = l.trackedAfter earlier s p := by
  induction earlier using List.reverseRecOn with
  | nil => rfl
  | append_singleton earlier update ih =>
    rw [List.foldl_concat]
    generalize earlier.foldl applyOne (l, {}) = acc at ih
    obtain ⟨mid, cs⟩ := acc
    rw [isSome_applyOne, trackedAfter, List.filter_append]
    by_cases hdecisive : decisive s p update = true
    · rw [if_pos hdecisive, List.filter_cons_of_pos hdecisive, List.filter_nil, List.getLast?_concat]
    · rw [if_neg hdecisive, List.filter_cons_of_neg hdecisive, List.filter_nil, List.append_nil]
      exact ih

/-- The loop with asserts does what the loop without them does, for as long as they hold. -/
theorem run_asserting (acc : L2Levels × ChangeSet) (updates : List L2Update) :
    (Machine.run applyOneAsserting acc updates).isSome = true ↔
      ∀ earlier update later, updates = earlier ++ update :: later →
        (earlier.foldl applyOne acc).1.assertion update = true := by
  induction updates generalizing acc with
  | nil => simp [Machine.run]
  | cons first updates ih =>
    rw [Machine.run, applyOneAsserting]
    by_cases hfirst : acc.1.assertion first = true
    · rw [if_pos hfirst, Option.bind_some, ih]
      constructor
      · rintro h (_ | ⟨a, earlier⟩) update later heq
        · obtain ⟨rfl, -⟩ := List.cons.inj heq
          exact hfirst
        · obtain ⟨rfl, hrest⟩ := List.cons.inj heq
          exact h earlier update later hrest
      · intro h earlier update later heq
        exact h (first :: earlier) update later (congrArg _ heq)
    · rw [if_neg hfirst]
      exact iff_of_false (by simp) fun h => hfirst (h [] first updates rfl)

theorem assertsPass_iff (l : L2Levels) (updates : List L2Update) :
    l.assertsPass updates = true ↔ l.NewsFit updates := by
  rw [assertsPass, run_asserting]
  refine forall_congr' fun earlier => forall_congr' fun update => forall_congr' fun later => forall_congr' fun _ => ?_
  rw [assertion, isSome_foldl_applyOne]
  cases update.operation <;> simp

/-- A batch without an issue has no unknown update. -/
theorem known_of_clean {l : L2Levels} {earlier later : List L2Update} {update : L2Update}
    (hclean : (l.applyUpdates (earlier ++ update :: later)).2.integrityIssue = none) :
    (earlier.foldl applyOne (l, {})).1.unknownIn update = false := by
  by_contra hunknown
  rw [(l.applyUpdates_unknown earlier later update (by simpa using hunknown)).2.2] at hclean
  cases hclean

/-- So only its News can fail to fit. -/
theorem allFit_of_clean {l : L2Levels} {updates : List L2Update} (hnews : l.NewsFit updates)
    (hclean : (l.applyUpdates updates).2.integrityIssue = none) : l.AllFit updates := by
  rintro earlier update later rfl
  have hknown := known_of_clean hclean
  have hnew := hnews earlier update later rfl
  rw [← isSome_foldl_applyOne] at hnew
  rw [unknownIn] at hknown
  rw [fits]
  cases hop : update.operation with
  | new => simpa using hnew hop
  | change => simpa [hop, Option.isSome_iff_ne_none] using hknown
  | delete => simpa [hop, Option.isSome_iff_ne_none] using hknown

end L2Levels

namespace Connection

variable {N D : Type} (P : Platform N D)

/-- Something holds of every batch that the calls apply to a Ready book. -/
def EveryBatch (conn : Connection) (calls : List AdapterCall) (ok : AppliedBatch → Prop) : Prop :=
  ∀ earlier c later, calls = earlier ++ c :: later →
    ∀ batch, (conn.run P earlier).appliedBatch P c = some batch → ok batch

/-- A build with asserts gets through the calls exactly if they all hold. -/
theorem runAsserting_isSome (conn : Connection) (calls : List AdapterCall) :
    (conn.runAsserting P calls).isSome = true ↔
      conn.EveryBatch P calls fun batch => batch.levels.assertsPass batch.updates = true := by
  induction calls generalizing conn with
  | nil => simp [runAsserting, Machine.run, EveryBatch]
  | cons first calls ih =>
    have hsplit : conn.EveryBatch P (first :: calls) (fun batch => batch.levels.assertsPass batch.updates = true) ↔
        (∀ batch, conn.appliedBatch P first = some batch → batch.levels.assertsPass batch.updates = true) ∧
          (conn.call P first).EveryBatch P calls fun batch => batch.levels.assertsPass batch.updates = true := by
      constructor
      · intro h
        refine ⟨h [] first calls rfl, fun earlier c later heq => ?_⟩
        exact h (first :: earlier) c later (congrArg _ heq)
      · rintro ⟨hfirst, hrest⟩ (_ | ⟨a, earlier⟩) c later heq
        · obtain ⟨rfl, -⟩ := List.cons.inj heq
          exact hfirst
        · obtain ⟨rfl, htail⟩ := List.cons.inj heq
          exact hrest earlier c later htail
    rw [hsplit, ← ih, runAsserting, Machine.run, callAsserting]
    cases hbatch : conn.appliedBatch P first with
    | none => simp [runAsserting]
    | some batch =>
      by_cases hpass : batch.levels.assertsPass batch.updates = true
      · simp [hpass, runAsserting]
      · simp [hpass]

/-- Where an applied batch comes from. -/
theorem appliedBatch_inv {conn : Connection} {c : AdapterCall} {batch : AppliedBatch}
    (h : conn.appliedBatch P c = some batch) :
    ∃ payload book, c = .onFrame payload ∧ conn.stale = false ∧ conn.settings.source = .deribitFix ∧
      parseDeribitFixMessage P conn.settings.scale payload = .ok (.update batch.symbol batch.updates) ∧
      conn.deribitBooks batch.symbol = some book ∧ book.isReady = true ∧ book.policy.levels = batch.levels := by
  cases c with
  | onFrame payload =>
    rw [appliedBatch] at h
    split_ifs at h with hdead
    rw [not_or, not_not] at hdead
    rcases hparse : parseDeribitFixMessage P conn.settings.scale payload with error | message
    · rw [hparse] at h
      cases h
    · rw [hparse] at h
      cases message with
      | ignored => cases h
      | snapshot => cases h
      | update symbol updates =>
        rcases hbook : conn.deribitBooks symbol with _ | book
        · simp [hbook] at h
        · simp only [hbook] at h
          split_ifs at h with hready
          obtain rfl := Option.some.inj h
          exact ⟨payload, book, rfl, by simpa using hdead.1, hdead.2, hparse, hbook, hready, rfl⟩
  | onConnect _ => cases h
  | onDisconnect _ => cases h
  | onFramesDropped _ => cases h

theorem isReady_iff {π : Type} (book : AdapterBook π) :
    book.isReady = true ↔ book.desynced = false ∧ book.book.readiness = .ready := by
  rw [AdapterBook.isReady, AdapterBook.getReadiness, decide_eq_true_eq]
  cases book.desynced <;> simp

/-- What the connection does with an applied batch: the book takes its levels, and stays
Ready exactly if no issue is reported for it. -/
theorem call_appliedBatch {conn : Connection} {c : AdapterCall} {batch : AppliedBatch}
    (h : conn.appliedBatch P c = some batch) :
    ∃ book, (conn.call P c).deribitBooks batch.symbol = some book ∧
      book.policy.levels = (batch.levels.applyUpdates batch.updates).1 ∧
      (book.isReady = true ↔ (batch.levels.applyUpdates batch.updates).2.integrityIssue = none) := by
  obtain ⟨payload, book, rfl, hlive, hsource, hparse, hbook, hready, hlevels⟩ := appliedBatch_inv P h
  obtain ⟨hflag, hengine⟩ := (isReady_iff book).1 hready
  have hcall : (conn.call P (.onFrame payload)).deribitBooks =
      conn.deribitBooks.set batch.symbol (book.applyBatch batch.updates).1 := by
    rw [call, onFrame_live P conn payload hlive, dispatchFrame, tally_settings, hsource, onDeribitFixFrame,
      tally_settings, hparse]
    simp [DeribitFixBookMessage.bookMessages, applyMessage, applyUpdateMessage, hbook, hready]
  refine ⟨(book.applyBatch batch.updates).1, ?_, ?_, ?_⟩
  · rw [hcall, BookMap.set, if_pos rfl]
  · rw [← hlevels, AdapterBook.applyBatch, OrderBook.applyBatch_of_ready hengine]
    rfl
  · rw [isReady_iff, AdapterBook.applyBatch, OrderBook.applyBatch_of_ready hengine, ← hlevels]
    change book.desynced = false ∧ OrderBook.applyReadinessTransition .ready
      (book.policy.levels.applyUpdates batch.updates).2 = .ready ↔ _
    rw [OrderBook.applyReadinessTransition]
    cases (book.policy.levels.applyUpdates batch.updates).2.integrityIssue with
    | none => simp [hflag]
    | some issue => simp

end Connection

/-- In a run of a connection every batch without an issue fitted the book, and no assert
failed, exactly if every New was of a price not tracked when its turn came. -/
theorem l2_updates_fit_iff {N D : Type} (P : Platform N D) (settings : BookSettings) (calls : List AdapterCall) :
    ((Connection.add settings).EveryBatch P calls (fun batch =>
        (batch.levels.applyUpdates batch.updates).2.integrityIssue = none → batch.levels.AllFit batch.updates) ∧
      ((Connection.add settings).runAsserting P calls).isSome = true) ↔
    (Connection.add settings).EveryBatch P calls fun batch => batch.levels.NewsFit batch.updates := by
  rw [Connection.runAsserting_isSome]
  constructor
  · rintro ⟨-, hasserts⟩ earlier c later heq batch hbatch
    exact (L2Levels.assertsPass_iff _ _).1 (hasserts earlier c later heq batch hbatch)
  · intro h
    refine ⟨fun earlier c later heq batch hbatch hclean => ?_, fun earlier c later heq batch hbatch => ?_⟩
    · exact L2Levels.allFit_of_clean (h earlier c later heq batch hbatch) hclean
    · exact (L2Levels.assertsPass_iff _ _).2 (h earlier c later heq batch hbatch)

namespace Deribit

open CryptoTrader.Fix

/-- A New at the price of the bid the snapshot gave. -/
def duplicateNew : Bytes :=
  peerMessage MsgType.kMarketDataIncrementalRefresh 3
    [⟨Tag.kSymbol, perpetual⟩, ⟨Tag.kNoMdEntries, ascii "1"⟩, ⟨Tag.kMdUpdateAction, ascii "0"⟩,
     ⟨Tag.kMdEntryType, ascii "0"⟩, ⟨Tag.kMdEntryPx, ascii "100"⟩, ⟨Tag.kMdEntrySize, ascii "7"⟩]

/-- No issue is reported for the New, which did not fit; with asserts on, it aborts. -/
theorem duplicate_new_absorbed :
    (∃ batch, ((Connection.add perpetualSettings).run wholePlatform [.onConnect 1, .onFrame (bookSnapshot 2)]).appliedBatch
        wholePlatform (.onFrame duplicateNew) = some batch ∧
      (batch.levels.applyUpdates batch.updates).2.integrityIssue = none ∧ ¬batch.levels.AllFit batch.updates) ∧
    ((Connection.add perpetualSettings).runAsserting wholePlatform
      [.onConnect 1, .onFrame (bookSnapshot 2), .onFrame duplicateNew]).isNone = true := by
  refine ⟨?_, by decide +kernel⟩
  have hbatch : (((Connection.add perpetualSettings).run wholePlatform
      [.onConnect 1, .onFrame (bookSnapshot 2)]).appliedBatch wholePlatform (.onFrame duplicateNew)).map
        (fun batch => ((batch.levels.applyUpdates batch.updates).2.integrityIssue, batch.updates,
          batch.levels.fits ⟨.bid, 100, 7, .new⟩)) = some (none, [⟨.bid, 100, 7, .new⟩], false) := by decide +kernel
  obtain ⟨batch, hbatch, hfound⟩ := Option.map_eq_some_iff.1 hbatch
  obtain ⟨hissue, hrest⟩ := Prod.mk.inj hfound
  obtain ⟨hupdates, hfits⟩ := Prod.mk.inj hrest
  refine ⟨batch, hbatch, hissue, fun hall => ?_⟩
  have hfirst := hall [] ⟨.bid, 100, 7, .new⟩ [] hupdates
  exact absurd (hfirst.symm.trans hfits) (by decide)

end Deribit

end CryptoTrader
