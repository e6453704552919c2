import CryptoTrader.Sanity.AdapterRun
import CryptoTrader.Sanity.SymbolBook

/-! The adapter's counters against what happened. Along a run each frame has one fate and
each message that reaches a book is an application, with or without an integrity issue;
the counters are in balance with these after every call, whatever arrives. -/

namespace CryptoTrader

/-- What a frame was counted as. -/
inductive FrameFate where
  | stale
  | unsupported
  | unparsable
  | parsed
  deriving DecidableEq, Repr

/-- A snapshot or a batch that a book took: what the book was found as, the issue of the
change set, and what the book was left as. -/
structure Application where
  isBatch : Bool
  found : Option Readiness
  issue : Option IntegrityIssue
  left : Option Readiness
  deriving DecidableEq, Repr

/-- A batch went to a Ready book, and an issue left the book Desynced. -/
structure Application.Proper (one : Application) : Prop where
  found : one.isBatch = true → one.found = some .ready
  left : one.issue.isSome = true → one.left = some .desynced

namespace ConnectionStats

def totalIssues (stats : ConnectionStats) : ℕ :=
  stats.gaps + stats.checksumMismatches + stats.crossedBooks + stats.unknownOrders + stats.unknownLevels

/-- The updates that no book took. -/
def updatesLost (stats : ConnectionStats) : ℕ := stats.updatesBeforeSnapshot + stats.updatesWhileDesynced

/-- The counter of a message's kind. -/
def countMessage (stats : ConnectionStats) (isBatch : Bool) : ConnectionStats :=
  if isBatch then { stats with updates := stats.updates + 1 } else { stats with snapshots := stats.snapshots + 1 }

/-- Every counter of the second is at least that of the first. -/
structure Grows (stats stats' : ConnectionStats) : Prop where
  frames : stats.frames ≤ stats'.frames
  snapshots : stats.snapshots ≤ stats'.snapshots
  updates : stats.updates ≤ stats'.updates
  updatesBeforeSnapshot : stats.updatesBeforeSnapshot ≤ stats'.updatesBeforeSnapshot
  updatesWhileDesynced : stats.updatesWhileDesynced ≤ stats'.updatesWhileDesynced
  framesIgnoredStale : stats.framesIgnoredStale ≤ stats'.framesIgnoredStale
  framesUnsupported : stats.framesUnsupported ≤ stats'.framesUnsupported
  parseErrors : stats.parseErrors ≤ stats'.parseErrors
  applyErrors : stats.applyErrors ≤ stats'.applyErrors
  drops : stats.drops ≤ stats'.drops
  connects : stats.connects ≤ stats'.connects
  disconnects : stats.disconnects ≤ stats'.disconnects
  gaps : stats.gaps ≤ stats'.gaps
  checksumMismatches : stats.checksumMismatches ≤ stats'.checksumMismatches
  crossedBooks : stats.crossedBooks ≤ stats'.crossedBooks
  unknownOrders : stats.unknownOrders ≤ stats'.unknownOrders
  unknownLevels : stats.unknownLevels ≤ stats'.unknownLevels

/-- The counters moved as the frames and applications in between say. -/
structure Balanced (stats stats' : ConnectionStats) (fates : List FrameFate) (applied : List Application) : Prop where
  frames : stats'.frames = stats.frames + fates.length
  stale : stats'.framesIgnoredStale = stats.framesIgnoredStale + fates.count .stale
  unsupported : stats'.framesUnsupported = stats.framesUnsupported + fates.count .unsupported
  unparsable : stats'.parseErrors = stats.parseErrors + fates.count .unparsable
  updates : stats'.updates + stats.updatesLost = stats.updates + stats'.updatesLost + applied.countP (·.isBatch)
  issues : stats'.totalIssues = stats.totalIssues + applied.countP (·.issue.isSome)
  grows : Grows stats stats'

theorem Grows.refl (stats : ConnectionStats) : Grows stats stats := by
  constructor <;> exact Nat.le_refl _

theorem Grows.trans {a b c : ConnectionStats} (h : Grows a b) (h' : Grows b c) : Grows a c where
  frames := h.frames.trans h'.frames
  snapshots := h.snapshots.trans h'.snapshots
  updates := h.updates.trans h'.updates
  updatesBeforeSnapshot := h.updatesBeforeSnapshot.trans h'.updatesBeforeSnapshot
  updatesWhileDesynced := h.updatesWhileDesynced.trans h'.updatesWhileDesynced
  framesIgnoredStale := h.framesIgnoredStale.trans h'.framesIgnoredStale
  framesUnsupported := h.framesUnsupported.trans h'.framesUnsupported
  parseErrors := h.parseErrors.trans h'.parseErrors
  applyErrors := h.applyErrors.trans h'.applyErrors
  drops := h.drops.trans h'.drops
  connects := h.connects.trans h'.connects
  disconnects := h.disconnects.trans h'.disconnects
  gaps := h.gaps.trans h'.gaps
  checksumMismatches := h.checksumMismatches.trans h'.checksumMismatches
  crossedBooks := h.crossedBooks.trans h'.crossedBooks
  unknownOrders := h.unknownOrders.trans h'.unknownOrders
  unknownLevels := h.unknownLevels.trans h'.unknownLevels

theorem Balanced.refl (stats : ConnectionStats) : Balanced stats stats [] [] :=
  ⟨rfl, rfl, rfl, rfl, rfl, rfl, Grows.refl stats⟩

theorem Balanced.trans {a b c : ConnectionStats} {fates fates' : List FrameFate} {applied applied' : List Application}
    (h : Balanced a b fates applied) (h' : Balanced b c fates' applied') :
    Balanced a c (fates ++ fates') (applied ++ applied') := by
  have hupdates := h.updates
  have hupdates' := h'.updates
  refine ⟨?_, ?_, ?_, ?_, ?_, ?_, h.grows.trans h'.grows⟩
  · rw [h'.frames, h.frames, List.length_append, Nat.add_assoc]
  · rw [h'.stale, h.stale, List.count_append, Nat.add_assoc]
  · rw [h'.unsupported, h.unsupported, List.count_append, Nat.add_assoc]
  · rw [h'.unparsable, h.unparsable, List.count_append, Nat.add_assoc]
  · rw [List.countP_append]
    omega
  · rw [h'.issues, h.issues, List.countP_append, Nat.add_assoc]

/-- The listener counts one issue. -/
theorem totalIssues_countIssue (stats : ConnectionStats) (issue : IntegrityIssue) :
    (stats.countIssue issue).totalIssues = stats.totalIssues + 1 := by
  cases issue <;> simp only [countIssue, totalIssues] <;> omega

theorem grows_countIssue (stats : ConnectionStats) (issue : IntegrityIssue) : Grows stats (stats.countIssue issue) := by
  cases issue <;> constructor <;> simp [countIssue]

/-- An issue in the balance of the application that had it. -/
theorem Balanced.countIssue {stats stats' : ConnectionStats} {one : Application} (h : Balanced stats stats' [] [one])
    (hnone : one.issue = none) (issue : IntegrityIssue) :
    Balanced stats (stats'.countIssue issue) [] [{ one with issue := some issue }] := by
  have hissues : stats'.totalIssues = stats.totalIssues := by
    rw [h.issues, List.countP_singleton, hnone]
    rfl
  have hcounted : (stats'.countIssue issue).totalIssues = stats.totalIssues + 1 := by
    rw [totalIssues_countIssue, hissues]
  have hgrows := h.grows.trans (grows_countIssue stats' issue)
  cases issue <;> exact ⟨h.frames, h.stale, h.unsupported, h.unparsable, h.updates, hcounted, hgrows⟩

theorem listen_append (stats : ConnectionStats) (calls calls' : List ListenerCall) :
    stats.listen (calls ++ calls') = (stats.listen calls).listen calls' := List.foldl_append

theorem listen_ignored (stats : ConnectionStats) {calls : List ListenerCall}
    (h : ∀ issue, ListenerCall.onIntegrityCheckFailed issue ∉ calls) : stats.listen calls = stats := by
  induction calls with
  | nil => rfl
  | cons call calls ih =>
    have hrest := ih fun issue hmem => h issue (List.mem_cons_of_mem _ hmem)
    cases call with
    | onIntegrityCheckFailed issue => exact absurd List.mem_cons_self (h issue)
    | _ => exact hrest

/-- Of the calls for a change set the listener counts its issue, if it has one. -/
theorem listen_notify {π Snap Batch : Type} [GranularityPolicy π Snap Batch] (stats : ConnectionStats) (policy : π)
    (changeSet : ChangeSet) :
    stats.listen (OrderBook.notify policy changeSet) = (changeSet.integrityIssue.map stats.countIssue).getD stats := by
  cases hissue : changeSet.integrityIssue with
  | none => exact listen_ignored stats (OrderBook.notify_clean policy hissue)
  | some issue =>
    have hclean : ∀ other, ListenerCall.onIntegrityCheckFailed other ∉
        OrderBook.notify policy { changeSet with integrityIssue := none } := OrderBook.notify_clean policy rfl
    have hsplit : OrderBook.notify policy changeSet =
        OrderBook.notify policy { changeSet with integrityIssue := none } ++ [.onIntegrityCheckFailed issue] := by
      simp [OrderBook.notify, hissue]
    rw [hsplit, listen_append, listen_ignored stats hclean]
    rfl

end ConnectionStats

open ConnectionStats GranularityPolicy

section Messages

variable {π Snap Batch : Type} [GranularityPolicy π Snap Batch] (fresh : π)

/-- The change set of a message, if a book takes it: a snapshot always, a batch if the book
is Ready. -/
def taken (books : BookMap π) (message : BookMessage Snap Batch) : Option ChangeSet :=
  match message.content with
  | .snapshot snap => some (applySnapshot ((books message.symbol).getD (.create fresh)).policy snap).2
  | .batch batch =>
    (books message.symbol).bind fun book => if book.isReady then some (applyBatch book.policy batch).2 else none

def BookMessage.isBatch (message : BookMessage Snap Batch) : Bool :=
  match message.content with
  | .snapshot _ => false
  | .batch _ => true

/-- The applications of some messages in turn. -/
def applications : ConnectionStats × BookMap π → List (BookMessage Snap Batch) → List Application
  | _, [] => []
  | state, message :: messages =>
    let next := applyMessage fresh state message
    ((taken fresh state.2 message).map fun changeSet =>
      (⟨message.isBatch, (state.2 message.symbol).map (·.getReadiness), changeSet.integrityIssue,
        (next.2 message.symbol).map (·.getReadiness)⟩ : Application)).toList ++ applications next messages

/-- A message that a book takes is counted by its kind and announced, and the book is left as
its change set says. -/
theorem applyMessage_of_taken (stats : ConnectionStats) {books : BookMap π} {message : BookMessage Snap Batch}
    {changeSet : ChangeSet} (h : taken fresh books message = some changeSet) :
    ∃ policy : π, applyMessage fresh (stats, books) message =
      ((stats.countMessage message.isBatch).listen (OrderBook.notify policy changeSet),
        books.set message.symbol ⟨⟨policy, OrderBook.applyReadinessTransition .ready changeSet⟩, false⟩) := by
  obtain ⟨symbol, content⟩ := message
  cases content with
  | snapshot snap =>
    cases h
    exact ⟨_, rfl⟩
  | batch batch =>
    obtain ⟨book, hbook, hset⟩ := Option.bind_eq_some_iff.1 h
    split_ifs at hset with hready
    cases hset
    have hbook : books symbol = some book := hbook
    have heq := AdapterBook.eq_of_ready hready
    refine ⟨(applyBatch book.policy batch).1, ?_⟩
    simp only [applyMessage, applyUpdateMessage, hbook, hready, if_true]
    rw [heq, AdapterBook.applyBatch, OrderBook.applyBatch_of_ready rfl]
    rfl

theorem ready_of_taken {books : BookMap π} {message : BookMessage Snap Batch} {changeSet : ChangeSet}
    (h : taken fresh books message = some changeSet) (hbatch : message.isBatch = true) :
    (books message.symbol).map (·.getReadiness) = some .ready := by
  obtain ⟨symbol, content⟩ := message
  cases content with
  | snapshot snap => cases hbatch
  | batch batch =>
    obtain ⟨book, hbook, hset⟩ := Option.bind_eq_some_iff.1 h
    split_ifs at hset with hready
    have hbook : books symbol = some book := hbook
    rw [hbook, Option.map_some, of_decide_eq_true hready]

/-- A message that no book takes is an update, counted as lost. -/
theorem applyMessage_of_not_taken (stats : ConnectionStats) {books : BookMap π} {message : BookMessage Snap Batch}
    (h : taken fresh books message = none) :
    ∃ stats', applyMessage fresh (stats, books) message = (stats', books) ∧ Balanced stats stats' [] [] := by
  obtain ⟨symbol, content⟩ := message
  cases content with
  | snapshot snap => cases h
  | batch batch =>
    cases hbook : books symbol with
    | none =>
      refine ⟨{ stats with
        updates := stats.updates + 1, updatesBeforeSnapshot := stats.updatesBeforeSnapshot + 1 }, ?_, rfl, rfl, rfl,
        rfl, ?_, rfl, by constructor <;> simp⟩
      · simp only [applyMessage, applyUpdateMessage, hbook]
      · simp only [updatesLost, List.countP_nil]
        omega
    | some book =>
      have hready : ¬ book.isReady = true := by
        intro hready
        have htaken : taken fresh books ⟨symbol, .batch batch⟩ = some (applyBatch book.policy batch).2 := by
          simp only [taken, hbook, Option.bind_some, hready, if_true]
        rw [htaken] at h
        cases h
      refine ⟨{ stats with
        updates := stats.updates + 1, updatesWhileDesynced := stats.updatesWhileDesynced + 1 }, ?_, rfl, rfl, rfl,
        rfl, ?_, rfl, by constructor <;> simp⟩
      · simp only [applyMessage, applyUpdateMessage, hbook, if_neg hready]
      · simp only [updatesLost, List.countP_nil]
        omega

/-- One message that is taken, in the balance. -/
theorem balanced_listen (stats : ConnectionStats) (policy : π) (changeSet : ChangeSet) (isBatch : Bool)
    (found left : Option Readiness) :
    Balanced stats ((stats.countMessage isBatch).listen (OrderBook.notify policy changeSet)) []
      [⟨isBatch, found, changeSet.integrityIssue, left⟩] := by
  have hcounted : Balanced stats (stats.countMessage isBatch) [] [⟨isBatch, found, none, left⟩] := by
    cases isBatch with
    | false => exact ⟨rfl, rfl, rfl, rfl, rfl, rfl, by constructor <;> simp [countMessage]⟩
    | true =>
      refine ⟨rfl, rfl, rfl, rfl, ?_, rfl, by constructor <;> simp [countMessage]⟩
      change stats.updates + 1 + stats.updatesLost = stats.updates + stats.updatesLost + 1
      omega
  rw [listen_notify]
  cases changeSet.integrityIssue with
  | none => exact hcounted
  | some issue => exact hcounted.countIssue rfl issue

/-- What some messages do to the counters, and what their applications are. -/
theorem balanced_foldl_applyMessage (messages : List (BookMessage Snap Batch)) (state : ConnectionStats × BookMap π) :
    Balanced state.1 (messages.foldl (applyMessage fresh) state).1 [] (applications fresh state messages) ∧
      ∀ one ∈ applications fresh state messages, one.Proper := by
  induction messages generalizing state with
  | nil => exact ⟨Balanced.refl _, by simp [applications]⟩
  | cons message messages ih =>
    obtain ⟨stats, books⟩ := state
    obtain ⟨hbalanced, hproper⟩ := ih (applyMessage fresh (stats, books) message)
    rw [List.foldl_cons, applications]
    cases htaken : taken fresh books message with
    | none =>
      obtain ⟨stats', happly, hstep⟩ := applyMessage_of_not_taken fresh stats htaken
      rw [happly] at hbalanced hproper ⊢
      exact ⟨hstep.trans hbalanced, hproper⟩
    | some changeSet =>
      obtain ⟨policy, happly⟩ := applyMessage_of_taken fresh stats htaken
      rw [happly] at hbalanced hproper ⊢
      refine ⟨(balanced_listen stats policy changeSet message.isBatch _ _).trans hbalanced, ?_⟩
      intro one hone
      rcases List.mem_cons.1 hone with rfl | hone
      · refine ⟨ready_of_taken fresh htaken, fun hissue => ?_⟩
        simp only [BookMap.set, if_true, Option.map_some]
        change some (OrderBook.applyReadinessTransition .ready changeSet) = _
        rw [OrderBook.applyReadinessTransition, if_pos hissue]
      · exact hproper one hone

end Messages

namespace Connection

variable {N D : Type} (P : Platform N D) (conn : Connection)

/-- What becomes of a frame. -/
def fate (payload : Bytes) : FrameFate :=
  if conn.stale then .stale
  else
    match conn.settings.source with
    | .krakenJson => if (parseKrakenFrame P conn.settings.scale payload).isSome then .parsed else .unparsable
    | .deribitFix =>
      if (parseDeribitFixMessage P conn.settings.scale payload).toOption.isSome then .parsed else .unparsable
    | .unknown => .unsupported

/-- The applications of a frame on a connection that is not stale. -/
def frameApplications (payload : Bytes) : List Application :=
  match conn.settings.source with
  | .krakenJson =>
    ((parseKrakenFrame P conn.settings.scale payload).map fun messages =>
      applications (KrakenL3Policy.init (some conn.settings.krakenDepth)) (conn.stats, conn.books)
        (messages.map (·.bookMessage))).getD []
  | .deribitFix =>
    ((parseDeribitFixMessage P conn.settings.scale payload).toOption.map fun message =>
      applications UnsequencedL2Policy.init (conn.stats, conn.deribitBooks) message.bookMessages).getD []
  | .unknown => []

/-- The frames and applications of one call. -/
def callFates : AdapterCall → List FrameFate
  | .onFrame payload => [conn.fate P payload]
  | _ => []

def callApplications : AdapterCall → List Application
  | .onFrame payload =>
    if conn.stale then []
    else (conn.tally fun stats => { stats with frames := stats.frames + 1 }).frameApplications P payload
  | _ => []

/-- The frames of a run. -/
def fates : Connection → List AdapterCall → List FrameFate
  | _, [] => []
  | conn, c :: calls => conn.callFates P c ++ fates (conn.call P c) calls

/-- The applications of a run. -/
def applied : Connection → List AdapterCall → List Application
  | _, [] => []
  | conn, c :: calls => conn.callApplications P c ++ applied (conn.call P c) calls

/-- The messages of a frame that parsed, after the frame was counted. -/
theorem balanced_messages {π Snap Batch : Type} [GranularityPolicy π Snap Batch] (stats : ConnectionStats) (fresh : π)
    (books : BookMap π) (messages : List (BookMessage Snap Batch)) :
    Balanced stats (messages.foldl (applyMessage fresh) ({ stats with frames := stats.frames + 1 }, books)).1 [.parsed]
      (applications fresh ({ stats with frames := stats.frames + 1 }, books) messages) := by
  have hframe : Balanced stats { stats with frames := stats.frames + 1 } [.parsed] [] :=
    ⟨rfl, rfl, rfl, rfl, rfl, rfl, by constructor <;> simp⟩
  exact hframe.trans (balanced_foldl_applyMessage fresh messages ({ stats with frames := stats.frames + 1 }, books)).1

/-- A frame that does not parse. -/
theorem balanced_unparsable (stats : ConnectionStats) :
    Balanced stats { stats with frames := stats.frames + 1, parseErrors := stats.parseErrors + 1 } [.unparsable] [] :=
  ⟨rfl, rfl, rfl, rfl, rfl, rfl, by constructor <;> simp⟩

theorem onDeribitParseError_stats (error : DeribitFixParseError) :
    (conn.onDeribitParseError error).stats = { conn.stats with parseErrors := conn.stats.parseErrors + 1 } := by
  simp only [onDeribitParseError]
  split_ifs <;> rfl

theorem balanced_onFrame (payload : Bytes) :
    Balanced conn.stats (conn.onFrame P payload).stats [conn.fate P payload]
      (conn.callApplications P (.onFrame payload)) := by
  simp only [callApplications, fate]
  cases hstale : conn.stale with
  | true =>
    rw [onFrame_stale P conn payload hstale]
    exact ⟨rfl, rfl, rfl, rfl, rfl, rfl, by constructor <;> simp⟩
  | false =>
    rw [onFrame_live P conn payload hstale, dispatchFrame]
    simp only [Bool.false_eq_true, if_false, frameApplications, tally_settings]
    cases conn.settings.source with
    | unknown => exact ⟨rfl, rfl, rfl, rfl, rfl, rfl, by constructor <;> simp⟩
    | krakenJson =>
      simp only [onKrakenFrame, tally_settings]
      cases parseKrakenFrame P conn.settings.scale payload with
      | none => exact balanced_unparsable conn.stats
      | some messages => exact balanced_messages conn.stats _ _ _
    | deribitFix =>
      simp only [onDeribitFixFrame, tally_settings]
      cases parseDeribitFixMessage P conn.settings.scale payload with
      | error error =>
        simp only [onDeribitParseError_stats]
        exact balanced_unparsable conn.stats
      | ok message => exact balanced_messages conn.stats _ _ _

/-- The step: every call keeps the balance. -/
theorem balanced_call (c : AdapterCall) :
    Balanced conn.stats (conn.call P c).stats (conn.callFates P c) (conn.callApplications P c) := by
  cases c with
  | onConnect connectId => exact ⟨rfl, rfl, rfl, rfl, rfl, rfl, by constructor <;> simp [call, onConnect, tally]⟩
  | onDisconnect connectId => exact ⟨rfl, rfl, rfl, rfl, rfl, rfl, by constructor <;> simp [call, onDisconnect, tally]⟩
  | onFrame payload => exact conn.balanced_onFrame P payload
  | onFramesDropped count =>
    simp only [call, onFramesDropped, callFates, callApplications]
    split_ifs with hcount
    · exact Balanced.refl _
    · exact ⟨rfl, rfl, rfl, rfl, rfl, rfl, by constructor <;> simp [tally, markAllDesynced]⟩

/-- And every application is proper. -/
theorem proper_call (c : AdapterCall) : ∀ one ∈ conn.callApplications P c, one.Proper := by
  cases c with
  | onFrame payload =>
    intro one hone
    simp only [callApplications, frameApplications, tally_settings] at hone
    split_ifs at hone with hstale
    · cases hone
    cases hsource : conn.settings.source with
    | unknown =>
      rw [hsource] at hone
      cases hone
    | krakenJson =>
      simp only [hsource] at hone
      cases hparse : parseKrakenFrame P conn.settings.scale payload with
      | none =>
        rw [hparse] at hone
        cases hone
      | some messages =>
        rw [hparse] at hone
        exact (balanced_foldl_applyMessage _ _ _).2 one hone
    | deribitFix =>
      simp only [hsource] at hone
      cases hparse : parseDeribitFixMessage P conn.settings.scale payload with
      | error error =>
        rw [hparse] at hone
        cases hone
      | ok message =>
        rw [hparse] at hone
        exact (balanced_foldl_applyMessage _ _ _).2 one hone
  | _ => simp [callApplications]

/-- The run: the balance of the whole is that of its calls together. -/
theorem balanced_run (calls : List AdapterCall) (conn : Connection) :
    Balanced conn.stats (conn.run P calls).stats (conn.fates P calls) (conn.applied P calls) := by
  induction calls generalizing conn with
  | nil => exact Balanced.refl _
  | cons c calls ih => exact (conn.balanced_call P c).trans (ih (conn.call P c))

theorem proper_run (calls : List AdapterCall) (conn : Connection) : ∀ one ∈ conn.applied P calls, one.Proper := by
  induction calls generalizing conn with
  | nil => simp [applied]
  | cons c calls ih =>
    intro one hone
    rcases List.mem_append.1 hone with hone | hone
    · exact conn.proper_call P c one hone
    · exact ih (conn.call P c) one hone

end Connection

theorem length_eq_counts (fates : List FrameFate) :
    fates.length = fates.count .stale + fates.count .unsupported + fates.count .unparsable + fates.count .parsed := by
  induction fates with
  | nil => rfl
  | cons fate fates ih =>
    cases fate <;> simp only [List.length_cons, List.count_cons] <;> simp <;> omega

/-- The counters of a connection tell what happened to it. In every state that calls reach,
with whatever payloads: the frames are those counted as stale, unsupported or unparsable and
those that parsed; the lost updates are at most the updates, and the rest are the batches
that a Ready book took; the issues are the applications whose change set had one, each of
which left its book Desynced; and no counter is lower than it was after fewer calls. -/
theorem accounting_exact {N D : Type} (P : Platform N D) (settings : BookSettings) (calls : List AdapterCall) :
    let stats := ((Connection.add settings).run P calls).stats
    let fates := (Connection.add settings).fates P calls
    let applied := (Connection.add settings).applied P calls
    (stats.frames = stats.framesIgnoredStale + stats.framesUnsupported + stats.parseErrors + fates.count .parsed ∧
      stats.framesIgnoredStale = fates.count .stale ∧ stats.framesUnsupported = fates.count .unsupported ∧
      stats.parseErrors = fates.count .unparsable) ∧
    (stats.updatesBeforeSnapshot + stats.updatesWhileDesynced ≤ stats.updates ∧
      stats.updates - (stats.updatesBeforeSnapshot + stats.updatesWhileDesynced) = applied.countP (·.isBatch)) ∧
    stats.totalIssues = applied.countP (·.issue.isSome) ∧
    (∀ one ∈ applied, (one.isBatch = true → one.found = some .ready) ∧
      (one.issue.isSome = true → one.left = some .desynced)) ∧
    ∀ earlier, earlier <+: calls → Grows ((Connection.add settings).run P earlier).stats stats := by
  intro stats fates applied
  obtain ⟨hframes, hstale, hunsupported, hunparsable, hupdates, hissues, hgrows⟩ :
      Balanced {} stats fates applied := Connection.balanced_run P calls (Connection.add settings)
  rw [Nat.zero_add] at hframes hstale hunsupported hunparsable
  have hupdates : stats.updates = stats.updatesLost + applied.countP (·.isBatch) := by
    simpa [updatesLost] using hupdates
  rw [updatesLost] at hupdates
  refine ⟨⟨?_, hstale, hunsupported, hunparsable⟩, ⟨by omega, by omega⟩, ?_, ?_, ?_⟩
  · rw [hframes, length_eq_counts, hstale, hunsupported, hunparsable]
  · rw [hissues]
    exact Nat.zero_add _
  · intro one hone
    have hproper := Connection.proper_run P calls _ one hone
    exact ⟨hproper.found, hproper.left⟩
  · rintro earlier ⟨later, rfl⟩
    have hrun : stats = (((Connection.add settings).run P earlier).run P later).stats := by
      simp only [stats, Connection.run, List.foldl_append]
    rw [hrun]
    exact (Connection.balanced_run P later _).grows

end CryptoTrader
