import CryptoTrader.Spec.Adapter

/-! Runs of an adapter's connection: what every call keeps, what the frame and drop
counters say of the calls made, and that a connection sees only its own calls. -/

namespace CryptoTrader

namespace ConnectionStats

theorem countIssue_kept (stats : ConnectionStats) (issue : IntegrityIssue) :
    (stats.countIssue issue).frames = stats.frames ∧ (stats.countIssue issue).drops = stats.drops := by
  cases issue <;> exact ⟨rfl, rfl⟩

theorem listen_kept (stats : ConnectionStats) (calls : List ListenerCall) :
    (stats.listen calls).frames = stats.frames ∧ (stats.listen calls).drops = stats.drops := by
  induction calls generalizing stats with
  | nil => exact ⟨rfl, rfl⟩
  | cons call calls ih =>
    cases call with
    | onIntegrityCheckFailed issue =>
      obtain ⟨hframes, hdrops⟩ := ih (stats.countIssue issue)
      exact ⟨hframes.trans (countIssue_kept stats issue).1, hdrops.trans (countIssue_kept stats issue).2⟩
    | _ => exact ih stats

end ConnectionStats

section Messages

variable {π Snap Batch : Type} [GranularityPolicy π Snap Batch] (fresh : π)

/-- Messages count neither as frames nor as drops. -/
theorem applyMessage_kept (state : ConnectionStats × BookMap π) (message : BookMessage Snap Batch) :
    (applyMessage fresh state message).1.frames = state.1.frames ∧
      (applyMessage fresh state message).1.drops = state.1.drops := by
  unfold applyMessage
  cases message.content with
  | snapshot snap => exact ConnectionStats.listen_kept _ _
  | batch batch =>
    simp only [applyUpdateMessage]
    split
    · exact ⟨rfl, rfl⟩
    · split_ifs
      · exact ConnectionStats.listen_kept _ _
      · exact ⟨rfl, rfl⟩

theorem foldl_applyMessage_kept (messages : List (BookMessage Snap Batch)) (state : ConnectionStats × BookMap π) :
    (messages.foldl (applyMessage fresh) state).1.frames = state.1.frames ∧
      (messages.foldl (applyMessage fresh) state).1.drops = state.1.drops := by
  induction messages generalizing state with
  | nil => exact ⟨rfl, rfl⟩
  | cons message messages ih =>
    obtain ⟨hframes, hdrops⟩ := applyMessage_kept fresh state message
    rw [List.foldl_cons, (ih _).1, (ih _).2]
    exact ⟨hframes, hdrops⟩

end Messages

namespace Connection

variable {N D : Type} (P : Platform N D) (settings : BookSettings)

theorem run_append (conn : Connection) (calls calls' : List AdapterCall) :
    conn.run P (calls ++ calls') = (conn.run P calls).run P calls' := List.foldl_append

theorem run_snoc (conn : Connection) (calls : List AdapterCall) (c : AdapterCall) :
    conn.run P (calls ++ [c]) = (conn.run P calls).call P c := run_append P conn calls [c]

section Frame

variable (conn : Connection) (payload : Bytes)

theorem onFrame_stale (h : conn.stale = true) :
    conn.onFrame P payload = (conn.tally fun stats => { stats with frames := stats.frames + 1 }).tally
      fun stats => { stats with framesIgnoredStale := stats.framesIgnoredStale + 1 } := by
  simp only [onFrame, tally_stale, h, if_true]

theorem onFrame_live (h : conn.stale = false) :
    conn.onFrame P payload =
      (conn.tally fun stats => { stats with frames := stats.frames + 1 }).dispatchFrame P payload := by
  simp only [onFrame, tally_stale, h, Bool.false_eq_true, if_false]

/-- A frame changes the books and the counters only. -/
theorem dispatchFrame_frame :
    (conn.dispatchFrame P payload).settings = conn.settings ∧ (conn.dispatchFrame P payload).stale = conn.stale ∧
      (conn.dispatchFrame P payload).connectId = conn.connectId := by
  unfold dispatchFrame
  cases conn.settings.source with
  | unknown => exact ⟨rfl, rfl, rfl⟩
  | krakenJson =>
    simp only [onKrakenFrame]
    split <;> exact ⟨rfl, rfl, rfl⟩
  | deribitFix =>
    simp only [onDeribitFixFrame, onDeribitParseError]
    split
    · split_ifs <;> exact ⟨rfl, rfl, rfl⟩
    · exact ⟨rfl, rfl, rfl⟩

theorem onFrame_frame :
    (conn.onFrame P payload).settings = conn.settings ∧ (conn.onFrame P payload).stale = conn.stale ∧
      (conn.onFrame P payload).connectId = conn.connectId := by
  cases h : conn.stale with
  | true =>
    rw [onFrame_stale P conn payload h]
    exact ⟨rfl, h, rfl⟩
  | false =>
    rw [onFrame_live P conn payload h, ← h]
    exact dispatchFrame_frame P _ payload

theorem dispatchFrame_counters :
    (conn.dispatchFrame P payload).stats.frames = conn.stats.frames ∧
      (conn.dispatchFrame P payload).stats.drops = conn.stats.drops := by
  unfold dispatchFrame
  cases conn.settings.source with
  | unknown => exact ⟨rfl, rfl⟩
  | krakenJson =>
    simp only [onKrakenFrame]
    split
    · exact ⟨rfl, rfl⟩
    · exact foldl_applyMessage_kept _ _ _
  | deribitFix =>
    simp only [onDeribitFixFrame, onDeribitParseError]
    split
    · split_ifs <;> exact ⟨rfl, rfl⟩
    · exact foldl_applyMessage_kept _ _ _

theorem onFrame_counters :
    (conn.onFrame P payload).stats.frames = conn.stats.frames + 1 ∧
      (conn.onFrame P payload).stats.drops = conn.stats.drops := by
  cases h : conn.stale with
  | true =>
    rw [onFrame_stale P conn payload h]
    exact ⟨rfl, rfl⟩
  | false =>
    rw [onFrame_live P conn payload h]
    exact dispatchFrame_counters P _ payload

end Frame

/-- No call changes a connection's settings. -/
theorem call_settings (conn : Connection) (c : AdapterCall) : (conn.call P c).settings = conn.settings := by
  cases c with
  | onConnect connectId => rfl
  | onDisconnect connectId => rfl
  | onFramesDropped count =>
    simp only [call, onFramesDropped]
    split_ifs <;> rfl
  | onFrame payload => exact (onFrame_frame P conn payload).1

theorem run_settings (calls : List AdapterCall) : ((add settings).run P calls).settings = settings := by
  induction calls using List.reverseRecOn with
  | nil => rfl
  | append_singleton calls c ih => rw [run_snoc, call_settings, ih]

end Connection

namespace AdapterCall

def isFrame : AdapterCall → Bool
  | .onFrame _ => true
  | _ => false

/-- The frames a call reports as dropped. -/
def dropped : AdapterCall → ℕ
  | .onFramesDropped count => count
  | _ => 0

end AdapterCall

/-- The frame counter counts the frames, the drop counter the reported drops. -/
theorem Connection.run_counters {N D : Type} (P : Platform N D) (settings : BookSettings) (calls : List AdapterCall) :
    ((add settings).run P calls).stats.frames = calls.countP (·.isFrame) ∧
      ((add settings).run P calls).stats.drops = (calls.map (·.dropped)).sum := by
  induction calls using List.reverseRecOn with
  | nil => exact ⟨rfl, rfl⟩
  | append_singleton calls c ih =>
    obtain ⟨hframes, hdrops⟩ := ih
    rw [run_snoc, List.countP_append, List.map_append, List.sum_append, ← hframes, ← hdrops]
    cases c with
    | onConnect connectId => exact ⟨rfl, rfl⟩
    | onDisconnect connectId => exact ⟨rfl, rfl⟩
    | onFrame payload => exact onFrame_counters P _ payload
    | onFramesDropped count =>
      simp only [call, onFramesDropped]
      split_ifs with hcount
      · subst hcount
        exact ⟨rfl, rfl⟩
      · exact ⟨rfl, rfl⟩

namespace BookAdapter

variable {N D : Type} (P : Platform N D)

theorem connections_addAll (settings : List BookSettings) (adapter : BookAdapter) :
    (settings.foldl (·.addConnection ·) adapter).connections = adapter.connections ++ settings.map .add := by
  induction settings generalizing adapter with
  | nil => simp
  | cons st settings ih =>
    rw [List.foldl_cons, ih]
    simp [addConnection]

/-- An adapter of one connection is where its calls take that connection. -/
theorem run_alone (conn : Connection) (calls : List AdapterCall) :
    (⟨[conn]⟩ : BookAdapter).run P (calls.map fun call => (0, call)) = ⟨[conn.run P calls]⟩ := by
  induction calls generalizing conn with
  | nil => rfl
  | cons call calls ih => exact ih (conn.call P call)

/-- A connection of the adapter is where its own calls take it. -/
theorem run_connection (adapter : BookAdapter) (calls : List (ℕ × AdapterCall)) (handle : ℕ) :
    (adapter.run P calls).connections[handle]? =
      adapter.connections[handle]?.map (·.run P (callsOf handle calls)) := by
  induction calls generalizing adapter with
  | nil => simp [run, callsOf, Connection.run]
  | cons c calls ih =>
    obtain ⟨i, c⟩ := c
    have htail : (adapter.run P ((i, c) :: calls)) = (adapter.call P i c).run P calls := rfl
    rw [htail, ih, call, List.getElem?_modify]
    by_cases h : i = handle
    · cases adapter.connections[handle]? <;> simp [h, callsOf, Connection.run]
    · cases adapter.connections[handle]? <;> simp [h, callsOf]

end BookAdapter

end CryptoTrader
