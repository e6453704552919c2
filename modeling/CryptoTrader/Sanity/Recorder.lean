import CryptoTrader.Sanity.JournalThread

/-! While the disk takes every write, a capture session in either mode does what the
recorder does: at once in inline mode, and once the journal thread has handled its queue
in threaded mode. -/

namespace CryptoTrader

open Journal CaptureSession

/-- The marker of the connect can be written, if the connect gets a file. -/
def SessionCall.Writable : SessionCall → Prop
  | .beginConnect call =>
    call.directoryError = none → call.outcome = .opened →
      call.reason.length ≤ kMaxPayloadBytes ∧ call.markerWritten = true
  | _ => True

namespace CaptureSession

/-- The action's writes and flushes, if it makes any, succeed. Files may still fail to
open. -/
def WritesOk (s : CaptureSession) : SessionAction → Prop
  | .call (.onWireMessage call) =>
    s.isOpen = true → s.journal.error = none → call.payload.length ≤ kMaxPayloadBytes ∧ call.written = true
  | .call call => call.flushed? = some true ∧ call.Writable
  | .resume => True
  | .journal written => written = true

theorem WritesOk.writable {s : CaptureSession} {call : SessionCall} (hok : s.WritesOk (.call call))
    (hcall : call.flushed?.isSome = true) : call.Writable := by
  cases call with
  | onWireMessage wire => cases hcall
  | beginConnect connect => exact hok.2
  | close flushed => trivial

end CaptureSession

namespace Recorder

/-- A connect that gets a file found nothing wrong. -/
theorem opened_of_connectFailure {J : JournalPlatform} {config : SessionConfig} {connectId : ℕ} {error : Option Bytes}
    {call : ConnectCall} (h : config.connectFailure J connectId error call = none) :
    error = none ∧ call.directoryError = none ∧ call.outcome = .opened := by
  unfold SessionConfig.connectFailure at h
  cases error with
  | some error => cases h
  | none =>
    cases hdirectory : call.directoryError with
    | some error => simp [hdirectory] at h
    | none => cases houtcome : call.outcome <;> simp [hdirectory, houtcome] at h ⊢

section Calls

variable {J : JournalPlatform} {r : Recorder} {call : WireCall}

theorem onWireMessage_notOpen (hcurrent : r.current = none) : r.onWireMessage call = r.returns .notOpen := by
  rw [Recorder.onWireMessage, hcurrent]

theorem onWireMessage_taken {file : JournalFile} (hcurrent : r.current = some file) (herror : r.error = none)
    (hroom : call.room = true) : r.onWireMessage call =
      { r.captured call with current := some (file.append (r.wireFrame call).record) }.returns
        (.wire (r.wireFrame call) true) := by
  rw [Recorder.onWireMessage, hcurrent]
  simp only
  rw [if_pos ⟨herror, hroom⟩]

theorem onWireMessage_refused {file : JournalFile} (hcurrent : r.current = some file)
    (h : ¬ (r.error = none ∧ call.room = true)) : r.onWireMessage call =
      { r.captured call with
        error := r.error.or (some (JournalThread.overflowText r.config.ringCapacity)) }.returns
          (.wire (r.wireFrame call) false) := by
  rw [Recorder.onWireMessage, hcurrent]
  simp only
  rw [if_neg h]

variable (J r)

/-- The recorder as a connect numbers itself, and as it opens its file. -/
def numbered : Recorder := { r.endConnect with connectId := (r.connectId + 1) % kIdModulus, sequence := 0 }

def connected (call : ConnectCall) : Recorder :=
  { r.numbered with
    sequence := 1
    current := some ((r.config.connectFile J r.numbered.connectId call).append call.record)
    sinkCalls := r.numbered.sinkCalls ++ [FeedEvent.connect r.numbered.connectId call.reason] }

/-- What a call can do. -/
inductive Does : SessionCall → Recorder → Prop where
  | notOpen (call : WireCall) (hcurrent : r.current = none) : Does (.onWireMessage call) (r.returns .notOpen)
  | taken (call : WireCall) (file : JournalFile) (hcurrent : r.current = some file) (herror : r.error = none)
      (hroom : call.room = true) :
      Does (.onWireMessage call) ({ r.captured call with
        current := some (file.append (r.wireFrame call).record) }.returns (.wire (r.wireFrame call) true))
  | refused (call : WireCall) (file : JournalFile) (hcurrent : r.current = some file)
      (hrefused : ¬ (r.error = none ∧ call.room = true)) :
      Does (.onWireMessage call) ({ r.captured call with
        error := r.error.or (some (JournalThread.overflowText r.config.ringCapacity)) }.returns
          (.wire (r.wireFrame call) false))
  | closed (flushed : Bool) : Does (.close flushed) (r.endConnect.returns .closed)
  | failed (call : ConnectCall) (error : Bytes)
      (hcause : r.config.connectFailure J r.numbered.connectId r.error call = some error) :
      Does (.beginConnect call) (r.numbered.returns (.connectFailed error))
  | connected (call : ConnectCall) (hcause : r.config.connectFailure J r.numbered.connectId r.error call = none) :
      Does (.beginConnect call) ((r.connected J call).returns
        (.connected (r.config.journalPath J r.numbered.connectId call.nameRealtimeNs)))

theorem call_does (call : SessionCall) : Does J r call (r.call J call) := by
  cases call with
  | close flushed => exact .closed flushed
  | onWireMessage wire =>
    change Does J r _ (r.onWireMessage wire)
    cases hcurrent : r.current with
    | none =>
      rw [onWireMessage_notOpen hcurrent]
      exact .notOpen wire hcurrent
    | some file =>
      by_cases htaken : r.error = none ∧ wire.room = true
      · rw [onWireMessage_taken hcurrent htaken.1 htaken.2]
        exact .taken wire file hcurrent htaken.1 htaken.2
      · rw [onWireMessage_refused hcurrent htaken]
        exact .refused wire file hcurrent htaken
  | beginConnect connect =>
    change Does J r _ (r.endConnect.openConnect J connect)
    simp only [Recorder.openConnect]
    split
    · next error hcause => exact .failed connect error hcause
    · next hcause => exact .connected connect hcause

/-- All the recorder's files, with the one under way last. -/
def shelf : List JournalFile := r.files ++ r.current.toList

theorem endConnect_shelf : r.endConnect.shelf = r.shelf := List.append_nil _

variable {J r}

theorem shelf_current {file : JournalFile} (hcurrent : r.current = some file) : r.shelf = r.files ++ [file] := by
  rw [shelf, hcurrent]
  rfl

theorem shelf_closed (hcurrent : r.current = none) : r.shelf = r.files := by
  rw [shelf, hcurrent]
  exact List.append_nil _

/-- Where a file of the recorder's comes from, call by call. -/
theorem shelf_cases {call : SessionCall} {r' : Recorder} (hdoes : Does J r call r') {file : JournalFile}
    (hfile : file ∈ r'.shelf) :
    file ∈ r.shelf ∨
      (∃ wire old, call = .onWireMessage wire ∧ r.current = some old ∧ r.error = none ∧
        file = old.append (r.wireFrame wire).record) ∨
      ∃ connect, call = .beginConnect connect ∧
        r.config.connectFailure J r.numbered.connectId r.error connect = none ∧
        file = (r.config.connectFile J r.numbered.connectId connect).append connect.record := by
  cases hdoes with
  | notOpen call hcurrent => exact .inl hfile
  | refused call file hcurrent hrefused => exact .inl hfile
  | closed flushed => exact .inl (r.endConnect_shelf ▸ hfile)
  | failed call error hcause => exact .inl (r.endConnect_shelf ▸ hfile)
  | taken call old hcurrent herror hroom =>
    rw [shelf_current rfl] at hfile
    rcases List.mem_append.1 hfile with hfile | hfile
    · exact .inl (List.mem_append_left _ hfile)
    · exact .inr (.inl ⟨call, old, rfl, hcurrent, herror, List.mem_singleton.1 hfile⟩)
  | connected call hcause =>
    rw [shelf_current rfl] at hfile
    rcases List.mem_append.1 hfile with hfile | hfile
    · exact .inl hfile
    · exact .inr (.inr ⟨call, rfl, hcause, List.mem_singleton.1 hfile⟩)

theorem current_mem_shelf {file : JournalFile} (hcurrent : r.current = some file) : file ∈ r.shelf := by
  rw [shelf_current hcurrent]
  exact List.mem_append_right _ List.mem_cons_self

variable (r) in
/-- Every record can be read back. -/
def Sized : Prop := ∀ file ∈ r.shelf, ∀ record ∈ file.records, record.payload.length ≤ kMaxPayloadBytes

variable (r) in
/-- The record of the call, if it makes one, can be read back. -/
def Fits : SessionCall → Prop
  | .onWireMessage call => r.current.isSome = true → r.error = none → call.payload.length ≤ kMaxPayloadBytes
  | call => call.Writable

theorem Sized.after_call (h : r.Sized) {call : SessionCall} {r' : Recorder} (hdoes : Does J r call r')
    (hfits : r.Fits call) : r'.Sized := by
  intro file hfile record hrecord
  rcases shelf_cases hdoes hfile with hold | ⟨wire, old, rfl, hcurrent, herror, rfl⟩ | ⟨connect, rfl, hcause, rfl⟩
  · exact h file hold record hrecord
  · rcases List.mem_append.1 hrecord with hrecord | hrecord
    · exact h old (current_mem_shelf hcurrent) record hrecord
    · rw [List.mem_singleton.1 hrecord]
      exact hfits (by rw [hcurrent]; rfl) herror
  · obtain ⟨-, hdirectory, houtcome⟩ := opened_of_connectFailure hcause
    rcases List.mem_append.1 hrecord with hrecord | hrecord
    · cases hrecord
    · rw [List.mem_singleton.1 hrecord]
      exact (hfits hdirectory houtcome).1

/-- What holds of a fresh recorder and is kept by every call holds after any calls. -/
theorem calls_induction {I : List SessionCall → Recorder → Prop} {config : SessionConfig}
    (hstart : I [] (Recorder.start config))
    (hcall : ∀ calls r call r', r = (Recorder.start config).run J calls → I calls r → Does J r call r' →
      I (calls ++ [call]) r') (calls : List SessionCall) : I calls ((Recorder.start config).run J calls) := by
  induction calls using List.reverseRecOn with
  | nil => exact hstart
  | append_singleton calls call ih =>
    have hsnoc : (Recorder.start config).run J (calls ++ [call]) = ((Recorder.start config).run J calls).call J call :=
      List.foldl_concat ..
    rw [hsnoc]
    exact hcall calls _ call _ rfl ih (call_does J _ call)

end Calls

/-- What the session and the recorder say alike, whatever the mode. -/
structure Follows (r : Recorder) (s : CaptureSession) : Prop where
  config : r.config = { s.config with journalMode := .inline }
  sinkCalls : s.sinkCalls = r.sinkCalls
  sequence : s.sequence = r.sequence
  connectId : s.connectId = r.connectId
  announced : s.announced = r.current.isSome
  closedRecords : s.closedRecords = (r.files.map (·.records.length)).sum
  results : s.results = r.results

/-- Where the recorder's files are. A session that waits has the recorder's current file
still to be closed. -/
def Store (r : Recorder) (s : CaptureSession) : Prop :=
  match s.config.journalMode with
  | .inline => s.writer = r.current.map (⟨·, r.sequence, none⟩) ∧ s.inlineFiles = r.files ∧ r.error = none
  | .threaded =>
    match s.waiting with
    | none => JournalThread.Running r.files r.current r.sequence r.error s.journal
    | some call => call.Writable ∧ ∃ file, r.current = some file ∧ JournalThread.Closing r.files file r.error s.journal

variable {J : JournalPlatform} {r : Recorder} {s s' : CaptureSession}

theorem store_inline (hmode : s.config.journalMode = .inline) :
    r.Store s ↔ s.writer = r.current.map (⟨·, r.sequence, none⟩) ∧ s.inlineFiles = r.files ∧ r.error = none := by
  rw [Store, hmode]

theorem store_threaded (hmode : s.config.journalMode = .threaded) (hwaiting : s.waiting = none) :
    r.Store s ↔ JournalThread.Running r.files r.current r.sequence r.error s.journal := by
  rw [Store, hmode, hwaiting]

theorem store_waiting (hmode : s.config.journalMode = .threaded) {call : SessionCall} (hwaiting : s.waiting = some call) :
    r.Store s ↔
      call.Writable ∧ ∃ file, r.current = some file ∧ JournalThread.Closing r.files file r.error s.journal := by
  rw [Store, hmode, hwaiting]

theorem follows_start (config : SessionConfig) : (Recorder.start config).Follows (CaptureSession.start config) :=
  ⟨rfl, rfl, rfl, rfl, rfl, rfl, rfl⟩

theorem store_start (config : SessionConfig) : (Recorder.start config).Store (CaptureSession.start config) := by
  cases hmode : config.journalMode with
  | inline => exact (store_inline hmode).2 ⟨rfl, rfl, rfl⟩
  | threaded => exact (store_threaded hmode rfl).2 JournalThread.Running.start

theorem Follows.returns (hfollows : r.Follows s) (result : SessionResult) :
    (r.returns result).Follows (s.returns result) :=
  ⟨hfollows.config, hfollows.sinkCalls, hfollows.sequence, hfollows.connectId, hfollows.announced,
    hfollows.closedRecords, congrArg (· ++ [result]) hfollows.results⟩

/-- What the journal thread does and what the session waits for is nothing to the recorder. -/
theorem Follows.waits (hfollows : r.Follows s) (journal : JournalThread) (waiting : Option SessionCall) :
    r.Follows { s with journal, waiting } :=
  ⟨hfollows.config, hfollows.sinkCalls, hfollows.sequence, hfollows.connectId, hfollows.announced,
    hfollows.closedRecords, hfollows.results⟩

/-- Both see the same failure of the journal. -/
theorem Store.error_eq (hstore : r.Store s) (hinv : s.ModeInv) (hwaiting : s.waiting = none) :
    s.journal.error = r.error := by
  cases hmode : s.config.journalMode with
  | inline => rw [(hinv.inline hmode).2, ((store_inline hmode).1 hstore).2.2]
  | threaded => exact ((store_threaded hmode hwaiting).1 hstore).failure

theorem Follows.isOpen_eq (hinv : s.ModeInv) (hfollows : r.Follows s) (hstore : r.Store s) :
    s.isOpen = r.current.isSome := by
  unfold isOpen
  cases hmode : s.config.journalMode with
  | inline => simp [((store_inline hmode).1 hstore).1]
  | threaded => exact (hinv.threaded hmode).2.trans hfollows.announced

theorem Follows.current_none (hfollows : r.Follows s) (hannounced : s.announced = false) : r.current = none := by
  rw [hfollows.announced] at hannounced
  simpa using hannounced

/-- A session that has nothing open has the recorder's files on disk. -/
theorem Store.quiet (hstore : r.Store s) (hinv : s.ModeInv) (hfollows : r.Follows s) (hwaiting : s.waiting = none)
    (hcurrent : r.current = none) :
    s.files = r.files ∧ s.totalRecordsWritten = (r.files.map (·.records.length)).sum ∧
      (s.journal.ring.dropped = 0 ↔ r.error = none) := by
  rw [totalRecordsWritten, recordsWritten, hfollows.closedRecords]
  cases hmode : s.config.journalMode with
  | inline =>
    obtain ⟨hwriter, hfiles, hnone⟩ := (store_inline hmode).1 hstore
    refine ⟨?_, ?_, ?_⟩
    · rw [CaptureSession.files, hmode]
      exact hfiles
    · simp only [hwriter, hcurrent, Option.map_none, Option.getD_none, Nat.add_zero]
    · simp [(hinv.inline hmode).2, hnone]
  | threaded =>
    have hrunning := (store_threaded hmode hwaiting).1 hstore
    rw [hcurrent] at hrunning
    obtain ⟨hfiles, hrecords⟩ := hrunning.quiet
    refine ⟨?_, ?_, hrunning.dropped⟩
    · rw [CaptureSession.files, hmode]
      exact hfiles
    · simp only [hrecords, Nat.add_zero]

section Connect

variable {q : CaptureSession}

theorem Follows.connectFailure_eq (hfollows : r.Follows q) (herror : q.journal.error = r.error) (call : ConnectCall) :
    q.connectFailure J call = r.config.connectFailure J ((r.connectId + 1) % kIdModulus) r.error call := by
  rw [CaptureSession.connectFailure, herror, hfollows.connectId, hfollows.config]
  rfl

theorem markedWriter_eq {call : ConnectCall} (hsize : call.reason.length ≤ kMaxPayloadBytes)
    (hwritten : call.markerWritten = true) :
    q.markedWriter J call = ⟨(q.connectFile J call).append call.record, 1, none⟩ := by
  have htakes : ({ file := q.connectFile J call } : JournalWriter).Takes (markerFrame call) :=
    ⟨rfl, Nat.zero_lt_one, hsize⟩
  rw [markedWriter, hwritten, JournalWriter.writeConnectMarker, htakes.writeRecord]
  rfl

/-- The shared part of a connect that gets a file. -/
theorem Follows.opened (hfollows : r.Follows q) {call : ConnectCall}
    (hcause : r.config.connectFailure J ((r.connectId + 1) % kIdModulus) r.error call = none) {t : CaptureSession}
    (hconfig : t.config = q.config)
    (hcalls : t.sinkCalls = q.sinkCalls ++ [.connect ((q.connectId + 1) % kIdModulus) call.reason])
    (hsequence : t.sequence = 1) (hid : t.connectId = (q.connectId + 1) % kIdModulus) (hannounced : t.announced = true)
    (hclosed : t.closedRecords = q.closedRecords)
    (hresults : t.results = q.results ++ [.connected (q.connectPath J call)]) : (r.openConnect J call).Follows t := by
  rw [Recorder.openConnect, hcause]
  refine ⟨?_, ?_, hsequence, ?_, hannounced, hclosed.trans hfollows.closedRecords, ?_⟩
  · rw [hconfig]
    exact hfollows.config
  · rw [hcalls, hfollows.sinkCalls, hfollows.connectId]
    rfl
  · rw [hid, hfollows.connectId]
    rfl
  · rw [hresults, hfollows.results, connectPath, hfollows.connectId, hfollows.config]
    rfl

/-- A connect that fails leaves the files as they were and starts a new count. -/
theorem Store.connectFailed (hstore : r.Store q) (hquiet : q.Quiet) (hcurrent : r.current = none) {r' : Recorder}
    {t : CaptureSession} (hconfig : t.config = q.config) (hwaiting : t.waiting = q.waiting)
    (hwriter : t.writer = q.writer) (hinline : t.inlineFiles = q.inlineFiles) (hjournal : t.journal = q.journal)
    (hfiles : r'.files = r.files) (hnone : r'.current = r.current) (herror : r'.error = r.error) : r'.Store t := by
  cases hmode : q.config.journalMode with
  | inline =>
    obtain ⟨-, hstored, hgood⟩ := (store_inline hmode).1 hstore
    rw [store_inline (by rw [hconfig, hmode]), hwriter, hinline, hfiles, hnone, herror, hquiet.writer, hcurrent]
    exact ⟨rfl, hstored, hgood⟩
  | threaded =>
    have hrunning := (store_threaded hmode hquiet.waiting).1 hstore
    rw [hcurrent] at hrunning
    rw [store_threaded (by rw [hconfig, hmode]) (by rw [hwaiting, hquiet.waiting]), hjournal, hfiles, hnone, herror,
      hcurrent]
    exact hrunning.renumbered _

/-- From a quiet session both open the next connect, or both fail to. -/
theorem openConnect_follows (hquiet : q.Quiet) (hinline : q.config.journalMode = .inline → q.journal = {})
    (hcurrent : r.current = none) (hfollows : r.Follows q) (hstore : r.Store q) {call : ConnectCall}
    (hwritable : SessionCall.Writable (.beginConnect call)) :
    (r.openConnect J call).Follows (q.openConnect J call) ∧ (r.openConnect J call).Store (q.openConnect J call) := by
  have herror : q.journal.error = r.error := by
    cases hmode : q.config.journalMode with
    | inline => rw [hinline hmode, ((store_inline hmode).1 hstore).2.2]
    | threaded => exact ((store_threaded hmode hquiet.waiting).1 hstore).failure
  have hfailure := hfollows.connectFailure_eq (J := J) herror call
  have hfile : q.connectFile J call = r.config.connectFile J ((r.connectId + 1) % kIdModulus) call := by
    rw [connectFile, hfollows.connectId, hfollows.config]
    rfl
  have hconnect := openConnect_cases J q call
  generalize q.openConnect J call = t at hconnect ⊢
  cases hconnect with
  | failed error hcause =>
    rw [hfailure] at hcause
    rw [Recorder.openConnect, hcause]
    refine ⟨⟨hfollows.config, hfollows.sinkCalls, rfl, ?_, hfollows.announced, hfollows.closedRecords, ?_⟩, ?_⟩
    · exact congrArg (fun id => (id + 1) % kIdModulus) hfollows.connectId
    · exact congrArg (· ++ [SessionResult.connectFailed error]) hfollows.results
    · exact hstore.connectFailed hquiet hcurrent rfl rfl rfl rfl rfl rfl rfl rfl
  | threaded hmode hcause =>
    rw [hfailure] at hcause
    refine ⟨hfollows.opened hcause rfl rfl rfl rfl rfl rfl rfl, ?_⟩
    obtain ⟨hnone, hdirectory, houtcome⟩ := opened_of_connectFailure hcause
    have hrunning := (store_threaded hmode hquiet.waiting).1 hstore
    rw [hcurrent, hnone] at hrunning
    rw [store_threaded (by exact hmode) (by exact hquiet.waiting), Recorder.openConnect, hcause]
    change JournalThread.Running r.files (some _) 1 r.error _
    rw [hnone, ← hfile]
    exact hrunning.connect (q.connectFile J call) (markerFrame call) rfl (hwritable hdirectory houtcome).1
  | markerFailed error hmode hcause hmarker =>
    -- the marker of this call is written
    rw [hfailure] at hcause
    obtain ⟨-, hdirectory, houtcome⟩ := opened_of_connectFailure hcause
    obtain ⟨hsize, hwritten⟩ := hwritable hdirectory houtcome
    rw [markedWriter_eq hsize hwritten] at hmarker
    cases hmarker
  | inline hmode hcause hmarker =>
    rw [hfailure] at hcause
    refine ⟨hfollows.opened hcause rfl rfl rfl rfl rfl rfl rfl, ?_⟩
    obtain ⟨hnone, hdirectory, houtcome⟩ := opened_of_connectFailure hcause
    obtain ⟨hsize, hwritten⟩ := hwritable hdirectory houtcome
    obtain ⟨-, hfiles, -⟩ := (store_inline hmode).1 hstore
    rw [store_inline (by exact hmode), Recorder.openConnect, hcause]
    refine ⟨?_, hfiles, hnone⟩
    change some (q.markedWriter J call) = some _
    rw [markedWriter_eq hsize hwritten, hfile]
    rfl

end Connect

section Wire

variable {call : WireCall}

theorem Follows.wireFrame_eq (hfollows : r.Follows s) : s.wireFrame call = r.wireFrame call := by
  rw [CaptureSession.wireFrame, stamp, hfollows.sequence]
  rfl

/-- The shared part of a wire message that finds a connect open. -/
theorem Follows.captured (hfollows : r.Follows s) {current : Option JournalFile}
    (hcurrent : current.isSome = r.current.isSome) (error : Option Bytes) (writer : Option JournalWriter)
    (journal : JournalThread) (journaled : Bool) :
    ({ r.captured call with current, error }.returns (.wire (r.wireFrame call) journaled)).Follows
      ({ s.captured call with writer, journal }.returns (.wire (s.wireFrame call) journaled)) := by
  rw [CaptureSession.captured, hfollows.wireFrame_eq]
  obtain ⟨hconfig, hcalls, hsequence, hid, hannounced, hclosed, hresults⟩ := hfollows
  refine ⟨hconfig, ?_, ?_, hid, hannounced.trans hcurrent.symm, hclosed, ?_⟩
  · exact congrArg (· ++ [FeedEvent.frame (r.wireFrame call)]) hcalls
  · exact congrArg (· + 1) hsequence
  · exact congrArg (· ++ [SessionResult.wire (r.wireFrame call) journaled]) hresults

/-- A writer that is up to date takes the next frame. -/
theorem onFrame_wireFrame (file : JournalFile) (hsize : call.payload.length ≤ kMaxPayloadBytes) :
    (⟨file, r.sequence, none⟩ : JournalWriter).onFrame (r.wireFrame call) true =
      ⟨file.append (r.wireFrame call).record, r.sequence + 1, none⟩ := by
  have htakes : (⟨file, r.sequence, none⟩ : JournalWriter).Takes (r.wireFrame call) :=
    ⟨rfl, Nat.lt_succ_self _, hsize⟩
  rw [JournalWriter.onFrame, htakes.writeRecord]
  rfl

/-- A wire message in threaded mode goes into the ring, or the recorder refuses it too. -/
theorem wire_follows_threaded (hmode : s.config.journalMode = .threaded) (hwaiting : s.waiting = none)
    (hfollows : r.Follows s) (hstore : r.Store s) {file : JournalFile} (hcurrent : r.current = some file)
    (hsize : r.error = none → call.payload.length ≤ kMaxPayloadBytes) :
    let t := { s.captured call with
        journal := (s.journal.push s.config.ringCapacity (s.wireFrame call) call.room).1 }.returns
          (.wire (s.wireFrame call) (s.journal.push s.config.ringCapacity (s.wireFrame call) call.room).2)
    (r.onWireMessage call).Follows t ∧ (r.onWireMessage call).Store t := by
  have hsome : ∀ file' : JournalFile, (some file').isSome = r.current.isSome := fun _ => by rw [hcurrent]; rfl
  have hrunning := (store_threaded hmode hwaiting).1 hstore
  rw [hcurrent] at hrunning
  by_cases htaken : r.error = none ∧ call.room = true
  · obtain ⟨hnone, hroom⟩ := htaken
    rw [hnone] at hrunning
    have hpush := hrunning.push_taken (r.wireFrame call) rfl (hsize hnone) s.config.ringCapacity
    rw [← hfollows.wireFrame_eq] at hpush
    rw [onWireMessage_taken hcurrent hnone hroom, hroom, hpush.1]
    refine ⟨hfollows.captured (hsome _) _ _ _ _, ?_⟩
    rw [store_threaded (by exact hmode) (by exact hwaiting), ← hfollows.wireFrame_eq]
    change JournalThread.Running r.files _ (r.sequence + 1) r.error _
    rw [hnone]
    exact hpush.2
  · have hpush := hrunning.push_refused htaken (s.wireFrame call) (r.sequence + 1) s.config.ringCapacity
    have hcapacity : s.config.ringCapacity = r.config.ringCapacity := by rw [hfollows.config]; rfl
    rw [onWireMessage_refused hcurrent htaken, hpush.1]
    refine ⟨hfollows.captured rfl _ _ _ _, ?_⟩
    rw [store_threaded (by exact hmode) (by exact hwaiting), ← hcapacity]
    change JournalThread.Running r.files r.current _ _ _
    rw [hcurrent]
    exact hpush.2

/-- A wire message of a session that does not wait. -/
theorem wire_follows (hinv : s.ModeInv) (hwaiting : s.waiting = none) (hfollows : r.Follows s) (hstore : r.Store s)
    (hok : s.WritesOk (.call (.onWireMessage call))) :
    (r.call J (s.config.recorderCall (.onWireMessage call))).Follows (s.onWireMessage call) ∧
      (r.call J (s.config.recorderCall (.onWireMessage call))).Store (s.onWireMessage call) := by
  have hisOpen := hfollows.isOpen_eq hinv hstore
  have herror := hstore.error_eq hinv hwaiting
  have htakes := s.onWireMessage_cases call
  generalize s.onWireMessage call = t at htakes ⊢
  cases htakes with
  | notOpen hopen =>
    rw [hisOpen] at hopen
    have hcurrent : r.current = none := by simpa using hopen
    have hcall : r.call J (s.config.recorderCall (.onWireMessage call)) = r.returns .notOpen := by
      cases hmode : s.config.journalMode <;> simp only [SessionConfig.recorderCall, hmode] <;>
        exact onWireMessage_notOpen hcurrent
    rw [hcall]
    exact ⟨hfollows.returns .notOpen, hstore⟩
  | threaded hmode hopen =>
    have hwritable := hok hopen
    rw [herror] at hwritable
    rw [hisOpen, Option.isSome_iff_exists] at hopen
    obtain ⟨file, hcurrent⟩ := hopen
    have hcall : r.call J (s.config.recorderCall (.onWireMessage call)) = r.onWireMessage call := by
      simp only [SessionConfig.recorderCall, hmode]
      rfl
    rw [hcall]
    exact wire_follows_threaded hmode hwaiting hfollows hstore hcurrent fun hnone => (hwritable hnone).1
  | inline writer hmode hopen hwriter =>
    obtain ⟨hstored, hfiles, hnone⟩ := (store_inline hmode).1 hstore
    obtain ⟨hsize, hwritten⟩ := hok hopen (herror.trans hnone)
    rw [hisOpen, Option.isSome_iff_exists] at hopen
    obtain ⟨file, hcurrent⟩ := hopen
    have hsome : ∀ file' : JournalFile, (some file').isSome = r.current.isSome := fun _ => by rw [hcurrent]; rfl
    have hcall : r.call J (s.config.recorderCall (.onWireMessage call)) =
        { r.captured call with current := some (file.append (r.wireFrame call).record) }.returns
          (.wire (r.wireFrame call) true) := by
      simp only [SessionConfig.recorderCall, hmode, SessionCall.withRoom]
      exact onWireMessage_taken hcurrent hnone rfl
    rw [hwriter, hcurrent, Option.map_some, Option.some.injEq] at hstored
    have hframe : writer.onFrame (s.wireFrame call) call.written =
        ⟨file.append (r.wireFrame call).record, r.sequence + 1, none⟩ := by
      rw [hstored, hfollows.wireFrame_eq, hwritten, onFrame_wireFrame file hsize]
    rw [hcall, hframe]
    refine ⟨hfollows.captured (hsome _) _ _ _ _, ?_⟩
    rw [store_inline (by exact hmode)]
    exact ⟨rfl, hfiles, hnone⟩

end Wire

section End

variable {call : SessionCall}

theorem call_eq (hcall : call.flushed?.isSome = true) : r.call J call = r.endConnect.goOn J call := by
  cases call with
  | onWireMessage wire => cases hcall
  | beginConnect connect => rfl
  | close flushed => rfl

theorem fits_of_writable (hcall : call.flushed?.isSome = true) (hwritable : call.Writable) : r.Fits call := by
  cases call with
  | onWireMessage wire => cases hcall
  | beginConnect connect => exact hwritable
  | close flushed => trivial

theorem recorderCall_eq (config : SessionConfig) (hcall : call.flushed?.isSome = true) :
    config.recorderCall call = call := by
  unfold SessionConfig.recorderCall
  cases config.journalMode with
  | threaded => rfl
  | inline =>
    cases call with
    | onWireMessage wire => cases hcall
    | beginConnect connect => rfl
    | close flushed => rfl

theorem Follows.ended (hfollows : r.Follows s) (flushed : Bool) {records : ℕ}
    (hcount : (s.writer.map (·.recordsWritten)).getD 0 + records = (r.current.map (·.records.length)).getD 0) :
    r.endConnect.Follows (s.ended flushed records) := by
  obtain ⟨hconfig, hcalls, hsequence, hid, hannounced, hclosed, hresults⟩ := hfollows
  rw [ended_eq]
  refine ⟨hconfig, ?_, hsequence, hid, rfl, ?_, hresults⟩
  · rw [hcalls, hannounced, hid]
    rfl
  · rw [Nat.add_assoc, hcount, hclosed]
    cases hcurrent : r.current <;> simp [endConnect, hcurrent]

/-- A call with a `Close` in it, once both have ended the connect. -/
theorem goOn_follows {q : CaptureSession} (hquiet : q.Quiet) (hinline : q.config.journalMode = .inline → q.journal = {})
    (hcurrent : r.current = none) (hfollows : r.Follows q) (hstore : r.Store q) (hcall : call.flushed?.isSome = true)
    (hwritable : call.Writable) : (r.goOn J call).Follows (q.goOn J call) ∧ (r.goOn J call).Store (q.goOn J call) := by
  cases call with
  | onWireMessage wire => cases hcall
  | beginConnect connect => exact openConnect_follows hquiet hinline hcurrent hfollows hstore hwritable
  | close flushed => exact ⟨hfollows.returns .closed, hstore⟩

/-- A close that has no file of the journal thread's to wait for. -/
theorem Store.ended (hstore : r.Store s) (hinv : s.ModeInv) (hfollows : r.Follows s) (hwaiting : s.waiting = none)
    (hopen : s.journalOpen = false) (flushed : Bool) :
    r.endConnect.Follows (s.ended flushed 0) ∧ r.endConnect.Store (s.ended flushed 0) := by
  cases hmode : s.config.journalMode with
  | inline =>
    obtain ⟨hwriter, hfiles, hnone⟩ := (store_inline hmode).1 hstore
    refine ⟨hfollows.ended flushed ?_, ?_⟩
    · rw [hwriter]
      cases r.current <;> rfl
    · rw [store_inline (by rw [ended_eq]; exact hmode), ended_eq]
      refine ⟨rfl, ?_, hnone⟩
      change s.inlineFiles ++ _ = r.files ++ _
      rw [hwriter, hfiles]
      cases r.current <;> rfl
  | threaded =>
    have hcurrent := hfollows.current_none ((hinv.threaded hmode).2.symm.trans hopen)
    have hrunning := (store_threaded hmode hwaiting).1 hstore
    refine ⟨hfollows.ended flushed ?_, ?_⟩
    · rw [(hinv.threaded hmode).1, hcurrent]
      rfl
    · rw [store_threaded (by rw [ended_eq]; exact hmode) (by rw [ended_eq]), ended_eq]
      change JournalThread.Running (r.files ++ r.current.toList) none r.sequence r.error s.journal
      rw [hcurrent] at hrunning ⊢
      rw [Option.toList_none, List.append_nil]
      exact hrunning

/-- The close of a file by the journal thread, once it has reported it. -/
theorem Store.resumed (hmode : s.config.journalMode = .threaded) (hinv : s.ModeInv) (hfollows : r.Follows s)
    {file : JournalFile} (hcurrent : r.current = some file)
    (hclosing : JournalThread.Closing r.files file r.error s.journal) {records : ℕ}
    (hsignal : s.journal.signal = some records) (flushed : Bool) :
    r.endConnect.Follows (s.ended flushed records) ∧ r.endConnect.Store (s.ended flushed records) := by
  obtain ⟨hrecords, hrunning⟩ := hclosing.finish hsignal
  refine ⟨hfollows.ended flushed ?_, ?_⟩
  · rw [(hinv.threaded hmode).1, hcurrent, hrecords]
    exact Nat.zero_add _
  · rw [store_threaded (by rw [ended_eq]; exact hmode) (by rw [ended_eq]), ended_eq]
    change JournalThread.Running (r.files ++ r.current.toList) none r.sequence r.error s.journal
    rw [hcurrent]
    exact hrunning r.sequence

end End

section Run

variable {config : SessionConfig} {actions : List SessionAction}

/-- The recorder over the calls of a run that have returned. -/
def after (J : JournalPlatform) (config : SessionConfig) (calls : List SessionCall) : Recorder :=
  (Recorder.start config).run J (calls.map config.recorderCall)

theorem after_snoc (calls : List SessionCall) (call : SessionCall) :
    after J config (calls ++ [call]) = (after J config calls).call J (config.recorderCall call) := by
  rw [after, List.map_append, Recorder.run, List.map_singleton, List.foldl_concat]
  rfl

/-- What a run of the session and the recorder agree on, in every state. A call that waits
has not reached the recorder yet. -/
structure Agrees (J : JournalPlatform) (config : SessionConfig) (calls : List SessionCall) (s : CaptureSession) :
    Prop where
  settings : s.config = config
  returned : ∃ returned, calls = returned ++ s.waiting.toList ∧ (after J config returned).Follows s ∧
    (after J config returned).Store s ∧ (after J config returned).Sized

/-- A call with a `Close` in it returns, once both have ended the connect. -/
theorem Agrees.goOn {returned : List SessionCall} {call : SessionCall} {flushed : Bool} {records : ℕ}
    (hinv : s.ModeInv) (hsized : (after J s.config returned).Sized)
    (hended : (after J s.config returned).endConnect.Follows (s.ended flushed records) ∧
      (after J s.config returned).endConnect.Store (s.ended flushed records))
    (hcall : call.flushed?.isSome = true) (hwritable : call.Writable) :
    Agrees J s.config (returned ++ [call]) ((s.ended flushed records).goOn J call) := by
  have hquiet := s.ended_quiet flushed records
  obtain ⟨hfollows, hstore⟩ := goOn_follows (J := J) hquiet (hinv.ended_inline flushed records) rfl hended.1 hended.2
    hcall hwritable
  refine ⟨(goOn_config _ _).trans (by rw [ended_eq]), returned ++ [call], ?_, ?_⟩
  · rw [hquiet.goOn_waiting]
    exact (List.append_nil _).symm
  · rw [after_snoc, recorderCall_eq _ hcall]
    refine ⟨?_, ?_, hsized.after_call (call_does J _ call) (fits_of_writable hcall hwritable)⟩
    · rw [call_eq hcall]
      exact hfollows
    · rw [call_eq hcall]
      exact hstore

/-- A call that begins to wait has the current file closed. -/
theorem Store.waits (hstore : r.Store s) (hinv : s.ModeInv) (hfollows : r.Follows s) {call : SessionCall}
    (hwritable : call.Writable) (hwaiting : s.waiting = none) (hopen : s.journalOpen = true) :
    r.Store { s with journal := s.journal.disconnect, waiting := some call } := by
  have hmode := hinv.threaded_of_open hopen
  have hrunning := (store_threaded hmode hwaiting).1 hstore
  obtain ⟨file, hcurrent⟩ := Option.isSome_iff_exists.1
    (hfollows.announced.symm.trans ((hinv.threaded hmode).2.symm.trans hopen))
  rw [hcurrent] at hrunning
  exact (store_waiting (by exact hmode) rfl).2 ⟨hwritable, file, hcurrent, hrunning.disconnect⟩

/-- A step of the journal thread keeps the files where they are. -/
theorem Store.journal (hstore : r.Store s) (hinv : s.ModeInv) {journal : JournalThread}
    (hjournal : s.journal.step true = some journal) : r.Store { s with journal } := by
  cases hmode : s.config.journalMode with
  | inline =>
    rw [(hinv.inline hmode).2, JournalThread.step_idle] at hjournal
    cases hjournal
  | threaded =>
    cases hwaiting : s.waiting with
    | none =>
      have hrunning := (store_threaded hmode hwaiting).1 hstore
      exact (store_threaded (by exact hmode) rfl).2 (hrunning.step hjournal)
    | some call =>
      obtain ⟨hwritable, file, hcurrent, hclosing⟩ := (store_waiting hmode hwaiting).1 hstore
      exact (store_waiting (by exact hmode) rfl).2 ⟨hwritable, file, hcurrent, hclosing.step hjournal⟩

/-- A wire message returns at once. -/
theorem Agrees.wire {calls : List SessionCall} {call : WireCall} (hinv : s.ModeInv) (hwaiting : s.waiting = none)
    (hok : s.WritesOk (.call (.onWireMessage call))) (hfollows : (after J s.config calls).Follows s)
    (hstore : (after J s.config calls).Store s) (hsized : (after J s.config calls).Sized) :
    Agrees J s.config (calls ++ [.onWireMessage call]) (s.onWireMessage call) := by
  have hnext := wire_follows (J := J) hinv hwaiting hfollows hstore hok
  obtain ⟨hconfig, -, hsame⟩ := s.onWireMessage_keeps call
  refine ⟨hconfig, calls ++ [.onWireMessage call], ?_, ?_⟩
  · rw [hsame, hwaiting]
    exact (List.append_nil _).symm
  · rw [after_snoc]
    refine ⟨hnext.1, hnext.2, hsized.after_call (call_does J _ _) ?_⟩
    have hfits : (after J s.config calls).Fits (.onWireMessage call) := by
      intro hcurrent herror
      rw [← hfollows.isOpen_eq hinv hstore] at hcurrent
      exact (hok hcurrent ((hstore.error_eq hinv hwaiting).trans herror)).1
    cases hmode : s.config.journalMode <;> simp only [SessionConfig.recorderCall, hmode] <;> exact hfits

theorem Agrees.step {calls : List SessionCall} {action : SessionAction} (hagrees : Agrees J config calls s)
    (hinv : s.ModeInv) (hok : s.WritesOk action) (hstep : Step J s action s') :
    Agrees J config (calls ++ sessionCalls [action]) s' := by
  obtain ⟨rfl, returned, hcalls, hfollows, hstore, hsized⟩ := hagrees
  cases hstep with
  | wire call hwaiting =>
    rw [hwaiting, Option.toList_none, List.append_nil] at hcalls
    subst hcalls
    exact Agrees.wire hinv hwaiting hok hfollows hstore hsized
  | wait call hcall hwaiting hopen =>
    rw [hwaiting, Option.toList_none, List.append_nil] at hcalls
    subst hcalls
    exact ⟨rfl, calls, rfl, hfollows.waits _ _, hstore.waits hinv hfollows (hok.writable hcall) hwaiting hopen, hsized⟩
  | close call flushed hcall hwaiting hopen =>
    rw [hwaiting, Option.toList_none, List.append_nil] at hcalls
    subst hcalls
    have hsome : call.flushed?.isSome = true := by rw [hcall]; rfl
    exact Agrees.goOn hinv hsized (hstore.ended hinv hfollows hwaiting hopen flushed) hsome (hok.writable hsome)
  | resume call records hcall hwaiting hsignal hopen =>
    rw [hwaiting, Option.toList_some] at hcalls
    subst hcalls
    have hmode := hinv.threaded_of_open hopen
    obtain ⟨hwritable, file, hcurrent, hclosing⟩ := (store_waiting hmode hwaiting).1 hstore
    have hended := Store.resumed hmode hinv hfollows hcurrent hclosing hsignal true
    have hnext := Agrees.goOn hinv hsized hended hcall hwritable
    rwa [show sessionCalls [.resume] = [] from rfl, List.append_nil]
  | journal written journal hjournal =>
    have htrue : written = true := hok
    subst htrue
    refine ⟨rfl, returned, ?_, hfollows.waits _ _, hstore.journal hinv hjournal, hsized⟩
    rw [hcalls]
    exact List.append_nil _

/-- While its writes succeed, the session does what the recorder does. -/
theorem run_agrees (hrun : (CaptureSession.start config).run J actions = some s)
    (hok : Machine.Along (step J) WritesOk (CaptureSession.start config) actions) :
    Agrees J config (sessionCalls actions) s := by
  revert hok
  refine run_induction (I := fun actions s =>
    Machine.Along (CaptureSession.step J) WritesOk (CaptureSession.start config) actions → Agrees J config (sessionCalls actions) s) (fun _ => ?_) ?_ hrun
  · exact ⟨rfl, [], rfl, follows_start config, store_start config, fun _ hfile => by cases hfile⟩
  · intro actions s action s' hmid hinv ih hstep hok
    obtain ⟨hactions, hlast⟩ := (Machine.along_snoc _ _ _ hmid).1 hok
    rw [sessionCalls_snoc]
    exact (ih hactions).step hinv hlast hstep

end Run

end Recorder

end CryptoTrader
