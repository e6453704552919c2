import CryptoTrader.Spec.JournalReplay
import CryptoTrader.Sanity.Journal
import CryptoTrader.Sanity.JournalNames
import CryptoTrader.Proofs.AdapterReady

/-! Recording and replaying. The files of a session whose writes all succeed say what its
sinks were told, less the disconnects; the reader gets them back from the bytes; and the
replay puts the disconnects where they were. So the replay's adapter and one that listened
to the session end alike. -/

namespace CryptoTrader

open Journal CaptureSession

/-- A file of a session whose exchange has a book, as its records and header have to be
for the replay. -/
structure JournalFile.Replayable (file : JournalFile) (exchange : Bytes) : Prop where
  exchange_eq : file.header.exchange = exchange
  connectId : file.header.connectId < 2 ^ 64
  sized : ∀ record ∈ file.records, record.payload.length ≤ kMaxPayloadBytes
  marker : ∃ marker rest, file.records = marker :: rest ∧ marker.type = .connect ∧
    ∀ record ∈ rest, record.type = .wireMessage

/-- The path of a file that was written, with what is there. -/
def JournalFile.written (J : JournalPlatform) (file : JournalFile) : JournalPath := ⟨file.path, some (file.content J)⟩

theorem fitsField_of_source {exchange : Bytes} {source : FrameSource} (h : sourceForExchange exchange = some source) :
    FitsField exchange ∧ exchange ≠ [] := by
  unfold sourceForExchange at h
  split_ifs at h with hkraken hderibit
  · subst hkraken
    exact ⟨⟨by decide, by decide⟩, by decide⟩
  · subst hderibit
    exact ⟨⟨by decide, by decide⟩, by decide⟩

namespace JournalReplay

variable {N D : Type} {P : Platform N D} {J : JournalPlatform} {progress : Progress} {conn : Connection}
  {exchange : Bytes} {source : FrameSource} {file : JournalFile}

theorem onRecord_frames (connectId : ℕ) {records : List JournalRecord}
    (hwire : ∀ record ∈ records, record.type = .wireMessage) (hadapter : progress.adapter = ⟨[conn]⟩) :
    records.foldl (onRecord P connectId) progress =
      { progress with adapter := ⟨[conn.run P (records.map fun record => .onFrame record.payload)]⟩ } := by
  induction records generalizing progress conn with
  | nil =>
    rw [List.foldl_nil, List.map_nil, Connection.run, List.foldl_nil, ← hadapter]
  | cons record records ih =>
    have hrecord : onRecord P connectId progress record =
        { progress with adapter := ⟨[conn.call P (.onFrame record.payload)]⟩ } := by
      rw [onRecord, hwire record List.mem_cons_self, hadapter]
      rfl
    rw [List.foldl_cons, hrecord, ih (fun other hother => hwire other (List.mem_cons_of_mem _ hother)) rfl]
    rfl

/-- The records of a file, once the connect before it has ended. -/
theorem onRecord_file (hfile : file.Replayable exchange) (hends : progress.disconnected P = ⟨[conn]⟩) :
    (file.records.map JournalRecord.onDisk).foldl (onRecord P file.header.connectId) progress =
      { progress with adapter := ⟨[conn.run P file.calls]⟩, openConnectId := some file.header.connectId } := by
  obtain ⟨marker, rest, hrecords, hmarker, hrest⟩ := hfile.marker
  have hopened : onRecord P file.header.connectId progress marker.onDisk =
      { progress with
        adapter := ⟨[conn.call P (.onConnect file.header.connectId)]⟩
        openConnectId := some file.header.connectId } := by
    have htype : marker.onDisk.type = .connect := hmarker
    rw [onRecord, htype, hends]
    rfl
  have hwire : ∀ record ∈ rest.map JournalRecord.onDisk, record.type = .wireMessage := by
    intro record hrecord
    obtain ⟨other, hother, rfl⟩ := List.mem_map.1 hrecord
    exact hrest other hother
  have hcalls : file.calls = .onConnect file.header.connectId ::
      (rest.map JournalRecord.onDisk).map fun record => .onFrame record.payload := by
    rw [JournalFile.calls, hrecords, List.map_cons, hmarker, List.map_map]
    congr 1
    refine List.map_congr_left fun record hrecord => ?_
    rw [hrest record hrecord]
    rfl
  rw [hrecords, List.map_cons, List.foldl_cons, hopened, onRecord_frames _ hwire rfl, hcalls]
  rfl

/-- The replay has a connection, and no file so far was damaged. -/
structure Under (P : Platform N D) (exchange : Bytes) (conn : Connection) (progress : Progress) : Prop where
  exchange_eq : progress.exchange = exchange
  ends : progress.disconnected P = ⟨[conn]⟩
  whole : progress.report.stoppedEarly = false

/-- The replay of a file, once the exchange is settled. -/
theorem replayFile_under (options : ReplayOptions) (progress : Progress)
    (hsource : sourceForExchange exchange = some source) (hfile : file.Replayable exchange) {settled : Progress}
    (hsettled : checkExchange options file.path exchange source progress = .ok settled)
    (hunder : Under P exchange conn settled) :
    ∃ next, replayFile P J options progress (file.written J) = .ok next ∧
      Under P exchange (conn.run P file.closedCalls) next := by
  have hfits := (fitsField_of_source hsource).1
  rw [← hfile.exchange_eq] at hfits hsource hsettled
  obtain ⟨reader, hopen, hheader, hread⟩ := read_content J hfits hfile.sized
  have hexchange : reader.header.exchange = file.header.exchange := by rw [hheader]; rfl
  have hid : reader.header.connectId = file.header.connectId := by
    rw [hheader]
    exact Nat.mod_eq_of_lt hfile.connectId
  simp only [replayFile, JournalFile.written, hopen, hexchange, hsource, hsettled, hread, hid,
    onRecord_file hfile hunder.ends]
  refine ⟨_, rfl, hunder.exchange_eq, ?_, ?_⟩
  · rw [JournalFile.closedCalls, Connection.run_snoc]
    rfl
  · have hwhole := hunder.whole
    simp only [ReplayReport.stoppedEarly, List.any_append, Bool.or_eq_false_iff] at hwhole ⊢
    exact ⟨hwhole, rfl⟩

theorem replayFiles_under (options : ReplayOptions) (hsource : sourceForExchange exchange = some source)
    {files : List JournalFile}
    (hfiles : ∀ file ∈ files, file.Replayable exchange) (hunder : Under P exchange conn progress) :
    ∃ next, replayFiles P J options progress (files.map (·.written J)) = .ok next ∧
      Under P exchange (conn.run P (files.flatMap JournalFile.closedCalls)) next := by
  induction files generalizing progress conn with
  | nil => exact ⟨progress, rfl, hunder⟩
  | cons file files ih =>
    have hne := (fitsField_of_source hsource).2
    have hsettled : checkExchange options file.path exchange source progress = .ok progress := by
      simp only [checkExchange, hunder.exchange_eq, if_neg hne, ne_eq, not_true_eq_false, if_false]
    obtain ⟨next, hnext, hunder'⟩ := replayFile_under (J := J) options progress hsource
      (hfiles file List.mem_cons_self) hsettled hunder
    obtain ⟨last, hlast, hunder''⟩ := ih (fun other hother => hfiles other (List.mem_cons_of_mem _ hother)) hunder'
    refine ⟨last, ?_, ?_⟩
    · rw [List.map_cons, replayFiles, hnext]
      exact hlast
    · rw [List.flatMap_cons, Connection.run_append]
      exact hunder''

/-- The replay of a session's files ends where the calls they stand for lead. -/
theorem run_files (replay : JournalReplay) (hsource : sourceForExchange exchange = some source)
    {files : List JournalFile} (hne : files ≠ []) (hfiles : ∀ file ∈ files, file.Replayable exchange) :
    let conn := (Connection.add ⟨source, replay.options.scale, replay.options.krakenDepth⟩).run P
      (files.flatMap JournalFile.closedCalls)
    let replayed := replay.run P J (files.map (·.written J))
    replayed.1.adapter = ⟨[conn]⟩ ∧
      ∃ report, replayed.2 = .ok report ∧ report.stoppedEarly = false ∧ report.stats = conn.stats := by
  obtain ⟨file, files, rfl⟩ := List.exists_cons_of_ne_nil hne
  have hstart : Under P exchange (.add ⟨source, replay.options.scale, replay.options.krakenDepth⟩)
      { adapter := ({} : BookAdapter).addConnection ⟨source, replay.options.scale, replay.options.krakenDepth⟩
        exchange } := ⟨rfl, rfl, rfl⟩
  obtain ⟨next, hnext, hunder⟩ := replayFile_under (J := J) replay.options {} hsource
    (hfiles file List.mem_cons_self) rfl hstart
  obtain ⟨last, hlast, hends⟩ := replayFiles_under (J := J) replay.options hsource
    (fun other hother => hfiles other (List.mem_cons_of_mem _ hother)) hunder
  have hrun : replayFiles P J replay.options {} ((file :: files).map (·.written J)) = .ok last := by
    rw [List.map_cons, replayFiles, hnext]
    exact hlast
  simp only [run, List.map_cons, List.cons_ne_nil, if_false]
  rw [← List.map_cons (f := fun file : JournalFile => file.written J), hrun]
  simp only [hends.ends]
  rw [List.flatMap_cons, Connection.run_append]
  exact ⟨rfl, _, rfl, hends.whole, rfl⟩

end JournalReplay

namespace CaptureSession

variable {J : JournalPlatform} {config : SessionConfig} {actions : List SessionAction} {s : CaptureSession}

/-- What the files of a session say that has closed them all and lost nothing. -/
structure Recorded (s : CaptureSession) (exchange : Bytes) : Prop where
  replayable : ∀ file ∈ s.files, file.Replayable exchange
  calls : s.sinkCalls.map FeedEvent.adapterCall = s.files.flatMap JournalFile.closedCalls
  hasFile : ∀ path, .connected path ∈ s.results → s.files ≠ []

/-- The recorder of a session that ends with a `Close` has closed its files, and they are
the session's. -/
theorem closed_recorder (hrun : (start config).run J actions = some s)
    (hok : Machine.Along (step J) WritesOk (start config) actions)
    (hclose : ∃ before flushed, sessionCalls actions = before ++ [.close flushed]) (hwaiting : s.waiting = none) :
    let r := Recorder.after J config (sessionCalls actions)
    r.Follows s ∧ r.Sized ∧ r.current = none ∧ s.files = r.files ∧ (s.journal.ring.dropped = 0 ↔ r.error = none) := by
  obtain ⟨-, returned, hreturned, hfollows, hstore, hsized⟩ := Recorder.run_agrees hrun hok
  rw [hwaiting, Option.toList_none, List.append_nil] at hreturned
  subst hreturned
  have hcurrent : (Recorder.after J config (sessionCalls actions)).current = none := by
    obtain ⟨before, flushed, hcalls⟩ := hclose
    rw [hcalls, Recorder.after_snoc, Recorder.recorderCall_eq config rfl]
    rfl
  obtain ⟨hfiles, -, hdropped⟩ := hstore.quiet (run_mode hrun) hfollows hwaiting hcurrent
  exact ⟨hfollows, hsized, hcurrent, hfiles, hdropped⟩

theorem run_recorded (hrun : (start config).run J actions = some s)
    (hok : Machine.Along (step J) WritesOk (start config) actions) (hpushed : s.journal.ring.dropped = 0)
    (hclose : ∃ before flushed, sessionCalls actions = before ++ [.close flushed]) (hwaiting : s.waiting = none) :
    s.Recorded config.exchange := by
  obtain ⟨hfollows, hsized, hcurrent, hfiles, hdropped⟩ := closed_recorder hrun hok hclose hwaiting
  have hheaded : (Recorder.after J config (sessionCalls actions)).WellHeaded := Recorder.run_wellHeaded config _
  have hnumbered : (Recorder.after J config (sessionCalls actions)).WellNumbered := Recorder.run_wellNumbered config _
  have hmirrors : (Recorder.after J config (sessionCalls actions)).Mirrors := Recorder.run_mirrors config _
  have hhasFile : (Recorder.after J config (sessionCalls actions)).HasFile := Recorder.run_hasFile config _
  have hshelf := Recorder.shelf_closed hcurrent
  refine ⟨fun file hfile => ?_, ?_, fun path hpath => ?_⟩
  · rw [hfiles, ← hshelf] at hfile
    refine ⟨?_, hheaded.connectId file hfile, hsized file hfile, (hnumbered.numbered file hfile).marker⟩
    rw [hheaded.exchange file hfile, Recorder.after, Recorder.run_config]
    rfl
  · have hcalls := hmirrors (hdropped.1 hpushed)
    rw [hcurrent, Option.toList_none, List.flatMap_nil, List.append_nil] at hcalls
    rw [hfollows.sinkCalls, hfiles, hcalls]
  · rw [hfollows.results] at hpath
    rw [hfiles, ← hshelf]
    exact hhasFile path hpath

/-- The files are at different paths, so none of them overwrote another. -/
theorem written_paths_nodup (hrun : (start config).run J actions = some s)
    (hok : Machine.Along (step J) WritesOk (start config) actions)
    (hclose : ∃ before flushed, sessionCalls actions = before ++ [.close flushed]) (hwaiting : s.waiting = none)
    (hids : (sessionCalls actions).countP (·.isConnect) < kIdModulus) : (s.files.map (·.path)).Nodup := by
  obtain ⟨-, -, hcurrent, hfiles, -⟩ := closed_recorder hrun hok hclose hwaiting
  have hsame : ((sessionCalls actions).map config.recorderCall).countP (·.isConnect) =
      (sessionCalls actions).countP (·.isConnect) := by
    rw [List.countP_map]
    exact List.countP_congr fun call _ => by simp [Recorder.recorderCall_isConnect]
  have hnamed := Recorder.run_named (J := J) config _ (Nat.lt_of_le_of_lt (Nat.le_of_eq hsame) hids)
  rw [hfiles, ← Recorder.shelf_closed hcurrent]
  exact hnamed.paths_nodup

end CaptureSession

/-- A session of either mode with a tag that has a book, at least one of whose connects got a
file, none of whose journal writes and pushes failed, and that ends with a `Close`. The
replay of its files, in order, leaves its adapter as one that was handed every call on the
session's sinks, whichever connects failed to get a file on the way. -/
theorem replay_restores_live_books {N D : Type} (P : Platform N D) (J : JournalPlatform) (config : SessionConfig)
    (actions : List SessionAction) (s : CaptureSession) (replay : JournalReplay) (source : FrameSource)
    (hsource : sourceForExchange config.exchange = some source) (hrun : (start config).run J actions = some s)
    (hconnected : ∃ path, .connected path ∈ s.results)
    (hok : Machine.Along (step J) WritesOk (start config) actions) (hpushed : s.journal.ring.dropped = 0)
    (hclose : ∃ before flushed, sessionCalls actions = before ++ [.close flushed]) (hwaiting : s.waiting = none) :
    let live := (({} : BookAdapter).addConnection ⟨source, replay.options.scale, replay.options.krakenDepth⟩).run P
      (s.sinkCalls.map fun event => (0, event.adapterCall))
    let replayed := replay.run P J (s.files.map (·.written J))
    replayed.1.adapter = live ∧ ∃ report, replayed.2 = .ok report ∧ report.stoppedEarly = false ∧
      live.connections.map (·.stats) = [report.stats] := by
  obtain ⟨hreplayable, hcalls, hhasFile⟩ := run_recorded hrun hok hpushed hclose hwaiting
  obtain ⟨path, hpath⟩ := hconnected
  obtain ⟨hadapter, report, hreport, hwhole, hstats⟩ :=
    JournalReplay.run_files (P := P) (J := J) replay hsource (hhasFile path hpath) hreplayable
  have hlive : (({} : BookAdapter).addConnection ⟨source, replay.options.scale, replay.options.krakenDepth⟩).run P
      (s.sinkCalls.map fun event => (0, event.adapterCall)) =
        ⟨[(Connection.add ⟨source, replay.options.scale, replay.options.krakenDepth⟩).run P
          (s.files.flatMap JournalFile.closedCalls)]⟩ := by
    rw [← hcalls, ← BookAdapter.run_alone, List.map_map]
    rfl
  simp only [hlive]
  exact ⟨hadapter, report, hreport, hwhole, congrArg (fun stats => [stats]) hstats.symm⟩

/-- A connect that gets no file, and then one that does, with a frame, in threaded mode. -/
def recordedActions : List SessionAction :=
  [.call (.beginConnect { firstConnect with outcome := .cannotOpen }), .call (.beginConnect firstConnect),
    .call (.onWireMessage firstWire), .journal true, .call (.close true), .journal true, .journal true, .resume]

theorem recorded_session_replays :
    ∃ s report, (start { journalMode := .threaded }).run blankJournal recordedActions = some s ∧ s.files.length = 1 ∧
      ((⟨{ scale := ⟨0, 0⟩ }, {}⟩ : JournalReplay).run tinyPlatform blankJournal
        (s.files.map (·.written blankJournal))).2 = .ok report ∧
      report.stoppedEarly = false ∧ report.stats.frames = 1 ∧ report.stats.connects = 1 := by
  have hok : ∀ action ∈ recordedActions, ∀ s : CaptureSession, s.WritesOk action := by
    intro action haction s
    simp only [recordedActions, List.mem_cons, List.not_mem_nil, or_false] at haction
    rcases haction with rfl | rfl | rfl | rfl | rfl | rfl | rfl | rfl
    · exact ⟨rfl, fun _ h => by cases h⟩
    · exact ⟨rfl, fun _ _ => ⟨by decide, rfl⟩⟩
    · exact fun _ _ => ⟨by decide, rfl⟩
    · rfl
    · exact ⟨rfl, trivial⟩
    · rfl
    · rfl
    · trivial
  have hclose : ∃ before flushed, sessionCalls recordedActions = before ++ [.close flushed] :=
    ⟨(sessionCalls recordedActions).dropLast, true, rfl⟩
  obtain ⟨-, report, hreport, hwhole, hstats⟩ := replay_restores_live_books tinyPlatform blankJournal
    { journalMode := .threaded } recordedActions _ ⟨{ scale := ⟨0, 0⟩ }, {}⟩ .krakenJson (by decide) rfl
    ⟨_, List.mem_cons_of_mem _ List.mem_cons_self⟩ (Machine.along_of_forall _ hok _) rfl hclose rfl
  have hcounters := List.singleton_injective hstats
  exact ⟨_, report, rfl, rfl, hreport, hwhole, by rw [← hcounters]; decide +kernel, by rw [← hcounters]; decide +kernel⟩

end CryptoTrader
