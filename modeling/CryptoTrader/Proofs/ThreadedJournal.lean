import Mathlib.Data.List.ModifyLast
import CryptoTrader.Sanity.RecorderFiles

/-! A threaded journal against the inline one. A session in either mode follows the
recorder, so it is enough to compare two recorders over the same calls: one whose ring may
refuse a record, and one whose ring never does. Until the first refusal they are equal;
from then on the first stands still and the second only grows. -/

namespace CryptoTrader

open Journal CaptureSession

/-- The first is the second, cut short. -/
structure JournalFile.Begins (file whole : JournalFile) : Prop where
  path : file.path = whole.path
  header : file.header = whole.header
  records : file.records <+: whole.records

/-- File by file, the first list has beginnings of the second's. -/
def Behind (files wholes : List JournalFile) : Prop :=
  ∀ (k : ℕ) (file : JournalFile), files[k]? = some file → ∃ whole, wholes[k]? = some whole ∧ file.Begins whole

def JournalFile.wireRecords (file : JournalFile) : List JournalRecord := file.records.filter (·.type = .wireMessage)

/-- The records of the messages for which `OnWireMessage` returned true, connect by
connect. -/
def reportedRecords (results : List SessionResult) : List (List JournalRecord) :=
  results.foldl (fun reported result => match result with
    | .connected _ => reported ++ [[]]
    | .wire frame true => reported.modifyLast (· ++ [frame.record])
    | _ => reported) []

/-- The call promised that something is journaled. -/
def SessionResult.accepted : SessionResult → Bool
  | .connected _ => true
  | .wire _ journaled => journaled
  | _ => false

/-- After a wire message that was not journaled, nothing is. -/
def RefusesForGood (results : List SessionResult) : Prop :=
  ∀ before frame after, results = before ++ .wire frame false :: after → ∀ result ∈ after, result.accepted = false

section Files

variable {file whole : JournalFile} {files wholes : List JournalFile} {record : JournalRecord}

theorem JournalFile.Begins.refl (file : JournalFile) : file.Begins file := ⟨rfl, rfl, List.prefix_rfl⟩

theorem JournalFile.begins_append (file : JournalFile) (record : JournalRecord) : file.Begins (file.append record) :=
  ⟨rfl, rfl, List.prefix_append _ _⟩

theorem Behind.refl (files : List JournalFile) : Behind files files := fun _ file h => ⟨file, h, .refl file⟩

theorem Behind.trans {others : List JournalFile} (h : Behind files wholes) (h' : Behind wholes others) :
    Behind files others := by
  intro k file hfile
  obtain ⟨whole, hwhole, hbegins⟩ := h k file hfile
  obtain ⟨other, hother, hbegins'⟩ := h' k whole hwhole
  exact ⟨other, hother, hbegins.path.trans hbegins'.path, hbegins.header.trans hbegins'.header,
    hbegins.records.trans hbegins'.records⟩

theorem behind_append (files more : List JournalFile) : Behind files (files ++ more) := by
  intro k file hfile
  have hk : k < files.length := (List.getElem?_eq_some_iff.1 hfile).1
  exact ⟨file, by rw [List.getElem?_append_left hk, hfile], .refl file⟩

/-- The last file grows. -/
theorem behind_snoc (files : List JournalFile) (h : file.Begins whole) : Behind (files ++ [file]) (files ++ [whole]) := by
  intro k other hother
  rw [List.getElem?_append] at hother ⊢
  split_ifs at hother ⊢ with hk
  · exact ⟨other, hother, .refl other⟩
  · obtain ⟨hindex, rfl⟩ := List.getElem?_eq_some_iff.1 hother
    have hzero : k - files.length = 0 := by
      rw [List.length_singleton] at hindex
      omega
    simp only [hzero, List.getElem_cons_zero]
    exact ⟨whole, rfl, h⟩

theorem JournalFile.wireRecords_append (file : JournalFile) (frame : CaptureFrame) :
    (file.append frame.record).wireRecords = file.wireRecords ++ [frame.record] := by
  simp [JournalFile.append, JournalFile.wireRecords, List.filter_append, CaptureFrame.record]

end Files

section Results

variable {results : List SessionResult}

theorem reportedRecords_same (results : List SessionResult) {result : SessionResult} (h : result.accepted = false) :
    reportedRecords (results ++ [result]) = reportedRecords results := by
  rw [reportedRecords, List.foldl_concat]
  cases result with
  | wire frame journaled =>
    cases h
    rfl
  | connected path => cases h
  | connectFailed error => rfl
  | notOpen => rfl
  | closed => rfl

theorem reportedRecords_connected (results : List SessionResult) (path : Bytes) :
    reportedRecords (results ++ [.connected path]) = reportedRecords results ++ [[]] := by
  rw [reportedRecords, List.foldl_concat]
  rfl

theorem reportedRecords_wire (results : List SessionResult) (frame : CaptureFrame) :
    reportedRecords (results ++ [.wire frame true]) = (reportedRecords results).modifyLast (· ++ [frame.record]) := by
  rw [reportedRecords, List.foldl_concat]
  rfl

/-- One more result, which promises nothing or comes before any refusal. -/
theorem RefusesForGood.snoc (h : RefusesForGood results) {result : SessionResult}
    (hresult : result.accepted = false ∨ ∀ frame, .wire frame false ∉ results) :
    RefusesForGood (results ++ [result]) := by
  intro before frame after hsplit other hother
  rcases List.eq_nil_or_concat after with rfl | ⟨after, last, rfl⟩
  · cases hother
  · rw [List.concat_eq_append, ← List.cons_append, ← List.append_assoc] at hsplit
    obtain ⟨hresults, hlast⟩ := List.append_inj' hsplit rfl
    rw [List.concat_eq_append] at hother
    rcases List.mem_append.1 hother with hother | hother
    · exact h before frame after hresults other hother
    · rw [List.mem_singleton.1 hother, ← List.singleton_injective hlast]
      rcases hresult with hresult | hnone
      · exact hresult
      · exact absurd (by simp [hresults]) (hnone frame)

end Results

namespace Recorder

variable {J : JournalPlatform} {r r' : Recorder} {call : SessionCall}

section Kept

/-- The files have the wire records that the results report. -/
theorem reported_call (h : r.shelf.map JournalFile.wireRecords = reportedRecords r.results) (hdoes : Does J r call r') :
    r'.shelf.map JournalFile.wireRecords = reportedRecords r'.results := by
  have hsame : ∀ {t : Recorder} {result : SessionResult}, t.shelf = r.shelf → t.results = r.results ++ [result] →
      result.accepted = false → t.shelf.map JournalFile.wireRecords = reportedRecords t.results := by
    intro t result hshelf hresults hresult
    rw [hshelf, hresults, reportedRecords_same _ hresult, h]
  cases hdoes with
  | notOpen call hcurrent => exact hsame rfl rfl rfl
  | refused call file hcurrent hrefused => exact hsame rfl rfl rfl
  | closed flushed => exact hsame (endConnect_shelf r) rfl rfl
  | failed call error hcause => exact hsame (endConnect_shelf r) rfl rfl
  | taken call file hcurrent herror hroom =>
    rw [shelf_current hcurrent, List.map_append, List.map_singleton] at h
    rw [shelf_current rfl, List.map_append, List.map_singleton, JournalFile.wireRecords_append]
    change _ = reportedRecords (r.results ++ [_])
    rw [reportedRecords_wire, ← h, List.modifyLast_concat]
    rfl
  | connected call hcause =>
    rw [shelf_current rfl, List.map_append]
    change r.shelf.map _ ++ _ = reportedRecords (r.results ++ [_])
    rw [reportedRecords_connected, h]
    rfl

/-- The journal has failed exactly when some wire message was not journaled, and then for
good. -/
structure Refusals (r : Recorder) : Prop where
  error : r.error = none ↔ ∀ frame, .wire frame false ∉ r.results
  forGood : RefusesForGood r.results

theorem Refusals.after_call (h : r.Refusals) (hdoes : Does J r call r') : r'.Refusals := by
  have hsame : ∀ {t : Recorder} {result : SessionResult}, t.error = r.error → t.results = r.results ++ [result] →
      (∀ frame, result ≠ .wire frame false) → (result.accepted = false ∨ r.error = none) → t.Refusals := by
    intro t result herror hresults hwire hresult
    refine ⟨?_, ?_⟩
    · rw [herror, h.error, hresults]
      simp only [List.mem_append, List.mem_singleton, not_or]
      exact ⟨fun hnone frame => ⟨hnone frame, (hwire frame).symm⟩, fun hnone frame => (hnone frame).1⟩
    · rw [hresults]
      exact h.forGood.snoc (hresult.imp_right h.error.1)
  cases hdoes with
  | notOpen call hcurrent => exact hsame rfl rfl (by simp) (.inl rfl)
  | closed flushed => exact hsame rfl rfl (by simp) (.inl rfl)
  | failed call error hcause => exact hsame rfl rfl (by simp) (.inl rfl)
  | taken call file hcurrent herror hroom => exact hsame rfl rfl (by simp) (.inr herror)
  | connected call hcause => exact hsame rfl rfl (by simp) (.inr (opened_of_connectFailure hcause).1)
  | refused call file hcurrent hrefused =>
    refine ⟨⟨fun herror => ?_, fun hnone => ?_⟩, h.forGood.snoc (.inl rfl)⟩
    · have hsome : r.error.or (some (JournalThread.overflowText r.config.ringCapacity)) = none := herror
      rw [Option.or_eq_none_iff] at hsome
      cases hsome.2
    · exact absurd (List.mem_append_right _ (List.mem_singleton.2 rfl)) (hnone (r.wireFrame call))

end Kept

section Compare

/-- A recorder's files only grow, and a call with a `Close` in it closes the last. -/
theorem grows (hdoes : Does J r call r') :
    Behind r.files r'.files ∧ Behind r.shelf r'.shelf ∧ (call.flushed?.isSome = true → Behind r.shelf r'.files) := by
  cases hdoes with
  | notOpen call hcurrent => exact ⟨.refl _, .refl _, by rintro ⟨⟩⟩
  | refused call file hcurrent hrefused => exact ⟨.refl _, .refl _, by rintro ⟨⟩⟩
  | closed flushed =>
    refine ⟨behind_append _ _, ?_, fun _ => .refl _⟩
    exact (congrArg (Behind r.shelf) (endConnect_shelf r)).mpr (.refl _)
  | failed call error hcause =>
    refine ⟨behind_append _ _, ?_, fun _ => .refl _⟩
    exact (congrArg (Behind r.shelf) (endConnect_shelf r)).mpr (.refl _)
  | taken call file hcurrent herror hroom =>
    refine ⟨.refl _, ?_, by rintro ⟨⟩⟩
    rw [shelf_current hcurrent, shelf_current rfl]
    exact behind_snoc _ (file.begins_append _)
  | connected call hcause => exact ⟨behind_append _ _, behind_append _ _, fun _ => .refl _⟩

/-- Once the journal has failed, its files stand still. -/
theorem stands_still (hdoes : Does J r call r') (herror : r'.error ≠ none) :
    r'.shelf = r.shelf ∧ (r'.files = r.files ∨ call.flushed?.isSome = true ∧ r'.files = r.shelf) := by
  cases hdoes with
  | notOpen call hcurrent => exact ⟨rfl, .inl rfl⟩
  | refused call file hcurrent hrefused => exact ⟨rfl, .inl rfl⟩
  | closed flushed => exact ⟨endConnect_shelf r, .inr ⟨rfl, rfl⟩⟩
  | failed call error hcause => exact ⟨endConnect_shelf r, .inr ⟨rfl, rfl⟩⟩
  | taken call file hcurrent hnone hroom => exact absurd hnone herror
  | connected call hcause => exact absurd (opened_of_connectFailure hcause).1 herror

/-- A call that leaves the journal whole found room, if it needed any. -/
theorem withRoom_of_whole (herror : (r.call J call).error = none) :
    r.error = none ∧ r.call J call.withRoom = r.call J call := by
  have hdoes := call_does J r call
  generalize hr : r.call J call = r' at hdoes herror
  cases hdoes with
  | notOpen call hcurrent => exact ⟨herror, onWireMessage_notOpen hcurrent⟩
  | taken call file hcurrent hnone hroom => exact ⟨hnone, onWireMessage_taken hcurrent hnone rfl⟩
  | closed flushed => exact ⟨herror, hr⟩
  | failed call error hcause => exact ⟨herror, hr⟩
  | connected call hcause => exact ⟨herror, hr⟩
  | refused call file hcurrent hrefused =>
    have hsome : r.error.or (some (JournalThread.overflowText r.config.ringCapacity)) = none := herror
    rw [Option.or_eq_none_iff] at hsome
    cases hsome.2

variable (config : SessionConfig) (calls : List SessionCall)

theorem run_whole (herror : ((Recorder.start config).run J calls).error = none) :
    (Recorder.start config).run J (calls.map SessionCall.withRoom) = (Recorder.start config).run J calls := by
  induction calls using List.reverseRecOn with
  | nil => rfl
  | append_singleton calls call ih =>
    rw [run_snoc] at herror
    obtain ⟨hbefore, hcall⟩ := withRoom_of_whole herror
    rw [List.map_append, List.map_singleton, run_snoc, run_snoc, ih hbefore, hcall]

/-- A recorder whose ring may refuse is behind the one whose ring does not. -/
theorem run_behind :
    Behind ((Recorder.start config).run J calls).files
        ((Recorder.start config).run J (calls.map SessionCall.withRoom)).files ∧
      Behind ((Recorder.start config).run J calls).shelf
        ((Recorder.start config).run J (calls.map SessionCall.withRoom)).shelf := by
  induction calls using List.reverseRecOn with
  | nil => exact ⟨.refl _, .refl _⟩
  | append_singleton calls call ih =>
    by_cases herror : ((Recorder.start config).run J (calls ++ [call])).error = none
    · rw [run_whole config _ herror]
      exact ⟨.refl _, .refl _⟩
    · rw [run_snoc] at herror ⊢
      rw [List.map_append, List.map_singleton, run_snoc]
      obtain ⟨hfiles, hshelf⟩ := ih
      obtain ⟨hsame, hclosed⟩ := stands_still (call_does J _ call) herror
      obtain ⟨hgrows, hgrows', hends⟩ := grows
        (call_does J ((Recorder.start config).run J (calls.map SessionCall.withRoom)) call.withRoom)
      refine ⟨?_, ?_⟩
      · rcases hclosed with hkept | ⟨hcall, hended⟩
        · rw [hkept]
          exact hfiles.trans hgrows
        · rw [hended]
          refine hshelf.trans (hends ?_)
          cases call with
          | onWireMessage wire => cases hcall
          | beginConnect connect => rfl
          | close flushed => rfl
      · rw [hsame]
        exact hshelf.trans hgrows'

theorem run_reported : ((Recorder.start config).run J calls).shelf.map JournalFile.wireRecords =
    reportedRecords ((Recorder.start config).run J calls).results :=
  calls_induction (I := fun _ r => r.shelf.map JournalFile.wireRecords = reportedRecords r.results) rfl
    (fun _ _ _ _ _ h hdoes => reported_call h hdoes) calls

theorem run_refusals : ((Recorder.start config).run J calls).Refusals := by
  refine calls_induction (I := fun _ r => r.Refusals) ⟨⟨fun _ => by simp [Recorder.start], fun _ => rfl⟩, ?_⟩ ?_ calls
  · intro before frame after hsplit
    cases before <;> cases hsplit
  · intro calls r call r' _ h hdoes
    exact h.after_call hdoes

end Compare

end Recorder

namespace CaptureSession

variable {J : JournalPlatform} {config : SessionConfig} {s : CaptureSession}

/-- Nothing holds up a call in inline mode. -/
theorem inline_run (hmode : s.config.journalMode = .inline) (hinv : s.ModeInv) (calls : List SessionCall) :
    ∃ t, s.run J (calls.map .call) = some t ∧ t.waiting = none := by
  have hnone : ∀ s : CaptureSession, s.config.journalMode = .inline → s.ModeInv → s.waiting = none := by
    intro s hmode hinv
    cases hwaiting : s.waiting with
    | none => rfl
    | some call =>
      have hopen := (hinv.waiting call hwaiting).2
      rw [(hinv.inline hmode).1] at hopen
      cases hopen
  induction calls generalizing s with
  | nil => exact ⟨s, rfl, hnone s hmode hinv⟩
  | cons call calls ih =>
    obtain ⟨s', hs'⟩ : ∃ s', s.step J (.call call) = some s' := by
      simp only [step, hnone s hmode hinv, Option.isSome_none, Bool.false_eq_true, if_false]
      cases call <;> exact ⟨_, rfl⟩
    have hstep := step_inversion hinv hs'
    obtain ⟨t, hrun, ht⟩ := ih (by rw [hstep.config]; exact hmode) (hinv.step hstep)
    refine ⟨t, ?_, ht⟩
    rw [List.map_cons, run, Machine.run, hs']
    exact hrun

theorem sessionCalls_map (calls : List SessionCall) : sessionCalls (calls.map .call) = calls := by
  induction calls with
  | nil => rfl
  | cons call calls ih => exact congrArg (call :: ·) ih

theorem after_threaded (calls : List SessionCall) :
    Recorder.after J { config with journalMode := .threaded } calls = (Recorder.start config).run J calls := by
  have hsame : calls.map (SessionConfig.recorderCall { config with journalMode := .threaded }) = calls :=
    List.map_id calls
  rw [Recorder.after, hsame]
  rfl

/-- The journal thread always gets to the barrier, and the call that waits for it returns. -/
theorem waiting_returns {call : SessionCall} {before : List JournalFile} {file : JournalFile} {error : Option Bytes}
    (hinv : s.ModeInv) (hwaiting : s.waiting = some call) (hclosing : s.journal.Closing before file error) :
    ∃ s', Machine.Reaches (step J) (fun action => action = .journal true ∨ action = .resume) s s' ∧
      s'.waiting = none := by
  induction hlength : s.journal.ring.queue.length generalizing s with
  | zero =>
    have hqueue := List.length_eq_zero_iff.1 hlength
    obtain ⟨records, hsignal⟩ : ∃ records, s.journal.signal = some records := by
      rcases hclosing.barrier with ⟨-, hsignal⟩ | ⟨-, pending, hpending, -⟩
      · exact ⟨_, hsignal⟩
      · rw [hqueue] at hpending
        simp at hpending
    obtain ⟨s', hs'⟩ : ∃ s', s.step J .resume = some s' := by
      simp only [step, hwaiting, hsignal]
      exact ⟨_, rfl⟩
    refine ⟨s', .single (.inr rfl) hs', ?_⟩
    cases step_inversion hinv hs' with
    | resume call records hcall hw hs hopen => exact (s.ended_quiet true records).goOn_waiting call
  | succ length ih =>
    obtain ⟨event, rest, hqueue⟩ := List.exists_cons_of_length_eq_add_one hlength
    obtain ⟨journal, hjournal⟩ : ∃ journal, s.journal.step true = some journal := by
      simp only [JournalThread.step, SpscRing.pop, hqueue]
      exact ⟨_, rfl⟩
    have hstep : s.step J (.journal true) = some { s with journal } := by
      simp only [step, hjournal, Option.map_some]
    obtain ⟨event', rest', hhandles⟩ := hclosing.admits.step hjournal
    have hshorter : journal.ring.queue.length = length := by
      have hsame := hhandles.queue
      rw [hqueue] at hsame
      rw [hqueue, List.length_cons] at hlength
      rw [hhandles.ring, ← (List.cons.inj hsame).2]
      exact Nat.succ.inj hlength
    obtain ⟨s', hreaches, hdone⟩ :=
      ih (s := { s with journal }) (hinv.step (step_inversion hinv hstep)) hwaiting (hclosing.step hjournal) hshorter
    exact ⟨s', (Machine.Reaches.single (.inl rfl) hstep).trans hreaches, hdone⟩

theorem close_returns {actions : List SessionAction} (hrun : (start config).run J actions = some s)
    (hok : Machine.Along (step J) WritesOk (start config) actions) :
    ∃ s', Machine.Reaches (step J) (fun action => action = .journal true ∨ action = .resume) s s' ∧
      s'.waiting = none := by
  cases hwaiting : s.waiting with
  | none => exact ⟨s, .refl s, hwaiting⟩
  | some call =>
    obtain ⟨-, returned, -, -, hstore, -⟩ := Recorder.run_agrees hrun hok
    have hinv := run_mode hrun
    have hmode := hinv.threaded_of_open (hinv.waiting call hwaiting).2
    obtain ⟨-, file, -, hclosing⟩ := (Recorder.store_waiting hmode hwaiting).1 hstore
    exact waiting_returns hinv hwaiting hclosing

/-- What a threaded session that has closed its files has done, against an inline one. -/
structure RefinesInline (s t : CaptureSession) : Prop where
  behind : Behind s.files t.files
  whole : s.journal.ring.dropped = 0 → s.files = t.files
  reported : s.files.map JournalFile.wireRecords = reportedRecords s.results
  numbered : ∀ file ∈ s.files, file.Numbered
  refused : s.journal.ring.dropped = 0 ↔ ∀ frame, .wire frame false ∉ s.results
  forGood : RefusesForGood s.results
  total : s.totalRecordsWritten = (s.files.map (·.records.length)).sum

end CaptureSession

/-- A session in threaded mode that has closed its files, after any interleaving with its
journal thread and any refusals of the ring, against the session in inline mode over the
same calls, while the writes of both succeed. -/
theorem threaded_journal_refines_inline (J : JournalPlatform) (config : SessionConfig) (actions : List SessionAction)
    (s : CaptureSession) (hrun : (start { config with journalMode := .threaded }).run J actions = some s)
    (hok : Machine.Along (step J) WritesOk (start { config with journalMode := .threaded }) actions)
    (hinline : Machine.Along (step J) WritesOk (start { config with journalMode := .inline })
      ((sessionCalls actions).map .call))
    (hwaiting : s.waiting = none) (hclosed : s.journalOpen = false) :
    ∃ t, (start { config with journalMode := .inline }).run J ((sessionCalls actions).map .call) = some t ∧
      s.RefinesInline t := by
  obtain ⟨t, ht, htwaiting⟩ := inline_run (J := J) (s := start { config with journalMode := .inline }) rfl
    (ModeInv.start _) (sessionCalls actions)
  refine ⟨t, ht, ?_⟩
  obtain ⟨hsettings, returned, hreturned, hfollows, hstore, -⟩ := Recorder.run_agrees hrun hok
  obtain ⟨htsettings, treturned, htreturned, -, htstore, -⟩ := Recorder.run_agrees ht hinline
  rw [hwaiting, Option.toList_none, List.append_nil] at hreturned
  rw [htwaiting, Option.toList_none, List.append_nil, sessionCalls_map] at htreturned
  subst hreturned htreturned
  have hmode : s.config.journalMode = .threaded := by rw [hsettings]
  have htmode : t.config.journalMode = .inline := by rw [htsettings]
  have hinv := run_mode hrun
  have hcurrent := hfollows.current_none ((hinv.threaded hmode).2.symm.trans hclosed)
  obtain ⟨hfiles, htotal, hdropped⟩ := hstore.quiet hinv hfollows hwaiting hcurrent
  have htfiles : t.files = ((Recorder.start config).run J ((sessionCalls actions).map SessionCall.withRoom)).files := by
    rw [files, htmode]
    exact ((Recorder.store_inline htmode).1 htstore).2.1
  rw [after_threaded] at hcurrent hfiles htotal hdropped hfollows
  have hshelf : ((Recorder.start config).run J (sessionCalls actions)).shelf = s.files := by
    rw [Recorder.shelf_closed hcurrent, hfiles]
  have hrefusals := Recorder.run_refusals (J := J) config (sessionCalls actions)
  have hreported := Recorder.run_reported (J := J) config (sessionCalls actions)
  rw [← hfollows.results] at hreported
  refine ⟨?_, fun hnone => ?_, ?_, ?_, ?_, ?_, ?_⟩
  · rw [hfiles, htfiles]
    exact (Recorder.run_behind config (sessionCalls actions)).1
  · rw [hfiles, htfiles, Recorder.run_whole config _ (hdropped.1 hnone)]
  · rw [← hshelf]
    exact hreported
  · rw [← hshelf]
    exact (Recorder.run_wellNumbered config (sessionCalls actions)).numbered
  · rw [hdropped, hrefusals.error, hfollows.results]
  · rw [hfollows.results]
    exact hrefusals.forGood
  · rw [htotal, hfiles]

/-- A connect whose second wire message finds the ring full. Its file is closed by the next
connect, which then fails. -/
def refusingActions : List SessionAction :=
  [.call (.beginConnect firstConnect), .call (.onWireMessage firstWire), .journal true,
    .call (.onWireMessage { firstWire with room := false }), .call (.beginConnect firstConnect), .journal true,
    .journal true, .resume]

theorem refusing_journal_refines_inline :
    ∃ s t, (start { journalMode := .threaded }).run blankJournal refusingActions = some s ∧
      (start { journalMode := .inline }).run blankJournal ((sessionCalls refusingActions).map .call) = some t ∧
      s.journal.ring.dropped = 1 ∧ s.RefinesInline t := by
  have hok : ∀ action ∈ refusingActions, ∀ s : CaptureSession, s.WritesOk action := by
    intro action haction s
    simp only [refusingActions, List.mem_cons, List.not_mem_nil, or_false] at haction
    rcases haction with rfl | rfl | rfl | rfl | rfl | rfl | rfl | rfl
    · exact ⟨rfl, fun _ _ => ⟨by decide, rfl⟩⟩
    · exact fun _ _ => ⟨by decide, rfl⟩
    · rfl
    · exact fun _ _ => ⟨by decide, rfl⟩
    · exact ⟨rfl, fun _ _ => ⟨by decide, rfl⟩⟩
    · rfl
    · rfl
    · trivial
  have hinline : ∀ action ∈ (sessionCalls refusingActions).map SessionAction.call, ∀ s : CaptureSession,
      s.WritesOk action := by
    intro action haction
    obtain ⟨call, hcall, rfl⟩ := List.mem_map.1 haction
    obtain ⟨action, haction, hsome⟩ := List.mem_filterMap.1 hcall
    cases action with
    | call call' =>
      cases hsome
      exact hok _ haction
    | resume => cases hsome
    | journal written => cases hsome
  obtain ⟨t, ht, hrefines⟩ := threaded_journal_refines_inline blankJournal {} refusingActions _ rfl
    (Machine.along_of_forall _ hok _) (Machine.along_of_forall _ hinline _) rfl rfl
  exact ⟨_, t, rfl, ht, rfl, hrefines⟩

end CryptoTrader
