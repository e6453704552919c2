import CryptoTrader.Spec.Adapter
import CryptoTrader.Sanity.Recorder

/-! The recorder's files, whatever it was called for: how they are numbered, and what they
have of what the sinks were told. -/

namespace CryptoTrader

open Journal CaptureSession

/-- Sequence numbers from one, without gaps; a marker, and nothing but wire messages
after it. -/
structure JournalFile.Numbered (file : JournalFile) : Prop where
  sequences : file.records.map (·.captureSequence) = List.range' 1 file.records.length
  marker : ∃ marker rest, file.records = marker :: rest ∧ marker.type = .connect ∧
    ∀ record ∈ rest, record.type = .wireMessage

section Numbered

variable {file : JournalFile} {record : JournalRecord}

theorem JournalFile.Numbered.append (h : file.Numbered) (htype : record.type = .wireMessage)
    (hsequence : record.captureSequence = file.records.length + 1) : (file.append record).Numbered := by
  obtain ⟨hsequences, marker, rest, hrecords, hmarker, hrest⟩ := h
  constructor
  · simp only [JournalFile.append, List.map_append, List.length_append, List.map_singleton, List.length_singleton]
    rw [hsequences, List.range'_1_concat, hsequence, Nat.add_comm 1]
  · refine ⟨marker, rest ++ [record], ?_, hmarker, ?_⟩
    · simp only [JournalFile.append, hrecords, List.cons_append]
    · intro other hother
      rcases List.mem_append.1 hother with hother | hother
      · exact hrest other hother
      · rw [List.mem_singleton.1 hother]
        exact htype

theorem JournalFile.numbered_fresh (hfresh : file.records = []) (call : ConnectCall) :
    (file.append call.record).Numbered := by
  constructor
  · simp only [JournalFile.append, hfresh]
    rfl
  · exact ⟨call.record, [], by simp [JournalFile.append, hfresh], rfl, by simp⟩

end Numbered

/-- What a file's records tell an adapter, and what they tell it once the file is closed. -/
def JournalFile.calls (file : JournalFile) : List AdapterCall :=
  file.records.map fun record => match record.type with
    | .connect => .onConnect file.header.connectId
    | .wireMessage => .onFrame record.payload

def JournalFile.closedCalls (file : JournalFile) : List AdapterCall :=
  file.calls ++ [.onDisconnect file.header.connectId]

theorem JournalFile.calls_append (file : JournalFile) (record : JournalRecord) :
    (file.append record).calls = file.calls ++ ({ file with records := [record] } : JournalFile).calls :=
  List.map_append

namespace Recorder

variable {J : JournalPlatform} {r r' : Recorder} {call : SessionCall}

/-- Every file is numbered, and the one under way is as long as the sequence says. -/
structure WellNumbered (r : Recorder) : Prop where
  numbered : ∀ file ∈ r.shelf, file.Numbered
  current : ∀ file, r.current = some file → r.error = none → r.sequence = file.records.length

theorem WellNumbered.after_call (h : r.WellNumbered) (hdoes : Does J r call r') : r'.WellNumbered := by
  refine ⟨fun file hfile => ?_, ?_⟩
  · rcases shelf_cases hdoes hfile with hold | ⟨wire, old, -, hcurrent, herror, rfl⟩ | ⟨connect, -, -, rfl⟩
    · exact h.numbered file hold
    · have hold := h.numbered old (current_mem_shelf hcurrent)
      exact hold.append rfl (congrArg (· + 1) (h.current old hcurrent herror))
    · exact JournalFile.numbered_fresh rfl connect
  · cases hdoes with
    | notOpen call hcurrent => exact h.current
    | closed flushed => rintro file ⟨⟩
    | failed call error hcause => rintro file ⟨⟩
    | refused call file hcurrent hrefused =>
      intro file _ herror
      cases (Option.or_eq_none_iff.1 herror).2
    | taken call file hcurrent herror hroom =>
      rintro other ⟨⟩ -
      change r.sequence + 1 = (file.records ++ [_]).length
      rw [List.length_append, h.current file hcurrent herror]
      rfl
    | connected call hcause =>
      rintro other ⟨⟩ -
      rfl

/-- The files' headers are the session's. -/
structure WellHeaded (r : Recorder) : Prop where
  exchange : ∀ file ∈ r.shelf, file.header.exchange = r.config.exchange
  connectId : ∀ file ∈ r.shelf, file.header.connectId < kIdModulus
  current : ∀ file, r.current = some file → file.header.connectId = r.connectId

theorem Does.config (hdoes : Does J r call r') : r'.config = r.config := by
  cases hdoes <;> rfl

theorem WellHeaded.after_call (h : r.WellHeaded) (hdoes : Does J r call r') : r'.WellHeaded := by
  refine ⟨fun file hfile => ?_, fun file hfile => ?_, ?_⟩
  · rw [hdoes.config]
    rcases shelf_cases hdoes hfile with hold | ⟨wire, old, -, hcurrent, -, rfl⟩ | ⟨connect, -, -, rfl⟩
    · exact h.exchange file hold
    · exact h.exchange old (current_mem_shelf hcurrent)
    · rfl
  · rcases shelf_cases hdoes hfile with hold | ⟨wire, old, -, hcurrent, -, rfl⟩ | ⟨connect, -, -, rfl⟩
    · exact h.connectId file hold
    · exact h.connectId old (current_mem_shelf hcurrent)
    · exact Nat.mod_lt _ (by decide)
  · cases hdoes with
    | notOpen call hcurrent => exact h.current
    | refused call file hcurrent hrefused => exact h.current
    | closed flushed => rintro file ⟨⟩
    | failed call error hcause => rintro file ⟨⟩
    | taken call file hcurrent herror hroom =>
      rintro other ⟨⟩
      exact h.current file hcurrent
    | connected call hcause =>
      rintro other ⟨⟩
      rfl

/-- While nothing was refused, the files hold what the sinks were told. -/
def Mirrors (r : Recorder) : Prop :=
  r.error = none → r.sinkCalls.map FeedEvent.adapterCall =
    r.files.flatMap JournalFile.closedCalls ++ r.current.toList.flatMap JournalFile.calls

theorem Mirrors.endConnect (h : r.Mirrors) (hhead : r.WellHeaded) (herror : r.error = none) :
    r.endConnect.sinkCalls.map FeedEvent.adapterCall = r.endConnect.files.flatMap JournalFile.closedCalls := by
  have hmirrors := h herror
  cases hcurrent : r.current with
  | none => simpa [Recorder.endConnect, hcurrent] using hmirrors
  | some file =>
    rw [hcurrent] at hmirrors
    simp only [Recorder.endConnect, hcurrent, Option.isSome_some, if_true, List.map_append, hmirrors,
      List.flatMap_append, Option.toList_some, List.flatMap_singleton, JournalFile.closedCalls, List.append_assoc,
      hhead.current file hcurrent]
    rfl

theorem Mirrors.after_call (h : r.Mirrors) (hhead : r.WellHeaded) (hdoes : Does J r call r') : r'.Mirrors := by
  cases hdoes with
  | notOpen call hcurrent => exact h
  | refused call file hcurrent hrefused =>
    intro herror
    cases (Option.or_eq_none_iff.1 herror).2
  | closed flushed =>
    intro herror
    exact (h.endConnect hhead herror).trans (List.append_nil _).symm
  | failed call error hcause =>
    intro herror
    exact (h.endConnect hhead herror).trans (List.append_nil _).symm
  | taken call file hcurrent herror hroom =>
    intro _
    have hmirrors := h herror
    rw [hcurrent, Option.toList_some, List.flatMap_singleton] at hmirrors
    change (r.sinkCalls ++ [_]).map _ = r.files.flatMap _ ++ [file.append _].flatMap JournalFile.calls
    rw [List.map_append, hmirrors, List.flatMap_singleton, JournalFile.calls_append, List.append_assoc]
    rfl
  | connected call hcause =>
    intro herror
    have hended := h.endConnect hhead herror
    change (r.endConnect.sinkCalls ++ [_]).map _ = r.endConnect.files.flatMap _ ++ _
    rw [List.map_append, hended]
    rfl

/-- A connect that succeeded has a file. -/
def HasFile (r : Recorder) : Prop := ∀ path, .connected path ∈ r.results → r.shelf ≠ []

theorem HasFile.after_call (h : r.HasFile) (hdoes : Does J r call r') : r'.HasFile := by
  have hsame : ∀ {t : Recorder} {result : SessionResult}, t.shelf = r.shelf → t.results = r.results ++ [result] →
      (∀ path, result ≠ .connected path) → t.HasFile := by
    intro t result hshelf hresults hresult path hpath
    rw [hresults] at hpath
    rw [hshelf]
    rcases List.mem_append.1 hpath with hpath | hpath
    · exact h path hpath
    · exact absurd (List.mem_singleton.1 hpath).symm (hresult path)
  cases hdoes with
  | notOpen call hcurrent => exact hsame rfl rfl (by simp)
  | refused call file hcurrent hrefused => exact hsame rfl rfl (by simp)
  | closed flushed => exact hsame r.endConnect_shelf rfl (by simp)
  | failed call error hcause => exact hsame r.endConnect_shelf rfl (by simp)
  | taken call file hcurrent herror hroom =>
    intro _ _
    rw [shelf_current rfl]
    exact List.append_ne_nil_of_right_ne_nil _ (List.cons_ne_nil _ _)
  | connected call hcause =>
    intro _ _
    rw [shelf_current rfl]
    exact List.append_ne_nil_of_right_ne_nil _ (List.cons_ne_nil _ _)

section Run

variable (config : SessionConfig) (calls : List SessionCall)

theorem run_snoc (r : Recorder) (call : SessionCall) : r.run J (calls ++ [call]) = (r.run J calls).call J call :=
  List.foldl_concat ..

theorem run_wellNumbered : ((Recorder.start config).run J calls).WellNumbered := by
  refine calls_induction (I := fun _ r => r.WellNumbered) ⟨by simp [shelf, Recorder.start], ?_⟩ ?_ calls
  · intro file hfile
    cases hfile
  · intro calls r call r' _ h hdoes
    exact h.after_call hdoes

theorem run_config : ((Recorder.start config).run J calls).config = (Recorder.start config).config := by
  refine calls_induction (I := fun _ r => r.config = (Recorder.start config).config) rfl ?_ calls
  intro calls r call r' _ h hdoes
  exact hdoes.config.trans h

theorem run_wellHeaded : ((Recorder.start config).run J calls).WellHeaded := by
  refine calls_induction (I := fun _ r => r.WellHeaded) ⟨?_, ?_, ?_⟩ ?_ calls
  · rintro file ⟨⟩
  · rintro file ⟨⟩
  · rintro file ⟨⟩
  · intro calls r call r' _ h hdoes
    exact h.after_call hdoes

theorem run_mirrors : ((Recorder.start config).run J calls).Mirrors := by
  refine calls_induction (I := fun _ r => r.Mirrors) (fun _ => rfl) ?_ calls
  rintro calls r call r' rfl h hdoes
  exact h.after_call (run_wellHeaded config calls) hdoes

theorem run_hasFile : ((Recorder.start config).run J calls).HasFile := by
  refine calls_induction (I := fun _ r => r.HasFile) (fun _ hpath => by cases hpath) ?_ calls
  intro calls r call r' _ h hdoes
  exact h.after_call hdoes

end Run

end Recorder

end CryptoTrader
