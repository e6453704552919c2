import CryptoTrader.Spec.Recorder

/-! What a step of the capture session can do. Both modes end a connect the same way, at
once or after the barrier, and every call that ends one goes on from a quiet session:
nothing open and nothing announced. -/

namespace CryptoTrader

open Journal

/-- The `Close` in a call, with whether its flush succeeds. -/
def SessionCall.flushed? : SessionCall → Option Bool
  | .beginConnect call => some call.flushed
  | .onWireMessage _ => none
  | .close flushed => some flushed

theorem JournalThread.step_idle (written : Bool) : ({} : JournalThread).step written = none := rfl

namespace CaptureSession

/-- The session once its connect has ended, with the records the journal thread reported. -/
def ended (s : CaptureSession) (flushed : Bool) (records : ℕ) : CaptureSession :=
  let closed := s.closeWriter flushed
  { closed with closedRecords := closed.closedRecords + records, journalOpen := false, waiting := none }.announceEnd

/-- Nothing is open, announced or waited for. -/
structure Quiet (s : CaptureSession) : Prop where
  writer : s.writer = none
  journalOpen : s.journalOpen = false
  announced : s.announced = false
  waiting : s.waiting = none

/-- The mode decides which half of the state is used, and only a call with a `Close` in
it ever waits. -/
structure ModeInv (s : CaptureSession) : Prop where
  inline : s.config.journalMode = .inline → s.journalOpen = false ∧ s.journal = {}
  threaded : s.config.journalMode = .threaded → s.writer = none ∧ s.journalOpen = s.announced
  waiting : ∀ call, s.waiting = some call → call.flushed?.isSome = true ∧ s.journalOpen = true

section Ended

variable (s : CaptureSession) (flushed : Bool) (records : ℕ)

theorem announceEnd_eq : s.announceEnd =
    { s with
      announced := false
      sinkCalls := s.sinkCalls ++ if s.announced then [.disconnect s.connectId] else [] } := by
  unfold announceEnd
  split_ifs with h
  · rfl
  · rw [Bool.not_eq_true] at h
    cases s
    simp_all

theorem closeWriter_eq : s.closeWriter flushed =
    { s with
      closedRecords := s.closedRecords + (s.writer.map (·.recordsWritten)).getD 0
      inlineFiles := s.inlineFiles ++ (s.writer.map (·.file)).toList
      writer := none } := by
  obtain ⟨config, writer, _⟩ := s
  cases writer with
  | none => simp [closeWriter]
  | some writer =>
    simp only [closeWriter, JournalWriter.flush]
    split_ifs <;> rfl

theorem ended_eq : s.ended flushed records =
    { s with
      writer := none
      sinkCalls := s.sinkCalls ++ if s.announced then [.disconnect s.connectId] else []
      announced := false
      closedRecords := s.closedRecords + (s.writer.map (·.recordsWritten)).getD 0 + records
      journalOpen := false
      inlineFiles := s.inlineFiles ++ (s.writer.map (·.file)).toList
      waiting := none } := by
  rw [ended, announceEnd_eq, closeWriter_eq]

theorem ended_quiet : (s.ended flushed records).Quiet := by
  rw [ended_eq]
  exact ⟨rfl, rfl, rfl, rfl⟩

end Ended

variable (J : JournalPlatform)

/-- What a call that ended a connect does next. -/
def goOn (s : CaptureSession) : SessionCall → CaptureSession
  | .beginConnect call => s.openConnect J call
  | .close _ => s.returns .closed
  | .onWireMessage _ => s

/-- What the session can do. -/
inductive Step (s : CaptureSession) : SessionAction → CaptureSession → Prop where
  | wire (call : WireCall) (hwaiting : s.waiting = none) : Step s (.call (.onWireMessage call)) (s.onWireMessage call)
  | wait (call : SessionCall) (hcall : call.flushed?.isSome = true) (hwaiting : s.waiting = none)
      (hopen : s.journalOpen = true) :
      Step s (.call call) { s with journal := s.journal.disconnect, waiting := some call }
  | close (call : SessionCall) (flushed : Bool) (hcall : call.flushed? = some flushed) (hwaiting : s.waiting = none)
      (hopen : s.journalOpen = false) : Step s (.call call) ((s.ended flushed 0).goOn J call)
  | resume (call : SessionCall) (records : ℕ) (hcall : call.flushed?.isSome = true) (hwaiting : s.waiting = some call)
      (hsignal : s.journal.signal = some records) (hopen : s.journalOpen = true) :
      Step s .resume ((s.ended true records).goOn J call)
  | journal (written : Bool) (journal : JournalThread) (hstep : s.journal.step written = some journal) :
      Step s (.journal written) { s with journal }

variable {J} {s s' : CaptureSession} {action : SessionAction}

theorem afterClose_eq (s : CaptureSession) {call : SessionCall} (hcall : call.flushed?.isSome = true) :
    s.afterClose J call = s.announceEnd.goOn J call := by
  cases call with
  | beginConnect call => rfl
  | onWireMessage call => cases hcall
  | close flushed => rfl

theorem ModeInv.threaded_of_open (hinv : s.ModeInv) (hopen : s.journalOpen = true) :
    s.config.journalMode = .threaded := by
  cases hmode : s.config.journalMode with
  | inline =>
    rw [(hinv.inline hmode).1] at hopen
    cases hopen
  | threaded => rfl

theorem ModeInv.writer_of_open (hinv : s.ModeInv) (hopen : s.journalOpen = true) : s.writer = none :=
  (hinv.threaded (hinv.threaded_of_open hopen)).1

theorem closeFor_step (hinv : s.ModeInv) {call : SessionCall} {flushed : Bool} (hcall : call.flushed? = some flushed)
    (hwaiting : s.waiting = none) : Step J s (.call call) (s.closeFor J call flushed) := by
  have hsome : call.flushed?.isSome = true := by rw [hcall]; rfl
  cases hopen : s.journalOpen with
  | true =>
    have hwriter := hinv.writer_of_open hopen
    have heq : s.closeFor J call flushed = { s with journal := s.journal.disconnect, waiting := some call } := by
      simp only [closeFor, closeWriter, hwriter, hopen, if_true]
    rw [heq]
    exact .wait call hsome hwaiting hopen
  | false =>
    have hquiet : { s.closeWriter flushed with
        closedRecords := (s.closeWriter flushed).closedRecords + 0, journalOpen := false, waiting := none } =
          s.closeWriter flushed := by
      rw [closeWriter_eq]
      cases s
      simp_all
    have heq : s.closeFor J call flushed = (s.ended flushed 0).goOn J call := by
      have hopen' : (s.closeWriter flushed).journalOpen = false := by rw [closeWriter_eq]; exact hopen
      simp only [closeFor, hopen', Bool.false_eq_true, if_false]
      rw [afterClose_eq _ hsome, ended, hquiet]
    rw [heq]
    exact .close call flushed hcall hwaiting hopen

theorem step_inversion (hinv : s.ModeInv) (h : s.step J action = some s') : Step J s action s' := by
  cases action with
  | call call =>
    simp only [step] at h
    split_ifs at h with hwaiting
    have hnone := Option.not_isSome_iff_eq_none.1 hwaiting
    rcases call with connect | wire | flushed
    · cases h
      exact closeFor_step hinv rfl hnone
    · cases h
      exact .wire wire hnone
    · cases h
      exact closeFor_step hinv rfl hnone
  | resume =>
    simp only [step] at h
    split at h
    · next call records hwaiting hsignal =>
      cases h
      obtain ⟨hcall, hopen⟩ := hinv.waiting call hwaiting
      have hwriter := hinv.writer_of_open hopen
      have heq : { s with closedRecords := s.closedRecords + records, journalOpen := false, waiting := none }.afterClose J
          call = (s.ended true records).goOn J call := by
        rw [afterClose_eq _ hcall, ended]
        simp only [closeWriter, hwriter]
      rw [heq]
      exact .resume call records hcall hwaiting hsignal hopen
    · cases h
  | journal written =>
    obtain ⟨journal, hstep, rfl⟩ := Option.map_eq_some_iff.1 h
    exact .journal written journal hstep

section Connect

variable (J) (s : CaptureSession) (call : ConnectCall)

/-- The session as a connect numbers itself. -/
def numbered : CaptureSession := { s with connectId := (s.connectId + 1) % kIdModulus, sequence := 0 }

/-- The path and the fresh file of a connect, and its marker. -/
def connectPath : Bytes := s.config.journalPath J ((s.connectId + 1) % kIdModulus) call.nameRealtimeNs

def connectFile : JournalFile := s.config.connectFile J ((s.connectId + 1) % kIdModulus) call

def markerFrame : CaptureFrame := ⟨call.reason, 1, call.markerNs, call.source⟩

def markedWriter : JournalWriter :=
  { file := s.connectFile J call : JournalWriter }.writeConnectMarker (markerFrame call) call.markerWritten

/-- Why a connect fails before it has a file, if it does. -/
def connectFailure : Option Bytes :=
  s.config.connectFailure J ((s.connectId + 1) % kIdModulus) s.journal.error call

/-- How a connect that goes on from a quiet session can end. -/
inductive Connects : CaptureSession → Prop where
  | failed (error : Bytes) (hcause : s.connectFailure J call = some error) :
      Connects (s.numbered.returns (.connectFailed error))
  | threaded (hmode : s.config.journalMode = .threaded) (hcause : s.connectFailure J call = none) :
      Connects ({ s.numbered with
        sequence := 1
        journal := s.journal.connect { file := s.connectFile J call } (markerFrame call)
        journalOpen := true }.announce call.reason (s.connectPath J call))
  | markerFailed (error : Bytes) (hmode : s.config.journalMode = .inline) (hcause : s.connectFailure J call = none)
      (herror : (s.markedWriter J call).error = some error) :
      Connects ({ s.numbered with sequence := 1, writer := some (s.markedWriter J call) }.returns
        (.connectFailed (ascii "cannot write connect marker: " ++ error)))
  | inline (hmode : s.config.journalMode = .inline) (hcause : s.connectFailure J call = none)
      (herror : (s.markedWriter J call).error = none) :
      Connects ({ s.numbered with sequence := 1, writer := some (s.markedWriter J call) }.announce call.reason
        (s.connectPath J call))

theorem openConnect_eq : s.openConnect J call =
    match s.connectFailure J call with
    | some error => s.numbered.returns (.connectFailed error)
    | none => s.numbered.startFile call (s.connectPath J call) := by
  simp only [openConnect, connectFailure, SessionConfig.connectFailure]
  cases s.journal.error with
  | some error => rfl
  | none =>
    cases call.directoryError with
    | some error => rfl
    | none => cases call.outcome <;> rfl

theorem openConnect_cases : Connects J s call (s.openConnect J call) := by
  rw [openConnect_eq]
  cases hcause : s.connectFailure J call with
  | some error => exact .failed error hcause
  | none =>
    have hnumbered : s.numbered.config = s.config := rfl
    simp only [startFile, hnumbered]
    cases hmode : s.config.journalMode with
    | threaded => exact .threaded hmode hcause
    | inline =>
      simp only
      split
      · next error herror => exact .markerFailed error hmode hcause herror
      · next herror => exact .inline hmode hcause herror

/-- However a connect ends, it has taken the next number. -/
theorem openConnect_keeps : (s.openConnect J call).config = s.config ∧
    (s.openConnect J call).connectId = (s.connectId + 1) % kIdModulus ∧
    (s.openConnect J call).waiting = s.waiting := by
  have hconnect := openConnect_cases J s call
  generalize s.openConnect J call = t at hconnect ⊢
  cases hconnect <;> exact ⟨rfl, rfl, rfl⟩

end Connect

theorem goOn_config (q : CaptureSession) (call : SessionCall) : (q.goOn J call).config = q.config := by
  cases call with
  | close flushed => rfl
  | onWireMessage wire => rfl
  | beginConnect connect => exact (openConnect_keeps J q connect).1

theorem Quiet.goOn_waiting {q : CaptureSession} (hquiet : q.Quiet) (call : SessionCall) :
    (q.goOn J call).waiting = none := by
  cases call with
  | close flushed => exact hquiet.waiting
  | onWireMessage wire => exact hquiet.waiting
  | beginConnect connect => exact (openConnect_keeps J q connect).2.2.trans hquiet.waiting

section Wire

variable (s : CaptureSession) (call : WireCall)

/-- Whether there is a connect to write a wire message into. -/
def isOpen : Bool :=
  match s.config.journalMode with
  | .inline => s.writer.isSome
  | .threaded => s.journalOpen

theorem Quiet.isOpen_eq {s : CaptureSession} (h : s.Quiet) : s.isOpen = false := by
  unfold isOpen
  cases s.config.journalMode with
  | inline => rw [h.writer, Option.isSome_none]
  | threaded => exact h.journalOpen

/-- The stamped frame of a wire message, and the session once the sinks have it. -/
def wireFrame : CaptureFrame := s.stamp call.payload call.monotonicNs call.source

def captured : CaptureSession :=
  { s with sequence := s.sequence + 1, sinkCalls := s.sinkCalls ++ [.frame (s.wireFrame call)] }

/-- How a wire message can be taken. -/
inductive Takes : CaptureSession → Prop where
  | notOpen (hopen : s.isOpen = false) : Takes (s.returns .notOpen)
  | threaded (hmode : s.config.journalMode = .threaded) (hopen : s.isOpen = true) :
      Takes ({ s.captured call with
        journal := (s.journal.push s.config.ringCapacity (s.wireFrame call) call.room).1 }.returns
          (.wire (s.wireFrame call) (s.journal.push s.config.ringCapacity (s.wireFrame call) call.room).2))
  | inline (writer : JournalWriter) (hmode : s.config.journalMode = .inline) (hopen : s.isOpen = true)
      (hwriter : s.writer = some writer) :
      Takes ({ s.captured call with writer := some (writer.onFrame (s.wireFrame call) call.written) }.returns
        (.wire (s.wireFrame call) (writer.onFrame (s.wireFrame call) call.written).good))

theorem onWireMessage_cases : Takes s call (s.onWireMessage call) := by
  simp only [onWireMessage]
  cases hmode : s.config.journalMode with
  | threaded =>
    simp only
    split_ifs with hopen
    · exact .threaded hmode (by simp only [isOpen, hmode, hopen])
    · exact .notOpen (by simp only [isOpen, hmode, hopen])
  | inline =>
    simp only
    cases hwriter : s.writer with
    | none => exact .notOpen (by simp only [isOpen, hmode, hwriter, Option.isSome_none])
    | some writer => exact .inline writer hmode (by simp only [isOpen, hmode, hwriter, Option.isSome_some]) hwriter

theorem onWireMessage_keeps : (s.onWireMessage call).config = s.config ∧
    (s.onWireMessage call).connectId = s.connectId ∧ (s.onWireMessage call).waiting = s.waiting := by
  have htakes := s.onWireMessage_cases call
  generalize s.onWireMessage call = t at htakes ⊢
  cases htakes <;> exact ⟨rfl, rfl, rfl⟩

end Wire

theorem Step.config (h : Step J s action s') : s'.config = s.config := by
  cases h with
  | wire call hwaiting => exact (s.onWireMessage_keeps call).1
  | wait call hcall hwaiting hopen => rfl
  | close call flushed hcall hwaiting hopen => rw [goOn_config, ended_eq]
  | resume call records hcall hwaiting hsignal hopen => rw [goOn_config, ended_eq]
  | journal written journal hstep => rfl

section Mode

variable {q : CaptureSession} {call : SessionCall}

/-- Whatever goes on from a quiet session leaves each half of the state to its mode. -/
theorem Quiet.goOn_mode (hquiet : q.Quiet) (hinline : q.config.journalMode = .inline → q.journal = {}) :
    (q.goOn J call).ModeInv := by
  have hsame : q.ModeInv := by
    refine ⟨fun hmode => ⟨hquiet.journalOpen, hinline hmode⟩, fun _ => ⟨hquiet.writer, ?_⟩, fun call hwaiting => ?_⟩
    · rw [hquiet.journalOpen, hquiet.announced]
    · rw [hquiet.waiting] at hwaiting
      cases hwaiting
  cases call with
  | close flushed => exact ⟨hsame.inline, hsame.threaded, hsame.waiting⟩
  | onWireMessage call => exact hsame
  | beginConnect call =>
    have hnever : ∀ c, q.waiting = some c → c.flushed?.isSome = true ∧ true = true := by
      intro c hwaiting
      rw [hquiet.waiting] at hwaiting
      cases hwaiting
    have hconnect := openConnect_cases J q call
    simp only [goOn]
    generalize q.openConnect J call = t at hconnect ⊢
    cases hconnect with
    | failed error hcause => exact ⟨hsame.inline, hsame.threaded, hsame.waiting⟩
    | threaded hmode hcause =>
      refine ⟨fun h => ?_, fun _ => ⟨hquiet.writer, rfl⟩, hnever⟩
      change q.config.journalMode = .inline at h
      rw [hmode] at h
      cases h
    | markerFailed error hmode hcause herror =>
      refine ⟨hsame.inline, fun h => ?_, hsame.waiting⟩
      change q.config.journalMode = .threaded at h
      rw [hmode] at h
      cases h
    | inline hmode hcause herror =>
      refine ⟨hsame.inline, fun h => ?_, hsame.waiting⟩
      change q.config.journalMode = .threaded at h
      rw [hmode] at h
      cases h

theorem ModeInv.ended_inline (hinv : s.ModeInv) (flushed : Bool) (records : ℕ) :
    (s.ended flushed records).config.journalMode = .inline → (s.ended flushed records).journal = {} := by
  rw [ended_eq]
  exact fun hmode => (hinv.inline hmode).2

theorem ModeInv.wire (hinv : s.ModeInv) (call : WireCall) : (s.onWireMessage call).ModeInv := by
  obtain ⟨hinline, hthreaded, hwaiting⟩ := hinv
  have htakes := s.onWireMessage_cases call
  generalize s.onWireMessage call = t at htakes ⊢
  cases htakes with
  | notOpen hopen => exact ⟨hinline, hthreaded, hwaiting⟩
  | threaded hmode hopen =>
    refine ⟨fun h => ?_, fun _ => hthreaded hmode, hwaiting⟩
    change s.config.journalMode = .inline at h
    rw [hmode] at h
    cases h
  | inline writer hmode hopen hwriter =>
    refine ⟨fun _ => hinline hmode, fun h => ?_, hwaiting⟩
    change s.config.journalMode = .threaded at h
    rw [hmode] at h
    cases h

theorem ModeInv.step (hinv : s.ModeInv) (h : Step J s action s') : s'.ModeInv := by
  cases h with
  | wire call hwaiting => exact hinv.wire call
  | wait call hcall hwaiting hopen =>
    refine ⟨fun hmode => ?_, hinv.threaded, fun c hc => ?_⟩
    · have hclosed := (hinv.inline hmode).1
      rw [hopen] at hclosed
      cases hclosed
    · cases hc
      exact ⟨hcall, hopen⟩
  | close call flushed hcall hwaiting hopen => exact (s.ended_quiet flushed 0).goOn_mode (hinv.ended_inline flushed 0)
  | resume call records hcall hwaiting hsignal hopen =>
    exact (s.ended_quiet true records).goOn_mode (hinv.ended_inline true records)
  | journal written journal hstep =>
    refine ⟨fun hmode => ?_, hinv.threaded, hinv.waiting⟩
    rw [(hinv.inline hmode).2, JournalThread.step_idle] at hstep
    cases hstep

theorem ModeInv.start (config : SessionConfig) : (start config).ModeInv :=
  ⟨fun _ => ⟨rfl, rfl⟩, fun _ => ⟨rfl, rfl⟩, fun _ h => by cases h⟩

theorem run_mode {config : SessionConfig} {actions : List SessionAction}
    (hrun : (CaptureSession.start config).run J actions = some s) : s.ModeInv :=
  Machine.run_invariant (I := fun _ s => s.ModeInv) (ModeInv.start config)
    (fun _ _ _ _ _ hinv hstep => hinv.step (step_inversion hinv hstep)) hrun

/-- What holds at the start and is kept by everything the session can do holds in every
state it reaches. -/
theorem run_induction {I : List SessionAction → CaptureSession → Prop} {config : SessionConfig}
    (hstart : I [] (CaptureSession.start config))
    (hstep : ∀ actions s action s', (CaptureSession.start config).run J actions = some s → s.ModeInv → I actions s →
      Step J s action s' → I (actions ++ [action]) s')
    {actions : List SessionAction} (hrun : (CaptureSession.start config).run J actions = some s) : I actions s := by
  refine Machine.run_invariant hstart (fun actions mid action next hmid hI hnext => ?_) hrun
  have hmode := run_mode hmid
  exact hstep actions mid action next hmid hmode hI (step_inversion hmode hnext)

end Mode

section Threaded

/-- In threaded mode the sinks are handed what is received while they are inside a block. -/
theorem onWireMessage_threaded (hmode : s.config.journalMode = .threaded) (hinv : s.ModeInv) (call : WireCall) :
    (s.onWireMessage call).sinkCalls = s.sinkCalls ++ (if s.announced then [.frame (s.wireFrame call)] else []) ∧
      (s.onWireMessage call).announced = s.announced := by
  have hopen := (hinv.threaded hmode).2
  have htakes := s.onWireMessage_cases call
  generalize s.onWireMessage call = t at htakes ⊢
  cases htakes with
  | notOpen hclosed =>
    have hno : s.announced = false := by simpa only [isOpen, hmode, hopen] using hclosed
    rw [hno]
    exact ⟨(List.append_nil _).symm, hno⟩
  | threaded hm hyes =>
    have hin : s.announced = true := by simpa only [isOpen, hmode, hopen] using hyes
    rw [hin]
    exact ⟨rfl, hin⟩
  | inline writer hm =>
    rw [hmode] at hm
    cases hm

/-- A threaded connect fails unheard, or opens a block. -/
theorem openConnect_threaded (hmode : s.config.journalMode = .threaded) (call : ConnectCall) :
    ((s.openConnect J call).sinkCalls = s.sinkCalls ∧ (s.openConnect J call).announced = s.announced ∧
      ∃ error, (s.openConnect J call).results.getLast? = some (.connectFailed error)) ∨
    ((s.openConnect J call).sinkCalls = s.sinkCalls ++ [.connect (s.openConnect J call).connectId call.reason] ∧
      (s.openConnect J call).announced = true ∧
      ∃ path, (s.openConnect J call).results.getLast? = some (.connected path)) := by
  have hconnect := openConnect_cases J s call
  generalize s.openConnect J call = t at hconnect ⊢
  cases hconnect with
  | failed error hcause => exact Or.inl ⟨rfl, rfl, error, List.getLast?_concat⟩
  | threaded hm hcause => exact Or.inr ⟨rfl, rfl, _, List.getLast?_concat⟩
  | markerFailed error hm hcause herror =>
    rw [hmode] at hm
    cases hm
  | inline hm hcause herror =>
    rw [hmode] at hm
    cases hm

end Threaded

end CaptureSession

theorem sessionCalls_snoc (actions : List SessionAction) (action : SessionAction) :
    sessionCalls (actions ++ [action]) = sessionCalls actions ++ sessionCalls [action] := List.filterMap_append

/-- A platform whose checksums are zero and whose times have no text. -/
def blankJournal : JournalPlatform := ⟨fun _ _ => 0#32, fun _ => []⟩

def firstConnect : ConnectCall :=
  { reason := ascii "start", source := .krakenJson, nameRealtimeNs := 0, realtimeNs := 0, monotonicNs := 0, markerNs := 1 }

def firstWire : WireCall := { payload := [7], source := .krakenJson, monotonicNs := 2 }

end CryptoTrader
