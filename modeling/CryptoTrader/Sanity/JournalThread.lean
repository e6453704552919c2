import CryptoTrader.Lib.Worker
import CryptoTrader.Sanity.CaptureSession

/-! The journal thread behind its ring, while its writes succeed. It is a worker on a
queue: what its files will hold once the queue is empty does not depend on how far it has
got, so the recorder can be compared with that. -/

namespace CryptoTrader

open Journal

/-- The writer is good, and the frame can be its next record. -/
structure JournalWriter.Takes (writer : JournalWriter) (frame : CaptureFrame) : Prop where
  good : writer.error = none
  order : writer.lastSequence < frame.captureSequence
  size : frame.payload.length ≤ kMaxPayloadBytes

theorem JournalWriter.Takes.writeRecord {writer : JournalWriter} {frame : CaptureFrame} (h : writer.Takes frame)
    (type : RecordType) : writer.writeRecord type frame true =
      ⟨writer.file.append ⟨type, frame.captureSequence, frame.monotonicNs, frame.payload⟩, frame.captureSequence, none⟩ := by
  obtain ⟨hgood, horder, hsize⟩ := h
  have hisGood : writer.good = true := by rw [JournalWriter.good, hgood]; rfl
  simp only [JournalWriter.writeRecord, hisGood, Bool.true_eq_false, if_false, if_neg (Nat.not_le.2 horder),
    if_neg (Nat.not_lt.2 hsize), JournalFile.append, hgood]

namespace JournalThread

/-- The event is next in order for the thread's writer. -/
def Accepts (journal : JournalThread) : JournalEvent → Prop
  | .frame frame => ∃ writer, journal.writer = some writer ∧ writer.Takes frame
  | .connect writer marker => journal.writer = none ∧ writer.Takes marker
  | .disconnect => ∃ writer, journal.writer = some writer ∧ writer.error = none

section Handle

variable {journal : JournalThread} {writer : JournalWriter} {frame : CaptureFrame}

theorem handle_frame (hwriter : journal.writer = some writer) (htakes : writer.Takes frame) :
    journal.handle true (.frame frame) =
      { journal with
        writer := some ⟨writer.file.append frame.record, frame.captureSequence, none⟩
        recordsWritten := writer.recordsWritten + 1 } := by
  simp only [handle, hwriter, JournalWriter.onFrame, htakes.writeRecord, afterWrite]
  simp [JournalWriter.recordsWritten, JournalFile.append, CaptureFrame.record]

theorem handle_connect (hwriter : journal.writer = none) (htakes : writer.Takes frame) :
    journal.handle true (.connect writer frame) =
      { journal with
        writer := some ⟨writer.file.append ⟨.connect, frame.captureSequence, frame.monotonicNs, frame.payload⟩,
          frame.captureSequence, none⟩
        recordsWritten := writer.recordsWritten + 1 } := by
  simp only [handle, closeFile, hwriter, JournalWriter.writeConnectMarker, htakes.writeRecord, afterWrite]
  simp [JournalWriter.recordsWritten, JournalFile.append]

theorem handle_disconnect (hwriter : journal.writer = some writer) (hgood : writer.error = none) :
    journal.handle true .disconnect =
      { journal with
        writer := none
        files := journal.files ++ [writer.file]
        recordsWritten := 0
        signal := some writer.recordsWritten } := by
  simp [handle, hwriter, JournalWriter.flush, afterWrite, hgood, closeFile]

/-- Handling an event it accepts leaves the thread's ring and failure alone. -/
theorem handle_kept {event : JournalEvent} (h : journal.Accepts event) :
    (journal.handle true event).ring = journal.ring ∧ (journal.handle true event).error = journal.error ∧
      (event ≠ .disconnect → (journal.handle true event).signal = journal.signal) := by
  cases event with
  | frame frame =>
    obtain ⟨writer, hwriter, htakes⟩ := h
    rw [handle_frame hwriter htakes]
    exact ⟨rfl, rfl, fun _ => rfl⟩
  | connect writer marker =>
    rw [handle_connect h.1 h.2]
    exact ⟨rfl, rfl, fun _ => rfl⟩
  | disconnect =>
    obtain ⟨writer, hwriter, hgood⟩ := h
    rw [handle_disconnect hwriter hgood]
    exact ⟨rfl, rfl, fun h => absurd rfl h⟩

end Handle

/-- The thread's files and its writer, without what it shares with the session. -/
def bare (journal : JournalThread) : JournalThread := { journal with ring := {}, error := none, signal := none }

def work (journal : JournalThread) (event : JournalEvent) : JournalThread := (journal.handle true event).bare

/-- What the thread's files will be once it has handled its queue. -/
def drained (journal : JournalThread) : JournalThread := Worker.settled work journal.bare journal.ring.queue

/-- The thread will accept everything in its queue. -/
def Admits (journal : JournalThread) : Prop := Worker.Admits work Accepts journal.bare journal.ring.queue

section Queue

variable {journal journal' : JournalThread} {event : JournalEvent}

theorem work_bare (h : journal.Accepts event) : journal.bare.work event = (journal.handle true event).bare := by
  cases event with
  | frame frame =>
    obtain ⟨writer, hwriter, htakes⟩ := h
    have hbare : journal.bare.writer = some writer := hwriter
    rw [work, handle_frame hwriter htakes, handle_frame hbare htakes]
    rfl
  | connect writer marker =>
    have hbare : journal.bare.writer = none := h.1
    rw [work, handle_connect h.1 h.2, handle_connect hbare h.2]
    rfl
  | disconnect =>
    obtain ⟨writer, hwriter, hgood⟩ := h
    have hbare : journal.bare.writer = some writer := hwriter
    rw [work, handle_disconnect hwriter hgood, handle_disconnect hbare hgood]
    rfl

/-- What a step of the thread does: it handles the head of the queue, and what the files
will be does not change. -/
structure Handles (journal journal' : JournalThread) (event : JournalEvent) (rest : List JournalEvent) : Prop where
  queue : journal.ring.queue = event :: rest
  accepts : journal.Accepts event
  next : journal' = { journal with ring := { journal.ring with queue := rest } }.handle true event
  ring : journal'.ring = { journal.ring with queue := rest }
  error : journal'.error = journal.error
  signal : event ≠ .disconnect → journal'.signal = journal.signal
  admits : journal'.Admits
  drained : journal'.drained = journal.drained

theorem Admits.step (hadmits : journal.Admits) (h : journal.step true = some journal') :
    ∃ event queue, Handles journal journal' event queue := by
  simp only [JournalThread.step, SpscRing.pop] at h
  cases hqueue : journal.ring.queue with
  | nil => simp [hqueue] at h
  | cons event queue =>
    simp only [hqueue, Option.map_some, Option.some.injEq] at h
    rw [Admits, hqueue] at hadmits
    have haccepts : journal.Accepts event := hadmits.1
    have hpopped : { journal with ring := { journal.ring with queue } }.Accepts event := haccepts
    have hbare := work_bare hpopped
    obtain ⟨hring, herror, hsignal⟩ := handle_kept hpopped
    rw [h] at hring herror hsignal hbare
    refine ⟨event, queue, hqueue, haccepts, h.symm, hring, herror, hsignal, ?_, ?_⟩
    · rw [Admits, ← hbare, hring]
      exact hadmits.2
    · rw [JournalThread.drained, JournalThread.drained, ← hbare, hring, hqueue]
      rfl

/-- An event more in the queue. -/
theorem drained_pushed (journal journal' : JournalThread) (event : JournalEvent)
    (hqueue : journal'.ring.queue = journal.ring.queue ++ [event]) (hbare : journal'.bare = journal.bare) :
    journal'.drained = journal.drained.work event := by
  rw [drained, hqueue, hbare, Worker.settled_snoc]
  rfl

theorem Admits.pushed (hadmits : journal.Admits) (haccepts : journal.drained.Accepts event)
    (hqueue : journal'.ring.queue = journal.ring.queue ++ [event]) (hbare : journal'.bare = journal.bare) :
    journal'.Admits := by
  rw [Admits, hqueue, hbare, Worker.admits_snoc]
  exact ⟨hadmits, haccepts⟩

theorem drained_of_empty (hqueue : journal.ring.queue = []) : journal.drained = journal.bare := by
  rw [drained, hqueue]
  rfl

end Queue

/-- The thread while its session does not wait for it: with its queue handled it has the
files given, and the current one open. -/
structure Running (files : List JournalFile) (current : Option JournalFile) (sequence : ℕ) (error : Option Bytes)
    (journal : JournalThread) : Prop where
  admits : journal.Admits
  failure : journal.error = error
  dropped : journal.ring.dropped = 0 ↔ error = none
  closed : journal.drained.files = files
  writer : ∃ last, journal.drained.writer = current.map (⟨·, last, none⟩) ∧ (error = none → last = sequence)
  count : journal.drained.recordsWritten = (current.map (·.records.length)).getD 0
  calm : .disconnect ∉ journal.ring.queue
  idle : current = none → journal.ring.queue = []

/-- The thread while its session waits for the barrier: with its queue handled it has
closed the current file, and the end of the queue is what signals it. -/
structure Closing (files : List JournalFile) (current : JournalFile) (error : Option Bytes) (journal : JournalThread) :
    Prop where
  admits : journal.Admits
  failure : journal.error = error
  dropped : journal.ring.dropped = 0 ↔ error = none
  closed : journal.drained.files = files ++ [current]
  writer : journal.drained.writer = none
  count : journal.drained.recordsWritten = 0
  barrier : journal.ring.queue = [] ∧ journal.signal = some current.records.length ∨
    journal.signal = none ∧ ∃ before, journal.ring.queue = before ++ [.disconnect] ∧ .disconnect ∉ before

section Store

variable {files : List JournalFile} {current : Option JournalFile} {file : JournalFile} {sequence : ℕ}
  {error : Option Bytes} {journal journal' : JournalThread}

theorem Running.start : Running [] none 0 none {} :=
  ⟨trivial, rfl, Iff.rfl.trans (by simp), rfl, ⟨0, rfl, fun _ => rfl⟩, rfl, by simp, fun _ => rfl⟩

theorem Running.step (h : Running files current sequence error journal) (hstep : journal.step true = some journal') :
    Running files current sequence error journal' := by
  obtain ⟨event, queue, hhandles⟩ := h.admits.step hstep
  have hcalm := h.calm
  rw [hhandles.queue] at hcalm
  refine ⟨hhandles.admits, hhandles.error.trans h.failure, ?_, ?_, ?_, ?_, ?_, fun hnone => ?_⟩
  · rw [hhandles.ring]
    exact h.dropped
  · rw [hhandles.drained]
    exact h.closed
  · rw [hhandles.drained]
    exact h.writer
  · rw [hhandles.drained]
    exact h.count
  · rw [hhandles.ring]
    exact fun hmem => hcalm (List.mem_cons_of_mem _ hmem)
  · have hqueue := h.idle hnone
    rw [hhandles.queue] at hqueue
    cases hqueue

/-- A push with room for it. -/
theorem Running.frame (h : Running files (some file) sequence none journal) {frame : CaptureFrame}
    (hsequence : frame.captureSequence = sequence + 1) (hsize : frame.payload.length ≤ kMaxPayloadBytes) :
    Running files (some (file.append frame.record)) (sequence + 1) none
      { journal with ring := { journal.ring with queue := journal.ring.queue ++ [.frame frame] } } := by
  obtain ⟨last, hwriter, hlast⟩ := h.writer
  have htakes : (⟨file, last, none⟩ : JournalWriter).Takes frame := by
    refine ⟨rfl, ?_, hsize⟩
    change last < frame.captureSequence
    rw [hlast rfl, hsequence]
    exact Nat.lt_succ_self sequence
  have haccepts : journal.drained.Accepts (.frame frame) := ⟨_, hwriter, htakes⟩
  have hdrained := drained_pushed journal
    { journal with ring := { journal.ring with queue := journal.ring.queue ++ [.frame frame] } } (.frame frame) rfl rfl
  rw [work, handle_frame hwriter htakes] at hdrained
  refine ⟨h.admits.pushed haccepts rfl rfl, h.failure, h.dropped, ?_, ⟨sequence + 1, ?_, fun _ => rfl⟩, ?_, ?_, ?_⟩
  · rw [hdrained]
    exact h.closed
  · rw [hdrained, ← hsequence]
    rfl
  · rw [hdrained]
    simp [bare, JournalFile.append, JournalWriter.recordsWritten]
  · simpa using h.calm
  · intro hnone
    cases hnone

/-- A push without: the thread's own half is as it was. -/
theorem Running.refused (h : Running files (some file) sequence none journal) (sequence' : ℕ) (reason : Bytes) :
    Running files (some file) sequence' (some reason)
      ({ journal with ring := { journal.ring with dropped := journal.ring.dropped + 1 } }.fail reason) := by
  obtain ⟨last, hwriter, -⟩ := h.writer
  have herror : journal.error = none := h.failure
  refine ⟨h.admits, ?_, by simp [fail], h.closed, ⟨last, hwriter, by simp⟩, h.count, h.calm, by simp⟩
  simp [fail, herror]

/-- Nothing is pushed any more. -/
theorem Running.skipped {reason : Bytes} (h : Running files current sequence (some reason) journal) (sequence' : ℕ) :
    Running files current sequence' (some reason) journal := by
  obtain ⟨last, hwriter, -⟩ := h.writer
  exact ⟨h.admits, h.failure, h.dropped, h.closed, ⟨last, hwriter, by simp⟩, h.count, h.calm, h.idle⟩

theorem Running.push_taken (h : Running files (some file) sequence none journal) (frame : CaptureFrame)
    (hsequence : frame.captureSequence = sequence + 1) (hsize : frame.payload.length ≤ kMaxPayloadBytes) (capacity : ℕ) :
    (journal.push capacity frame true).2 = true ∧
      Running files (some (file.append frame.record)) (sequence + 1) none (journal.push capacity frame true).1 := by
  have hfailure : journal.failed = false := by rw [failed, h.failure]; rfl
  have hpush : journal.push capacity frame true =
      ({ journal with ring := { journal.ring with queue := journal.ring.queue ++ [.frame frame] } }, true) := by
    simp [push, hfailure, SpscRing.push]
  rw [hpush]
  exact ⟨rfl, h.frame hsequence hsize⟩

theorem Running.push_refused (h : Running files (some file) sequence error journal) {room : Bool}
    (hrefused : ¬ (error = none ∧ room = true)) (frame : CaptureFrame) (sequence' capacity : ℕ) :
    (journal.push capacity frame room).2 = false ∧ Running files (some file) sequence'
      (error.or (some (overflowText capacity))) (journal.push capacity frame room).1 := by
  cases error with
  | some error =>
    have hfailure : journal.failed = true := by rw [failed, h.failure]; rfl
    have hpush : journal.push capacity frame room = (journal, false) := by simp [push, hfailure]
    rw [hpush]
    exact ⟨rfl, h.skipped sequence'⟩
  | none =>
    have hroom : room = false := by simpa using hrefused
    have hfailure : journal.failed = false := by rw [failed, h.failure]; rfl
    have hpush : journal.push capacity frame room =
        ({ journal with ring := { journal.ring with dropped := journal.ring.dropped + 1 } }.fail
          (overflowText capacity), false) := by
      simp [push, hfailure, hroom, SpscRing.push]
    rw [hpush]
    exact ⟨rfl, h.refused sequence' _⟩

/-- The sequence of a connect that has no file does not matter. -/
theorem Running.renumbered (h : Running files none sequence error journal) (sequence' : ℕ) :
    Running files none sequence' error journal := by
  obtain ⟨last, hwriter, -⟩ := h.writer
  exact ⟨h.admits, h.failure, h.dropped, h.closed, ⟨sequence', hwriter, fun _ => rfl⟩, h.count, h.calm, h.idle⟩

theorem Running.connect (h : Running files none sequence none journal) (file : JournalFile) (marker : CaptureFrame)
    (hmarker : marker.captureSequence = 1) (hsize : marker.payload.length ≤ kMaxPayloadBytes) :
    Running files (some (file.append ⟨.connect, 1, marker.monotonicNs, marker.payload⟩)) 1 none
      (journal.connect { file } marker) := by
  obtain ⟨last, hwriter, -⟩ := h.writer
  have htakes : ({ file } : JournalWriter).Takes marker := by
    refine ⟨rfl, ?_, hsize⟩
    rw [hmarker]
    exact Nat.zero_lt_one
  have haccepts : journal.drained.Accepts (.connect { file } marker) := ⟨hwriter, htakes⟩
  have hdrained := drained_pushed journal (journal.connect { file } marker) (.connect { file } marker) rfl rfl
  rw [work, handle_connect hwriter htakes, hmarker] at hdrained
  refine ⟨h.admits.pushed haccepts rfl rfl, h.failure, h.dropped, ?_, ⟨1, ?_, fun _ => rfl⟩, ?_, ?_, ?_⟩
  · rw [hdrained]
    exact h.closed
  · rw [hdrained]
    rfl
  · rw [hdrained]
    simp [bare, JournalFile.append, JournalWriter.recordsWritten]
  · simpa [JournalThread.connect, SpscRing.pushControl] using h.calm
  · intro hnone
    cases hnone

/-- The barrier goes to the end of the queue. -/
theorem Running.disconnect (h : Running files (some file) sequence error journal) :
    Closing files file error journal.disconnect := by
  obtain ⟨last, hwriter, -⟩ := h.writer
  have haccepts : journal.drained.Accepts .disconnect := ⟨_, hwriter, rfl⟩
  have hdrained := drained_pushed journal journal.disconnect .disconnect rfl rfl
  rw [work, handle_disconnect hwriter rfl] at hdrained
  refine ⟨h.admits.pushed haccepts rfl rfl, h.failure, h.dropped, ?_, ?_, ?_, Or.inr ⟨rfl, _, rfl, h.calm⟩⟩
  · rw [hdrained, ← h.closed]
    rfl
  · rw [hdrained]
    rfl
  · rw [hdrained]
    rfl

theorem Closing.step (h : Closing files file error journal) (hstep : journal.step true = some journal') :
    Closing files file error journal' := by
  obtain ⟨event, rest, hhandles⟩ := h.admits.step hstep
  have hdropped : journal'.ring.dropped = 0 ↔ error = none := by
    rw [hhandles.ring]
    exact h.dropped
  have hclosed : journal'.drained.files = files ++ [file] := by
    rw [hhandles.drained]
    exact h.closed
  refine ⟨hhandles.admits, hhandles.error.trans h.failure, hdropped, hclosed, ?_, ?_, ?_⟩
  · rw [hhandles.drained]
    exact h.writer
  · rw [hhandles.drained]
    exact h.count
  · rcases h.barrier with ⟨hqueue, -⟩ | ⟨hsignal, before, hqueue, hbefore⟩
    · rw [hhandles.queue] at hqueue
      cases hqueue
    · rw [hhandles.queue] at hqueue
      cases before with
      | cons first before =>
        -- the barrier is still behind other events
        obtain ⟨rfl, rfl⟩ := List.cons.inj hqueue
        have hfirst : event ≠ .disconnect := fun heq => hbefore (by simp [heq])
        refine Or.inr ⟨(hhandles.signal hfirst).trans hsignal, before, ?_, ?_⟩
        · rw [hhandles.ring]
          rfl
        · exact fun hmem => hbefore (List.mem_cons_of_mem _ hmem)
      | nil =>
        -- the thread has reached it, and closes the file that its queue promised
        obtain ⟨rfl, rfl⟩ := List.cons.inj hqueue
        obtain ⟨writer, hwriter, hgood⟩ := hhandles.accepts
        have hpopped : { journal with ring := { journal.ring with queue := [] } }.writer = some writer := hwriter
        have hnext := hhandles.next
        rw [handle_disconnect hpopped hgood] at hnext
        have hempty : journal'.ring.queue = [] := by rw [hhandles.ring]
        rw [drained_of_empty hempty, hnext] at hclosed
        have hfile : writer.file = file := (List.append_inj' hclosed rfl).2 |> List.singleton_injective
        refine Or.inl ⟨hempty, ?_⟩
        rw [hnext, ← hfile]
        rfl

/-- Past the barrier nothing is queued, and the thread reports the file it closed. -/
theorem Closing.finish (h : Closing files file error journal) {records : ℕ} (hsignal : journal.signal = some records) :
    records = file.records.length ∧ ∀ sequence, Running (files ++ [file]) none sequence error journal := by
  rcases h.barrier with ⟨hqueue, hreported⟩ | ⟨hnone, -⟩
  · rw [hsignal, Option.some.injEq] at hreported
    refine ⟨hreported, fun sequence => ?_⟩
    refine ⟨h.admits, h.failure, h.dropped, h.closed, ⟨sequence, h.writer, fun _ => rfl⟩, h.count, ?_, fun _ => hqueue⟩
    rw [hqueue]
    exact List.not_mem_nil
  · rw [hsignal] at hnone
    cases hnone

/-- A thread with nothing to do has the files on disk. -/
theorem Running.quiet (h : Running files none sequence error journal) :
    journal.files = files ∧ journal.recordsWritten = 0 := by
  have hdrained := drained_of_empty (h.idle rfl)
  have hclosed := h.closed
  have hcount := h.count
  rw [hdrained] at hclosed hcount
  exact ⟨hclosed, hcount⟩

end Store

end JournalThread

end CryptoTrader
