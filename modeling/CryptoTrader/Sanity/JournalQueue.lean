import CryptoTrader.Sanity.CaptureSession

/-! What waits in the ring between a capture session and its journal thread, whatever the disk
does. Nothing waits while no file is open, and a call that waits for its file to be closed
has asked for that last. So the thread can always bring such a call to its end, and a session
that is quiet has left nothing behind. -/

namespace CryptoTrader

namespace JournalThread

variable (journal : JournalThread) (written : Bool)

theorem afterWrite_kept (writer : JournalWriter) :
    (journal.afterWrite writer).ring = journal.ring ∧ (journal.afterWrite writer).signal = journal.signal := by
  unfold afterWrite
  simp only
  split <;> exact ⟨rfl, rfl⟩

/-- Handling an event leaves the ring alone, and only the end of a file gives the signal. -/
theorem handle_shared (event : JournalEvent) :
    (journal.handle written event).ring = journal.ring ∧
      (event = .disconnect → (journal.handle written event).signal.isSome = true) ∧
      (event ≠ .disconnect → (journal.handle written event).signal = journal.signal) := by
  cases event with
  | frame frame =>
    simp only [handle]
    split
    · exact ⟨rfl, (fun h => by cases h), fun _ => rfl⟩
    · next writer _ =>
      obtain ⟨hring, hsignal⟩ := journal.afterWrite_kept (writer.onFrame frame written)
      exact ⟨hring, (fun h => by cases h), fun _ => hsignal⟩
  | connect writer marker =>
    obtain ⟨hring, hsignal⟩ := journal.closeFile.afterWrite_kept (writer.writeConnectMarker marker written)
    exact ⟨hring, (fun h => by cases h), fun _ => hsignal⟩
  | disconnect =>
    simp only [handle]
    split
    · exact ⟨rfl, fun _ => rfl, fun h => absurd rfl h⟩
    · next writer _ =>
      have hring := (journal.afterWrite_kept (writer.flush written)).1
      exact ⟨hring, fun _ => rfl, fun h => absurd rfl h⟩

/-- What a push leaves in the ring. -/
theorem push_shared (capacity : ℕ) (frame : CaptureFrame) (room : Bool) :
    ((journal.push capacity frame room).1.ring.queue = journal.ring.queue ∨
      (journal.push capacity frame room).1.ring.queue = journal.ring.queue ++ [.frame frame]) ∧
    (journal.push capacity frame room).1.signal = journal.signal := by
  unfold push
  split_ifs
  · exact ⟨.inl rfl, rfl⟩
  · cases room with
    | true => exact ⟨.inr rfl, rfl⟩
    | false => exact ⟨.inl rfl, rfl⟩

end JournalThread

namespace CaptureSession

/-- What is queued for the journal thread. -/
structure Queued (s : CaptureSession) : Prop where
  closed : s.journalOpen = false → s.journal.ring.queue = []
  serving : s.waiting = none → JournalEvent.disconnect ∉ s.journal.ring.queue
  waiting : s.waiting.isSome = true →
    s.journal.signal.isSome = true ∧ s.journal.ring.queue = [] ∨
      s.journal.signal = none ∧ ∃ before, s.journal.ring.queue = before ++ [.disconnect] ∧ .disconnect ∉ before

namespace Queued

variable {J : JournalPlatform} {s s' : CaptureSession} {action : SessionAction}

theorem start (config : SessionConfig) : (CaptureSession.start config).Queued :=
  ⟨fun _ => rfl, (fun _ h => by cases h), fun h => by cases h⟩

theorem of_empty (hqueue : s.journal.ring.queue = []) (hwaiting : s.waiting = none) : s.Queued := by
  refine ⟨fun _ => hqueue, fun _ h => ?_, fun h => ?_⟩
  · rw [hqueue] at h
    cases h
  · rw [hwaiting] at h
    cases h

/-- What goes on from a quiet session with nothing queued queues at most a connect. -/
theorem goOn {q : CaptureSession} (hquiet : q.Quiet) (hqueue : q.journal.ring.queue = []) (call : SessionCall) :
    (q.goOn J call).Queued := by
  cases call with
  | close flushed => exact of_empty hqueue hquiet.waiting
  | onWireMessage wire => exact of_empty hqueue hquiet.waiting
  | beginConnect connect =>
    have hconnect := openConnect_cases J q connect
    simp only [CaptureSession.goOn]
    generalize q.openConnect J connect = t at hconnect ⊢
    cases hconnect with
    | failed error hcause => exact of_empty hqueue hquiet.waiting
    | markerFailed error hmode hcause herror => exact of_empty hqueue hquiet.waiting
    | inline hmode hcause herror => exact of_empty hqueue hquiet.waiting
    | threaded hmode hcause =>
      have hwaiting : q.waiting = none := hquiet.waiting
      refine ⟨(fun h => by cases h), fun _ h => ?_, fun h => ?_⟩
      · change _ ∈ q.journal.ring.queue ++ [_] at h
        rw [hqueue] at h
        cases List.mem_singleton.1 h
      · change q.waiting.isSome = true at h
        rw [hwaiting] at h
        cases h

theorem ended_queue (flushed : Bool) (records : ℕ) : (s.ended flushed records).journal = s.journal := by
  rw [ended_eq]

theorem wire (h : s.Queued) (hwaiting : s.waiting = none) (call : WireCall) : (s.onWireMessage call).Queued := by
  have htakes := s.onWireMessage_cases call
  have hserving := h.serving hwaiting
  generalize s.onWireMessage call = t at htakes ⊢
  cases htakes with
  | notOpen hopen => exact ⟨h.closed, h.serving, h.waiting⟩
  | inline writer hmode hopen hwriter => exact ⟨h.closed, h.serving, h.waiting⟩
  | threaded hmode hopen =>
    obtain ⟨hqueue, -⟩ := s.journal.push_shared s.config.ringCapacity (s.wireFrame call) call.room
    refine ⟨fun hclosed => ?_, fun _ hmem => ?_, fun hw => ?_⟩
    · change s.journalOpen = false at hclosed
      rw [isOpen, hmode] at hopen
      simp only [hclosed, Bool.false_eq_true] at hopen
    · change JournalEvent.disconnect ∈ (s.journal.push _ _ _).1.ring.queue at hmem
      rcases hqueue with hqueue | hqueue
      · rw [hqueue] at hmem
        exact hserving hmem
      · rw [hqueue] at hmem
        rcases List.mem_append.1 hmem with hmem | hmem
        · exact hserving hmem
        · cases List.mem_singleton.1 hmem
    · change s.waiting.isSome = true at hw
      rw [hwaiting] at hw
      cases hw

theorem journal (h : s.Queued) {written : Bool} {journal : JournalThread} (hstep : s.journal.step written = some journal) :
    ({ s with journal } : CaptureSession).Queued := by
  unfold JournalThread.step SpscRing.pop at hstep
  cases hqueue : s.journal.ring.queue with
  | nil =>
    rw [hqueue] at hstep
    cases hstep
  | cons event rest =>
    rw [hqueue] at hstep
    cases hstep
    obtain ⟨hring, hgives, hkeeps⟩ := JournalThread.handle_shared
      { s.journal with ring := { s.journal.ring with queue := rest } } written event
    refine ⟨fun hclosed => ?_, fun hwaiting hmem => ?_, fun hwaiting => ?_⟩
    · have hempty := h.closed hclosed
      rw [hqueue] at hempty
      cases hempty
    · refine h.serving hwaiting ?_
      rw [hqueue]
      simp only [hring] at hmem
      exact List.mem_cons_of_mem _ hmem
    · simp only [hring]
      rcases h.waiting hwaiting with ⟨-, hempty⟩ | ⟨hsignal, before, hlast, hbefore⟩
      · rw [hqueue] at hempty
        cases hempty
      · rw [hqueue] at hlast
        cases before with
        | nil =>
          obtain ⟨rfl, rfl⟩ := List.cons.inj hlast
          exact .inl ⟨hgives rfl, rfl⟩
        | cons first before =>
          obtain ⟨rfl, rfl⟩ := List.cons.inj hlast
          have hother : event ≠ .disconnect := fun heq => hbefore (heq ▸ List.mem_cons_self)
          exact .inr ⟨(hkeeps hother).trans hsignal, before, rfl, fun hmem => hbefore (List.mem_cons_of_mem _ hmem)⟩

theorem step (h : s.Queued) (hstep : Step J s action s') : s'.Queued := by
  cases hstep with
  | wire call hwaiting => exact h.wire hwaiting call
  | wait call hcall hwaiting hopen =>
    refine ⟨fun hclosed => ?_, (fun hnone => by cases hnone), fun _ => .inr ⟨rfl, _, rfl, h.serving hwaiting⟩⟩
    change s.journalOpen = false at hclosed
    rw [hopen] at hclosed
    cases hclosed
  | close call flushed hcall hwaiting hopen =>
    refine goOn (s.ended_quiet flushed 0) ?_ call
    rw [ended_queue]
    exact h.closed hopen
  | resume call records hcall hwaiting hsignal hopen =>
    refine goOn (s.ended_quiet true records) ?_ call
    rw [ended_queue]
    rcases h.waiting (by rw [hwaiting]; rfl) with ⟨-, hempty⟩ | ⟨hnone, -⟩
    · exact hempty
    · rw [hsignal] at hnone
      cases hnone
  | journal written journal hjournal => exact h.journal hjournal

/-- While a call waits the journal thread has given its signal or has something to do. -/
theorem can_step (h : s.Queued) (hwaiting : s.waiting.isSome = true) :
    s.journal.signal.isSome = true ∨
      ∃ journal, s.journal.step true = some journal ∧ journal.ring.queue.length < s.journal.ring.queue.length := by
  rcases h.waiting hwaiting with ⟨hsignal, -⟩ | ⟨-, before, hlast, -⟩
  · exact .inl hsignal
  · have hne : s.journal.ring.queue ≠ [] := by
      rw [hlast]
      simp
    obtain ⟨event, rest, hqueue⟩ := List.exists_cons_of_ne_nil hne
    refine .inr ⟨{ s.journal with ring := { s.journal.ring with queue := rest } }.handle true event, ?_, ?_⟩
    · unfold JournalThread.step SpscRing.pop
      rw [hqueue]
      rfl
    · rw [(JournalThread.handle_shared _ true event).1, hqueue]
      exact Nat.lt_succ_self _

end Queued

theorem run_queued {J : JournalPlatform} {config : SessionConfig} {actions : List SessionAction} {s : CaptureSession}
    (hrun : (CaptureSession.start config).run J actions = some s) : s.Queued :=
  run_induction (I := fun _ s => s.Queued) (Queued.start config) (fun _ _ _ _ _ _ hqueued hstep => hqueued.step hstep) hrun

end CaptureSession

end CryptoTrader
