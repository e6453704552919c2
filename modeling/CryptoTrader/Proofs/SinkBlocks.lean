import CryptoTrader.Sanity.CaptureSession

/-! What the sinks of a capture session hear. A sink should hear blocks: a connect, its
frames numbered from 2 on, its disconnect. It does, in either mode and whatever fails,
unless a wire message comes while an inline session holds the file of a connect whose
marker could not be written: such a connect was never announced, and its frames are
handed to the sinks all the same. -/

namespace CryptoTrader

open CaptureSession

/-- What a sink should hear of one connect. -/
structure SinkBlock where
  connectId : ℕ
  reason : Bytes
  frames : List CaptureFrame := []
  ended : Bool := false

def SinkBlock.calls (b : SinkBlock) : List FeedEvent :=
  .connect b.connectId b.reason ::
    (b.frames.map .frame ++ if b.ended then [.disconnect b.connectId] else [])

/-- The calls are blocks with increasing ids, each numbering its frames from 2 on, and
only the last may be still open. -/
def WellFormedCalls (calls : List FeedEvent) : Prop :=
  ∃ blocks : List SinkBlock, calls = blocks.flatMap (·.calls) ∧
    (blocks.map (·.connectId)).Pairwise (· < ·) ∧
    (∀ b ∈ blocks, b.frames.map (·.captureSequence) = List.range' 2 b.frames.length) ∧
    ∀ b ∈ blocks.dropLast, b.ended = true

/-- The blocks heard so far: those that have ended, and the open one. -/
structure Heard (s : CaptureSession) (past : List SinkBlock) (current : Option SinkBlock) : Prop where
  calls : s.sinkCalls = (past ++ current.toList).flatMap (·.calls)
  ids : ((past ++ current.toList).map (·.connectId)).Pairwise (· < ·)
  sequences : ∀ b ∈ past ++ current.toList, b.frames.map (·.captureSequence) = List.range' 2 b.frames.length
  past_ended : ∀ b ∈ past, b.ended = true ∧ b.connectId ≤ s.connectId
  current_open : ∀ b, current = some b →
    b.ended = false ∧ b.connectId = s.connectId ∧ s.sequence = b.frames.length + 1
  announced : s.announced = current.isSome

namespace Heard

variable {s : CaptureSession} {past : List SinkBlock} {current : Option SinkBlock} {b : SinkBlock}

theorem wellFormed (h : Heard s past current) : WellFormedCalls s.sinkCalls := by
  refine ⟨past ++ current.toList, h.calls, h.ids, h.sequences, fun b hb => ?_⟩
  cases current with
  | none =>
    rw [Option.toList_none, List.append_nil] at hb
    exact (h.past_ended b (List.dropLast_subset _ hb)).1
  | some last =>
    rw [Option.toList_some, List.dropLast_concat] at hb
    exact (h.past_ended b hb).1

/-- A stamped frame joins the open block. -/
theorem frame (h : Heard s past (some b)) (call : WireCall) :
    Heard (s.captured call) past (some { b with frames := b.frames ++ [s.wireFrame call] }) := by
  obtain ⟨hopen, hid, hseq⟩ := h.current_open b rfl
  have hcalls := h.calls
  simp only [Option.toList_some, List.flatMap_append, List.flatMap_singleton] at hcalls
  refine ⟨?_, ?_, fun c hc => ?_, h.past_ended, fun c hc => ?_, h.announced⟩
  · simp only [captured, hcalls, Option.toList_some, List.flatMap_append, List.flatMap_singleton, SinkBlock.calls, hopen,
      List.map_append, List.append_assoc, List.cons_append]
    simp
  · have hids := h.ids
    simp only [Option.toList_some, List.map_append, List.map_cons, List.map_nil] at hids ⊢
    exact hids
  · rcases List.mem_append.1 hc with hc | hc
    · exact h.sequences c (List.mem_append_left _ hc)
    · obtain rfl := List.mem_singleton.1 hc
      have hb := h.sequences b (List.mem_append_right _ (List.mem_singleton.2 rfl))
      have hnext : (s.wireFrame call).captureSequence = 2 + b.frames.length := by
        simp only [wireFrame, stamp, hseq]
        omega
      simp only [List.map_append, List.map_cons, List.map_nil, hb, hnext, List.length_append, List.length_cons,
        List.length_nil, List.range'_concat, Nat.one_mul]
  · cases hc
    refine ⟨hopen, hid, ?_⟩
    simp only [captured, hseq, List.length_append, List.length_cons, List.length_nil]

/-- The end of a connect ends its block, if it has one. -/
theorem ended (h : Heard s past current) (flushed : Bool) (records : ℕ) :
    ∃ past', Heard (s.ended flushed records) past' none := by
  rw [ended_eq]
  cases current with
  | none =>
    have hannounced : s.announced = false := h.announced
    refine ⟨past, ?_, h.ids, h.sequences, h.past_ended, (fun _ hb => by cases hb), rfl⟩
    simp only [hannounced, Bool.false_eq_true, if_false, List.append_nil]
    exact h.calls
  | some b =>
    have hannounced : s.announced = true := h.announced
    obtain ⟨hopen, hid, -⟩ := h.current_open b rfl
    have hcalls := h.calls
    have hids := h.ids
    simp only [Option.toList_some, List.flatMap_append, List.flatMap_singleton] at hcalls
    simp only [Option.toList_some, List.map_append, List.map_cons, List.map_nil] at hids
    refine ⟨past ++ [{ b with ended := true }], ?_, ?_, fun c hc => ?_, fun c hc => ?_, (fun _ hb => by cases hb), rfl⟩
    · simp only [hannounced, if_true, hcalls, Option.toList_none, List.append_nil, List.flatMap_append,
        List.flatMap_singleton, SinkBlock.calls, hopen, hid]
      simp
    · simp only [Option.toList_none, List.append_nil, List.map_append, List.map_cons, List.map_nil]
      exact hids
    · rw [Option.toList_none, List.append_nil] at hc
      rcases List.mem_append.1 hc with hc | hc
      · exact h.sequences c (List.mem_append_left _ hc)
      · obtain rfl := List.mem_singleton.1 hc
        exact h.sequences b (List.mem_append_right _ (List.mem_singleton.2 rfl))
    · rcases List.mem_append.1 hc with hc | hc
      · exact h.past_ended c hc
      · obtain rfl := List.mem_singleton.1 hc
        exact ⟨rfl, Nat.le_of_eq hid⟩

/-- A new connect opens a block, or fails and the sinks hear nothing of it. -/
theorem connect {J : JournalPlatform} (h : Heard s past none) (hroom : s.connectId + 1 < kIdModulus)
    (call : ConnectCall) : ∃ current', Heard (s.openConnect J call) past current' := by
  have hnext : (s.connectId + 1) % kIdModulus = s.connectId + 1 := Nat.mod_eq_of_lt hroom
  have hpast : ∀ b ∈ past, b.ended = true ∧ b.connectId ≤ (s.connectId + 1) % kIdModulus := by
    intro b hb
    obtain ⟨hended, hle⟩ := h.past_ended b hb
    exact ⟨hended, by omega⟩
  have hannounced : ∀ t : CaptureSession,
      t.sinkCalls = s.sinkCalls ++ [.connect ((s.connectId + 1) % kIdModulus) call.reason] →
      t.connectId = (s.connectId + 1) % kIdModulus → t.sequence = 1 → t.announced = true →
      Heard t past (some { connectId := (s.connectId + 1) % kIdModulus, reason := call.reason }) := by
    intro t hcalls hid hseq hann
    have hs := h.calls
    have hids := h.ids
    rw [Option.toList_none, List.append_nil] at hs hids
    refine ⟨?_, ?_, fun c hc => ?_, ?_, fun c hc => ?_, hann⟩
    · rw [hcalls, hs, List.flatMap_append]
      rfl
    · rw [List.map_append, List.pairwise_append]
      refine ⟨hids, List.pairwise_singleton _ _, fun x hx y hy => ?_⟩
      obtain ⟨b, hb, rfl⟩ := List.mem_map.1 hx
      obtain rfl := List.mem_singleton.1 hy
      have hle := (h.past_ended b hb).2
      change b.connectId < (s.connectId + 1) % kIdModulus
      omega
    · rcases List.mem_append.1 hc with hc | hc
      · exact h.sequences c (List.mem_append_left _ hc)
      · obtain rfl := List.mem_singleton.1 hc
        rfl
    · rw [hid]
      exact hpast
    · cases hc
      exact ⟨rfl, hid.symm, hseq⟩
  have hconnect := openConnect_cases J s call
  generalize s.openConnect J call = t at hconnect ⊢
  cases hconnect with
  | failed error hcause => exact ⟨none, h.calls, h.ids, h.sequences, hpast, (fun _ hb => by cases hb), h.announced⟩
  | markerFailed error hmode hcause herror =>
    exact ⟨none, h.calls, h.ids, h.sequences, hpast, (fun _ hb => by cases hb), h.announced⟩
  | threaded hmode hcause => exact ⟨_, hannounced _ rfl rfl rfl rfl⟩
  | inline hmode hcause herror => exact ⟨_, hannounced _ rfl rfl rfl rfl⟩

/-- Blocks depend only on what the sinks heard and on the counters of the connect. -/
theorem keep (h : Heard s past current) {t : CaptureSession} (hcalls : t.sinkCalls = s.sinkCalls)
    (hid : t.connectId = s.connectId) (hseq : t.sequence = s.sequence) (hannounced : t.announced = s.announced) :
    Heard t past current := by
  refine ⟨hcalls.trans h.calls, h.ids, h.sequences, ?_, ?_, hannounced.trans h.announced⟩
  · rw [hid]
    exact h.past_ended
  · rw [hid, hseq]
    exact h.current_open

/-- A wire message outside a file changes nothing; inside one it adds a frame to the open
block, if its connect was announced. -/
theorem wire (h : Heard s past current) (hmode : s.ModeInv) (call : WireCall)
    (hannounced : s.writer.isSome = true → s.announced = true) :
    ∃ current', Heard (s.onWireMessage call) past current' := by
  have hopenBlock : s.announced = true → ∃ b, Heard (s.captured call) past (some b) := by
    intro hopen
    rw [h.announced, Option.isSome_iff_exists] at hopen
    obtain ⟨b, rfl⟩ := hopen
    exact ⟨_, h.frame call⟩
  have htakes := s.onWireMessage_cases call
  generalize s.onWireMessage call = t at htakes ⊢
  cases htakes with
  | notOpen hopen => exact ⟨current, h.keep rfl rfl rfl rfl⟩
  | threaded hm hopen =>
    have hjournal : s.announced = true := by
      rw [← (hmode.threaded hm).2]
      simpa only [isOpen, hm] using hopen
    obtain ⟨b, hb⟩ := hopenBlock hjournal
    exact ⟨some b, hb.keep rfl rfl rfl rfl⟩
  | inline writer hm hopen hwriter =>
    obtain ⟨b, hb⟩ := hopenBlock (hannounced (by rw [hwriter]; rfl))
    exact ⟨some b, hb.keep rfl rfl rfl rfl⟩

end Heard

/-- The `BeginConnect` calls of a run. -/
def begins (actions : List SessionAction) : ℕ :=
  (sessionCalls actions).countP fun call => match call with
    | .beginConnect _ => true
    | _ => false

theorem begins_snoc (actions : List SessionAction) (action : SessionAction) :
    begins (actions ++ [action]) = begins actions + begins [action] := by
  unfold begins sessionCalls
  rw [List.filterMap_append, List.countP_append]

/-- A call that waits and has still to number its connect. -/
def pendingBegin (s : CaptureSession) : ℕ :=
  match s.waiting with
  | some (.beginConnect _) => 1
  | _ => 0

theorem pendingBegin_eq_zero {s : CaptureSession} (h : s.waiting = none) : pendingBegin s = 0 := by
  rw [pendingBegin, h]

theorem begins_pending {s : CaptureSession} {call : SessionCall} (h : s.waiting = some call) :
    begins [.call call] = pendingBegin s := by
  rw [pendingBegin, h]
  rcases call with connect | wire | flushed <;> rfl

/-- What a call with a `Close` in it goes on to do numbers at most the connect it begins. -/
theorem goOn_connectId_le {J : JournalPlatform} {q : CaptureSession} (hwaiting : q.waiting = none) {call : SessionCall}
    (hcall : call.flushed?.isSome = true) :
    (q.goOn J call).connectId + pendingBegin (q.goOn J call) ≤ q.connectId + begins [.call call] := by
  rcases call with connect | wire | flushed
  · obtain ⟨-, hid, hsame⟩ := openConnect_keeps J q connect
    change (q.openConnect J connect).connectId + pendingBegin (q.openConnect J connect) ≤ q.connectId + 1
    rw [pendingBegin_eq_zero (hsame.trans hwaiting), hid, Nat.add_zero]
    exact Nat.mod_le _ _
  · cases hcall
  · have hnone : pendingBegin (q.returns .closed) = 0 := pendingBegin_eq_zero hwaiting
    change q.connectId + pendingBegin (q.returns .closed) ≤ _
    omega

/-- Ids are numbered by the connects begun. -/
theorem connectId_le_begins {J : JournalPlatform} {config : SessionConfig} {actions : List SessionAction}
    {s : CaptureSession} (hrun : (start config).run J actions = some s) :
    s.connectId + pendingBegin s ≤ begins actions := by
  refine run_induction (I := fun actions s => s.connectId + pendingBegin s ≤ begins actions) (Nat.le_refl 0)
    (fun actions s action s' _ _ hle hstep => ?_) hrun
  have hended : ∀ flushed records, (s.ended flushed records).connectId = s.connectId ∧
      (s.ended flushed records).waiting = none := by
    intro flushed records
    rw [ended_eq]
    exact ⟨rfl, rfl⟩
  rw [begins_snoc]
  cases hstep with
  | wire call hwaiting =>
    obtain ⟨-, hid, hsame⟩ := s.onWireMessage_keeps call
    rw [hid, pendingBegin, hsame]
    exact hle
  | wait call hcall hwaiting hopen =>
    simp only [pendingBegin, hwaiting] at hle ⊢
    rcases call with connect | wire | flushed
    · exact Nat.add_le_add_right hle 1
    · cases hcall
    · exact hle
  | close call flushed hcall hwaiting hopen =>
    obtain ⟨hid, hnone⟩ := hended flushed 0
    have hsome : call.flushed?.isSome = true := by rw [hcall]; rfl
    have hnext := goOn_connectId_le (J := J) hnone hsome
    rw [pendingBegin_eq_zero hwaiting] at hle
    omega
  | resume call records hcall hwaiting hsignal hopen =>
    obtain ⟨hid, hnone⟩ := hended true records
    have hnext := goOn_connectId_le (J := J) hnone hcall
    have hsame := begins_pending hwaiting
    omega
  | journal written journal hjournal => exact hle

section Runs

/-- A wire message does not come while the session holds a file whose connect was not
announced. -/
def AnnouncedWire (s : CaptureSession) (action : SessionAction) : Prop :=
  ∀ wire, action = .call (.onWireMessage wire) → s.writer.isSome = true → s.announced = true

variable {J : JournalPlatform} {config : SessionConfig} {actions : List SessionAction} {action : SessionAction}
  {s s' : CaptureSession}

/-- Whether a sink is inside a block. -/
def insideStep : Bool → FeedEvent → Option Bool
  | false, .connect _ _ => some true
  | true, .frame _ => some true
  | true, .disconnect _ => some false
  | _, _ => none

abbrev inside (calls : List FeedEvent) : Option Bool := Machine.run insideStep false calls

theorem inside_block (b : SinkBlock) : inside b.calls = some !b.ended := by
  have hframes : ∀ frames : List CaptureFrame, Machine.run insideStep true (frames.map .frame) = some true := by
    intro frames
    induction frames with
    | nil => rfl
    | cons f frames ih => exact ih
  have hrest : inside b.calls =
      Machine.run insideStep true (b.frames.map .frame ++ if b.ended then [.disconnect b.connectId] else []) := rfl
  rw [hrest, Machine.run_append, hframes]
  cases b.ended <;> rfl

theorem inside_wellFormed {calls : List FeedEvent} (h : WellFormedCalls calls) : (inside calls).isSome = true := by
  obtain ⟨blocks, rfl, -, -, hended⟩ := h
  induction blocks with
  | nil => rfl
  | cons b blocks ih =>
    rw [List.flatMap_cons, inside, Machine.run_append]
    change ((inside b.calls).bind fun s' => _).isSome = true
    rw [inside_block]
    cases blocks with
    | nil => rfl
    | cons b' blocks =>
      rw [hended b (by simp)]
      exact ih fun c hc => hended c (List.mem_cons_of_mem _ hc)

/-- What follows the end of a connect adds a connect to the sinks' calls, or nothing. -/
theorem goOn_inside {q : CaptureSession} (hquiet : q.Quiet) (call : SessionCall) :
    ∃ calls, (q.goOn J call).sinkCalls = q.sinkCalls ++ calls ∧ inside calls = some (q.goOn J call).announced := by
  have hsame : ∀ t : CaptureSession, t.sinkCalls = q.sinkCalls → t.announced = q.announced →
      ∃ calls, t.sinkCalls = q.sinkCalls ++ calls ∧ inside calls = some t.announced := by
    intro t hcalls hannounced
    refine ⟨[], by rw [hcalls, List.append_nil], ?_⟩
    rw [hannounced, hquiet.announced]
    rfl
  rcases call with connect | wire | flushed
  · have hconnect := openConnect_cases J q connect
    simp only [goOn]
    generalize q.openConnect J connect = t at hconnect ⊢
    cases hconnect with
    | failed error hcause => exact hsame _ rfl rfl
    | markerFailed error hmode hcause herror => exact hsame _ rfl rfl
    | threaded hmode hcause => exact ⟨_, rfl, rfl⟩
    | inline hmode hcause herror => exact ⟨_, rfl, rfl⟩
  · exact hsame _ rfl rfl
  · exact hsame _ rfl rfl

theorem ended_inside (s : CaptureSession) (flushed : Bool) (records : ℕ) (call : SessionCall) :
    ∃ calls, ((s.ended flushed records).goOn J call).sinkCalls = s.sinkCalls ++ calls ∧
      Machine.run insideStep s.announced calls = some ((s.ended flushed records).goOn J call).announced := by
  obtain ⟨calls, hcalls, hinside⟩ := goOn_inside (J := J) (s.ended_quiet flushed records) call
  refine ⟨(if s.announced then [.disconnect s.connectId] else []) ++ calls, ?_, ?_⟩
  · rw [hcalls, ended_eq, List.append_assoc]
  · rw [Machine.run_append, ← hinside]
    cases s.announced <;> rfl

/-- A step keeps a sink where the session is, or hands it a frame of a connect that was
not announced. -/
theorem step_inside (hmode : s.ModeInv) (hstep : Step J s action s') :
    ∃ calls, s'.sinkCalls = s.sinkCalls ++ calls ∧
      (Machine.run insideStep s.announced calls = none ∨
        Machine.run insideStep s.announced calls = some s'.announced ∧
          AnnouncedWire s action) := by
  cases hstep with
  | wire call hwaiting =>
    have htakes := s.onWireMessage_cases call
    generalize s.onWireMessage call = t at htakes ⊢
    cases htakes with
    | notOpen hopen =>
      refine ⟨[], (List.append_nil _).symm, Or.inr ⟨rfl, fun _ _ hwriter => ?_⟩⟩
      unfold isOpen at hopen
      cases hm : s.config.journalMode with
      | inline =>
        rw [hm] at hopen
        simp only [hwriter, Bool.true_eq_false] at hopen
      | threaded =>
        rw [(hmode.threaded hm).1] at hwriter
        cases hwriter
    | threaded hm hopen =>
      have hannounced : s.announced = true := by
        rw [← (hmode.threaded hm).2]
        simpa only [isOpen, hm] using hopen
      refine ⟨_, rfl, Or.inr ⟨?_, fun _ _ _ => hannounced⟩⟩
      change Machine.run insideStep s.announced [_] = some s.announced
      rw [hannounced]
      rfl
    | inline writer hm hopen hwriter =>
      refine ⟨_, rfl, ?_⟩
      change Machine.run insideStep s.announced [_] = none ∨ Machine.run insideStep s.announced [_] = some s.announced ∧ _
      cases hannounced : s.announced with
      | false => exact Or.inl rfl
      | true => exact Or.inr ⟨rfl, fun _ _ _ => hannounced⟩
  | wait call hcall hwaiting hopen =>
    refine ⟨[], (List.append_nil _).symm, Or.inr ⟨rfl, ?_⟩⟩
    rintro wire ⟨⟩
    cases hcall
  | close call flushed hcall hwaiting hopen =>
    obtain ⟨calls, hcalls, hinside⟩ := ended_inside (J := J) s flushed 0 call
    refine ⟨calls, hcalls, Or.inr ⟨hinside, ?_⟩⟩
    rintro wire ⟨⟩
    cases hcall
  | resume call records hcall hwaiting hsignal hopen =>
    obtain ⟨calls, hcalls, hinside⟩ := ended_inside (J := J) s true records call
    exact ⟨calls, hcalls, Or.inr ⟨hinside, by rintro wire ⟨⟩⟩⟩
  | journal written journal hjournal =>
    exact ⟨[], (List.append_nil _).symm, Or.inr ⟨rfl, by rintro wire ⟨⟩⟩⟩

/-- A sink that is never handed a frame outside a block is where the session is. -/
theorem run_inside (hrun : (start config).run J actions = some s) :
    inside s.sinkCalls = none ∨
      inside s.sinkCalls = some s.announced ∧ Machine.Along (step J) AnnouncedWire (start config) actions := by
  refine run_induction (I := fun actions s => inside s.sinkCalls = none ∨
    inside s.sinkCalls = some s.announced ∧ Machine.Along (step J) AnnouncedWire (start config) actions) ?_
    (fun actions s action s' hmid hmode ih hstep => ?_) hrun
  · exact Or.inr ⟨rfl, trivial⟩
  · obtain ⟨calls, hcalls, hinside⟩ := step_inside hmode hstep
    rw [hcalls, inside, Machine.run_append]
    rcases ih with hnone | ⟨hsome, hwires⟩
    · rw [inside] at hnone
      rw [hnone]
      exact Or.inl rfl
    · rw [inside] at hsome
      rw [hsome]
      rcases hinside with hnone | ⟨hnext, hlast⟩
      · exact Or.inl hnone
      · exact Or.inr ⟨hnext, (Machine.along_snoc _ _ _ hmid).2 ⟨hwires, hlast⟩⟩

/-- The end of a connect and what the call goes on to do, while ids do not wrap. -/
theorem Heard.goOn {past : List SinkBlock} {current : Option SinkBlock} (h : Heard s past current) (flushed : Bool)
    (records : ℕ) (call : SessionCall) (hroom : s.connectId + begins [.call call] < kIdModulus) :
    ∃ past' current', Heard ((s.ended flushed records).goOn J call) past' current' := by
  obtain ⟨past', hended⟩ := h.ended flushed records
  rcases call with connect | wire | flushed'
  · obtain ⟨current', hnext⟩ := hended.connect (J := J) (by rw [ended_eq]; exact hroom) connect
    exact ⟨past', current', hnext⟩
  · exact ⟨past', none, hended⟩
  · exact ⟨past', none, hended.keep rfl rfl rfl rfl⟩

/-- As long as no wire message comes for a connect that was not announced, the sinks hear
blocks. -/
theorem run_heard (hrun : (start config).run J actions = some s) (hids : begins actions < kIdModulus)
    (hwires : Machine.Along (step J) AnnouncedWire (start config) actions) : ∃ past current, Heard s past current := by
  revert hids hwires
  refine run_induction (I := fun actions s => begins actions < kIdModulus →
    Machine.Along (step J) AnnouncedWire (start config) actions → ∃ past current, Heard s past current) ?_
    (fun actions s action s' hmid hmode ih hstep hids hwires => ?_) hrun
  · intro _ _
    refine ⟨[], none, rfl, List.Pairwise.nil, ?_, ?_, (fun _ hb => by cases hb), rfl⟩ <;> intro b hb <;> cases hb
  · have hbegins := begins_snoc actions action
    have hle := connectId_le_begins hmid
    obtain ⟨hprev, hlast⟩ := (Machine.along_snoc _ _ _ hmid).1 hwires
    obtain ⟨past, current, hheard⟩ := ih (by omega) hprev
    cases hstep with
    | wire call hwaiting => exact ⟨past, hheard.wire hmode call (hlast call rfl)⟩
    | wait call hcall hwaiting hopen => exact ⟨past, current, hheard.keep rfl rfl rfl rfl⟩
    | close call flushed hcall hwaiting hopen => exact hheard.goOn flushed 0 call (by omega)
    | resume call records hcall hwaiting hsignal hopen =>
      refine hheard.goOn true records call ?_
      rw [begins_pending hwaiting]
      omega
    | journal written journal hjournal => exact ⟨past, current, hheard.keep rfl rfl rfl rfl⟩

/-- A session whose last call was `Close` is quiet. -/
theorem run_closed (hrun : (start config).run J actions = some s) (hwaiting : s.waiting = none)
    (hlast : s.results.getLast? = some .closed) : s.Quiet := by
  have hinv : s.waiting = none → s.results.getLast? = some .closed → s.Quiet := by
    refine run_induction (I := fun _ s => s.waiting = none → s.results.getLast? = some .closed → s.Quiet) ?_
      (fun actions s action s' _ _ ih hstep hwaiting hlast => ?_) hrun
    · intro _ h
      cases h
    have hgoOn : ∀ (q : CaptureSession) call, q.Quiet → call.flushed?.isSome = true →
        (q.goOn J call).results.getLast? = some .closed → (q.goOn J call).Quiet := by
      intro q call hquiet hcall hclosed
      rcases call with connect | wire | flushed
      · have hconnect := openConnect_cases J q connect
        simp only [goOn] at hclosed ⊢
        generalize q.openConnect J connect = t at hconnect hclosed ⊢
        cases hconnect <;> simp [returns, announce] at hclosed
      · cases hcall
      · exact ⟨hquiet.writer, hquiet.journalOpen, hquiet.announced, hquiet.waiting⟩
    cases hstep with
    | wire call hw =>
      have htakes := s.onWireMessage_cases call
      generalize s.onWireMessage call = t at htakes hlast ⊢
      cases htakes <;> simp [returns] at hlast
    | wait call hcall hw hopen => cases hwaiting
    | close call flushed hcall hw hopen =>
      exact hgoOn _ call (s.ended_quiet flushed 0) (by rw [hcall]; rfl) hlast
    | resume call records hcall hw hsignal hopen => exact hgoOn _ call (s.ended_quiet true records) hcall hlast
    | journal written journal hjournal =>
      have hquiet := ih hwaiting hlast
      exact ⟨hquiet.writer, hquiet.journalOpen, hquiet.announced, hquiet.waiting⟩
  exact hinv hwaiting hlast

/-- A `Close` right after a `Close` delivers nothing. -/
def SecondCloseSilent (J : JournalPlatform) (s : CaptureSession) : Prop :=
  s.waiting = none → s.results.getLast? = some .closed →
    ∀ flushed s', s.step J (.call (.close flushed)) = some s' → s'.sinkCalls = s.sinkCalls

theorem run_secondCloseSilent (hrun : (start config).run J actions = some s) : SecondCloseSilent J s := by
  intro hwaiting hlast flushed s' hstep
  have hquiet := run_closed hrun hwaiting hlast
  cases step_inversion (run_mode hrun) hstep with
  | wait call hcall hw hopen => simp [hquiet.journalOpen] at hopen
  | close call flushed' hcall hw hopen =>
    change (s.ended flushed' 0).sinkCalls = s.sinkCalls
    rw [ended_eq]
    simp [hquiet.announced]

end Runs

/-- The sinks of a session that numbers its connects within 64 bits hear blocks, and
nothing from a second `Close`, exactly when no wire message comes while the session holds
the file of a connect that it could not announce. -/
theorem sinks_hear_blocks_iff (J : JournalPlatform) (config : SessionConfig) (actions : List SessionAction)
    (s : CaptureSession) (hrun : (start config).run J actions = some s) (hids : begins actions < kIdModulus) :
    (WellFormedCalls s.sinkCalls ∧ SecondCloseSilent J s) ↔ Machine.Along (step J) AnnouncedWire (start config) actions := by
  constructor
  · rintro ⟨hcalls, -⟩
    have hinside := inside_wellFormed hcalls
    rcases run_inside hrun with hnone | ⟨-, hwires⟩
    · rw [hnone] at hinside
      cases hinside
    · exact hwires
  · intro hwires
    obtain ⟨past, current, hheard⟩ := run_heard hrun hids hwires
    exact ⟨hheard.wellFormed, run_secondCloseSilent hrun⟩

/-- A connect, a frame and a close, in inline mode. -/
def announcedActions : List SessionAction :=
  [.call (.beginConnect firstConnect), .call (.onWireMessage firstWire), .call (.close true)]

theorem announced_actions_heard :
    ∃ s, (start {}).run blankJournal announcedActions = some s ∧ begins announcedActions < kIdModulus ∧
      WellFormedCalls s.sinkCalls ∧ SecondCloseSilent blankJournal s := by
  refine ⟨_, rfl, by decide, ?_⟩
  refine (sinks_hear_blocks_iff blankJournal {} announcedActions _ rfl (by decide)).2 ?_
  refine ⟨(fun wire h => by cases h), fun s₁ h₁ => ⟨fun wire _ _ => ?_, fun s₂ h₂ => ?_⟩⟩
  · cases h₁
    rfl
  · exact ⟨(fun wire h => by cases h), fun _ _ => trivial⟩

/-- The marker of a connect cannot be written; the next frame goes to the sinks outside
any block. -/
def unannouncedActions : List SessionAction :=
  [.call (.beginConnect { firstConnect with markerWritten := false }), .call (.onWireMessage firstWire)]

theorem unannounced_frame_heard :
    ∃ s, (start {}).run blankJournal unannouncedActions = some s ∧
      s.sinkCalls = [.frame ⟨[7], 2, 2, .krakenJson⟩] ∧ ¬ WellFormedCalls s.sinkCalls := by
  refine ⟨_, rfl, rfl, fun hcalls => ?_⟩
  have hinside := inside_wellFormed hcalls
  revert hinside
  decide

end CryptoTrader
