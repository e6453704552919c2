import CryptoTrader.Sanity.FeedHandler

/-! What the exit code of the capture process tells. The process ends by itself only for a
connection that latched a fatal error, which it then names; without one it ends only once it
is asked to. -/

namespace CryptoTrader

namespace FeedHandler

variable {J : JournalPlatform} {h h' : FeedHandler} {i : ℕ} {capture : ClientCapture}

/-- What a step does to the connections: they stay the same ones, and a fatal error stays latched. -/
structure Latches (h h' : FeedHandler) : Prop where
  length : h'.captures.length = h.captures.length
  forth : ∀ (i : ℕ) (capture : ClientCapture), h.captures[i]? = some capture →
    ∃ capture', h'.captures[i]? = some capture' ∧ capture'.entry = capture.entry ∧
      (capture.fatal = true → capture'.fatal = true)

theorem Latches.same (hcaptures : h'.captures = h.captures) : h.Latches h' := by
  refine ⟨by rw [hcaptures], fun i capture hcapture => ⟨capture, ?_, rfl, id⟩⟩
  rw [hcaptures]
  exact hcapture

theorem Latches.trans_same {h₁ : FeedHandler} (hlatches : h.Latches h₁) (hcaptures : h'.captures = h₁.captures) :
    h.Latches h' := by
  refine ⟨by rw [hcaptures, hlatches.length], fun i capture hcapture => ?_⟩
  rw [hcaptures]
  exact hlatches.forth i capture hcapture

theorem Latches.set {capture' : ClientCapture} (hcaptures : h'.captures = h.captures.set i capture')
    (hcapture : h.captures[i]? = some capture) (hentry : capture'.entry = capture.entry)
    (hfatal : capture.fatal = true → capture'.fatal = true) : h.Latches h' := by
  refine ⟨by rw [hcaptures, List.length_set], fun j c hc => ?_⟩
  rw [hcaptures]
  by_cases hj : i = j
  · subst hj
    rw [hcapture] at hc
    cases hc
    exact ⟨capture', Machine.getElem?_set_of_some hcapture, hentry, hfatal⟩
  · exact ⟨c, by rw [List.getElem?_set_ne hj]; exact hc, rfl, id⟩

theorem stepSession_latches {action : SessionAction} {room : Bool} (hcapture : h.captures[i]? = some capture)
    (hnext : h.stepSession J i capture action room = some h') :
    h.Latches h' ∧ h'.main = h.main ∧ h'.fatalId = h.fatalId := by
  obtain ⟨session, -, rfl⟩ := Option.map_eq_some_iff.1 hnext
  exact ⟨Latches.set rfl hcapture rfl id, rfl, rfl⟩

theorem liveBooksHook_latches (hcapture : h.captures[i]? = some capture) :
    h.Latches (h.liveBooksHook i capture) ∧ (h.liveBooksHook i capture).fatalId = h.fatalId := by
  unfold liveBooksHook
  simp only
  split <;> exact ⟨Latches.set rfl hcapture rfl id, rfl⟩

theorem latches_of_step {action : HandlerAction} (hstep : h.step J action = some h') : h.Latches h' := by
  cases action with
  | session i action room =>
    obtain ⟨capture, hcapture, hnext⟩ := Option.bind_eq_some_iff.1 hstep
    split_ifs at hnext
    exact (stepSession_latches hcapture hnext).1
  | latchFatal i =>
    obtain ⟨capture, hcapture, rfl⟩ := Option.map_eq_some_iff.1 hstep
    exact Latches.set rfl hcapture rfl fun _ => rfl
  | ended i =>
    obtain ⟨capture, hcapture, hnext⟩ := Option.bind_eq_some_iff.1 hstep
    split_ifs at hnext
    cases hnext
    exact Latches.set rfl hcapture rfl id
  | books =>
    simp only [FeedHandler.step] at hstep
    split_ifs at hstep
    obtain ⟨books, -, rfl⟩ := Option.map_eq_some_iff.1 hstep
    exact Latches.same rfl
  | main shouldStop flushed =>
    cases mainStep_cases hstep with
    | started i rest capture hplace hcapture => exact (liveBooksHook_latches hcapture).1.trans_same rfl
    | requested i capture hplace hcapture => exact Latches.set rfl hcapture rfl id
    | allJoined i hplace hend =>
      unfold stopBooks
      split_ifs <;> exact Latches.same rfl
    | close i capture h₁ hplace hcapture hended hclose => exact (stepSession_latches hcapture hclose).1.trans_same rfl
    | closed i capture h₁ hplace hcapture hresume => exact (stepSession_latches hcapture hresume).1.trans_same rfl
    | _ => exact Latches.same rfl

/-- Only the main thread moves itself and notes a fatal connection. -/
theorem step_main_kept {action : HandlerAction} (hstep : h.step J action = some h')
    (haction : ∀ shouldStop flushed, action ≠ .main shouldStop flushed) : h'.main = h.main ∧ h'.fatalId = h.fatalId := by
  cases action with
  | session i action room =>
    obtain ⟨capture, hcapture, hnext⟩ := Option.bind_eq_some_iff.1 hstep
    split_ifs at hnext
    exact (stepSession_latches hcapture hnext).2
  | latchFatal i =>
    obtain ⟨capture, hcapture, rfl⟩ := Option.map_eq_some_iff.1 hstep
    exact ⟨rfl, rfl⟩
  | ended i =>
    obtain ⟨capture, hcapture, hnext⟩ := Option.bind_eq_some_iff.1 hstep
    split_ifs at hnext
    cases hnext
    exact ⟨rfl, rfl⟩
  | books =>
    simp only [FeedHandler.step] at hstep
    split_ifs at hstep
    obtain ⟨books, -, rfl⟩ := Option.map_eq_some_iff.1 hstep
    exact ⟨rfl, rfl⟩
  | main shouldStop flushed => exact absurd rfl (haction shouldStop flushed)

/-- The main thread has still to look at a connection before it asks for a stop. -/
def StillToPoll (i : ℕ) : MainThread → Prop
  | .starting _ | .sleeping => True
  | .polling index => index ≤ i
  | _ => False

/-- The main thread is past the polls. -/
def WindsDown : MainThread → Prop
  | .requesting _ | .joining _ | .closing _ | .draining | .exited _ => True
  | _ => False

/-- What the noted connection rests on: its fatal error, and without one a stop asked for. -/
structure Told (actions : List HandlerAction) (h : FeedHandler) : Prop where
  ids : ∀ (i : ℕ) (capture : ClientCapture), h.captures[i]? = some capture → capture.entry.id ≠ []
  noted : h.fatalId ≠ [] → ∃ (i : ℕ) (capture : ClientCapture),
    h.captures[i]? = some capture ∧ capture.fatal = true ∧ capture.entry.id = h.fatalId
  stopped : WindsDown h.main → h.fatalId ≠ [] ∨ ∃ flushed, .main true flushed ∈ actions

namespace Told

variable {actions : List HandlerAction} {action : HandlerAction}

/-- What a step leaves as it was known of the connections. -/
theorem keep (htold : h.Told actions) (hlatches : h.Latches h') (hfatal : h'.fatalId = h.fatalId)
    (hmain : WindsDown h'.main → WindsDown h.main ∨ ∃ flushed, action = .main true flushed) :
    h'.Told (actions ++ [action]) := by
  refine ⟨fun i capture' hcapture' => ?_, fun hne => ?_, fun hdown => ?_⟩
  · have hlt : i < h.captures.length := by
      rw [← hlatches.length]
      exact (List.getElem?_eq_some_iff.1 hcapture').1
    have hcapture := List.getElem?_eq_getElem hlt
    obtain ⟨c, hc, hentry, -⟩ := hlatches.forth i _ hcapture
    rw [hcapture'] at hc
    cases hc
    rw [hentry]
    exact htold.ids i _ hcapture
  · rw [hfatal] at hne ⊢
    obtain ⟨i, capture, hcapture, hlatched, hid⟩ := htold.noted hne
    obtain ⟨capture', hcapture', hentry, hstays⟩ := hlatches.forth i capture hcapture
    exact ⟨i, capture', hcapture', hstays hlatched, by rw [hentry]; exact hid⟩
  · rw [hfatal]
    rcases hmain hdown with hdown | ⟨flushed, rfl⟩
    · refine (htold.stopped hdown).imp id ?_
      rintro ⟨flushed, hmem⟩
      exact ⟨flushed, List.mem_append_left _ hmem⟩
    · exact .inr ⟨flushed, List.mem_append_right _ List.mem_cons_self⟩

theorem main (htold : h.Told actions) {shouldStop flushed : Bool} (hstep : h.step J (.main shouldStop flushed) = some h') :
    h'.Told (actions ++ [.main shouldStop flushed]) := by
  have hlatches := latches_of_step hstep
  cases mainStep_cases hstep with
  | allStarted hplace => exact htold.keep hlatches rfl False.elim
  | started i rest capture hplace hcapture =>
    exact htold.keep hlatches (liveBooksHook_latches hcapture).2 False.elim
  | polled i hplace hend => exact htold.keep hlatches rfl False.elim
  | failed i capture hplace hcapture hfatal =>
    have hid := htold.ids i capture hcapture
    exact ⟨htold.ids, fun _ => ⟨i, capture, hcapture, hfatal, rfl⟩, fun _ => .inl hid⟩
  | passed i capture hplace hcapture hfatal => exact htold.keep hlatches rfl False.elim
  | asked hplace =>
    refine htold.keep hlatches rfl fun hdown => .inr ?_
    cases shouldStop with
    | true => exact ⟨flushed, rfl⟩
    | false => exact hdown.elim
  | slept hplace => exact htold.keep hlatches rfl False.elim
  | allRequested i hplace hend => exact htold.keep hlatches rfl fun _ => .inl (by rw [hplace]; trivial)
  | requested i capture hplace hcapture => exact htold.keep hlatches rfl fun _ => .inl (by rw [hplace]; trivial)
  | allJoined i hplace hend =>
    refine htold.keep hlatches ?_ fun _ => .inl (by rw [hplace]; trivial)
    unfold stopBooks
    split_ifs <;> rfl
  | close i capture h₁ hplace hcapture hended hclose =>
    exact htold.keep hlatches (stepSession_latches hcapture hclose).2.2 fun _ => .inl (by rw [hplace]; trivial)
  | closed i capture h₁ hplace hcapture hresume =>
    exact htold.keep hlatches (stepSession_latches hcapture hresume).2.2 fun _ => .inl (by rw [hplace]; trivial)
  | drained hplace hreturned => exact htold.keep hlatches rfl fun _ => .inl (by rw [hplace]; trivial)

theorem step (htold : h.Told actions) (hstep : h.step J action = some h') : h'.Told (actions ++ [action]) := by
  have hother : (∀ shouldStop flushed, action ≠ .main shouldStop flushed) → h'.Told (actions ++ [action]) := by
    intro haction
    obtain ⟨hmain, hfatal⟩ := step_main_kept hstep haction
    exact htold.keep (latches_of_step hstep) hfatal fun hdown => .inl (hmain ▸ hdown)
  cases action with
  | main shouldStop flushed => exact htold.main hstep
  | session i action room => exact hother (by simp)
  | latchFatal i => exact hother (by simp)
  | ended i => exact hother (by simp)
  | books => exact hother (by simp)

end Told

theorem run_told {orderBooks : Bool} {rest : RestClient} {entries : List (Config.Connection × SessionConfig)}
    (hids : ∀ e ∈ entries, e.1.id ≠ []) {actions : List HandlerAction}
    (hrun : (start orderBooks rest entries).run J actions = some h) : h.Told actions := by
  have hinit : (start orderBooks rest entries).Told [] := by
    refine ⟨fun i capture hcapture => ?_, fun hne => absurd rfl hne, False.elim⟩
    rw [start, List.getElem?_map] at hcapture
    obtain ⟨e, he, rfl⟩ := Option.map_eq_some_iff.1 hcapture
    exact hids e (List.mem_of_getElem? he)
  exact Machine.run_invariant (I := fun actions h => h.Told actions) hinit
    (fun _ _ _ _ _ htold hstep => htold.step hstep) hrun

/-- A fatal connection that the polls have still to come to is on its way to be noted. -/
def Due (i : ℕ) (h : FeedHandler) : Prop :=
  h.fatalId ≠ [] ∨ StillToPoll i h.main ∧ ∃ capture, h.captures[i]? = some capture ∧ capture.fatal = true

namespace Due

theorem keep (hdue : h.Due i) (hlatches : h.Latches h') (hfatal : h'.fatalId = h.fatalId)
    (hmain : StillToPoll i h.main → StillToPoll i h'.main) : h'.Due i := by
  rcases hdue with hne | ⟨hstill, capture, hcapture, hlatched⟩
  · exact .inl (by rw [hfatal]; exact hne)
  · obtain ⟨capture', hcapture', -, hstays⟩ := hlatches.forth i capture hcapture
    exact .inr ⟨hmain hstill, capture', hcapture', hstays hlatched⟩

theorem main (hdue : h.Due i)
    (hids : ∀ (j : ℕ) (capture : ClientCapture), h.captures[j]? = some capture → capture.entry.id ≠ []) {shouldStop flushed : Bool} (hstep : h.step J (.main shouldStop flushed) = some h') : h'.Due i := by
  have hlatches := latches_of_step hstep
  -- past the polls, only a connection that was noted can be due
  have hpast : ∀ {place : MainThread}, h.main = place → ¬ StillToPoll i place →
      StillToPoll i h.main → StillToPoll i h'.main := by
    intro place hplace hnot hstill
    rw [hplace] at hstill
    exact absurd hstill hnot
  cases mainStep_cases hstep with
  | allStarted hplace => exact hdue.keep hlatches rfl fun _ => Nat.zero_le i
  | started j rest capture hplace hcapture => exact hdue.keep hlatches (liveBooksHook_latches hcapture).2 fun _ => trivial
  | polled j hplace hend =>
    rcases hdue with hne | ⟨hstill, capture, hcapture, -⟩
    · exact .inl hne
    · rw [hplace] at hstill
      have hlt := (List.getElem?_eq_some_iff.1 hcapture).1
      have hle := List.getElem?_eq_none_iff.1 hend
      have hpoll : j ≤ i := hstill
      omega
  | failed j capture hplace hcapture hfatal => exact .inl (hids j capture hcapture)
  | passed j capture hplace hcapture hfatal =>
    rcases hdue with hne | ⟨hstill, c, hc, hlatched⟩
    · exact .inl hne
    · rw [hplace] at hstill
      have hne : j ≠ i := by
        rintro rfl
        rw [hcapture] at hc
        cases hc
        rw [hfatal] at hlatched
        cases hlatched
      exact .inr ⟨Nat.lt_of_le_of_ne hstill hne, c, hc, hlatched⟩
  | asked hplace => exact hdue.keep hlatches rfl (hpast hplace id)
  | slept hplace => exact hdue.keep hlatches rfl fun _ => Nat.zero_le i
  | allRequested j hplace hend => exact hdue.keep hlatches rfl (hpast hplace id)
  | requested j capture hplace hcapture => exact hdue.keep hlatches rfl (hpast hplace id)
  | allJoined j hplace hend =>
    refine hdue.keep hlatches ?_ (hpast hplace id)
    unfold stopBooks
    split_ifs <;> rfl
  | close j capture h₁ hplace hcapture hended hclose =>
    exact hdue.keep hlatches (stepSession_latches hcapture hclose).2.2 (hpast hplace id)
  | closed j capture h₁ hplace hcapture hresume =>
    exact hdue.keep hlatches (stepSession_latches hcapture hresume).2.2 (hpast hplace id)
  | drained hplace hreturned => exact hdue.keep hlatches rfl (hpast hplace id)

theorem step (hdue : h.Due i)
    (hids : ∀ (j : ℕ) (capture : ClientCapture), h.captures[j]? = some capture → capture.entry.id ≠ []) {action : HandlerAction} (hstep : h.step J action = some h') : h'.Due i := by
  have hother : (∀ shouldStop flushed, action ≠ .main shouldStop flushed) → h'.Due i := by
    intro haction
    obtain ⟨hmain, hfatal⟩ := step_main_kept hstep haction
    exact hdue.keep (latches_of_step hstep) hfatal fun hstill => hmain ▸ hstill
  cases action with
  | main shouldStop flushed => exact hdue.main hids hstep
  | session i action room => exact hother (by simp)
  | latchFatal i => exact hother (by simp)
  | ended i => exact hother (by simp)
  | books => exact hother (by simp)

end Due

end FeedHandler

/-- The exit code tells how the capture ended. Where it says that the capture failed, the
connection named is one that latched a fatal error, and a clean exit was asked for. A fatal
error latched before the poll that comes to its connection is never passed over for a stop. -/
theorem exit_code_tells_failed_capture (J : JournalPlatform) (orderBooks : Bool) (rest : RestClient)
    (entries : List (Config.Connection × SessionConfig)) (hids : ∀ e ∈ entries, e.1.id ≠ [])
    (before after : List HandlerAction) (mid h : FeedHandler)
    (hbefore : (FeedHandler.start orderBooks rest entries).run J before = some mid)
    (hafter : mid.run J after = some h) (code : ℕ) (hexit : h.main = .exited code) :
    (code = kExitCaptureFailed ∧ (∃ (i : ℕ) (capture : ClientCapture),
        h.captures[i]? = some capture ∧ capture.fatal = true ∧ capture.entry.id = h.fatalId) ∨
      code = kExitCleanShutdown ∧ ∃ flushed, .main true flushed ∈ before ++ after) ∧
    ∀ (i : ℕ) (capture : ClientCapture), mid.captures[i]? = some capture → capture.fatal = true →
      FeedHandler.StillToPoll i mid.main → code = kExitCaptureFailed := by
  have hrun : (FeedHandler.start orderBooks rest entries).run J (before ++ after) = some h := by
    rw [FeedHandler.run, Machine.run_append]
    exact Option.bind_eq_some_iff.2 ⟨mid, hbefore, hafter⟩
  have htold := FeedHandler.run_told hids hrun
  have hphase := (FeedHandler.run_sound hrun).phase
  rw [hexit] at hphase
  obtain ⟨-, -, rfl⟩ := hphase
  refine ⟨?_, fun i capture hcapture hfatal hstill => ?_⟩
  · unfold FeedHandler.exitCode
    split_ifs with hid
    · refine .inr ⟨rfl, (htold.stopped ?_).resolve_left (absurd hid)⟩
      rw [hexit]
      trivial
    · exact .inl ⟨rfl, htold.noted hid⟩
  · have hdue : h.Due i ∧ ∃ past, h.Told past := by
      refine Machine.run_invariant (I := fun _ h => h.Due i ∧ ∃ past, h.Told past) ?_ ?_ hafter
      · exact ⟨.inr ⟨hstill, capture, hcapture, hfatal⟩, before, FeedHandler.run_told hids hbefore⟩
      · rintro _ h action h' - ⟨hdue, past, htold⟩ hstep
        exact ⟨hdue.step htold.ids hstep, _, htold.step hstep⟩
    rcases hdue.1 with hid | ⟨hstill, -⟩
    · exact if_neg hid
    · rw [hexit] at hstill
      exact hstill.elim

section Witness

/-- A connection starts, and its client gives up while the main thread polls. -/
def failingProcess : List HandlerAction :=
  [.main false true, .main false true, .session 0 (.call (.beginConnect firstConnect)) true, .latchFatal 0]

/-- It is noted although a stop is asked for at every turn, and the process exits. -/
def failedProcess : List HandlerAction :=
  List.replicate 3 (.main true true) ++ [.ended 0, .main true true] ++
    List.replicate 2 (.session 0 (.journal true) true) ++ [.main true true, .main true true]

theorem failingProcess_runs :
    ((FeedHandler.start false tinyReference tinyEntries).run blankJournal failingProcess).isSome = true := by
  decide +kernel

theorem failedProcess_runs :
    ((((FeedHandler.start false tinyReference tinyEntries).run blankJournal failingProcess).get failingProcess_runs).run
      blankJournal failedProcess).isSome = true := by
  decide +kernel

theorem failing_process_exits_failed :
    let mid := ((FeedHandler.start false tinyReference tinyEntries).run blankJournal failingProcess).get failingProcess_runs
    let h := (mid.run blankJournal failedProcess).get failedProcess_runs
    ∃ (code i : ℕ) (capture : ClientCapture), h.main = .exited code ∧ code = kExitCaptureFailed ∧
      h.captures[i]? = some capture ∧ capture.fatal = true ∧ capture.entry.id = h.fatalId := by
  intro mid h
  have hcode : h.main = .exited kExitCaptureFailed := by decide +kernel
  have hany : (mid.captures[0]?.any (·.fatal)) = true := by decide +kernel
  have hstill : mid.main = .polling 0 := by decide +kernel
  have htells := exit_code_tells_failed_capture blankJournal false tinyReference tinyEntries (by decide) failingProcess
    failedProcess mid h (Option.some_get failingProcess_runs).symm (Option.some_get failedProcess_runs).symm _ hcode
  obtain ⟨capture, hcapture, hfatal⟩ := (Option.any_eq_true _ _).1 hany
  have hfailed := htells.2 0 capture hcapture hfatal (by rw [hstill]; exact Nat.le_refl 0)
  rcases htells.1 with ⟨-, i, capture', hnoted⟩ | ⟨hclean, -⟩
  · exact ⟨_, i, capture', hcode, hfailed, hnoted⟩
  · cases hclean

end Witness

end CryptoTrader
