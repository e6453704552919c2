import CryptoTrader.Proofs.BookRing
import CryptoTrader.Sanity.FeedHandler

/-! How the capture process ends. From wherever it is it can be wound down without anything
new being captured: no thread waits for one that waits for it. Once it has exited, every
client has ended, every session is quiet with nothing left for its journal thread, and the
books have been told of everything. -/

namespace CryptoTrader

/-- What winds the process down: threads go on with what they are at, and the main thread is
told to stop. -/
def HandlerAction.unwinds : HandlerAction → Bool
  | .session _ (.call _) _ => false
  | .session _ _ _ => true
  | .latchFatal _ => false
  | .ended _ => true
  | .books => true
  | .main shouldStop _ => shouldStop

namespace FeedHandler

variable {J : JournalPlatform} {h h' : FeedHandler} {i : ℕ} {capture : ClientCapture}

abbrev Unwinds (J : JournalPlatform) : FeedHandler → FeedHandler → Prop := Machine.Reaches (step J) (·.unwinds = true)

theorem Sound.unwinds (hsound : h.Sound J) (hreach : Unwinds J h h') : h'.Sound J := by
  obtain ⟨actions, -, hrun⟩ := hreach
  exact Machine.run_invariant (I := fun _ h => h.Sound J) hsound (fun _ _ _ _ _ hs hstep => hs.step hstep) hrun

theorem Sound.queued (hsound : h.Sound J) (hcapture : h.captures[i]? = some capture) : capture.session.Queued := by
  obtain ⟨config, actions, -, hrun⟩ := hsound.runs i capture hcapture
  exact CaptureSession.run_queued hrun

/-- A step of a session is a step of the process. -/
theorem session_step (hcapture : h.captures[i]? = some capture) {action : SessionAction} {session : CaptureSession}
    (hstep : capture.session.step J action = some session) (hmay : mayAct capture action = true) :
    ∃ h', h.step J (.session i action true) = some h' ∧ h'.main = h.main ∧
      h'.captures = h.captures.set i { capture with session } := by
  refine ⟨{ h.setCapture i { capture with session } with
    books := h.books.sinkAll capture.feed (session.sinkCalls.drop capture.session.sinkCalls.length) true }, ?_, rfl, rfl⟩
  simp only [step, hcapture, Option.bind_some, hmay, if_true, stepSession, hstep, Option.map_some]

theorem captures_self (hcapture : h.captures[i]? = some capture) : h.captures = h.captures.set i capture := by
  obtain ⟨hlt, hget⟩ := List.getElem?_eq_some_iff.1 hcapture
  rw [← hget]
  exact (List.set_getElem_self hlt).symm

/-- The journal thread brings a close that waits to its signal. -/
theorem Sound.reaches_signal (hsound : h.Sound J) (hcapture : h.captures[i]? = some capture)
    (hwaiting : capture.session.waiting.isSome = true) :
    ∃ h' session, Unwinds J h h' ∧ h'.main = h.main ∧ h'.captures = h.captures.set i { capture with session } ∧
      session.waiting = capture.session.waiting ∧ session.journal.signal.isSome = true := by
  induction hn : capture.session.journal.ring.queue.length using Nat.strong_induction_on generalizing h capture with
  | _ n ih =>
    rcases (hsound.queued hcapture).can_step hwaiting with hsignal | ⟨journal, hjournal, hlt⟩
    · exact ⟨h, capture.session, .refl h, rfl, captures_self hcapture, rfl, hsignal⟩
    · have hstep : capture.session.step J (.journal true) = some { capture.session with journal } := by
        simp only [CaptureSession.step, hjournal, Option.map_some]
      obtain ⟨h₁, hnext, hmain, hcaptures⟩ := session_step hcapture hstep rfl
      have hcapture₁ : h₁.captures[i]? = some { capture with session := { capture.session with journal } } := by
        rw [hcaptures]
        exact Machine.getElem?_set_of_some hcapture
      obtain ⟨h', session, hreach, hmain', hcaptures', hsame, hsignal⟩ :=
        ih journal.ring.queue.length (by rw [← hn]; exact hlt) (hsound.step hnext) hcapture₁ hwaiting rfl
      have hone : Unwinds J h h₁ := .single rfl hnext
      refine ⟨h', session, hone.trans hreach, hmain'.trans hmain, ?_, hsame, hsignal⟩
      rw [hcaptures', hcaptures, List.set_set]

/-- A session's call returns, if it waits at all. -/
theorem Sound.reaches_return (hsound : h.Sound J) (hcapture : h.captures[i]? = some capture)
    (hrunning : capture.running = true) :
    ∃ h' session, Unwinds J h h' ∧ h'.main = h.main ∧ h'.captures = h.captures.set i { capture with session } ∧
      session.waiting = none := by
  cases hwaiting : capture.session.waiting with
  | none => exact ⟨h, capture.session, .refl h, rfl, captures_self hcapture, hwaiting⟩
  | some call =>
    obtain ⟨h₁, session, hreach, hmain, hcaptures, hsame, hsignal⟩ :=
      hsound.reaches_signal hcapture (by rw [hwaiting]; rfl)
    have hcapture₁ : h₁.captures[i]? = some { capture with session } := by
      rw [hcaptures]
      exact Machine.getElem?_set_of_some hcapture
    obtain ⟨records, hrecords⟩ := Option.isSome_iff_exists.1 hsignal
    rw [hwaiting] at hsame
    obtain ⟨session', hresume⟩ : ∃ session', session.step J .resume = some session' := by
      simp only [CaptureSession.step, hsame, hrecords]
      exact ⟨_, rfl⟩
    obtain ⟨h₂, hnext, hmain₂, hcaptures₂⟩ := session_step hcapture₁ hresume hrunning
    have hone : Unwinds J h₁ h₂ := .single rfl hnext
    obtain ⟨config, actions, -, hrun⟩ := (hsound.unwinds hreach).runs i _ hcapture₁
    have hquiet : session'.waiting = none := by
      cases CaptureSession.step_inversion (CaptureSession.run_mode hrun) hresume with
      | resume call records hcall hwaits hgiven hopen => exact (session.ended_quiet true records).goOn_waiting _
    refine ⟨h₂, session', hreach.trans hone, hmain₂.trans hmain, ?_, hquiet⟩
    rw [hcaptures₂, hcaptures, List.set_set]

/-- A client that is asked to stop comes to its end. -/
theorem Sound.reaches_ended (hsound : h.Sound J) (hcapture : h.captures[i]? = some capture)
    (hstop : capture.stopRequested = true) :
    ∃ h' capture', Unwinds J h h' ∧ h'.main = h.main ∧ h'.captures = h.captures.set i capture' ∧
      capture'.running = false := by
  cases hrunning : capture.running with
  | false => exact ⟨h, capture, .refl h, rfl, captures_self hcapture, hrunning⟩
  | true =>
    obtain ⟨h₁, session, hreach, hmain, hcaptures, hnone⟩ := hsound.reaches_return hcapture hrunning
    have hcapture₁ : h₁.captures[i]? = some { capture with session } := by
      rw [hcaptures]
      exact Machine.getElem?_set_of_some hcapture
    have hnext : h₁.step J (.ended i) = some (h₁.setCapture i { capture with session, running := false }) := by
      simp only [FeedHandler.step, hcapture₁, Option.bind_some, hrunning, hstop, hnone, Bool.true_or, Option.isNone_none,
        Bool.and_self, if_true]
    have hone : Unwinds J h₁ (h₁.setCapture i { capture with session, running := false }) := .single rfl hnext
    refine ⟨_, { capture with session, running := false }, hreach.trans hone, hmain, ?_, rfl⟩
    rw [setCapture, hcaptures, List.set_set]

/-- Nobody waits in the session of a client that has ended, but the main thread. -/
def AtRest (h : FeedHandler) : Prop :=
  ∀ (i : ℕ) (capture : ClientCapture), h.captures[i]? = some capture → capture.running = false →
    capture.session.waiting = none ∨ h.main = .closing i

namespace AtRest

theorem keep (hrest : h.AtRest) (hcaptures : h'.captures = h.captures)
    (hmain : ∀ j, h.main = .closing j → h'.main = .closing j) : h'.AtRest := by
  intro j c hc hended
  rw [hcaptures] at hc
  exact (hrest j c hc hended).imp id (hmain j)

theorem set {capture' : ClientCapture} (hrest : h.AtRest) (hcaptures : h'.captures = h.captures.set i capture')
    (hself : capture'.running = false → capture'.session.waiting = none ∨ h'.main = .closing i)
    (hmain : ∀ j, i ≠ j → h.main = .closing j → h'.main = .closing j) : h'.AtRest := by
  intro j c hc hended
  rw [hcaptures] at hc
  rcases Machine.getElem?_set_cases hc with ⟨rfl, rfl⟩ | ⟨hne, hc⟩
  · exact hself hended
  · exact (hrest j c hc hended).imp id (hmain j hne)

theorem main (hrest : h.AtRest) (hsound : h.Sound J) {shouldStop flushed : Bool}
    (hnext : h.mainStep J shouldStop flushed = some h') : h'.AtRest := by
  have helsewhere : ∀ {place : MainThread}, h.main = place → (∀ j, place ≠ .closing j) → ∀ {main : MainThread} (j : ℕ),
      h.main = .closing j → main = .closing j := by
    intro place hplace hother main j hclosing
    exact absurd (hplace.symm.trans hclosing) (hother j)
  have hphase := hsound.phase
  cases mainStep_cases hnext with
  | allStarted hplace => exact hrest.keep rfl (helsewhere hplace (by simp))
  | started i rest capture hplace hcapture =>
    obtain ⟨feed, hcaptures⟩ : ∃ feed, (h.liveBooksHook i capture).captures =
        h.captures.set i { capture with running := true, feed } := by
      unfold liveBooksHook
      simp only
      split <;> exact ⟨_, rfl⟩
    refine hrest.set hcaptures (fun hended => ?_) fun j _ => helsewhere hplace (by simp) j
    cases hended
  | polled i hplace hend => exact hrest.keep rfl (helsewhere hplace (by simp))
  | failed i capture hplace hcapture hfatal => exact hrest.keep rfl (helsewhere hplace (by simp))
  | passed i capture hplace hcapture hfatal => exact hrest.keep rfl (helsewhere hplace (by simp))
  | asked hplace => exact hrest.keep rfl (helsewhere hplace (by simp))
  | slept hplace => exact hrest.keep rfl (helsewhere hplace (by simp))
  | allRequested i hplace hend => exact hrest.keep rfl (helsewhere hplace (by simp))
  | requested i capture hplace hcapture =>
    refine hrest.set rfl (fun hended => .inl ?_) fun j _ => helsewhere hplace (by simp) j
    exact (hrest i capture hcapture hended).resolve_right (by rw [hplace]; simp)
  | allJoined i hplace hend =>
    refine hrest.keep ?_ (helsewhere hplace (by simp))
    unfold stopBooks
    split_ifs <;> rfl
  | close i capture h₁ hplace hcapture hended hclose =>
    rw [hplace] at hphase
    obtain ⟨session, hspec⟩ := stepSession_spec hsound.wired hsound.runs hcapture (.inl hphase.1.1) hclose
    have hcapture' : h₁.captures[i]? = some { capture with session } := by
      rw [hspec.captures]
      exact Machine.getElem?_set_of_some hcapture
    refine hrest.set hspec.captures (fun _ => ?_) fun j _ => helsewhere hplace (by simp) j
    simp only [hcapture', Option.any_some]
    cases session.waiting with
    | none => exact .inl rfl
    | some call => exact .inr rfl
  | closed i capture h₁ hplace hcapture hresume =>
    rw [hplace] at hphase
    obtain ⟨session, hspec⟩ := stepSession_spec hsound.wired hsound.runs hcapture (.inl hphase.1.1) hresume
    refine hrest.set hspec.captures (fun _ => .inl ?_) fun j hne hclosing => ?_
    · cases hspec.step with
      | resume call records hcall hwaits hsignal hopen => exact (capture.session.ended_quiet true records).goOn_waiting _
    · rw [hplace] at hclosing
      cases hclosing
      exact absurd rfl hne
  | drained hplace hreturned => exact hrest.keep rfl (helsewhere hplace (by simp))

theorem step (hrest : h.AtRest) (hsound : h.Sound J) {action : HandlerAction} (hstep : h.step J action = some h') :
    h'.AtRest := by
  cases action with
  | session i action room =>
    obtain ⟨capture, hcapture, hnext⟩ := Option.bind_eq_some_iff.1 hstep
    split_ifs at hnext with hmay
    obtain ⟨session, hsession, rfl⟩ := Option.map_eq_some_iff.1 hnext
    refine hrest.set rfl (fun hended => ?_) fun j _ => id
    cases action with
    | journal written =>
      obtain ⟨journal, -, rfl⟩ := Option.map_eq_some_iff.1 hsession
      exact hrest i capture hcapture hended
    | call call => cases (show capture.running = true from hmay).symm.trans hended
    | resume => cases (show capture.running = true from hmay).symm.trans hended
  | latchFatal i =>
    obtain ⟨capture, hcapture, rfl⟩ := Option.map_eq_some_iff.1 hstep
    exact hrest.set rfl (hrest i capture hcapture) fun j _ => id
  | ended i =>
    obtain ⟨capture, hcapture, hnext⟩ := Option.bind_eq_some_iff.1 hstep
    split_ifs at hnext with hmay
    cases hnext
    simp only [Bool.and_eq_true, Option.isNone_iff_eq_none] at hmay
    exact hrest.set rfl (fun _ => .inl hmay.2) fun j _ => id
  | books =>
    simp only [FeedHandler.step] at hstep
    split_ifs at hstep
    obtain ⟨books, -, rfl⟩ := Option.map_eq_some_iff.1 hstep
    exact hrest.keep rfl fun j => id
  | main shouldStop flushed => exact hrest.main hsound hstep

end AtRest

/-- What every reachable state of the process is known to keep. -/
structure Steady (J : JournalPlatform) (h : FeedHandler) : Prop where
  sound : h.Sound J
  rest : h.AtRest

theorem Steady.init (orderBooks : Bool) (rest : RestClient) (entries : List (Config.Connection × SessionConfig)) :
    (start orderBooks rest entries).Steady J := by
  refine ⟨Sound.init orderBooks rest entries, fun i capture hcapture _ => .inl ?_⟩
  obtain ⟨-, -, config, -, hsession⟩ := start_capture hcapture
  rw [hsession]
  rfl

theorem Steady.step (hsteady : h.Steady J) {action : HandlerAction} (hstep : h.step J action = some h') : h'.Steady J :=
  ⟨hsteady.sound.step hstep, hsteady.rest.step hsteady.sound hstep⟩

theorem run_steady {orderBooks : Bool} {rest : RestClient} {entries : List (Config.Connection × SessionConfig)}
    {actions : List HandlerAction} (hrun : (start orderBooks rest entries).run J actions = some h) : h.Steady J :=
  Machine.run_invariant (I := fun _ h => h.Steady J) (Steady.init orderBooks rest entries)
    (fun _ _ _ _ _ hsteady hstep => hsteady.step hstep) hrun

theorem Steady.unwinds (hsteady : h.Steady J) (hreach : Unwinds J h h') : h'.Steady J := by
  obtain ⟨actions, -, hrun⟩ := hreach
  exact Machine.run_invariant (I := fun _ h => h.Steady J) hsteady (fun _ _ _ _ _ hs hstep => hs.step hstep) hrun

/-- The process can be brought to its exit without anything new being captured. -/
def CanExit (J : JournalPlatform) (h : FeedHandler) : Prop := ∃ h' code, Unwinds J h h' ∧ h'.main = .exited code

theorem CanExit.of_unwinds (hreach : Unwinds J h h') (hexit : h'.CanExit J) : h.CanExit J := by
  obtain ⟨h₁, code, hreach', hcode⟩ := hexit
  exact ⟨h₁, code, hreach.trans hreach', hcode⟩

theorem unwinds_main {flushed : Bool} (hnext : h.mainStep J true flushed = some h') : Unwinds J h h' := by
  have hstep : h.step J (.main true flushed) = some h' := hnext
  exact .single rfl hstep

/-- `Stop` of the books returns. -/
theorem Steady.draining_exits (hsteady : h.Steady J) (hplace : h.main = .draining) : h.CanExit J := by
  have hphase := hsteady.sound.phase
  rw [hplace] at hphase
  obtain ⟨hstop, -, hrunning, -⟩ := hphase
  obtain ⟨service, hw⟩ := hsteady.sound.wired
  obtain ⟨books, hreach, hreturned, -⟩ := hw.inv.thread.returns hstop
  have hlift : Unwinds J { h with books := h.books } { h with books } := by
    refine hreach.lift (fun books => { h with books }) fun s action s' haction hstep => ?_
    cases haction
    have hbooks : ({ h with books := s } : FeedHandler).step J .books = some { h with books := s' } := by
      simp only [FeedHandler.step, hrunning, if_true]
      exact congrArg (Option.map _) hstep
    exact .single rfl hbooks
  have hlast : ({ h with books } : FeedHandler).mainStep J true true =
      some { h with books := books.join, main := .exited h.exitCode } := by
    simp only [mainStep, hplace, hreturned, if_true]
    rfl
  exact ⟨_, h.exitCode, hlift.trans (unwinds_main hlast), rfl⟩

/-- The wait in the session's `Close` ends. -/
theorem Steady.close_returns (hsteady : h.Steady J) (hplace : h.main = .closing i) :
    ∃ h', Unwinds J h h' ∧ h'.main = .joining (i + 1) ∧ h'.captures.length = h.captures.length := by
  have hphase := hsteady.sound.phase
  rw [hplace] at hphase
  obtain ⟨-, -, -, -, capture, hcapture, -, flushed, hwaiting⟩ := hphase
  obtain ⟨h₁, session, hreach, hmain, hcaptures, hsame, hsignal⟩ :=
    hsteady.sound.reaches_signal hcapture (by rw [hwaiting]; rfl)
  have hcapture₁ : h₁.captures[i]? = some { capture with session } := by
    rw [hcaptures]
    exact Machine.getElem?_set_of_some hcapture
  obtain ⟨records, hrecords⟩ := Option.isSome_iff_exists.1 hsignal
  rw [hwaiting] at hsame
  obtain ⟨session', hresume⟩ : ∃ session', session.step J .resume = some session' := by
    simp only [CaptureSession.step, hsame, hrecords]
    exact ⟨_, rfl⟩
  obtain ⟨h₂, hnext, hlength⟩ : ∃ h₂, h₁.stepSession J i { capture with session } .resume true = some h₂ ∧
      h₂.captures.length = h₁.captures.length := by
    simp only [stepSession, hresume, Option.map_some]
    exact ⟨_, rfl, List.length_set⟩
  have hlast : h₁.mainStep J true true = some { h₂ with main := .joining (i + 1) } := by
    simp only [mainStep, hmain.trans hplace, hcapture₁, Option.bind_some, hnext, Option.map_some]
  refine ⟨_, hreach.trans (unwinds_main hlast), rfl, hlength.trans ?_⟩
  rw [hcaptures, List.length_set]

/-- `Join` of a connection returns. -/
theorem Steady.join_returns (hsteady : h.Steady J) (hplace : h.main = .joining i)
    (hcapture : h.captures[i]? = some capture) :
    ∃ h', Unwinds J h h' ∧ h'.main = .joining (i + 1) ∧ h'.captures.length = h.captures.length := by
  have hphase := hsteady.sound.phase
  rw [hplace] at hphase
  have hstop := hphase.2.2.1 i capture (List.getElem?_eq_some_iff.1 hcapture).1 hcapture
  obtain ⟨h₁, capture', hreach, hmain, hcaptures, hended⟩ := hsteady.sound.reaches_ended hcapture hstop
  have hcapture₁ : h₁.captures[i]? = some capture' := by
    rw [hcaptures]
    exact Machine.getElem?_set_of_some hcapture
  have hplace₁ := hmain.trans hplace
  have hwaiting : capture'.session.waiting = none :=
    ((hsteady.unwinds hreach).rest i capture' hcapture₁ hended).resolve_right (by rw [hplace₁]; simp)
  have hlength₁ : h₁.captures.length = h.captures.length := by rw [hcaptures, List.length_set]
  obtain ⟨h₂, hclose, hlength⟩ : ∃ h₂, h₁.stepSession J i capture' (.call (.close true)) true = some h₂ ∧
      h₂.captures.length = h₁.captures.length := by
    simp only [stepSession, CaptureSession.step, hwaiting, Option.isSome_none, Bool.false_eq_true, if_false,
      Option.map_some]
    exact ⟨_, rfl, List.length_set⟩
  have hnext : h₁.mainStep J true true = some { h₂ with
      main := if (h₂.captures[i]?).any (·.session.waiting.isSome) then .closing i else .joining (i + 1) } := by
    simp only [mainStep, hplace₁, hcapture₁, hended, Bool.false_eq_true, if_false, hclose, Option.map_some]
  have hreach₂ := hreach.trans (unwinds_main hnext)
  cases hany : (h₂.captures[i]?).any (·.session.waiting.isSome) with
  | false =>
    refine ⟨_, hreach₂, ?_, hlength.trans hlength₁⟩
    simp only [hany, Bool.false_eq_true, if_false]
  | true =>
    obtain ⟨h₃, hreach₃, hplace₃, hlength₃⟩ :=
      (hsteady.unwinds hreach₂).close_returns (i := i) (by simp only [hany, if_true])
    exact ⟨h₃, hreach₂.trans hreach₃, hplace₃, hlength₃.trans (hlength.trans hlength₁)⟩

theorem Steady.joining_exits (hsteady : h.Steady J) (hplace : h.main = .joining i) : h.CanExit J := by
  induction hn : h.captures.length - i generalizing h i with
  | zero =>
    have hend : h.captures[i]? = none := List.getElem?_eq_none (by omega)
    have hnext : h.mainStep J true true = some h.stopBooks := by simp only [mainStep, hplace, hend]
    have hreach := unwinds_main hnext
    by_cases hfeeds : h.books.feeds = []
    · refine ⟨_, h.exitCode, hreach, ?_⟩
      rw [stopBooks, if_pos hfeeds]
    · refine CanExit.of_unwinds hreach ((hsteady.unwinds hreach).draining_exits ?_)
      rw [stopBooks, if_neg hfeeds]
  | succ n ih =>
    have hlt : i < h.captures.length := by omega
    obtain ⟨h', hreach, hplace', hlength⟩ := hsteady.join_returns hplace (List.getElem?_eq_getElem hlt)
    exact CanExit.of_unwinds hreach (ih (hsteady.unwinds hreach) hplace' (by omega))

theorem Steady.requesting_exits (hsteady : h.Steady J) (hplace : h.main = .requesting i) : h.CanExit J := by
  induction hn : h.captures.length - i generalizing h i with
  | zero =>
    have hend : h.captures[i]? = none := List.getElem?_eq_none (by omega)
    have hnext : h.mainStep J true true = some { h with main := .joining 0 } := by simp only [mainStep, hplace, hend]
    have hreach := unwinds_main hnext
    exact CanExit.of_unwinds hreach ((hsteady.unwinds hreach).joining_exits rfl)
  | succ n ih =>
    have hlt : i < h.captures.length := by omega
    have hcapture := List.getElem?_eq_getElem hlt
    have hnext : h.mainStep J true true = some
        { h.setCapture i { h.captures[i] with stopRequested := true } with main := .requesting (i + 1) } := by
      simp only [mainStep, hplace, hcapture]
    have hreach := unwinds_main hnext
    refine CanExit.of_unwinds hreach (ih (hsteady.unwinds hreach) rfl ?_)
    simp only [setCapture, List.length_set]
    omega

theorem Steady.asking_exits (hsteady : h.Steady J) (hplace : h.main = .asking) : h.CanExit J := by
  have hnext : h.mainStep J true true = some { h with main := .requesting 0 } := by simp only [mainStep, hplace, if_true]
  have hreach := unwinds_main hnext
  exact CanExit.of_unwinds hreach ((hsteady.unwinds hreach).requesting_exits rfl)

theorem Steady.polling_exits (hsteady : h.Steady J) (hplace : h.main = .polling i) : h.CanExit J := by
  induction hn : h.captures.length - i generalizing h i with
  | zero =>
    have hend : h.captures[i]? = none := List.getElem?_eq_none (by omega)
    have hnext : h.mainStep J true true = some { h with main := .asking } := by simp only [mainStep, hplace, hend]
    have hreach := unwinds_main hnext
    exact CanExit.of_unwinds hreach ((hsteady.unwinds hreach).asking_exits rfl)
  | succ n ih =>
    have hlt : i < h.captures.length := by omega
    have hcapture := List.getElem?_eq_getElem hlt
    cases hfatal : h.captures[i].fatal with
    | true =>
      have hnext : h.mainStep J true true =
          some { h with fatalId := h.captures[i].entry.id, main := .requesting 0 } := by
        simp only [mainStep, hplace, hcapture, hfatal, if_true]
      have hreach := unwinds_main hnext
      exact CanExit.of_unwinds hreach ((hsteady.unwinds hreach).requesting_exits rfl)
    | false =>
      have hnext : h.mainStep J true true = some { h with main := .polling (i + 1) } := by
        simp only [mainStep, hplace, hcapture, hfatal, Bool.false_eq_true, if_false]
      have hreach := unwinds_main hnext
      refine CanExit.of_unwinds hreach (ih (hsteady.unwinds hreach) rfl ?_)
      change h.captures.length - (i + 1) = n
      omega

theorem Steady.starting_exits {rest : List ℕ} (hsteady : h.Steady J) (hplace : h.main = .starting rest) : h.CanExit J := by
  induction rest generalizing h with
  | nil =>
    have hnext : h.mainStep J true true =
        some { h with booksRunning := h.books.feeds ≠ [], main := .polling 0 } := by
      simp only [mainStep, hplace]
    have hreach := unwinds_main hnext
    exact CanExit.of_unwinds hreach ((hsteady.unwinds hreach).polling_exits rfl)
  | cons i rest ih =>
    have hphase := hsteady.sound.phase
    rw [hplace] at hphase
    obtain ⟨capture, hcapture, -⟩ := hphase.2.2.2.2 i List.mem_cons_self
    have hnext : h.mainStep J true true = some { h.liveBooksHook i capture with main := .starting rest } := by
      simp only [mainStep, hplace, hcapture, Option.map_some]
    have hreach := unwinds_main hnext
    exact CanExit.of_unwinds hreach (ih (hsteady.unwinds hreach) rfl)

/-- No thread of the process ever waits for one that waits for it. -/
theorem Steady.exits (hsteady : h.Steady J) : h.CanExit J := by
  cases hplace : h.main with
  | starting rest => exact hsteady.starting_exits hplace
  | polling i => exact hsteady.polling_exits hplace
  | asking => exact hsteady.asking_exits hplace
  | sleeping =>
    have hnext : h.mainStep J true true = some { h with main := .polling 0 } := by simp only [mainStep, hplace]
    have hreach := unwinds_main hnext
    exact CanExit.of_unwinds hreach ((hsteady.unwinds hreach).polling_exits rfl)
  | requesting i => exact hsteady.requesting_exits hplace
  | joining i => exact hsteady.joining_exits hplace
  | closing i =>
    obtain ⟨h', hreach, hplace', -⟩ := hsteady.close_returns hplace
    exact CanExit.of_unwinds hreach ((hsteady.unwinds hreach).joining_exits hplace')
  | draining => exact hsteady.draining_exits hplace
  | exited code => exact ⟨h, code, .refl h, hplace⟩

end FeedHandler

open FeedHandler LossyChannel in
/-- From every moment of the process it can be wound down to its exit with nothing new
captured. When it has exited, no client runs, no file is open and nobody waits, no event is left
for a journal thread, and each feed of the books has been told of every call its session made on
it, in order, with the frames the ring refused reported where they are missing. -/
theorem process_winds_down (J : JournalPlatform) (orderBooks : Bool) (rest : RestClient)
    (entries : List (Config.Connection × SessionConfig)) (actions : List HandlerAction) (h : FeedHandler)
    (hrun : (start orderBooks rest entries).run J actions = some h) :
    (∃ h' code, Unwinds J h h' ∧ h'.main = .exited code) ∧
    ((∃ code, h.main = .exited code) → ∀ (i : ℕ) (capture : ClientCapture), h.captures[i]? = some capture →
      capture.running = false ∧ capture.session.Quiet ∧ capture.session.journal.ring.queue = [] ∧
      ∀ feed, capture.feed = some feed → ∃ offered : List (FeedEvent × Bool),
        offered.map (·.1) = capture.session.sinkCalls ∧
        callsOf feed h.books.received = (collapse (offered.map offerOf)).map deliveryCall) := by
  have hsteady := run_steady hrun
  refine ⟨hsteady.exits, ?_⟩
  rintro ⟨code, hexit⟩ i capture hcapture
  have hphase := hsteady.sound.phase
  rw [hexit] at hphase
  obtain ⟨hbooks, hall, -⟩ := hphase
  have hdone := hall i capture (List.getElem?_eq_some_iff.1 hcapture).1 hcapture
  refine ⟨hdone.running, hdone.quiet, (hsteady.sound.queued hcapture).closed hdone.quiet.journalOpen, fun feed hfeed => ?_⟩
  obtain ⟨service, hw⟩ := hsteady.sound.wired
  have hlt := hw.within i capture feed ⟨hcapture, hfeed⟩
  have hstopped : h.books.stopped = true := by
    refine hbooks.resolve_right fun hnil => ?_
    rw [hnil] at hlt
    exact Nat.not_lt_zero _ hlt
  have htold := (hw.inv.ended hstopped).2 feed _ (List.getElem?_eq_getElem hlt)
  exact ⟨sinkCalls feed service, hw.heard i capture feed ⟨hcapture, hfeed⟩, htold.1⟩

section Witness

/-- A connection captures a frame that the book ring takes and one that it refuses, and the
process is asked to stop. The main thread has come to the wait in `Close`. -/
def closingProcess : List HandlerAction :=
  let frame (payload : Bytes) (room : Bool) : HandlerAction :=
    .session 0 (.call (.onWireMessage { firstWire with payload })) room
  [.main false true, .main false true, .session 0 (.call (.beginConnect firstConnect)) true, frame [0] true,
      frame [1] false] ++
    List.replicate 5 (.main true true) ++ [.ended 0, .main true true]

/-- The journal thread takes its events, the book thread its own, and the process exits. -/
def exitingProcess : List HandlerAction :=
  closingProcess ++ List.replicate 4 (.session 0 (.journal true) true) ++ [.main true true, .main true true] ++
    List.replicate 9 .books ++ [.main true true]

theorem closingProcess_runs :
    ((FeedHandler.start true tinyReference tinyEntries).run blankJournal closingProcess).isSome = true := by
  decide +kernel

theorem exitingProcess_runs :
    ((FeedHandler.start true tinyReference tinyEntries).run blankJournal exitingProcess).isSome = true := by
  decide +kernel

open FeedHandler LossyChannel in
theorem closing_process_exits :
    let closing := ((start true tinyReference tinyEntries).run blankJournal closingProcess).get closingProcess_runs
    let exited := ((start true tinyReference tinyEntries).run blankJournal exitingProcess).get exitingProcess_runs
    closing.main = .closing 0 ∧ (∃ h' code, Unwinds blankJournal closing h' ∧ h'.main = .exited code) ∧
      exited.main = .exited kExitCleanShutdown ∧
      ∃ capture, exited.captures[0]? = some capture ∧ capture.session.journal.ring.queue = [] ∧
        ∃ offered : List (FeedEvent × Bool), offered.map (·.1) = capture.session.sinkCalls ∧
          callsOf 0 exited.books.received = (collapse (offered.map offerOf)).map deliveryCall := by
  intro closing exited
  have hclosing := process_winds_down blankJournal true tinyReference tinyEntries closingProcess closing
    (Option.some_get closingProcess_runs).symm
  have hexited := process_winds_down blankJournal true tinyReference tinyEntries exitingProcess exited
    (Option.some_get exitingProcess_runs).symm
  have hcode : exited.main = .exited kExitCleanShutdown := by decide +kernel
  have hany : (exited.captures[0]?.any fun capture => capture.feed = some 0) = true := by decide +kernel
  obtain ⟨capture, hcapture, hfeed⟩ := (Option.any_eq_true _ _).1 hany
  obtain ⟨-, -, hqueue, htold⟩ := hexited.2 ⟨_, hcode⟩ 0 capture hcapture
  exact ⟨by decide +kernel, hclosing.1, hcode, capture, hcapture, hqueue, htold 0 (of_decide_eq_true hfeed)⟩

end Witness

end CryptoTrader
