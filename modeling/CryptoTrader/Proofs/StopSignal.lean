import CryptoTrader.Spec.StopSignal

/-! The stop signal loses no wakeup. Its threads go through the phases of a monitor whose
posts are the two latches, so that whoever still sleeps although one is set is about to be
notified; and a wait that says "go on" has looked under the mutex no latch can be set
without. -/

namespace CryptoTrader

open Monitor

namespace SignalThread

def phase : SignalThread → Phase
  | .outside | .entering _ => .away
  | .flipping _ | .repeated => .holding
  | .flipped _ => .posting
  | .notifying _ => .notifying
  | .looking _ => .looking
  | .committed => .committed
  | .asleep => .asleep
  | .waking _ => .waking
  | .leaving _ => .leaving

/-- The thread has set a latch and has not notified yet. -/
def signalling : SignalThread → Bool
  | .flipped _ | .notifying _ => true
  | _ => false

/-- The thread has made the request and has not returned yet. -/
def requesting : SignalThread → Bool
  | .flipped .stopRequested | .notifying .stopRequested => true
  | _ => false

theorem notified_phase (thread : SignalThread) : thread.notified.phase = thread.phase.notified := by
  cases thread <;> rfl

theorem signalling_eq (thread : SignalThread) : thread.phase.owes = thread.signalling := by
  cases thread <;> rfl

theorem phase_eq_asleep {thread : SignalThread} : thread.phase = .asleep ↔ thread = .asleep := by
  cases thread <;> simp [phase]

end SignalThread

namespace StopSignal

variable {ι : Type} [DecidableEq ι] {s s' : StopSignal ι} {i : ι}

def view (s : StopSignal ι) : View ι := ⟨s.stopping, s.mutex, SignalThread.phase ∘ s.threads⟩

theorem phase_update (threads : ι → SignalThread) (i : ι) (thread : SignalThread) :
    SignalThread.phase ∘ Function.update threads i thread =
      Function.update (SignalThread.phase ∘ threads) i thread.phase := Function.comp_update ..

theorem goto_view (thread : SignalThread) : (s.goto i thread).view = s.view.move i thread.phase := by
  simp only [view, goto, View.move, phase_update]
  rfl

theorem unlock_view (thread : SignalThread) :
    (s.unlock i thread).view = { s.view.move i thread.phase with owner := none } := by
  rw [← goto_view]
  rfl

/-- A move between two places of one phase is none to the monitor. -/
theorem goto_same {thread : SignalThread} (h : (s.threads i).phase = thread.phase) : (s.goto i thread).view = s.view := by
  rw [goto_view, View.move, ← h]
  have hself : Function.update s.view.phase i (s.threads i).phase = s.view.phase := Function.update_eq_self i _
  rw [hself]

theorem lock_step {thread : SignalThread} (hlocks : (s.threads i).phase.Locks thread.phase)
    (h : s.lock i thread = some s') : Step s.view s'.view := by
  simp only [lock] at h
  split_ifs at h with hmutex
  cases h
  have heq : ({ s.goto i thread with mutex := some i } : StopSignal ι).view =
      { s.view.move i thread.phase with owner := some i } := by
    rw [← goto_view]
    rfl
  rw [heq]
  exact .lock i _ hlocks (Option.not_isSome_iff_eq_none.1 hmutex)

theorem flip_step {latch : SignalLatch} (hplace : s.threads i = .flipping latch) :
    Step s.view (s.flip i latch).view ∨ (s.flip i latch).view = s.view := by
  have hholding : s.view.phase i = .holding := by simp [view, hplace, SignalThread.phase]
  have hposted : ∀ t : StopSignal ι, t.stopping = true → t.mutex = s.mutex →
      t.threads = Function.update s.threads i (.flipped latch) → Step s.view t.view := by
    intro t hstopping hmutex hthreads
    have heq : t.view = { s.view.move i .posting with ready := true } := by
      simp only [view, View.move, hstopping, hmutex, hthreads, phase_update]
      rfl
    rw [heq]
    exact .postInside i hholding
  cases latch with
  | stopRequested =>
    simp only [flip]
    split_ifs with hstop
    · exact .inr (goto_same (by rw [hplace]; rfl))
    · exact .inl (hposted _ rfl rfl rfl)
  | fatal => exact .inl (hposted _ (Bool.or_true _) rfl rfl)

theorem notify_step {latch : SignalLatch} (hplace : s.threads i = .notifying latch) :
    Step s.view (s.notifyAll.goto i .outside).view := by
  have hphase : SignalThread.phase ∘ (fun j => (s.threads j).notified) = fun j => (s.view.phase j).notified :=
    funext fun j => (s.threads j).notified_phase
  have heq : (s.notifyAll.goto i .outside).view =
      { s.view with phase := Function.update (fun j => (s.view.phase j).notified) i .away } := by
    simp only [view, notifyAll, goto, phase_update, hphase]
    rfl
  rw [heq]
  exact .notify i (by simp [view, hplace, SignalThread.phase])

/-- A wait looks, and the monitor sees its answer or its way to sleep. -/
theorem look_step {timedOut : Bool} (hplace : s.threads i = .looking timedOut) (h : s.advance i = some s') :
    Step s.view s'.view := by
  have hlooking : s.view.phase i = .looking := by simp [view, hplace, SignalThread.phase]
  simp only [advance, hplace] at h
  split_ifs at h with hstopping htimedOut
  · cases h
    rw [goto_view]
    exact .answer i hlooking
  · cases h
    rw [goto_view]
    exact .answer i hlooking
  · cases h
    rw [goto_view]
    exact .commit i hlooking (Bool.eq_false_iff.2 hstopping)

theorem advance_step (h : s.advance i = some s') : Step s.view s'.view ∨ s'.view = s.view := by
  have hphase : ∀ thread, s.threads i = thread → s.view.phase i = thread.phase := by
    intro thread hplace
    simp only [view, Function.comp_apply, hplace]
  cases hplace : s.threads i with
  | looking timedOut => exact .inl (look_step hplace h)
  | outside => simp only [advance, hplace] at h; cases h
  | asleep => simp only [advance, hplace] at h; cases h
  | entering call =>
    simp only [advance, hplace] at h
    refine .inl (lock_step ?_ h)
    rw [hplace]
    cases call with
    | requestStop => exact .toPost
    | latchFatal => exact .toPost
    | waitFor => exact .toLook
  | waking timedOut =>
    simp only [advance, hplace] at h
    refine .inl (lock_step ?_ h)
    rw [hplace]
    exact .toLookAgain
  | flipping latch =>
    simp only [advance, hplace] at h
    cases h
    exact flip_step hplace
  | notifying latch =>
    simp only [advance, hplace] at h
    cases h
    exact .inl (notify_step hplace)
  | repeated =>
    simp only [advance, hplace] at h
    cases h
    change Step s.view (s.unlock i .outside).view ∨ _
    rw [unlock_view]
    exact .inl (.unlock i _ (by rw [hphase _ hplace]; exact .idle))
  | flipped latch =>
    simp only [advance, hplace] at h
    cases h
    rw [unlock_view]
    exact .inl (.unlock i _ (by rw [hphase _ hplace]; exact .posted))
  | committed =>
    simp only [advance, hplace] at h
    cases h
    rw [unlock_view]
    exact .inl (.unlock i _ (by rw [hphase _ hplace]; exact .asleep))
  | leaving answer =>
    simp only [advance, hplace] at h
    cases h
    change Step s.view (s.unlock i .outside).view ∨ _
    rw [unlock_view]
    exact .inl (.unlock i _ (by rw [hphase _ hplace]; exact .answered))

/-- Every step of the signal is one of its monitor, or none. -/
theorem step_view {action : SignalAction ι} (h : s.step action = some s') : Step s.view s'.view ∨ s'.view = s.view := by
  cases action with
  | call i call =>
    simp only [step] at h
    split_ifs at h with houtside
    cases h
    exact .inr (goto_same (by rw [houtside]; rfl))
  | advance i => exact advance_step h
  | wake i timedOut =>
    simp only [step] at h
    split_ifs at h with hasleep
    cases h
    rw [goto_view]
    exact .inl (.wake i (by simp [view, hasleep, SignalThread.phase]))

theorem run_sound {actions : List (SignalAction ι)} (hrun : ({} : StopSignal ι).run actions = some s) :
    Sound s.view := by
  refine Machine.run_invariant (I := fun _ s => Sound s.view) ?_ (fun _ mid _ next _ hmid hnext => ?_) hrun
  · exact ⟨fun _ => by simp [view, SignalThread.phase, Phase.holds], fun hready => by simp [view, stopping] at hready,
      fun hready => by simp [view, stopping] at hready⟩
  · rcases step_view hnext with hstep | heq
    · exact hmid.step hstep
    · rw [heq]
      exact hmid

section Answers

/-- A wait on its way out has the answer that holds as long as it keeps the mutex. -/
def Answers (s : StopSignal ι) : Prop := ∀ i answer, s.threads i = .leaving answer → answer = s.stopping

theorem goto_threads (thread : SignalThread) (j : ι) :
    (s.goto i thread).threads j = if j = i then thread else s.threads j := Function.update_apply ..

theorem Answers.goto (h : s.Answers) {thread : SignalThread} (hthread : ∀ answer, thread = .leaving answer → answer = s.stopping) :
    (s.goto i thread).Answers := by
  intro j answer hj
  rw [goto_threads] at hj
  split_ifs at hj with hji
  · exact hthread answer hj
  · exact h j answer hj

/-- No latch is set while a wait is on its way out: both need the mutex. -/
theorem Answers.flip (hsound : Sound s.view) {latch : SignalLatch} (hplace : s.threads i = .flipping latch) :
    (s.flip i latch).Answers := by
  have hnobody : ∀ j answer, s.threads j ≠ .leaving answer := by
    intro j answer hj
    have hji : j = i := hsound.exclusive (by simp [view, hj, SignalThread.phase, Phase.holds])
      (by simp [view, hplace, SignalThread.phase, Phase.holds])
    rw [hji, hplace] at hj
    cases hj
  have hflipped : ∀ (t : StopSignal ι) thread, t.threads = (s.goto i thread).threads →
      (∀ answer, thread ≠ .leaving answer) → t.Answers := by
    intro t thread hthreads hthread j answer hj
    rw [hthreads, goto_threads] at hj
    split_ifs at hj
    · exact absurd hj (hthread answer)
    · exact absurd hj (hnobody j answer)
  cases latch with
  | stopRequested =>
    simp only [StopSignal.flip]
    split_ifs
    · exact hflipped _ .repeated rfl (by simp)
    · exact hflipped _ (.flipped .stopRequested) rfl (by simp)
  | fatal => exact hflipped _ (.flipped .fatal) rfl (by simp)

theorem Answers.lock (h : s.Answers) {thread : SignalThread} (hthread : ∀ answer, thread ≠ .leaving answer)
    (hlock : s.lock i thread = some s') : s'.Answers := by
  simp only [StopSignal.lock] at hlock
  split_ifs at hlock
  cases hlock
  exact h.goto fun answer heq => absurd heq (hthread answer)

omit [DecidableEq ι] in
theorem Answers.notify (h : s.Answers) : s.notifyAll.Answers := by
  intro j answer hj
  refine h j answer ?_
  cases hplace : s.threads j <;> simp_all [notifyAll, SignalThread.notified]

theorem Answers.advance (h : s.Answers) (hsound : Sound s.view) (hadvance : s.advance i = some s') : s'.Answers := by
  cases hplace : s.threads i <;> simp only [StopSignal.advance, hplace] at hadvance
  case outside => cases hadvance
  case asleep => cases hadvance
  case entering call => exact h.lock (by cases call <;> simp [SignalThread.start]) hadvance
  case waking timedOut => exact h.lock (by simp) hadvance
  case flipping latch =>
    cases hadvance
    exact Answers.flip hsound hplace
  case looking timedOut =>
    split_ifs at hadvance with hstopping
    · cases hadvance
      exact h.goto fun answer heq => by cases heq; exact hstopping.symm
    · cases hadvance
      exact h.goto fun answer heq => by cases heq; exact (Bool.eq_false_iff.2 hstopping).symm
    · cases hadvance
      exact h.goto (by simp)
  case notifying latch =>
    cases hadvance
    exact h.notify.goto (by simp)
  all_goals
    cases hadvance
    exact h.goto (by simp)

end Answers

section Requests

/-- How many callers have been told that they made the request. -/
def made (s : StopSignal ι) : ℕ := s.returned.countP (·.2 = .requestStop true)

/-- The request is made once: nobody else is told so, before the one that made it returns or
after. -/
structure Requests (s : StopSignal ι) : Prop where
  quiet : (∀ i, (s.threads i).requesting = false) → s.made = s.stopRequested.toNat
  busy : ∀ i, (s.threads i).requesting = true →
    s.stopRequested = true ∧ s.made = 0 ∧ ∀ j, (s.threads j).requesting = true → j = i

omit [DecidableEq ι] in
theorem Requests.same (h : s.Requests) (hthreads : ∀ j, (s'.threads j).requesting = (s.threads j).requesting)
    (hstop : s'.stopRequested = s.stopRequested) (hmade : s'.made = s.made) : s'.Requests := by
  constructor
  · simp only [hthreads, hstop, hmade]
    exact h.quiet
  · simp only [hthreads, hstop, hmade]
    exact h.busy

theorem requesting_goto {thread : SignalThread} (h : thread.requesting = (s.threads i).requesting) (j : ι) :
    ((s.goto i thread).threads j).requesting = (s.threads j).requesting := by
  rw [goto_threads]
  split_ifs with hji
  · rw [h, hji]
  · rfl

omit [DecidableEq ι] in
theorem made_returns (result : SignalReturn) :
    (s.returns i result).made = s.made + if result = .requestStop true then 1 else 0 := by
  simp [made, returns, List.countP_append, List.countP_singleton]

theorem Requests.flip (h : s.Requests) {latch : SignalLatch} (hplace : s.threads i = .flipping latch) :
    (s.flip i latch).Requests := by
  have hidle : (s.threads i).requesting = false := by rw [hplace]; rfl
  cases latch with
  | fatal => exact h.same (requesting_goto (by rw [hidle]; rfl)) rfl rfl
  | stopRequested =>
    simp only [StopSignal.flip]
    split_ifs with hstop
    · exact h.same (requesting_goto (by rw [hidle]; rfl)) rfl rfl
    · -- the first request: nobody can have made it before
      have hnobody : ∀ j, (s.threads j).requesting = false := by
        intro j
        rw [← Bool.not_eq_true]
        exact fun hj => hstop (h.busy j hj).1
      have hmade : s.made = 0 := by rw [h.quiet hnobody, Bool.eq_false_iff.2 hstop]; rfl
      have honly : ∀ j, (((s.goto i (.flipped .stopRequested)).threads j).requesting = true ↔ j = i) := by
        intro j
        rw [goto_threads]
        split_ifs with hji
        · exact iff_of_true rfl hji
        · rw [hnobody j]
          exact iff_of_false Bool.false_ne_true hji
      refine ⟨fun hquiet => ?_, fun k hk => ⟨rfl, hmade, fun j hj => ?_⟩⟩
      · have hi := (honly i).2 rfl
        rw [hquiet i] at hi
        cases hi
      · rw [(honly j).1 hj, (honly k).1 hk]

/-- The one that made the request returns. -/
theorem Requests.notify (h : s.Requests) {latch : SignalLatch} (hplace : s.threads i = .notifying latch) :
    ((s.notifyAll.goto i .outside).returns i (returnOf latch)).Requests := by
  have hnotified : ∀ j, (s.notifyAll.threads j).requesting = (s.threads j).requesting := by
    intro j
    cases hj : s.threads j <;> simp [notifyAll, hj, SignalThread.notified, SignalThread.requesting]
  cases latch with
  | fatal =>
    refine h.same (fun j => ?_) rfl ?_
    · change ((s.notifyAll.goto i .outside).threads j).requesting = _
      rw [requesting_goto (by rw [hnotified, hplace]; rfl), hnotified]
    · rw [made_returns]
      rfl
  | stopRequested =>
    obtain ⟨hstop, hmade, honly⟩ := h.busy i (by rw [hplace]; rfl)
    have hnobody : ∀ j, ((s.notifyAll.goto i .outside).threads j).requesting = false := by
      intro j
      rw [goto_threads]
      split_ifs with hji
      · rfl
      · rw [hnotified, ← Bool.not_eq_true]
        exact fun hj => hji (honly j hj)
    refine ⟨fun _ => ?_, fun k hk => ?_⟩
    · rw [made_returns]
      change s.made + 1 = s.stopRequested.toNat
      rw [hmade, hstop]
      rfl
    · change ((s.notifyAll.goto i .outside).threads k).requesting = true at hk
      rw [hnobody k] at hk
      cases hk

theorem Requests.lock (h : s.Requests) {thread : SignalThread} (hthread : thread.requesting = (s.threads i).requesting)
    (hlock : s.lock i thread = some s') : s'.Requests := by
  simp only [StopSignal.lock] at hlock
  split_ifs at hlock
  cases hlock
  exact h.same (requesting_goto hthread) rfl rfl

theorem Requests.advance (h : s.Requests) (hadvance : s.advance i = some s') : s'.Requests := by
  cases hplace : s.threads i <;> simp only [StopSignal.advance, hplace] at hadvance
  case outside => cases hadvance
  case asleep => cases hadvance
  case entering call =>
    refine h.lock ?_ hadvance
    rw [hplace]
    cases call <;> rfl
  case waking timedOut => exact h.lock (by rw [hplace]; rfl) hadvance
  case flipping latch =>
    cases hadvance
    exact h.flip hplace
  case notifying latch =>
    cases hadvance
    exact h.notify hplace
  case looking timedOut =>
    split_ifs at hadvance <;> cases hadvance <;> exact h.same (requesting_goto (by rw [hplace]; rfl)) rfl rfl
  case flipped latch =>
    cases hadvance
    refine h.same (requesting_goto ?_) rfl rfl
    rw [hplace]
    cases latch <;> rfl
  case repeated =>
    cases hadvance
    exact h.same (requesting_goto (by rw [hplace]; rfl)) rfl (made_returns _)
  case leaving answer =>
    cases hadvance
    exact h.same (requesting_goto (by rw [hplace]; rfl)) rfl (made_returns _)
  case committed =>
    cases hadvance
    exact h.same (requesting_goto (by rw [hplace]; rfl)) rfl rfl

end Requests

section Run

variable {action : SignalAction ι} {actions : List (SignalAction ι)}

theorem Answers.step (h : s.Answers) (hsound : Sound s.view) (hstep : s.step action = some s') : s'.Answers := by
  cases action with
  | advance i => exact h.advance hsound hstep
  | call i call =>
    simp only [StopSignal.step] at hstep
    split_ifs at hstep
    cases hstep
    exact h.goto (by simp)
  | wake i timedOut =>
    simp only [StopSignal.step] at hstep
    split_ifs at hstep
    cases hstep
    exact h.goto (by simp)

theorem Requests.step (h : s.Requests) (hstep : s.step action = some s') : s'.Requests := by
  cases action with
  | advance i => exact h.advance hstep
  | call i call =>
    simp only [StopSignal.step] at hstep
    split_ifs at hstep with hplace
    cases hstep
    exact h.same (requesting_goto (by rw [hplace]; rfl)) rfl rfl
  | wake i timedOut =>
    simp only [StopSignal.step] at hstep
    split_ifs at hstep with hplace
    cases hstep
    exact h.same (requesting_goto (by rw [hplace]; rfl)) rfl rfl

theorem run_answers (hrun : ({} : StopSignal ι).run actions = some s) : s.Answers :=
  Machine.run_invariant (I := fun _ s => s.Answers) (fun _ _ h => by cases h)
    (fun _ _ _ _ hmid hanswers hnext => hanswers.step (run_sound hmid) hnext) hrun

theorem run_requests (hrun : ({} : StopSignal ι).run actions = some s) : s.Requests :=
  Machine.run_invariant (I := fun _ s => s.Requests) ⟨fun _ => rfl, fun _ h => by cases h⟩
    (fun _ _ _ _ _ hrequests hnext => hrequests.step hnext) hrun

/-- A wait returns from where it has its answer. -/
theorem leaving_of_returned {i : ι} {answer : Bool} (hstep : s.step action = some s')
    (hreturned : s'.returned = s.returned ++ [(i, .waitFor answer)]) : s.threads i = .leaving answer := by
  have hnone : s'.returned ≠ s.returned := by rw [hreturned]; simp
  have hlast : ∀ j result, s'.returned = s.returned ++ [(j, result)] → j = i ∧ result = .waitFor answer := by
    intro j result hj
    rw [hreturned] at hj
    have hpair := (List.cons.inj (List.append_cancel_left hj)).1
    exact ⟨(congrArg Prod.fst hpair).symm, (congrArg Prod.snd hpair).symm⟩
  cases action with
  | call j call =>
    simp only [StopSignal.step] at hstep
    split_ifs at hstep
    cases hstep
    exact absurd rfl hnone
  | wake j timedOut =>
    simp only [StopSignal.step] at hstep
    split_ifs at hstep
    cases hstep
    exact absurd rfl hnone
  | advance j =>
    simp only [StopSignal.step] at hstep
    cases hplace : s.threads j <;> simp only [StopSignal.advance, hplace] at hstep
    case leaving given =>
      cases hstep
      obtain ⟨rfl, hresult⟩ := hlast j _ rfl
      cases hresult
      exact hplace
    case repeated =>
      cases hstep
      cases (hlast j _ rfl).2
    case notifying latch =>
      cases hstep
      have hresult := (hlast j _ rfl).2
      cases latch <;> cases hresult
    case entering call =>
      simp only [lock] at hstep
      split_ifs at hstep
      cases hstep
      exact absurd rfl hnone
    case waking timedOut =>
      simp only [lock] at hstep
      split_ifs at hstep
      cases hstep
      exact absurd rfl hnone
    case flipping latch =>
      cases hstep
      refine absurd ?_ hnone
      cases latch with
      | fatal => rfl
      | stopRequested =>
        simp only [flip]
        split_ifs <;> rfl
    case looking timedOut =>
      split_ifs at hstep <;> cases hstep <;> exact absurd rfl hnone
    all_goals
      cases hstep
      try exact absurd rfl hnone

end Run

end StopSignal

open StopSignal in
/-- Once a latch is set and whoever set one has notified, nobody is left asleep. A wait answers
whether a latch is set as it returns. Of all that request the stop exactly one is told that
it made the request. -/
theorem stop_signal_reaches_every_waiter {ι : Type} [DecidableEq ι] (actions : List (SignalAction ι)) (s : StopSignal ι)
    (hrun : ({} : StopSignal ι).run actions = some s) :
    (s.stopping = true → (∀ j, (s.threads j).signalling = false) → ∀ i, s.threads i ≠ .asleep) ∧
    (∀ action s' i answer, s.step action = some s' → s'.returned = s.returned ++ [(i, .waitFor answer)] →
      answer = s.stopping) ∧
    s.returned.countP (·.2 = .requestStop true) ≤ 1 ∧
    ((∀ j, (s.threads j).signalling = false) →
      s.returned.countP (·.2 = .requestStop true) = s.stopRequested.toNat) := by
  have hrequests := run_requests hrun
  refine ⟨fun hstopping hquiet i hasleep => ?_, fun action s' i answer hstep hreturned => ?_, ?_, fun hquiet => ?_⟩
  · refine (run_sound hrun).nobody_asleep hstopping (fun j => ?_) i (SignalThread.phase_eq_asleep.2 hasleep)
    exact (s.threads j).signalling_eq.trans (hquiet j)
  · exact run_answers hrun i answer (leaving_of_returned hstep hreturned)
  · change s.made ≤ 1
    by_cases hbusy : ∃ i, (s.threads i).requesting = true
    · obtain ⟨i, hi⟩ := hbusy
      rw [(hrequests.busy i hi).2.1]
      exact Nat.zero_le 1
    · rw [hrequests.quiet fun i => Bool.eq_false_iff.2 fun hi => hbusy ⟨i, hi⟩]
      exact Bool.toNat_le _
  · refine hrequests.quiet fun i => Bool.eq_false_iff.2 fun hi => ?_
    have hsignalling := hquiet i
    cases hplace : s.threads i <;> simp_all [SignalThread.requesting, SignalThread.signalling]

/-- A watchdog sleeps, the stop is requested twice at once, and a fatal error is latched. -/
def crowdedStop : List (SignalAction (Fin 4)) :=
  [.call 0 .waitFor, .advance 0, .advance 0, .advance 0, .call 1 .requestStop, .call 2 .requestStop, .advance 1,
    .advance 1, .call 3 .latchFatal, .advance 1, .advance 2, .advance 2, .advance 2, .advance 3, .advance 3,
    .advance 3, .advance 1, .advance 3]

theorem crowdedStop_runs : (({} : StopSignal (Fin 4)).run crowdedStop).isSome = true := by decide

theorem crowded_stop_reaches_sleeper : ∃ s, ({} : StopSignal (Fin 4)).run crowdedStop = some s ∧ s.stopping = true ∧
    s.threads 0 ≠ .asleep ∧ s.returned.countP (·.2 = .requestStop true) = 1 := by
  have hrun := (Option.some_get crowdedStop_runs).symm
  have hstopping : ((({} : StopSignal (Fin 4)).run crowdedStop).get crowdedStop_runs).stopping = true := by decide
  have hquiet : ∀ j, (((({} : StopSignal (Fin 4)).run crowdedStop).get crowdedStop_runs).threads j).signalling = false :=
    by decide
  obtain ⟨hawake, -, -, hmade⟩ := stop_signal_reaches_every_waiter crowdedStop _ hrun
  exact ⟨_, hrun, hstopping, hawake hstopping hquiet 0, hmade hquiet⟩

end CryptoTrader
