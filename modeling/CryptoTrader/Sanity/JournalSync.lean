import CryptoTrader.Spec.JournalSync

/-! The two threads of a journal go through the phases of two kinds of monitors: the wakeup of
the journal thread, whose posts are the control events in the ring, and the close signals. What
the connection's thread waits for is the last thing it queued, until it has been handled. -/

namespace CryptoTrader

open Monitor

/-- The phases of the two threads. -/
def sides (producer journal : Phase) : JournalSide → Phase
  | .producer => producer
  | .journal => journal

@[simp] theorem update_sides_producer (p j p' : Phase) : Function.update (sides p j) .producer p' = sides p' j := by
  funext side
  cases side <;> rfl

@[simp] theorem update_sides_journal (p j j' : Phase) : Function.update (sides p j) .journal j' = sides p j' := by
  funext side
  cases side <;> rfl

/-- A step of a monitor of the two, read off their phases. -/
theorem sides_of_step {v w : View JournalSide} {ready : Bool} {owner : Option JournalSide} {p j : Phase} (h : Sound v)
    (hstep : Step v w) (hready : ready = w.ready) (howner : owner = w.owner) (hp : p = w.phase .producer)
    (hj : j = w.phase .journal) : Sound ⟨ready, owner, sides p j⟩ := by
  have hphase : sides p j = w.phase := by
    funext side
    cases side
    · exact hp
    · exact hj
  rw [hready, howner, hphase]
  exact h.step hstep

namespace ProducerPlace

/-- The phase in the wakeup of the journal thread. Only a control event owes one. -/
def wakePhase : ProducerPlace → Phase
  | .waking true _ => .posted
  | .woke must _ => if must then .posting else .holding
  | .notifying true _ => .notifying
  | _ => .away

/-- The phase in a close signal. -/
def closePhase (signal : ℕ) : ProducerPlace → Phase
  | .looking waited => if waited = signal then .looking else .away
  | .committed waited => if waited = signal then .committed else .away
  | .asleep waited => if waited = signal then .asleep else .away
  | .awake waited => if waited = signal then .waking else .away
  | .leaving waited => if waited = signal then .leaving else .away
  | _ => .away

theorem wakePhase_notified (place : ProducerPlace) (signal : ℕ) :
    (place.notified signal).wakePhase = place.wakePhase := by
  cases place with
  | asleep waited =>
    simp only [notified]
    split_ifs <;> rfl
  | _ => rfl

theorem closePhase_notified (place : ProducerPlace) (signal : ℕ) :
    (place.notified signal).closePhase signal = (place.closePhase signal).notified := by
  cases place with
  | asleep waited =>
    simp only [notified]
    split_ifs with heq <;> simp [closePhase, heq, Phase.notified]
  | looking waited | committed waited | awake waited | leaving waited =>
    simp only [notified, closePhase]
    split_ifs <;> rfl
  | _ => rfl

theorem closePhase_notified_other (place : ProducerPlace) {signal other : ℕ} (h : signal ≠ other) :
    (place.notified signal).closePhase other = place.closePhase other := by
  cases place with
  | asleep waited =>
    simp only [notified]
    split_ifs with heq
    · simp [closePhase, heq, h]
    · rfl
  | _ => rfl

theorem closePhase_place (next : AfterWake) (signal : ℕ) : (next.place).closePhase signal = .away := by
  cases next <;> rfl

theorem wakePhase_place (next : AfterWake) : (next.place).wakePhase = .away := by cases next <;> rfl

end ProducerPlace

namespace JournalPlace

def wakePhase : JournalPlace → Phase
  | .looking => .looking
  | .committed => .committed
  | .asleep => .asleep
  | .awake => .waking
  | .leaving _ => .leaving
  | _ => .away

def closePhase (signal : ℕ) : JournalPlace → Phase
  | .setting completed => if completed = signal then .holding else .away
  | .flagged completed => if completed = signal then .posting else .away
  | .notifying completed => if completed = signal then .notifying else .away
  | _ => .away

theorem wakePhase_notified (place : JournalPlace) : place.notified.wakePhase = place.wakePhase.notified := by
  cases place <;> rfl

theorem closePhase_notified (place : JournalPlace) (signal : ℕ) :
    place.notified.closePhase signal = place.closePhase signal := by
  cases place <;> rfl

theorem wakePhase_place (item : JournalItem) : item.place.wakePhase = .away := by cases item <;> rfl

theorem closePhase_place (item : JournalItem) (signal : ℕ) : item.place.closePhase signal = .away := by
  cases item <;> rfl

/-- The event the thread has popped and not handled yet. -/
def inHand : JournalPlace → List JournalItem
  | .leaving item | .handling item => [item]
  | _ => []

end JournalPlace

namespace JournalSync

variable {s s' : JournalSync}

def wakeView (s : JournalSync) : View JournalSide :=
  ⟨s.ring.any (·.isControl), s.wakeMutex, sides s.producer.wakePhase s.journal.wakePhase⟩

def closeView (s : JournalSync) (signal : ℕ) : View JournalSide :=
  ⟨(s.signals signal).done, (s.signals signal).mutex,
    sides (s.producer.closePhase signal) (s.journal.closePhase signal)⟩

theorem lockWake_eq_some {side : JournalSide} (h : s.lockWake side = some s') :
    s.wakeMutex = none ∧ s' = { s with wakeMutex := some side } := by
  simp only [lockWake] at h
  split_ifs at h with hmutex
  exact ⟨Option.not_isSome_iff_eq_none.1 hmutex, (Option.some.inj h).symm⟩

theorem lockSignal_eq_some {signal : ℕ} {side : JournalSide} (h : s.lockSignal signal side = some s') :
    (s.signals signal).mutex = none ∧ s' = s.setSignal signal { s.signals signal with mutex := some side } := by
  simp only [lockSignal] at h
  split_ifs at h with hmutex
  exact ⟨Option.not_isSome_iff_eq_none.1 hmutex, (Option.some.inj h).symm⟩

section Wake

variable {sleeping : Bool}

theorem wake_same (h : Sound s.wakeView) (hring : s'.ring.any (·.isControl) = s.ring.any (·.isControl))
    (hmutex : s'.wakeMutex = s.wakeMutex) (hp : s'.producer.wakePhase = s.producer.wakePhase)
    (hj : s'.journal.wakePhase = s.journal.wakePhase) : Sound s'.wakeView := by
  have heq : s'.wakeView = s.wakeView := by rw [wakeView, hring, hmutex, hp, hj, wakeView]
  rw [heq]
  exact h

theorem call_wake (h : Sound s.wakeView) (hidle : s.producer = .idle) (call : JournalCall) :
    Sound (s.call call).wakeView := by
  have hphase : s.wakeView.phase .producer = .away := by simp [wakeView, sides, hidle, ProducerPlace.wakePhase]
  have hcontrol : ∀ item, item.isControl = true → ∀ next, Sound (s.queue item (.waking true next)).wakeView := by
    intro item hitem next
    exact sides_of_step h (.post .producer hphase) (by simp [queue, hitem]) rfl rfl rfl
  cases call with
  | push frame room =>
    simp only [JournalSync.call]
    split_ifs
    · exact wake_same h (by simp [queue, JournalItem.isControl]) rfl (by rw [hidle]; rfl) rfl
    · exact h
  | connect marker => exact hcontrol (.connect marker) rfl .returns
  | disconnect => exact hcontrol (.disconnect s.nextSignal) rfl (.waits s.nextSignal)
  | destroy => exact hcontrol .stop rfl .joins

theorem advanceProducer_wake (h : Sound s.wakeView) (hstep : s.advanceProducer sleeping = some s') :
    Sound s'.wakeView := by
  have hphase : ∀ place, s.producer = place → s.wakeView.phase .producer = place.wakePhase := by
    intro place hplace
    rw [← hplace]
    rfl
  cases hplace : s.producer <;> simp only [advanceProducer, hplace] at hstep
  case idle | asleep | ended => cases hstep
  case waking must next =>
    obtain ⟨t, hlock, rfl⟩ := Option.map_eq_some_iff.1 hstep
    obtain ⟨hfree, rfl⟩ := lockWake_eq_some hlock
    cases must with
    | true => exact sides_of_step h (.lock .producer .posting (by rw [hphase _ hplace]; exact .posted) hfree) rfl rfl rfl rfl
    | false => exact sides_of_step h (.lock .producer .holding (by rw [hphase _ hplace]; exact .toPost) hfree) rfl rfl rfl rfl
  case woke must next =>
    cases hstep
    cases must with
    | true => exact sides_of_step h (.unlock .producer .notifying (by rw [hphase _ hplace]; exact .posted)) rfl rfl rfl rfl
    | false => exact sides_of_step h (.unlock .producer .away (by rw [hphase _ hplace]; exact .idle)) rfl rfl rfl rfl
  case notifying must next =>
    cases hstep
    cases must with
    | true =>
      refine sides_of_step h (.notify .producer (by rw [hphase _ hplace]; rfl)) rfl rfl ?_ ?_
      · exact ProducerPlace.wakePhase_place next
      · exact s.journal.wakePhase_notified
    | false =>
      -- a frame's notification wakes the thread up or does nothing
      have haway : next.place.wakePhase = s.producer.wakePhase := by rw [ProducerPlace.wakePhase_place, hplace]; rfl
      by_cases hasleep : s.journal = .asleep
      · refine sides_of_step h (.wake .journal (by simp [wakeView, sides, hasleep, JournalPlace.wakePhase])) rfl rfl ?_ ?_
        · exact haway
        · rw [hasleep]
          rfl
      · refine wake_same h rfl rfl haway ?_
        cases hjournal : s.journal <;> first | rfl | exact absurd hjournal hasleep
  case joining =>
    split_ifs at hstep
    cases hstep
    exact wake_same h rfl rfl (by rw [hplace]; rfl) rfl
  case hinting =>
    cases hstep
    exact wake_same h rfl rfl (by rw [hplace]; cases sleeping <;> rfl) rfl
  case looking signal =>
    cases hstep
    refine wake_same h rfl rfl ?_ rfl
    rw [hplace]
    dsimp only
    split_ifs <;> rfl
  case entering signal | awake signal =>
    obtain ⟨t, hlock, rfl⟩ := Option.map_eq_some_iff.1 hstep
    obtain ⟨-, rfl⟩ := lockSignal_eq_some hlock
    exact wake_same h rfl rfl (by rw [hplace]; rfl) rfl
  case committed signal | leaving signal =>
    cases hstep
    exact wake_same h rfl rfl (by rw [hplace]; rfl) rfl

theorem advanceJournal_wake (h : Sound s.wakeView) (hstep : s.advanceJournal = some s') : Sound s'.wakeView := by
  have hphase : ∀ place, s.journal = place → s.wakeView.phase .journal = place.wakePhase := by
    intro place hplace
    rw [← hplace]
    rfl
  have hpop : ∀ item ring, s.ring = item :: ring → ring.any (·.isControl) = true → s.wakeView.ready = true := by
    intro item ring hring hany
    simp [wakeView, hring, hany]
  cases hplace : s.journal <;> simp only [advanceJournal, hplace] at hstep
  case asleep | returned => cases hstep
  case popping =>
    split at hstep
    · cases hstep
      exact wake_same h rfl rfl rfl (by rw [hplace]; rfl)
    · next item ring hring =>
      cases hstep
      have hweaker := h.withdraw (hpop item ring hring)
      rw [wakeView, hplace] at hweaker
      exact hweaker
  case looking =>
    split at hstep
    · next hring =>
      cases hstep
      refine sides_of_step h (.commit .journal (by rw [hphase _ hplace]; rfl) ?_) rfl rfl rfl rfl
      rw [wakeView, hring]
      rfl
    · next item ring hring =>
      cases hstep
      exact (sides_of_step h (.answer .journal (by rw [hphase _ hplace]; rfl)) rfl rfl rfl rfl :
        Sound ⟨s.wakeView.ready, s.wakeMutex, sides s.producer.wakePhase .leaving⟩).withdraw (hpop item ring hring)
  case locking =>
    obtain ⟨t, hlock, rfl⟩ := Option.map_eq_some_iff.1 hstep
    obtain ⟨hfree, rfl⟩ := lockWake_eq_some hlock
    exact sides_of_step h (.lock .journal .looking (by rw [hphase _ hplace]; exact .toLook) hfree) rfl rfl rfl rfl
  case awake =>
    obtain ⟨t, hlock, rfl⟩ := Option.map_eq_some_iff.1 hstep
    obtain ⟨hfree, rfl⟩ := lockWake_eq_some hlock
    exact sides_of_step h (.lock .journal .looking (by rw [hphase _ hplace]; exact .toLookAgain) hfree) rfl rfl rfl rfl
  case committed =>
    cases hstep
    exact sides_of_step h (.unlock .journal .asleep (by rw [hphase _ hplace]; exact .asleep)) rfl rfl rfl rfl
  case leaving item =>
    cases hstep
    exact sides_of_step h (.unlock .journal .away (by rw [hphase _ hplace]; exact .answered)) rfl rfl rfl rfl
  case handling item =>
    cases hstep
    exact wake_same h rfl rfl rfl (by rw [hplace, JournalPlace.wakePhase_place]; rfl)
  case completing signal =>
    obtain ⟨t, hlock, rfl⟩ := Option.map_eq_some_iff.1 hstep
    obtain ⟨-, rfl⟩ := lockSignal_eq_some hlock
    exact wake_same h rfl rfl rfl (by rw [hplace]; rfl)
  case setting signal | flagged signal =>
    cases hstep
    exact wake_same h rfl rfl rfl (by rw [hplace]; rfl)
  case notifying signal =>
    cases hstep
    exact wake_same h rfl rfl (s.producer.wakePhase_notified signal) (by rw [hplace]; rfl)

theorem wake_wake {side : JournalSide} (h : Sound s.wakeView) (hstep : s.wake side = some s') : Sound s'.wakeView := by
  cases side with
  | producer =>
    simp only [wake] at hstep
    split at hstep
    · next signal hplace =>
      cases hstep
      exact wake_same h rfl rfl (by rw [hplace]; rfl) rfl
    · cases hstep
  | journal =>
    simp only [wake] at hstep
    split_ifs at hstep with hasleep
    cases hstep
    exact sides_of_step h (.wake .journal (by simp [wakeView, sides, hasleep, JournalPlace.wakePhase])) rfl rfl rfl rfl

end Wake

section Close

variable {sleeping : Bool} {signal : ℕ}

theorem close_same (h : Sound (s.closeView signal)) (hsignal : s'.signals signal = s.signals signal)
    (hp : s'.producer.closePhase signal = s.producer.closePhase signal)
    (hj : s'.journal.closePhase signal = s.journal.closePhase signal) : Sound (s'.closeView signal) := by
  have heq : s'.closeView signal = s.closeView signal := by rw [closeView, hsignal, hp, hj, closeView]
  rw [heq]
  exact h

/-- A step of one signal's monitor leaves the others alone. -/
theorem close_of_step (h : ∀ signal, Sound (s.closeView signal)) (moved : ℕ) {w : View JournalSide}
    (hstep : Step (s.closeView moved) w) (hself : s'.closeView moved = w)
    (hother : ∀ signal, moved ≠ signal → s'.closeView signal = s.closeView signal) (signal : ℕ) :
    Sound (s'.closeView signal) := by
  by_cases heq : moved = signal
  · rw [← heq, hself]
    exact (h moved).step hstep
  · rw [hother signal heq]
    exact h signal

theorem call_close (h : ∀ signal, Sound (s.closeView signal)) (hidle : s.producer = .idle) (call : JournalCall)
    (signal : ℕ) : Sound ((s.call call).closeView signal) := by
  cases call with
  | push frame room =>
    simp only [JournalSync.call]
    split_ifs
    · exact close_same (h signal) rfl (by rw [hidle]; rfl) rfl
    · exact h signal
  | connect marker => exact close_same (h signal) rfl (by rw [hidle]; rfl) rfl
  | disconnect => exact close_same (h signal) rfl (by rw [hidle]; rfl) rfl
  | destroy => exact close_same (h signal) rfl (by rw [hidle]; rfl) rfl

theorem advanceProducer_close (h : ∀ signal, Sound (s.closeView signal)) (hstep : s.advanceProducer sleeping = some s')
    (signal : ℕ) : Sound (s'.closeView signal) := by
  have hphase : ∀ place waited, s.producer = place → (s.closeView waited).phase .producer = place.closePhase waited := by
    intro place waited hplace
    rw [← hplace]
    rfl
  cases hplace : s.producer <;> simp only [advanceProducer, hplace] at hstep
  case idle | asleep | ended => cases hstep
  case hinting =>
    cases hstep
    exact close_same (h signal) rfl (by rw [hplace]; cases sleeping <;> rfl) rfl
  case waking must next =>
    obtain ⟨t, hlock, rfl⟩ := Option.map_eq_some_iff.1 hstep
    obtain ⟨-, rfl⟩ := lockWake_eq_some hlock
    exact close_same (h signal) rfl (by rw [hplace]; rfl) rfl
  case woke must next =>
    cases hstep
    exact close_same (h signal) rfl (by rw [hplace]; rfl) rfl
  case notifying must next =>
    cases hstep
    exact close_same (h signal) rfl (by rw [hplace, ProducerPlace.closePhase_place]; rfl) (s.journal.closePhase_notified signal)
  case joining =>
    split_ifs at hstep
    cases hstep
    exact close_same (h signal) rfl (by rw [hplace]; rfl) rfl
  case entering waited =>
    obtain ⟨t, hlock, rfl⟩ := Option.map_eq_some_iff.1 hstep
    obtain ⟨hfree, rfl⟩ := lockSignal_eq_some hlock
    refine close_of_step h waited (.lock .producer .looking ?_ hfree) ?_ (fun other hother => ?_) signal
    · rw [hphase _ waited hplace]
      exact .toLook
    · simp [closeView, View.move, setSignal, ProducerPlace.closePhase]
    · simp [closeView, setSignal, hplace, ProducerPlace.closePhase, hother, hother.symm]
  case awake waited =>
    obtain ⟨t, hlock, rfl⟩ := Option.map_eq_some_iff.1 hstep
    obtain ⟨hfree, rfl⟩ := lockSignal_eq_some hlock
    refine close_of_step h waited (.lock .producer .looking ?_ hfree) ?_ (fun other hother => ?_) signal
    · rw [hphase _ waited hplace, ProducerPlace.closePhase, if_pos rfl]
      exact .toLookAgain
    · simp [closeView, View.move, setSignal, ProducerPlace.closePhase]
    · simp [closeView, setSignal, hplace, ProducerPlace.closePhase, hother, hother.symm]
  case looking waited =>
    cases hstep
    have hlooking : (s.closeView waited).phase .producer = .looking := by
      rw [hphase _ waited hplace, ProducerPlace.closePhase, if_pos rfl]
    cases hdone : (s.signals waited).done with
    | true =>
      refine close_of_step h waited (.answer .producer hlooking) ?_ (fun other hother => ?_) signal
      · simp [closeView, View.move, ProducerPlace.closePhase]
      · simp [closeView, hplace, ProducerPlace.closePhase, hother]
    | false =>
      refine close_of_step h waited (.commit .producer hlooking hdone) ?_ (fun other hother => ?_) signal
      · simp [closeView, View.move, ProducerPlace.closePhase]
      · simp [closeView, hplace, ProducerPlace.closePhase, hother]
  case committed waited =>
    cases hstep
    refine close_of_step h waited (.unlock .producer .asleep ?_) ?_ (fun other hother => ?_) signal
    · rw [hphase _ waited hplace, ProducerPlace.closePhase, if_pos rfl]
      exact .asleep
    · simp [closeView, View.move, unlockSignal, setSignal, ProducerPlace.closePhase]
    · simp [closeView, unlockSignal, setSignal, hplace, ProducerPlace.closePhase, hother, hother.symm]
  case leaving waited =>
    cases hstep
    refine close_of_step h waited (.unlock .producer .away ?_) ?_ (fun other hother => ?_) signal
    · rw [hphase _ waited hplace, ProducerPlace.closePhase, if_pos rfl]
      exact .answered
    · simp [closeView, View.move, unlockSignal, setSignal, ProducerPlace.closePhase]
    · simp [closeView, unlockSignal, setSignal, hplace, ProducerPlace.closePhase, hother, hother.symm]

theorem advanceJournal_close (h : ∀ signal, Sound (s.closeView signal)) (hstep : s.advanceJournal = some s')
    (signal : ℕ) : Sound (s'.closeView signal) := by
  have hphase : ∀ place completed, s.journal = place →
      (s.closeView completed).phase .journal = place.closePhase completed := by
    intro place completed hplace
    rw [← hplace]
    rfl
  cases hplace : s.journal <;> simp only [advanceJournal, hplace] at hstep
  case asleep | returned => cases hstep
  case popping | looking =>
    split at hstep <;> cases hstep <;> exact close_same (h signal) rfl rfl (by rw [hplace]; rfl)
  case locking | awake =>
    obtain ⟨t, hlock, rfl⟩ := Option.map_eq_some_iff.1 hstep
    obtain ⟨-, rfl⟩ := lockWake_eq_some hlock
    exact close_same (h signal) rfl rfl (by rw [hplace]; rfl)
  case committed | leaving item =>
    cases hstep
    exact close_same (h signal) rfl rfl (by rw [hplace]; rfl)
  case handling item =>
    cases hstep
    exact close_same (h signal) rfl rfl (by rw [hplace, JournalPlace.closePhase_place]; rfl)
  case completing completed =>
    obtain ⟨t, hlock, rfl⟩ := Option.map_eq_some_iff.1 hstep
    obtain ⟨hfree, rfl⟩ := lockSignal_eq_some hlock
    refine close_of_step h completed (.lock .journal .holding ?_ hfree) ?_ (fun other hother => ?_) signal
    · rw [hphase _ completed hplace]
      exact .toPost
    · simp [closeView, View.move, setSignal, JournalPlace.closePhase]
    · simp [closeView, setSignal, hplace, JournalPlace.closePhase, hother, hother.symm]
  case setting completed =>
    cases hstep
    refine close_of_step h completed (.postInside .journal ?_) ?_ (fun other hother => ?_) signal
    · rw [hphase _ completed hplace, JournalPlace.closePhase, if_pos rfl]
    · simp [closeView, View.move, setSignal, JournalPlace.closePhase]
    · simp [closeView, setSignal, hplace, JournalPlace.closePhase, hother, hother.symm]
  case flagged completed =>
    cases hstep
    refine close_of_step h completed (.unlock .journal .notifying ?_) ?_ (fun other hother => ?_) signal
    · rw [hphase _ completed hplace, JournalPlace.closePhase, if_pos rfl]
      exact .posted
    · simp [closeView, View.move, unlockSignal, setSignal, JournalPlace.closePhase]
    · simp [closeView, unlockSignal, setSignal, hplace, JournalPlace.closePhase, hother, hother.symm]
  case notifying completed =>
    cases hstep
    have hsides : (fun side => ((s.closeView completed).phase side).notified) =
        sides (s.producer.closePhase completed).notified (s.journal.closePhase completed).notified := by
      funext side
      cases side <;> rfl
    refine close_of_step h completed (.notify .journal ?_) ?_ (fun other hother => ?_) signal
    · rw [hphase _ completed hplace, JournalPlace.closePhase, if_pos rfl]
    · rw [hsides, update_sides_journal]
      simp [closeView, ProducerPlace.closePhase_notified, JournalPlace.closePhase]
    · simp [closeView, hplace, JournalPlace.closePhase, hother, ProducerPlace.closePhase_notified_other _ hother]

theorem wake_close {side : JournalSide} (h : ∀ signal, Sound (s.closeView signal)) (hstep : s.wake side = some s')
    (signal : ℕ) : Sound (s'.closeView signal) := by
  cases side with
  | producer =>
    simp only [wake] at hstep
    split at hstep
    · next waited hplace =>
      cases hstep
      refine close_of_step h waited (.wake .producer ?_) ?_ (fun other hother => ?_) signal
      · simp [closeView, sides, hplace, ProducerPlace.closePhase]
      · simp [closeView, View.move, ProducerPlace.closePhase]
      · simp [closeView, hplace, ProducerPlace.closePhase, hother]
    · cases hstep
  | journal =>
    simp only [wake] at hstep
    split_ifs at hstep with hasleep
    cases hstep
    exact close_same (h signal) rfl rfl (by rw [hasleep]; rfl)

end Close

end JournalSync

end CryptoTrader
