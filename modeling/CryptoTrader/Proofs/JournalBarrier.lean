import CryptoTrader.Sanity.JournalSync

/-! The barriers of a threaded journal. Whatever a call of the connection's thread waits for is
the last thing in the queue, so that once it has been served everything before it has been
handled. Somebody can always move on without waiting for a timeout, and only so often: a
weight of the places of both threads and of the queue drops with every move. -/

namespace CryptoTrader

open Monitor

/-- No barrier stands behind the event. -/
def JournalItem.isPlain : JournalItem → Bool
  | .frame _ | .connect _ => true
  | .disconnect _ | .stop => false

def AfterWake.awaits : AfterWake → Option JournalItem
  | .returns => none
  | .waits signal => some (.disconnect signal)
  | .joins => some .stop

/-- The event the call under way has to see handled. -/
def ProducerPlace.awaits : ProducerPlace → Option JournalItem
  | .idle | .hinting => none
  | .waking _ next | .woke _ next | .notifying _ next => next.awaits
  | .entering signal | .looking signal | .committed signal | .asleep signal | .awake signal | .leaving signal =>
    some (.disconnect signal)
  | .joining | .ended => some .stop

/-- The event the journal thread has handled and not reported yet. -/
def JournalPlace.serves : JournalPlace → Option JournalItem
  | .completing signal | .setting signal => some (.disconnect signal)
  | .returned => some .stop
  | _ => none

theorem ProducerPlace.awaits_place (next : AfterWake) : next.place.awaits = next.awaits := by cases next <;> rfl

theorem ProducerPlace.awaits_notified (place : ProducerPlace) (signal : ℕ) :
    (place.notified signal).awaits = place.awaits := by
  cases place with
  | asleep waited =>
    simp only [notified]
    split_ifs <;> rfl
  | _ => rfl

theorem JournalPlace.serves_notified (place : JournalPlace) : place.notified.serves = place.serves := by
  cases place <;> rfl

theorem JournalPlace.inHand_notified (place : JournalPlace) : place.notified.inHand = place.inHand := by
  cases place <;> rfl

theorem JournalItem.inHand_place (item : JournalItem) : item.place.inHand = [] := by cases item <;> rfl

theorem AfterWake.awaits_barrier {next : AfterWake} {item : JournalItem} (h : next.awaits = some item) :
    item.isPlain = false := by
  cases next <;> cases h <;> rfl

theorem ProducerPlace.awaits_barrier {place : ProducerPlace} {item : JournalItem} (h : place.awaits = some item) :
    item.isPlain = false := by
  cases place with
  | waking must next | woke must next | notifying must next => exact AfterWake.awaits_barrier h
  | _ => cases h <;> rfl

theorem JournalItem.serves_barrier {item : JournalItem} (h : item.isPlain = false) : item.place.serves = some item := by
  cases item <;> first | rfl | cases h

theorem JournalItem.serves_place {item : JournalItem} (h : item.isPlain = true) : item.place.serves = none := by
  cases item <;> first | rfl | cases h

namespace JournalSync

variable {s s' : JournalSync} {sleeping : Bool} {side : JournalSide}

/-- What is queued and not handled yet. -/
def backlog (s : JournalSync) : List JournalItem := s.journal.inHand ++ s.ring

/-- A `Disconnect` has been reported. -/
def reported (s : JournalSync) : JournalItem → Bool
  | .disconnect signal => (s.signals signal).done
  | _ => false

/-- How far the call under way has got. -/
inductive Progress (s : JournalSync) : Prop where
  | free (hawaits : s.producer.awaits = none) (hplain : ∀ item ∈ s.backlog, item.isPlain = true)
      (hserves : s.journal.serves = none)
  | queued (item : JournalItem) (before : List JournalItem) (hawaits : s.producer.awaits = some item)
      (hbacklog : s.backlog = before ++ [item]) (hplain : ∀ item ∈ before, item.isPlain = true)
      (hserves : s.journal.serves = none) (hopen : s.reported item = false)
  | served (item : JournalItem) (hawaits : s.producer.awaits = some item) (hempty : s.backlog = [])
      (hserves : s.journal.serves = some item ∧ s.reported item = false ∨
        s.journal.serves = none ∧ s.reported item = true)

structure Ordered (s : JournalSync) : Prop where
  fifo : s.pushed = s.taken ++ s.backlog
  progress : s.Progress
  known : ∀ signal, s.producer.awaits = some (.disconnect signal) → signal < s.nextSignal
  fresh : ∀ signal, s.nextSignal ≤ signal → (s.signals signal).done = false
  answered : ∀ signal, s.producer = .leaving signal → (s.signals signal).done = true
  ended : s.producer = .ended → s.journal = .returned

theorem Progress.same (h : s.Progress) (hawaits : s'.producer.awaits = s.producer.awaits)
    (hbacklog : s'.backlog = s.backlog) (hserves : s'.journal.serves = s.journal.serves)
    (hdone : ∀ signal, (s'.signals signal).done = (s.signals signal).done) : s'.Progress := by
  have hreported : ∀ item, s'.reported item = s.reported item := by
    intro item
    cases item with
    | disconnect signal => exact hdone signal
    | _ => rfl
  cases h with
  | free ha hp hs => exact .free (hawaits.trans ha) (hbacklog ▸ hp) (hserves.trans hs)
  | queued item before ha hb hp hs ho =>
    exact .queued item before (hawaits.trans ha) (hbacklog.trans hb) hp (hserves.trans hs) ((hreported item).trans ho)
  | served item ha he hs =>
    refine .served item (hawaits.trans ha) (hbacklog.trans he) ?_
    rw [hserves, hreported]
    exact hs

/-- A step that neither queues nor handles anything, nor reports, nor returns. -/
theorem Ordered.same (h : s.Ordered) (hpushed : s'.pushed = s.pushed) (htaken : s'.taken = s.taken)
    (hawaits : s'.producer.awaits = s.producer.awaits) (hbacklog : s'.backlog = s.backlog)
    (hserves : s'.journal.serves = s.journal.serves) (hnext : s'.nextSignal = s.nextSignal)
    (hdone : ∀ signal, (s'.signals signal).done = (s.signals signal).done)
    (hanswered : ∀ signal, s'.producer = .leaving signal → (s.signals signal).done = true)
    (hended : s'.producer = .ended → s'.journal = .returned) : s'.Ordered where
  fifo := by rw [hpushed, htaken, hbacklog]; exact h.fifo
  progress := h.progress.same hawaits hbacklog hserves hdone
  known := by rw [hawaits, hnext]; exact h.known
  fresh := by simp only [hdone, hnext]; exact h.fresh
  answered := by simp only [hdone]; exact hanswered
  ended := hended

theorem done_setSignal {moved : ℕ} {value : CloseSignal} (hdone : value.done = (s.signals moved).done) (signal : ℕ) :
    ((s.setSignal moved value).signals signal).done = (s.signals signal).done := by
  simp only [setSignal, Function.update_apply]
  split_ifs with heq
  · rw [hdone, heq]
  · rfl

theorem done_unlockSignal (moved signal : ℕ) :
    ((s.unlockSignal moved).signals signal).done = (s.signals signal).done := by
  simp only [unlockSignal, setSignal, Function.update_apply]
  split_ifs with heq
  · rw [heq]
  · rfl

theorem Ordered.queue (h : s.Ordered) (hidle : s.producer = .idle) {item : JournalItem} {place : ProducerPlace}
    (hplain : item.isPlain = true) (hawaits : place.awaits = none) (hplace : ∀ signal, place ≠ .leaving signal)
    (hended : place ≠ .ended) : (s.queue item place).Ordered := by
  have hbacklog : (s.queue item place).backlog = s.backlog ++ [item] := (List.append_assoc ..).symm
  refine ⟨?_, ?_, fun signal hsignal => ?_, h.fresh, fun signal heq => absurd heq (hplace signal), fun heq => absurd heq hended⟩
  · rw [hbacklog, ← List.append_assoc]
    exact congrArg (· ++ [item]) h.fifo
  · cases h.progress with
    | free ha hp hs =>
      refine .free hawaits (fun x hx => ?_) hs
      rw [hbacklog, List.mem_append, List.mem_singleton] at hx
      rcases hx with hx | rfl
      · exact hp x hx
      · exact hplain
    | queued item before ha hb hp hs ho => rw [hidle] at ha; cases ha
    | served item ha he hs => rw [hidle] at ha; cases ha
  · change place.awaits = _ at hsignal
    rw [hawaits] at hsignal
    cases hsignal

/-- A barrier goes to the end of a queue with no other in it. -/
theorem Ordered.queueBarrier (h : s.Ordered) (hidle : s.producer = .idle) {item : JournalItem} {next : AfterWake}
    (hawaits : next.awaits = some item) (hopen : s.reported item = false) {nextSignal : ℕ}
    (hknown : ∀ signal, item = .disconnect signal → signal < nextSignal) (hnext : s.nextSignal ≤ nextSignal) :
    ({ s.queue item (.waking true next) with nextSignal } : JournalSync).Ordered := by
  have hbacklog : (s.queue item (.waking true next)).backlog = s.backlog ++ [item] := (List.append_assoc ..).symm
  refine ⟨?_, ?_, fun signal hsignal => ?_, fun signal hle => h.fresh signal (hnext.trans hle), (by simp [JournalSync.queue]),
    (by simp [JournalSync.queue])⟩
  · change s.pushed ++ [item] = s.taken ++ (s.queue item (.waking true next)).backlog
    rw [hbacklog, ← List.append_assoc]
    exact congrArg (· ++ [item]) h.fifo
  · cases h.progress with
    | free ha hp hs => exact .queued item s.backlog hawaits hbacklog hp hs hopen
    | queued item before ha hb hp hs ho => rw [hidle] at ha; cases ha
    | served item ha he hs => rw [hidle] at ha; cases ha
  · change next.awaits = _ at hsignal
    rw [hawaits] at hsignal
    exact hknown signal (Option.some.inj hsignal)

theorem Ordered.call (h : s.Ordered) (hidle : s.producer = .idle) (call : JournalCall) : (s.call call).Ordered := by
  cases call with
  | push frame room =>
    simp only [JournalSync.call]
    split_ifs
    · exact h.queue hidle rfl rfl (by simp) (by simp)
    · exact h
  | connect marker => exact h.queue hidle rfl rfl (by simp) (by simp)
  | disconnect =>
    have hopen : s.reported (.disconnect s.nextSignal) = false := h.fresh s.nextSignal le_rfl
    refine h.queueBarrier hidle rfl hopen (fun signal heq => ?_) (Nat.le_succ _)
    cases heq
    exact Nat.lt_succ_self _
  | destroy => exact h.queueBarrier hidle rfl rfl (fun signal heq => by cases heq) le_rfl

/-- A `Disconnect` that has its answer finds nothing left to handle. -/
theorem Ordered.drained (h : s.Ordered) {signal : ℕ} (hplace : s.producer = .leaving signal) :
    s.backlog = [] ∧ s.journal.serves = none := by
  have hdone : s.reported (.disconnect signal) = true := h.answered signal hplace
  have hawaits : s.producer.awaits = some (.disconnect signal) := by rw [hplace]; rfl
  cases h.progress with
  | free ha hp hs => rw [hawaits] at ha; cases ha
  | queued item before ha hb hp hs ho =>
    rw [hawaits] at ha
    cases ha
    rw [hdone] at ho
    cases ho
  | served item ha he hs =>
    rw [hawaits] at ha
    cases ha
    rcases hs with ⟨-, ho⟩ | ⟨hs, -⟩
    · rw [hdone] at ho
      cases ho
    · exact ⟨he, hs⟩

/-- The destructor returns once the thread has handled its stop, and nothing comes after it. -/
theorem Ordered.stopped (h : s.Ordered) (hended : s.producer = .ended) : s.backlog = [] := by
  have hserves : s.journal.serves = some .stop := by rw [h.ended hended]; rfl
  cases h.progress with
  | free ha hp hs => rw [hserves] at hs; cases hs
  | queued item before ha hb hp hs ho => rw [hserves] at hs; cases hs
  | served item ha he hs => exact he

theorem Ordered.advanceProducer (h : s.Ordered) (hstep : s.advanceProducer sleeping = some s') : s'.Ordered := by
  cases hplace : s.producer <;> simp only [JournalSync.advanceProducer, hplace] at hstep
  case idle | asleep | ended => cases hstep
  case hinting =>
    cases hstep
    cases sleeping
    · exact h.same rfl rfl (by rw [hplace]; rfl) rfl rfl rfl (fun _ => rfl) (by simp) (by simp)
    · exact h.same rfl rfl (by rw [hplace]; rfl) rfl rfl rfl (fun _ => rfl) (by simp) (by simp)
  case waking must next =>
    obtain ⟨t, hlock, rfl⟩ := Option.map_eq_some_iff.1 hstep
    obtain ⟨-, rfl⟩ := lockWake_eq_some hlock
    exact h.same rfl rfl (by rw [hplace]; rfl) rfl rfl rfl (fun _ => rfl) (by simp) (by simp)
  case woke must next =>
    cases hstep
    exact h.same rfl rfl (by rw [hplace]; rfl) rfl rfl rfl (fun _ => rfl) (by simp) (by simp)
  case notifying must next =>
    cases hstep
    refine h.same rfl rfl ?_ ?_ s.journal.serves_notified rfl (fun _ => rfl) ?_ ?_
    · rw [hplace]
      exact ProducerPlace.awaits_place next
    · simp only [backlog, JournalPlace.inHand_notified]
    · cases next <;> simp [AfterWake.place]
    · cases next <;> simp [AfterWake.place]
  case entering signal | awake signal =>
    obtain ⟨t, hlock, rfl⟩ := Option.map_eq_some_iff.1 hstep
    obtain ⟨-, rfl⟩ := lockSignal_eq_some hlock
    exact h.same rfl rfl (by rw [hplace]; rfl) rfl rfl rfl (done_setSignal rfl) (by simp) (by simp)
  case looking signal =>
    cases hstep
    cases hdone : (s.signals signal).done
    · exact h.same rfl rfl (by rw [hplace]; rfl) rfl rfl rfl (fun _ => rfl) (by simp) (by simp)
    · refine h.same rfl rfl (by rw [hplace]; rfl) rfl rfl rfl (fun _ => rfl) (fun other hother => ?_) (by simp)
      cases hother
      exact hdone
  case committed signal =>
    cases hstep
    exact h.same rfl rfl (by rw [hplace]; rfl) rfl rfl rfl (done_setSignal rfl) (by simp) (by simp)
  case leaving signal =>
    cases hstep
    obtain ⟨hempty, hserves⟩ := h.drained hplace
    have hbacklog : ({ s.unlockSignal signal with producer := .idle } : JournalSync).backlog = s.backlog := rfl
    refine ⟨h.fifo, .free rfl ?_ hserves, by simp [ProducerPlace.awaits], fun other hle => ?_, by simp, by simp⟩
    · rw [hbacklog, hempty]
      simp
    · exact (done_unlockSignal signal other).trans (h.fresh other hle)
  case joining =>
    split_ifs at hstep with hreturned
    cases hstep
    exact h.same rfl rfl (by rw [hplace]; rfl) rfl rfl rfl (fun _ => rfl) (by simp) (fun _ => hreturned)

/-- The journal thread handles the event in its hand. -/
theorem Ordered.handle (h : s.Ordered) {item : JournalItem} (hplace : s.journal = .handling item) :
    ({ s with taken := s.taken ++ [item], journal := item.place } : JournalSync).Ordered := by
  have hbefore : s.backlog = item :: s.ring := by rw [backlog, hplace]; rfl
  have hafter : ({ s with taken := s.taken ++ [item], journal := item.place } : JournalSync).backlog = s.ring := by
    simp only [backlog, JournalItem.inHand_place, List.nil_append]
  refine ⟨?_, ?_, h.known, h.fresh, h.answered, fun hended => ?_⟩
  · rw [hafter]
    change s.pushed = s.taken ++ [item] ++ s.ring
    rw [h.fifo, hbefore, List.append_assoc]
    rfl
  · cases h.progress with
    | free ha hp hs =>
      have hitem : item.isPlain = true := hp item (by rw [hbefore]; exact List.mem_cons_self)
      exact .free ha (fun x hx => hp x (by rw [hbefore]; exact List.mem_cons_of_mem _ (hafter ▸ hx)))
        (JournalItem.serves_place hitem)
    | queued last before ha hb hp hs ho =>
      rw [hbefore] at hb
      cases before with
      | nil =>
        -- the barrier itself
        obtain ⟨rfl, hring⟩ := List.cons.inj hb
        have hbarrier := JournalItem.serves_barrier (ProducerPlace.awaits_barrier ha)
        exact .served item ha (hafter.trans hring) (.inl ⟨hbarrier, ho⟩)
      | cons first before =>
        obtain ⟨rfl, hring⟩ := List.cons.inj hb
        exact .queued last before ha (hafter.trans hring) (fun x hx => hp x (List.mem_cons_of_mem _ hx))
          (JournalItem.serves_place (hp item List.mem_cons_self)) ho
    | served last ha he hs =>
      rw [hbefore] at he
      cases he
  · rw [h.ended hended] at hplace
    cases hplace

/-- The journal thread reports a `Disconnect`: the one awaited, with nothing left behind it. -/
theorem Ordered.report (h : s.Ordered) {signal : ℕ} (hplace : s.journal = .setting signal) :
    ({ s.setSignal signal { s.signals signal with done := true } with journal := .flagged signal } :
      JournalSync).Ordered := by
  have hserves : s.journal.serves = some (.disconnect signal) := by rw [hplace]; rfl
  have hbacklog : ({ s.setSignal signal { s.signals signal with done := true } with journal := .flagged signal } :
      JournalSync).backlog = s.backlog := by rw [backlog, backlog, hplace]; rfl
  have hdone : ((s.setSignal signal { s.signals signal with done := true }).signals signal).done = true := by
    simp [setSignal]
  have hother : ∀ other, other ≠ signal →
      (s.setSignal signal { s.signals signal with done := true }).signals other = s.signals other := by
    intro other hne
    simp [setSignal, hne]
  cases h.progress with
  | free ha hp hs => rw [hserves] at hs; cases hs
  | queued item before ha hb hp hs ho => rw [hserves] at hs; cases hs
  | served item ha he hs =>
    have hitem : item = .disconnect signal := by
      rcases hs with ⟨hs, -⟩ | ⟨hs, -⟩
      · rw [hserves] at hs
        exact (Option.some.inj hs).symm
      · rw [hserves] at hs
        cases hs
    subst hitem
    refine ⟨?_, .served _ ha (hbacklog.trans he) (.inr ⟨rfl, hdone⟩), h.known, fun other hle => ?_, fun other hleaving => ?_,
      fun hended => ?_⟩
    · rw [hbacklog]
      exact h.fifo
    · have hne : other ≠ signal := fun heq => absurd (h.known signal ha) (Nat.not_lt.2 (heq ▸ hle))
      rw [show ({ s.setSignal signal { s.signals signal with done := true } with journal := .flagged signal } :
        JournalSync).signals other = s.signals other from hother other hne]
      exact h.fresh other hle
    · by_cases heq : other = signal
      · rw [heq]
        exact hdone
      · rw [show ({ s.setSignal signal { s.signals signal with done := true } with journal := .flagged signal } :
          JournalSync).signals other = s.signals other from hother other heq]
        exact h.answered other hleaving
    · rw [h.ended hended] at hplace
      cases hplace

theorem Ordered.advanceJournal (h : s.Ordered) (hstep : s.advanceJournal = some s') : s'.Ordered := by
  have hended : s.journal ≠ .returned → s.producer = .ended → s'.journal = .returned :=
    fun hne heq => absurd (h.ended heq) hne
  cases hplace : s.journal <;> rw [hplace] at hended <;> simp only [JournalSync.advanceJournal, hplace] at hstep
  case asleep | returned => cases hstep
  case handling item =>
    cases hstep
    exact h.handle hplace
  case setting signal =>
    cases hstep
    exact h.report hplace
  case popping | looking =>
    split at hstep
    · cases hstep
      exact h.same rfl rfl rfl (by rw [backlog, backlog, hplace]; rfl) (by rw [hplace]; rfl) rfl (fun _ => rfl) h.answered
        (hended (by simp))
    · next item ring hring =>
      cases hstep
      exact h.same rfl rfl rfl (by rw [backlog, backlog, hplace, hring]; rfl) (by rw [hplace]; rfl) rfl (fun _ => rfl)
        h.answered (hended (by simp))
  case locking | awake =>
    obtain ⟨t, hlock, rfl⟩ := Option.map_eq_some_iff.1 hstep
    obtain ⟨-, rfl⟩ := lockWake_eq_some hlock
    exact h.same rfl rfl rfl (by rw [backlog, backlog, hplace]; rfl) (by rw [hplace]; rfl) rfl (fun _ => rfl) h.answered
      (hended (by simp))
  case committed | leaving item =>
    cases hstep
    exact h.same rfl rfl rfl (by rw [backlog, backlog, hplace]; rfl) (by rw [hplace]; rfl) rfl (fun _ => rfl) h.answered
      (hended (by simp))
  case completing signal =>
    obtain ⟨t, hlock, rfl⟩ := Option.map_eq_some_iff.1 hstep
    obtain ⟨-, rfl⟩ := lockSignal_eq_some hlock
    exact h.same rfl rfl rfl (by rw [backlog, backlog, hplace]; rfl) (by rw [hplace]; rfl) rfl (done_setSignal rfl)
      h.answered (hended (by simp))
  case flagged signal =>
    cases hstep
    exact h.same rfl rfl rfl (by rw [backlog, backlog, hplace]; rfl) (by rw [hplace]; rfl) rfl (done_setSignal rfl)
      h.answered (hended (by simp))
  case notifying signal =>
    cases hstep
    refine h.same rfl rfl (s.producer.awaits_notified signal) (by rw [backlog, backlog, hplace]; rfl) (by rw [hplace]; rfl) rfl
      (fun _ => rfl) (fun other hleaving => ?_) (fun heq => ?_)
    · refine h.answered other ?_
      cases hp : s.producer <;> simp_all [ProducerPlace.notified]
      split_ifs at hleaving
    · refine hended (by simp) ?_
      cases hp : s.producer <;> simp_all [ProducerPlace.notified]
      split_ifs at heq

theorem Ordered.wake (h : s.Ordered) (hstep : s.wake side = some s') : s'.Ordered := by
  cases side with
  | producer =>
    simp only [JournalSync.wake] at hstep
    split at hstep
    · next signal hplace =>
      cases hstep
      exact h.same rfl rfl (by rw [hplace]; rfl) rfl rfl rfl (fun _ => rfl) (by simp) (by simp)
    · cases hstep
  | journal =>
    simp only [JournalSync.wake] at hstep
    split_ifs at hstep with hplace
    cases hstep
    refine h.same rfl rfl rfl (by rw [backlog, backlog, hplace]; rfl) (by rw [hplace]; rfl) rfl (fun _ => rfl) h.answered
      (fun heq => ?_)
    have hreturned := h.ended heq
    rw [hplace] at hreturned
    cases hreturned

/-- What holds in every state the two threads reach. -/
structure Synced (s : JournalSync) : Prop where
  wake : Sound s.wakeView
  close : ∀ signal, Sound (s.closeView signal)
  ordered : s.Ordered

theorem Synced.step (h : s.Synced) {action : SyncAction} (hstep : s.step action = some s') : s'.Synced := by
  cases action with
  | call call =>
    simp only [JournalSync.step] at hstep
    split_ifs at hstep with hidle
    cases hstep
    exact ⟨call_wake h.wake hidle call, call_close h.close hidle call, h.ordered.call hidle call⟩
  | producer sleeping =>
    exact ⟨advanceProducer_wake h.wake hstep, advanceProducer_close h.close hstep, h.ordered.advanceProducer hstep⟩
  | journal => exact ⟨advanceJournal_wake h.wake hstep, advanceJournal_close h.close hstep, h.ordered.advanceJournal hstep⟩
  | wake side => exact ⟨wake_wake h.wake hstep, wake_close h.close hstep, h.ordered.wake hstep⟩

theorem run_synced {actions : List SyncAction} (hrun : ({} : JournalSync).run actions = some s) : s.Synced := by
  refine Machine.run_invariant (I := fun _ s => s.Synced) ⟨?_, fun signal => ?_, ?_⟩
    (fun _ _ _ _ _ h hstep => h.step hstep) hrun
  · refine ⟨fun side => ?_, by simp [wakeView], by simp [wakeView]⟩
    cases side <;> simp [wakeView, sides, ProducerPlace.wakePhase, JournalPlace.wakePhase, Phase.holds]
  · refine ⟨fun side => ?_, by simp [closeView], by simp [closeView]⟩
    cases side <;> simp [closeView, sides, ProducerPlace.closePhase, JournalPlace.closePhase, Phase.holds]
  · exact ⟨rfl, .free rfl (by simp [backlog, JournalPlace.inHand]) rfl, by simp [ProducerPlace.awaits], fun _ _ => rfl,
      by simp, by simp⟩

section Progress

/-- Somebody can move on. -/
def CanMove (s : JournalSync) : Prop := (∃ s', s.advanceProducer false = some s') ∨ ∃ s', s.advanceJournal = some s'

/-- The wakeup's mutex is free, or whoever holds it can move on. -/
theorem Synced.wakeMutex (h : s.Synced) : s.wakeMutex = none ∨ s.CanMove := by
  cases hmutex : s.wakeMutex with
  | none => exact .inl rfl
  | some owner =>
    right
    have hholds := (h.wake.owner owner).2 hmutex
    cases owner with
    | producer =>
      left
      change s.producer.wakePhase.holds = true at hholds
      cases hplace : s.producer with
      | woke must next => simp [JournalSync.advanceProducer, hplace]
      | waking must next => rw [hplace] at hholds; cases must <;> cases hholds
      | notifying must next => rw [hplace] at hholds; cases must <;> cases hholds
      | _ => rw [hplace] at hholds; cases hholds
    | journal =>
      right
      change s.journal.wakePhase.holds = true at hholds
      cases hplace : s.journal with
      | looking => cases hring : s.ring <;> simp [JournalSync.advanceJournal, hplace, hring]
      | committed => simp [JournalSync.advanceJournal, hplace]
      | leaving item => simp [JournalSync.advanceJournal, hplace]
      | _ => rw [hplace] at hholds; cases hholds

theorem Synced.signalMutex (h : s.Synced) (signal : ℕ) : (s.signals signal).mutex = none ∨ s.CanMove := by
  cases hmutex : (s.signals signal).mutex with
  | none => exact .inl rfl
  | some owner =>
    right
    have hholds := ((h.close signal).owner owner).2 hmutex
    cases owner with
    | producer =>
      left
      change (s.producer.closePhase signal).holds = true at hholds
      cases hplace : s.producer with
      | looking waited => simp [JournalSync.advanceProducer, hplace]
      | committed waited => simp [JournalSync.advanceProducer, hplace]
      | leaving waited => simp [JournalSync.advanceProducer, hplace]
      | asleep waited | awake waited =>
        rw [hplace, ProducerPlace.closePhase] at hholds
        split_ifs at hholds <;> cases hholds
      | _ => rw [hplace] at hholds; cases hholds
    | journal =>
      right
      change (s.journal.closePhase signal).holds = true at hholds
      cases hplace : s.journal with
      | setting completed => simp [JournalSync.advanceJournal, hplace]
      | flagged completed => simp [JournalSync.advanceJournal, hplace]
      | notifying completed => simp [JournalSync.advanceJournal, hplace]
      | _ => rw [hplace] at hholds; cases hholds

/-- A journal thread that is awake can move on, or waits for a mutex whose holder can. -/
theorem Synced.journal_moves (h : s.Synced) (hasleep : s.journal ≠ .asleep) (hreturned : s.journal ≠ .returned) :
    s.CanMove := by
  cases hplace : s.journal with
  | asleep => exact absurd hplace hasleep
  | returned => exact absurd hplace hreturned
  | locking | awake =>
    rcases h.wakeMutex with hfree | hmove
    · exact .inr (by simp [JournalSync.advanceJournal, hplace, lockWake, hfree])
    · exact hmove
  | completing signal =>
    rcases h.signalMutex signal with hfree | hmove
    · exact .inr (by simp [JournalSync.advanceJournal, hplace, lockSignal, hfree])
    · exact hmove
  | popping | looking => exact .inr (by cases hring : s.ring <;> simp [JournalSync.advanceJournal, hplace, hring])
  | _ => exact .inr (by simp [JournalSync.advanceJournal, hplace])

/-- Nobody sleeps through a barrier that stands in the queue and has been notified. -/
theorem Synced.barrier_wakes (h : s.Synced) {item : JournalItem} (hitem : item ∈ s.ring) (hcontrol : item.isControl = true)
    (hproducer : s.producer.wakePhase = .away) : s.journal ≠ .asleep := by
  intro hasleep
  have hready : s.wakeView.ready = true := List.any_eq_true.2 ⟨item, hitem, hcontrol⟩
  refine h.wake.nobody_asleep hready (fun side => ?_) .journal ?_
  · cases side with
    | producer => change s.producer.wakePhase.owes = false; rw [hproducer]; rfl
    | journal => change s.journal.wakePhase.owes = false; rw [hasleep]; rfl
  · change s.journal.wakePhase = .asleep
    rw [hasleep]
    rfl

/-- As long as what a call waits for has not been reported, the journal thread can move on. -/
theorem Synced.waiting_moves (h : s.Synced) {item : JournalItem} (hawaits : s.producer.awaits = some item)
    (hproducer : s.producer.wakePhase = .away) (hopen : s.reported item = false) :
    s.CanMove ∨ s.journal = .returned := by
  have hcontrol : item.isControl = true := by
    have hbarrier := ProducerPlace.awaits_barrier hawaits
    cases item <;> first | rfl | cases hbarrier
  by_cases hreturned : s.journal = .returned
  · exact .inr hreturned
  left
  refine h.journal_moves (fun hasleep => ?_) hreturned
  have hnone : s.journal.serves = none ∧ s.journal.inHand = [] := by rw [hasleep]; exact ⟨rfl, rfl⟩
  cases h.ordered.progress with
  | free ha hp hs => rw [hawaits] at ha; cases ha
  | queued last before ha hb hp hs ho =>
    rw [hawaits] at ha
    cases ha
    rw [backlog, hnone.2, List.nil_append] at hb
    exact h.barrier_wakes (by rw [hb]; simp) hcontrol hproducer hasleep
  | served last ha he hs =>
    rw [hawaits] at ha
    cases ha
    rcases hs with ⟨hs, -⟩ | ⟨-, hr⟩
    · rw [hnone.1] at hs
      cases hs
    · rw [hopen] at hr
      cases hr

/-- No call is ever stuck. -/
theorem Synced.can_move (h : s.Synced) (hidle : s.producer ≠ .idle) (hended : s.producer ≠ .ended) : s.CanMove := by
  cases hplace : s.producer with
  | idle => exact absurd hplace hidle
  | ended => exact absurd hplace hended
  | waking must next =>
    rcases h.wakeMutex with hfree | hmove
    · exact .inl (by simp [JournalSync.advanceProducer, hplace, lockWake, hfree])
    · exact hmove
  | entering signal | awake signal =>
    rcases h.signalMutex signal with hfree | hmove
    · exact .inl (by simp [JournalSync.advanceProducer, hplace, lockSignal, hfree])
    · exact hmove
  | joining =>
    by_cases hreturned : s.journal = .returned
    · exact .inl (by simp [JournalSync.advanceProducer, hplace, hreturned])
    · have hawaits : s.producer.awaits = some .stop := by rw [hplace]; rfl
      exact (h.waiting_moves hawaits (by rw [hplace]; rfl) rfl).resolve_right hreturned
  | asleep signal =>
    have hphase : (s.closeView signal).phase .producer = .asleep := by
      simp [closeView, sides, hplace, ProducerPlace.closePhase]
    cases hdone : (s.signals signal).done with
    | true =>
      -- reported while it slept: the journal thread is about to notify
      obtain ⟨side, hside⟩ := (h.close signal).asleep hdone .producer hphase
      cases side with
      | producer => rw [hphase] at hside; cases hside
      | journal =>
        change (s.journal.closePhase signal).owes = true at hside
        refine h.journal_moves (fun heq => ?_) (fun heq => ?_)
        · rw [heq] at hside
          cases hside
        · rw [heq] at hside
          cases hside
    | false =>
      have hawaits : s.producer.awaits = some (.disconnect signal) := by rw [hplace]; rfl
      refine (h.waiting_moves hawaits (by rw [hplace]; rfl) hdone).resolve_right fun hreturned => ?_
      -- the thread ends for a `stop` only, and that is not what is waited for
      have hserves : s.journal.serves = some .stop := by rw [hreturned]; rfl
      cases h.ordered.progress with
      | free ha hp hs => rw [hawaits] at ha; cases ha
      | queued last before ha hb hp hs ho => rw [hserves] at hs; cases hs
      | served last ha he hs =>
        rw [hawaits] at ha
        cases ha
        rcases hs with ⟨hs, -⟩ | ⟨hs, -⟩
        · rw [hserves] at hs
          cases hs
        · rw [hserves] at hs
          cases hs
  | _ => exact .inl (by simp [JournalSync.advanceProducer, hplace])

end Progress

section Work

/-- How far a thread is from its next rest. A notification puts the other side back by three,
and an event costs what the journal thread does about it up to the next one. -/
def producerWork : ProducerPlace → ℕ
  | .idle | .asleep _ | .ended => 0
  | .committed _ | .leaving _ | .joining => 1
  | .looking _ => 2
  | .entering _ | .awake _ => 3
  | .notifying .. => 7
  | .woke .. => 8
  | .waking .. => 9
  | .hinting => 10

def journalWork : JournalPlace → ℕ
  | .asleep | .returned => 0
  | .committed => 1
  | .looking => 2
  | .locking | .awake => 3
  | .popping => 4
  | .notifying _ => 8
  | .flagged _ => 9
  | .setting _ => 10
  | .completing _ => 11
  | .handling _ => 12
  | .leaving _ => 13

def work (s : JournalSync) : ℕ := producerWork s.producer + journalWork s.journal + 12 * s.ring.length

theorem journalWork_notified (place : JournalPlace) : journalWork place.notified ≤ journalWork place + 3 := by
  cases place <;> simp [JournalPlace.notified, journalWork]

theorem producerWork_notified (place : ProducerPlace) (signal : ℕ) :
    producerWork (place.notified signal) ≤ producerWork place + 3 := by
  cases place with
  | asleep waited =>
    simp only [ProducerPlace.notified]
    split_ifs <;> simp [producerWork]
  | _ => simp [ProducerPlace.notified]

theorem advanceProducer_work (hstep : s.advanceProducer sleeping = some s') : s'.work < s.work := by
  cases hplace : s.producer <;> simp only [JournalSync.advanceProducer, hplace] at hstep
  case idle | asleep | ended => cases hstep
  case hinting =>
    cases hstep
    cases sleeping <;> simp [work, hplace, producerWork]
  case waking must next =>
    obtain ⟨t, hlock, rfl⟩ := Option.map_eq_some_iff.1 hstep
    obtain ⟨-, rfl⟩ := lockWake_eq_some hlock
    simp [work, hplace, producerWork]
  case notifying must next =>
    cases hstep
    have hnext : producerWork next.place ≤ 3 := by cases next <;> simp [AfterWake.place, producerWork]
    have hnotified := journalWork_notified s.journal
    have hself : producerWork s.producer = 7 := by rw [hplace]; rfl
    simp only [work, hself]
    omega
  case entering signal | awake signal =>
    obtain ⟨t, hlock, rfl⟩ := Option.map_eq_some_iff.1 hstep
    obtain ⟨-, rfl⟩ := lockSignal_eq_some hlock
    simp [work, setSignal, hplace, producerWork]
  case looking signal =>
    cases hstep
    cases hdone : (s.signals signal).done <;> simp [work, hplace, producerWork]
  case joining =>
    split_ifs at hstep
    cases hstep
    simp [work, hplace, producerWork]
  case woke must next =>
    cases hstep
    simp [work, hplace, producerWork]
  case committed signal | leaving signal =>
    cases hstep
    simp [work, unlockSignal, setSignal, hplace, producerWork]

theorem advanceJournal_work (hstep : s.advanceJournal = some s') : s'.work < s.work := by
  cases hplace : s.journal <;> simp only [JournalSync.advanceJournal, hplace] at hstep
  case asleep | returned => cases hstep
  case popping | looking =>
    split at hstep
    · cases hstep
      simp [work, hplace, journalWork]
    · next item ring hring =>
      cases hstep
      simp only [work, hplace, hring, journalWork, List.length_cons]
      omega
  case locking | awake =>
    obtain ⟨t, hlock, rfl⟩ := Option.map_eq_some_iff.1 hstep
    obtain ⟨-, rfl⟩ := lockWake_eq_some hlock
    simp [work, hplace, journalWork]
  case completing signal =>
    obtain ⟨t, hlock, rfl⟩ := Option.map_eq_some_iff.1 hstep
    obtain ⟨-, rfl⟩ := lockSignal_eq_some hlock
    simp [work, setSignal, hplace, journalWork]
  case handling item =>
    cases hstep
    have hitem : journalWork item.place ≤ 11 := by cases item <;> simp [JournalItem.place, journalWork]
    have hself : journalWork s.journal = 12 := by rw [hplace]; rfl
    simp only [work, hself]
    omega
  case notifying signal =>
    cases hstep
    have hnotified := producerWork_notified s.producer signal
    simp only [work, hplace, journalWork]
    omega
  case committed | leaving item =>
    cases hstep
    simp [work, hplace, journalWork]
  case setting signal | flagged signal =>
    cases hstep
    simp [work, unlockSignal, setSignal, hplace, journalWork]

theorem wake_work (hstep : s.wake side = some s') : s'.work ≤ s.work + 3 := by
  cases side with
  | producer =>
    simp only [JournalSync.wake] at hstep
    split at hstep
    · next signal hplace =>
      cases hstep
      simp only [work, hplace, producerWork]
      omega
    · cases hstep
  | journal =>
    simp only [JournalSync.wake] at hstep
    split_ifs at hstep with hplace
    cases hstep
    simp only [work, hplace, journalWork]
    omega

end Work

end JournalSync

def SyncAction.isCall : SyncAction → Bool
  | .call _ => true
  | _ => false

def SyncAction.isMove : SyncAction → Bool
  | .producer _ | .journal => true
  | _ => false

def SyncAction.isWake : SyncAction → Bool
  | .wake _ => true
  | _ => false

namespace JournalSync

/-- Every move is paid for by the weight it takes away. -/
theorem run_work {s s' : JournalSync} {actions : List SyncAction} (hrun : s.run actions = some s')
    (hcalls : ∀ action ∈ actions, action.isCall = false) :
    actions.countP (·.isMove) + s'.work ≤ s.work + 3 * actions.countP (·.isWake) := by
  induction actions generalizing s with
  | nil =>
    cases hrun
    simp
  | cons action actions ih =>
    obtain ⟨mid, hstep, hrest⟩ := Option.bind_eq_some_iff.1 hrun
    have hmid := ih hrest fun a ha => hcalls a (List.mem_cons_of_mem _ ha)
    have hcall := hcalls action List.mem_cons_self
    cases action with
    | call call => cases hcall
    | producer sleeping =>
      have hwork := advanceProducer_work hstep
      simp only [List.countP_cons, SyncAction.isMove, SyncAction.isWake] at hmid ⊢
      simp only [if_true, Bool.false_eq_true, if_false]
      omega
    | journal =>
      have hwork := advanceJournal_work hstep
      simp only [List.countP_cons, SyncAction.isMove, SyncAction.isWake] at hmid ⊢
      simp only [if_true, Bool.false_eq_true, if_false]
      omega
    | wake side =>
      have hwork := wake_work hstep
      simp only [List.countP_cons, SyncAction.isMove, SyncAction.isWake] at hmid ⊢
      simp only [if_true, Bool.false_eq_true, if_false]
      omega

end JournalSync

open JournalSync in
/-- Whatever the schedule, events are handled once and in the order they were queued; a call
under way is never stuck without a timeout; the threads make at most so many moves before it
has returned; and a `Disconnect` that is about to return, or a destructor that has, has seen
everything handled. -/
theorem journal_barrier_completes (actions more : List SyncAction) (s s' : JournalSync)
    (hrun : ({} : JournalSync).run actions = some s) (hmore : s.run more = some s')
    (hcalls : ∀ action ∈ more, action.isCall = false) :
    s'.taken <+: s'.pushed ∧
    more.countP (·.isMove) ≤ s.work + 3 * more.countP (·.isWake) ∧
    (s'.advanceProducer false = none → s'.advanceJournal = none → s'.producer = .idle ∨ s'.producer = .ended) ∧
    ((∃ signal, s'.producer = .leaving signal) ∨ s'.producer = .ended → s'.taken = s'.pushed) := by
  have hwhole : ({} : JournalSync).run (actions ++ more) = some s' := by
    rw [JournalSync.run, Machine.run_append]
    exact Option.bind_eq_some_iff.2 ⟨s, hrun, hmore⟩
  have hsynced := run_synced hwhole
  have hfifo := hsynced.ordered.fifo
  refine ⟨hfifo ▸ List.prefix_append _ _, ?_, fun hproducer hjournal => ?_, fun hdone => ?_⟩
  · exact (Nat.le_add_right _ _).trans (run_work hmore hcalls)
  · by_contra hbusy
    rw [not_or] at hbusy
    rcases hsynced.can_move hbusy.1 hbusy.2 with ⟨t, ht⟩ | ⟨t, ht⟩
    · rw [hproducer] at ht
      cases ht
    · rw [hjournal] at ht
      cases ht
  · have hempty : s'.backlog = [] := by
      rcases hdone with ⟨signal, hleaving⟩ | hended
      · exact (hsynced.ordered.drained hleaving).1
      · exact hsynced.ordered.stopped hended
    rw [hfifo, hempty, List.append_nil]

/-- A file gets its marker and a frame while the journal thread is barely awake, and is closed. -/
def shortCapture : List SyncAction :=
  List.replicate 4 .journal ++ .call (.connect ⟨[], 1, 0, .krakenJson⟩) :: List.replicate 3 (.producer false) ++
    [.call (.push ⟨[7], 2, 0, .krakenJson⟩ true), .producer false, .call .disconnect]

def shortBarrier : List SyncAction :=
  List.replicate 6 (.producer false) ++ List.replicate 12 .journal ++ List.replicate 2 (.producer false)

theorem shortCapture_runs : (({} : JournalSync).run shortCapture).isSome = true := by decide

theorem shortBarrier_runs : (((({} : JournalSync).run shortCapture).get shortCapture_runs).run shortBarrier).isSome = true := by
  decide

theorem short_capture_completes : ∃ s s', ({} : JournalSync).run shortCapture = some s ∧ s.run shortBarrier = some s' ∧
    s'.producer = .leaving 0 ∧ s'.taken = s'.pushed ∧ s'.pushed.length = 3 := by
  have hrun := (Option.some_get shortCapture_runs).symm
  have hmore := (Option.some_get shortBarrier_runs).symm
  have hleaving : ((((({} : JournalSync).run shortCapture).get shortCapture_runs).run shortBarrier).get
      shortBarrier_runs).producer = .leaving 0 := by decide
  have hpushed : ((((({} : JournalSync).run shortCapture).get shortCapture_runs).run shortBarrier).get
      shortBarrier_runs).pushed.length = 3 := by decide
  have hdone := (journal_barrier_completes shortCapture shortBarrier _ _ hrun hmore (by decide)).2.2.2 (.inl ⟨0, hleaving⟩)
  exact ⟨_, _, hrun, hmore, hleaving, hdone, hpushed⟩

end CryptoTrader
