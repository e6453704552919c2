import Mathlib.Logic.Function.Basic
import Mathlib.Tactic.SplitIfs

/-! A mutex with a condition variable, seen as the phases its threads go through. A thread
that waits looks under the mutex and gives it back in one step with falling asleep. A thread
that posts does so before it takes the mutex or while it holds it, and notifies after it has
given it back. However the steps interleave, a post still owes its notification as long as
anybody sleeps through it. -/

namespace Monitor

inductive Phase where
  /-- No business with the monitor, or on the way to its mutex with none so far. -/
  | away
  /-- Holds the mutex and is about to look. -/
  | looking
  /-- Has looked in vain, and holds the mutex up to its sleep. -/
  | committed
  | asleep
  /-- Out of its sleep, and on the way to the mutex to look again. -/
  | waking
  /-- Has its answer, and holds the mutex up to its return. -/
  | leaving
  /-- Has posted, and is on the way to the mutex. -/
  | posted
  /-- Holds the mutex to post. -/
  | holding
  /-- Has posted, and holds the mutex. -/
  | posting
  /-- Has posted and given the mutex back, and is about to notify. -/
  | notifying
  deriving DecidableEq, Repr

namespace Phase

def holds : Phase → Bool
  | .looking | .committed | .leaving | .holding | .posting => true
  | _ => false

/-- The thread has posted and has not notified yet. -/
def owes : Phase → Bool
  | .posted | .posting | .notifying => true
  | _ => false

/-- How a thread takes the mutex. -/
inductive Locks : Phase → Phase → Prop where
  | toLook : Locks .away .looking
  | toLookAgain : Locks .waking .looking
  | toPost : Locks .away .holding
  | posted : Locks .posted .posting

/-- How a thread gives the mutex back. -/
inductive Unlocks : Phase → Phase → Prop where
  | asleep : Unlocks .committed .asleep
  | answered : Unlocks .leaving .away
  | idle : Unlocks .holding .away
  | posted : Unlocks .posting .notifying

/-- What a notification does to a thread. -/
def notified : Phase → Phase
  | .asleep => .waking
  | p => p

theorem notified_ne_asleep (p : Phase) : p.notified ≠ .asleep := by cases p <;> simp [notified]

@[simp] theorem holds_notified (p : Phase) : p.notified.holds = p.holds := by cases p <;> rfl

theorem notified_eq_committed {p : Phase} : p.notified = .committed ↔ p = .committed := by
  cases p <;> simp [notified]

end Phase

structure View (ι : Type) where
  /-- What the sleepers wait for. -/
  ready : Bool
  owner : Option ι
  phase : ι → Phase

/-- The mutex excludes, and whoever has missed a post is owed a notification: by a thread
that has yet to take the mutex, as long as the one that missed it holds it. -/
structure Sound {ι : Type} (v : View ι) : Prop where
  owner : ∀ i, (v.phase i).holds = true ↔ v.owner = some i
  asleep : v.ready = true → ∀ i, v.phase i = .asleep → ∃ j, (v.phase j).owes = true
  committed : v.ready = true → ∀ i, v.phase i = .committed → ∃ j, v.phase j = .posted

section Facts

variable {ι : Type} {v : View ι} {i j : ι}

/-- Two threads in phases that hold the mutex are one. -/
theorem Sound.exclusive (h : Sound v) (hi : (v.phase i).holds = true) (hj : (v.phase j).holds = true) : i = j := by
  have hi := (h.owner i).1 hi
  rw [(h.owner j).1 hj] at hi
  exact (Option.some.inj hi).symm

/-- Once every post has been notified, nobody sleeps through it. -/
theorem Sound.nobody_asleep (h : Sound v) (hready : v.ready = true) (hquiet : ∀ j, (v.phase j).owes = false) (i : ι) :
    v.phase i ≠ .asleep := by
  intro hasleep
  obtain ⟨j, hj⟩ := h.asleep hready i hasleep
  rw [hquiet j] at hj
  cases hj

/-- Readiness may be lost at any time. -/
theorem Sound.withdraw (h : Sound v) {ready : Bool} (hready : ready = true → v.ready = true) : Sound { v with ready } :=
  ⟨h.owner, fun htrue => h.asleep (hready htrue), fun htrue => h.committed (hready htrue)⟩

theorem owes_of_posted (h : ∃ k, v.phase k = .posted) : ∃ k, (v.phase k).owes = true := by
  obtain ⟨k, hk⟩ := h
  exact ⟨k, by rw [hk]; rfl⟩

end Facts

variable {ι : Type} [DecidableEq ι]

/-- Thread `i` moves on to phase `p`. -/
def View.move (v : View ι) (i : ι) (p : Phase) : View ι := { v with phase := Function.update v.phase i p }

/-- What can happen to a monitor. Its readiness may be withdrawn at any time, a sleeper may
wake up for no reason, and one that has waited long enough leaves without an answer. -/
inductive Step (v : View ι) : View ι → Prop where
  | withdraw : Step v { v with ready := false }
  | lock (i : ι) (p : Phase) (hlock : (v.phase i).Locks p) (hfree : v.owner = none) :
      Step v { v.move i p with owner := some i }
  | unlock (i : ι) (p : Phase) (hunlock : (v.phase i).Unlocks p) : Step v { v.move i p with owner := none }
  | post (i : ι) (haway : v.phase i = .away) : Step v { v.move i .posted with ready := true }
  | postInside (i : ι) (hholding : v.phase i = .holding) : Step v { v.move i .posting with ready := true }
  | commit (i : ι) (hlooking : v.phase i = .looking) (hready : v.ready = false) : Step v (v.move i .committed)
  | answer (i : ι) (hlooking : v.phase i = .looking) : Step v (v.move i .leaving)
  | wake (i : ι) (hasleep : v.phase i = .asleep) : Step v (v.move i .waking)
  | notify (i : ι) (hnotifying : v.phase i = .notifying) :
      Step v { v with phase := Function.update (fun j => (v.phase j).notified) i .away }

section Moves

variable {v : View ι}

theorem move_self (i : ι) (p : Phase) : (v.move i p).phase i = p := Function.update_self ..

theorem move_of_ne {i j : ι} (p : Phase) (h : j ≠ i) : (v.move i p).phase j = v.phase j :=
  Function.update_of_ne h ..

/-- A move that neither takes nor gives the mutex keeps its owner right. -/
theorem Sound.owner_move (h : Sound v) {i : ι} {p : Phase} (hp : p.holds = (v.phase i).holds) (k : ι) :
    ((v.move i p).phase k).holds = true ↔ v.owner = some k := by
  by_cases hk : k = i
  · subst hk
    rw [move_self, hp]
    exact h.owner k
  · rw [move_of_ne p hk]
    exact h.owner k

/-- Someone who owes a notification still does after the move of a thread that did not, or
does so by the move itself. -/
theorem owes_move {i : ι} {p : Phase} (hp : (v.phase i).owes = true → p.owes = true)
    (howes : ∃ k, (v.phase k).owes = true) : ∃ k, ((v.move i p).phase k).owes = true := by
  obtain ⟨k, hk⟩ := howes
  by_cases hki : k = i
  · subst hki
    exact ⟨k, by rw [move_self]; exact hp hk⟩
  · exact ⟨k, by rw [move_of_ne p hki]; exact hk⟩

theorem posted_move {i : ι} {p : Phase} (hp : v.phase i ≠ .posted) (hposted : ∃ k, v.phase k = .posted) :
    ∃ k, (v.move i p).phase k = .posted := by
  obtain ⟨k, hk⟩ := hposted
  have hki : k ≠ i := fun heq => hp (heq ▸ hk)
  exact ⟨k, by rw [move_of_ne p hki]; exact hk⟩

/-- A thread that is asleep or committed after the move of another was so before. -/
theorem phase_before {i k : ι} {p q : Phase} (hp : p ≠ q) (hk : (v.move i p).phase k = q) :
    k ≠ i ∧ v.phase k = q := by
  by_cases hki : k = i
  · subst hki
    rw [move_self] at hk
    exact absurd hk hp
  · rw [move_of_ne p hki] at hk
    exact ⟨hki, hk⟩

end Moves

namespace Sound

variable {v v' : View ι}

/-- A move of a thread that keeps what it owes, and the rest of the monitor as it was. -/
theorem move (h : Sound v) {i : ι} {p : Phase} (hholds : p.holds = (v.phase i).holds)
    (howes : (v.phase i).owes = true → p.owes = true) (hposted : v.phase i ≠ .posted)
    (hasleep : p ≠ .asleep) (hcommitted : p = .committed → v.ready = false) : Sound (v.move i p) where
  owner := h.owner_move hholds
  asleep := fun hready k hk => owes_move howes (h.asleep hready k (phase_before hasleep hk).2)
  committed := fun hready k hk => by
    have hp : p ≠ .committed := fun heq => by
      rw [show v.ready = true from hready] at hcommitted
      exact Bool.noConfusion (hcommitted heq)
    exact posted_move hposted (h.committed hready k (phase_before hp hk).2)

theorem lock (h : Sound v) {i : ι} {p : Phase} (hlock : (v.phase i).Locks p) (hfree : v.owner = none) :
    Sound { v.move i p with owner := some i } := by
  have hnobody : ∀ k, (v.phase k).holds = false := by
    intro k
    rw [← Bool.not_eq_true, h.owner k, hfree]
    simp
  have hp : p.holds = true ∧ p ≠ .asleep ∧ p ≠ .committed ∧ ((v.phase i).owes = true → p.owes = true) := by
    generalize v.phase i = q at hlock
    cases hlock <;> exact ⟨rfl, by decide, by decide, by decide⟩
  refine ⟨fun k => ?_, fun hready k hk => ?_, fun hready k hk => ?_⟩
  · change ((v.move i p).phase k).holds = true ↔ some i = some k
    by_cases hk : k = i
    · subst hk
      rw [move_self]
      exact iff_of_true hp.1 rfl
    · rw [move_of_ne p hk, hnobody k]
      exact iff_of_false (by simp) fun heq => hk (Option.some.inj heq).symm
  · exact owes_move hp.2.2.2 (h.asleep hready k (phase_before hp.2.1 hk).2)
  · -- nobody is committed: the mutex was free
    have hbefore := (phase_before hp.2.2.1 hk).2
    have hfalse := hnobody k
    rw [hbefore] at hfalse
    cases hfalse

theorem unlock (h : Sound v) {i : ι} {p : Phase} (hunlock : (v.phase i).Unlocks p) :
    Sound { v.move i p with owner := none } := by
  have hp : (v.phase i).holds = true ∧ p.holds = false ∧ v.phase i ≠ .posted ∧
      ((v.phase i).owes = true → p.owes = true) ∧ (p = .asleep → v.phase i = .committed) ∧ p ≠ .committed := by
    generalize v.phase i = q at hunlock
    cases hunlock <;> exact ⟨rfl, rfl, by decide, by decide, by decide, by decide⟩
  have hother : ∀ k, k ≠ i → (v.phase k).holds = false := by
    intro k hk
    rw [← Bool.not_eq_true]
    exact fun hholds => hk (h.exclusive hholds hp.1)
  refine ⟨fun k => ?_, fun hready k hk => ?_, fun hready k hk => ?_⟩
  · change ((v.move i p).phase k).holds = true ↔ none = some k
    by_cases hk : k = i
    · subst hk
      rw [move_self, hp.2.1]
      simp
    · rw [move_of_ne p hk, hother k hk]
      simp
  · by_cases hki : k = i
    · -- the thread that falls asleep had committed
      subst hki
      have hcommitted := hp.2.2.2.2.1 (by rw [← move_self (v := v) k p]; exact hk)
      exact owes_move hp.2.2.2.1 (owes_of_posted (h.committed hready k hcommitted))
    · have hbefore : v.phase k = .asleep := by rw [← move_of_ne p hki]; exact hk
      exact owes_move hp.2.2.2.1 (h.asleep hready k hbefore)
  · exact posted_move hp.2.2.1 (h.committed hready k (phase_before hp.2.2.2.2.2 hk).2)

/-- A post, early or under the mutex, owes its notification from then on. -/
theorem post (h : Sound v) {i : ι} (haway : v.phase i = .away) : Sound { v.move i .posted with ready := true } := by
  have hself : ∃ k, (v.move i .posted).phase k = .posted := ⟨i, move_self i .posted⟩
  refine ⟨h.owner_move (by rw [haway]; rfl), fun _ _ _ => owes_of_posted hself, fun _ _ _ => hself⟩

theorem postInside (h : Sound v) {i : ι} (hholding : v.phase i = .holding) :
    Sound { v.move i .posting with ready := true } := by
  refine ⟨h.owner_move (by rw [hholding]; rfl), fun _ _ _ => ⟨i, ?_⟩, fun _ k hk => ?_⟩
  · change ((v.move i .posting).phase i).owes = true
    rw [move_self]
    rfl
  · -- a committed thread would hold the mutex as well
    obtain ⟨hki, hbefore⟩ := phase_before (by decide) hk
    exact absurd (h.exclusive (by rw [hbefore]; rfl) (by rw [hholding]; rfl)) hki

theorem notify (h : Sound v) {i : ι} (hnotifying : v.phase i = .notifying) :
    Sound { v with phase := Function.update (fun j => (v.phase j).notified) i .away } := by
  have hphase : ∀ k, Function.update (fun j => (v.phase j).notified) i Phase.away k =
      if k = i then .away else (v.phase k).notified := fun k => by rw [Function.update_apply]
  refine ⟨fun k => ?_, fun _ k hk => ?_, fun hready k hk => ?_⟩
  · change (Function.update (fun j => (v.phase j).notified) i Phase.away k).holds = true ↔ _
    rw [hphase, ← h.owner k]
    split_ifs with hki
    · rw [hki, hnotifying]
      rfl
    · rw [Phase.holds_notified]
  · change Function.update (fun j => (v.phase j).notified) i Phase.away k = _ at hk
    rw [hphase] at hk
    split_ifs at hk
    exact absurd hk (Phase.notified_ne_asleep _)
  · change Function.update (fun j => (v.phase j).notified) i Phase.away k = _ at hk
    rw [hphase] at hk
    split_ifs at hk with hki
    obtain ⟨j, hj⟩ := h.committed hready k (Phase.notified_eq_committed.1 hk)
    have hji : j ≠ i := fun heq => by rw [heq, hnotifying] at hj; cases hj
    refine ⟨j, ?_⟩
    change Function.update (fun j => (v.phase j).notified) i Phase.away j = _
    rw [hphase, if_neg hji, hj]
    rfl

theorem step (h : Sound v) (hstep : Step v v') : Sound v' := by
  cases hstep with
  | withdraw => exact h.withdraw fun hready => Bool.noConfusion hready
  | lock i p hlock hfree => exact h.lock hlock hfree
  | unlock i p hunlock => exact h.unlock hunlock
  | post i haway => exact h.post haway
  | postInside i hholding => exact h.postInside hholding
  | commit i hlooking hready =>
    exact h.move (by rw [hlooking]; rfl) (by rw [hlooking]; decide) (by rw [hlooking]; decide) (by decide) fun _ => hready
  | answer i hlooking =>
    exact h.move (by rw [hlooking]; rfl) (by rw [hlooking]; decide) (by rw [hlooking]; decide) (by decide) (by simp)
  | wake i hasleep =>
    exact h.move (by rw [hasleep]; rfl) (by rw [hasleep]; decide) (by rw [hasleep]; decide) (by decide) (by simp)
  | notify i hnotifying => exact h.notify hnotifying

end Sound

end Monitor
