import Mathlib.Data.List.Basic
import Mathlib.Data.List.Induction
import Mathlib.Algebra.BigOperators.Group.List.Basic
import Mathlib.Tactic.Linarith

/-! A first-in first-out channel that may refuse what it is offered and tells its reader
where. Each item is stamped with the number of refusals so far. The reader announces the
refusals a stamp is ahead of it by before the item, and those left over at the end. What
it hears is then the offers with every run of refusals replaced by its announcement,
whatever the interleaving of offers and takes. -/

namespace LossyChannel

variable {α : Type}

inductive Offer (α : Type) where
  | kept (item : α)
  | refused
  deriving DecidableEq, Repr

inductive Delivery (α : Type) where
  | item (item : α)
  | lost (count : ℕ)
  deriving DecidableEq, Repr

def Offer.item? : Offer α → Option α
  | .kept a => some a
  | .refused => none

def Delivery.item? : Delivery α → Option α
  | .item a => some a
  | .lost _ => none

def keptItems (offers : List (Offer α)) : List α := offers.filterMap (·.item?)

def refusals (offers : List (Offer α)) : ℕ := offers.countP (·.item?.isNone)

def items (deliveries : List (Delivery α)) : List α := deliveries.filterMap (·.item?)

def Delivery.losses : Delivery α → ℕ
  | .item _ => 0
  | .lost count => count

def lostCount (deliveries : List (Delivery α)) : ℕ := (deliveries.map (·.losses)).sum

/-- The announcement of some losses, if there are any. -/
def announce (count : ℕ) : List (Delivery α) := if count = 0 then [] else [.lost count]

section Lists

variable (offers offers' : List (Offer α)) (deliveries deliveries' : List (Delivery α)) (a : α) (n : ℕ)

@[simp] theorem keptItems_nil : keptItems ([] : List (Offer α)) = [] := rfl
@[simp] theorem keptItems_kept : keptItems (.kept a :: offers) = a :: keptItems offers := rfl
@[simp] theorem keptItems_refused : keptItems (.refused :: offers) = keptItems offers := rfl
@[simp] theorem refusals_nil : refusals ([] : List (Offer α)) = 0 := rfl
@[simp] theorem refusals_kept : refusals (.kept a :: offers) = refusals offers := by simp [refusals, Offer.item?]
@[simp] theorem refusals_refused : refusals (.refused :: offers) = refusals offers + 1 := by
  simp [refusals, Offer.item?]

theorem refusals_append : refusals (offers ++ offers') = refusals offers + refusals offers' := List.countP_append

@[simp] theorem items_nil : items ([] : List (Delivery α)) = [] := rfl
@[simp] theorem items_item : items (.item a :: deliveries) = a :: items deliveries := rfl
@[simp] theorem items_lost : items (.lost n :: deliveries) = items deliveries := rfl
@[simp] theorem lostCount_nil : lostCount ([] : List (Delivery α)) = 0 := rfl
@[simp] theorem lostCount_item : lostCount (.item a :: deliveries) = lostCount deliveries := Nat.zero_add _
@[simp] theorem lostCount_lost : lostCount (.lost n :: deliveries) = n + lostCount deliveries := rfl

@[simp] theorem items_append : items (deliveries ++ deliveries') = items deliveries ++ items deliveries' :=
  List.filterMap_append

@[simp] theorem lostCount_append :
    lostCount (deliveries ++ deliveries') = lostCount deliveries + lostCount deliveries' := by
  simp [lostCount]

@[simp] theorem announce_zero : announce 0 = ([] : List (Delivery α)) := rfl
@[simp] theorem announce_succ : announce (n + 1) = ([.lost (n + 1)] : List (Delivery α)) := rfl

@[simp] theorem items_announce : items (announce n : List (Delivery α)) = [] := by
  cases n <;> rfl

@[simp] theorem lostCount_announce : lostCount (announce n : List (Delivery α)) = n := by
  cases n <;> rfl

end Lists

/-- The offers with each run of refusals replaced by its announcement, after some
refusals that are still to be announced. -/
def collapseFrom : ℕ → List (Offer α) → List (Delivery α)
  | pending, [] => announce pending
  | pending, .kept a :: offers => announce pending ++ .item a :: collapseFrom 0 offers
  | pending, .refused :: offers => collapseFrom (pending + 1) offers

def collapse (offers : List (Offer α)) : List (Delivery α) := collapseFrom 0 offers

section Collapse

variable (pending : ℕ) (offers before after : List (Offer α))

theorem items_collapseFrom : items (collapseFrom pending offers) = keptItems offers := by
  induction offers generalizing pending with
  | nil => simp [collapseFrom]
  | cons offer offers ih => cases offer <;> simp [collapseFrom, ih]

theorem lostCount_collapseFrom : lostCount (collapseFrom pending offers) = pending + refusals offers := by
  induction offers generalizing pending with
  | nil => simp [collapseFrom]
  | cons offer offers ih =>
    cases offer with
    | kept a => simp [collapseFrom, ih]
    | refused =>
      rw [collapseFrom, ih, refusals_refused]
      omega

/-- Pending refusals are announced first. -/
theorem collapseFrom_succ : ∃ count late, collapseFrom (pending + 1) offers = .lost count :: late ∧
    items late = keptItems offers ∧ pending < count := by
  induction offers generalizing pending with
  | nil => exact ⟨pending + 1, [], rfl, rfl, Nat.lt_succ_self _⟩
  | cons offer offers ih =>
    cases offer with
    | kept a =>
      refine ⟨pending + 1, .item a :: collapseFrom 0 offers, rfl, ?_, Nat.lt_succ_self _⟩
      simp [items_collapseFrom]
    | refused =>
      obtain ⟨count, late, heq, hitems, hcount⟩ := ih (pending + 1)
      exact ⟨count, late, heq, hitems, by omega⟩

theorem collapseFrom_split : ∃ early count late,
    collapseFrom pending (before ++ .refused :: after) = early ++ .lost count :: late ∧
      items early = keptItems before ∧ items late = keptItems after ∧
      lostCount early ≤ pending + refusals before ∧ pending + refusals before < lostCount early + count := by
  induction before generalizing pending with
  | nil =>
    obtain ⟨count, late, heq, hitems, hcount⟩ := collapseFrom_succ pending after
    exact ⟨[], count, late, heq, rfl, hitems, by simp, by simpa using hcount⟩
  | cons offer before ih =>
    cases offer with
    | kept a =>
      obtain ⟨early, count, late, heq, hearly, hlate, hle, hlt⟩ := ih 0
      refine ⟨announce pending ++ .item a :: early, count, late, ?_, ?_, hlate, ?_, ?_⟩
      · rw [List.cons_append, collapseFrom, heq, List.append_assoc, List.cons_append]
      · simp [hearly]
      · simp only [lostCount_append, lostCount_announce, lostCount_item, refusals_kept]
        omega
      · simp only [lostCount_append, lostCount_announce, lostCount_item, refusals_kept]
        omega
    | refused =>
      obtain ⟨early, count, late, heq, hearly, hlate, hle, hlt⟩ := ih (pending + 1)
      refine ⟨early, count, late, heq, hearly, hlate, ?_, ?_⟩ <;> rw [refusals_refused] <;> omega

/-- The announcement that covers a refusal stands after everything kept before it and
before everything kept after it. -/
theorem collapse_split : ∃ early count late,
    collapse (before ++ .refused :: after) = early ++ .lost count :: late ∧
      items early = keptItems before ∧ items late = keptItems after ∧
      lostCount early ≤ refusals before ∧ refusals before < lostCount early + count := by
  have h := collapseFrom_split 0 before after
  simp only [Nat.zero_add] at h
  exact h

end Collapse

/-- What has been heard once the offers so far are all taken, and the refusals that are
then still to be announced. -/
structure Heard (α : Type) where
  deliveries : List (Delivery α)
  pending : ℕ

def Heard.hear (h : Heard α) : Offer α → Heard α
  | .kept a => ⟨h.deliveries ++ (announce h.pending ++ [.item a]), 0⟩
  | .refused => ⟨h.deliveries, h.pending + 1⟩

def heard (offers : List (Offer α)) : Heard α := offers.foldl Heard.hear ⟨[], 0⟩

theorem heard_snoc (offers : List (Offer α)) (offer : Offer α) :
    heard (offers ++ [offer]) = (heard offers).hear offer := by
  simp [heard, List.foldl_append]

theorem foldl_hear (h : Heard α) (offers : List (Offer α)) :
    (offers.foldl Heard.hear h).deliveries ++ announce (offers.foldl Heard.hear h).pending =
      h.deliveries ++ collapseFrom h.pending offers := by
  induction offers generalizing h with
  | nil => rfl
  | cons offer offers ih =>
    rw [List.foldl_cons, ih]
    cases offer <;> simp [Heard.hear, collapseFrom]

theorem collapse_eq (offers : List (Offer α)) :
    collapse offers = (heard offers).deliveries ++ announce (heard offers).pending :=
  (foldl_hear ⟨[], 0⟩ offers).symm

/-- Nothing has been heard, or an item last. -/
def EndsInItem (deliveries : List (Delivery α)) : Prop :=
  deliveries = [] ∨ ∃ before a, deliveries = before ++ [.item a]

/-- Where what was heard ends in an item, it is all there is to hear of some first offers. -/
theorem exists_collapse_of_isPrefix (offers : List (Offer α)) {deliveries : List (Delivery α)}
    (hheard : deliveries <+: (heard offers).deliveries) (hends : EndsInItem deliveries) :
    ∃ before, before <+: offers ∧ collapse before = deliveries := by
  induction offers using List.reverseRecOn with
  | nil => exact ⟨[], List.nil_prefix, (List.prefix_nil.1 hheard).symm⟩
  | append_singleton offers offer ih =>
    rw [heard_snoc] at hheard
    cases offer with
    | refused =>
      obtain ⟨before, hbefore, heq⟩ := ih hheard
      exact ⟨before, hbefore.trans (List.prefix_append _ _), heq⟩
    | kept a =>
      -- what is heard of the last offer is its announcement and then the item itself
      have hall : collapse (offers ++ [.kept a]) =
          (heard offers).deliveries ++ announce (heard offers).pending ++ [.item a] := by
        simp [collapse_eq, heard_snoc, Heard.hear]
      simp only [Heard.hear, ← List.append_assoc] at hheard
      rcases List.prefix_concat_iff.1 hheard with heq | hshort
      · exact ⟨offers ++ [.kept a], List.prefix_rfl, hall.trans heq.symm⟩
      · cases hpending : (heard offers).pending with
        | zero =>
          rw [hpending, announce_zero, List.append_nil] at hshort
          obtain ⟨before, hbefore, heq⟩ := ih hshort
          exact ⟨before, hbefore.trans (List.prefix_append _ _), heq⟩
        | succ n =>
          rw [hpending, announce_succ] at hshort
          rcases List.prefix_concat_iff.1 hshort with heq | hshort
          · exfalso
            rcases hends with hnil | ⟨before, b, hitem⟩
            · rw [hnil] at heq
              simp at heq
            · rw [heq] at hitem
              have hlast := List.singleton_inj.1 (List.append_inj_right' hitem rfl)
              cases hlast
          · obtain ⟨before, hbefore, heq⟩ := ih hshort
            exact ⟨before, hbefore.trans (List.prefix_append _ _), heq⟩

/-- The channel: the stamped items in it, the refusals so far, how many of them the reader
has announced, and what it has heard. -/
structure Channel (α : Type) where
  queue : List (α × ℕ) := []
  refused : ℕ := 0
  reported : ℕ := 0
  delivered : List (Delivery α) := []

/-- What the reader is still to hear of the queue. -/
def upcoming : ℕ → List (α × ℕ) → List (Delivery α)
  | _, [] => []
  | reported, (a, before) :: queue =>
    announce (before - reported) ++ .item a :: upcoming (max reported before) queue

/-- How many refusals will be announced once the queue is taken. -/
def reportedAfter (reported : ℕ) (queue : List (α × ℕ)) : ℕ := queue.foldl (fun r entry => max r entry.2) reported

theorem upcoming_snoc (reported : ℕ) (queue : List (α × ℕ)) (a : α) (before : ℕ) :
    upcoming reported (queue ++ [(a, before)]) =
      upcoming reported queue ++ (announce (before - reportedAfter reported queue) ++ [.item a]) := by
  induction queue generalizing reported with
  | nil => simp [upcoming, reportedAfter]
  | cons entry queue ih =>
    rw [List.cons_append, upcoming, ih, upcoming, List.append_assoc, List.cons_append]
    rfl

theorem reportedAfter_snoc (reported : ℕ) (queue : List (α × ℕ)) (a : α) (before : ℕ) :
    reportedAfter reported (queue ++ [(a, before)]) = max (reportedAfter reported queue) before := by
  simp [reportedAfter, List.foldl_append]

namespace Channel

def offer (c : Channel α) : Offer α → Channel α
  | .kept a => { c with queue := c.queue ++ [(a, c.refused)] }
  | .refused => { c with refused := c.refused + 1 }

/-- Announces the refusals up to a total. -/
def report (c : Channel α) (total : ℕ) : Channel α :=
  { c with reported := max c.reported total, delivered := c.delivered ++ announce (total - c.reported) }

def take (c : Channel α) (a : α) (before : ℕ) (queue : List (α × ℕ)) : Channel α :=
  { c with
    queue
    reported := max c.reported before
    delivered := c.delivered ++ (announce (before - c.reported) ++ [.item a]) }

/-- The channel is where the offers made so far leave it. -/
structure Tracks (c : Channel α) (offers : List (Offer α)) : Prop where
  heard_eq : heard offers =
    ⟨c.delivered ++ upcoming c.reported c.queue, c.refused - reportedAfter c.reported c.queue⟩
  reported_le : reportedAfter c.reported c.queue ≤ c.refused
  refused_eq : c.refused = refusals offers

namespace Tracks

variable {c : Channel α} {offers : List (Offer α)}

theorem init : Tracks ({} : Channel α) [] := ⟨rfl, le_rfl, rfl⟩

theorem offer (h : c.Tracks offers) (o : Offer α) : (c.offer o).Tracks (offers ++ [o]) := by
  obtain ⟨hheard, hle, hcount⟩ := h
  cases o with
  | kept a =>
    refine ⟨?_, ?_, ?_⟩
    · rw [heard_snoc, hheard]
      simp only [Heard.hear, Channel.offer, upcoming_snoc, reportedAfter_snoc, Nat.max_eq_right hle, Nat.sub_self,
        List.append_assoc]
    · simp only [Channel.offer, reportedAfter_snoc]
      omega
    · rw [refusals_append]
      exact hcount
  | refused =>
    refine ⟨?_, ?_, ?_⟩
    · rw [heard_snoc, hheard]
      simp only [Heard.hear, Channel.offer, Nat.sub_add_comm hle]
    · simp only [Channel.offer]
      omega
    · rw [refusals_append, ← hcount]
      rfl

theorem take (h : c.Tracks offers) {a : α} {before : ℕ} {queue : List (α × ℕ)} (hq : c.queue = (a, before) :: queue) :
    (c.take a before queue).Tracks offers := by
  obtain ⟨hheard, hle, hcount⟩ := h
  rw [hq] at hheard hle
  refine ⟨?_, hle, hcount⟩
  rw [hheard]
  simp only [Channel.take, upcoming, reportedAfter, List.foldl_cons, List.append_assoc, List.singleton_append]

/-- Once the queue is empty and the last refusals are announced, the reader has heard
the offers with their refusals in place. -/
theorem report_all (h : c.Tracks offers) (hq : c.queue = []) :
    (c.report c.refused).delivered = collapse offers := by
  rw [collapse_eq, h.heard_eq, hq]
  simp [report, upcoming, reportedAfter]

/-- A reader that stops after an item has heard the offers up to that item, with their
refusals in place. -/
theorem exists_collapse_eq (h : c.Tracks offers) (hends : EndsInItem c.delivered) :
    ∃ before, before <+: offers ∧ collapse before = c.delivered := by
  refine exists_collapse_of_isPrefix offers ?_ hends
  rw [h.heard_eq]
  exact List.prefix_append _ _

end Tracks

end Channel

end LossyChannel
