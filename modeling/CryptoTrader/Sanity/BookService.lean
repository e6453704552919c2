import CryptoTrader.Lib.LossyChannel
import CryptoTrader.Spec.BookService

/-! A feed of the book service is a lossy channel: its ring stamps what it keeps with the
drops so far, and the book thread announces drops as the stamps tell. What one action of
the service does to every feed and to the thread is said once, as an invariant of runs. -/

namespace CryptoTrader

open LossyChannel

/-- What a sink call offers the ring. A control event is always kept. -/
def offerOf (call : FeedEvent × Bool) : Offer FeedEvent :=
  if call.1.isFrame = true ∧ call.2 = false then .refused else .kept call.1

/-- The call the book thread makes for a delivery. -/
def deliveryCall : Delivery FeedEvent → AdapterCall
  | .item event => event.adapterCall
  | .lost count => .onFramesDropped count

/-- The offers made to a connection's ring. -/
def offersTo (index : ℕ) (actions : List ServiceAction) : List (Offer FeedEvent) :=
  (sinkCalls index actions).map offerOf

/-- The feed and the calls made for it are a channel's state and what its reader heard. -/
structure Follows (feed : Feed) (calls : List AdapterCall) (c : Channel FeedEvent) : Prop where
  queue : c.queue = feed.ring.queue.map fun entry => (entry.event, entry.droppedBefore)
  refused : c.refused = feed.ring.dropped
  reported : c.reported = feed.reportedDrops
  calls : calls = c.delivered.map deliveryCall

namespace Follows

variable {feed : Feed} {calls : List AdapterCall} {c : Channel FeedEvent}

theorem init : Follows {} [] {} := ⟨rfl, rfl, rfl, rfl⟩

theorem sink (h : Follows feed calls c) (event : FeedEvent) (room : Bool) :
    Follows { feed with ring := RingSink.call feed.ring event room } calls (c.offer (offerOf (event, room))) := by
  obtain ⟨hqueue, hrefused, hreported, hcalls⟩ := h
  have hkept : Follows { feed with ring := feed.ring.pushControl ⟨event, feed.ring.dropped⟩ } calls
      (c.offer (.kept event)) := by
    refine ⟨?_, hrefused, hreported, hcalls⟩
    simp only [Channel.offer, SpscRing.pushControl, List.map_append, hqueue, hrefused]
    rfl
  cases event with
  | connect connectId reason => exact hkept
  | disconnect connectId => exact hkept
  | frame frame =>
    cases room with
    | true => exact hkept
    | false =>
      refine ⟨hqueue, ?_, hreported, hcalls⟩
      simp only [offerOf, FeedEvent.isFrame, and_self, if_true, Channel.offer, hrefused]
      rfl

/-- `ReportDrops` announces what the channel's reader does. -/
theorem reportDrops (h : Follows feed calls c) (total : ℕ) :
    Follows (feed.reportDrops total).1 (calls ++ (feed.reportDrops total).2) (c.report total) := by
  obtain ⟨hqueue, hrefused, hreported, hcalls⟩ := h
  unfold Feed.reportDrops
  split_ifs with hle
  · have hmax : max c.reported total = c.reported := by omega
    have hnone : total - c.reported = 0 := by omega
    refine ⟨hqueue, hrefused, hmax.trans hreported, ?_⟩
    simp only [Channel.report, hnone, announce_zero, List.append_nil, hcalls]
  · have hmax : max c.reported total = total := by omega
    obtain ⟨n, hn⟩ := Nat.exists_eq_succ_of_ne_zero (Nat.sub_ne_zero_of_lt (not_le.1 hle))
    refine ⟨hqueue, hrefused, hmax, ?_⟩
    simp only [Channel.report, hreported, hn, announce_succ, Nat.succ_eq_add_one, List.map_append, hcalls]
    rfl

theorem dispatch (h : Follows feed calls c) {entry : RingEntry} {ring : BookRing}
    (hpop : feed.ring.pop = some (entry, ring)) :
    ∃ queue, c.queue = (entry.event, entry.droppedBefore) :: queue ∧
      Follows ({ feed with ring }.dispatch entry).1 (calls ++ ({ feed with ring }.dispatch entry).2)
        (c.take entry.event entry.droppedBefore queue) := by
  obtain ⟨hqueue, hrefused, hreported, hcalls⟩ := h
  obtain ⟨⟨entries, dropped⟩, reportedDrops⟩ := feed
  cases entries with
  | nil => cases hpop
  | cons head entries =>
    cases hpop
    refine ⟨_, hqueue, ?_⟩
    have hrest : Follows ⟨⟨entries, dropped⟩, reportedDrops⟩ calls
        { c with queue := entries.map fun entry => (entry.event, entry.droppedBefore) } :=
      ⟨rfl, hrefused, hreported, hcalls⟩
    obtain ⟨hq, hr, hd, hc⟩ := hrest.reportDrops entry.droppedBefore
    refine ⟨hq, hr, hd, ?_⟩
    simp only [Feed.dispatch, Channel.take, ← List.append_assoc, hc, Channel.report, List.map_append, List.map_cons,
      List.map_nil, deliveryCall]

end Follows

section Calls

variable (index : ℕ)

theorem callsOf_append (calls calls' : List (ℕ × AdapterCall)) :
    callsOf index (calls ++ calls') = callsOf index calls ++ callsOf index calls' :=
  List.filterMap_append

theorem callsOf_tagged (i : ℕ) (calls : List AdapterCall) :
    callsOf index (calls.map (i, ·)) = if i = index then calls else [] := by
  unfold callsOf
  rw [List.filterMap_map]
  split_ifs with h <;> simp [h]

/-- The calls made for a list of feeds, each tagged with its index, are those of the feed
asked for. -/
theorem callsOf_zipIdx (f : Feed → List AdapterCall) (feeds : List Feed) (start : ℕ) :
    callsOf index ((feeds.zipIdx start).flatMap fun e => (f e.1).map (e.2, ·)) =
      if start ≤ index then ((feeds[index - start]?).map f).getD [] else [] := by
  induction feeds generalizing start with
  | nil => simp [callsOf]
  | cons feed feeds ih =>
    rw [List.zipIdx_cons, List.flatMap_cons, callsOf_append, callsOf_tagged, ih]
    rcases lt_trichotomy start index with hlt | rfl | hgt
    · rw [if_neg hlt.ne, if_pos (Nat.succ_le_of_lt hlt), if_pos hlt.le,
        show index - start = index - (start + 1) + 1 by omega]
      rfl
    · rw [if_pos rfl, if_neg (by omega), if_pos le_rfl]
      simp
    · rw [if_neg hgt.ne', if_neg (by omega), if_neg (by omega)]
      rfl

end Calls

theorem SpscRing.pop_eq_none {T : Type} {ring : SpscRing T} (h : ring.pop = none) : ring.queue = [] := by
  unfold SpscRing.pop at h
  split at h
  · assumption
  · cases h

theorem SpscRing.pop_length {T : Type} {ring rest : SpscRing T} {value : T} (h : ring.pop = some (value, rest)) :
    rest.queue.length + 1 = ring.queue.length := by
  unfold SpscRing.pop at h
  split at h
  · cases h
  · next hqueue =>
    cases h
    rw [hqueue]
    rfl

namespace BookService

/-- What the book thread can do next. -/
inductive ThreadStep (s : BookService) : BookService → Prop where
  | begin (h : s.thread = .waiting) : ThreadStep s { s with thread := .draining s.stop 0 0 0 }
  | again {stopping : Bool} {index handled total : ℕ} (h : s.thread = .draining stopping index handled total)
      (hend : s.feeds.length ≤ index) : ThreadStep s { s with thread := .waiting }
  | finish {index handled : ℕ} (h : s.thread = .draining true index handled 0) (hend : s.feeds.length ≤ index) :
      ThreadStep s { s with thread := .returned }
  | next {stopping : Bool} {index handled total : ℕ} {feed : Feed} (h : s.thread = .draining stopping index handled total)
      (hfeed : s.feeds[index]? = some feed) (hempty : handled < kBatch → feed.ring.queue = []) :
      ThreadStep s { s with thread := .draining stopping (index + 1) 0 (total + handled) }
  | pop {stopping : Bool} {index handled total : ℕ} {feed : Feed} {entry : RingEntry} {ring : BookRing}
      (h : s.thread = .draining stopping index handled total) (hfeed : s.feeds[index]? = some feed)
      (hpop : feed.ring.pop = some (entry, ring)) :
      ThreadStep s { s.handed index ({ feed with ring }.dispatch entry) with
        thread := .draining stopping index (handled + 1) total }

theorem advance_cases {s s' : BookService} (h : s.advance = some s') : ThreadStep s s' := by
  unfold advance at h
  cases hthread : s.thread with
  | waiting =>
    rw [hthread] at h
    cases h
    exact .begin hthread
  | returned =>
    rw [hthread] at h
    cases h
  | draining stopping index handled total =>
    rw [hthread] at h
    simp only at h
    cases hfeed : s.feeds[index]? with
    | none =>
      rw [hfeed] at h
      have hend := List.getElem?_eq_none_iff.1 hfeed
      simp only at h
      split_ifs at h with htotal hstop
      · cases h
        exact .again hthread hend
      · cases h
        obtain rfl : total = 0 := by omega
        subst hstop
        exact .finish hthread hend
      · cases h
        exact .again hthread hend
    | some feed =>
      rw [hfeed] at h
      simp only at h
      split at h
      · next hpop =>
        cases h
        refine .next hthread hfeed fun hlt => ?_
        rw [if_pos hlt] at hpop
        exact SpscRing.pop_eq_none hpop
      · next entry ring hpop =>
        cases h
        split_ifs at hpop with hlt
        exact .pop hthread hfeed hpop

/-- The rings of the first feeds are empty. -/
def Drained (s : BookService) (count : ℕ) : Prop :=
  ∀ i feed, i < count → s.feeds[i]? = some feed → feed.ring.queue = []

/-- A pass that saw the stop flag and has taken nothing has found every ring so far empty. -/
def ThreadInv (s : BookService) : Prop :=
  match s.thread with
  | .waiting => True
  | .draining stopping index handled total =>
    (s.feeds.length ≤ index → handled = 0) ∧
      (stopping = true → s.stop = true ∧ (total + handled = 0 → s.Drained index))
  | .returned => s.stop = true ∧ s.Drained s.feeds.length

theorem ThreadInv.advance {s s' : BookService} (hinv : s.ThreadInv) (h : ThreadStep s s') : s'.ThreadInv := by
  unfold ThreadInv at hinv
  cases h with
  | begin h => exact ⟨fun _ => rfl, fun hstop => ⟨hstop, fun _ i feed hi => absurd hi (Nat.not_lt_zero i)⟩⟩
  | again h hend => trivial
  | finish h hend =>
    rw [h] at hinv
    obtain ⟨hzero, hpass⟩ := hinv
    obtain ⟨hstop, hdrained⟩ := hpass rfl
    refine ⟨hstop, fun i feed hi => ?_⟩
    exact hdrained (by rw [hzero hend]) i feed (lt_of_lt_of_le hi hend)
  | @next stopping index handled total feed h hfeed hempty =>
    rw [h] at hinv
    obtain ⟨-, hpass⟩ := hinv
    refine ⟨fun _ => rfl, fun hstopping => ⟨(hpass hstopping).1, fun htaken i f hi hf => ?_⟩⟩
    rcases Nat.lt_succ_iff_lt_or_eq.1 hi with hlt | rfl
    · exact (hpass hstopping).2 (by omega) i f hlt hf
    · rw [hfeed] at hf
      cases hf
      apply hempty
      rw [show handled = 0 by omega]
      decide
  | @pop stopping index handled total feed entry ring h hfeed hpop =>
    rw [h] at hinv
    have hlt : index < s.feeds.length := (List.getElem?_eq_some_iff.1 hfeed).1
    refine ⟨fun hle => ?_, fun hstopping => ⟨(hinv.2 hstopping).1, fun htaken => ?_⟩⟩
    · simp only [handed, List.length_set] at hle
      omega
    · omega

/-- While `Stop` has not returned each feed is where its channel is; once it has, the
adapter has been told all the channel's reader hears. -/
structure Inv (actions : List ServiceAction) (s : BookService) : Prop where
  thread : s.ThreadInv
  running : s.stopped = false → ∀ i feed, s.feeds[i]? = some feed →
    ∃ c, Follows feed (callsOf i s.received) c ∧ c.Tracks (offersTo i actions)
  ended : s.stopped = true → s.thread = .returned ∧ ∀ i feed, s.feeds[i]? = some feed →
    callsOf i s.received = (collapse (offersTo i actions)).map deliveryCall ∧
      feed.ring.dropped = refusals (offersTo i actions)

theorem offersTo_snoc (i : ℕ) (actions : List ServiceAction) (action : ServiceAction)
    (h : ∀ event room, action ≠ .sink i event room) : offersTo i (actions ++ [action]) = offersTo i actions := by
  unfold offersTo sinkCalls
  rw [List.filterMap_append]
  cases action with
  | sink j event room =>
    have hj : j ≠ i := fun hj => h event room (hj ▸ rfl)
    simp [hj]
  | stop => simp
  | advance => simp
  | join => simp

theorem offersTo_sink (i : ℕ) (actions : List ServiceAction) (event : FeedEvent) (room : Bool) :
    offersTo i (actions ++ [.sink i event room]) = offersTo i actions ++ [offerOf (event, room)] := by
  simp [offersTo, sinkCalls]

theorem Inv.sink {actions : List ServiceAction} {s : BookService} (hinv : Inv actions s) {i : ℕ} {feed : Feed}
    (event : FeedEvent) (room : Bool) (hstop : s.stop = false) (hfeed : s.feeds[i]? = some feed) :
    Inv (actions ++ [.sink i event room])
      { s with feeds := s.feeds.set i { feed with ring := RingSink.call feed.ring event room } } := by
  obtain ⟨hthread, hrunning, hended⟩ := hinv
  have hlen : i < s.feeds.length := (List.getElem?_eq_some_iff.1 hfeed).1
  unfold ThreadInv at hthread
  refine ⟨?_, fun hstopped j f hf => ?_, fun hstopped => ?_⟩
  · unfold ThreadInv
    -- no pass has seen the stop flag yet, so nothing is claimed about the rings
    cases hpass : s.thread with
    | waiting => trivial
    | draining stopping index handled total =>
      simp only [hpass, hstop, List.length_set] at hthread ⊢
      exact ⟨hthread.1, fun hstopping => absurd (hthread.2 hstopping).1 Bool.false_ne_true⟩
    | returned =>
      simp only [hpass, hstop] at hthread
      exact absurd hthread.1 Bool.false_ne_true
  · rcases eq_or_ne i j with rfl | hij
    · rw [List.getElem?_set_self hlen] at hf
      cases hf
      obtain ⟨c, hfollows, htracks⟩ := hrunning hstopped i feed hfeed
      rw [offersTo_sink]
      exact ⟨_, hfollows.sink event room, htracks.offer _⟩
    · rw [List.getElem?_set_ne hij] at hf
      rw [offersTo_snoc _ _ _ (by rintro e r ⟨⟩; exact hij rfl)]
      exact hrunning hstopped j f hf
  · obtain ⟨hreturned, -⟩ := hended hstopped
    simp only [hreturned, hstop] at hthread
    exact absurd hthread.1 Bool.false_ne_true

theorem ThreadStep.not_returned {s s' : BookService} (h : ThreadStep s s') : s.thread ≠ .returned := by
  intro hreturned
  cases h <;> simp_all

theorem Inv.advance {actions : List ServiceAction} {s s' : BookService} (hinv : Inv actions s) (h : ThreadStep s s') :
    Inv (actions ++ [.advance]) s' := by
  have hoffers : ∀ i, offersTo i (actions ++ [.advance]) = offersTo i actions := fun i =>
    offersTo_snoc i actions .advance (by rintro _ _ ⟨⟩)
  have hstopped : s.stopped = false := by
    by_contra hne
    exact h.not_returned (hinv.ended (Bool.not_eq_false _ ▸ hne)).1
  refine ⟨hinv.thread.advance h, fun _ i f hf => ?_, fun hs => ?_⟩
  · rw [hoffers]
    cases h with
    | begin h => exact hinv.running hstopped i f hf
    | again h hend => exact hinv.running hstopped i f hf
    | finish h hend => exact hinv.running hstopped i f hf
    | next h hfeed hempty => exact hinv.running hstopped i f hf
    | @pop stopping index handled total feed entry ring h hfeed hpop =>
      have hlen : index < s.feeds.length := (List.getElem?_eq_some_iff.1 hfeed).1
      simp only [handed] at hf ⊢
      rw [callsOf_append, callsOf_tagged]
      rcases eq_or_ne index i with rfl | hne
      · rw [List.getElem?_set_self hlen] at hf
        cases hf
        obtain ⟨c, hfollows, htracks⟩ := hinv.running hstopped index feed hfeed
        obtain ⟨queue, hqueue, hnext⟩ := hfollows.dispatch hpop
        rw [if_pos rfl]
        exact ⟨_, hnext, htracks.take hqueue⟩
      · rw [List.getElem?_set_ne hne] at hf
        rw [if_neg hne, List.append_nil]
        exact hinv.running hstopped i f hf
  · have : s'.stopped = s.stopped := by cases h <;> rfl
    rw [this, hstopped] at hs
    cases hs

theorem Inv.join {actions : List ServiceAction} {s : BookService} (hinv : Inv actions s)
    (hreturned : s.thread = .returned) (hstopped : s.stopped = false) : Inv (actions ++ [.join]) s.join := by
  obtain ⟨hthread, hrunning, -⟩ := hinv
  unfold ThreadInv at hthread
  rw [hreturned] at hthread
  obtain ⟨hstop, hdrained⟩ := hthread
  have hring : ∀ feed : Feed, feed.reportTrailingDrops.1.ring = feed.ring := by
    intro feed
    unfold Feed.reportTrailingDrops Feed.reportDrops
    split_ifs <;> rfl
  refine ⟨?_, fun hs => ?_, fun _ => ⟨hreturned, fun i f hf => ?_⟩⟩
  · unfold ThreadInv BookService.join
    simp only [hreturned, List.length_map]
    refine ⟨hstop, fun i f hi hf => ?_⟩
    rw [List.getElem?_map, Option.map_eq_some_iff] at hf
    obtain ⟨feed, hfeed, rfl⟩ := hf
    rw [hring]
    exact hdrained i feed hi hfeed
  · cases hs
  · rw [BookService.join, List.getElem?_map, Option.map_eq_some_iff] at hf
    obtain ⟨feed, hfeed, rfl⟩ := hf
    obtain ⟨c, hfollows, htracks⟩ := hrunning hstopped i feed hfeed
    have hempty : c.queue = [] := by
      rw [hfollows.queue, hdrained i feed (List.getElem?_eq_some_iff.1 hfeed).1 hfeed]
      rfl
    have hlast := (hfollows.reportDrops feed.ring.dropped).calls
    rw [offersTo_snoc i actions .join (by rintro _ _ ⟨⟩), hring, ← htracks.report_all hempty, ← htracks.refused_eq,
      hfollows.refused, ← hlast]
    refine ⟨?_, rfl⟩
    have htrailing := callsOf_zipIdx i (·.reportTrailingDrops.2) s.feeds 0
    rw [if_pos (Nat.zero_le i), Nat.sub_zero, hfeed] at htrailing
    simp only [BookService.join, callsOf_append, htrailing]
    rfl

theorem Inv.step {actions : List ServiceAction} {s s' : BookService} {action : ServiceAction} (hinv : Inv actions s)
    (h : s.step action = some s') : Inv (actions ++ [action]) s' := by
  cases action with
  | sink i event room =>
    simp only [BookService.step] at h
    split_ifs at h with hstop
    obtain ⟨feed, hfeed, rfl⟩ := Option.map_eq_some_iff.1 h
    exact hinv.sink event room (Bool.not_eq_true _ ▸ hstop) hfeed
  | stop =>
    simp only [BookService.step] at h
    split_ifs at h with hstop
    cases h
    have hoffers : ∀ i, offersTo i (actions ++ [.stop]) = offersTo i actions := fun i =>
      offersTo_snoc i actions .stop (by rintro _ _ ⟨⟩)
    obtain ⟨hthread, hrunning, hended⟩ := hinv
    refine ⟨?_, ?_, ?_⟩
    · unfold ThreadInv at hthread ⊢
      cases hpass : s.thread with
      | waiting => trivial
      | draining stopping index handled total =>
        simp only [hpass] at hthread ⊢
        exact ⟨hthread.1, fun hstopping => ⟨trivial, (hthread.2 hstopping).2⟩⟩
      | returned =>
        simp only [hpass] at hthread
        exact ⟨rfl, hthread.2⟩
    · simpa only [hoffers] using hrunning
    · simpa only [hoffers] using hended
  | advance => exact hinv.advance (advance_cases h)
  | join =>
    simp only [BookService.step] at h
    split_ifs at h with hjoin
    cases h
    exact hinv.join hjoin.1 hjoin.2

theorem Inv.create (n : ℕ) : Inv [] (create n) := by
  refine ⟨trivial, fun _ i feed hfeed => ?_, fun h => by cases h⟩
  obtain rfl := List.eq_of_mem_replicate (List.mem_of_getElem? hfeed)
  exact ⟨{}, Follows.init, Channel.Tracks.init⟩

theorem run_inv {n : ℕ} {actions : List ServiceAction} {s : BookService}
    (hrun : (BookService.create n).run actions = some s) :
    Inv actions s :=
  Machine.run_invariant (I := Inv) (Inv.create n) (fun _ _ _ _ _ hinv hstep => hinv.step hstep) hrun

/-- No action adds or removes a feed. -/
theorem step_feeds {s s' : BookService} {action : ServiceAction} (h : s.step action = some s') :
    s'.feeds.length = s.feeds.length := by
  cases action with
  | sink i event room =>
    simp only [BookService.step] at h
    split_ifs at h
    obtain ⟨feed, -, rfl⟩ := Option.map_eq_some_iff.1 h
    exact List.length_set
  | stop =>
    simp only [BookService.step] at h
    split_ifs at h
    cases h
    rfl
  | advance =>
    cases advance_cases h with
    | pop => exact List.length_set
    | _ => rfl
  | join =>
    simp only [BookService.step] at h
    split_ifs at h
    cases h
    exact List.length_map _

theorem run_feeds {n : ℕ} {actions : List ServiceAction} {s : BookService}
    (hrun : (BookService.create n).run actions = some s) : s.feeds.length = n :=
  Machine.run_invariant (I := fun _ s => s.feeds.length = n) (List.length_replicate)
    (fun _ _ _ _ _ hlen hstep => (step_feeds hstep).trans hlen) hrun

end BookService

end CryptoTrader
