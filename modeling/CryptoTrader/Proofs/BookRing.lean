import CryptoTrader.Proofs.AdapterReady
import CryptoTrader.Sanity.BookService

/-! What the rings of the book service conserve. When `Stop` has returned, the adapter
has been told of every connect, disconnect and kept frame once and in order, and of every
refused frame where it went missing. And `Stop` returns. -/

namespace CryptoTrader

open LossyChannel

/-- A sink call that reaches the ring: a control event, or a frame the ring has room for. -/
def accepted (call : FeedEvent × Bool) : Bool := !call.1.isFrame || call.2

/-- The calls for events, without the reports of drops. -/
def eventCalls (calls : List AdapterCall) : List AdapterCall :=
  calls.filter fun call => match call with
    | .onFramesDropped _ => false
    | _ => true

def droppedIn (calls : List AdapterCall) : ℕ := (calls.map (·.dropped)).sum

section Deliveries

variable (deliveries : List (Delivery FeedEvent)) (offered : List (FeedEvent × Bool))

theorem eventCalls_deliveries : eventCalls (deliveries.map deliveryCall) = (items deliveries).map (·.adapterCall) := by
  induction deliveries with
  | nil => rfl
  | cons delivery deliveries ih =>
    unfold eventCalls at ih ⊢
    rcases delivery with event | count
    · cases event <;> simp [deliveryCall, FeedEvent.adapterCall, ih]
    · simp [deliveryCall, ih]

theorem deliveryCall_dropped (delivery : Delivery FeedEvent) : (deliveryCall delivery).dropped = delivery.losses := by
  rcases delivery with (frame | _ | _) | count <;> rfl

theorem deliveryCall_isFrame (delivery : Delivery FeedEvent) :
    (deliveryCall delivery).isFrame = (delivery.item?.map (·.isFrame)).getD false := by
  rcases delivery with (frame | _ | _) | count <;> rfl

theorem droppedIn_deliveries : droppedIn (deliveries.map deliveryCall) = lostCount deliveries := by
  rw [droppedIn, List.map_map, lostCount]
  exact congrArg List.sum (List.map_congr_left fun delivery _ => deliveryCall_dropped delivery)

theorem frames_deliveries :
    (deliveries.map deliveryCall).countP (·.isFrame) = (items deliveries).countP (·.isFrame) := by
  rw [List.countP_map, items, List.countP_filterMap]
  exact List.countP_congr fun delivery _ => by rw [← deliveryCall_isFrame]; rfl

theorem offerOf_accepted {call : FeedEvent × Bool} (h : accepted call = true) : offerOf call = .kept call.1 := by
  unfold accepted at h
  unfold offerOf
  rw [if_neg]
  rintro ⟨hframe, hroom⟩
  simp [hframe, hroom] at h

theorem offerOf_refused {call : FeedEvent × Bool} (h : accepted call = false) : offerOf call = .refused := by
  unfold accepted at h
  unfold offerOf
  rw [if_pos]
  simpa using h

theorem keptItems_offers : keptItems (offered.map offerOf) = (offered.filter accepted).map (·.1) := by
  induction offered with
  | nil => rfl
  | cons call offered ih =>
    cases h : accepted call with
    | true => rw [List.map_cons, offerOf_accepted h, keptItems_kept, ih, List.filter_cons_of_pos h, List.map_cons]
    | false => rw [List.map_cons, offerOf_refused h, keptItems_refused, ih, List.filter_cons_of_neg (by simp [h])]

theorem refusals_offers : refusals (offered.map offerOf) = offered.countP (!accepted ·) := by
  induction offered with
  | nil => rfl
  | cons call offered ih =>
    cases h : accepted call with
    | true => simp [offerOf_accepted h, ih, h]
    | false => simp [offerOf_refused h, ih, h]

/-- Every frame offered is kept or refused. -/
theorem frames_offered :
    ((offered.filter accepted).map (·.1)).countP (·.isFrame) + offered.countP (!accepted ·) =
      offered.countP (·.1.isFrame) := by
  rw [List.countP_map]
  induction offered with
  | nil => rfl
  | cons call offered ih =>
    obtain ⟨event, room⟩ := call
    have hcall : accepted (event, room) = (!event.isFrame || room) := rfl
    cases hframe : event.isFrame <;> cases room <;> simp [hcall, hframe] <;> omega

end Deliveries

namespace BookService

variable {actions : List ServiceAction} {s : BookService} {i : ℕ}

/-- When `Stop` has returned, a feed's adapter calls are its offers with the drops in place. -/
theorem stopped_feed {n : ℕ} (hrun : (create n).run actions = some s) (hstopped : s.stopped = true) (hi : i < n) :
    ∃ feed, s.feeds[i]? = some feed ∧
      callsOf i s.received = (collapse (offersTo i actions)).map deliveryCall ∧
      feed.ring.dropped = refusals (offersTo i actions) := by
  have hlen : i < s.feeds.length := by
    rw [run_feeds hrun]
    exact hi
  have hfeed := List.getElem?_eq_getElem hlen
  exact ⟨_, hfeed, ((run_inv hrun).ended hstopped).2 i _ hfeed⟩

/-- And its connection of the adapter is where these calls take it. -/
theorem stopped_connection {N D : Type} (P : Platform N D) (settings : List BookSettings)
    (hrun : (create settings.length).run actions = some s) (hstopped : s.stopped = true) (hi : i < settings.length) :
    callsOf i s.received = (collapse (offersTo i actions)).map deliveryCall ∧
      (s.adapter P settings).connections[i]? =
        some ((Connection.add settings[i]).run P (callsOf i s.received)) := by
  obtain ⟨feed, -, hcalls, -⟩ := stopped_feed hrun hstopped hi
  refine ⟨hcalls, ?_⟩
  rw [adapter, BookAdapter.run_connection, BookAdapter.connections_addAll]
  simp [hi]

end BookService

/-- Every event kept is handed over once and in order, every frame is handed over or
counted as dropped, and a dropped frame is reported between its neighbours. -/
theorem ring_conserves_and_places_drops {N D : Type} (P : Platform N D) (settings : List BookSettings)
    (actions : List ServiceAction) (s : BookService)
    (hrun : (BookService.create settings.length).run actions = some s) (hstopped : s.stopped = true)
    (i : ℕ) (hi : i < settings.length) :
    ∃ feed conn, s.feeds[i]? = some feed ∧ (s.adapter P settings).connections[i]? = some conn ∧
      eventCalls (callsOf i s.received) = ((sinkCalls i actions).filter accepted).map (·.1.adapterCall) ∧
      conn.stats.frames + conn.stats.drops = (sinkCalls i actions).countP (·.1.isFrame) ∧
      conn.stats.drops = feed.ring.dropped ∧
      ∀ before frame after, sinkCalls i actions = before ++ (.frame frame, false) :: after →
        ∃ early count late, callsOf i s.received = early ++ .onFramesDropped count :: late ∧
          eventCalls early = (before.filter accepted).map (·.1.adapterCall) ∧
          eventCalls late = (after.filter accepted).map (·.1.adapterCall) ∧
          droppedIn early ≤ before.countP (!accepted ·) ∧
          before.countP (!accepted ·) < droppedIn early + count := by
  obtain ⟨feed, hfeed, -, hdropped⟩ := BookService.stopped_feed hrun hstopped hi
  obtain ⟨hcalls, hconn⟩ := BookService.stopped_connection P settings hrun hstopped hi
  obtain ⟨hframes, hdrops⟩ := Connection.run_counters P settings[i] (callsOf i s.received)
  have hkept : items (collapse (offersTo i actions)) = ((sinkCalls i actions).filter accepted).map (·.1) := by
    rw [collapse, items_collapseFrom, offersTo, keptItems_offers]
  have hlost : lostCount (collapse (offersTo i actions)) = (sinkCalls i actions).countP (!accepted ·) := by
    rw [collapse, lostCount_collapseFrom, Nat.zero_add, offersTo, refusals_offers]
  change _ = droppedIn _ at hdrops
  rw [hcalls, droppedIn_deliveries, hlost] at hdrops
  rw [hcalls, frames_deliveries, hkept] at hframes
  refine ⟨feed, _, hfeed, hconn, ?_, ?_, ?_, ?_⟩
  · rw [hcalls, eventCalls_deliveries, hkept, List.map_map]
    rfl
  · rw [hcalls, hframes, hdrops]
    exact frames_offered _
  · rw [hcalls, hdrops, hdropped, offersTo, refusals_offers]
  · intro before frame after hsplit
    obtain ⟨early, count, late, heq, hearly, hlate, hle, hlt⟩ :=
      collapse_split (before.map offerOf) (after.map offerOf)
    rw [keptItems_offers] at hearly hlate
    rw [refusals_offers] at hle hlt
    have hoffers : offersTo i actions = before.map offerOf ++ .refused :: after.map offerOf := by
      rw [offersTo, hsplit, List.map_append, List.map_cons]
      rfl
    refine ⟨early.map deliveryCall, count, late.map deliveryCall, ?_, ?_, ?_, ?_, ?_⟩
    · rw [hcalls, hoffers, heq, List.map_append, List.map_cons]
      rfl
    · rw [eventCalls_deliveries, hearly, List.map_map]
      rfl
    · rw [eventCalls_deliveries, hlate, List.map_map]
      rfl
    · rw [droppedIn_deliveries]
      exact hle
    · rw [droppedIn_deliveries]
      exact hlt

/-- One frame refused between two that are kept, another at the end. -/
def lossyActions : List ServiceAction :=
  [.sink 0 (.connect 1 (ascii "start")) true, .sink 0 (.frame ⟨[0], 2, 10, .krakenJson⟩) true, .advance, .advance,
   .sink 0 (.frame ⟨[1], 3, 11, .krakenJson⟩) false, .sink 0 (.frame ⟨[2], 4, 12, .krakenJson⟩) true,
   .sink 0 (.frame ⟨[3], 5, 13, .krakenJson⟩) false, .stop] ++ List.replicate 7 .advance ++ [.join]

def lossyRun : Option BookService := (BookService.create 1).run lossyActions

theorem lossy_run_conserved :
    ∃ s, lossyRun = some s ∧ s.stopped = true ∧
      ∃ feed conn, s.feeds[0]? = some feed ∧
        (s.adapter tinyPlatform [tinySettings]).connections[0]? = some conn ∧
        eventCalls (callsOf 0 s.received) = [.onConnect 1, .onFrame [0], .onFrame [2]] ∧
        conn.stats.frames + conn.stats.drops = 4 ∧ conn.stats.drops = feed.ring.dropped := by
  have hsome : ∃ s, lossyRun = some s ∧ s.stopped = true := by decide
  obtain ⟨s, hrun, hstopped⟩ := hsome
  obtain ⟨feed, conn, hfeed, hconn, hevents, hframes, hdrops, -⟩ :=
    ring_conserves_and_places_drops tinyPlatform [tinySettings] lossyActions s hrun hstopped 0 (by decide)
  exact ⟨s, hrun, hstopped, feed, conn, hfeed, hconn, hevents, hframes, hdrops⟩

namespace BookService

section Progress

/-- The entries waiting in the rings. -/
def queued (s : BookService) : ℕ := (s.feeds.map (·.ring.queue.length)).sum

theorem sum_map_set (f : Feed → ℕ) {feeds : List Feed} {i : ℕ} {feed : Feed} (h : feeds[i]? = some feed) (feed' : Feed) :
    ((feeds.set i feed').map f).sum + f feed = (feeds.map f).sum + f feed' := by
  induction feeds generalizing i with
  | nil => cases h
  | cons head feeds ih =>
    cases i with
    | zero =>
      cases h
      simp only [List.set_cons_zero, List.map_cons, List.sum_cons]
      omega
    | succ i =>
      have htail := ih h
      simp only [List.set_cons_succ, List.map_cons, List.sum_cons]
      omega

theorem dispatch_ring (feed : Feed) (entry : RingEntry) : (feed.dispatch entry).1.ring = feed.ring := by
  simp only [Feed.dispatch, Feed.reportDrops]
  split_ifs <;> rfl

abbrev Advances : BookService → BookService → Prop := Machine.Reaches step (· = .advance)

variable {s : BookService} {stopping : Bool} {index handled total : ℕ}

theorem advances_of_step {s' : BookService} (h : s.step .advance = some s') : s.Advances s' := .single rfl h

theorem advance_end (h : s.thread = .draining stopping index handled total) (hend : s.feeds.length ≤ index) :
    s.step .advance =
      some { s with thread := if total = 0 ∧ stopping = true then .returned else .waiting } := by
  simp only [step, advance, h, List.getElem?_eq_none hend]
  rcases Nat.eq_zero_or_pos total with rfl | hpos
  · simp
  · simp [hpos, hpos.ne']

/-- An entry that is taken is gone from the rings. -/
theorem queued_handed {feed : Feed} {entry : RingEntry} {ring : BookRing} (hfeed : s.feeds[index]? = some feed)
    (hpop : feed.ring.pop = some (entry, ring)) :
    (s.handed index ({ feed with ring }.dispatch entry)).queued + 1 = s.queued := by
  have hsum := sum_map_set (·.ring.queue.length) hfeed ({ feed with ring }.dispatch entry).1
  rw [dispatch_ring, ← SpscRing.pop_length hpop] at hsum
  change _ = _ + ring.queue.length at hsum
  simp only [queued, handed]
  omega

/-- A pass under way comes to its end, and what it took is gone from the rings. -/
theorem pass_ends (hthread : s.thread = .draining stopping index handled total)
    (hzero : s.feeds.length ≤ index → handled = 0) :
    ∃ s' index' total', Advances s s' ∧ s'.thread = .draining stopping index' 0 total' ∧ s'.feeds.length ≤ index' ∧
      s'.queued + total' = s.queued + total + handled ∧ s'.stop = s.stop ∧ s'.stopped = s.stopped := by
  -- every step takes an entry or moves to the next feed
  induction hm : (s.feeds.length - index) + s.queued using Nat.strong_induction_on
    generalizing s index handled total with
  | _ m ih =>
    rcases Nat.lt_or_ge index s.feeds.length with hlt | hend
    · obtain ⟨feed, hfeed⟩ : ∃ feed, s.feeds[index]? = some feed := ⟨_, List.getElem?_eq_getElem hlt⟩
      cases hpop : if handled < kBatch then feed.ring.pop else none with
      | none =>
        have hstep : s.step .advance = some { s with thread := .draining stopping (index + 1) 0 (total + handled) } := by
          simp only [step, advance, hthread, hfeed, hpop]
        obtain ⟨s', index', total', hreach, hrest⟩ :=
          ih ((s.feeds.length - (index + 1)) + s.queued) (by omega)
            (s := { s with thread := .draining stopping (index + 1) 0 (total + handled) }) rfl (fun _ => rfl) rfl
        refine ⟨s', index', total', (advances_of_step hstep).trans hreach, hrest.1, hrest.2.1, ?_, hrest.2.2.2⟩
        exact hrest.2.2.1.trans (by rw [Nat.add_zero, ← Nat.add_assoc]; rfl)
      | some taken =>
        obtain ⟨entry, ring⟩ := taken
        set next : BookService := { s.handed index ({ feed with ring }.dispatch entry) with
          thread := .draining stopping index (handled + 1) total }
        have hstep : s.step .advance = some next := by
          simp only [step, advance, hthread, hfeed, hpop]
          rfl
        have hlen : next.feeds.length = s.feeds.length := List.length_set
        have htaken : feed.ring.pop = some (entry, ring) := by
          split_ifs at hpop
          exact hpop
        have hqueued : next.queued + 1 = s.queued := queued_handed hfeed htaken
        obtain ⟨s', index', total', hreach, hrest⟩ :=
          ih ((next.feeds.length - index) + next.queued) (by omega) (s := next) rfl
            (fun hle => absurd hlt (by omega)) rfl
        refine ⟨s', index', total', (advances_of_step hstep).trans hreach, hrest.1, hrest.2.1, ?_, hrest.2.2.2⟩
        have := hrest.2.2.1
        omega
    · have hh := hzero hend
      subst hh
      exact ⟨s, index, total, .refl s, hthread, hend, rfl, rfl, rfl⟩

/-- Once `Stop` is called, the passes come to one that takes nothing and the thread ends. -/
theorem waiting_returns (hthread : s.thread = .waiting) (hstop : s.stop = true) :
    ∃ s', Advances s s' ∧ s'.thread = .returned ∧ s'.stopped = s.stopped := by
  induction hm : s.queued using Nat.strong_induction_on generalizing s with
  | _ m ih =>
    have hbegin : s.step .advance = some { s with thread := .draining s.stop 0 0 0 } := by
      simp only [step, advance, hthread]
    obtain ⟨s', index, total, hreach, hend, hlen, hqueued, hstop', hstopped⟩ :=
      pass_ends (s := { s with thread := .draining s.stop 0 0 0 }) rfl (fun _ => rfl)
    have hpass := (advances_of_step hbegin).trans hreach
    have hlast := advance_end hend hlen
    rcases Nat.eq_zero_or_pos total with rfl | hpos
    · rw [if_pos ⟨rfl, hstop⟩] at hlast
      exact ⟨_, hpass.trans (advances_of_step hlast), rfl, hstopped⟩
    · rw [if_neg (by omega)] at hlast
      have hqueued' : s'.queued + total = s.queued := hqueued
      obtain ⟨s'', hreach', hreturned, hsame⟩ :=
        ih s'.queued (by omega) (s := { s' with thread := .waiting }) rfl (hstop'.trans hstop) rfl
      exact ⟨s'', (hpass.trans (advances_of_step hlast)).trans hreach', hreturned, hsame.trans hstopped⟩

/-- Wherever the thread is when `Stop` has been called, it comes to its end. -/
theorem ThreadInv.returns (hinv : s.ThreadInv) (hstop : s.stop = true) :
    ∃ s', Advances s s' ∧ s'.thread = .returned ∧ s'.stopped = s.stopped := by
  cases hpass : s.thread with
  | waiting => exact waiting_returns hpass hstop
  | draining stopping index handled total =>
    simp only [ThreadInv, hpass] at hinv
    obtain ⟨s', index', total', hreach, hend, hlen, -, hstop', hstopped⟩ := pass_ends hpass hinv.1
    have hlast := advance_end hend hlen
    split_ifs at hlast
    · exact ⟨_, hreach.trans (advances_of_step hlast), rfl, hstopped⟩
    · obtain ⟨s'', hreach', hreturned, hsame⟩ :=
        waiting_returns (s := { s' with thread := .waiting }) rfl (hstop'.trans hstop)
      exact ⟨s'', (hreach.trans (advances_of_step hlast)).trans hreach', hreturned, hsame.trans hstopped⟩
  | returned => exact ⟨s, .refl s, hpass, rfl⟩

end Progress

/-- `Stop` returns: from any state reached after it is called, the book thread's own steps
bring it to its end. -/
theorem stop_returns {n : ℕ} {actions : List ServiceAction} {s : BookService}
    (hrun : (BookService.create n).run actions = some s) (hstop : s.stop = true) (hopen : s.stopped = false) :
    ∃ s', Advances s s' ∧ s'.step .join = some s'.join := by
  obtain ⟨s', hreach, hreturned, hsame⟩ := (run_inv hrun).thread.returns hstop
  refine ⟨s', hreach, ?_⟩
  simp [step, hreturned, hsame.trans hopen]

end BookService

end CryptoTrader
