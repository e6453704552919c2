import CryptoTrader.Lib.Interleave
import CryptoTrader.Sanity.BookService
import CryptoTrader.Sanity.JournalQueue
import CryptoTrader.Spec.FeedHandler

/-! The parts of the capture process go through runs of their own. Every session makes a run
of a capture session; the calls its sink hears are the calls on its feed of the books; and
the book service makes a run in which `Stop` comes after the last producer, because the main
thread stops the books only once every connection is joined and closed. -/

namespace CryptoTrader

open LossyChannel

namespace CaptureSession

variable {J : JournalPlatform} {s s' : CaptureSession} {action : SessionAction}

theorem goOn_sinkCalls (q : CaptureSession) (call : SessionCall) : q.sinkCalls <+: (q.goOn J call).sinkCalls := by
  cases call with
  | close flushed => exact List.prefix_rfl
  | onWireMessage wire => exact List.prefix_rfl
  | beginConnect connect =>
    have hconnect := openConnect_cases J q connect
    simp only [goOn]
    generalize q.openConnect J connect = t at hconnect ⊢
    cases hconnect with
    | failed error hcause => exact List.prefix_rfl
    | markerFailed error hmode hcause herror => exact List.prefix_rfl
    | threaded hmode hcause => exact List.prefix_append _ _
    | inline hmode hcause herror => exact List.prefix_append _ _

theorem ended_sinkCalls (s : CaptureSession) (flushed : Bool) (records : ℕ) :
    s.sinkCalls <+: (s.ended flushed records).sinkCalls := by
  rw [ended_eq]
  exact List.prefix_append _ _

/-- The sinks of a session only hear more. -/
theorem Step.sinkCalls (h : Step J s action s') : s.sinkCalls <+: s'.sinkCalls := by
  cases h with
  | wire call hwaiting =>
    have htakes := s.onWireMessage_cases call
    generalize s.onWireMessage call = t at htakes ⊢
    cases htakes with
    | notOpen hopen => exact List.prefix_rfl
    | threaded hmode hopen => exact List.prefix_append _ _
    | inline writer hmode hopen hwriter => exact List.prefix_append _ _
  | wait call hcall hwaiting hopen => exact List.prefix_rfl
  | close call flushed hcall hwaiting hopen => exact (s.ended_sinkCalls flushed 0).trans (goOn_sinkCalls _ call)
  | resume call records hcall hwaiting hsignal hopen =>
    exact (s.ended_sinkCalls true records).trans (goOn_sinkCalls _ call)
  | journal written journal hjournal => exact List.prefix_rfl

end CaptureSession

section Sinks

theorem sinkCalls_append (index : ℕ) (actions actions' : List ServiceAction) :
    sinkCalls index (actions ++ actions') = sinkCalls index actions ++ sinkCalls index actions' := List.filterMap_append

/-- Calls on one sink, in order. -/
def sinkActions (index : ℕ) (events : List FeedEvent) (room : Bool) : List ServiceAction :=
  events.map fun event => .sink index event room

theorem sinkCalls_sinkActions (index : ℕ) (events : List FeedEvent) (room : Bool) :
    (sinkCalls index (sinkActions index events room)).map (·.1) = events := by
  induction events with
  | nil => rfl
  | cons event events ih =>
    simp only [sinkActions, sinkCalls, List.map_cons, List.filterMap_cons, if_true] at ih ⊢
    rw [ih]

theorem sinkCalls_sinkActions_other {index other : ℕ} (h : index ≠ other) (events : List FeedEvent) (room : Bool) :
    sinkCalls other (sinkActions index events room) = [] := by
  induction events with
  | nil => rfl
  | cons event events ih =>
    simp only [sinkActions, sinkCalls, List.map_cons, List.filterMap_cons, if_neg h] at ih ⊢
    exact ih

end Sinks

namespace BookService

variable {actions : List ServiceAction} {s : BookService}

theorem sink_kept (s : BookService) (index : ℕ) (event : FeedEvent) (room : Bool) :
    (s.sink index event room).feeds.length = s.feeds.length ∧ (s.sink index event room).received = s.received ∧
      (s.sink index event room).stop = s.stop ∧ (s.sink index event room).stopped = s.stopped ∧
      (s.sink index event room).thread = s.thread := by
  unfold sink
  split
  · exact ⟨rfl, rfl, rfl, rfl, rfl⟩
  · exact ⟨List.length_set, rfl, rfl, rfl, rfl⟩

theorem sinkAll_kept (s : BookService) (feed : Option ℕ) (events : List FeedEvent) (room : Bool) :
    (s.sinkAll feed events room).feeds.length = s.feeds.length ∧ (s.sinkAll feed events room).received = s.received ∧
      (s.sinkAll feed events room).stop = s.stop ∧ (s.sinkAll feed events room).stopped = s.stopped ∧
      (s.sinkAll feed events room).thread = s.thread := by
  cases feed with
  | none => exact ⟨rfl, rfl, rfl, rfl, rfl⟩
  | some index =>
    induction events generalizing s with
    | nil => exact ⟨rfl, rfl, rfl, rfl, rfl⟩
    | cons event events ih =>
      obtain ⟨hlength, hreceived, hstop, hstopped, hthread⟩ := s.sink_kept index event room
      obtain ⟨hlength', hreceived', hstop', hstopped', hthread'⟩ := ih (s.sink index event room)
      exact ⟨hlength'.trans hlength, hreceived'.trans hreceived, hstop'.trans hstop, hstopped'.trans hstopped,
        hthread'.trans hthread⟩

theorem Inv.sinkAll (hinv : Inv actions s) (hstop : s.stop = false) {index : ℕ} (hindex : index < s.feeds.length)
    (events : List FeedEvent) (room : Bool) :
    Inv (actions ++ sinkActions index events room) (s.sinkAll (some index) events room) := by
  induction events generalizing s actions with
  | nil =>
    rw [sinkActions, List.map_nil, List.append_nil]
    exact hinv
  | cons event events ih =>
    have hfeed := List.getElem?_eq_getElem hindex
    have hnext : Inv (actions ++ [.sink index event room]) (s.sink index event room) := by
      have hsink := hinv.sink event room hstop hfeed
      unfold BookService.sink
      rw [hfeed]
      exact hsink
    obtain ⟨hlength, -, hstop', -, -⟩ := s.sink_kept index event room
    have hrest := ih hnext (hstop'.trans hstop) (by rw [hlength]; exact hindex)
    rw [List.append_assoc] at hrest
    exact hrest

/-- A connection is added while the book thread has not started. -/
theorem Inv.addConnection (hinv : Inv actions s) (hthread : s.thread = .waiting) (hstopped : s.stopped = false)
    (hoffers : offersTo s.feeds.length actions = []) (hcalls : callsOf s.feeds.length s.received = []) :
    Inv actions s.addConnection := by
  refine ⟨?_, fun _ i feed hfeed => ?_, fun h => ?_⟩
  · unfold ThreadInv BookService.addConnection
    rw [hthread]
    trivial
  · rcases Nat.lt_trichotomy i s.feeds.length with hlt | rfl | hgt
    · rw [BookService.addConnection, List.getElem?_append_left hlt] at hfeed
      exact hinv.running hstopped i feed hfeed
    · rw [BookService.addConnection, List.getElem?_concat_length] at hfeed
      cases hfeed
      refine ⟨{}, ?_, ?_⟩
      · change Follows {} (callsOf s.feeds.length s.received) {}
        rw [hcalls]
        exact Follows.init
      · rw [hoffers]
        exact Channel.Tracks.init
    · rw [BookService.addConnection, List.getElem?_append_right (Nat.le_of_lt hgt),
        List.getElem?_eq_none (by rw [List.length_singleton]; omega)] at hfeed
      cases hfeed
  · change s.stopped = true at h
    rw [hstopped] at h
    cases h

/-- What a feed's reader has been told ends in an event. -/
def EndsInEvents (s : BookService) : Prop :=
  ∀ i, callsOf i s.received = [] ∨ ∃ before event, callsOf i s.received = before ++ [FeedEvent.adapterCall event]

theorem EndsInEvents.advance (h : s.EndsInEvents) {s' : BookService} (hstep : ThreadStep s s') : s'.EndsInEvents := by
  cases hstep with
  | begin hthread => exact h
  | again hthread hend => exact h
  | finish hthread hend => exact h
  | next hthread hfeed hempty => exact h
  | @pop stopping index handled total feed entry ring hthread hfeed hpop =>
    intro i
    simp only [handed]
    rw [callsOf_append, callsOf_tagged]
    by_cases hi : index = i
    · rw [if_pos hi]
      exact .inr ⟨callsOf i s.received ++ (({ feed with ring } : Feed).reportDrops entry.droppedBefore).2, entry.event,
        (List.append_assoc _ _ _).symm⟩
    · rw [if_neg hi, List.append_nil]
      exact h i

end BookService

namespace FeedHandler

variable {J : JournalPlatform} {h h' : FeedHandler} {actions : List ServiceAction}

/-- A capture whose sink fills a feed of the books. -/
def Routes (h : FeedHandler) (i : ℕ) (capture : ClientCapture) (feed : ℕ) : Prop :=
  h.captures[i]? = some capture ∧ capture.feed = some feed

/-- The books and the sessions are wired to each other: a session's sink calls are the calls on
its feed, a feed has one session, and a feed that is not there yet has heard nothing. -/
structure Wired (h : FeedHandler) (actions : List ServiceAction) : Prop where
  inv : BookService.Inv actions h.books
  ends : h.books.stopped = false → h.books.EndsInEvents
  heard : ∀ i capture feed, h.Routes i capture feed → (sinkCalls feed actions).map (·.1) = capture.session.sinkCalls
  within : ∀ i capture feed, h.Routes i capture feed → feed < h.books.feeds.length
  alone : ∀ i i' capture capture' feed, h.Routes i capture feed → h.Routes i' capture' feed → i = i'
  unheard : ∀ feed, h.books.feeds.length ≤ feed → sinkCalls feed actions = [] ∧ callsOf feed h.books.received = []
  added : h.added.length = h.books.feeds.length
  settled : ∀ i capture feed, h.Routes i capture feed →
    ∃ settings, h.added[feed]? = some settings ∧
      resolveBookSettings capture.entry (if capture.entry.exchange = .kraken then some h.rest else none) = .ok settings

namespace Wired

variable {i : ℕ} {capture capture' : ClientCapture}

/-- Only the captures, the books and what was added to them matter. -/
theorem keep (hw : h.Wired actions) (hcaptures : h'.captures = h.captures) (hbooks : h'.books = h.books)
    (hadded : h'.added = h.added) (hrest : h'.rest = h.rest) : h'.Wired actions := by
  have hroutes : ∀ j c feed, h'.Routes j c feed → h.Routes j c feed := by
    intro j c feed hr
    rwa [Routes, hcaptures] at hr
  refine ⟨by rw [hbooks]; exact hw.inv, by rw [hbooks]; exact hw.ends, fun j c feed hr => hw.heard j c feed (hroutes _ _ _ hr),
    fun j c feed hr => ?_, fun j j' c c' feed hr hr' => hw.alone _ _ _ _ _ (hroutes _ _ _ hr) (hroutes _ _ _ hr'), ?_, ?_,
    fun j c feed hr => ?_⟩
  · rw [hbooks]
    exact hw.within j c feed (hroutes _ _ _ hr)
  · rw [hbooks]
    exact hw.unheard
  · rw [hbooks, hadded]
    exact hw.added
  · rw [hadded, hrest]
    exact hw.settled j c feed (hroutes _ _ _ hr)

/-- A capture and the books change together. -/
theorem replace (hw : h.Wired actions) (hcapture : h.captures[i]? = some capture) (hentry : capture'.entry = capture.entry)
    (hfeed : capture'.feed = capture.feed) {books : BookService} {actions' : List ServiceAction}
    (hinv : BookService.Inv actions' books) (hends : books.stopped = false → books.EndsInEvents)
    (hlength : books.feeds.length = h.books.feeds.length)
    (hself : ∀ feed, capture.feed = some feed → (sinkCalls feed actions').map (·.1) = capture'.session.sinkCalls)
    (hothers : ∀ feed, capture.feed ≠ some feed → sinkCalls feed actions' = sinkCalls feed actions)
    (hreceived : ∀ feed, h.books.feeds.length ≤ feed → callsOf feed books.received = []) :
    ({ h.setCapture i capture' with books } : FeedHandler).Wired actions' := by
  have hold : ∀ j c feed, ({ h.setCapture i capture' with books } : FeedHandler).Routes j c feed →
      (i = j ∧ c = capture' ∧ h.Routes j capture feed) ∨ (i ≠ j ∧ h.Routes j c feed) := by
    rintro j c feed ⟨hc, hf⟩
    rcases Machine.getElem?_set_cases hc with ⟨rfl, rfl⟩ | ⟨hne, hc⟩
    · exact .inl ⟨rfl, rfl, hcapture, hfeed ▸ hf⟩
    · exact .inr ⟨hne, hc, hf⟩
  have hbefore : ∀ j c feed, ({ h.setCapture i capture' with books } : FeedHandler).Routes j c feed →
      ∃ c₀, h.Routes j c₀ feed ∧ c.entry = c₀.entry := by
    intro j c feed hr
    rcases hold j c feed hr with ⟨-, rfl, hr₀⟩ | ⟨-, hr₀⟩
    · exact ⟨capture, hr₀, hentry⟩
    · exact ⟨c, hr₀, rfl⟩
  refine ⟨hinv, hends, fun j c feed hr => ?_, fun j c feed hr => ?_, fun j j' c c' feed hr hr' => ?_,
    fun feed hle => ?_, hw.added.trans hlength.symm, fun j c feed hr => ?_⟩
  · rcases hold j c feed hr with ⟨-, rfl, hr₀⟩ | ⟨hne, hr₀⟩
    · exact hself feed hr₀.2
    · have hother : capture.feed ≠ some feed := fun hsome => hne (hw.alone _ _ _ _ _ ⟨hcapture, hsome⟩ hr₀)
      rw [hothers feed hother]
      exact hw.heard _ _ _ hr₀
  · obtain ⟨c₀, hr₀, -⟩ := hbefore j c feed hr
    simp only [hlength]
    exact hw.within _ _ _ hr₀
  · obtain ⟨c₀, hr₀, -⟩ := hbefore j c feed hr
    obtain ⟨c₁, hr₁, -⟩ := hbefore j' c' feed hr'
    exact hw.alone _ _ _ _ _ hr₀ hr₁
  · simp only [hlength] at hle
    have hother : capture.feed ≠ some feed := fun hsome => by
      have := hw.within _ _ _ ⟨hcapture, hsome⟩
      omega
    rw [hothers feed hother]
    exact ⟨(hw.unheard feed hle).1, hreceived feed hle⟩
  · obtain ⟨c₀, hr₀, hentry₀⟩ := hbefore j c feed hr
    rw [hentry₀]
    exact hw.settled _ _ _ hr₀

/-- A capture changes in nothing that the books see. -/
theorem setCapture (hw : h.Wired actions) (hcapture : h.captures[i]? = some capture)
    (hentry : capture'.entry = capture.entry) (hfeed : capture'.feed = capture.feed)
    (hcalls : capture.feed.isSome = true → capture'.session.sinkCalls = capture.session.sinkCalls) :
    (h.setCapture i capture').Wired actions := by
  refine hw.replace hcapture hentry hfeed hw.inv hw.ends rfl (fun feed hsome => ?_) (fun _ _ => rfl)
    fun feed hle => (hw.unheard feed hle).2
  rw [hcalls (by rw [hsome]; rfl)]
  exact hw.heard _ _ _ ⟨hcapture, hsome⟩

/-- A capture takes a step that its feed hears of. -/
theorem sinkAll (hw : h.Wired actions) (hcapture : h.captures[i]? = some capture) (capture' : ClientCapture)
    (hentry : capture'.entry = capture.entry) (hfeed : capture'.feed = capture.feed) {feed : ℕ}
    (hsome : capture.feed = some feed) {events : List FeedEvent}
    (hevents : capture'.session.sinkCalls = capture.session.sinkCalls ++ events) (room : Bool)
    (hstop : h.books.stop = false) :
    ({ h.setCapture i capture' with books := h.books.sinkAll capture.feed events room } : FeedHandler).Wired
      (actions ++ sinkActions feed events room) := by
  rw [show h.books.sinkAll capture.feed events room = h.books.sinkAll (some feed) events room by rw [hsome]]
  obtain ⟨hlength, hreceived, -, hstopped, -⟩ := h.books.sinkAll_kept (some feed) events room
  have hself : h.Routes i capture feed := ⟨hcapture, hsome⟩
  refine hw.replace hcapture hentry hfeed (hw.inv.sinkAll hstop (hw.within _ _ _ hself) events room) (fun hgoing => ?_)
    hlength (fun other hother => ?_) (fun other hother => ?_) fun other hle => ?_
  · have hends := hw.ends (hstopped.symm.trans hgoing)
    unfold BookService.EndsInEvents
    rw [hreceived]
    exact hends
  · obtain rfl : feed = other := Option.some.inj (hsome.symm.trans hother)
    rw [sinkCalls_append, List.map_append, sinkCalls_sinkActions, hw.heard _ _ _ hself, hevents]
  · have hne : feed ≠ other := by
      rintro rfl
      exact hother hsome
    rw [sinkCalls_append, sinkCalls_sinkActions_other hne, List.append_nil]
  · rw [hreceived]
    exact (hw.unheard other hle).2

/-- The book thread takes a step. -/
theorem advance (hw : h.Wired actions) {books : BookService} (hstep : BookService.ThreadStep h.books books) :
    ({ h with books } : FeedHandler).Wired (actions ++ [.advance]) := by
  have hlength : books.feeds.length = h.books.feeds.length := by
    cases hstep with
    | pop => exact List.length_set
    | _ => rfl
  have hstopped : books.stopped = h.books.stopped := by cases hstep <;> rfl
  have hcalls : ∀ feed, sinkCalls feed (actions ++ [.advance]) = sinkCalls feed actions := by
    intro feed
    rw [sinkCalls_append]
    exact List.append_nil _
  have hreceived : ∀ feed, h.books.feeds.length ≤ feed → callsOf feed books.received = callsOf feed h.books.received := by
    intro feed hle
    cases hstep with
    | @pop stopping index handled total taken entry ring hthread hfeed hpop =>
      have hlt : index < h.books.feeds.length := (List.getElem?_eq_some_iff.1 hfeed).1
      simp only [BookService.handed]
      rw [callsOf_append, callsOf_tagged, if_neg (by omega), List.append_nil]
    | _ => rfl
  refine ⟨hw.inv.advance hstep, fun hgoing => (hw.ends (hstopped.symm.trans hgoing)).advance hstep, fun j c feed hr => ?_,
    fun j c feed hr => ?_, hw.alone, fun feed hle => ?_, hw.added.trans hlength.symm, hw.settled⟩
  · rw [hcalls]
    exact hw.heard j c feed hr
  · simp only [hlength]
    exact hw.within j c feed hr
  · simp only [hlength] at hle
    rw [hcalls, hreceived feed hle]
    exact hw.unheard feed hle

/-- `Stop` is called, and returns once the thread has. -/
theorem stop (hw : h.Wired actions) (hgoing : h.books.stop = false) :
    ({ h with books := { h.books with stop := true } } : FeedHandler).Wired (actions ++ [.stop]) := by
  have hstep : h.books.step .stop = some { h.books with stop := true } := by simp [BookService.step, hgoing]
  have hcalls : ∀ feed, sinkCalls feed (actions ++ [.stop]) = sinkCalls feed actions := by
    intro feed
    rw [sinkCalls_append]
    exact List.append_nil _
  refine ⟨hw.inv.step hstep, hw.ends, fun j c feed hr => ?_, hw.within, hw.alone, fun feed hle => ?_, hw.added, hw.settled⟩
  · rw [hcalls]
    exact hw.heard j c feed hr
  · rw [hcalls]
    exact hw.unheard feed hle

theorem join (hw : h.Wired actions) (hthread : h.books.thread = .returned) (hgoing : h.books.stopped = false) :
    ({ h with books := h.books.join } : FeedHandler).Wired (actions ++ [.join]) := by
  have hlength : h.books.join.feeds.length = h.books.feeds.length := List.length_map _
  have hcalls : ∀ feed, sinkCalls feed (actions ++ [.join]) = sinkCalls feed actions := by
    intro feed
    rw [sinkCalls_append]
    exact List.append_nil _
  refine ⟨hw.inv.join hthread hgoing, (fun hnot => by cases hnot), fun j c feed hr => ?_, fun j c feed hr => ?_, hw.alone,
    fun feed hle => ?_, hw.added.trans hlength.symm, hw.settled⟩
  · rw [hcalls]
    exact hw.heard j c feed hr
  · simp only [hlength]
    exact hw.within j c feed hr
  · simp only [hlength] at hle
    obtain ⟨hsinks, hnone⟩ := hw.unheard feed hle
    have htrailing := callsOf_zipIdx feed (·.reportTrailingDrops.2) h.books.feeds 0
    rw [if_pos (Nat.zero_le feed), Nat.sub_zero, List.getElem?_eq_none hle] at htrailing
    rw [hcalls]
    simp only [BookService.join, callsOf_append, hnone, htrailing]
    exact ⟨hsinks, rfl⟩

/-- A connection gets its feed before it starts. -/
theorem addConnection (hw : h.Wired actions) (hsilent : capture.session.sinkCalls = [])
    (hthread : h.books.thread = .waiting) (hgoing : h.books.stopped = false) {settings : BookSettings}
    (hsettings : resolveBookSettings capture.entry (if capture.entry.exchange = .kraken then some h.rest else none) =
      .ok settings) :
    ({ h.setCapture i { capture with running := true, feed := some h.books.feeds.length } with
        added := h.added ++ [settings], books := h.books.addConnection } : FeedHandler).Wired actions := by
  obtain ⟨hsinks, hcalls⟩ := hw.unheard h.books.feeds.length (Nat.le_refl _)
  have hlength : h.books.addConnection.feeds.length = h.books.feeds.length + 1 := List.length_append
  have hold : ∀ j c feed, ({ h.setCapture i { capture with running := true, feed := some h.books.feeds.length } with
      added := h.added ++ [settings], books := h.books.addConnection } : FeedHandler).Routes j c feed →
      (i = j ∧ feed = h.books.feeds.length ∧ c.session = capture.session ∧ c.entry = capture.entry) ∨
        (i ≠ j ∧ h.Routes j c feed) := by
    rintro j c feed ⟨hc, hf⟩
    rcases Machine.getElem?_set_cases hc with ⟨rfl, rfl⟩ | ⟨hne, hc⟩
    · exact .inl ⟨rfl, (Option.some.inj hf).symm, rfl, rfl⟩
    · exact .inr ⟨hne, hc, hf⟩
  refine ⟨hw.inv.addConnection hthread hgoing ?_ hcalls, hw.ends, fun j c feed hr => ?_, fun j c feed hr => ?_,
    fun j j' c c' feed hr hr' => ?_, fun feed hle => ?_, ?_, fun j c feed hr => ?_⟩
  · rw [offersTo, hsinks, List.map_nil]
  · rcases hold j c feed hr with ⟨-, rfl, hsession, -⟩ | ⟨-, hr⟩
    · rw [hsinks, hsession, hsilent, List.map_nil]
    · exact hw.heard _ _ _ hr
  · simp only [hlength]
    rcases hold j c feed hr with ⟨-, rfl, -, -⟩ | ⟨-, hr⟩
    · exact Nat.lt_succ_self _
    · exact Nat.lt_succ_of_lt (hw.within _ _ _ hr)
  · rcases hold j c feed hr with ⟨rfl, rfl, -, -⟩ | ⟨-, hr₀⟩
    · rcases hold j' c' _ hr' with ⟨rfl, -, -, -⟩ | ⟨-, hr₁⟩
      · rfl
      · exact absurd (hw.within _ _ _ hr₁) (Nat.lt_irrefl _)
    · rcases hold j' c' feed hr' with ⟨rfl, rfl, -, -⟩ | ⟨-, hr₁⟩
      · exact absurd (hw.within _ _ _ hr₀) (Nat.lt_irrefl _)
      · exact hw.alone _ _ _ _ _ hr₀ hr₁
  · simp only [hlength] at hle
    exact hw.unheard feed (by omega)
  · simp only [hlength, List.length_append, List.length_singleton, hw.added]
  · rcases hold j c feed hr with ⟨-, rfl, -, hentry⟩ | ⟨-, hr⟩
    · refine ⟨settings, ?_, by rw [hentry]; exact hsettings⟩
      simp only [← hw.added, List.getElem?_concat_length]
    · obtain ⟨settings', hadded, hresolved⟩ := hw.settled _ _ _ hr
      refine ⟨settings', ?_, hresolved⟩
      simp only [List.getElem?_append_left (List.getElem?_eq_some_iff.1 hadded).1, hadded]

end Wired

/-- The client's threads have ended and nothing is open any more. -/
structure Done (capture : ClientCapture) : Prop where
  running : capture.running = false
  quiet : capture.session.Quiet

/-- The first captures. -/
def Before (h : FeedHandler) (count : ℕ) (property : ClientCapture → Prop) : Prop :=
  ∀ (i : ℕ) (capture : ClientCapture), i < count → h.captures[i]? = some capture → property capture

/-- The books have not been stopped. -/
def Open (h : FeedHandler) : Prop := h.books.stop = false ∧ h.books.stopped = false

/-- A connection that `StartAll` has still to start. -/
structure Unstarted (capture : ClientCapture) : Prop where
  running : capture.running = false
  calls : capture.session.sinkCalls = []

/-- Where the main thread is tells what has been wound down. -/
def Phase (h : FeedHandler) : MainThread → Prop
  | .starting rest =>
    h.Open ∧ h.books.thread = .waiting ∧ h.booksRunning = false ∧ rest.Nodup ∧
      ∀ i ∈ rest, ∃ capture, h.captures[i]? = some capture ∧ Unstarted capture
  | .polling _ | .asking | .sleeping => h.Open ∧ (h.booksRunning = true ∨ h.books.feeds = [])
  | .requesting index =>
    h.Open ∧ (h.booksRunning = true ∨ h.books.feeds = []) ∧ h.Before index (·.stopRequested = true)
  | .joining index =>
    h.Open ∧ (h.booksRunning = true ∨ h.books.feeds = []) ∧ h.Before h.captures.length (·.stopRequested = true) ∧
      h.Before index Done
  | .closing index =>
    h.Open ∧ (h.booksRunning = true ∨ h.books.feeds = []) ∧ h.Before h.captures.length (·.stopRequested = true) ∧
      h.Before index Done ∧ ∃ capture, h.captures[index]? = some capture ∧ capture.running = false ∧
        ∃ flushed, capture.session.waiting = some (.close flushed)
  | .draining =>
    h.books.stop = true ∧ h.books.stopped = false ∧ h.booksRunning = true ∧ h.Before h.captures.length Done
  | .exited code =>
    (h.books.stopped = true ∨ h.books.feeds = []) ∧ h.Before h.captures.length Done ∧ code = h.exitCode

/-- Every session has gone through a run of its own. -/
def OwnRuns (J : JournalPlatform) (h : FeedHandler) : Prop :=
  ∀ (i : ℕ) (capture : ClientCapture), h.captures[i]? = some capture →
    ∃ config actions, config.journalMode = .threaded ∧
      (CaptureSession.start config).run J actions = some capture.session

structure Sound (J : JournalPlatform) (h : FeedHandler) : Prop where
  wired : ∃ actions, h.Wired actions
  runs : h.OwnRuns J
  phase : h.Phase h.main

/-- What the main thread relies on of a capture stays. -/
structure Keeps (capture capture' : ClientCapture) : Prop where
  stopRequested : capture.stopRequested = true → capture'.stopRequested = true
  done : Done capture → Done capture'
  unstarted : Unstarted capture → Unstarted capture'
  closing : ∀ flushed, capture.running = false → capture.session.waiting = some (.close flushed) →
    capture'.running = false ∧ capture'.session.waiting = some (.close flushed)

theorem Keeps.refl (capture : ClientCapture) : Keeps capture capture := ⟨id, id, id, fun _ hr hw => ⟨hr, hw⟩⟩

theorem Keeps.of_running {capture capture' : ClientCapture} (hrunning : capture.running = true)
    (hstop : capture.stopRequested = true → capture'.stopRequested = true) : Keeps capture capture' := by
  refine ⟨hstop, fun hdone => ?_, fun hunstarted => ?_, fun _ hr _ => ?_⟩
  · rw [hdone.running] at hrunning
    cases hrunning
  · rw [hunstarted.running] at hrunning
    cases hrunning
  · rw [hr] at hrunning
    cases hrunning

/-- The captures after a step of anyone but the main thread. -/
structure Carries (h h' : FeedHandler) : Prop where
  length : h'.captures.length = h.captures.length
  back : ∀ (j : ℕ) (c' : ClientCapture), h'.captures[j]? = some c' → ∃ c, h.captures[j]? = some c ∧ Keeps c c'

namespace Carries

theorem set {i : ℕ} {capture capture' : ClientCapture} (hcaptures : h'.captures = h.captures.set i capture')
    (hcapture : h.captures[i]? = some capture) (hkeeps : Keeps capture capture') : h.Carries h' := by
  refine ⟨by rw [hcaptures, List.length_set], fun j c' hc' => ?_⟩
  rw [hcaptures] at hc'
  rcases Machine.getElem?_set_cases hc' with ⟨rfl, rfl⟩ | ⟨-, hc'⟩
  · exact ⟨capture, hcapture, hkeeps⟩
  · exact ⟨c', hc', Keeps.refl c'⟩

theorem same (hcaptures : h'.captures = h.captures) : h.Carries h' := by
  refine ⟨by rw [hcaptures], fun j c' hc' => ?_⟩
  rw [hcaptures] at hc'
  exact ⟨c', hc', Keeps.refl c'⟩

theorem forth (hcarries : h.Carries h') {j : ℕ} {c : ClientCapture} (hc : h.captures[j]? = some c) :
    ∃ c', h'.captures[j]? = some c' ∧ Keeps c c' := by
  have hlt : j < h'.captures.length := by
    rw [hcarries.length]
    exact (List.getElem?_eq_some_iff.1 hc).1
  obtain ⟨c₀, hc₀, hkeeps⟩ := hcarries.back j _ (List.getElem?_eq_getElem hlt)
  rw [hc] at hc₀
  cases hc₀
  exact ⟨_, List.getElem?_eq_getElem hlt, hkeeps⟩

theorem before (hcarries : h.Carries h') {count : ℕ} {property : ClientCapture → Prop}
    (hproperty : ∀ c c', Keeps c c' → property c → property c') (hbefore : h.Before count property) :
    h'.Before count property := by
  intro j c' hj hc'
  obtain ⟨c, hc, hkeeps⟩ := hcarries.back j c' hc'
  exact hproperty c c' hkeeps (hbefore j c hj hc)

/-- Where the main thread stands still, it stands where it stood. -/
theorem phase (hcarries : h.Carries h') (hstop : h'.books.stop = h.books.stop)
    (hstopped : h'.books.stopped = h.books.stopped)
    (hthread : h.booksRunning = false → h'.books.thread = h.books.thread)
    (hfeeds : h'.books.feeds.length = h.books.feeds.length) (hrunning : h'.booksRunning = h.booksRunning)
    (hfatal : h'.fatalId = h.fatalId) {main : MainThread} (hphase : h.Phase main) : h'.Phase main := by
  have hopen : h.Open → h'.Open := by
    rintro ⟨hgoing, hnot⟩
    exact ⟨hstop.trans hgoing, hstopped.trans hnot⟩
  have hempty : h.books.feeds = [] → h'.books.feeds = [] := by
    intro hnil
    rw [← List.length_eq_zero_iff, hfeeds, hnil]
    rfl
  have hbooks : h.booksRunning = true ∨ h.books.feeds = [] → h'.booksRunning = true ∨ h'.books.feeds = [] :=
    Or.imp (fun hyes => hrunning.trans hyes) hempty
  have hdone : ∀ {count}, h.Before count Done → h'.Before count Done :=
    hcarries.before fun _ _ hkeeps => hkeeps.done
  have hrequested : ∀ {count}, h.Before count (·.stopRequested = true) → h'.Before count (·.stopRequested = true) :=
    hcarries.before fun _ _ hkeeps => hkeeps.stopRequested
  cases main with
  | starting rest =>
    obtain ⟨ho, hw, hr, hnodup, hrest⟩ := hphase
    refine ⟨hopen ho, (hthread hr).trans hw, hrunning.trans hr, hnodup, fun i hi => ?_⟩
    obtain ⟨c, hc, hunstarted⟩ := hrest i hi
    obtain ⟨c', hc', hkeeps⟩ := hcarries.forth hc
    exact ⟨c', hc', hkeeps.unstarted hunstarted⟩
  | polling index => exact hphase.imp hopen hbooks
  | asking => exact hphase.imp hopen hbooks
  | sleeping => exact hphase.imp hopen hbooks
  | requesting index => exact hphase.imp hopen (And.imp hbooks hrequested)
  | joining index =>
    obtain ⟨ho, hb, hr, hd⟩ := hphase
    refine ⟨hopen ho, hbooks hb, ?_, hdone hd⟩
    rw [hcarries.length]
    exact hrequested hr
  | closing index =>
    obtain ⟨ho, hb, hr, hd, c, hc, hnot, flushed, hw⟩ := hphase
    refine ⟨hopen ho, hbooks hb, ?_, hdone hd, ?_⟩
    · rw [hcarries.length]
      exact hrequested hr
    · obtain ⟨c', hc', hkeeps⟩ := hcarries.forth hc
      obtain ⟨hnot', hw'⟩ := hkeeps.closing flushed hnot hw
      exact ⟨c', hc', hnot', flushed, hw'⟩
  | draining =>
    obtain ⟨hs, hnot, hr, hd⟩ := hphase
    refine ⟨hstop.trans hs, hstopped.trans hnot, hrunning.trans hr, ?_⟩
    rw [hcarries.length]
    exact hdone hd
  | exited code =>
    obtain ⟨hs, hd, hcode⟩ := hphase
    refine ⟨hs.imp (fun hyes => hstopped.trans hyes) hempty, ?_, by rw [exitCode, hfatal]; exact hcode⟩
    rw [hcarries.length]
    exact hdone hd

end Carries

/-- A connection whose threads run keeps the books open. -/
theorem Phase.open_of_running {main : MainThread} (hphase : h.Phase main) {i : ℕ} {capture : ClientCapture}
    (hcapture : h.captures[i]? = some capture) (hrunning : capture.running = true) : h.books.stop = false := by
  have hlt : i < h.captures.length := (List.getElem?_eq_some_iff.1 hcapture).1
  have hnot : ¬ h.Before h.captures.length Done := by
    intro hdone
    have := (hdone i capture hlt hcapture).running
    rw [hrunning] at this
    cases this
  cases main with
  | draining => exact absurd hphase.2.2.2 hnot
  | exited code => exact absurd hphase.2.1 hnot
  | starting rest => exact hphase.1.1
  | polling index => exact hphase.1.1
  | asking => exact hphase.1.1
  | sleeping => exact hphase.1.1
  | requesting index => exact hphase.1.1
  | joining index => exact hphase.1.1
  | closing index => exact hphase.1.1

/-- What a step of a session leaves of the process, with the session's own step. -/
structure SessionStep (J : JournalPlatform) (h : FeedHandler) (i : ℕ) (capture : ClientCapture) (action : SessionAction)
    (session : CaptureSession) (h' : FeedHandler) : Prop where
  step : CaptureSession.Step J capture.session action session
  wired : ∃ actions, h'.Wired actions
  runs : h'.OwnRuns J
  captures : h'.captures = h.captures.set i { capture with session }
  stop : h'.books.stop = h.books.stop
  stopped : h'.books.stopped = h.books.stopped
  thread : h'.books.thread = h.books.thread
  feeds : h'.books.feeds.length = h.books.feeds.length
  booksRunning : h'.booksRunning = h.booksRunning
  fatalId : h'.fatalId = h.fatalId
  main : h'.main = h.main

theorem OwnRuns.set (hruns : h.OwnRuns J) {i : ℕ} {capture' : ClientCapture}
    (hcaptures : h'.captures = h.captures.set i capture')
    (hown : ∃ config actions, config.journalMode = .threaded ∧
      (CaptureSession.start config).run J actions = some capture'.session) : h'.OwnRuns J := by
  intro j c hc
  rw [hcaptures] at hc
  rcases Machine.getElem?_set_cases hc with ⟨rfl, rfl⟩ | ⟨-, hc⟩
  · exact hown
  · exact hruns j c hc

theorem OwnRuns.snoc {capture : ClientCapture} {action : SessionAction} {session : CaptureSession}
    (hown : ∃ config actions, config.journalMode = .threaded ∧
      (CaptureSession.start config).run J actions = some capture.session)
    (hstep : capture.session.step J action = some session) :
    ∃ config actions, config.journalMode = .threaded ∧ (CaptureSession.start config).run J actions = some session := by
  obtain ⟨config, actions, hmode, hrun⟩ := hown
  exact ⟨config, actions ++ [action], hmode, (Machine.run_snoc_eq_some _).2 ⟨_, hrun, hstep⟩⟩

theorem stepSession_spec (hwired : ∃ actions, h.Wired actions) (hruns : h.OwnRuns J) {i : ℕ} {capture : ClientCapture}
    (hcapture : h.captures[i]? = some capture) {action : SessionAction} {room : Bool}
    (hmay : h.books.stop = false ∨ ∃ written, action = .journal written)
    (hnext : h.stepSession J i capture action room = some h') :
    ∃ session, SessionStep J h i capture action session h' := by
  obtain ⟨actions, hw⟩ := hwired
  obtain ⟨session, hstep, rfl⟩ := Option.map_eq_some_iff.1 hnext
  have hown := hruns i capture hcapture
  obtain ⟨config, acts, hmode, hrun⟩ := hown
  have hinversion := CaptureSession.step_inversion (CaptureSession.run_mode hrun) hstep
  have hnow : ∃ config actions, config.journalMode = .threaded ∧
      (CaptureSession.start config).run J actions = some ({ capture with session } : ClientCapture).session :=
    OwnRuns.snoc ⟨config, acts, hmode, hrun⟩ hstep
  have hevents := List.prefix_iff_eq_append.1 hinversion.sinkCalls
  set events := session.sinkCalls.drop capture.session.sinkCalls.length with hdrop
  obtain ⟨hlength, -, hstop, hstopped, hthread⟩ := h.books.sinkAll_kept capture.feed events room
  refine ⟨session, hinversion, ?_, hruns.set rfl hnow, rfl, hstop, hstopped, hthread, hlength, rfl, rfl, rfl⟩
  have hquiet : (capture.feed.isSome = true → session.sinkCalls = capture.session.sinkCalls) →
      h.books.sinkAll capture.feed events room = h.books → ∃ actions,
        ({ h.setCapture i { capture with session } with books := h.books.sinkAll capture.feed events room } :
          FeedHandler).Wired actions := by
    intro hcalls hbooks
    rw [hbooks]
    exact ⟨actions, hw.setCapture hcapture rfl rfl hcalls⟩
  rcases Option.eq_none_or_eq_some capture.feed with hfeed | ⟨feed, hfeed⟩
  · exact hquiet (fun hsome => by rw [hfeed] at hsome; cases hsome) (by rw [hfeed]; rfl)
  · rcases hmay with hgoing | ⟨written, rfl⟩
    · exact ⟨_, hw.sinkAll hcapture { capture with session } rfl rfl hfeed hevents.symm room hgoing⟩
    · cases hinversion with
      | journal written journal hjournal =>
        have hnone : events = [] := by rw [hdrop]; exact List.drop_length
        exact hquiet (fun _ => rfl) (by rw [hnone, hfeed]; rfl)

/-- A journal thread leaves a capture as the main thread knows it. -/
theorem Keeps.journal {capture : ClientCapture} {journal : JournalThread} :
    Keeps capture { capture with session := { capture.session with journal } } := by
  refine ⟨id, fun hdone => ⟨hdone.running, ?_⟩, fun hun => ⟨hun.running, hun.calls⟩, fun _ hr hw => ⟨hr, hw⟩⟩
  exact ⟨hdone.quiet.writer, hdone.quiet.journalOpen, hdone.quiet.announced, hdone.quiet.waiting⟩

theorem Sound.session (hsound : h.Sound J) {i : ℕ} {action : SessionAction} {room : Bool}
    (hnext : h.step J (.session i action room) = some h') : h'.Sound J := by
  obtain ⟨capture, hcapture, hnext⟩ := Option.bind_eq_some_iff.1 hnext
  split_ifs at hnext with hmay
  have hgoing : h.books.stop = false ∨ ∃ written, action = .journal written := by
    cases action with
    | journal written => exact .inr ⟨written, rfl⟩
    | call call => exact .inl (hsound.phase.open_of_running hcapture hmay)
    | resume => exact .inl (hsound.phase.open_of_running hcapture hmay)
  obtain ⟨session, hspec⟩ := stepSession_spec hsound.wired hsound.runs hcapture hgoing hnext
  have hkeeps : Keeps capture { capture with session } := by
    cases action with
    | call call => exact Keeps.of_running hmay id
    | resume => exact Keeps.of_running hmay id
    | journal written =>
      cases hspec.step with
      | journal written journal hjournal => exact Keeps.journal
  refine ⟨hspec.wired, hspec.runs, ?_⟩
  rw [hspec.main]
  exact (Carries.set hspec.captures hcapture hkeeps).phase hspec.stop hspec.stopped (fun _ => hspec.thread) hspec.feeds
    hspec.booksRunning hspec.fatalId hsound.phase

theorem Sound.latchFatal (hsound : h.Sound J) {i : ℕ} (hnext : h.step J (.latchFatal i) = some h') : h'.Sound J := by
  obtain ⟨capture, hcapture, rfl⟩ := Option.map_eq_some_iff.1 hnext
  obtain ⟨actions, hw⟩ := hsound.wired
  have hkeeps : Keeps capture { capture with fatal := true } :=
    ⟨id, fun hdone => ⟨hdone.running, hdone.quiet⟩, fun hun => ⟨hun.running, hun.calls⟩,
      fun _ hr hwaits => ⟨hr, hwaits⟩⟩
  have hcarries : h.Carries (h.setCapture i { capture with fatal := true }) := Carries.set rfl hcapture hkeeps
  exact ⟨⟨actions, hw.setCapture hcapture rfl rfl fun _ => rfl⟩, hsound.runs.set rfl (hsound.runs i capture hcapture),
    hcarries.phase rfl rfl (fun _ => rfl) rfl rfl rfl hsound.phase⟩

theorem Sound.ended (hsound : h.Sound J) {i : ℕ} (hnext : h.step J (.ended i) = some h') : h'.Sound J := by
  obtain ⟨capture, hcapture, hnext⟩ := Option.bind_eq_some_iff.1 hnext
  split_ifs at hnext with hmay
  cases hnext
  obtain ⟨actions, hw⟩ := hsound.wired
  simp only [Bool.and_eq_true] at hmay
  have hkeeps : Keeps capture { capture with running := false } := Keeps.of_running hmay.1.1 id
  have hcarries : h.Carries (h.setCapture i { capture with running := false }) := Carries.set rfl hcapture hkeeps
  exact ⟨⟨actions, hw.setCapture hcapture rfl rfl fun _ => rfl⟩, hsound.runs.set rfl (hsound.runs i capture hcapture),
    hcarries.phase rfl rfl (fun _ => rfl) rfl rfl rfl hsound.phase⟩

theorem Sound.books (hsound : h.Sound J) (hnext : h.step J .books = some h') : h'.Sound J := by
  simp only [step] at hnext
  split_ifs at hnext with hrunning
  obtain ⟨books, hadvance, rfl⟩ := Option.map_eq_some_iff.1 hnext
  obtain ⟨actions, hw⟩ := hsound.wired
  have hstep := BookService.advance_cases hadvance
  have hstop : books.stop = h.books.stop ∧ books.stopped = h.books.stopped := by cases hstep <;> exact ⟨rfl, rfl⟩
  have hlength : books.feeds.length = h.books.feeds.length := by
    cases hstep with
    | pop => exact List.length_set
    | _ => rfl
  have hcarries : h.Carries { h with books } := Carries.same rfl
  refine ⟨⟨_, hw.advance hstep⟩, hsound.runs, ?_⟩
  refine hcarries.phase hstop.1 hstop.2 (fun hnot => ?_) hlength rfl rfl hsound.phase
  rw [hrunning] at hnot
  cases hnot

theorem before_set {i : ℕ} {capture' : ClientCapture} {property : ClientCapture → Prop}
    (hcaptures : h'.captures = h.captures.set i capture') (hbefore : h.Before i property) (hnow : property capture') :
    h'.Before (i + 1) property := by
  intro j c hj hc
  rw [hcaptures] at hc
  rcases Machine.getElem?_set_cases hc with ⟨-, rfl⟩ | ⟨hne, hc⟩
  · exact hnow
  · exact hbefore j c (by omega) hc

theorem before_all {i : ℕ} {property : ClientCapture → Prop} (hend : h.captures[i]? = none) (hbefore : h.Before i property) :
    h.Before h.captures.length property := by
  intro j c hj hc
  have hle := List.getElem?_eq_none_iff.1 hend
  exact hbefore j c (Nat.lt_of_lt_of_le hj hle) hc

section Main

variable {shouldStop flushed : Bool}

theorem Sound.started (hsound : h.Sound J) {i : ℕ} {rest : List ℕ} (hplace : h.main = .starting (i :: rest))
    {capture : ClientCapture} (hcapture : h.captures[i]? = some capture) :
    ({ h.liveBooksHook i capture with main := .starting rest } : FeedHandler).Sound J := by
  obtain ⟨⟨actions, hw⟩, hruns, hphase⟩ := hsound
  rw [hplace] at hphase
  obtain ⟨hopen, hthread, hidle, hnodup, hrest⟩ := hphase
  obtain ⟨c, hc, hunstarted⟩ := hrest i List.mem_cons_self
  rw [hcapture] at hc
  cases hc
  rw [List.nodup_cons] at hnodup
  have hothers : ∀ capture' j, j ∈ rest → ∃ c, (h.captures.set i capture')[j]? = some c ∧ Unstarted c := by
    intro capture' j hj
    obtain ⟨c, hc, hun⟩ := hrest j (List.mem_cons_of_mem _ hj)
    have hne : i ≠ j := by
      rintro rfl
      exact hnodup.1 hj
    exact ⟨c, by rw [List.getElem?_set_ne hne]; exact hc, hun⟩
  have hown := hruns i capture hcapture
  unfold liveBooksHook
  simp only
  split
  · refine ⟨⟨actions, ?_⟩, hruns.set rfl hown, hopen, hthread, hidle, hnodup.2, hothers _⟩
    have hnext : (h.setCapture i { capture with running := true }).Wired actions :=
      hw.setCapture hcapture rfl rfl fun _ => rfl
    exact hnext.keep rfl rfl rfl rfl
  · next settings hresolved =>
    have hok : resolveBookSettings capture.entry (if capture.entry.exchange = .kraken then some h.rest else none) =
        .ok settings := by
      generalize resolveBookSettings capture.entry _ = resolved at hresolved ⊢
      cases hbooks : h.orderBooks with
      | false =>
        rw [hbooks] at hresolved
        cases hresolved
      | true =>
        rw [hbooks, if_pos rfl] at hresolved
        cases resolved with
        | error error => cases hresolved
        | ok settings =>
          cases hresolved
          rfl
    refine ⟨⟨actions, ?_⟩, hruns.set rfl hown, hopen, hthread, hidle, hnodup.2, hothers _⟩
    exact (hw.addConnection hunstarted.calls hthread hopen.2 hok).keep rfl rfl rfl rfl

theorem Sound.requested (hsound : h.Sound J) {i : ℕ} (hplace : h.main = .requesting i) {capture : ClientCapture}
    (hcapture : h.captures[i]? = some capture) :
    ({ h.setCapture i { capture with stopRequested := true } with main := .requesting (i + 1) } : FeedHandler).Sound J := by
  obtain ⟨⟨actions, hw⟩, hruns, hphase⟩ := hsound
  rw [hplace] at hphase
  obtain ⟨hopen, hbooks, hrequested⟩ := hphase
  have hnext : (h.setCapture i { capture with stopRequested := true }).Wired actions :=
    hw.setCapture hcapture rfl rfl fun _ => rfl
  exact ⟨⟨actions, hnext.keep rfl rfl rfl rfl⟩, hruns.set rfl (hruns i capture hcapture), hopen, hbooks,
    before_set rfl hrequested rfl⟩

theorem Sound.stopBooks (hsound : h.Sound J) {i : ℕ} (hplace : h.main = .joining i) (hend : h.captures[i]? = none) :
    h.stopBooks.Sound J := by
  obtain ⟨⟨actions, hw⟩, hruns, hphase⟩ := hsound
  rw [hplace] at hphase
  obtain ⟨hopen, hbooks, -, hdone⟩ := hphase
  have hall := before_all hend hdone
  unfold FeedHandler.stopBooks
  split_ifs with hfeeds
  · exact ⟨⟨actions, hw.keep rfl rfl rfl rfl⟩, hruns, .inr hfeeds, hall, rfl⟩
  · exact ⟨⟨_, (hw.stop hopen.1).keep rfl rfl rfl rfl⟩, hruns, rfl, hopen.2, hbooks.resolve_right hfeeds, hall⟩

/-- A close that does not wait leaves a quiet session. -/
theorem quiet_of_close {s s' : CaptureSession} {action : SessionAction} (hstep : CaptureSession.Step J s action s')
    (hclose : action = .call (.close flushed) ∨ action = .resume ∧ s.waiting = some (.close flushed))
    (hdone : s'.waiting = none) : s'.Quiet := by
  have hreturns : ∀ {q : CaptureSession}, q.Quiet → (q.returns .closed).Quiet :=
    fun hquiet => ⟨hquiet.writer, hquiet.journalOpen, hquiet.announced, hquiet.waiting⟩
  rcases hclose with rfl | ⟨rfl, hwaiting⟩
  · cases hstep with
    | wait call hcall hnone hopen => cases hdone
    | close call flushed' hcall hnone hopen => exact hreturns (s.ended_quiet flushed' 0)
  · cases hstep with
    | resume call records hcall hwaits hsignal hopen =>
      rw [hwaiting] at hwaits
      cases hwaits
      exact hreturns (s.ended_quiet true records)

theorem Sound.closed (hsound : h.Sound J) {i : ℕ} (hplace : h.main = .joining i) {capture : ClientCapture}
    (hcapture : h.captures[i]? = some capture) (hended : capture.running = false)
    (hnext : h.stepSession J i capture (.call (.close flushed)) true = some h') :
    ({ h' with
        main := if (h'.captures[i]?).any (·.session.waiting.isSome) then .closing i else .joining (i + 1) } :
      FeedHandler).Sound J := by
  have hphase := hsound.phase
  rw [hplace] at hphase
  obtain ⟨hopen, hbooks, hrequested, hdone⟩ := hphase
  obtain ⟨session, hspec⟩ := stepSession_spec hsound.wired hsound.runs hcapture (.inl hopen.1) hnext
  obtain ⟨actions, hw⟩ := hspec.wired
  have hcapture' : h'.captures[i]? = some { capture with session } := by
    rw [hspec.captures]
    exact Machine.getElem?_set_of_some hcapture
  have hopen' : h'.Open := ⟨hspec.stop.trans hopen.1, hspec.stopped.trans hopen.2⟩
  have hbooks' : h'.booksRunning = true ∨ h'.books.feeds = [] := by
    refine hbooks.imp (fun hyes => hspec.booksRunning.trans hyes) fun hnil => ?_
    rw [← List.length_eq_zero_iff, hspec.feeds, hnil]
    rfl
  have hlength : h'.captures.length = h.captures.length := by rw [hspec.captures, List.length_set]
  have hrequested' : h'.Before h'.captures.length (·.stopRequested = true) := by
    rw [hlength]
    intro j c hj hc
    rw [hspec.captures] at hc
    rcases Machine.getElem?_set_cases hc with ⟨rfl, rfl⟩ | ⟨-, hc⟩
    · exact hrequested i capture hj hcapture
    · exact hrequested j c hj hc
  refine ⟨⟨actions, hw.keep rfl rfl rfl rfl⟩, hspec.runs, ?_⟩
  simp only [hcapture', Option.any_some]
  cases hwaiting : session.waiting with
  | none =>
    have hquiet := quiet_of_close hspec.step (.inl rfl) hwaiting
    exact ⟨hopen', hbooks', hrequested', before_set hspec.captures hdone ⟨hended, hquiet⟩⟩
  | some call =>
    have hsame : session.waiting = some (.close flushed) := by
      cases hspec.step with
      | wait call hcall hnone hopen => rfl
      | close call flushed' hcall hnone hopen =>
        rw [(capture.session.ended_quiet flushed' 0).goOn_waiting] at hwaiting
        cases hwaiting
    refine ⟨hopen', hbooks', hrequested', fun j c hj hc => ?_, _, hcapture', hended, flushed, hsame⟩
    rw [hspec.captures, List.getElem?_set_ne (by omega)] at hc
    exact hdone j c hj hc

theorem Sound.closeReturned (hsound : h.Sound J) {i : ℕ} (hplace : h.main = .closing i) {capture : ClientCapture}
    (hcapture : h.captures[i]? = some capture) (hnext : h.stepSession J i capture .resume true = some h') :
    ({ h' with main := .joining (i + 1) } : FeedHandler).Sound J := by
  have hphase := hsound.phase
  rw [hplace] at hphase
  obtain ⟨hopen, hbooks, hrequested, hdone, c, hc, hended, flushed, hwaiting⟩ := hphase
  rw [hcapture] at hc
  cases hc
  obtain ⟨session, hspec⟩ := stepSession_spec hsound.wired hsound.runs hcapture (.inl hopen.1) hnext
  obtain ⟨actions, hw⟩ := hspec.wired
  have hquiet : session.Quiet := by
    refine quiet_of_close hspec.step (.inr ⟨rfl, hwaiting⟩) ?_
    cases hspec.step with
    | resume call records hcall hwaits hsignal hopen => exact (capture.session.ended_quiet true records).goOn_waiting _
  refine ⟨⟨actions, hw.keep rfl rfl rfl rfl⟩, hspec.runs, ⟨hspec.stop.trans hopen.1, hspec.stopped.trans hopen.2⟩, ?_, ?_,
    before_set hspec.captures hdone ⟨hended, hquiet⟩⟩
  · refine hbooks.imp (fun hyes => hspec.booksRunning.trans hyes) fun hnil => ?_
    change h'.books.feeds = []
    rw [← List.length_eq_zero_iff, hspec.feeds, hnil]
    rfl
  · intro j c hj hc
    change h'.captures[j]? = some c at hc
    change j < h'.captures.length at hj
    rw [hspec.captures, List.length_set] at hj
    rw [hspec.captures] at hc
    rcases Machine.getElem?_set_cases hc with ⟨rfl, rfl⟩ | ⟨-, hc⟩
    · exact hrequested i capture hj hcapture
    · exact hrequested j c hj hc

/-- What the main thread can do. -/
inductive MainStep (J : JournalPlatform) (shouldStop flushed : Bool) (h : FeedHandler) : FeedHandler → Prop where
  | allStarted (hplace : h.main = .starting []) :
      MainStep J shouldStop flushed h { h with booksRunning := h.books.feeds ≠ [], main := .polling 0 }
  | started (i : ℕ) (rest : List ℕ) (capture : ClientCapture) (hplace : h.main = .starting (i :: rest))
      (hcapture : h.captures[i]? = some capture) :
      MainStep J shouldStop flushed h { h.liveBooksHook i capture with main := .starting rest }
  | polled (i : ℕ) (hplace : h.main = .polling i) (hend : h.captures[i]? = none) :
      MainStep J shouldStop flushed h { h with main := .asking }
  | failed (i : ℕ) (capture : ClientCapture) (hplace : h.main = .polling i) (hcapture : h.captures[i]? = some capture)
      (hfatal : capture.fatal = true) :
      MainStep J shouldStop flushed h { h with fatalId := capture.entry.id, main := .requesting 0 }
  | passed (i : ℕ) (capture : ClientCapture) (hplace : h.main = .polling i) (hcapture : h.captures[i]? = some capture)
      (hfatal : capture.fatal = false) : MainStep J shouldStop flushed h { h with main := .polling (i + 1) }
  | asked (hplace : h.main = .asking) :
      MainStep J shouldStop flushed h { h with main := if shouldStop then .requesting 0 else .sleeping }
  | slept (hplace : h.main = .sleeping) : MainStep J shouldStop flushed h { h with main := .polling 0 }
  | allRequested (i : ℕ) (hplace : h.main = .requesting i) (hend : h.captures[i]? = none) :
      MainStep J shouldStop flushed h { h with main := .joining 0 }
  | requested (i : ℕ) (capture : ClientCapture) (hplace : h.main = .requesting i)
      (hcapture : h.captures[i]? = some capture) :
      MainStep J shouldStop flushed h
        { h.setCapture i { capture with stopRequested := true } with main := .requesting (i + 1) }
  | allJoined (i : ℕ) (hplace : h.main = .joining i) (hend : h.captures[i]? = none) :
      MainStep J shouldStop flushed h h.stopBooks
  | close (i : ℕ) (capture : ClientCapture) (h₁ : FeedHandler) (hplace : h.main = .joining i)
      (hcapture : h.captures[i]? = some capture) (hended : capture.running = false)
      (hclose : h.stepSession J i capture (.call (.close flushed)) true = some h₁) :
      MainStep J shouldStop flushed h { h₁ with
        main := if (h₁.captures[i]?).any (·.session.waiting.isSome) then .closing i else .joining (i + 1) }
  | closed (i : ℕ) (capture : ClientCapture) (h₁ : FeedHandler) (hplace : h.main = .closing i)
      (hcapture : h.captures[i]? = some capture) (hresume : h.stepSession J i capture .resume true = some h₁) :
      MainStep J shouldStop flushed h { h₁ with main := .joining (i + 1) }
  | drained (hplace : h.main = .draining) (hreturned : h.books.thread = .returned) :
      MainStep J shouldStop flushed h { h with books := h.books.join, main := .exited h.exitCode }

theorem mainStep_cases (hnext : h.mainStep J shouldStop flushed = some h') : MainStep J shouldStop flushed h h' := by
  unfold mainStep at hnext
  cases hplace : h.main with
  | starting rest =>
    rw [hplace] at hnext
    cases rest with
    | nil =>
      cases hnext
      exact .allStarted hplace
    | cons i rest =>
      obtain ⟨capture, hcapture, rfl⟩ := Option.map_eq_some_iff.1 hnext
      exact .started i rest capture hplace hcapture
  | polling i =>
    rw [hplace] at hnext
    simp only at hnext
    split at hnext
    · next hend =>
      cases hnext
      exact .polled i hplace hend
    · next capture hcapture =>
      split_ifs at hnext with hfatal
      · cases hnext
        exact .failed i capture hplace hcapture hfatal
      · cases hnext
        exact .passed i capture hplace hcapture (Bool.eq_false_iff.2 hfatal)
  | asking =>
    rw [hplace] at hnext
    cases hnext
    exact .asked hplace
  | sleeping =>
    rw [hplace] at hnext
    cases hnext
    exact .slept hplace
  | requesting i =>
    rw [hplace] at hnext
    simp only at hnext
    split at hnext
    · next hend =>
      cases hnext
      exact .allRequested i hplace hend
    · next capture hcapture =>
      cases hnext
      exact .requested i capture hplace hcapture
  | joining i =>
    rw [hplace] at hnext
    simp only at hnext
    split at hnext
    · next hend =>
      cases hnext
      exact .allJoined i hplace hend
    · next capture hcapture =>
      split_ifs at hnext with hrunning
      obtain ⟨h₁, hclose, rfl⟩ := Option.map_eq_some_iff.1 hnext
      exact .close i capture h₁ hplace hcapture (Bool.eq_false_iff.2 hrunning) hclose
  | closing i =>
    rw [hplace] at hnext
    obtain ⟨capture, hcapture, hnext⟩ := Option.bind_eq_some_iff.1 hnext
    obtain ⟨h₁, hresume, rfl⟩ := Option.map_eq_some_iff.1 hnext
    exact .closed i capture h₁ hplace hcapture hresume
  | draining =>
    rw [hplace] at hnext
    simp only at hnext
    split_ifs at hnext with hreturned
    cases hnext
    exact .drained hplace hreturned
  | exited code =>
    rw [hplace] at hnext
    cases hnext

theorem Sound.main (hsound : h.Sound J) (hnext : h.mainStep J shouldStop flushed = some h') : h'.Sound J := by
  obtain ⟨actions, hw⟩ := hsound.wired
  have hruns := hsound.runs
  have hphase := hsound.phase
  have hnobody : ∀ {property : ClientCapture → Prop}, h.Before 0 property := fun j c hj => absurd hj (Nat.not_lt_zero j)
  cases mainStep_cases hnext with
  | allStarted hplace =>
    rw [hplace] at hphase
    refine ⟨⟨actions, hw.keep rfl rfl rfl rfl⟩, hruns, hphase.1, ?_⟩
    by_cases hfeeds : h.books.feeds = []
    · exact .inr hfeeds
    · exact .inl (decide_eq_true hfeeds)
  | started i rest capture hplace hcapture => exact hsound.started hplace hcapture
  | polled i hplace hend =>
    rw [hplace] at hphase
    exact ⟨⟨actions, hw.keep rfl rfl rfl rfl⟩, hruns, hphase⟩
  | failed i capture hplace hcapture hfatal =>
    rw [hplace] at hphase
    exact ⟨⟨actions, hw.keep rfl rfl rfl rfl⟩, hruns, hphase.1, hphase.2, hnobody⟩
  | passed i capture hplace hcapture hfatal =>
    rw [hplace] at hphase
    exact ⟨⟨actions, hw.keep rfl rfl rfl rfl⟩, hruns, hphase⟩
  | asked hplace =>
    rw [hplace] at hphase
    refine ⟨⟨actions, hw.keep rfl rfl rfl rfl⟩, hruns, ?_⟩
    cases shouldStop with
    | true => exact ⟨hphase.1, hphase.2, hnobody⟩
    | false => exact hphase
  | slept hplace =>
    rw [hplace] at hphase
    exact ⟨⟨actions, hw.keep rfl rfl rfl rfl⟩, hruns, hphase⟩
  | allRequested i hplace hend =>
    rw [hplace] at hphase
    exact ⟨⟨actions, hw.keep rfl rfl rfl rfl⟩, hruns, hphase.1, hphase.2.1, before_all hend hphase.2.2, hnobody⟩
  | requested i capture hplace hcapture => exact hsound.requested hplace hcapture
  | allJoined i hplace hend => exact hsound.stopBooks hplace hend
  | close i capture h₁ hplace hcapture hended hclose => exact hsound.closed hplace hcapture hended hclose
  | closed i capture h₁ hplace hcapture hresume => exact hsound.closeReturned hplace hcapture hresume
  | drained hplace hreturned =>
    rw [hplace] at hphase
    obtain ⟨-, hgoing, -, hdone⟩ := hphase
    exact ⟨⟨_, (hw.join hreturned hgoing).keep rfl rfl rfl rfl⟩, hruns, .inl rfl, hdone, rfl⟩

end Main

theorem startOrder_spec (entries : List Config.Connection) :
    (startOrder entries).Nodup ∧ ∀ i, i ∈ startOrder entries ↔ i < entries.length := by
  refine ⟨?_, fun i => ?_⟩
  · refine List.Nodup.append (List.nodup_range.filter _) (List.nodup_range.filter _) ?_
    intro i hother hkraken
    have hno := (List.mem_filter.1 hother).2
    rw [(List.mem_filter.1 hkraken).2] at hno
    cases hno
  · rw [startOrder, List.mem_append, List.mem_filter, List.mem_filter, List.mem_range, ← and_or_left]
    refine ⟨And.left, fun hi => ⟨hi, ?_⟩⟩
    cases hkraken : isKraken entries i with
    | true => exact .inr rfl
    | false => exact .inl rfl

/-- Before anything is started no session has done anything. -/
theorem start_capture {orderBooks : Bool} {rest : RestClient} {entries : List (Config.Connection × SessionConfig)} {i : ℕ}
    {capture : ClientCapture} (hcapture : (start orderBooks rest entries).captures[i]? = some capture) :
    Unstarted capture ∧ capture.feed = none ∧
      ∃ config : SessionConfig, config.journalMode = .threaded ∧ capture.session = CaptureSession.start config := by
  rw [start, List.getElem?_map] at hcapture
  obtain ⟨e, -, rfl⟩ := Option.map_eq_some_iff.1 hcapture
  exact ⟨⟨rfl, rfl⟩, rfl, _, rfl, rfl⟩

theorem Sound.init (orderBooks : Bool) (rest : RestClient) (entries : List (Config.Connection × SessionConfig)) :
    (FeedHandler.start orderBooks rest entries).Sound J := by
  have hnone : ∀ i capture feed, ¬ (FeedHandler.start orderBooks rest entries).Routes i capture feed := by
    rintro i capture feed ⟨hcapture, hfeed⟩
    rw [(start_capture hcapture).2.1] at hfeed
    cases hfeed
  refine ⟨⟨[], BookService.Inv.create 0, fun _ _ => .inl rfl, ?_, ?_, ?_, fun _ _ => ⟨rfl, rfl⟩, rfl, ?_⟩, ?_, ?_⟩
  · exact fun i capture feed hr => absurd hr (hnone i capture feed)
  · exact fun i capture feed hr => absurd hr (hnone i capture feed)
  · exact fun i _ capture _ feed hr => absurd hr (hnone i capture feed)
  · exact fun i capture feed hr => absurd hr (hnone i capture feed)
  · intro i capture hcapture
    obtain ⟨-, -, config, hmode, hsession⟩ := start_capture hcapture
    exact ⟨config, [], hmode, by rw [hsession]; rfl⟩
  · obtain ⟨hnodup, hmem⟩ := startOrder_spec (entries.map (·.1))
    refine ⟨⟨rfl, rfl⟩, rfl, rfl, hnodup, fun i hi => ?_⟩
    have hlt : i < (FeedHandler.start orderBooks rest entries).captures.length := by
      rw [FeedHandler.start, List.length_map, ← List.length_map]
      exact (hmem i).1 hi
    have hcapture := List.getElem?_eq_getElem hlt
    exact ⟨_, hcapture, (start_capture hcapture).1⟩

theorem Sound.step (hsound : h.Sound J) {action : HandlerAction} (hstep : h.step J action = some h') : h'.Sound J := by
  cases action with
  | session i action room => exact hsound.session hstep
  | latchFatal i => exact hsound.latchFatal hstep
  | ended i => exact hsound.ended hstep
  | books => exact hsound.books hstep
  | main shouldStop flushed => exact hsound.main hstep

theorem run_sound {orderBooks : Bool} {rest : RestClient} {entries : List (Config.Connection × SessionConfig)}
    {actions : List HandlerAction} (hrun : (start orderBooks rest entries).run J actions = some h) : h.Sound J :=
  Machine.run_invariant (I := fun _ h => h.Sound J) (Sound.init orderBooks rest entries)
    (fun _ _ _ _ _ hsound hstep => hsound.step hstep) hrun

end FeedHandler

def tinyReference : RestClient :=
  .parseAssetPairs [⟨ascii "XXBTZUSD", some (ascii "XBTUSD"), some (ascii "XBT/USD"), some 0, some 0⟩]

def tinyEntries : List (Config.Connection × SessionConfig) :=
  [({ id := ascii "k", exchange := .kraken, symbols := [ascii "BTC/USD"], depth := 1 }, {})]

end CryptoTrader
