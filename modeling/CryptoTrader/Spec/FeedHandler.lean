import CryptoTrader.Spec.BookService
import CryptoTrader.Spec.BookWiring
import CryptoTrader.Spec.CaptureSession

/-! The capture process from `StartAll` to its exit (`feed_handler_main.cpp`, `runner.cpp`,
`capture_set.cpp`, `client_capture.h`, and `LiveBooksHook` of `book_wiring.cpp`). The main
thread starts the connections, polls them, and winds everything down. Each connection has a
client, of which the process sees only what it does on its session, that it may latch a
fatal error, and that its threads end once it is asked to stop or has failed. Next to these
run a journal thread per session and the book thread. -/

namespace CryptoTrader

/-- One connection: its client and its session. -/
structure ClientCapture where
  entry : Config.Connection
  session : CaptureSession
  /-- The feed of the books that the session's sink fills. -/
  feed : Option ℕ := none
  /-- Whether the client's threads run. -/
  running : Bool := false
  stopRequested : Bool := false
  fatal : Bool := false
  deriving DecidableEq, Repr

/-- Where the main thread is. -/
inductive MainThread where
  /-- In `StartAll`, with the connections still to be started. -/
  | starting (rest : List ℕ)
  /-- In `Run`: looking for a fatal connection from one on, asking for a stop, sleeping. -/
  | polling (index : ℕ)
  | asking
  | sleeping
  | requesting (index : ℕ)
  /-- In `Join` of a connection: its client's, then the wait in the session's `Close`. -/
  | joining (index : ℕ)
  | closing (index : ℕ)
  /-- In `Stop` of the books. -/
  | draining
  | exited (code : ℕ)
  deriving DecidableEq, Repr

structure FeedHandler where
  orderBooks : Bool
  /-- Kraken's reference data, as it is once `LogInstrumentReference` has run. -/
  rest : RestClient
  captures : List ClientCapture
  /-- The settings of the connections added to the books, in order. -/
  added : List BookSettings := []
  books : BookService := .create 0
  booksRunning : Bool := false
  main : MainThread
  fatalId : Bytes := []

/-- What happens next. A session's action comes with whether the book ring has room for its
frame; what the main thread does comes with the answer of `should_stop` and with whether the
disk takes a last flush. -/
inductive HandlerAction where
  | session (index : ℕ) (action : SessionAction) (room : Bool)
  | latchFatal (index : ℕ)
  | ended (index : ℕ)
  | books
  | main (shouldStop flushed : Bool)
  deriving DecidableEq, Repr

def kExitCleanShutdown : ℕ := 0
def kExitCaptureFailed : ℕ := 1

/-- A call on a ring sink of the books, whether or not they have been stopped. -/
def BookService.sink (s : BookService) (index : ℕ) (event : FeedEvent) (room : Bool) : BookService :=
  match s.feeds[index]? with
  | none => s
  | some feed => { s with feeds := s.feeds.set index { feed with ring := RingSink.call feed.ring event room } }

/-- What a session's sinks hear reaches the ring of its feed, if it has one. -/
def BookService.sinkAll (s : BookService) (feed : Option ℕ) (events : List FeedEvent) (room : Bool) : BookService :=
  match feed with
  | none => s
  | some index => events.foldl (fun books event => books.sink index event room) s

/-- `AddConnection`. -/
def BookService.addConnection (s : BookService) : BookService := { s with feeds := s.feeds ++ [{}] }

namespace FeedHandler

def isKraken (entries : List Config.Connection) (index : ℕ) : Bool :=
  entries[index]?.any fun entry => entry.exchange = .kraken

/-- The order of `StartAll`: Kraken's connections last. -/
def startOrder (entries : List Config.Connection) : List ℕ :=
  (List.range entries.length).filter (!isKraken entries ·) ++ (List.range entries.length).filter (isKraken entries)

/-- The process once `CaptureSet::Build` has made a threaded session for each entry. -/
def start (orderBooks : Bool) (rest : RestClient) (entries : List (Config.Connection × SessionConfig)) :
    FeedHandler where
  orderBooks := orderBooks
  rest := rest
  captures := entries.map fun e => { entry := e.1, session := .start { e.2 with journalMode := .threaded } }
  main := .starting (startOrder (entries.map (·.1)))

variable (J : JournalPlatform) (h : FeedHandler)

def setCapture (index : ℕ) (capture : ClientCapture) : FeedHandler :=
  { h with captures := h.captures.set index capture }

/-- `LiveBooksHook`, as `StartAll` calls it. A connection whose settings cannot be resolved
is captured without books. -/
def liveBooksHook (index : ℕ) (capture : ClientCapture) : FeedHandler :=
  let rest := if capture.entry.exchange = .kraken then some h.rest else none
  match if h.orderBooks then (resolveBookSettings capture.entry rest).toOption else none with
  | none => h.setCapture index { capture with running := true }
  | some settings =>
    { h.setCapture index { capture with running := true, feed := some h.books.feeds.length } with
      added := h.added ++ [settings]
      books := h.books.addConnection }

/-- A capture takes a step of its session, and what its sinks hear of it reaches the ring. -/
def stepSession (index : ℕ) (capture : ClientCapture) (action : SessionAction) (room : Bool) : Option FeedHandler :=
  (capture.session.step J action).map fun session =>
    let events := session.sinkCalls.drop capture.session.sinkCalls.length
    { h.setCapture index { capture with session } with books := h.books.sinkAll capture.feed events room }

/-- What the process returns: a capture that died is told from a clean stop. -/
def exitCode : ℕ := if h.fatalId = [] then kExitCleanShutdown else kExitCaptureFailed

/-- `Stop` of the books up to the wait for their thread. Without feeds there is none. -/
def stopBooks : FeedHandler :=
  if h.books.feeds = [] then { h with main := .exited h.exitCode }
  else { h with books := { h.books with stop := true }, main := .draining }

/-- The next step of the main thread. -/
def mainStep (shouldStop flushed : Bool) : Option FeedHandler :=
  match h.main with
  | .starting [] => some { h with booksRunning := h.books.feeds ≠ [], main := .polling 0 }
  | .starting (index :: rest) =>
    (h.captures[index]?).map fun capture => { h.liveBooksHook index capture with main := .starting rest }
  | .polling index =>
    match h.captures[index]? with
    | none => some { h with main := .asking }
    | some capture =>
      if capture.fatal then some { h with fatalId := capture.entry.id, main := .requesting 0 }
      else some { h with main := .polling (index + 1) }
  | .asking => some { h with main := if shouldStop then .requesting 0 else .sleeping }
  | .sleeping => some { h with main := .polling 0 }
  | .requesting index =>
    match h.captures[index]? with
    | none => some { h with main := .joining 0 }
    | some capture =>
      some { h.setCapture index { capture with stopRequested := true } with main := .requesting (index + 1) }
  | .joining index =>
    match h.captures[index]? with
    | none => some h.stopBooks
    | some capture =>
      if capture.running then none
      else (h.stepSession J index capture (.call (.close flushed)) true).map fun h' =>
        { h' with
          main := if (h'.captures[index]?).any (·.session.waiting.isSome) then .closing index else .joining (index + 1) }
  | .closing index =>
    (h.captures[index]?).bind fun capture =>
      (h.stepSession J index capture .resume true).map fun h' => { h' with main := .joining (index + 1) }
  | .draining =>
    if h.books.thread = .returned then
      some { h with books := h.books.join, main := .exited h.exitCode }
    else none
  | .exited _ => none

/-- Only the journal thread acts on the session of a client whose threads do not run. -/
def mayAct (capture : ClientCapture) : SessionAction → Bool
  | .journal _ => true
  | _ => capture.running

def step (h : FeedHandler) : HandlerAction → Option FeedHandler
  | .session index action room =>
    (h.captures[index]?).bind fun capture =>
      if mayAct capture action then h.stepSession J index capture action room else none
  | .latchFatal index => (h.captures[index]?).map fun capture => h.setCapture index { capture with fatal := true }
  | .ended index =>
    (h.captures[index]?).bind fun capture =>
      if capture.running && (capture.stopRequested || capture.fatal) && capture.session.waiting.isNone then
        some (h.setCapture index { capture with running := false })
      else none
  | .books => if h.booksRunning then (h.books.advance).map fun books => { h with books } else none
  | .main shouldStop flushed => h.mainStep J shouldStop flushed

def run : FeedHandler → List HandlerAction → Option FeedHandler := Machine.run (step J)

end FeedHandler

end CryptoTrader
