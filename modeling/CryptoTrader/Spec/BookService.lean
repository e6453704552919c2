import CryptoTrader.Lib.Machine
import CryptoTrader.Spec.Adapter

/-! The live book path: the sink that fills a connection's ring on the connection's
thread (`book_adapter/ring_sink.h`) and the service whose one thread drains every ring
into the adapter (`book_service.cpp`). A run is a list of actions: a sink call by a
producer, a step of the book thread, the two halves of `Stop`. Pushes and pops are
atomic, and between two pops the book thread touches nothing a producer does. -/

namespace CryptoTrader

structure RingEntry where
  event : FeedEvent
  droppedBefore : ℕ
  deriving DecidableEq, Repr

abbrev BookRing := SpscRing RingEntry

/-- A call on the sink. Only a frame may be refused; every entry carries the ring's drop
count at the moment it is pushed. -/
def RingSink.call (ring : BookRing) (event : FeedEvent) (room : Bool) : BookRing :=
  let entry : RingEntry := ⟨event, ring.dropped⟩
  match event with
  | .frame _ => (ring.push entry room).1
  | .connect .. | .disconnect _ => ring.pushControl entry

structure Feed where
  ring : BookRing := {}
  reportedDrops : ℕ := 0
  deriving DecidableEq, Repr

namespace Feed

/-- Tells the adapter about drops up to `total` that it has not heard of yet. -/
def reportDrops (feed : Feed) (total : ℕ) : Feed × List AdapterCall :=
  if total ≤ feed.reportedDrops then (feed, [])
  else ({ feed with reportedDrops := total }, [.onFramesDropped (total - feed.reportedDrops)])

def dispatch (feed : Feed) (entry : RingEntry) : Feed × List AdapterCall :=
  let (feed, calls) := feed.reportDrops entry.droppedBefore
  (feed, calls ++ [entry.event.adapterCall])

def reportTrailingDrops (feed : Feed) : Feed × List AdapterCall := feed.reportDrops feed.ring.dropped

end Feed

/-- Where the book thread is: at the top of `Run`'s loop, inside a pass (whether it saw
the stop flag, the feed it drains, the entries taken from it and those of the feeds
before it), or ended. Without a thread `Poll` makes the same passes on the caller's. -/
inductive BookThread where
  | waiting
  | draining (stopping : Bool) (feed handled total : ℕ)
  | returned
  deriving DecidableEq, Repr

structure BookService where
  feeds : List Feed
  /-- The calls made on the adapter so far. -/
  received : List (ℕ × AdapterCall) := []
  stop : Bool := false
  thread : BookThread := .waiting
  stopped : Bool := false
  deriving DecidableEq, Repr

namespace BookService

def kBatch : ℕ := 64

def create (connections : ℕ) : BookService := { feeds := List.replicate connections {} }

/-- Replaces a feed after the calls it made on the adapter. -/
def handed (s : BookService) (index : ℕ) (outcome : Feed × List AdapterCall) : BookService :=
  { s with feeds := s.feeds.set index outcome.1, received := s.received ++ outcome.2.map (index, ·) }

/-- The next step of the book thread. An entry is popped and dispatched, or the drain of
a feed, a pass or the thread ends. -/
def advance (s : BookService) : Option BookService :=
  match s.thread with
  | .waiting => some { s with thread := .draining s.stop 0 0 0 }
  | .draining stopping index handled total =>
    match s.feeds[index]? with
    | none =>
      if total > 0 then some { s with thread := .waiting }
      else some { s with thread := if stopping then .returned else .waiting }
    | some feed =>
      match if handled < kBatch then feed.ring.pop else none with
      | none => some { s with thread := .draining stopping (index + 1) 0 (total + handled) }
      | some (entry, ring) =>
        some { s.handed index ({ feed with ring }.dispatch entry) with
          thread := .draining stopping index (handled + 1) total }
  | .returned => none

/-- After the thread has ended: the drops that no later entry carried. -/
def join (s : BookService) : BookService :=
  { s with
    feeds := s.feeds.map (·.reportTrailingDrops.1)
    received := s.received ++ s.feeds.zipIdx.flatMap fun f => f.1.reportTrailingDrops.2.map (f.2, ·)
    stopped := true }

end BookService

inductive ServiceAction where
  | sink (index : ℕ) (event : FeedEvent) (room : Bool)
  | stop
  | advance
  | join
  deriving DecidableEq, Repr

namespace BookService

/-- `Stop` is called once, after every producer has ended, and returns after the join. -/
def step (s : BookService) : ServiceAction → Option BookService
  | .sink index event room =>
    if s.stop then none
    else (s.feeds[index]?).map fun feed =>
      { s with feeds := s.feeds.set index { feed with ring := RingSink.call feed.ring event room } }
  | .stop => if s.stop then none else some { s with stop := true }
  | .advance => s.advance
  | .join => if s.thread = .returned ∧ s.stopped = false then some s.join else none

def run : BookService → List ServiceAction → Option BookService := Machine.run step

/-- The adapter the service owns, after the calls made on it. -/
def adapter {N D : Type} (P : Platform N D) (settings : List BookSettings) (s : BookService) : BookAdapter :=
  (settings.foldl (·.addConnection ·) ({} : BookAdapter)).run P s.received

end BookService

/-- The calls on a connection's sink, each with whether the ring had room. -/
def sinkCalls (index : ℕ) (actions : List ServiceAction) : List (FeedEvent × Bool) :=
  actions.filterMap fun action => match action with
    | .sink i event room => if i = index then some (event, room) else none
    | _ => none

end CryptoTrader
