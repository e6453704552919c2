import CryptoTrader.Lib.Machine
import CryptoTrader.Spec.Types

/-! How a failed journal is reported: `Fail` of `feed_handler/journal_thread.cpp`, the fatal
handler of `capture_session.cpp` it calls, and the latch that handler sets
(`RouteFatalToStopSignal`). Any number of threads fail the journal at once, and the handler may
be replaced meanwhile. A step is one operation on the state word, the recorded text, the
handler's mutex, the handler or the latch. -/

namespace CryptoTrader

/-- `kHealthy`, `kClaimed` and `kFailed`. -/
inductive JournalHealth where
  | healthy
  | claimed
  | failed
  deriving DecidableEq, Repr

/-- Where a thread is in `Fail`, or in `SetFatalHandler`. -/
inductive Reporter where
  | outside
  | claiming (reason : Bytes)
  /-- Has won the claim and is about to record its reason. -/
  | recording (reason : Bytes)
  | publishing
  /-- In `NotifyFatal`, on the way to the handler's mutex. -/
  | entering
  | copying
  | leaving (handler : Bool)
  | calling (handler : Bool)
  | setting (handler : Bool)
  deriving DecidableEq, Repr

structure FatalReport (ι : Type) where
  state : JournalHealth := .healthy
  error : Bytes := []
  /-- Whether a handler is set, which routes to the stop signal. -/
  handler : Bool := true
  mutex : Option ι := none
  threads : ι → Reporter := fun _ => .outside
  /-- The reasons the handler was called with. -/
  reports : List Bytes := []
  /-- `fatal_` of the stop signal. -/
  fatal : Bool := false

inductive ReportAction (ι : Type) where
  | fail (thread : ι) (reason : Bytes)
  | setFatalHandler (thread : ι) (handler : Bool)
  | advance (thread : ι)
  deriving DecidableEq, Repr

namespace FatalReport

variable {ι : Type} [DecidableEq ι] (s : FatalReport ι) (i : ι)

def goto (place : Reporter) : FatalReport ι := { s with threads := Function.update s.threads i place }

def failed : Bool := s.state = .failed

/-- The next step of a thread. Whoever loses the claim returns at once; the handler is called
without its mutex. -/
def advance : Option (FatalReport ι) :=
  match s.threads i with
  | .outside => none
  | .claiming reason =>
    some (if s.state = .healthy then { s.goto i (.recording reason) with state := .claimed } else s.goto i .outside)
  | .recording reason => some { s.goto i .publishing with error := reason }
  | .publishing => some { s.goto i .entering with state := .failed }
  | .entering => if s.mutex.isSome then none else some { s.goto i .copying with mutex := some i }
  | .copying => some (s.goto i (.leaving s.handler))
  | .leaving handler => some { s.goto i (.calling handler) with mutex := none }
  | .calling handler =>
    some (if handler then { s.goto i .outside with reports := s.reports ++ [s.error], fatal := true }
      else s.goto i .outside)
  -- the handler is exchanged under the mutex, and nothing else is done there
  | .setting handler => if s.mutex.isSome then none else some { s.goto i .outside with handler }

def step (s : FatalReport ι) : ReportAction ι → Option (FatalReport ι)
  | .fail i reason => if s.threads i = .outside then some (s.goto i (.claiming reason)) else none
  | .setFatalHandler i handler => if s.threads i = .outside then some (s.goto i (.setting handler)) else none
  | .advance i => s.advance i

def run : FatalReport ι → List (ReportAction ι) → Option (FatalReport ι) := Machine.run step

end FatalReport

end CryptoTrader
