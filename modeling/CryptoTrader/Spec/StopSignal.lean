import CryptoTrader.Lib.Machine
import CryptoTrader.Lib.Monitor

/-! The stop-and-fatal signal of a capture client (`feed_handler/stop_signal.h`): two latches,
their mutex, and the condition variable that every timed wait of a client sleeps on. Any
number of threads make any number of calls. A step is one operation on the mutex, the
condition variable or a latch; when a wait runs out of time, and when a sleeper wakes up for
no reason, is up to the schedule. -/

namespace CryptoTrader

inductive SignalCall where
  | requestStop
  | latchFatal
  | waitFor
  deriving DecidableEq, Repr

inductive SignalLatch where
  | stopRequested
  | fatal
  deriving DecidableEq, Repr

/-- What a call returns: whether this call made the request, and whether to stop. -/
inductive SignalReturn where
  | requestStop (made : Bool)
  | latchFatal
  | waitFor (stopping : Bool)
  deriving DecidableEq, Repr

/-- Where a thread is. From `flipping` to `flipped`, and where it is `looking`, `committed` to
its sleep or `leaving`, it holds the mutex. -/
inductive SignalThread where
  | outside
  | entering (call : SignalCall)
  | flipping (latch : SignalLatch)
  /-- The stop had been requested before. -/
  | repeated
  | flipped (latch : SignalLatch)
  | notifying (latch : SignalLatch)
  | looking (timedOut : Bool)
  | committed
  | asleep
  | waking (timedOut : Bool)
  | leaving (answer : Bool)
  deriving DecidableEq, Repr

namespace SignalThread

/-- The thread under the mutex, at the start of a call. -/
def start : SignalCall → SignalThread
  | .requestStop => .flipping .stopRequested
  | .latchFatal => .flipping .fatal
  | .waitFor => .looking false

/-- What `notify_all` does to a thread. -/
def notified : SignalThread → SignalThread
  | .asleep => .waking false
  | thread => thread

end SignalThread

structure StopSignal (ι : Type) where
  stopRequested : Bool := false
  fatal : Bool := false
  mutex : Option ι := none
  threads : ι → SignalThread := fun _ => .outside
  /-- The calls that have returned. -/
  returned : List (ι × SignalReturn) := []

inductive SignalAction (ι : Type) where
  | call (thread : ι) (call : SignalCall)
  | advance (thread : ι)
  /-- A sleeper's time is up, or it wakes for no reason. -/
  | wake (thread : ι) (timedOut : Bool)
  deriving DecidableEq, Repr

namespace StopSignal

variable {ι : Type} [DecidableEq ι] (s : StopSignal ι) (i : ι)

def stopping : Bool := s.stopRequested || s.fatal

def goto (thread : SignalThread) : StopSignal ι := { s with threads := Function.update s.threads i thread }

def lock (thread : SignalThread) : Option (StopSignal ι) :=
  if s.mutex.isSome then none else some { s.goto i thread with mutex := some i }

def unlock (thread : SignalThread) : StopSignal ι := { s.goto i thread with mutex := none }

def returns (result : SignalReturn) : StopSignal ι := { s with returned := s.returned ++ [(i, result)] }

def notifyAll : StopSignal ι := { s with threads := fun j => (s.threads j).notified }

/-- A thread sets a latch. `RequestStop` goes on to notify only if it was the first. -/
def flip : SignalLatch → StopSignal ι
  | .stopRequested =>
    if s.stopRequested then s.goto i .repeated else { s.goto i (.flipped .stopRequested) with stopRequested := true }
  | .fatal => { s.goto i (.flipped .fatal) with fatal := true }

def returnOf : SignalLatch → SignalReturn
  | .stopRequested => .requestStop true
  | .fatal => .latchFatal

/-- The next step of a thread in a call. The predicate of a wait is looked at under the mutex;
out of time, it answers with what it saw. -/
def advance : Option (StopSignal ι) :=
  match s.threads i with
  | .outside => none
  | .entering call => s.lock i (.start call)
  | .flipping latch => some (s.flip i latch)
  | .repeated => some ((s.unlock i .outside).returns i (.requestStop false))
  | .flipped latch => some (s.unlock i (.notifying latch))
  | .notifying latch => some ((s.notifyAll.goto i .outside).returns i (returnOf latch))
  | .looking timedOut =>
    some (if s.stopping then s.goto i (.leaving true) else if timedOut then s.goto i (.leaving false) else s.goto i .committed)
  | .committed => some (s.unlock i .asleep)
  | .asleep => none
  | .waking timedOut => s.lock i (.looking timedOut)
  | .leaving answer => some ((s.unlock i .outside).returns i (.waitFor answer))

def step (s : StopSignal ι) : SignalAction ι → Option (StopSignal ι)
  | .call i call => if s.threads i = .outside then some (s.goto i (.entering call)) else none
  | .advance i => s.advance i
  | .wake i timedOut => if s.threads i = .asleep then some (s.goto i (.waking timedOut)) else none

def run : StopSignal ι → List (SignalAction ι) → Option (StopSignal ι) := Machine.run step

end StopSignal

end CryptoTrader
