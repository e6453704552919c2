import CryptoTrader.Lib.Machine
import CryptoTrader.Lib.Monitor
import CryptoTrader.Spec.Feed

/-! How the two threads of a threaded journal wait for each other
(`feed_handler/journal_thread.cpp`, `JournalCloseSignal`). The connection's thread queues
events and wakes the journal thread; `Disconnect` waits until its file is closed, and the
destructor until the thread has ended. A step is one operation on the ring, a mutex, a
condition variable or a signal. What the journal thread does about an event is its own affair
and only listed. The hint `sleeping_` is read without the mutex, so that what the push of a
frame sees of it is left open. -/

namespace CryptoTrader

inductive JournalSide where
  | producer
  | journal
  deriving DecidableEq, Repr

/-- `JournalEvent`. A `Disconnect` names the signal it waits for. -/
inductive JournalItem where
  | frame (frame : CaptureFrame)
  | connect (marker : CaptureFrame)
  | disconnect (signal : ℕ)
  | stop
  deriving DecidableEq, Repr

/-- Pushed with `PushControl`, and always followed by a wakeup. -/
def JournalItem.isControl : JournalItem → Bool
  | .frame _ => false
  | .connect _ | .disconnect _ | .stop => true

/-- `JournalCloseSignal`. -/
structure CloseSignal where
  done : Bool := false
  mutex : Option JournalSide := none
  deriving DecidableEq, Repr

/-- What a call does after it has woken the journal thread. -/
inductive AfterWake where
  | returns
  | waits (signal : ℕ)
  | joins
  deriving DecidableEq, Repr

/-- Where the connection's thread is. `Wake` goes from `waking` to `notifying`, the wait for a
close signal from `entering` to `leaving`. -/
inductive ProducerPlace where
  | idle
  /-- A frame is queued, and `sleeping_` is about to be read. -/
  | hinting
  | waking (must : Bool) (next : AfterWake)
  | woke (must : Bool) (next : AfterWake)
  | notifying (must : Bool) (next : AfterWake)
  | entering (signal : ℕ)
  | looking (signal : ℕ)
  | committed (signal : ℕ)
  | asleep (signal : ℕ)
  | awake (signal : ℕ)
  | leaving (signal : ℕ)
  | joining
  | ended
  deriving DecidableEq, Repr

/-- Where the journal thread is. `WaitForEvent` goes from `popping` to `leaving`, `Complete`
from `completing` to `notifying`. -/
inductive JournalPlace where
  | popping
  | locking
  | looking
  | committed
  | asleep
  | awake
  | leaving (item : JournalItem)
  | handling (item : JournalItem)
  | completing (signal : ℕ)
  | setting (signal : ℕ)
  | flagged (signal : ℕ)
  | notifying (signal : ℕ)
  | returned
  deriving DecidableEq, Repr

def AfterWake.place : AfterWake → ProducerPlace
  | .returns => .idle
  | .waits signal => .entering signal
  | .joins => .joining

/-- Where an event that has been handled leads. -/
def JournalItem.place : JournalItem → JournalPlace
  | .frame _ | .connect _ => .popping
  | .disconnect signal => .completing signal
  | .stop => .returned

/-- `notify_one` on the wakeup of the journal thread. -/
def JournalPlace.notified : JournalPlace → JournalPlace
  | .asleep => .awake
  | place => place

/-- `notify_all` on a close signal. -/
def ProducerPlace.notified (signal : ℕ) : ProducerPlace → ProducerPlace
  | .asleep waited => if waited = signal then .awake waited else .asleep waited
  | place => place

structure JournalSync where
  ring : List JournalItem := []
  /-- Everything that was queued, and what the journal thread has handled of it. -/
  pushed : List JournalItem := []
  taken : List JournalItem := []
  wakeMutex : Option JournalSide := none
  signals : ℕ → CloseSignal := fun _ => {}
  nextSignal : ℕ := 0
  producer : ProducerPlace := .idle
  journal : JournalPlace := .popping

/-- A call of the connection's thread. A frame finds room in the ring or not. -/
inductive JournalCall where
  | push (frame : CaptureFrame) (room : Bool)
  | connect (marker : CaptureFrame)
  | disconnect
  | destroy
  deriving DecidableEq, Repr

inductive SyncAction where
  | call (call : JournalCall)
  /-- The connection's thread moves on; a frame's push sees `sleeping_` as given. -/
  | producer (sleeping : Bool)
  | journal
  /-- A sleeper's poll ends, or it wakes for no reason. -/
  | wake (side : JournalSide)
  deriving DecidableEq, Repr

namespace JournalSync

variable (s : JournalSync)

def queue (item : JournalItem) (place : ProducerPlace) : JournalSync :=
  { s with ring := s.ring ++ [item], pushed := s.pushed ++ [item], producer := place }

/-- A call up to its push. -/
def call : JournalCall → JournalSync
  | .push frame room => if room then s.queue (.frame frame) .hinting else s
  | .connect marker => s.queue (.connect marker) (.waking true .returns)
  | .disconnect =>
    { s.queue (.disconnect s.nextSignal) (.waking true (.waits s.nextSignal)) with nextSignal := s.nextSignal + 1 }
  | .destroy => s.queue .stop (.waking true .joins)

def lockWake (side : JournalSide) : Option JournalSync :=
  if s.wakeMutex.isSome then none else some { s with wakeMutex := some side }

def setSignal (signal : ℕ) (value : CloseSignal) : JournalSync :=
  { s with signals := Function.update s.signals signal value }

def lockSignal (signal : ℕ) (side : JournalSide) : Option JournalSync :=
  if (s.signals signal).mutex.isSome then none
  else some (s.setSignal signal { s.signals signal with mutex := some side })

def unlockSignal (signal : ℕ) : JournalSync := s.setSignal signal { s.signals signal with mutex := none }

def advanceProducer (sleeping : Bool) : Option JournalSync :=
  match s.producer with
  | .idle => none
  | .hinting => some { s with producer := if sleeping then .waking false .returns else .idle }
  | .waking must next => (s.lockWake .producer).map ({ · with producer := .woke must next })
  | .woke must next => some { s with wakeMutex := none, producer := .notifying must next }
  | .notifying _ next => some { s with journal := s.journal.notified, producer := next.place }
  | .entering signal => (s.lockSignal signal .producer).map ({ · with producer := .looking signal })
  | .looking signal =>
    some { s with producer := if (s.signals signal).done then .leaving signal else .committed signal }
  | .committed signal => some { s.unlockSignal signal with producer := .asleep signal }
  | .asleep _ => none
  | .awake signal => (s.lockSignal signal .producer).map ({ · with producer := .looking signal })
  | .leaving signal => some { s.unlockSignal signal with producer := .idle }
  | .joining => if s.journal = .returned then some { s with producer := .ended } else none
  | .ended => none

def advanceJournal : Option JournalSync :=
  match s.journal with
  | .popping =>
    match s.ring with
    | [] => some { s with journal := .locking }
    | item :: ring => some { s with ring, journal := .handling item }
  | .locking => (s.lockWake .journal).map ({ · with journal := .looking })
  | .looking =>
    match s.ring with
    | [] => some { s with journal := .committed }
    | item :: ring => some { s with ring, journal := .leaving item }
  | .committed => some { s with wakeMutex := none, journal := .asleep }
  | .asleep => none
  | .awake => (s.lockWake .journal).map ({ · with journal := .looking })
  | .leaving item => some { s with wakeMutex := none, journal := .handling item }
  | .handling item => some { s with taken := s.taken ++ [item], journal := item.place }
  | .completing signal => (s.lockSignal signal .journal).map ({ · with journal := .setting signal })
  | .setting signal =>
    some { s.setSignal signal { s.signals signal with done := true } with journal := .flagged signal }
  | .flagged signal => some { s.unlockSignal signal with journal := .notifying signal }
  | .notifying signal => some { s with producer := s.producer.notified signal, journal := .popping }
  | .returned => none

def wake : JournalSide → Option JournalSync
  | .producer =>
    match s.producer with
    | .asleep signal => some { s with producer := .awake signal }
    | _ => none
  | .journal => if s.journal = .asleep then some { s with journal := .awake } else none

def step (s : JournalSync) : SyncAction → Option JournalSync
  | .call call => if s.producer = .idle then some (s.call call) else none
  | .producer sleeping => s.advanceProducer sleeping
  | .journal => s.advanceJournal
  | .wake side => s.wake side

def run : JournalSync → List SyncAction → Option JournalSync := Machine.run step

end JournalSync

end CryptoTrader
