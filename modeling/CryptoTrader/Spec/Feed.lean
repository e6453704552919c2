import CryptoTrader.Spec.Types

/-! What a connection tells its sinks (`feed_handler/message_sink.h`), the same as owned
values (`feed_event.h`), and the ring that carries them to another thread
(`spsc_ring.h`). -/

namespace CryptoTrader

inductive FrameSource where
  | unknown
  | krakenJson
  | deribitFix
  deriving DecidableEq, Repr

structure CaptureFrame where
  payload : Bytes
  captureSequence : ℕ := 0
  monotonicNs : ℕ := 0
  source : FrameSource := .unknown
  deriving DecidableEq, Repr

/-- The calls of a `MessageSink`, one alternative for each. -/
inductive FeedEvent where
  | frame (frame : CaptureFrame)
  | connect (connectId : ℕ) (reason : Bytes)
  | disconnect (connectId : ℕ)
  deriving DecidableEq, Repr

def FeedEvent.isFrame : FeedEvent → Bool
  | .frame _ => true
  | _ => false

/-- The queue library is a FIFO: `try_enqueue` appends or refuses as it finds room,
`enqueue` always appends. -/
structure SpscRing (T : Type) where
  queue : List T := []
  dropped : ℕ := 0
  deriving DecidableEq, Repr

namespace SpscRing

variable {T : Type}

def push (ring : SpscRing T) (value : T) (room : Bool) : SpscRing T × Bool :=
  if room then ({ ring with queue := ring.queue ++ [value] }, true)
  else ({ ring with dropped := ring.dropped + 1 }, false)

def pushControl (ring : SpscRing T) (value : T) : SpscRing T := { ring with queue := ring.queue ++ [value] }

def pop (ring : SpscRing T) : Option (T × SpscRing T) :=
  match ring.queue with
  | [] => none
  | value :: queue => some (value, { ring with queue })

end SpscRing

end CryptoTrader
