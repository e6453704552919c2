import CryptoTrader.Spec.FixClient

/-! The Deribit FIX client from one connection to the next (`FixClient::Run` in
`feed_handler/deribit/deribit_fix_client.cpp`): how long it waits before each attempt. -/

namespace CryptoTrader.Deribit

def kMaxBackoffDoublings : ℕ := 10

/-- The shift is one of 64 bits. -/
def reconnectDelayMs (consecutiveFailures minMs maxMs : ℕ) : ℕ :=
  if consecutiveFailures = 0 then 0
  else
    let doublings := min (consecutiveFailures - 1) kMaxBackoffDoublings
    min maxMs (minMs * 2 ^ doublings % 2 ^ 64)

/-- The fields of `FixClientConfig` that only `Run` reads. -/
structure ReconnectWaits where
  minReconnectWaitMs : ℕ := 1000
  maxReconnectWaitMs : ℕ := 30000
  deriving DecidableEq, Repr

/-- What one round of the loop of `Run` meets: whether a stop is under way at its start,
whether one ends its wait, and the connection. Unless the client has left by then, the peer
closes the connection after the rounds given. -/
structure Attempt where
  stopping : Bool := false
  waitStopped : Bool := false
  run : ConnectionRun
  closedNs : ℕ
  deriving DecidableEq, Repr

def Attempt.connection (attempt : Attempt) : ConnectionRun :=
  { attempt.run with
    rounds := attempt.run.rounds ++
      [{ heartbeatNs := attempt.closedNs, received := .closed, receivedNs := attempt.closedNs }] }

/-- A connection that was attempted, and the wait before it. -/
structure Attempted where
  consecutiveFailures : ℕ
  delayMs : ℕ
  connection : ConnectionRun
  before : FixClient
  after : FixClient
  deriving DecidableEq, Repr

namespace FixClient

variable (P : SessionPlatform) (W : World) (waits : ReconnectWaits)

/-- The loop of `Run`, with the count of failures in a row. A capture that cannot start is
fatal, and a fatal failure is a stop. -/
def runFrom : FixClient → ℕ → List Attempt → List Attempted
  | _, _, [] => []
  | c, consecutiveFailures, attempt :: attempts =>
    let delayMs := reconnectDelayMs consecutiveFailures waits.minReconnectWaitMs waits.maxReconnectWaitMs
    if attempt.stopping ∨ c.fatal then []
    else if delayMs ≠ 0 ∧ attempt.waitStopped then []
    else
      let c' := c.runOneConnection P W attempt.connection
      ⟨consecutiveFailures, delayMs, attempt.connection, c, c'⟩ ::
        runFrom c' (if c.messagesReceived < c'.messagesReceived then 0 else consecutiveFailures + 1) attempts

/-- `Run`: the connections that are attempted, in order. -/
def run (c : FixClient) (attempts : List Attempt) : List Attempted := c.runFrom P W waits 0 attempts

end FixClient

end CryptoTrader.Deribit
