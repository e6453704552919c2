import CryptoTrader.Spec.Adapter
import CryptoTrader.Spec.CaptureSession
import CryptoTrader.Spec.FixConversation

/-! A FIX connection whose capture session feeds a book adapter inline: the client drives
the session, the session hands its sink what it captures, and the sink is the adapter. The
adapter does not see sequence numbers, so whether an update it applied was in sequence is
said by the frames before it. -/

namespace CryptoTrader

/-- What a call on the capture session is to the client that makes it. -/
def SessionCall.effect : SessionCall → Deribit.Effect
  | .beginConnect call => .beginConnect call.reason
  | .onWireMessage call => .onWireMessage call.payload
  | .close _ => .close

/-- The frames since the last connect. -/
def framesSinceConnect (calls : List AdapterCall) : List Bytes :=
  calls.foldl (fun frames call => match call with
    | .onConnect _ => []
    | .onFrame payload => frames ++ [payload]
    | _ => frames) []

namespace Deribit

def Effect.isSend : Effect → Bool
  | .send _ => true
  | _ => false

/-- The adapter has taken these calls when the client has done this to the outside: some run
of the session, driven by the client, has handed them to its sink. -/
def Feeds (J : JournalPlatform) (capture : CryptoTrader.SessionConfig) (effects : List Effect)
    (calls : List AdapterCall) : Prop :=
  ∃ actions s, (CaptureSession.start capture).run J actions = some s ∧
    (sessionCalls actions).map SessionCall.effect = effects.filter (!·.isSend) ∧
    calls = s.sinkCalls.map FeedEvent.adapterCall

/-- At some moment of the connection the adapter has taken these calls. -/
def Moment (S : SessionPlatform) (W : World) (J : JournalPlatform) (capture : CryptoTrader.SessionConfig)
    (c : FixClient) (run : ConnectionRun) (calls : List AdapterCall) : Prop :=
  ∃ effects, c.effects ++ effects <+: (c.runOneConnection S W run).effects ∧ Feeds J capture effects calls

section Applied

variable {N D : Type} (P : Platform N D) (settings : BookSettings)

/-- The adapter as the calls have left it. -/
def adapterAfter (calls : List AdapterCall) : Connection := (Connection.add settings).run P calls

/-- The book of a symbol reads Ready on a connection that is not stale. -/
def LiveReady (calls : List AdapterCall) (symbol : Bytes) : Prop :=
  (adapterAfter P settings calls).stale = false ∧
    ∃ book, (adapterAfter P settings calls).deribitBooks symbol = some book ∧ book.isReady = true

instance (calls : List AdapterCall) (symbol : Bytes) : Decidable (LiveReady P settings calls symbol) :=
  decidable_of_iff ((adapterAfter P settings calls).stale = false ∧
      ((adapterAfter P settings calls).deribitBooks symbol).any (·.isReady) = true)
    (by rw [LiveReady, Option.any_eq_true])

/-- A call that starts the symbol's book over: a connect, or a snapshot of the symbol. -/
def StartsOver (symbol : Bytes) : AdapterCall → Prop
  | .onConnect _ => True
  | .onFrame payload => ∃ snapshot, parseDeribitFixMessage P settings.scale payload = .ok (.snapshot symbol snapshot)
  | _ => False

/-- A 35=X message has been applied to the symbol's book since the book's snapshot, with
the frames of the connection before it. -/
def AppliedSinceSnapshot (calls : List AdapterCall) (symbol : Bytes) (before : List Bytes) (raw : Bytes) : Prop :=
  ∃ pre post updates, calls = pre ++ .onFrame raw :: post ∧ before = framesSinceConnect pre ∧
    LiveReady P settings pre symbol ∧
    parseDeribitFixMessage P settings.scale raw = .ok (.update symbol updates) ∧
    ∀ call ∈ post, ¬ StartsOver P settings symbol call

/-- Every update applied to a live Ready book since its snapshot was in sequence. -/
def ReadyInSequence (calls : List AdapterCall) : Prop :=
  ∀ symbol, LiveReady P settings calls symbol → ∀ before raw, AppliedSinceSnapshot P settings calls symbol before raw →
    ∃ message, parsed raw = some message ∧ InSequence before message

/-- After some messages, a message is out of sequence and yet an update for a Ready book. -/
def UpdatesOutOfSequence (before : List Bytes) (raw : Bytes) : Prop :=
  ∃ message symbol updates, parsed raw = some message ∧ ¬ InSequence before message ∧
    parseDeribitFixMessage P settings.scale raw = .ok (.update symbol updates) ∧
    LiveReady P settings (before.map .onFrame) symbol

end Applied

end Deribit

end CryptoTrader
