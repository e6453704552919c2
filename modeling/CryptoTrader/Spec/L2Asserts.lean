import CryptoTrader.Lib.Machine
import CryptoTrader.Spec.Adapter

/-! The `assert` of `L2Levels::ApplyOne`, in a build that checks it, and the Deribit
connection whose frames reach it. A run of such a build is a partial run: it stops where
an assert fails. -/

namespace CryptoTrader

namespace L2Levels

/-- What `ApplyOne` asserts: no New for a price level already tracked. -/
def assertion (l : L2Levels) (update : L2Update) : Bool :=
  !(update.operation = .new && ((l.levels.get update.side).find? update.price).isSome)

/-- `ApplyOne` with its assert. The branches that return before it are not those of a New. -/
def applyOneAsserting (acc : L2Levels × ChangeSet) (update : L2Update) : Option (L2Levels × ChangeSet) :=
  if acc.1.assertion update then some (applyOne acc update) else none

/-- No assert fails in the loop of `ApplyUpdates`. -/
def assertsPass (l : L2Levels) (updates : List L2Update) : Bool :=
  (Machine.run applyOneAsserting (l, {}) updates).isSome

end L2Levels

/-- A batch and the levels it is applied to. -/
structure AppliedBatch where
  symbol : Bytes
  levels : L2Levels
  updates : List L2Update

namespace Connection

variable {N D : Type} (P : Platform N D)

/-- The `35=X` batch that a call applies to a Ready book of the connection, if it does. -/
def appliedBatch (conn : Connection) : AdapterCall → Option AppliedBatch
  | .onFrame payload =>
    if conn.stale ∨ conn.settings.source ≠ .deribitFix then none
    else
      match parseDeribitFixMessage P conn.settings.scale payload with
      | .ok (.update symbol updates) =>
        match conn.deribitBooks symbol with
        | some book => if book.isReady then some ⟨symbol, book.policy.levels, updates⟩ else none
        | none => none
      | _ => none
  | _ => none

/-- One call in a build with asserts, nothing if it aborts. -/
def callAsserting (conn : Connection) (c : AdapterCall) : Option Connection :=
  match conn.appliedBatch P c with
  | some batch => if batch.levels.assertsPass batch.updates then some (conn.call P c) else none
  | none => some (conn.call P c)

def runAsserting (conn : Connection) (calls : List AdapterCall) : Option Connection :=
  Machine.run (callAsserting P) conn calls

end Connection

end CryptoTrader
