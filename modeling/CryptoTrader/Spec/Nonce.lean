import CryptoTrader.Lib.Machine
import CryptoTrader.Spec.FixMessage
import Mathlib.Data.List.DropRight

/-! The nonces of signed calls (`feed_handler/kraken/kraken_signing.cpp`):
`NonceGenerator`, and `PersistentNonceSource` with its state file. A process can die
between any two things it does to the file system, so a call is made of steps. The path
of the state file is not empty. -/

namespace CryptoTrader.Nonce

structure NonceGenerator where
  last : ℕ := 0
  deriving DecidableEq, Repr

def NonceGenerator.nextFrom (generator : NonceGenerator) (nowMicros : ℕ) : NonceGenerator :=
  ⟨max nowMicros ((generator.last + 1) % 2 ^ 64)⟩

def NonceGenerator.seedAtLeast (generator : NonceGenerator) (value : ℕ) : NonceGenerator := ⟨max generator.last value⟩

/-- `std::isspace` in the C locale. -/
def isSpace (byte : UInt8) : Bool := byte = 32 || (9 ≤ byte && byte ≤ 13)

/-- No file is the ordinary first run and has no reason. -/
def readHighWaterMark (file : Option Bytes) (readable : Bool) : Except (Option String) ℕ :=
  match file with
  | none => .error none
  | some content =>
    if readable = false then .error (some "cannot open it for reading")
    else
      match Fix.toSize (content.rdropWhile isSpace) with
      | none => .error (some "contents are not a single decimal nonce")
      | some value => .ok value

/-- What `WriteHighWaterMark` writes. -/
def markText (value : ℕ) : Bytes := natText value ++ [10]

/-- The generator of a new `PersistentNonceSource`. -/
def restore (file : Option Bytes) (readable : Bool) : NonceGenerator :=
  match readHighWaterMark file readable with
  | .ok mark => ({} : NonceGenerator).seedAtLeast mark
  | .error _ => {}

/-- Where a process is in `NextFrom`. -/
inductive Phase where
  | idle
  /-- `WriteHighWaterMark` is called. -/
  | preparing (value : ℕ)
  /-- The temporary file is open. -/
  | writing (value : ℕ)
  /-- The temporary file is written and closed. -/
  | renaming (value : ℕ)
  /-- `WriteHighWaterMark` returned. -/
  | returning (value : ℕ) (written : Bool)
  deriving DecidableEq, Repr

structure NonceProcess where
  generator : NonceGenerator
  phase : Phase
  deriving DecidableEq, Repr

/-- A nonce that was returned, and whether its mark was written. -/
structure Returned where
  value : ℕ
  written : Bool
  deriving DecidableEq, Repr

/-- The files, the process that runs, if one does, and what happened so far. -/
structure System where
  stateFile : Option Bytes := none
  temporary : Option Bytes := none
  process : Option NonceProcess := none
  returned : List Returned := []
  /-- The marks that were renamed into place. -/
  renamed : List ℕ := []
  deriving DecidableEq, Repr

inductive Action where
  | start (readable : Bool)
  | call (nowMicros : ℕ)
  /-- The directory is there, and the temporary file could be opened and emptied. -/
  | prepare (directory opened : Bool)
  /-- Some of the text has reached the temporary file. -/
  | write (count : ℕ)
  | flush (written : Bool)
  | rename (renamed : Bool)
  | finish
  | crash
  deriving DecidableEq, Repr

namespace System

variable (s : System) (process : NonceProcess)

def goOn (phase : Phase) : System := { s with process := some { process with phase } }

def callNext (nowMicros : ℕ) : Option System :=
  match process.phase with
  | .idle =>
    let generator := process.generator.nextFrom nowMicros
    some { s with process := some ⟨generator, .preparing generator.last⟩ }
  | _ => none

def prepare (directory opened : Bool) : Option System :=
  match process.phase with
  | .preparing value =>
    if directory && opened then some { s.goOn process (.writing value) with temporary := some [] }
    else some (s.goOn process (.returning value false))
  | _ => none

def write (count : ℕ) : Option System :=
  match process.phase with
  | .writing value => some { s with temporary := some ((markText value).take count) }
  | _ => none

/-- A file that could not be written is removed. -/
def flush (written : Bool) : Option System :=
  match process.phase with
  | .writing value =>
    if written then some { s.goOn process (.renaming value) with temporary := some (markText value) }
    else some { s.goOn process (.returning value false) with temporary := none }
  | _ => none

/-- The rename is atomic. -/
def rename (renamed : Bool) : Option System :=
  match process.phase with
  | .renaming value =>
    if renamed then
      some { s.goOn process (.returning value true) with
        stateFile := s.temporary, temporary := none, renamed := s.renamed ++ [value] }
    else some { s.goOn process (.returning value false) with temporary := none }
  | _ => none

def finish : Option System :=
  match process.phase with
  | .returning value written =>
    some { s.goOn process .idle with returned := s.returned ++ [⟨value, written⟩] }
  | _ => none

def step (s : System) : Action → Option System
  | .start readable =>
    if s.process = none then some { s with process := some ⟨restore s.stateFile readable, .idle⟩ } else none
  | .call nowMicros => s.process.bind fun process => s.callNext process nowMicros
  | .prepare directory opened => s.process.bind fun process => s.prepare process directory opened
  | .write count => s.process.bind fun process => s.write process count
  | .flush written => s.process.bind fun process => s.flush process written
  | .rename renamed => s.process.bind fun process => s.rename process renamed
  | .finish => s.process.bind fun process => s.finish process
  | .crash => s.process.map fun _ => { s with process := none }

/-- The system after some actions, from a missing state file. -/
def run (actions : List Action) : Option System := Machine.run step {} actions

end System

end CryptoTrader.Nonce
