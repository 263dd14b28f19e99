import GmKms.Audit.Worm
import GmKms.Lib.Machine
/-!
# The signed audit loggers

`SignedAuditLogger`, `TimestampedAuditLogger` and `WormSignedAuditLogger` sign an
entry in the same steps, each under a lock of its own. `log` is one call from its
start to its end; `step` interleaves the steps of any number of calls.
-/

namespace GmKms.Audit

open Lib

inductive LoggerKind where
  | signed | timestamped | worm
  deriving DecidableEq, Repr

structure LoggerConfig where
  kind : LoggerKind
  signingKey : Bytes
  initialSequence : UInt64
  bufferSize : ℕ

/-- The state of a logger. The timestamp is one of `TimestampedAuditLogger`, the writer one
of `WormSignedAuditLogger`; `output` is what flushes have taken out of the buffer. -/
structure Logger (F : Type) where
  currentSequence : UInt64
  previousSignature : Option Bytes
  currentTs : Option TrustedTimestamp
  worm : WormWriter
  buffer : List (SignedAuditEntry F)
  output : List (SignedAuditEntry F)

namespace Logger

section

variable {F : Type} (S : Formats F) (hmac : Bytes → Bytes → Bytes) (sha256 : Bytes → Bytes) (config : LoggerConfig)

/-- `new` of each logger; none of them reads `initial_sequence`. -/
def new (_config : LoggerConfig) (worm : WormWriter) : Logger F := ⟨0, none, none, worm, [], []⟩

/-- The entries in the order in which they were appended to the buffer. -/
def appended (l : Logger F) : List (SignedAuditEntry F) := l.output ++ l.buffer

/-! ## The steps of a call -/

/-- The next sequence number is taken. -/
def advance (l : Logger F) : Logger F := { l with currentSequence := l.currentSequence + 1 }

def storeSignature (entry : SignedAuditEntry F) (l : Logger F) : Logger F :=
  { l with previousSignature := some entry.signature }

/-- An error of the writer is only logged. -/
def writeWorm (env : AppendEnv) (entry : SignedAuditEntry F) (l : Logger F) : Logger F :=
  { l with worm := (l.worm.append S sha256 env entry).2 }

def push (entry : SignedAuditEntry F) (l : Logger F) : Logger F := { l with buffer := l.buffer ++ [entry] }

def flush (l : Logger F) : Logger F := { l with buffer := [], output := l.output ++ l.buffer }

/-! ## Calls one after another -/

/-- The entry that a call signs. -/
def newEntry (event : AuditEvent F) (l : Logger F) : SignedAuditEntry F :=
  let ts := if config.kind = .timestamped then l.currentTs else none
  .new S hmac event l.currentSequence config.signingKey l.previousSignature ts

/-- `log`, with nothing else going on. -/
def log (env : AppendEnv) (event : AuditEvent F) (l : Logger F) : Logger F :=
  let entry := l.newEntry S hmac config event
  let l := l.advance.storeSignature entry
  let l := if config.kind = .worm then l.writeWorm S sha256 env entry else l
  let l := l.push entry
  if config.bufferSize ≤ l.buffer.length then l.flush else l

/-- Calls of `log` one after another. The answer is what the append to the WORM files gave;
the code only logs it. -/
def logging : Machine (Logger F) (AuditEvent F × AppendEnv) (Except AuditError Unit) := fun l i =>
  (if config.kind = .worm then (l.worm.append S sha256 i.2 (l.newEntry S hmac config i.1)).1 else .ok (),
    l.log S hmac sha256 config i.2 i.1)

end

end Logger

/-! ## Concurrent calls -/

/-- How far a call has come. -/
inductive LogCall (F : Type) where
  | sequenced (event : AuditEvent F) (sequence : UInt64)
  | linked (event : AuditEvent F) (sequence : UInt64) (previous : Option Bytes)
  | stamped (event : AuditEvent F) (sequence : UInt64) (previous : Option Bytes) (ts : Option TrustedTimestamp)
  | signed (entry : SignedAuditEntry F)
  | written (entry : SignedAuditEntry F)
  | full

structure LoggerRun (F : Type) where
  logger : Logger F
  calls : ℕ → Option (LogCall F)

/-- A call takes its sequence number, a call takes its next step, the timestamp changes,
or the buffer is flushed. -/
inductive LogInput (F : Type) where
  | log (call : ℕ) (event : AuditEvent F)
  | next (call : ℕ) (env : AppendEnv)
  | timestamp (ts : Option TrustedTimestamp)
  | flush

namespace LoggerRun

section

variable {F : Type} (S : Formats F) (hmac : Bytes → Bytes → Bytes) (sha256 : Bytes → Bytes) (config : LoggerConfig)

def setCall (id : ℕ) (c : Option (LogCall F)) (s : LoggerRun F) : LoggerRun F :=
  { s with calls := Function.update s.calls id c }

/-- The entry is signed and its signature stored. -/
def sign (id : ℕ) (event : AuditEvent F) (sequence : UInt64) (previous : Option Bytes) (ts : Option TrustedTimestamp)
    (s : LoggerRun F) : LoggerRun F :=
  let entry := SignedAuditEntry.new S hmac event sequence config.signingKey previous ts
  ({ s with logger := s.logger.storeSignature entry } : LoggerRun F).setCall id (some (.signed entry))

/-- The entry is appended to the buffer; the call goes on when the buffer is full. -/
def push (id : ℕ) (entry : SignedAuditEntry F) (s : LoggerRun F) : LoggerRun F :=
  let logger := s.logger.push entry
  ({ s with logger } : LoggerRun F).setCall id (if config.bufferSize ≤ logger.buffer.length then some .full else none)

def nextOf (id : ℕ) (env : AppendEnv) (c : LogCall F) (s : LoggerRun F) : LoggerRun F :=
  match c with
  | .sequenced event n => s.setCall id (some (.linked event n s.logger.previousSignature))
  | .linked event n previous =>
    if config.kind = .timestamped then s.setCall id (some (.stamped event n previous s.logger.currentTs))
    else s.sign S hmac config id event n previous none
  | .stamped event n previous ts => s.sign S hmac config id event n previous ts
  | .signed entry =>
    if config.kind = .worm then
      ({ s with logger := s.logger.writeWorm S sha256 env entry } : LoggerRun F).setCall id (some (.written entry))
    else s.push config id entry
  | .written entry => s.push config id entry
  | .full => ({ s with logger := s.logger.flush } : LoggerRun F).setCall id none

def stepTo (s : LoggerRun F) : LogInput F → LoggerRun F
  | .log id event =>
    match s.calls id with
    | some _ => s
    | none =>
      ({ s with logger := s.logger.advance } : LoggerRun F).setCall id
      (some (.sequenced event s.logger.currentSequence))
  | .next id env =>
    match s.calls id with
    | some c => s.nextOf S hmac sha256 config id env c
    | none => s
  | .timestamp ts => { s with logger := { s.logger with currentTs := ts } }
  | .flush => { s with logger := s.logger.flush }

/-- The logger with its calls, as a machine that answers nothing. -/
def step : Machine (LoggerRun F) (LogInput F) Unit := fun s i => ((), s.stepTo S hmac sha256 config i)

/-- A new logger on an empty directory, with no calls. -/
def start (rotationAge : ℕ) : LoggerRun F := ⟨.new config (.new sha256 rotationAge []), fun _ => none⟩

end

end LoggerRun

def sampleConfig (kind : LoggerKind) : LoggerConfig := ⟨kind, sampleKey, 0, 100⟩

def sampleEnv : AppendEnv := ⟨1750000000000000000, 1750000000000000000, 1750000000000000000, true, fun _ => none, 0⟩

end GmKms.Audit
