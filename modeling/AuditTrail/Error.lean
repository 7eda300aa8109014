import AuditTrail.Json.Decode
import AuditTrail.Canonical.Datum

/-!
What can go wrong while events are recorded, stored, verified and replayed. Every cause has a
stable code, a category for alerting and a message for people.
-/

namespace AuditTrail

inductive ErrorCategory where
  | validation
  | backpressure
  | durability
  | integrity
  | configuration
  | internal
  | external
deriving DecidableEq

def ErrorCategory.name : ErrorCategory → String
  | .validation => "validation"
  | .backpressure => "backpressure"
  | .durability => "durability"
  | .integrity => "integrity"
  | .configuration => "configuration"
  | .internal => "internal"
  | .external => "external"

inductive LedgerError where
  | serialization (reason : String)
  | queueFull (capacity : Nat) (policy : String)
  | timeout (operation : String) (waitedMs : Nat)
  | invalidSession (session reason : String)
  | storageWriteFailure (session : String) (attempts : Nat) (reason : String)
  | sessionHalted (session : String)
  | storage (backend reason : String)
  | storageLocked
  | chainBreak (session : String) (sequence : UInt64) (reason : String)
  | manifestMismatch (manifest : String) (failures : Nat)
  | invalidManifest (reason : String)
  | invalidConfig (reason : String)
  | json (cause : DecodeError)
  | io (reason : String)
  | processorStopped (reason : String)
  | internal (reason : String)

namespace LedgerError

def ofEncode (cause : EncodeError) : LedgerError :=
  .serialization cause.message

def message : LedgerError → String
  | .serialization reason =>
    s!"Serialization error: {reason}. Event content must be canonically encodable " ++
      "(finite numbers, valid UTF-8, string keys)."
  | .queueFull capacity policy =>
    s!"Trace queue full: capacity {capacity} reached under '{policy}' overflow policy."
  | .timeout operation waitedMs => s!"Timed out after {waitedMs}ms waiting for {operation}."
  | .invalidSession session reason => s!"Invalid session id '{session}': {reason}"
  | .storageWriteFailure session attempts reason =>
    s!"Storage write failed for session '{session}' after {attempts} attempts: {reason}. " ++
      "Batch kept for recovery."
  | .sessionHalted session =>
    s!"Session '{session}' is halted by an unrecovered failed batch. " ++
      "Call retry_failed() once storage is healthy."
  | .storage backend reason => s!"Storage error in '{backend}' backend: {reason}"
  | .storageLocked => "Storage backend lock poisoned. This is a bug; please report it."
  | .chainBreak session sequence reason =>
    s!"Chain break in session '{session}' at sequence {sequence}: {reason}. " ++
      "The audit trail may have been tampered with."
  | .manifestMismatch manifest failures =>
    s!"Manifest '{manifest}' mismatch: {failures} event(s) failed."
  | .invalidManifest reason => s!"Invalid golden manifest: {reason}"
  | .invalidConfig reason => s!"Invalid ledger configuration: {reason}"
  | .json cause => s!"JSON error: {cause.message}"
  | .io reason => s!"IO error: {reason}"
  | .processorStopped reason => s!"Trace processor stopped: {reason}"
  | .internal reason => s!"Internal error: {reason}. This is a bug; please report it."

def code : LedgerError → String
  | .serialization _ => "SERIALIZATION_ERROR"
  | .queueFull _ _ => "QUEUE_FULL"
  | .timeout _ _ => "TIMEOUT"
  | .invalidSession _ _ => "INVALID_SESSION"
  | .storageWriteFailure _ _ _ => "STORAGE_WRITE_FAILURE"
  | .sessionHalted _ => "SESSION_HALTED"
  | .storage _ _ => "STORAGE_ERROR"
  | .storageLocked => "STORAGE_LOCKED"
  | .chainBreak _ _ _ => "CHAIN_BREAK"
  | .manifestMismatch _ _ => "MANIFEST_MISMATCH"
  | .invalidManifest _ => "INVALID_MANIFEST"
  | .invalidConfig _ => "INVALID_CONFIG"
  | .json _ => "JSON_ERROR"
  | .io _ => "IO_ERROR"
  | .processorStopped _ => "PROCESSOR_STOPPED"
  | .internal _ => "INTERNAL_ERROR"

def category : LedgerError → ErrorCategory
  | .serialization _ | .invalidSession _ _ => .validation
  | .queueFull _ _ | .timeout _ _ => .backpressure
  | .storageWriteFailure _ _ _ | .sessionHalted _ | .storage _ _ => .durability
  | .chainBreak _ _ _ | .manifestMismatch _ _ => .integrity
  | .invalidManifest _ | .invalidConfig _ => .configuration
  | .storageLocked | .processorStopped _ | .internal _ => .internal
  | .json _ | .io _ => .external

def isRecoverable : LedgerError → Bool
  | .queueFull _ _ | .timeout _ _ | .storageLocked | .storage _ _ => true
  | _ => false

def isFatal : LedgerError → Bool
  | .storageWriteFailure _ _ _ | .sessionHalted _ | .chainBreak _ _ _ => true
  | _ => false

def response (error : LedgerError) : Json :=
  .object [("error", .object [
    ("code", .string error.code),
    ("message", .string error.message),
    ("category", .string error.category.name),
    ("recoverable", .bool error.isRecoverable)])]

def description (error : LedgerError) : Json :=
  .object [
    ("code", .string error.code),
    ("message", .string error.message),
    ("category", .string error.category.name),
    ("recoverable", .bool error.isRecoverable),
    ("fatal", .bool error.isFatal),
    ("response", error.response)]

end LedgerError

abbrev Outcome (α : Type) := Except LedgerError α

namespace Datum

def canonical (datum : Datum) : Outcome String :=
  match datum.encode with
  | .ok chars => .ok (String.ofList chars)
  | .error cause => .error (.ofEncode cause)

def toValue (datum : Datum) : Outcome Json := do
  let written ← datum.canonical
  match Json.parse? written with
  | some value => .ok value
  | none => .error (.json .malformed)

end Datum

end AuditTrail
