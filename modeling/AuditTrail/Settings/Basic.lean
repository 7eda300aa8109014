import AuditTrail.Error

/-!
Settings of a ledger: which sessions record at once, what happens when the queue is full, how the
worker batches and retries, how long events are kept.
-/

namespace AuditTrail

inductive RecordingMode where
  | immediate
  | deferred
deriving DecidableEq

namespace RecordingMode

def name : RecordingMode → String
  | .immediate => "immediate"
  | .deferred => "deferred"

def all : List RecordingMode := [.immediate, .deferred]

def toJson (mode : RecordingMode) : Json := .string mode.name

def decode : Decoder RecordingMode :=
  Decoder.variant (all.map fun mode => (mode.name, mode))

end RecordingMode

inductive OverflowPolicy where
  | reject
  | block (timeoutMs : Nat)
  | syncFallback
deriving DecidableEq

namespace OverflowPolicy

def name : OverflowPolicy → String
  | .reject => "reject"
  | .block _ => "block"
  | .syncFallback => "sync_fallback"

def toJson : OverflowPolicy → Json
  | .block timeoutMs => .object [("policy", .string "block"), ("timeout_ms", .ofNat timeoutMs)]
  | policy => .object [("policy", .string policy.name)]

def kinds : List (String × RecordReader OverflowPolicy) := [
  ("reject", pure .reject),
  ("block", OverflowPolicy.block <$> .required "timeout_ms" (.natBelow UInt64.size "u64")),
  ("sync_fallback", pure .syncFallback)]

def decode : Decoder OverflowPolicy :=
  Decoder.tagged "OverflowPolicy" "policy" kinds

end OverflowPolicy

structure QueueSettings where
  maxSize : Nat := 4096
deriving DecidableEq

namespace QueueSettings

def toJson (settings : QueueSettings) : Json :=
  .object [("max_size", .ofNat settings.maxSize)]

def reader : RecordReader QueueSettings :=
  QueueSettings.mk <$> .withDefault "max_size" (.natBelow UInt64.size "usize") 4096

def decode : Decoder QueueSettings := reader.decode "QueueConfig"

end QueueSettings

structure WorkerSettings where
  batchSize : Nat := 100
  flushIntervalMs : Nat := 5000
  pollIntervalMs : Nat := 10
  maxWriteRetries : Nat := 5
  retryBackoffMs : Nat := 50
  maxRetryBackoffMs : Nat := 2000
  flushOnShutdown : Bool := true
deriving DecidableEq

namespace WorkerSettings

def toJson (settings : WorkerSettings) : Json :=
  .object [
    ("batch_size", .ofNat settings.batchSize),
    ("flush_interval_ms", .ofNat settings.flushIntervalMs),
    ("poll_interval_ms", .ofNat settings.pollIntervalMs),
    ("max_write_retries", .ofNat settings.maxWriteRetries),
    ("retry_backoff_ms", .ofNat settings.retryBackoffMs),
    ("max_retry_backoff_ms", .ofNat settings.maxRetryBackoffMs),
    ("flush_on_shutdown", .bool settings.flushOnShutdown)]

def reader : RecordReader WorkerSettings :=
  WorkerSettings.mk <$> .withDefault "batch_size" (.natBelow UInt64.size "usize") 100 <*>
    .withDefault "flush_interval_ms" (.natBelow UInt64.size "u64") 5000 <*>
    .withDefault "poll_interval_ms" (.natBelow UInt64.size "u64") 10 <*>
    .withDefault "max_write_retries" (.natBelow UInt32.size "u32") 5 <*>
    .withDefault "retry_backoff_ms" (.natBelow UInt64.size "u64") 50 <*>
    .withDefault "max_retry_backoff_ms" (.natBelow UInt64.size "u64") 2000 <*>
    .withDefault "flush_on_shutdown" .bool true

def decode : Decoder WorkerSettings := reader.decode "ProcessorConfig"

end WorkerSettings

structure RetentionRule where
  typePrefix : String
  seconds : Nat
deriving DecidableEq

namespace RetentionRule

def toJson (rule : RetentionRule) : Json :=
  .object [
    ("event_type_prefix", .string rule.typePrefix),
    ("retain_seconds", .ofNat rule.seconds)]

def reader : RecordReader RetentionRule :=
  RetentionRule.mk <$> .required "event_type_prefix" .string <*>
    .required "retain_seconds" (.natBelow UInt64.size "u64")

def decode : Decoder RetentionRule := reader.decode "RetentionRule"

end RetentionRule

structure Settings where
  mode : RecordingMode
  sessionModes : Table RecordingMode := []
  overflowPolicy : OverflowPolicy
  syncEventTypes : List String
  queue : QueueSettings := {}
  worker : WorkerSettings := {}
  syncWaitTimeoutMs : Nat := 5000
  retention : List RetentionRule := []

namespace Settings

def modeFor (settings : Settings) (session : String) : RecordingMode :=
  (settings.sessionModes.find? session).getD settings.mode

def toJson (settings : Settings) : Json :=
  .object [
    ("mode", settings.mode.toJson),
    ("session_modes", .object (settings.sessionModes.map fun (key, mode) => (key, mode.toJson))),
    ("overflow_policy", settings.overflowPolicy.toJson),
    ("sync_event_types", .array (settings.syncEventTypes.map Json.string)),
    ("queue", settings.queue.toJson),
    ("processor", settings.worker.toJson),
    ("sync_wait_timeout_ms", .ofNat settings.syncWaitTimeoutMs),
    ("retention", .array (settings.retention.map RetentionRule.toJson))]

def reader : RecordReader Settings :=
  Settings.mk <$> .required "mode" RecordingMode.decode <*>
    .withDefault "session_modes" (.table RecordingMode.decode) [] <*>
    .required "overflow_policy" OverflowPolicy.decode <*>
    .required "sync_event_types" (.list .string) <*>
    .withDefault "queue" QueueSettings.decode {} <*>
    .withDefault "processor" WorkerSettings.decode {} <*>
    .withDefault "sync_wait_timeout_ms" (.natBelow UInt64.size "u64") 5000 <*>
    .withDefault "retention" (.list RetentionRule.decode) []

def decode : Decoder Settings := reader.decode "LedgerConfig"

end Settings

end AuditTrail
