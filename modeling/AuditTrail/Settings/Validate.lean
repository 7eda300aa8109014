import AuditTrail.Settings.Basic
import AuditTrail.Settings.SyncOverrides

/-!
Settings that a ledger can run with.
-/

namespace AuditTrail.Settings

def fault? (settings : Settings) : Option String :=
  if settings.queue.maxSize = 0 then some "queue.max_size must be greater than 0"
  else if settings.worker.batchSize = 0 then some "processor.batch_size must be greater than 0"
  else if settings.worker.pollIntervalMs = 0 then
    some "processor.poll_interval_ms must be greater than 0"
  else if settings.worker.maxRetryBackoffMs < settings.worker.retryBackoffMs then
    some "processor.retry_backoff_ms exceeds max_retry_backoff_ms"
  else if settings.retention.any fun rule => rule.typePrefix = "" then
    some "retention.event_type_prefix must not be empty"
  else none

def validate (settings : Settings) : Outcome SyncOverrides :=
  match settings.fault? with
  | some reason => .error (.invalidConfig reason)
  | none => SyncOverrides.ofList settings.syncEventTypes

end AuditTrail.Settings
