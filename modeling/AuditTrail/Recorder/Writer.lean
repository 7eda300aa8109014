import AuditTrail.Settings.Basic
import AuditTrail.Store.Basic

/-!
Writing a batch with repeated attempts. Between two attempts the writer waits, longer each time up
to a limit.
-/

namespace AuditTrail

structure Paced (σ : Type) where
  store : σ
  waitedMs : Nat := 0

namespace Paced

variable {σ : Type} [Store σ]

instance : Store (Paced σ) where
  name paced := Store.name paced.store
  append batch paced :=
    let (outcome, store) := Store.append batch paced.store
    (outcome, { paced with store })
  readRange session first last paced := Store.readRange session first last paced.store
  lastEvent session paced :=
    let (outcome, store) := Store.lastEvent session paced.store
    (outcome, { paced with store })
  eventCount session paced := Store.eventCount session paced.store
  sessionIds paced := Store.sessionIds paced.store
  healthCheck paced := Store.healthCheck paced.store

end Paced

/-- One attempt is always made; `retries` more may follow. -/
structure RetryPlan where
  retries : Nat
  backoffMs : Nat
  maxBackoffMs : Nat

namespace RetryPlan

variable {σ : Type} [Store σ]

def ofSettings (settings : WorkerSettings) : RetryPlan :=
  ⟨settings.maxWriteRetries, settings.retryBackoffMs, settings.maxRetryBackoffMs⟩

def nextDelay (plan : RetryPlan) (delayMs : Nat) : Nat :=
  min (2 * delayMs) plan.maxBackoffMs

def attempts (plan : RetryPlan) (session : String) (events : List SealedEvent) :
    (left attempt delayMs : Nat) → Paced σ → Outcome Unit × Paced σ
  | left, attempt, delayMs, paced =>
    match Store.append events paced.store with
    | (.ok (), store) => (.ok (), { paced with store })
    | (.error error, store) =>
      match left with
      | 0 => (.error (.storageWriteFailure session attempt error.message), { paced with store })
      | left + 1 =>
        plan.attempts session events left (attempt + 1) (plan.nextDelay delayMs)
          ⟨store, paced.waitedMs + delayMs⟩

def write (plan : RetryPlan) (events : List SealedEvent) (paced : Paced σ) :
    Outcome Unit × Paced σ :=
  let session := (events.head?.map (·.sessionId)).getD ""
  plan.attempts session events plan.retries 1 plan.backoffMs paced

end RetryPlan

end AuditTrail
