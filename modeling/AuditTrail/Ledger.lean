import AuditTrail.Recorder.Worker
import AuditTrail.Settings.Validate

/-!
The ledger: events are emitted into it and end in the store, at once or through the queue, in the
order of their emission within a session.
-/

namespace AuditTrail

inductive Emitted where
  | queued
  | committed (event : SealedEvent)

def Emitted.toJson : Emitted → Json
  | .queued => .object [("queued", .bool true)]
  | .committed event => .object [("committed", event.toJson)]

structure Ledger (σ : Type) where
  settings : Settings
  overrides : SyncOverrides
  recorder : Recorder σ
  syncCommits : Nat := 0
  syncFallbacks : Nat := 0

namespace Ledger

variable {σ : Type} [Store σ]

def create (store : σ) (settings : Settings) : Outcome (Ledger σ) := do
  let overrides ← settings.validate
  match EventQueue.empty? settings.queue.maxSize settings.overflowPolicy with
  | some queue => .ok {
      settings, overrides
      recorder := Recorder.create store queue settings.worker }
  | none => .error (.internal "queue without room")

def store (ledger : Ledger σ) : σ :=
  ledger.recorder.store

def withStore (ledger : Ledger σ) (store : σ) : Ledger σ :=
  { ledger with recorder := ledger.recorder.withStore store }

def start (now : Timestamp) (ledger : Ledger σ) : Outcome Unit × Ledger σ :=
  if ledger.recorder.running then (.ok (), ledger)
  else
    let (outcome, recorder) := ledger.recorder.start now
    (outcome, { ledger with recorder })

def shutdown (now : Timestamp) (ledger : Ledger σ) : Ledger σ :=
  { ledger with recorder := ledger.recorder.join now }

/-- The store that a closed ledger leaves behind: queued events are written if the settings say so,
all others are gone. -/
def close (now : Timestamp) (ledger : Ledger σ) : σ :=
  let recorder := ledger.recorder
  if recorder.running then (recorder.join now).store
  else if recorder.settings.flushOnShutdown && recorder.queue.size ≠ 0 then
    (recorder.processPending now).2.store
  else recorder.store

def drainSession (session : String) (timeoutMs : Nat) (now : Timestamp) (ledger : Ledger σ) :
    Outcome Unit × Ledger σ :=
  let before := ledger.recorder.waitedMs
  let (outcome, recorder) :=
    if ledger.recorder.running then
      let (request, recorder) := ledger.recorder.requestFlush now
      (recorder.awaitFlush request timeoutMs, recorder)
    else (.ok (), (ledger.recorder.processPending now).2)
  match outcome with
  | .error error => (.error error, { ledger with recorder })
  | .ok () =>
    let left := timeoutMs - (recorder.waitedMs - before) - 1
    let (outcome, recorder) := recorder.awaitReady session left now
    (outcome, { ledger with recorder })

def commitNow (raw : RawEvent) (now : Timestamp) (ledger : Ledger σ) :
    Outcome SealedEvent × Ledger σ :=
  let session := raw.sessionId
  if ledger.recorder.progress.isHalted session then (.error (.sessionHalted session), ledger)
  else
    let (drained, ledger) :=
      if (ledger.recorder.progress.of session).queued = 0 then (.ok (), ledger)
      else ledger.drainSession session ledger.settings.syncWaitTimeoutMs now
    match drained with
    | .error (.storageWriteFailure _ _ _) => (.error (.sessionHalted session), ledger)
    | .error error => (.error error, ledger)
    | .ok () =>
      match ledger.recorder.commitRaws session [raw] now with
      | (.error failure, recorder) => (.error failure.error, { ledger with recorder })
      | (.ok [], recorder) =>
        (.error (.internal "inline commit produced no event"), { ledger with recorder })
      | (.ok (event :: _), recorder) =>
        (.ok event, { ledger with
          recorder := { recorder with
            progress := recorder.progress.committed session event.sequenceNumber 0 }
          syncCommits := ledger.syncCommits + 1 })

def commitEmitted (raw : RawEvent) (now : Timestamp) (ledger : Ledger σ) :
    Outcome Emitted × Ledger σ :=
  let (outcome, ledger) := ledger.commitNow raw now
  (outcome.map Emitted.committed, ledger)

def isInline (ledger : Ledger σ) (raw : RawEvent) : Bool :=
  ledger.settings.modeFor raw.sessionId = .immediate || ledger.overrides.accepts raw.eventType

/-- Takes an event in. An event that finds the queue full is refused or, if the policy falls back,
stored at once. -/
def emit (raw : RawEvent) (now : Timestamp) (ledger : Ledger σ) : Outcome Emitted × Ledger σ :=
  if ledger.isInline raw then ledger.commitEmitted raw now
  else
    let session := raw.sessionId
    let recorder := { ledger.recorder with
      progress := ledger.recorder.progress.enqueued session }
    match recorder.push raw now with
    | (.ok (), recorder) => (.ok .queued, { ledger with recorder })
    | (.error raw, recorder) =>
      let recorder := { recorder with progress := recorder.progress.withdrawn session }
      match recorder.queue.policy with
      | .syncFallback =>
        commitEmitted raw now
          { ledger with recorder, syncFallbacks := ledger.syncFallbacks + 1 }
      | _ => (.error recorder.queue.fullError, { ledger with recorder })

def emitAll (now : Timestamp) : List RawEvent → Ledger σ → Outcome (List Emitted) × Ledger σ
  | [], ledger => (.ok [], ledger)
  | raw :: rest, ledger =>
    match ledger.emit raw now with
    | (.error error, ledger) => (.error error, ledger)
    | (.ok emitted, ledger) =>
      let (outcome, ledger) := emitAll now rest ledger
      (outcome.map (emitted :: ·), ledger)

def flush (timeoutMs : Nat) (now : Timestamp) (ledger : Ledger σ) : Outcome Unit × Ledger σ :=
  if ledger.recorder.running then
    let (request, recorder) := ledger.recorder.requestFlush now
    (recorder.awaitFlush request timeoutMs, { ledger with recorder })
  else (.ok (), { ledger with recorder := (ledger.recorder.processPending now).2 })

def isReady (ledger : Ledger σ) (session : String) : Bool :=
  ledger.recorder.progress.isReady session

def awaitReady (session : String) (timeoutMs : Nat) (now : Timestamp) (ledger : Ledger σ) :
    Outcome Unit × Ledger σ :=
  let recorder :=
    if ledger.recorder.running then ledger.recorder
    else (ledger.recorder.processPending now).2
  let (outcome, recorder) := recorder.awaitReady session timeoutMs now
  (outcome, { ledger with recorder })

def readCommitted (ledger : Ledger σ) (session : String) : Outcome (List SealedEvent) :=
  Store.readAll session ledger.store

def readReady (session : String) (timeoutMs : Nat) (now : Timestamp) (ledger : Ledger σ) :
    Outcome (List SealedEvent) × Ledger σ :=
  match ledger.awaitReady session timeoutMs now with
  | (.error error, ledger) => (.error error, ledger)
  | (.ok (), ledger) => (ledger.readCommitted session, ledger)

def endSession (session : String) (timeoutMs : Nat) (now : Timestamp) (ledger : Ledger σ) :
    Outcome Unit × Ledger σ :=
  match ledger.drainSession session timeoutMs now with
  | (.error error, ledger) => (.error error, ledger)
  | (.ok (), ledger) =>
    let recorder := ledger.recorder
    let (gone, progress) := recorder.progress.forget session
    let chain := if gone then recorder.chain.evict session else recorder.chain
    (.ok (), { ledger with recorder := { recorder with progress, chain } })

def retryFailed (session : String) (now : Timestamp) (ledger : Ledger σ) :
    Outcome Nat × Ledger σ :=
  let (outcome, recorder) := ledger.recorder.retryFailed session now
  (outcome, { ledger with recorder })

def head (session : String) (ledger : Ledger σ) : Outcome ChainHead × Ledger σ :=
  let (outcome, chain) := ledger.recorder.chain.head session
  (outcome, { ledger with recorder := { ledger.recorder with chain } })

def verify (ledger : Ledger σ) (session : String) (first last : UInt64) : Outcome Verification :=
  Store.verify ledger.store session first last

def committedSequence (ledger : Ledger σ) (session : String) : Option UInt64 :=
  (ledger.recorder.progress.of session).committed

def sessionCount (ledger : Ledger σ) : Nat :=
  ledger.recorder.chain.sessionCount

def stats (ledger : Ledger σ) : Json :=
  .object [
    ("queue", ledger.recorder.queue.stats),
    ("processor", ledger.recorder.stats),
    ("sync_commits", .ofNat ledger.syncCommits),
    ("sync_fallbacks", .ofNat ledger.syncFallbacks)]

end Ledger

end AuditTrail
