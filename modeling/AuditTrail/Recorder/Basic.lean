import AuditTrail.Chain.Builder
import AuditTrail.Recorder.Progress
import AuditTrail.Recorder.Queue
import AuditTrail.Recorder.Tickets
import AuditTrail.Recorder.Writer

/-!
Draining the queue into the store. A cycle takes events out, groups them by session and commits
each group as one batch. A session whose batch fails is halted: the batch is kept, later events of
the session are parked behind it, and both wait for a retry.
-/

namespace AuditTrail

/-- Events by session, in order of the first event of each; within a session in their order. -/
def groupBySession (events : List RawEvent) : List (String × List RawEvent) :=
  let rec insert (event : RawEvent) :
      List (String × List RawEvent) → List (String × List RawEvent)
    | [] => [(event.sessionId, [event])]
    | (session, group) :: rest =>
      if session = event.sessionId then (session, group ++ [event]) :: rest
      else (session, group) :: insert event rest
  events.foldl (fun groups event => insert event groups) []

structure FailedBatch where
  sessionId : String
  events : List SealedEvent
  attempts : Nat
  error : String
  failedAt : Timestamp

def FailedBatch.toJson (batch : FailedBatch) : Json :=
  .object [
    ("session_id", .string batch.sessionId),
    ("events", .array (batch.events.map SealedEvent.toJson)),
    ("attempts", .ofNat batch.attempts),
    ("error", .string batch.error),
    ("failed_at", batch.failedAt.toJson)]

structure HaltedSession where
  batch : FailedBatch
  parked : List RawEvent := []

structure Recorder (σ : Type) where
  queue : EventQueue
  chain : ChainBuilder (Paced σ)
  settings : WorkerSettings
  progress : Progress := []
  tickets : Tickets := {}
  halted : Table HaltedSession := []
  running : Bool := false
  cycles : Nat := 0
  eventsCommitted : Nat := 0
  batchesCommitted : Nat := 0
  writeFailures : Nat := 0

namespace Recorder

variable {σ : Type} [Store σ]

def create (store : σ) (queue : EventQueue) (settings : WorkerSettings) : Recorder σ where
  queue
  chain := { store := { store } }
  settings

def store (recorder : Recorder σ) : σ :=
  recorder.chain.store.store

def withStore (recorder : Recorder σ) (store : σ) : Recorder σ :=
  { recorder with chain.store.store := store }

def waitedMs (recorder : Recorder σ) : Nat :=
  recorder.chain.store.waitedMs

def plan (recorder : Recorder σ) : RetryPlan :=
  .ofSettings recorder.settings

def recordCommit (recorder : Recorder σ) (session : String) (events : List SealedEvent)
    (dequeued : Nat) : Recorder σ :=
  match events.getLast? with
  | some last => { recorder with
      progress := recorder.progress.committed session last.sequenceNumber dequeued
      eventsCommitted := recorder.eventsCommitted + events.length
      batchesCommitted := recorder.batchesCommitted + 1 }
  | none => recorder

/-- Halts a session and keeps its failed batch, with events parked behind it. -/
def recordFailure (recorder : Recorder σ) (session : String) (failure : BatchFailure)
    (parked : List RawEvent) (now : Timestamp) : Recorder σ :=
  let halt := Halt.ofError failure.error
  let batch : FailedBatch :=
    ⟨session, failure.events, halt.attempts, failure.error.message, now⟩
  { recorder with
    progress := recorder.progress.halt session halt
    halted := recorder.halted.insert session ⟨batch, parked⟩
    writeFailures := recorder.writeFailures + (if failure.offered then 1 else 0) }

def commitRaws (recorder : Recorder σ) (session : String) (raws : List RawEvent)
    (now : Timestamp) : Except BatchFailure (List SealedEvent) × Recorder σ :=
  let (result, chain) := recorder.chain.appendBatch session raws recorder.plan.write now
  (result, { recorder with chain })

def commitSealed (recorder : Recorder σ) (session : String) (events : List SealedEvent) :
    Except BatchFailure (List SealedEvent) × Recorder σ :=
  let (result, chain) := recorder.chain.commitSealed session events recorder.plan.write
  (result, { recorder with chain })

def commitGroup (now : Timestamp) (recorder : Recorder σ) (group : String × List RawEvent) :
    Recorder σ :=
  let (session, raws) := group
  match recorder.halted.find? session with
  | some halted => { recorder with
      halted := recorder.halted.insert session { halted with parked := halted.parked ++ raws } }
  | none =>
    match recorder.commitRaws session raws now with
    | (.ok events, recorder) => recorder.recordCommit session events raws.length
    | (.error failure, recorder) => recorder.recordFailure session failure [] now

/-- One drain cycle: of the whole queue if `full` is set or a flush is due, else of one batch.
Also gives the number of drained events. -/
def cycle (full : Bool) (now : Timestamp) (recorder : Recorder σ) : Nat × Recorder σ :=
  let full := full || !recorder.tickets.pending.isEmpty
  let limit := if full then recorder.queue.size else recorder.settings.batchSize
  let (drained, queue) := recorder.queue.drain limit
  let recorder := { recorder with queue, tickets := recorder.tickets.begin }
  let recorder := (groupBySession drained).foldl (commitGroup now) recorder
  (drained.length, { recorder with
    cycles := recorder.cycles + (if drained.isEmpty then 0 else 1)
    tickets := recorder.tickets.complete })

def processPending (now : Timestamp) (recorder : Recorder σ) : Nat × Recorder σ :=
  recorder.cycle true now

def retryError (session : String) (attempts : Nat) (failure : BatchFailure) : LedgerError :=
  .storageWriteFailure session attempts failure.error.message

/-- Tries again to commit the failed batch of a session and then what is parked behind it; the
session goes on once both are stored. Gives the number of committed events. -/
def retryFailed (recorder : Recorder σ) (session : String) (now : Timestamp) :
    Outcome Nat × Recorder σ :=
  match recorder.halted.find? session with
  | none => (.ok 0, recorder)
  | some ⟨batch, parked⟩ =>
    let recorder := { recorder with halted := recorder.halted.erase session }
    match recorder.commitSealed session batch.events with
    | (.error failure, recorder) =>
      (.error (retryError session batch.attempts failure),
        recorder.recordFailure session failure parked now)
    | (.ok events, recorder) =>
      let recorder := recorder.recordCommit session events batch.events.length
      let resumed := fun (recorder : Recorder σ) =>
        { recorder with progress := recorder.progress.resume session }
      if parked.isEmpty then (.ok events.length, resumed recorder)
      else
        match recorder.commitRaws session parked now with
        | (.error failure, recorder) =>
          (.error (retryError session (recorder.settings.maxWriteRetries + 1) failure),
            recorder.recordFailure session failure [] now)
        | (.ok later, recorder) =>
          (.ok (events.length + later.length),
            resumed (recorder.recordCommit session later parked.length))

def failedBatches (recorder : Recorder σ) : List FailedBatch :=
  recorder.halted.values.map (·.batch)

def parkedCount (recorder : Recorder σ) : Nat :=
  (recorder.halted.values.flatMap (·.parked)).length

def stats (recorder : Recorder σ) : Json :=
  .object [
    ("running", .bool recorder.running),
    ("cycles", .ofNat recorder.cycles),
    ("events_committed", .ofNat recorder.eventsCommitted),
    ("batches_committed", .ofNat recorder.batchesCommitted),
    ("write_failures", .ofNat recorder.writeFailures),
    ("failed_batches", .ofNat recorder.halted.length),
    ("halted_sessions", .ofNat recorder.progress.haltedSessions),
    ("parked_events", .ofNat recorder.parkedCount)]

end Recorder

end AuditTrail
