import AuditTrail.Recorder.Basic

/-!
The background worker. It runs a cycle whenever a flush is requested, a batch is full or the flush
interval is over; here it does so at once, in the operation that gave it the reason. Waiting for it
fails if its write attempts take longer than the caller waits.
-/

namespace AuditTrail.Recorder

variable {σ : Type} [Store σ]

/-- A requested flush; `busyMs` is how long the worker was busy serving it, if it was running. -/
structure FlushRequest where
  ticket : Nat
  busyMs : Option Nat

def drainBatches (now : Timestamp) : Nat → Recorder σ → Recorder σ
  | 0, recorder => recorder
  | count + 1, recorder => drainBatches now count (recorder.cycle false now).2

def flushDue (recorder : Recorder σ) : Bool :=
  !recorder.tickets.pending.isEmpty ||
    (recorder.settings.flushIntervalMs = 0 && recorder.queue.size ≠ 0)

def wake (now : Timestamp) (recorder : Recorder σ) : Recorder σ :=
  if !recorder.running then recorder
  else if recorder.flushDue then (recorder.cycle true now).2
  else drainBatches now (recorder.queue.size / recorder.settings.batchSize) recorder

/-- Lets the worker, if it runs, drain the queue when its interval is over within the time. -/
def elapse (timeoutMs : Nat) (now : Timestamp) (recorder : Recorder σ) : Recorder σ :=
  if recorder.running && recorder.settings.flushIntervalMs ≤ timeoutMs then
    (recorder.cycle true now).2
  else recorder

/-- Adds an event to the queue. A producer that blocks on a full queue gives the worker its time. -/
def push (raw : RawEvent) (now : Timestamp) (recorder : Recorder σ) :
    Except RawEvent Unit × Recorder σ :=
  let recorder :=
    match recorder.queue.isFull, recorder.queue.policy with
    | true, .block timeoutMs => recorder.elapse timeoutMs now
    | _, _ => recorder
  let (result, queue) := recorder.queue.push raw
  (result, wake now { recorder with queue })

def start (now : Timestamp) (recorder : Recorder σ) : Outcome Unit × Recorder σ :=
  if recorder.running then (.error (.internal "trace processor already running"), recorder)
  else (.ok (), wake now { recorder with running := true, tickets := recorder.tickets.restart })

def join (now : Timestamp) (recorder : Recorder σ) : Recorder σ :=
  if !recorder.running then recorder
  else
    let recorder :=
      if recorder.settings.flushOnShutdown then (recorder.cycle true now).2 else recorder
    { recorder with running := false, tickets := recorder.tickets.stop }

def requestFlush (now : Timestamp) (recorder : Recorder σ) : FlushRequest × Recorder σ :=
  let (ticket, tickets) := recorder.tickets.draw
  let served := wake now { recorder with tickets }
  let busyMs := if recorder.running then some (served.waitedMs - recorder.waitedMs) else none
  (⟨ticket, busyMs⟩, served)

def awaitFlush (recorder : Recorder σ) (request : FlushRequest) (timeoutMs : Nat) : Outcome Unit :=
  if request.busyMs.any (timeoutMs ≤ ·) then .error (.timeout "flush" timeoutMs)
  else recorder.tickets.await request.ticket timeoutMs

def awaitReady (session : String) (timeoutMs : Nat) (now : Timestamp) (recorder : Recorder σ) :
    Outcome Unit × Recorder σ :=
  let recorder :=
    if recorder.progress.isReady session then recorder else recorder.elapse timeoutMs now
  (recorder.progress.awaitReady session timeoutMs, recorder)

end AuditTrail.Recorder
