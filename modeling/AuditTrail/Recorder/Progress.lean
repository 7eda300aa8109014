import AuditTrail.Error

/-!
How far the recording of each session has come: how many of its events wait in the queue, the
highest number committed, and why it is halted, if it is.
-/

namespace AuditTrail

structure Halt where
  attempts : Nat
  reason : String
deriving DecidableEq

namespace Halt

def ofError : LedgerError → Halt
  | .storageWriteFailure _ attempts reason => ⟨attempts, reason⟩
  | error => ⟨1, error.message⟩

end Halt

structure SessionProgress where
  queued : Nat := 0
  committed : Option UInt64 := none
  halt : Option Halt := none
deriving DecidableEq

def SessionProgress.isReady (progress : SessionProgress) : Bool :=
  progress.queued = 0 && progress.halt.isNone

/-- A session that is not in the table has nothing queued and is not halted. -/
abbrev Progress := Table SessionProgress

namespace Progress

def of (progress : Progress) (session : String) : SessionProgress :=
  (progress.find? session).getD {}

def update (progress : Progress) (session : String)
    (change : SessionProgress → SessionProgress) : Progress :=
  progress.insert session (change (progress.of session))

def adjust (progress : Progress) (session : String)
    (change : SessionProgress → SessionProgress) : Progress :=
  match progress.find? session with
  | some entry => progress.insert session (change entry)
  | none => progress

def enqueued (progress : Progress) (session : String) : Progress :=
  progress.update session fun entry => { entry with queued := entry.queued + 1 }

def withdrawn (progress : Progress) (session : String) : Progress :=
  progress.adjust session fun entry => { entry with queued := entry.queued - 1 }

def committed (progress : Progress) (session : String) (sequence : UInt64) (dequeued : Nat) :
    Progress :=
  progress.update session fun entry => { entry with
    queued := entry.queued - dequeued
    committed := some (entry.committed.elim sequence (max · sequence)) }

def halt (progress : Progress) (session : String) (halt : Halt) : Progress :=
  progress.update session fun entry => { entry with halt := some halt }

def resume (progress : Progress) (session : String) : Progress :=
  progress.adjust session fun entry => { entry with halt := none }

def isHalted (progress : Progress) (session : String) : Bool :=
  (progress.of session).halt.isSome

def isReady (progress : Progress) (session : String) : Bool :=
  (progress.of session).isReady

def forget (progress : Progress) (session : String) : Bool × Progress :=
  if progress.isReady session then (true, progress.erase session) else (false, progress)

def haltedSessions (progress : Progress) : Nat :=
  (progress.values.filter fun entry => entry.halt.isSome).length

def awaitReady (progress : Progress) (session : String) (timeoutMs : Nat) : Outcome Unit :=
  match (progress.of session).halt with
  | some halt => .error (.storageWriteFailure session halt.attempts halt.reason)
  | none =>
    if (progress.of session).queued = 0 then .ok ()
    else .error (.timeout s!"session '{session}' to become ready" timeoutMs)

def description (progress : Progress) (session : String) : Json :=
  let entry := progress.of session
  .object [
    ("queued", .ofNat entry.queued),
    ("committed", .ofOption .ofUInt64 entry.committed),
    ("is_halted", .bool entry.halt.isSome),
    ("is_ready", .bool entry.isReady),
    ("session_count", .ofNat progress.length),
    ("halted_sessions", .ofNat progress.haltedSessions)]

end Progress

end AuditTrail
