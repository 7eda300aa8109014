import AuditTrail.Chain.Verify

/-!
What the ledger needs of a store of sealed events: an append that takes a batch whole or refuses
it, and reads by session. A store is a value; an operation that may change it returns the next one.
-/

namespace AuditTrail

class Store (σ : Type) where
  name : σ → String
  append : List SealedEvent → σ → Outcome Unit × σ
  /-- Events of a session with numbers from the first bound to the second, in stored order. -/
  readRange : String → UInt64 → UInt64 → σ → Outcome (List SealedEvent)
  lastEvent : String → σ → Outcome (Option SealedEvent) × σ
  eventCount : String → σ → Outcome Nat
  sessionIds : σ → Outcome (List String)
  healthCheck : σ → Outcome Unit

def SealedEvent.inRange (first last : UInt64) (event : SealedEvent) : Bool :=
  first ≤ event.sequenceNumber && event.sequenceNumber ≤ last

namespace Store

variable {σ : Type} [Store σ]

def readAll (session : String) (store : σ) : Outcome (List SealedEvent) :=
  readRange session 0 maxSequence store

def verify (store : σ) (session : String) (first last : UInt64) : Outcome Verification :=
  if last < first then .ok ⟨session, 0, none, "", false⟩
  else do
    let start := if first = 0 then 0 else first - 1
    return Chain.verifyRange session first (← readRange session start last store)

def verifyAll (store : σ) : Outcome (List Verification) := do
  (← sessionIds store).mapM fun session => verify store session 0 maxSequence

/-- The next number of each session of a batch, starting from `next`, or the first event that does
not continue its session. -/
def checkContiguous (backend : String) (next : Table UInt64) :
    List SealedEvent → Outcome (Table UInt64)
  | [] => .ok next
  | event :: rest =>
    let expected := (next.find? event.sessionId).getD 0
    if event.sequenceNumber ≠ expected then
      .error (.storage backend
        s!"session '{event.sessionId}' expected sequence {expected}, got {event.sequenceNumber}")
    else checkContiguous backend (next.insert event.sessionId (expected + 1)) rest

end Store

end AuditTrail
