import AuditTrail.Store.Basic

/-!
A store that fails on demand, for rehearsing outages: the next appends, the appends of some
sessions, or all reads. It counts the appends that reach it.
-/

namespace AuditTrail

structure Switchboard (σ : Type) where
  name : String
  store : σ
  failNext : Nat := 0
  down : List String := []
  failReads : Bool := false
  appendCalls : Nat := 0

namespace Switchboard

variable {σ : Type} [Store σ]

def injected (reason : String) : LedgerError :=
  .storage "injected" reason

def setDown (board : Switchboard σ) (session : String) : Switchboard σ :=
  { board with down := session :: board.down }

def setUp (board : Switchboard σ) (session : String) : Switchboard σ :=
  { board with down := board.down.filter (· ≠ session) }

def append (batch : List SealedEvent) (board : Switchboard σ) : Outcome Unit × Switchboard σ :=
  let board := { board with appendCalls := board.appendCalls + 1 }
  if 0 < board.failNext then
    (.error (injected "write failure"), { board with failNext := board.failNext - 1 })
  else if batch.any fun event => board.down.contains event.sessionId then
    (.error (injected "session down"), board)
  else
    let (outcome, store) := Store.append batch board.store
    (outcome, { board with store })

def lastEvent (session : String) (board : Switchboard σ) :
    Outcome (Option SealedEvent) × Switchboard σ :=
  if board.failReads then (.error (injected "read failure"), board)
  else
    let (outcome, store) := Store.lastEvent session board.store
    (outcome, { board with store })

def read {α : Type} (board : Switchboard σ) (use : σ → Outcome α) : Outcome α :=
  if board.failReads then .error (injected "read failure") else use board.store

instance : Store (Switchboard σ) where
  name board := board.name
  append := append
  readRange session first last board := board.read (Store.readRange session first last)
  lastEvent := lastEvent
  eventCount session board := board.read (Store.eventCount session)
  sessionIds board := board.read Store.sessionIds
  healthCheck board := board.read Store.healthCheck

end Switchboard

end AuditTrail
