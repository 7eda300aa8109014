import AuditTrail.Store.LineFiles
import AuditTrail.Store.Memory

/-!
The kinds of store a ledger can be given, chosen when it is opened.
-/

namespace AuditTrail

inductive Backend where
  | memory (store : MemoryStore)
  | files (store : LineFileStore)
  | listed (store : ListedStore)

namespace Backend

def append (batch : List SealedEvent) : Backend → Outcome Unit × Backend
  | .memory store =>
    let (outcome, store) := Store.append batch store
    (outcome, .memory store)
  | .files store =>
    let (outcome, store) := Store.append batch store
    (outcome, .files store)
  | .listed store =>
    let (outcome, store) := Store.append batch store
    (outcome, .listed store)

def lastEvent (session : String) : Backend → Outcome (Option SealedEvent) × Backend
  | .memory store =>
    let (outcome, store) := Store.lastEvent session store
    (outcome, .memory store)
  | .files store =>
    let (outcome, store) := Store.lastEvent session store
    (outcome, .files store)
  | .listed store =>
    let (outcome, store) := Store.lastEvent session store
    (outcome, .listed store)

instance : Store Backend where
  name
    | .memory store => Store.name store
    | .files store => Store.name store
    | .listed store => Store.name store
  append := append
  readRange session first last
    | .memory store => Store.readRange session first last store
    | .files store => Store.readRange session first last store
    | .listed store => Store.readRange session first last store
  lastEvent := lastEvent
  eventCount session
    | .memory store => Store.eventCount session store
    | .files store => Store.eventCount session store
    | .listed store => Store.eventCount session store
  sessionIds
    | .memory store => Store.sessionIds store
    | .files store => Store.sessionIds store
    | .listed store => Store.sessionIds store
  healthCheck
    | .memory store => Store.healthCheck store
    | .files store => Store.healthCheck store
    | .listed store => Store.healthCheck store

def totalEvents? : Backend → Option Nat
  | .memory store => some store.events.length
  | _ => none

end Backend

end AuditTrail
