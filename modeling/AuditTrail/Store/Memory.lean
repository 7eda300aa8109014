import AuditTrail.Store.Basic

/-!
A store that keeps all events in one list in the order of their arrival. A session's events are
those that carry its name.
-/

namespace AuditTrail

structure MemoryStore where
  events : List SealedEvent := []

namespace MemoryStore

def session (store : MemoryStore) (name : String) : List SealedEvent :=
  store.events.filter fun event => event.sessionId = name

def counts (store : MemoryStore) (batch : List SealedEvent) : Table UInt64 :=
  batch.foldl (fun table event =>
    table.insert event.sessionId (UInt64.ofNat (store.session event.sessionId).length)) []

def append (batch : List SealedEvent) (store : MemoryStore) : Outcome Unit × MemoryStore :=
  match Store.checkContiguous "in-memory" (store.counts batch) batch with
  | .ok _ => (.ok (), { store with events := store.events ++ batch })
  | .error error => (.error error, store)

instance : Store MemoryStore where
  name _ := "in-memory"
  append := append
  readRange name first last store := .ok ((store.session name).filter (·.inRange first last))
  lastEvent name store := (.ok (store.session name).getLast?, store)
  eventCount name store := .ok (store.session name).length
  sessionIds store := .ok (sortedDistinct (store.events.map (·.sessionId)))
  healthCheck _ := .ok ()

end MemoryStore

structure ListedStore where
  events : List SealedEvent

instance : Store ListedStore where
  name _ := "listed"
  append _ store := (.error (.storage "injected" "read only"), store)
  readRange name first last store :=
    .ok (store.events.filter fun event => event.sessionId = name ∧ event.inRange first last)
  lastEvent name store :=
    (.ok (store.events.filter fun event => event.sessionId = name).getLast?, store)
  eventCount name store := .ok (store.events.filter fun event => event.sessionId = name).length
  sessionIds store := .ok (sortedDistinct (store.events.map (·.sessionId)))
  healthCheck _ := .ok ()

end AuditTrail
