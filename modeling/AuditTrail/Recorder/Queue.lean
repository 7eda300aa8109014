import AuditTrail.Event.Raw
import AuditTrail.Settings.Basic

/-!
The bounded queue between emission and the worker. It never grows beyond its capacity: an event
that finds it full is handed back.
-/

namespace AuditTrail

structure EventQueue where
  capacity : Nat
  policy : OverflowPolicy
  entries : List RawEvent := []
  totalPushed : Nat := 0
  totalDrained : Nat := 0
  rejected : Nat := 0
  capacity_pos : 0 < capacity

namespace EventQueue

def empty? (capacity : Nat) (policy : OverflowPolicy) : Option EventQueue :=
  if h : 0 < capacity then some { capacity, policy, capacity_pos := h } else none

def size (queue : EventQueue) : Nat :=
  queue.entries.length

def isFull (queue : EventQueue) : Bool :=
  queue.capacity ≤ queue.size

def push (event : RawEvent) (queue : EventQueue) : Except RawEvent Unit × EventQueue :=
  if queue.isFull then (.error event, { queue with rejected := queue.rejected + 1 })
  else
    (.ok (), { queue with
      entries := queue.entries ++ [event]
      totalPushed := queue.totalPushed + 1 })

def drain (limit : Nat) (queue : EventQueue) : List RawEvent × EventQueue :=
  let batch := queue.entries.take limit
  (batch, { queue with
    entries := queue.entries.drop limit
    totalDrained := queue.totalDrained + batch.length })

def fullMessage (queue : EventQueue) : String :=
  s!"trace queue full (capacity {queue.capacity}, policy {queue.policy.name})"

def fullError (queue : EventQueue) : LedgerError :=
  .queueFull queue.capacity queue.policy.name

def pressure (queue : EventQueue) : Binary64 :=
  Binary64.ofQuotient queue.size queue.capacity

def stats (queue : EventQueue) : Json :=
  .object [
    ("len", .ofNat queue.size),
    ("capacity", .ofNat queue.capacity),
    ("pressure", .number (.float queue.pressure)),
    ("total_pushed", .ofNat queue.totalPushed),
    ("total_drained", .ofNat queue.totalDrained),
    ("rejected", .ofNat queue.rejected)]

end EventQueue

end AuditTrail
