import AuditTrail.Error

/-!
Flush requests. Each draws a ticket; a drain cycle serves every ticket drawn before it began and
completes them when it ends.
-/

namespace AuditTrail

structure Tickets where
  next : Nat := 1
  pending : List Nat := []
  begunThrough : Nat := 0
  completedThrough : Nat := 0
  stopped : Bool := false
deriving DecidableEq

namespace Tickets

def draw (tickets : Tickets) : Nat × Tickets :=
  (tickets.next, { tickets with
    next := tickets.next + 1
    pending := tickets.next :: tickets.pending })

def begin (tickets : Tickets) : Tickets :=
  { tickets with pending := [], begunThrough := tickets.next - 1 }

def complete (tickets : Tickets) : Tickets :=
  { tickets with completedThrough := max tickets.completedThrough tickets.begunThrough }

def isComplete (tickets : Tickets) (ticket : Nat) : Bool :=
  ticket ≤ tickets.completedThrough

/-- Takes back a ticket that no cycle has begun to serve. -/
def cancel (tickets : Tickets) (ticket : Nat) : Bool × Tickets :=
  if tickets.begunThrough < ticket ∧ ticket ∈ tickets.pending then
    (true, { tickets with pending := tickets.pending.erase ticket })
  else (false, tickets)

def stop (tickets : Tickets) : Tickets :=
  { tickets with pending := [], stopped := true }

def restart (tickets : Tickets) : Tickets :=
  { tickets with stopped := false }

def await (tickets : Tickets) (ticket timeoutMs : Nat) : Outcome Unit :=
  if tickets.isComplete ticket then .ok ()
  else if tickets.stopped then .error (.processorStopped "stopped before the flush was served")
  else .error (.timeout "flush" timeoutMs)

end Tickets

end AuditTrail
