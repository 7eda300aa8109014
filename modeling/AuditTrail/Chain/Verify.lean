import AuditTrail.Event.Sealed

/-!
Verification of chains. Every event must carry the next number, link to the hash before it and
have the hash of its own content; the first event that fails one of the three is reported, never
repaired. Numbers have 64 bits: one is added to a number in four places, and where the sum does not
fit, the result says so.
-/

namespace AuditTrail

def maxSequence : UInt64 := 0xffffffffffffffff

/-- A result, and whether a sequence number that it depends on left 64 bits. Additions are checked,
so the program stops where one overflows and the result is not given; it is what an unchecked
addition leads to, which goes on from zero. -/
structure Checked (α : Type) where
  result : α
  overflowed : Bool

instance : Monad Checked where
  pure result := ⟨result, false⟩
  bind first later :=
    let second := later first.result
    ⟨second.result, first.overflowed || second.overflowed⟩

def successor (number : UInt64) : Checked UInt64 :=
  ⟨number + 1, number == maxSequence⟩

@[simp] theorem successor_result (number : UInt64) : (successor number).result = number + 1 := rfl

inductive BreakKind where
  | hashMismatch
  | chainBroken
  | sequenceGap
  | invalidGenesis
deriving DecidableEq

def BreakKind.name : BreakKind → String
  | .hashMismatch => "hash_mismatch"
  | .chainBroken => "chain_broken"
  | .sequenceGap => "sequence_gap"
  | .invalidGenesis => "invalid_genesis"

inductive ChainFault where
  | startsLate (found : UInt64)
  | wrongGenesis (found genesis : String)
  | wrongSequence (expected found : UInt64)
  | wrongLink (sequence : UInt64) (found previous : String)
  | wrongHash (sequence : UInt64) (stored computed : String)
deriving DecidableEq

namespace ChainFault

def sequence : ChainFault → UInt64
  | .startsLate _ => 0
  | .wrongGenesis _ _ => 0
  | .wrongSequence expected found => if found < expected then found else expected
  | .wrongLink sequence _ _ => sequence
  | .wrongHash sequence _ _ => sequence

def kind : ChainFault → BreakKind
  | .startsLate _ => .sequenceGap
  | .wrongGenesis _ _ => .invalidGenesis
  | .wrongSequence _ _ => .sequenceGap
  | .wrongLink _ _ _ => .chainBroken
  | .wrongHash _ _ _ => .hashMismatch

def message : ChainFault → String
  | .startsLate found => s!"first event has sequence {found}, expected 0"
  | .wrongGenesis found genesis => s!"first event links to {found}, expected genesis {genesis}"
  | .wrongSequence expected found => s!"expected sequence {expected}, found {found}"
  | .wrongLink sequence found previous =>
    s!"event {sequence} links to {found}, previous hash is {previous}"
  | .wrongHash sequence stored computed =>
    s!"event {sequence} hash mismatch: stored {stored}, computed {computed}"

end ChainFault

/-- The verdict on a run of events: where it breaks, if anywhere, and the last hash before. It is
never given if an addition on the way to it overflowed. -/
structure Verification where
  sessionId : String
  eventCount : Nat
  fault : Option ChainFault
  lastValidHash : String
  overflowed : Bool

namespace Verification

def isValid (v : Verification) : Bool :=
  v.fault.isNone

def toOutcome (v : Verification) : Outcome Verification :=
  match v.fault with
  | some fault => .error (.chainBreak v.sessionId fault.sequence fault.message)
  | none => .ok v

def toJson (v : Verification) : Json :=
  .object [
    ("valid", .bool v.isValid),
    ("session_id", .string v.sessionId),
    ("event_count", .ofNat v.eventCount),
    ("first_break", Json.ofOption (fun fault => Json.ofUInt64 fault.sequence) v.fault),
    ("error_type", Json.ofOption (fun fault => Json.string fault.kind.name) v.fault),
    ("message", Json.ofOption (fun fault => Json.string fault.message) v.fault),
    ("last_valid_hash", .string v.lastValidHash)]

end Verification

inductive Anchor where
  | genesis (hash : String)
  | stored (next : UInt64) (hash : String)
  | firstEvent

namespace Chain

def faultOf (expected : UInt64) (previous : String) (event : SealedEvent) : Option ChainFault :=
  if event.sequenceNumber ≠ expected then
    some (.wrongSequence expected event.sequenceNumber)
  else if event.previousEventHash ≠ previous then
    some (.wrongLink event.sequenceNumber event.previousEventHash previous)
  else if event.computeHash ≠ event.eventHash then
    some (.wrongHash event.sequenceNumber event.eventHash event.computeHash)
  else none

/-- The last hash before the first event with a fault. One is added to the number of every event
that is accepted, of the last one too. -/
def follow (expected : UInt64) (previous : String) :
    List SealedEvent → Checked (String × Option ChainFault)
  | [] => pure (previous, none)
  | event :: rest =>
    match faultOf expected previous event with
    | some fault => pure (previous, some fault)
    | none => do
      let next ← successor expected
      follow next event.eventHash rest

def verifyFrom (session : String) (count : Nat) (expected : UInt64) (previous : String)
    (events : List SealedEvent) : Verification :=
  let followed := follow expected previous events
  ⟨session, count, followed.result.2, followed.result.1, followed.overflowed⟩

/-- Verifies a run of events against its anchor; `start` is the least number it may begin with
when nothing else fixes it. -/
def verifyAnchored (session : String) (events : List SealedEvent) (start : UInt64)
    (anchor : Anchor) : Verification :=
  match events, anchor with
  | [], .genesis hash => ⟨session, 0, none, hash, false⟩
  | [], .stored _ hash => ⟨session, 0, none, hash, false⟩
  | [], .firstEvent => ⟨session, 0, none, "", false⟩
  | first :: _, .genesis hash =>
    if first.sequenceNumber ≠ 0 then
      ⟨session, events.length, some (.startsLate first.sequenceNumber), hash, false⟩
    else if first.previousEventHash ≠ hash then
      ⟨session, events.length, some (.wrongGenesis first.previousEventHash hash), hash, false⟩
    else verifyFrom session events.length 0 hash events
  | _, .stored next hash => verifyFrom session events.length next hash events
  | first :: _, .firstEvent =>
    let expected := if start < first.sequenceNumber then first.sequenceNumber else start
    verifyFrom session events.length expected first.previousEventHash events

def verifyEvents (events : List SealedEvent) (anchor : Option String) : Verification :=
  match events, anchor with
  | [], _ => ⟨"", 0, none, anchor.getD "", false⟩
  | first :: _, some hash =>
    verifyAnchored first.sessionId events first.sequenceNumber
      (.stored first.sequenceNumber hash)
  | first :: _, none =>
    verifyAnchored first.sessionId events 0 (.genesis (genesis first.sessionId))

/-- Verifies the events from number `start` on. What was read may begin with the event before it,
whose hash is then the anchor; without it the first event's own link is trusted. -/
def verifyRange (session : String) (start : UInt64) (read : List SealedEvent) : Verification :=
  if start = 0 then verifyAnchored session read 0 (.genesis (genesis session))
  else
    match read with
    | before :: rest =>
      if before.sequenceNumber = start - 1 then
        let next := successor before.sequenceNumber
        let verdict := verifyAnchored session rest start (.stored next.result before.eventHash)
        { verdict with overflowed := next.overflowed || verdict.overflowed }
      else verifyAnchored session read start .firstEvent
    | [] => verifyAnchored session [] start .firstEvent

/-- Whether a chain starts where another one ends. The numbers are compared last, so one is added
for events of one session that link to each other. -/
def checkExtension (base extension : List SealedEvent) : Checked Bool :=
  match base.getLast?, extension.head? with
  | some last, some first =>
    if first.sessionId == last.sessionId && first.previousEventHash == last.eventHash then do
      let next ← successor last.sequenceNumber
      return first.sequenceNumber == next
    else pure false
  | _, _ => pure false

def isExtension (base extension : List SealedEvent) : Bool :=
  (checkExtension base extension).result

/-- The index of the first event that differs between two chains; the shorter one ends there if
none of its events does. -/
def divergence? : List SealedEvent → List SealedEvent → Option Nat
  | [], [] => none
  | [], _ :: _ => some 0
  | _ :: _, [] => some 0
  | a :: as, b :: bs =>
    if a.eventHash ≠ b.eventHash then some 0 else (divergence? as bs).map (· + 1)

end Chain

end AuditTrail
