import AuditTrail.Store.Basic

/-!
Sealing of raw events at the head of their session's chain. A head is loaded from the store when
it is first needed and moves only after the store has taken a batch.
-/

namespace AuditTrail

structure ChainHead where
  nextSequence : UInt64
  hash : String
deriving DecidableEq

namespace ChainHead

def fresh (session : String) : ChainHead :=
  ⟨0, genesis session⟩

def behind (event : SealedEvent) : Checked ChainHead :=
  let next := successor event.sequenceNumber
  ⟨⟨next.result, event.eventHash⟩, next.overflowed⟩

def ofLast (session : String) (last : Option SealedEvent) : Checked ChainHead :=
  (last.map behind).getD (pure (fresh session))

def after (event : SealedEvent) : ChainHead :=
  (behind event).result

def overflowsAfter (event : SealedEvent) : Bool :=
  (behind event).overflowed

theorem after_eq (event : SealedEvent) :
    after event = ⟨event.sequenceNumber + 1, event.eventHash⟩ := rfl

theorem ofLast_result (session : String) (last : Option SealedEvent) :
    (ofLast session last).result = (last.map after).getD (fresh session) := by
  cases last <;> rfl

theorem overflowsAfter_iff {event : SealedEvent} :
    overflowsAfter event = true ↔ event.sequenceNumber = maxSequence :=
  beq_iff_eq

def toJson (head : ChainHead) : Json :=
  .object [
    ("next_sequence", Json.ofUInt64 head.nextSequence),
    ("head_hash", .string head.hash)]

def sealAll (head : ChainHead) (now : Timestamp) : List RawEvent → List SealedEvent × ChainHead
  | [] => ([], head)
  | raw :: rest =>
    let event := SealedEvent.sealAt raw head.nextSequence head.hash now
    let (events, last) := sealAll (after event) now rest
    (event :: events, last)

def fits (head : ChainHead) (event : SealedEvent) : Bool :=
  event.sequenceNumber == head.nextSequence && event.previousEventHash == head.hash

end ChainHead

/-- A batch that was not committed: its sealed events, if sealing was reached, and whether it was
offered to the store. -/
structure BatchFailure where
  events : List SealedEvent
  error : LedgerError
  offered : Bool

/-- Once the number of a head has overflowed the program has stopped, and the builder gives no more
answers. -/
structure ChainBuilder (σ : Type) where
  store : σ
  heads : Table (Option ChainHead) := []
  overflowed : Bool := false

abbrev Persist (σ : Type) := List SealedEvent → σ → Outcome Unit × σ

namespace ChainBuilder

variable {σ : Type} [Store σ]

def setHead (builder : ChainBuilder σ) (session : String) (head : Option ChainHead) :
    ChainBuilder σ :=
  { builder with heads := builder.heads.insert session head }

def head (builder : ChainBuilder σ) (session : String) : Outcome ChainHead × ChainBuilder σ :=
  match (builder.heads.find? session).join with
  | some head => (.ok head, builder)
  | none =>
    let (outcome, store) := Store.lastEvent session builder.store
    let builder := { builder with store }
    match outcome with
    | .error error => (.error error, builder.setHead session none)
    | .ok last =>
      let head := ChainHead.ofLast session last
      (.ok head.result, { builder.setHead session (some head.result) with
        overflowed := builder.overflowed || head.overflowed })

def commit (builder : ChainBuilder σ) (session : String) (events : List SealedEvent)
    (next : Checked ChainHead) (persist : Persist σ) :
    Except BatchFailure (List SealedEvent) × ChainBuilder σ :=
  let (outcome, store) := persist events builder.store
  let builder := { builder with store, overflowed := builder.overflowed || next.overflowed }
  match outcome with
  | .ok () => (.ok events, builder.setHead session (some next.result))
  | .error error => (.error ⟨events, error, true⟩, builder)

def appendBatch (builder : ChainBuilder σ) (session : String) (raws : List RawEvent)
    (persist : Persist σ) (now : Timestamp) :
    Except BatchFailure (List SealedEvent) × ChainBuilder σ :=
  match raws.find? fun raw => raw.sessionId ≠ session with
  | some stray =>
    (.error ⟨[], .internal s!"event for session '{stray.sessionId}' in batch for '{session}'",
      false⟩, builder)
  | none =>
    match builder.head session with
    | (.error error, builder) => (.error ⟨[], error, false⟩, builder)
    | (.ok head, builder) =>
      let (events, next) := head.sealAll now raws
      if events.isEmpty then (.ok [], builder)
      else builder.commit session events ⟨next, events.any ChainHead.overflowsAfter⟩ persist

def commitSealed (builder : ChainBuilder σ) (session : String) (events : List SealedEvent)
    (persist : Persist σ) : Except BatchFailure (List SealedEvent) × ChainBuilder σ :=
  match builder.head session with
  | (.error error, builder) => (.error ⟨events, error, false⟩, builder)
  | (.ok head, builder) =>
    match events.head?, events.getLast? with
    | some first, some last =>
      if head.fits first then builder.commit session events (ChainHead.behind last) persist
      else
        (.error ⟨events, .chainBreak session first.sequenceNumber
          s!"sealed batch does not attach to head (next sequence {head.nextSequence})", false⟩,
          builder)
    | _, _ => (.ok [], builder)

def append (builder : ChainBuilder σ) (raw : RawEvent) (now : Timestamp) :
    Outcome SealedEvent × ChainBuilder σ :=
  match builder.appendBatch raw.sessionId [raw] Store.append now with
  | (.ok (event :: _), builder) => (.ok event, builder)
  | (.ok [], builder) => (.error (.internal "append produced no event"), builder)
  | (.error failure, builder) => (.error failure.error, builder)

def evict (builder : ChainBuilder σ) (session : String) : ChainBuilder σ :=
  { builder with heads := builder.heads.erase session }

def sessionCount (builder : ChainBuilder σ) : Nat :=
  builder.heads.length

end ChainBuilder

end AuditTrail
