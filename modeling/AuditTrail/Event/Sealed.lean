import AuditTrail.Event.Raw

/-!
Events sealed into the chain of their session. The hash of an event covers every field but the two
hashes, followed by the hash of the event before it.
-/

namespace AuditTrail

def traceVersion : String := "1.0"

structure SealedEvent where
  traceVersion : String
  sessionId : String
  traceId : String
  spanId : String
  parentSpanId : Option String
  eventId : String
  eventType : String
  actor : Actor
  severity : Severity
  payload : Json
  artifacts : List Artifact
  timestamp : Timestamp
  sequenceNumber : UInt64
  previousEventHash : String
  eventHash : String
  persistedAt : Timestamp

def genesisSeed (session : String) : Json :=
  .object [("genesis", .string session), ("trace_version", .string traceVersion)]

def genesis (session : String) : String :=
  Sha256.hexDigest (genesisSeed session).canonicalBytes

namespace SealedEvent

/-- The hashed content; here an absent parent span is written as null. -/
def content (event : SealedEvent) : Json :=
  .object [
    ("trace_version", .string event.traceVersion),
    ("session_id", .string event.sessionId),
    ("trace_id", .string event.traceId),
    ("span_id", .string event.spanId),
    ("parent_span_id", Json.ofOption Json.string event.parentSpanId),
    ("event_id", .string event.eventId),
    ("event_type", .string event.eventType),
    ("actor", event.actor.toJson),
    ("severity", .string event.severity.name),
    ("payload", event.payload),
    ("artifacts", .array (event.artifacts.map Artifact.toJson)),
    ("timestamp", event.timestamp.toJson),
    ("sequence_number", Json.ofUInt64 event.sequenceNumber),
    ("persisted_at", event.persistedAt.toJson)]

def preimage (event : SealedEvent) (previous : String) : List UInt8 :=
  event.content.canonicalBytes ++ Utf8.encode previous

def hashAfter (event : SealedEvent) (previous : String) : String :=
  Sha256.hexDigest (event.preimage previous)

def computeHash (event : SealedEvent) : String :=
  event.hashAfter event.previousEventHash

def verifiesHash (event : SealedEvent) : Bool :=
  event.computeHash == event.eventHash

def sealAt (raw : RawEvent) (sequence : UInt64) (previous : String) (persistedAt : Timestamp) :
    SealedEvent :=
  let event : SealedEvent := {
    traceVersion := AuditTrail.traceVersion
    sessionId := raw.sessionId
    traceId := raw.traceId
    spanId := raw.spanId
    parentSpanId := raw.parentSpanId
    eventId := raw.eventId
    eventType := raw.eventType
    actor := raw.actor
    severity := raw.severity
    payload := raw.payload
    artifacts := raw.artifacts
    timestamp := raw.timestamp
    sequenceNumber := sequence
    previousEventHash := previous
    eventHash := ""
    persistedAt := persistedAt }
  { event with eventHash := event.computeHash }

def toRaw (event : SealedEvent) : RawEvent where
  sessionId := event.sessionId
  traceId := event.traceId
  spanId := event.spanId
  parentSpanId := event.parentSpanId
  eventId := event.eventId
  eventType := event.eventType
  actor := event.actor
  severity := event.severity
  payload := event.payload
  artifacts := event.artifacts
  timestamp := event.timestamp

def toJson (event : SealedEvent) : Json :=
  .object ([
    ("trace_version", .string event.traceVersion),
    ("session_id", .string event.sessionId),
    ("trace_id", .string event.traceId),
    ("span_id", .string event.spanId)] ++
    RawEvent.parentField event.parentSpanId ++ [
    ("event_id", .string event.eventId),
    ("event_type", .string event.eventType),
    ("actor", event.actor.toJson),
    ("severity", .string event.severity.name),
    ("payload", event.payload),
    ("artifacts", .array (event.artifacts.map Artifact.toJson)),
    ("timestamp", event.timestamp.toJson),
    ("sequence_number", Json.ofUInt64 event.sequenceNumber),
    ("previous_event_hash", .string event.previousEventHash),
    ("event_hash", .string event.eventHash),
    ("persisted_at", event.persistedAt.toJson)])

def reader : RecordReader SealedEvent :=
  SealedEvent.mk <$> .required "trace_version" .string <*> .required "session_id" .string <*>
    .required "trace_id" .string <*> .required "span_id" .string <*>
    .withDefault "parent_span_id" (.option .string) none <*> .required "event_id" .string <*>
    .required "event_type" .string <*> .required "actor" Actor.decode <*>
    .required "severity" Severity.decode <*> .required "payload" .json <*>
    .withDefault "artifacts" (.list Artifact.decode) [] <*>
    .required "timestamp" Timestamp.decode <*> .required "sequence_number" .uint64 <*>
    .required "previous_event_hash" .string <*> .required "event_hash" .string <*>
    .required "persisted_at" Timestamp.decode

def decode : Decoder SealedEvent := reader.decode "TraceEvent"

end SealedEvent

end AuditTrail
