import AuditTrail.Digest.Sha256
import AuditTrail.Error
import AuditTrail.Time.Timestamp

/-!
Events as their producers hand them over: complete content, no place in a chain yet.
-/

namespace AuditTrail

inductive ActorKind where
  | agent
  | runtime
  | user
  | system
deriving DecidableEq

namespace ActorKind

def name : ActorKind → String
  | .agent => "agent"
  | .runtime => "runtime"
  | .user => "user"
  | .system => "system"

def all : List ActorKind := [.agent, .runtime, .user, .system]

def decode : Decoder ActorKind :=
  Decoder.variant (all.map fun kind => (kind.name, kind))

end ActorKind

structure Actor where
  kind : ActorKind := .runtime
  id : String := "cra-runtime"
deriving DecidableEq

namespace Actor

def toJson (actor : Actor) : Json :=
  .object [("type", .string actor.kind.name), ("id", .string actor.id)]

def reader : RecordReader Actor :=
  Actor.mk <$> .required "type" ActorKind.decode <*> .required "id" .string

def decode : Decoder Actor := reader.decode "Actor"

end Actor

inductive Severity where
  | debug
  | info
  | warning
  | error
  | critical
deriving DecidableEq

namespace Severity

def name : Severity → String
  | .debug => "debug"
  | .info => "info"
  | .warning => "warning"
  | .error => "error"
  | .critical => "critical"

def all : List Severity := [.debug, .info, .warning, .error, .critical]

def level : Severity → Nat
  | .debug => 0
  | .info => 1
  | .warning => 2
  | .error => 3
  | .critical => 4

def compare (a b : Severity) : Ordering :=
  Ord.compare a.level b.level

def decode : Decoder Severity :=
  Decoder.variant (all.map fun severity => (severity.name, severity))

end Severity

structure Artifact where
  name : String
  uri : String
  contentHash : String
  contentType : String
deriving DecidableEq

namespace Artifact

def ofBytes (name uri contentType : String) (content : List UInt8) : Artifact :=
  ⟨name, uri, Sha256.hexDigest content, contentType⟩

def describes (artifact : Artifact) (content : List UInt8) : Bool :=
  Sha256.hexDigest content == artifact.contentHash

def toJson (artifact : Artifact) : Json :=
  .object [
    ("name", .string artifact.name),
    ("uri", .string artifact.uri),
    ("content_hash", .string artifact.contentHash),
    ("content_type", .string artifact.contentType)]

def reader : RecordReader Artifact :=
  Artifact.mk <$> .required "name" .string <*> .required "uri" .string <*>
    .required "content_hash" .string <*> .required "content_type" .string

def decode : Decoder Artifact := reader.decode "Artifact"

end Artifact

namespace Timestamp

def toJson (t : Timestamp) : Json := .string t.text

def decode : Decoder Timestamp
  | _, .string s =>
    match parse? s with
    | some t => .ok t
    | none => .error .badTimestamp
  | _, document => Decoder.mismatch document "an RFC 3339 formatted date and time string"

end Timestamp

structure RawEvent where
  sessionId : String
  traceId : String
  spanId : String
  parentSpanId : Option String
  eventId : String
  eventType : String
  actor : Actor
  severity : Severity
  payload : Json
  artifacts : List Artifact
  timestamp : Timestamp

namespace RawEvent

def parentField (parent : Option String) : List (String × Json) :=
  match parent with
  | some parent => [("parent_span_id", .string parent)]
  | none => []

def toJson (event : RawEvent) : Json :=
  .object ([
    ("session_id", .string event.sessionId),
    ("trace_id", .string event.traceId),
    ("span_id", .string event.spanId)] ++
    parentField event.parentSpanId ++ [
    ("event_id", .string event.eventId),
    ("event_type", .string event.eventType),
    ("actor", event.actor.toJson),
    ("severity", .string event.severity.name),
    ("payload", event.payload),
    ("artifacts", .array (event.artifacts.map Artifact.toJson)),
    ("timestamp", event.timestamp.toJson)])

def reader : RecordReader RawEvent :=
  RawEvent.mk <$> .required "session_id" .string <*> .required "trace_id" .string <*>
    .required "span_id" .string <*> .withDefault "parent_span_id" (.option .string) none <*>
    .required "event_id" .string <*> .required "event_type" .string <*>
    .required "actor" Actor.decode <*> .withDefault "severity" Severity.decode .info <*>
    .required "payload" .json <*> .withDefault "artifacts" (.list Artifact.decode) [] <*>
    .required "timestamp" Timestamp.decode

def decode : Decoder RawEvent := reader.decode "RawEvent"

def withPayload (event : RawEvent) (payload : Datum) : Outcome RawEvent := do
  return { event with payload := ← payload.toValue }

def namespaceOf (eventType : String) : String :=
  String.ofList (eventType.toList.takeWhile (· ≠ '.'))

def recommendedSyncTypes : List String :=
  ["session.ended", "policy.violated", "action.denied", "action.destructive.*"]

end RawEvent

end AuditTrail
