import AuditTrail.Event.Sealed
import AuditTrail.Json.Schema
import AuditTrail.Replay.Predicate
import AuditTrail.Store.Directory

/-!
Golden manifests: what a run of an agent is expected to record, and which fields may differ from
run to run.
-/

namespace AuditTrail

def manifestVersion : String := "1.0"

structure ExpectedEvent where
  eventType : String
  optional : Bool := false
  fields : Table Json := []

namespace ExpectedEvent

def toJson (event : ExpectedEvent) : Json :=
  .object ([("event_type", .string event.eventType)] ++
    (if event.optional then [("optional", .bool true)] else []) ++ event.fields)

def reader : RecordReader (String × Bool) :=
  Prod.mk <$> .required "event_type" .string <*> .withDefault "optional" .bool false

def otherMembers (origin : Origin) :
    List (Option String × Document) → Except DecodeError (Table Json)
  | [] => .ok []
  | (none, _) :: _ => .error .malformed
  | (some key, value) :: rest => do
    let others ← otherMembers origin rest
    if reader.fields.any fun field => field.name = key then .ok others
    else if others.contains key then .ok others
    else return others.insert key (← Decoder.json origin value)

def decode : Decoder ExpectedEvent
  | origin, .object members closed => do
    let (eventType, optional) ← reader.decode "ExpectedEvent" origin (.object members closed)
    let inner ← origin.descend
    return ⟨eventType, optional, ← otherMembers inner members⟩
  | _, document => Decoder.mismatch document "struct ExpectedEvent"

def same (a b : ExpectedEvent) : Bool :=
  a.eventType == b.eventType && a.optional == b.optional &&
    Json.same (.object a.fields) (.object b.fields)

end ExpectedEvent

inductive RuleKind where
  | ignore
  | normalize
deriving DecidableEq

namespace RuleKind

def name : RuleKind → String
  | .ignore => "ignore"
  | .normalize => "normalize"

def all : List RuleKind := [.ignore, .normalize]

def decode : Decoder RuleKind :=
  Decoder.variant (all.map fun kind => (kind.name, kind))

end RuleKind

structure FieldRule where
  field : String
  kind : RuleKind
deriving DecidableEq

namespace FieldRule

def toJson (rule : FieldRule) : Json :=
  .object [("field", .string rule.field), ("rule", .string rule.kind.name)]

def reader : RecordReader FieldRule :=
  FieldRule.mk <$> .required "field" .string <*> .required "rule" RuleKind.decode

def decode : Decoder FieldRule := reader.decode "NondeterminismRule"

end FieldRule

inductive ManifestError where
  | notJson
  | violations (list : List Violation)
  | undecodable (cause : DecodeError)
  | unsupportedVersion (version : String)
  | predicate (error : PredicateError)
  | rulePath (field : String) (error : GlobError)
  | unreadable (error : FileError)

namespace ManifestError

def reason : ManifestError → String
  | .notJson => "not valid JSON"
  | .violations list => "; ".intercalate (list.map Violation.message)
  | .undecodable cause => cause.message
  | .unsupportedVersion version =>
    s!"unsupported manifest_version {version} (expected {manifestVersion})"
  | .predicate error => s!"predicate at {error.path}: {error.fault.message}"
  | .rulePath field error => s!"bad rule path {field}: {error.message}"
  | .unreadable error => error.message

def toLedgerError : ManifestError → LedgerError
  | .unreadable error => .io error.message
  | error => .invalidManifest error.reason

end ManifestError

structure Manifest where
  version : String := manifestVersion
  name : String
  description : String := ""
  input : Json := .null
  expectedEvents : List ExpectedEvent := []
  rules : List FieldRule := []
  correlationKey : Option String := none

namespace Manifest

def eventSchema : Schema :=
  .record [("event_type", .text 1), ("optional", .boolean)] ["event_type"] false

def ruleSchema : Schema :=
  .record [("field", .text 1), ("rule", .choice (RuleKind.all.map RuleKind.name))]
    ["field", "rule"] true

def schema : Schema :=
  .record [
    ("correlation_key", .text 1), ("description", .text 0), ("expected_events", .list eventSchema),
    ("input", .any), ("manifest_version", .text 0), ("name", .text 1),
    ("nondeterminism", .list ruleSchema)]
    ["manifest_version", "name", "expected_events"] false

def toJson (manifest : Manifest) : Json :=
  .object ([
    ("manifest_version", .string manifest.version),
    ("name", .string manifest.name),
    ("description", .string manifest.description),
    ("input", manifest.input),
    ("expected_events", .array (manifest.expectedEvents.map ExpectedEvent.toJson)),
    ("nondeterminism", .array (manifest.rules.map FieldRule.toJson))] ++
    (match manifest.correlationKey with
      | some key => [("correlation_key", .string key)]
      | none => []))

def toText (manifest : Manifest) : String :=
  manifest.toJson.pretty

def reader : RecordReader Manifest :=
  Manifest.mk <$> .required "manifest_version" .string <*> .required "name" .string <*>
    .withDefault "description" .string "" <*> .withDefault "input" .json .null <*>
    .required "expected_events" (.list ExpectedEvent.decode) <*>
    .withDefault "nondeterminism" (.list FieldRule.decode) [] <*>
    .withDefault "correlation_key" (.option .string) none

def decode : Decoder Manifest := reader.decode "GoldenManifest"

def ofJson (document : Json) : Except ManifestError Manifest :=
  match schema.violations [] document with
  | [] =>
    match decode.ofJson document with
    | .error cause => .error (.undecodable cause)
    | .ok manifest =>
      if manifest.version = manifestVersion then .ok manifest
      else .error (.unsupportedVersion manifest.version)
  | violations => .error (.violations violations)

def ofText (text : String) : Except ManifestError Manifest :=
  match Json.parse? text with
  | some document => ofJson document
  | none => .error .notJson

def load (directory : Directory) (name : String) : Except ManifestError Manifest :=
  match directory.bytesOf name with
  | .error error => .error (.unreadable error)
  | .ok bytes =>
    match Utf8.decode bytes with
    | .ok text => ofText text
    | .error _ => .error (.unreadable .invalidText)

def fieldsOf (event : SealedEvent) : Table Json :=
  Table.ofList ([
    ("actor", event.actor.toJson.normalize),
    ("severity", .string event.severity.name),
    ("payload", Matcher.selfPredicate event.payload)] ++
    (if event.artifacts.isEmpty then []
    else [("artifacts", (Json.array (event.artifacts.map Artifact.toJson)).normalize)]))

def ofEvents (name : String) (events : List SealedEvent) : Manifest where
  name
  description := match events.head? with
    | some first => s!"derived from session {first.sessionId}"
    | none => ""
  expectedEvents := events.map fun event => { eventType := event.eventType, fields := fieldsOf event }

def withEvent (manifest : Manifest) (event : ExpectedEvent) : Manifest :=
  { manifest with expectedEvents := manifest.expectedEvents ++ [event] }

def withRule (manifest : Manifest) (rule : FieldRule) : Manifest :=
  { manifest with rules := manifest.rules ++ [rule] }

def same (a b : Manifest) : Bool :=
  a.version == b.version && a.name == b.name && a.description == b.description &&
    a.input.same b.input && a.expectedEvents.length == b.expectedEvents.length &&
    (a.expectedEvents.zip b.expectedEvents).all (fun (x, y) => x.same y) &&
    a.rules == b.rules && a.correlationKey == b.correlationKey

end Manifest

end AuditTrail
