import AuditTrail.Replay.Manifest
import AuditTrail.Replay.Normalize

/-!
Replay of a recorded run against a manifest. Expected and recorded events are paired by position or
by a correlation key; every pair is compared field by field, and events without a partner are
reported as missing, skipped or unexpected.
-/

namespace AuditTrail

structure Expectation where
  eventType : String
  optional : Bool
  matchers : List (String × Matcher)

structure ReplayEngine where
  manifest : String
  expected : List Expectation
  ignored : List PathRule
  normalized : List PathRule
  correlationKey : Option String

structure FieldDiff where
  path : String
  expected : Json
  actual : Option Json

def FieldDiff.toJson (diff : FieldDiff) : Json :=
  .object [
    ("path", .string diff.path), ("expected", diff.expected),
    ("actual", diff.actual.getD .null)]

inductive EventStatus where
  | passed
  | failed
  | missing
  | unexpected
  | skipped
deriving DecidableEq

namespace EventStatus

def name : EventStatus → String
  | .passed => "passed"
  | .failed => "failed"
  | .missing => "missing"
  | .unexpected => "unexpected"
  | .skipped => "skipped"

def isFailure : EventStatus → Bool
  | .failed | .missing | .unexpected => true
  | .passed | .skipped => false

end EventStatus

inductive Pairing where
  | both (expected actual : Nat)
  | expectedOnly (expected : Nat)
  | actualOnly (actual : Nat)
deriving DecidableEq

namespace Pairing

def expected? : Pairing → Option Nat
  | .both expected _ => some expected
  | .expectedOnly expected => some expected
  | .actualOnly _ => none

def actual? : Pairing → Option Nat
  | .both _ actual => some actual
  | .expectedOnly _ => none
  | .actualOnly actual => some actual

end Pairing

structure EventComparison where
  pairing : Pairing
  eventType : String
  actualSequence : Option UInt64
  status : EventStatus
  diffs : List FieldDiff

def EventComparison.toJson (comparison : EventComparison) : Json :=
  .object [
    ("expected_index", .ofOption .ofNat comparison.pairing.expected?),
    ("actual_index", .ofOption .ofNat comparison.pairing.actual?),
    ("event_type", .string comparison.eventType),
    ("actual_sequence", .ofOption .ofUInt64 comparison.actualSequence),
    ("status", .string comparison.status.name),
    ("diffs", .array (comparison.diffs.map FieldDiff.toJson))]

structure ReplayReport where
  manifest : String
  expectedEvents : Nat
  actualEvents : Nat
  events : List EventComparison

namespace ReplayReport

def count (report : ReplayReport) (status : EventStatus) : Nat :=
  (report.events.filter fun event => event.status = status).length

def failures (report : ReplayReport) : List EventComparison :=
  report.events.filter fun event => event.status.isFailure

def passed (report : ReplayReport) : Bool :=
  report.failures.isEmpty

def toOutcome (report : ReplayReport) : Outcome ReplayReport :=
  if report.passed then .ok report
  else .error (.manifestMismatch report.manifest report.failures.length)

def toJson (report : ReplayReport) : Json :=
  .object [
    ("passed", .bool report.passed),
    ("manifest", .string report.manifest),
    ("events", .array (report.events.map EventComparison.toJson)),
    ("summary", .object [
      ("expected_events", .ofNat report.expectedEvents),
      ("actual_events", .ofNat report.actualEvents),
      ("passed", .ofNat (report.count .passed)),
      ("failed", .ofNat (report.count .failed)),
      ("missing", .ofNat (report.count .missing)),
      ("unexpected", .ofNat (report.count .unexpected)),
      ("skipped", .ofNat (report.count .skipped))])]

end ReplayReport

namespace ReplayEngine

def compileMatchers : List (String × Json) → Except PredicateError (List (String × Matcher))
  | [] => .ok []
  | (path, value) :: rest => do
    let matcher ← Matcher.compile path value
    return (path, matcher) :: (← compileMatchers rest)

def compileEvent (event : ExpectedEvent) : Except ManifestError Expectation :=
  match compileMatchers event.fields with
  | .ok matchers => .ok ⟨event.eventType, event.optional, matchers⟩
  | .error error => .error (.predicate error)

def compileRule (rule : FieldRule) : Except ManifestError (RuleKind × PathRule) :=
  match PathRule.compile rule.field with
  | .ok pattern => .ok (rule.kind, pattern)
  | .error error => .error (.rulePath rule.field error)

def rulesOf (kind : RuleKind) (rules : List (RuleKind × PathRule)) : List PathRule :=
  (rules.filter fun rule => rule.1 = kind).map Prod.snd

def ofManifest (manifest : Manifest) : Except ManifestError ReplayEngine := do
  let expected ← manifest.expectedEvents.mapM compileEvent
  let rules ← manifest.rules.mapM compileRule
  return {
    manifest := manifest.name
    expected
    ignored := rulesOf .ignore rules
    normalized := rulesOf .normalize rules
    correlationKey := manifest.correlationKey }

def summary (engine : ReplayEngine) : String :=
  let key := match engine.correlationKey with
    | some key => s!"Some({Quoted.text key})"
    | none => "None"
  s!"ReplayEngine \x7b manifest: {Quoted.text engine.manifest}, " ++
    s!"expected: {engine.expected.length}, correlation_key: {key} \x7d"

def document (event : SealedEvent) : Json :=
  event.toJson.normalize

/-! ### Pairing -/

/-- Pairs events by position; an optional expectation is passed over when the next recorded event
has another type. -/
def pairByPosition (actual : List SealedEvent) :
    (index next : Nat) → List Expectation → List Pairing
  | _, next, [] => (List.range' next (actual.length - next)).map .actualOnly
  | index, next, expected :: rest =>
    match actual[next]? with
    | some event =>
      if !expected.optional || event.eventType = expected.eventType then
        .both index next :: pairByPosition actual (index + 1) (next + 1) rest
      else .expectedOnly index :: pairByPosition actual (index + 1) next rest
    | none => .expectedOnly index :: pairByPosition actual (index + 1) next rest

def correlation? (key : String) (expected : Expectation) : Option Json :=
  Matcher.literalAmong? key expected.matchers

def correlates (key : String) (expected : Expectation) (event : SealedEvent) : Bool :=
  match correlation? key expected with
  | some wanted => (Path.lookup? (document event) key).any (·.same wanted)
  | none => event.eventType = expected.eventType

/-- Pairs every expectation with the first free event that correlates with it. -/
def pairByKey (key : String) :
    (free : List (Nat × SealedEvent)) → (index : Nat) → List Expectation → List Pairing
  | free, _, [] => free.map fun entry => .actualOnly entry.1
  | free, index, expected :: rest =>
    match free.find? fun entry => correlates key expected entry.2 with
    | some (found, _) =>
      .both index found ::
        pairByKey key (free.filter fun entry => entry.1 ≠ found) (index + 1) rest
    | none => .expectedOnly index :: pairByKey key free (index + 1) rest

def pairings (engine : ReplayEngine) (actual : List SealedEvent) : List Pairing :=
  match engine.correlationKey with
  | some key =>
    pairByKey key (actual.zipIdx.map fun (event, index) => (index, event)) 0 engine.expected
  | none => pairByPosition actual 0 0 engine.expected

/-! ### Comparison -/

def isIgnored (engine : ReplayEngine) (path : String) : Bool :=
  PathRule.covers engine.ignored path

/-- Whether a value is as a literal requires, up to normalization where a rule asks for it. -/
def literalHolds (engine : ReplayEngine) (path : String) (expected actual : Json) : Bool :=
  if PathRule.covers engine.normalized path then
    (Normalize.value expected).same (Normalize.value actual)
  else expected.same actual

def diffAt (path : String) (matcher : Matcher) (actual : Option Json) : List FieldDiff :=
  [⟨path, matcher.toJson, actual⟩]

mutual

def check (engine : ReplayEngine) (path : String) : Matcher → Option Json → List FieldDiff
  | .present wanted, actual =>
    if engine.isIgnored path || actual.isSome == wanted then []
    else diffAt path (.present wanted) actual
  | .pattern source regex, actual =>
    let holds := match actual with
      | some (.string s) => regex.occursIn s
      | _ => false
    if engine.isIgnored path || holds then [] else diffAt path (.pattern source regex) actual
  | .literal value, actual =>
    if engine.isIgnored path || actual.any (engine.literalHolds path value) then []
    else diffAt path (.literal value) actual
  | .every children, actual =>
    if engine.isIgnored path then []
    else
      match actual with
      | some (.object fields) => checkChildren engine path fields children
      | _ => diffAt path (.every children) actual

def checkChildren (engine : ReplayEngine) (path : String) (fields : List (String × Json)) :
    List (String × Matcher) → List FieldDiff
  | [] => []
  | (key, child) :: rest =>
    check engine (Path.join path key) child (Table.find? key fields) ++
      checkChildren engine path fields rest

end

def differences (engine : ReplayEngine) (expected : Expectation) (event : SealedEvent) :
    List FieldDiff :=
  let typeDiff :=
    if engine.isIgnored "event_type" || event.eventType = expected.eventType then []
    else [⟨"event_type", .string expected.eventType, some (.string event.eventType)⟩]
  typeDiff ++ expected.matchers.flatMap fun (path, matcher) =>
    engine.check path matcher (Path.lookup? (document event) path)

def comparePair (engine : ReplayEngine) (actual : List SealedEvent) (pairing : Pairing) :
    EventComparison :=
  let expected := pairing.expected?.bind (engine.expected[·]?)
  let event := pairing.actual?.bind (actual[·]?)
  let sequence := event.map (·.sequenceNumber)
  match expected, event with
  | some expected, some event =>
    let diffs := engine.differences expected event
    ⟨pairing, expected.eventType, sequence, if diffs.isEmpty then .passed else .failed, diffs⟩
  | some expected, none =>
    ⟨pairing, expected.eventType, sequence, if expected.optional then .skipped else .missing, []⟩
  | none, some event => ⟨pairing, event.eventType, sequence, .unexpected, []⟩
  | none, none => ⟨pairing, "", sequence, .unexpected, []⟩

def replay (engine : ReplayEngine) (actual : List SealedEvent) : ReplayReport where
  manifest := engine.manifest
  expectedEvents := engine.expected.length
  actualEvents := actual.length
  events := (engine.pairings actual).map (engine.comparePair actual)

end ReplayEngine

def Manifest.replay (manifest : Manifest) (actual : List SealedEvent) :
    Except ManifestError ReplayReport :=
  (ReplayEngine.ofManifest manifest).map (·.replay actual)

end AuditTrail
