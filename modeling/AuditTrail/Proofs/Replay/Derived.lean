import AuditTrail.Proofs.Event.Decoding
import AuditTrail.Proofs.Json.Normal
import AuditTrail.Proofs.Replay.Checks
import AuditTrail.Proofs.Replay.Compiled

/-!
A manifest that was derived from a run accepts that run. The predicate derived from a value compiles
to a matcher that finds no fault with the value, whatever rules there are, so each expectation suits
the event it was derived from, and every event is paired with its own expectation.
-/

namespace AuditTrail

namespace Matcher

/-- No engine finds fault with a value, at no place. -/
def AlwaysHolds (matcher : Matcher) (value : Json) : Prop :=
  ∀ (engine : ReplayEngine) (place : String), engine.check place matcher (some value) = []

theorem alwaysHolds_literal (value : Json) : (literal value).AlwaysHolds value := by
  intro engine place
  have holds : engine.literalHolds place value value = true := by
    unfold ReplayEngine.literalHolds
    split <;> exact Json.same_refl _
  simp [ReplayEngine.check, holds]

theorem alwaysHolds_every {fields : List (String × Json)} {children : List (String × Matcher)}
    (each : ∀ child ∈ children, ∃ value, Table.find? child.1 fields = some value ∧
      child.2.AlwaysHolds value) : (every children).AlwaysHolds (.object fields) := by
  intro engine place
  simp only [ReplayEngine.check, ReplayEngine.checkChildren_eq_flatMap, ite_eq_left_iff,
    List.flatMap_eq_nil_iff]
  intro _ child member
  obtain ⟨value, found, holds⟩ := each child member
  rw [found]
  exact holds engine _

theorem selfPredicates_eq_map (fields : List (String × Json)) :
    selfPredicates fields = fields.map fun field => (field.1, selfPredicate field.2) := by
  induction fields with
  | nil => rfl
  | cons field rest ih => simp only [selfPredicates, ih, List.map_cons]

mutual

def ofValue : Json → Matcher
  | .object fields =>
    if hasOperator (.object fields) then .literal (.object fields) else .every (ofValues fields)
  | value => .literal value

def ofValues : List (String × Json) → List (String × Matcher)
  | [] => []
  | (key, value) :: rest => (key, ofValue value) :: ofValues rest

end

theorem ofValues_eq_map (fields : List (String × Json)) :
    ofValues fields = fields.map fun field => (field.1, ofValue field.2) := by
  induction fields with
  | nil => rfl
  | cons field rest ih => simp only [ofValues, ih, List.map_cons]

theorem compile_equal (path : String) (value : Json) :
    compile path (operator "$eq" value) = .ok (.literal value) := by
  have operates : isOperator "$eq" = true := by decide
  have named : ofOperator "$eq" value = .ok (.literal value) := by simp [ofOperator]
  simp [operator, compile, operates, named, Except.mapError]

theorem compile_plain {path : String} {fields : List (String × Json)}
    (plain : hasOperator (.object fields) = false) :
    compile path (.object fields) = (compileFields path fields).map .every := by
  have none : (fields.find? fun field => isOperator field.1) = none := by
    simpa [hasOperator] using plain
  rw [compile, none]

theorem hasOperator_selfPredicates (fields : List (String × Json)) :
    hasOperator (.object (selfPredicates fields)) = hasOperator (.object fields) := by
  simp only [hasOperator, selfPredicates_eq_map, List.any_map, Function.comp_def]

theorem compile_selfPredicate (path : String) (value : Json) :
    compile path (selfPredicate value) = .ok (ofValue value) := by
  induction value using Json.structural generalizing path with
  | object fields each =>
      cases operates : hasOperator (.object fields) with
      | true =>
          rw [selfPredicate, if_pos operates, ofValue, if_pos operates]
          exact compile_equal path _
      | false =>
          have compiled : (selfPredicates fields).mapM (fun field =>
              (compile (Path.join path field.1) field.2).map (field.1, ·)) =
                .ok (ofValues fields) := by
            rw [selfPredicates_eq_map, ofValues_eq_map, List.mapM_map, mapM_eq_ok_iff,
              List.forall₂_map_right_iff, List.forall₂_same]
            intro field member
            rw [Function.comp_apply, each field member]
            rfl
          rw [selfPredicate, if_neg (by simp [operates]), ofValue, if_neg (by simp [operates]),
            compile_plain ((hasOperator_selfPredicates fields).trans operates),
            compileFields_eq_mapM, compiled]
          rfl
  | _ => rfl

theorem alwaysHolds_ofValue {value : Json} (normal : value.Normal) :
    (ofValue value).AlwaysHolds value := by
  -- On the value; an object without operators is matched field by field, each under its own key.
  induction value using Json.structural with
  | object fields each =>
      rw [ofValue]
      split
      · exact alwaysHolds_literal _
      · obtain ⟨ordered, parts⟩ := Json.normal_object_iff.mp normal
        rw [ofValues_eq_map]
        refine alwaysHolds_every (List.forall_mem_map.mpr fun field member => ?_)
        exact ⟨field.2, ordered.find?_of_mem member, each field member (parts field member)⟩
  | _ => exact alwaysHolds_literal _

end Matcher

/-! ### The expectation that is derived from an event -/

theorem Path.lookup?_normalize {key : String} (whole : segments key = [key])
    (fields : List (String × Json)) :
    lookup? (Json.object fields).normalize key = (Table.lastOf key fields).map Json.normalize := by
  rw [lookup?, whole, Json.normalize, Json.normalizeFields_eq_map, List.foldlM_cons]
  simp only [child?, Table.find?_ofList, Table.lastOf_map]
  cases Table.lastOf key fields <;> rfl

theorem ReplayEngine.lookup?_document {key : String} {value : Json} {event : SealedEvent}
    (whole : Path.segments key = [key]) (found : Table.lastOf key event.fields = some value) :
    Path.lookup? (document event) key = some value.normalize := by
  rw [document, SealedEvent.toJson_eq, Path.lookup?_normalize whole, found]
  rfl

theorem Actor.normalize_toJson (actor : Actor) : actor.toJson.normalize =
    .object [("id", .string actor.id), ("type", .string actor.kind.name)] := by
  have before : "id" < "type" := by decide
  simp [toJson, Json.normalize, Json.normalizeFields, Table.ofList, Table.insert, before]

theorem Actor.selfPredicate_toJson (actor : Actor) :
    Matcher.selfPredicate actor.toJson.normalize = actor.toJson.normalize := by
  simp [normalize_toJson, Matcher.selfPredicate, Matcher.selfPredicates, Matcher.hasOperator,
    Matcher.isOperator]

namespace Manifest

open ReplayEngine

def ownEntries (event : SealedEvent) : List (String × Json) :=
  [("actor", event.actor.toJson.normalize), ("severity", .string event.severity.name),
    ("payload", event.payload)] ++
  if event.artifacts.isEmpty then []
  else [("artifacts", (Json.array (event.artifacts.map Artifact.toJson)).normalize)]

def ownValues (event : SealedEvent) : Table Json :=
  Table.ofList (ownEntries event)

def ownExpectation (event : SealedEvent) : Expectation where
  eventType := event.eventType
  optional := false
  matchers := (ownValues event).map fun entry => (entry.1, Matcher.ofValue entry.2)

theorem forall_mem_ownValues {Holds : String × Json → Prop} {event : SealedEvent}
    (actor : Holds ("actor", event.actor.toJson.normalize))
    (severity : Holds ("severity", .string event.severity.name))
    (payload : Holds ("payload", event.payload))
    (artifacts : Holds ("artifacts", (Json.array (event.artifacts.map Artifact.toJson)).normalize)) :
    ∀ entry ∈ ownValues event, Holds entry := by
  intro entry member
  rcases List.mem_append.mp (Table.mem_ofList member) with always | filled
  · simp only [List.mem_cons, List.not_mem_nil, or_false] at always
    rcases always with rfl | rfl | rfl
    · exact actor
    · exact severity
    · exact payload
  · split at filled
    · cases filled
    · exact List.mem_singleton.mp filled ▸ artifacts

theorem fieldsOf_eq_map (event : SealedEvent) :
    fieldsOf event = (ownValues event).map fun entry => (entry.1, Matcher.selfPredicate entry.2) := by
  rw [ownValues, ← Table.ofList_map, fieldsOf, ownEntries]
  split <;> simp [Actor.selfPredicate_toJson, Json.normalize, Matcher.selfPredicate]

theorem compileEvent_fieldsOf (event : SealedEvent) :
    compileEvent { eventType := event.eventType, fields := fieldsOf event } =
      .ok (ownExpectation event) := by
  refine compileEvent_eq_ok_iff.mpr ⟨rfl, rfl, (compileMatchers_eq_mapM _).trans ?_⟩
  rw [fieldsOf_eq_map, List.mapM_map, mapM_eq_ok_iff, ownExpectation,
    List.forall₂_map_right_iff, List.forall₂_same]
  intro entry _
  rw [Function.comp_apply, Matcher.compile_selfPredicate]
  rfl

theorem normal_of_mem_ownValues {event : SealedEvent} (normal : event.payload.Normal) :
    ∀ entry ∈ ownValues event, entry.2.Normal :=
  forall_mem_ownValues (Json.normal_normalize _) rfl normal (Json.normal_normalize _)

theorem segments_of_ownKey : ∀ key ∈ ["actor", "severity", "payload", "artifacts"],
    Path.segments key = [key] := by
  decide

theorem segments_of_mem_ownValues (event : SealedEvent) :
    ∀ entry ∈ ownValues event, Path.segments entry.1 = [entry.1] :=
  forall_mem_ownValues (segments_of_ownKey _ (by simp)) (segments_of_ownKey _ (by simp))
    (segments_of_ownKey _ (by simp)) (segments_of_ownKey _ (by simp))

theorem lookup?_ownValues {event : SealedEvent} (normal : event.payload.Normal) :
    ∀ entry ∈ ownValues event,
      Path.lookup? (document event) entry.1 = some entry.2 := by
  have held : ∀ entry ∈ [("actor", event.actor.toJson), ("severity", .string event.severity.name),
      ("payload", event.payload), ("artifacts", .array (event.artifacts.map Artifact.toJson))],
      Table.lastOf entry.1 event.fields = some entry.2 := by
    cases parent : event.parentSpanId <;>
      simp [SealedEvent.fields, SealedEvent.fieldsBefore, SealedEvent.fieldsAfter,
        RawEvent.parentField, Table.lastOf, parent]
  simp only [List.forall_mem_cons] at held
  obtain ⟨actor, severity, payload, artifacts, -⟩ := held
  refine forall_mem_ownValues (lookup?_document (segments_of_ownKey _ (by simp)) actor)
    (lookup?_document (segments_of_ownKey _ (by simp)) severity) ?_
    (lookup?_document (segments_of_ownKey _ (by simp)) artifacts)
  exact normal ▸ lookup?_document (segments_of_ownKey _ (by simp)) payload

theorem suits_ownExpectation {event : SealedEvent} (normal : event.payload.Normal)
    (engine : ReplayEngine) : engine.Suits (ownExpectation event) event := by
  refine ⟨Or.inr rfl, List.forall_mem_map.mpr fun entry member => ?_⟩
  rw [lookup?_ownValues normal entry member]
  exact Matcher.alwaysHolds_ofValue (normal_of_mem_ownValues normal entry member) engine _

/-- An event suits the expectation that is derived from it, under every engine. -/
theorem exists_ownExpectation {event : SealedEvent} (normal : event.payload.Normal) :
    ∃ expected,
      compileEvent { eventType := event.eventType, fields := fieldsOf event } = .ok expected ∧
      expected.optional = false ∧ ∀ engine : ReplayEngine, engine.Suits expected event :=
  ⟨ownExpectation event, compileEvent_fieldsOf event, rfl, suits_ownExpectation normal⟩

theorem suits_ownExpectations {events : List SealedEvent}
    (normal : ∀ event ∈ events, event.payload.Normal) (engine : ReplayEngine) :
    List.Forall₂ engine.Suits (events.map ownExpectation) events :=
  List.forall₂_map_left_iff.mpr (List.forall₂_same.mpr fun event member =>
    suits_ownExpectation (normal event member) engine)

theorem ofManifest_derived {manifest : Manifest} {events : List SealedEvent}
    (derived : manifest.expectedEvents = (ofEvents manifest.name events).expectedEvents)
    (bare : manifest.rules = []) :
    ofManifest manifest = .ok (ofParts manifest (events.map ownExpectation) []) := by
  refine ofManifest_eq_ok_iff.mpr ⟨_, [], ?_, bare ▸ .nil, rfl⟩
  rw [derived, ofEvents, List.forall₂_map_left_iff, List.forall₂_map_right_iff, List.forall₂_same]
  exact fun event _ => compileEvent_fieldsOf event

theorem foldl_withRule (rules : List FieldRule) (manifest : Manifest) :
    rules.foldl withRule manifest = { manifest with rules := manifest.rules ++ rules } := by
  induction rules generalizing manifest with
  | nil => simp
  | cons rule rest ih =>
      rw [List.foldl_cons, ih]
      simp [withRule]

theorem exists_compileRule {rule : FieldRule}
    (compiles : ∃ pattern, PathRule.compile rule.field = .ok pattern) :
    ∃ compiled, compileRule rule = .ok compiled := by
  obtain ⟨pattern, compiled⟩ := compiles
  exact ⟨(rule.kind, pattern), by rw [compileRule, compiled]⟩

end Manifest

namespace ReplayEngine

theorem replay_of_pairs {engine : ReplayEngine} {actual : List SealedEvent}
    (pairs : engine.pairings actual =
      (List.range engine.expected.length).map fun index => .both index index)
    (suits : List.Forall₂ engine.Suits engine.expected actual) :
    (∀ comparison ∈ (engine.replay actual).events,
      comparison.status = .passed ∧ comparison.diffs = []) ∧
    (engine.replay actual).events.length = actual.length := by
  obtain ⟨length, each⟩ := List.forall₂_iff_get.mp suits
  have paired : (engine.replay actual).events = (List.range engine.expected.length).map
      fun index => engine.comparePair actual (.both index index) := by
    simp [replay, pairs]
  refine ⟨fun comparison member => ?_, by simp [paired, length]⟩
  rw [paired] at member
  obtain ⟨index, bound, rfl⟩ := List.mem_map.mp member
  rw [List.mem_range] at bound
  rw [comparePair_of_suits (List.getElem?_eq_getElem bound)
    (List.getElem?_eq_getElem (length ▸ bound)) (each index bound (length ▸ bound))]
  exact ⟨rfl, rfl⟩

theorem replay_of_suits {engine : ReplayEngine} {actual : List SealedEvent}
    (positional : engine.correlationKey = none)
    (required : ∀ expected ∈ engine.expected, expected.optional = false)
    (suits : List.Forall₂ engine.Suits engine.expected actual) :
    (∀ comparison ∈ (engine.replay actual).events,
      comparison.status = .passed ∧ comparison.diffs = []) ∧
    (engine.replay actual).events.length = actual.length := by
  refine replay_of_pairs ?_ suits
  have pairs := @pairByPosition_of_required actual 0 0 _ required
    (by rw [Nat.zero_add, suits.length_eq])
  simp [pairings, positional, pairs]

end ReplayEngine

namespace Manifest

open ReplayEngine

/-- The manifest that is derived from a run compiles and passes on the run, with whatever rules. A
payload is a value as any is read or built, with each key of an object once and in order. -/
theorem passes_self (name : String) {events : List SealedEvent} {rules : List FieldRule}
    (normal : ∀ event ∈ events, event.payload.Normal)
    (compiles : ∀ rule ∈ rules, ∃ pattern, PathRule.compile rule.field = .ok pattern) :
    ∃ engine, ofManifest (rules.foldl withRule (ofEvents name events)) = .ok engine ∧
      (engine.replay events).passed = true ∧
      (∀ comparison ∈ (engine.replay events).events,
        comparison.status = .passed ∧ comparison.diffs = []) ∧
      (engine.replay events).count .passed = events.length := by
  obtain ⟨expected, own⟩ := exists_forall₂ fun event member =>
    exists_ownExpectation (normal event member)
  obtain ⟨patterns, patterned⟩ := exists_forall₂ fun rule member =>
    exists_compileRule (compiles rule member)
  let engine := ofParts (ofEvents name events) expected patterns
  have compiled : ofManifest (rules.foldl withRule (ofEvents name events)) = .ok engine := by
    rw [foldl_withRule]
    refine ofManifest_eq_ok_iff.mpr ⟨expected, patterns, ?_, patterned, rfl⟩
    exact List.forall₂_map_left_iff.mpr (own.imp fun _ _ goes => goes.1)
  have suits : List.Forall₂ engine.Suits expected events :=
    (own.imp fun _ _ goes => goes.2.2 engine).flip
  have required : ∀ one ∈ expected, one.optional = false := by
    intro one member
    obtain ⟨_, _, -, required, -⟩ := exists_of_mem_right own member
    exact required
  obtain ⟨passes, length⟩ := replay_of_suits rfl required suits
  refine ⟨engine, compiled, ?_, passes, ?_⟩
  · refine ReplayReport.passed_iff.mpr fun comparison member => ?_
    rw [(passes comparison member).1]
    rfl
  · rw [ReplayReport.count, List.filter_eq_self.mpr, length]
    intro comparison member
    exact decide_eq_true (passes comparison member).1

def keyedPayloads : List Json :=
  [.object [("tool.name", .string "search"),
    ("args", .object [("q.text", .null), ("", .object [])])],
  .object [("$schema", .string "x"), ("k", .bool true)],
  .object [("nested", .object [("$ref", .array [.object [("$eq", .null)]])])]]

def keyedRaws : List RawEvent :=
  keyedPayloads.map fun payload => { sampleRaw "e" with payload := payload.normalize }

def keyedRun : List SealedEvent :=
  ((ChainHead.fresh "s").sealAll sampleTime keyedRaws).1

def keyedRules : List FieldRule :=
  [⟨"*.span_id", .normalize⟩, ⟨"payload.args.*", .normalize⟩, ⟨"payload.k", .ignore⟩]

theorem passes_self_keyed :
    (∀ event ∈ keyedRun, event.payload.Normal) ∧
    (∀ rule ∈ keyedRules, ∃ pattern, PathRule.compile rule.field = .ok pattern) ∧
    ∃ engine, ofManifest (keyedRules.foldl withRule (ofEvents "keys" keyedRun)) = .ok engine ∧
      (engine.replay keyedRun).passed = true ∧ (engine.replay keyedRun).count .passed = 3 := by
  have raws : keyedRun.map SealedEvent.toRaw = keyedRaws :=
    (ChainHead.fresh "s").map_toRaw_sealAll sampleTime keyedRaws
  have normal : ∀ event ∈ keyedRun, event.payload.Normal := by
    intro event member
    have raw : event.toRaw ∈ keyedRaws := raws ▸ List.mem_map_of_mem member
    obtain ⟨payload, _, same⟩ := List.mem_map.mp raw
    show event.toRaw.payload.Normal
    rw [← same]
    exact payload.normal_normalize
  have compiles : ∀ rule ∈ keyedRules,
      ∃ pattern, PathRule.compile rule.field = .ok pattern := by
    simp only [keyedRules, List.forall_mem_cons]
    exact ⟨⟨_, rfl⟩, ⟨_, rfl⟩, ⟨_, rfl⟩, nofun⟩
  obtain ⟨engine, compiled, passed, -, count⟩ := passes_self "keys" normal compiles
  have length : keyedRun.length = 3 := by
    simpa [keyedRaws, keyedPayloads] using congrArg List.length raws
  exact ⟨normal, compiles, engine, compiled, passed, count.trans length⟩

end Manifest

end AuditTrail
