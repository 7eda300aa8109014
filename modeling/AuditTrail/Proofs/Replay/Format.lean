import AuditTrail.Proofs.Replay.Compiled
import AuditTrail.Proofs.Replay.Entries

/-!
The file format of manifests. A text is taken exactly if it is JSON, meets the schema and names the
version: nothing that meets the schema is refused afterwards. What is taken is written so that it is
read back.
-/

namespace AuditTrail.Manifest

open Document RecordReader

structure Storable (manifest : Manifest) : Prop where
  named : manifest.name ≠ ""
  input : manifest.input.Normal
  events : ∀ event ∈ manifest.expectedEvents, event.Storable
  rules : ∀ rule ∈ manifest.rules, rule.field ≠ ""
  correlation : ∀ key, manifest.correlationKey = some key → key ≠ ""

/-- What the members of an object tell of a manifest. -/
structure Told (fields : List (String × Json)) (manifest : Manifest) : Prop where
  version : Table.find? "manifest_version" fields = some (.string manifest.version)
  name : Table.find? "name" fields = some (.string manifest.name)
  description : (Table.find? "description" fields).getD (.string "") = .string manifest.description
  input : (Table.find? "input" fields).getD .null = manifest.input
  events : ∃ items, Table.find? "expected_events" fields = some (.array items) ∧
    List.Forall₂ (fun item event =>
      ExpectedEvent.decode .value (Document.ofJson item) = .ok event) items manifest.expectedEvents
  rules : ∃ items, (Table.find? "nondeterminism" fields).getD (.array []) = .array items ∧
    List.Forall₂ (fun item rule =>
      FieldRule.decode .value (Document.ofJson item) = .ok rule) items manifest.rules
  correlation : Table.find? "correlation_key" fields = manifest.correlationKey.map .string

theorem Told.decode {fields : List (String × Json)} {manifest : Manifest}
    (told : Told fields manifest) (normal : (Json.object fields).Normal) :
    decode .value (Document.ofJson (.object fields)) = .ok manifest := by
  obtain ⟨ordered, parts⟩ := Json.normal_object_iff.mp normal
  obtain ⟨items, events, each⟩ := told.events
  obtain ⟨others, rules, eachRule⟩ := told.rules
  let found := reader.foundIn fields
  have version : (required "manifest_version" .string).Accepts .value found manifest.version :=
    accepts_required (by decide) told.version rfl
  have name : (required "name" .string).Accepts .value found manifest.name :=
    accepts_required (by decide) told.name rfl
  have description : (withDefault "description" .string "").Accepts .value found
      manifest.description := by
    refine accepts_withDefault (by decide) (fun part given => ?_) fun missing => ?_
    · have own := told.description
      rw [given] at own
      cases own
      rfl
    · have own := told.description
      rw [missing] at own
      exact Json.string.inj own
  have input : (withDefault "input" .json .null).Accepts .value found manifest.input := by
    refine accepts_withDefault (by decide) (fun part given => ?_) fun missing => ?_
    · have own := told.input
      rw [given] at own
      obtain rfl : part = manifest.input := own
      have normal := parts _ (Table.mem_of_find? given)
      exact (Decoder.json_value _).trans (congrArg Except.ok normal)
    · exact (congrArg (Option.getD · .null) missing).symm.trans told.input
  have expected : (required "expected_events" (.list ExpectedEvent.decode)).Accepts .value found
      manifest.expectedEvents :=
    accepts_required (by decide) events (Decoder.list_of_forall₂ rfl each)
  have nondeterminism : (withDefault "nondeterminism" (.list FieldRule.decode) []).Accepts .value
      found manifest.rules := by
    refine accepts_withDefault (by decide) (fun part given => ?_) fun missing => ?_
    · rw [given] at rules
      obtain rfl : part = .array others := rules
      exact Decoder.list_of_forall₂ rfl eachRule
    · rw [missing] at rules
      obtain rfl : [] = others := Json.array.inj rules
      exact (List.forall₂_nil_left_iff.mp eachRule).symm
  have correlation : (withDefault "correlation_key" (.option .string) none).Accepts .value found
      manifest.correlationKey := by
    refine accepts_withDefault (by decide) (fun part given => ?_) fun missing => ?_
    · obtain ⟨key, named, rfl⟩ := Option.map_eq_some_iff.mp (told.correlation.symm.trans given)
      rw [named]
      rfl
    · exact (Option.map_eq_none_iff.mp (told.correlation.symm.trans missing)).symm
  have accepts := ((((((version.map Manifest.mk).seq name).seq description).seq input).seq
    expected).seq nondeterminism).seq correlation
  exact accepts.decode_known ordered.distinct rfl _

/-! ### The written form -/

def correlationMember (manifest : Manifest) : List (String × Json) :=
  match manifest.correlationKey with
  | some key => [("correlation_key", .string key)]
  | none => []

def members (manifest : Manifest) : List (String × Json) :=
  [("manifest_version", .string manifest.version), ("name", .string manifest.name),
    ("description", .string manifest.description), ("input", manifest.input),
    ("expected_events", .array (manifest.expectedEvents.map ExpectedEvent.toJson)),
    ("nondeterminism", .array (manifest.rules.map FieldRule.toJson))] ++
  manifest.correlationMember

theorem toJson_eq (manifest : Manifest) : manifest.toJson = .object manifest.members := rfl

theorem nesting_toJson_le_iff {manifest : Manifest} {depth : Nat} :
    (Document.ofJson manifest.toJson).nesting ≤ depth + 3 ↔
      (Document.ofJson manifest.input).nesting ≤ depth + 2 ∧
        ∀ event ∈ manifest.expectedEvents, ∀ field ∈ event.fields,
          (Document.ofJson field.2).nesting ≤ depth := by
  have rules : (Document.ofJson (.array (manifest.rules.map FieldRule.toJson))).nesting ≤
      depth + 2 := by
    rw [nesting_array_le_iff, List.forall_mem_map]
    intro rule _
    rw [FieldRule.toJson, nesting_object_le_iff]
    simp [Document.ofJson, nesting]
  have events : (Document.ofJson
      (.array (manifest.expectedEvents.map ExpectedEvent.toJson))).nesting ≤ depth + 2 ↔
      ∀ event ∈ manifest.expectedEvents, ∀ field ∈ event.fields,
        (Document.ofJson field.2).nesting ≤ depth := by
    simp only [nesting_array_le_iff, List.forall_mem_map, ExpectedEvent.nesting_toJson_le_iff]
  have text (s : String) : (Document.ofJson (.string s)).nesting ≤ depth + 2 := Nat.zero_le _
  have correlation : ∀ field ∈ manifest.correlationMember,
      (Document.ofJson field.2).nesting ≤ depth + 2 := by
    unfold correlationMember
    cases manifest.correlationKey <;> simp [text]
  rw [toJson_eq, nesting_object_le_iff, members, List.forall_mem_append]
  simp only [List.forall_mem_cons, text, events, rules, true_and, and_true, List.not_mem_nil,
    false_implies, implies_true]
  exact and_iff_left correlation

def table (manifest : Manifest) : Table Json :=
  Table.ofList (Json.normalizeFields manifest.members)

theorem normalize_toJson (manifest : Manifest) :
    manifest.toJson.normalize = .object manifest.table := by
  rw [toJson_eq, Json.normalize, table]

theorem normal_table (manifest : Manifest) : (Json.object manifest.table).Normal := by
  rw [← normalize_toJson]
  exact Json.normal_normalize _

theorem find?_table (manifest : Manifest) :
    Table.find? "manifest_version" manifest.table = some (.string manifest.version) ∧
    Table.find? "name" manifest.table = some (.string manifest.name) ∧
    Table.find? "description" manifest.table = some (.string manifest.description) ∧
    Table.find? "input" manifest.table = some manifest.input.normalize ∧
    Table.find? "expected_events" manifest.table =
      some (.array (manifest.expectedEvents.map fun event => event.toJson.normalize)) ∧
    Table.find? "nondeterminism" manifest.table =
      some (.array (manifest.rules.map fun rule => rule.toJson.normalize)) ∧
    Table.find? "correlation_key" manifest.table = manifest.correlationKey.map .string := by
  simp only [table, Json.find?_ofList_normalizeFields]
  unfold members correlationMember
  cases manifest.correlationKey <;>
    simp [Table.lastOf, Json.normalize, Json.normalizeItems_eq_map]

namespace Storable

variable {manifest : Manifest} (storable : manifest.Storable)

include storable

theorem told : Told manifest.table manifest := by
  obtain ⟨version, name, description, input, events, rules, correlation⟩ := manifest.find?_table
  refine ⟨version, name, by rw [description]; rfl, ?_, ⟨_, events, ?_⟩, ⟨_, by rw [rules]; rfl, ?_⟩,
    correlation⟩
  · rw [input]
    exact storable.input
  · refine List.forall₂_map_left_iff.mpr (List.forall₂_same.mpr fun event member => ?_)
    exact (storable.events event member).decode_normalize
  · refine List.forall₂_map_left_iff.mpr (List.forall₂_same.mpr fun rule _ => ?_)
    rw [rule.normal_toJson]
    exact rule.decode_toJson

theorem admits_normalize : schema.Admits manifest.toJson.normalize := by
  obtain ⟨version, name, description, input, events, rules, correlation⟩ := manifest.find?_table
  have told {key : String} {part : Json} {schema : Schema}
      (found : Table.find? key manifest.table = some part) (admits : schema.Admits part)
      (value : Json) (given : Table.find? key manifest.table = some value) :
      schema.Admits value :=
    Option.some.inj (found.symm.trans given) ▸ admits
  rw [normalize_toJson]
  refine .record ?_ nofun (by simp [version, name, events])
  simp only [List.forall_mem_cons]
  refine ⟨fun value found => ?_, told description (.text (Nat.zero_le _)), told events ?_,
    fun value _ => .any value, told version (.text (Nat.zero_le _)), told name ?_, told rules ?_,
    nofun⟩
  · obtain ⟨key, given, rfl⟩ := Option.map_eq_some_iff.mp (correlation.symm.trans found)
    exact Schema.admits_filled_iff.mpr ⟨key, storable.correlation key given, rfl⟩
  · refine .list (List.forall_mem_map.mpr fun event member => ?_)
    exact (storable.events event member).admits_normalize
  · exact Schema.admits_filled_iff.mpr ⟨_, storable.named, rfl⟩
  · refine .list (List.forall_mem_map.mpr fun rule member => ?_)
    rw [rule.normal_toJson]
    exact FieldRule.admits_toJson (storable.rules rule member)

end Storable

/-! ### What is taken -/

theorem exists_items {α : Type} {schema : Schema} {Goes : Json → α → Prop} {value : Json}
    (normal : value.Normal) (admits : (Schema.list schema).Admits value)
    (each : ∀ item, item.Normal → schema.Admits item → ∃ result, Goes item result) :
    ∃ items results, value = .array items ∧ List.Forall₂ Goes items results := by
  cases admits with
  | @list _ items meets =>
      have normal := Json.normal_array_iff.mp normal
      obtain ⟨results, paired⟩ := exists_forall₂ fun item member =>
        each item (normal item member) (meets item member)
      exact ⟨items, results, rfl, paired⟩

theorem exists_told {fields : List (String × Json)} (normal : (Json.object fields).Normal)
    (admits : schema.Admits (.object fields)) : ∃ manifest, Told fields manifest ∧
      manifest.Storable ∧ ∀ depth, (Document.ofJson (.object fields)).nesting ≤ depth + 3 →
        (Document.ofJson manifest.toJson).nesting ≤ depth + 3 := by
  have parts {key : String} {part : Json} (found : Table.find? key fields = some part) :=
    (Json.normal_object_iff.mp normal).2 _ (Table.mem_of_find? found)
  cases admits with
  | record meets _ present =>
      simp only [List.forall_mem_cons] at meets present
      obtain ⟨correlation, description, expected, -, version, name, rule, -⟩ := meets
      obtain ⟨⟨_, foundVersion⟩, ⟨_, foundName⟩, ⟨_, foundEvents⟩, -⟩ := present
      obtain ⟨version, rfl⟩ := Schema.exists_string (version _ foundVersion)
      obtain ⟨name, named, rfl⟩ := Schema.admits_filled_iff.mp (name _ foundName)
      obtain ⟨description, described⟩ : ∃ s,
          (Table.find? "description" fields).getD (.string "") = .string s :=
        Table.find?_getD (fun part : Json => ∃ s, part = .string s) ⟨"", rfl⟩ fun part found =>
          Schema.exists_string (description part found)
      obtain ⟨items, events, rfl, paired⟩ := exists_items (parts foundEvents)
        (expected _ foundEvents) fun _ => ExpectedEvent.exists_decode
      have listing : ((Table.find? "nondeterminism" fields).getD (.array [])).Normal :=
        Table.find?_getD Json.Normal rfl fun _ found => parts found
      obtain ⟨others, rules, listed, ruled⟩ := exists_items listing
        (Table.find?_getD (Schema.list ruleSchema).Admits (.list nofun) rule) fun _ =>
          FieldRule.exists_decode
      obtain ⟨key, keyed, filled⟩ : ∃ key : Option String, Table.find? "correlation_key" fields =
          key.map .string ∧ ∀ name, key = some name → name ≠ "" := by
        cases found : Table.find? "correlation_key" fields with
        | none => exact ⟨none, rfl, nofun⟩
        | some part =>
            obtain ⟨key, filled, rfl⟩ := Schema.admits_filled_iff.mp (correlation part found)
            exact ⟨some key, rfl, fun name same => Option.some.inj same ▸ filled⟩
      refine ⟨⟨version, name, description, _, events, rules, key⟩,
        ⟨foundVersion, foundName, described, rfl, ⟨items, foundEvents, ?_⟩, ⟨others, listed, ?_⟩,
          keyed⟩, ⟨named, ?_, fun event member => ?_, fun rule member => ?_, filled⟩,
        fun depth shallow => ?_⟩
      · exact paired.imp fun _ _ goes => goes.1
      · exact ruled.imp fun _ _ goes => goes.1
      · exact Table.find?_getD Json.Normal rfl fun _ found => parts found
      · obtain ⟨_, _, _, storable, -⟩ := exists_of_mem_right paired member
        exact storable
      · obtain ⟨_, _, _, filled⟩ := exists_of_mem_right ruled member
        exact filled
      · rw [nesting_object_le_iff] at shallow
        refine nesting_toJson_le_iff.mpr ⟨?_, fun event member => ?_⟩
        · exact Table.find?_getD (fun part => (Document.ofJson part).nesting ≤ depth + 2)
            (Nat.zero_le _) fun part found => shallow _ (Table.mem_of_find? found)
        · obtain ⟨item, inItems, -, -, within⟩ := exists_of_mem_right paired member
          have items := nesting_array_le_iff.mp (shallow _ (Table.mem_of_find? foundEvents))
          exact ExpectedEvent.nesting_toJson_le_iff.mp (within.trans (items item inItems))

theorem exists_decode {document : Json} (normal : document.Normal)
    (admits : schema.Admits document) : ∃ manifest, decode.ofJson document = .ok manifest ∧
      document.field? "manifest_version" = some (.string manifest.version) ∧ manifest.Storable ∧
      ∀ depth, (Document.ofJson document).nesting ≤ depth + 3 →
        (Document.ofJson manifest.toJson).nesting ≤ depth + 3 := by
  cases document with
  | object fields =>
      obtain ⟨manifest, told, storable, shallow⟩ := exists_told normal admits
      exact ⟨manifest, told.decode normal, told.version, storable, shallow⟩
  | _ => exact absurd admits nofun

theorem ofJson_eq_ok_iff {document : Json} {manifest : Manifest} :
    ofJson document = .ok manifest ↔ schema.Admits document ∧
      decode.ofJson document = .ok manifest ∧ manifest.version = manifestVersion := by
  rw [← Schema.violations_eq_nil_iff schema [] document, ofJson]
  cases schema.violations [] document with
  | cons violation rest => simp
  | nil =>
      cases decode.ofJson document with
      | error cause => simp
      | ok own =>
          dsimp only
          split
          next version => simpa using fun same => same ▸ version
          next other => simpa using fun same => same ▸ other

theorem ofText_eq_ok_iff {text : String} {manifest : Manifest} :
    ofText text = .ok manifest ↔
      ∃ document, Json.parse? text = some document ∧ ofJson document = .ok manifest := by
  rw [ofText]
  cases Json.parse? text <;> simp

theorem storable_of_ofText {text : String} {manifest : Manifest}
    (taken : ofText text = .ok manifest) : manifest.version = manifestVersion ∧
      manifest.Storable ∧ (Document.ofJson manifest.toJson).nesting ≤ Json.maxDepth := by
  obtain ⟨document, parsed, taken⟩ := ofText_eq_ok_iff.mp taken
  obtain ⟨admits, decoded, version⟩ := ofJson_eq_ok_iff.mp taken
  obtain ⟨own, read, -, storable, within⟩ := exists_decode (Json.normal_of_parse? parsed) admits
  obtain rfl : own = manifest := Except.ok.inj (read.symm.trans decoded)
  exact ⟨version, storable, within 124 (Json.shallow_of_parse? parsed)⟩

/-- A manifest is read back from its own text exactly if the format can tell it and it is not too
deep. -/
theorem ofText_toText_iff {manifest : Manifest} : ofText manifest.toText = .ok manifest ↔
    manifest.version = manifestVersion ∧ manifest.Storable ∧
      (Document.ofJson manifest.toJson).nesting ≤ Json.maxDepth := by
  refine ⟨storable_of_ofText, fun ⟨version, storable, shallow⟩ => ?_⟩
  have parsed := Json.parse?_pretty manifest.toJson
  rw [if_pos shallow] at parsed
  have decoded : decode.ofJson manifest.toJson.normalize = .ok manifest := by
    rw [Decoder.ofJson, normalize_toJson]
    exact storable.told.decode manifest.normal_table
  exact ofText_eq_ok_iff.mpr ⟨_, parsed,
    ofJson_eq_ok_iff.mpr ⟨storable.admits_normalize, decoded, version⟩⟩

theorem admits_of_ofText_toText {manifest own : Manifest}
    (taken : ofText manifest.toText = .ok own) : schema.Admits manifest.toJson.normalize ∧
      (Document.ofJson manifest.toJson).nesting ≤ Json.maxDepth := by
  obtain ⟨document, parsed, taken⟩ := ofText_eq_ok_iff.mp taken
  rw [toText, Json.parse?_pretty] at parsed
  split at parsed
  next shallow =>
    obtain rfl := Option.some.inj parsed
    exact ⟨(ofJson_eq_ok_iff.mp taken).1, shallow⟩
  next => cases parsed

theorem named_of_admits {manifest : Manifest} {event : ExpectedEvent}
    (admits : schema.Admits manifest.toJson.normalize) (member : event ∈ manifest.expectedEvents)
    (apart : ∀ field ∈ event.fields, field.1 ∉ ExpectedEvent.reader.names) :
    event.eventType ≠ "" := by
  obtain ⟨-, -, -, -, events, -⟩ := manifest.find?_table
  rw [normalize_toJson] at admits
  cases admits with
  | record meets _ _ =>
      cases meets ("expected_events", .list eventSchema) (by simp) _ events with
      | list each =>
          exact ExpectedEvent.named_of_admits apart (each _ (List.mem_map_of_mem member))

/-- A text is taken exactly if it is JSON, meets the schema and names the version. Reading a value
that meets the schema never fails, and what was taken is read back from its own text. -/
theorem taken_iff_meets_schema (text : String) :
    ((∃ manifest, ofText text = .ok manifest) ↔
      ∃ document, Json.parse? text = some document ∧ schema.Admits document ∧
        document.field? "manifest_version" = some (.string manifestVersion)) ∧
    (∀ document, Json.parse? text = some document → schema.Admits document →
      ∃ manifest, decode.ofJson document = .ok manifest) ∧
    ∀ manifest, ofText text = .ok manifest → ofText manifest.toText = .ok manifest := by
  refine ⟨⟨?_, ?_⟩, fun document parsed admits => ?_, fun manifest taken => ?_⟩
  · rintro ⟨manifest, taken⟩
    obtain ⟨document, parsed, taken⟩ := ofText_eq_ok_iff.mp taken
    obtain ⟨admits, decoded, version⟩ := ofJson_eq_ok_iff.mp taken
    obtain ⟨own, read, named, -⟩ := exists_decode (Json.normal_of_parse? parsed) admits
    obtain rfl : own = manifest := Except.ok.inj (read.symm.trans decoded)
    exact ⟨document, parsed, admits, version ▸ named⟩
  · rintro ⟨document, parsed, admits, version⟩
    obtain ⟨manifest, decoded, named, -⟩ := exists_decode (Json.normal_of_parse? parsed) admits
    have same : manifest.version = manifestVersion :=
      Json.string.inj (Option.some.inj (named.symm.trans version))
    exact ⟨manifest, ofText_eq_ok_iff.mpr ⟨document, parsed,
      ofJson_eq_ok_iff.mpr ⟨admits, decoded, same⟩⟩⟩
  · obtain ⟨manifest, decoded, -⟩ := exists_decode (Json.normal_of_parse? parsed) admits
    exact ⟨manifest, decoded⟩
  · exact ofText_toText_iff.mpr (storable_of_ofText taken)

end AuditTrail.Manifest
