import AuditTrail.Event.Sealed
import AuditTrail.Proofs.Canonical.ReadBack

/-!
Payloads given as typed data. The content of an event is written alike whether its parts are typed
or are JSON values with the same canonical text, so an event whose payload was read back from a
datum is hashed as if the datum itself stood in its place.
-/

namespace AuditTrail

namespace Json

open Canonical

theorem canonicalChars_array (items : List Json) :
    (array items).canonicalChars = brackets (items.map canonicalChars) := by
  rw [canonicalChars, normalize, writeWith_array, normalizeItems_eq_map, List.map_map]
  rfl

theorem canonicalChars_fields (fields : List (String × Json)) : (object fields).canonicalChars =
    braces (Table.ofList (fields.map fun field => (field.1, field.2.canonicalChars))) := by
  rw [canonicalChars, normalize, writeWith_object, ← Table.ofList_map, normalizeFields_eq_map,
    List.map_map]
  rfl

end Json

namespace Datum

open Canonical

/-- A datum that is written as the canonical text of a JSON value. -/
def WrittenAs (datum : Datum) (value : Json) : Prop :=
  datum.text? = some value.canonicalChars

theorem writtenAs_of_encode {datum : Datum} {value : Json} (text : List Char)
    (encodes : datum.encode = .ok text) (same : value.canonicalChars = text) :
    datum.WrittenAs value := by
  rw [WrittenAs, text?, encodes, same]
  rfl

theorem encode_of_writtenAs {datum : Datum} {value : Json} (written : datum.WrittenAs value) :
    datum.encode = .ok value.canonicalChars := by
  unfold WrittenAs text? at written
  cases encodes : datum.encode with
  | ok text =>
      rw [encodes] at written
      rw [Option.some.inj written]
  | error error => simp [encodes, Except.toOption] at written

theorem writtenAs_text (s : String) : (text s).WrittenAs (.string s) :=
  writtenAs_of_encode (quote s) (by simp only [encode]) rfl

theorem writtenAs_unitVariant (s : String) : (unitVariant s).WrittenAs (.string s) :=
  writtenAs_of_encode (quote s) (by simp only [encode]) rfl

theorem writtenAs_sequence {α : Type} {datum : α → Datum} {value : α → Json} {items : List α}
    (each : ∀ item ∈ items, (datum item).WrittenAs (value item)) :
    (sequence (items.map datum)).WrittenAs (.array (items.map value)) := by
  have texts : (items.map datum).mapM text? =
      some (items.map fun item => (value item).canonicalChars) := by
    induction items with
    | nil => rfl
    | cons item items ih =>
        have first : (datum item).text? = _ := each item List.mem_cons_self
        have later := ih fun other member => each other (List.mem_cons_of_mem _ member)
        simp [List.mapM_cons, first, later]
  rw [WrittenAs, text?_sequence, texts, Json.canonicalChars_array, List.map_map]
  rfl

def FieldAs (field : String × Datum) (value : String × Json) : Prop :=
  field.1 = value.1 ∧ field.2.WrittenAs value.2

theorem step?_of_fieldAs {field : String × Datum} {value : String × Json}
    (same : FieldAs field value) (table : Table (List Char)) :
    step? table (some (text field.1), field.2) = add? table (value.1, value.2.canonicalChars) := by
  obtain ⟨name, written⟩ := same
  have written : field.2.text? = _ := written
  have key : (text value.1).text? = some (quote value.1) := writtenAs_text value.1
  simp [step?, pair?, key, written, decodeKey_quote, Except.toOption, name]

theorem writtenAs_record {fields : List (String × Datum)} {values : List (String × Json)}
    (distinct : (values.map Prod.fst).Nodup) (each : fields.Forall₂ FieldAs values) :
    (record fields).WrittenAs (.object values) := by
  have steps (table : Table (List Char)) : (asEntries fields).foldlM step? table =
      (values.map fun value => (value.1, value.2.canonicalChars)).foldlM add? table := by
    clear distinct
    induction each generalizing table with
    | nil => rfl
    | cons first _ ih =>
        simp only [asEntries, List.map_cons, List.foldlM_cons, step?_of_fieldAs first]
        exact Option.bind_congr fun added _ => ih added
  rw [WrittenAs, text?_record, text?_map, steps,
    foldlM_add? (by simpa [Function.comp_def] using distinct) (by simp), Json.canonicalChars_fields]
  rfl

theorem writtenAs_integer (n : UInt64) (inRange) :
    (integer n.toNat inRange).WrittenAs (Json.ofUInt64 n) :=
  writtenAs_of_encode (decimalChars n.toNat) (by simp only [encode]) rfl

end Datum

/-! ### The content of an event as a record -/

open Datum

def Actor.record (actor : Actor) : Datum :=
  .record [("type", .unitVariant actor.kind.name), ("id", .text actor.id)]

def Artifact.record (artifact : Artifact) : Datum :=
  .record [
    ("name", .text artifact.name),
    ("uri", .text artifact.uri),
    ("content_hash", .text artifact.contentHash),
    ("content_type", .text artifact.contentType)]

/-- The hashed content with typed data in the place of the payload. -/
def SealedEvent.contentRecord (event : SealedEvent) (payload : Datum) : Datum :=
  .record [
    ("trace_version", .text event.traceVersion),
    ("session_id", .text event.sessionId),
    ("trace_id", .text event.traceId),
    ("span_id", .text event.spanId),
    ("parent_span_id", event.parentSpanId.elim .absent fun span => .present (.text span)),
    ("event_id", .text event.eventId),
    ("event_type", .text event.eventType),
    ("actor", event.actor.record),
    ("severity", .unitVariant event.severity.name),
    ("payload", payload),
    ("artifacts", .sequence (event.artifacts.map Artifact.record)),
    ("timestamp", .text event.timestamp.text),
    ("sequence_number", .integer event.sequenceNumber.toNat
      ⟨by omega, by have := event.sequenceNumber.toNat_lt; omega⟩),
    ("persisted_at", .text event.persistedAt.text)]

theorem Actor.writtenAs_record (actor : Actor) : actor.record.WrittenAs actor.toJson :=
  Datum.writtenAs_record (by simp)
    (.cons ⟨rfl, writtenAs_unitVariant _⟩ (.cons ⟨rfl, writtenAs_text _⟩ .nil))

theorem Artifact.writtenAs_record (artifact : Artifact) :
    artifact.record.WrittenAs artifact.toJson :=
  Datum.writtenAs_record (by simp)
    (.cons ⟨rfl, writtenAs_text _⟩ (.cons ⟨rfl, writtenAs_text _⟩
      (.cons ⟨rfl, writtenAs_text _⟩ (.cons ⟨rfl, writtenAs_text _⟩ .nil))))

theorem SealedEvent.writtenAs_contentRecord {event : SealedEvent} {payload : Datum}
    (written : payload.WrittenAs event.payload) :
    (event.contentRecord payload).WrittenAs event.content := by
  have span : (event.parentSpanId.elim Datum.absent fun span => .present (.text span)).WrittenAs
      (Json.ofOption Json.string event.parentSpanId) := by
    cases event.parentSpanId with
    | none =>
        exact writtenAs_of_encode "null".toList (by simp only [Option.elim, encode]) rfl
    | some span =>
        exact writtenAs_of_encode (quote span) (by simp only [Option.elim, encode]) rfl
  have artifacts : (Datum.sequence (event.artifacts.map Artifact.record)).WrittenAs
      (.array (event.artifacts.map Artifact.toJson)) :=
    writtenAs_sequence fun artifact _ => artifact.writtenAs_record
  refine Datum.writtenAs_record (by simp) ?_
  simp only [List.forall₂_cons, List.forall₂_nil_left_iff, FieldAs, true_and, and_true]
  exact ⟨writtenAs_text _, writtenAs_text _, writtenAs_text _, writtenAs_text _, span,
    writtenAs_text _, writtenAs_text _, event.actor.writtenAs_record, writtenAs_unitVariant _,
    written, artifacts, writtenAs_text _, writtenAs_integer _ _, writtenAs_text _⟩

theorem RawEvent.withPayload_of_toValue {raw : RawEvent} {datum : Datum} {value : Json}
    (read : datum.toValue = .ok value) :
    raw.withPayload datum = .ok { raw with payload := value } := by
  rw [withPayload, read]
  rfl

/-- A datum with a canonical text that nests no deeper than texts are read is read back as a value,
and that value is read back as itself. The value has the canonical text of the datum exactly if every
integer inside has at most 64 bits or is what a float is shown as, and then an event with the datum
for payload is hashed as if the datum itself stood in its content. -/
theorem Datum.toValue_restores {datum : Datum} {text : List Char}
    (encodes : datum.encode = .ok text) (shallow : datum.Within Json.maxDepth) :
    ∃ value, datum.toValue = .ok value ∧ (ofJson value).toValue = .ok value ∧
      ((ofJson value).encode = .ok text ↔ datum.Everywhere Rereads) ∧
      (datum.Everywhere Rereads → ∀ (raw : RawEvent) (sequence : UInt64) (previous : String)
        (persistedAt : Timestamp), ∃ changed typed, raw.withPayload datum = .ok changed ∧
          let event := SealedEvent.sealAt changed sequence previous persistedAt
          (event.contentRecord datum).encode = .ok typed ∧
          event.eventHash = Sha256.hexDigest (Utf8.encodeChars typed ++ Utf8.encode previous)) := by
  have own : datum.text? = some text := by
    rw [text?, encodes]
    rfl
  obtain ⟨value, restored⟩ := datum.readsBack text own
  have read := restored.toValue shallow encodes
  refine ⟨value, read, restored.toValue_value shallow, ?_, ?_⟩
  · rw [restored.encode_value, Except.ok.injEq, restored.canonicalChars_eq]
    exact restored.same
  · intro rereads raw sequence previous persistedAt
    have written : datum.WrittenAs value :=
      writtenAs_of_encode text encodes (restored.canonicalChars_eq.trans (restored.same.mpr rereads))
    exact ⟨_, _, RawEvent.withPayload_of_toValue read,
      encode_of_writtenAs (SealedEvent.writtenAs_contentRecord written), rfl⟩

def sampleNumbers : Datum :=
  .sequence [.integer 18446744073709551615 (by decide), .float (.finite floatThree)]

theorem toValue_sampleNumbers : ∃ value, sampleNumbers.toValue = .ok value ∧
    (ofJson value).toValue = .ok value ∧
    (ofJson value).encode = .ok "[18446744073709551615,3]".toList := by
  have encodes : sampleNumbers.encode = .ok "[18446744073709551615,3]".toList := by
    simp only [sampleNumbers, encode, encodeItems, canonicalChars_floatThree]
    rfl
  have shallow : sampleNumbers.Within Json.maxDepth := by
    refine .intro (by decide) ?_
    simp only [sampleNumbers, children, List.forall_mem_cons]
    exact ⟨.intro (by decide) (List.forall_mem_nil _), .intro (by decide) (List.forall_mem_nil _),
      List.forall_mem_nil _⟩
  have rereads : sampleNumbers.Everywhere Rereads := by
    refine everywhere_iff.mpr ⟨trivial, ?_⟩
    simp only [sampleNumbers, children, List.forall_mem_cons]
    exact ⟨everywhere_iff.mpr ⟨Or.inl (by decide), List.forall_mem_nil _⟩,
      everywhere_iff.mpr ⟨trivial, List.forall_mem_nil _⟩, List.forall_mem_nil _⟩
  obtain ⟨value, read, again, same, _⟩ := Datum.toValue_restores encodes shallow
  exact ⟨value, read, again, same.mpr rereads⟩

def largestInteger : Datum :=
  .integer 340282366920938463463374607431768211455 (by decide)

def nextFloat : Binary64 :=
  ⟨false, 4503599627370496, 76, by decide⟩

theorem toValue_largestInteger : ∃ value, largestInteger.toValue = .ok value ∧
    largestInteger.encode = .ok "340282366920938463463374607431768211455".toList ∧
    (ofJson value).encode = .ok "340282366920938500000000000000000000000".toList := by
  have encodes : largestInteger.encode =
      .ok (decimalChars 340282366920938463463374607431768211455) := by
    simp only [largestInteger, Datum.encode]
  have read : Binary64.ofDecimal false 340282366920938463463374607431768211455 0 =
      some nextFloat := by
    decide +kernel
  have literal := literalOf_float (n := 340282366920938463463374607431768211455) (by decide) read
  have digits : nextFloat.canonicalChars = "340282366920938500000000000000000000000".toList := by
    decide +kernel
  refine ⟨.number (.float nextFloat), ?_, ?_, ?_⟩
  · exact Datum.toValue_of_reads encodes (Document.readsAs_literal literal) rfl (by decide)
  · rw [encodes]
    rfl
  · simp only [ofJson, Datum.encode, digits]

end AuditTrail
