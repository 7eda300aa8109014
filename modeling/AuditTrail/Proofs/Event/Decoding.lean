import AuditTrail.Event.Sealed
import AuditTrail.Proofs.Canonical.Decoding
import AuditTrail.Proofs.Json.Depth
import AuditTrail.Proofs.Json.Extension
import AuditTrail.Proofs.Json.Record
import AuditTrail.Proofs.Json.Values
import AuditTrail.Proofs.Json.WellFormed
import AuditTrail.Proofs.Time.Timestamp

/-!
Events read back from their own text. The reader takes everything that the writer writes, except a
payload that is nested deeper than texts are read.
-/

namespace AuditTrail

open Document RecordReader

section

variable (origin : Origin)

theorem ActorKind.decode_name (kind : ActorKind) :
    ActorKind.decode origin (.string kind.name) = .ok kind := by
  cases kind <;> rfl

theorem Severity.decode_name (severity : Severity) :
    Severity.decode origin (.string severity.name) = .ok severity := by
  cases severity <;> rfl

theorem Timestamp.decode_toJson (t : Timestamp) :
    Timestamp.decode origin (ofJson t.toJson) = .ok t.reread := by
  simp only [toJson, ofJson, Timestamp.decode, parse?_text]

theorem Decoder.uint64_ofUInt64 (n : UInt64) :
    Decoder.uint64 origin (Document.ofJson (Json.ofUInt64 n)) = .ok n := by
  have fits : n.toNat < UInt64.size := n.toNat_lt
  simp [Json.ofUInt64, Number.ofUInt64, Document.ofJson, Decoder.uint64, Decoder.natBelow, fits,
    Except.map]

theorem Decoder.json_ofJson (value : Json) (depth : Nat) :
    Decoder.json (.text depth) (Document.ofJson value) =
      if (Document.ofJson value).nesting ≤ depth then .ok value.normalize else .error .malformed := by
  unfold Decoder.json
  dsimp only
  rw [toJson?, toTree?_ofJson]
  by_cases shallow : (Document.ofJson value).nesting ≤ depth <;> simp [shallow]

end

theorem Actor.decode_toJson (actor : Actor) (depth : Nat) :
    Actor.decode (.text (depth + 1)) (ofJson actor.toJson) = .ok actor := by
  refine Accepts.decode ?_ (by simp) (by simp [reader]) rfl _
  exact ((accepts_field rfl (ActorKind.decode_name _ _)).map Actor.mk).seq (accepts_field rfl rfl)

theorem Artifact.decode_toJson (artifact : Artifact) (depth : Nat) :
    Artifact.decode (.text (depth + 1)) (ofJson artifact.toJson) = .ok artifact := by
  refine Accepts.decode ?_ (by simp) (by simp [reader]) rfl _
  exact ((((accepts_field rfl rfl).map Artifact.mk).seq (accepts_field rfl rfl)).seq
    (accepts_field rfl rfl)).seq (accepts_field rfl rfl)

theorem Decoder.list_map {α : Type} {decode : Decoder α} {write : α → Json} {items : List α}
    {depth : Nat}
    (each : ∀ item ∈ items, decode (.text depth) (Document.ofJson (write item)) = .ok item) :
    Decoder.list decode (.text (depth + 1)) (Document.ofJson (.array (items.map write))) =
      .ok items :=
  Decoder.list_of_forall₂ rfl (List.forall₂_map_left_iff.mpr (List.forall₂_same.mpr each))

namespace SealedEvent

def fieldsBefore (event : SealedEvent) : List (String × Json) :=
  [("trace_version", .string event.traceVersion), ("session_id", .string event.sessionId),
    ("trace_id", .string event.traceId), ("span_id", .string event.spanId)] ++
  RawEvent.parentField event.parentSpanId ++
  [("event_id", .string event.eventId), ("event_type", .string event.eventType),
    ("actor", event.actor.toJson), ("severity", .string event.severity.name)]

def fieldsAfter (event : SealedEvent) : List (String × Json) :=
  [("artifacts", .array (event.artifacts.map Artifact.toJson)),
    ("timestamp", event.timestamp.toJson),
    ("sequence_number", Json.ofUInt64 event.sequenceNumber),
    ("previous_event_hash", .string event.previousEventHash),
    ("event_hash", .string event.eventHash),
    ("persisted_at", event.persistedAt.toJson)]

def fields (event : SealedEvent) : List (String × Json) :=
  event.fieldsBefore ++ ("payload", event.payload) :: event.fieldsAfter

theorem toJson_eq (event : SealedEvent) : event.toJson = .object event.fields := by
  simp [toJson, fields, fieldsBefore, fieldsAfter]

theorem names_reader : reader.names = ["trace_version", "session_id", "trace_id", "span_id",
    "parent_span_id", "event_id", "event_type", "actor", "severity", "payload", "artifacts",
    "timestamp", "sequence_number", "previous_event_hash", "event_hash", "persisted_at"] := rfl

theorem distinct_fields (event : SealedEvent) : (event.fields.map Prod.fst).Nodup := by
  cases parent : event.parentSpanId <;>
    simp [fields, fieldsBefore, fieldsAfter, RawEvent.parentField, parent]

theorem known_fields (event : SealedEvent) :
    ∀ key ∈ event.fields.map Prod.fst, key ∈ reader.names := by
  rw [names_reader]
  cases parent : event.parentSpanId <;>
    simp [fields, fieldsBefore, fieldsAfter, RawEvent.parentField, parent]

/-- An event as its line tells it. -/
def reread (event : SealedEvent) : SealedEvent :=
  { event with
    payload := event.payload.normalize
    timestamp := event.timestamp.reread
    persistedAt := event.persistedAt.reread }

/-- Neither of the two points in time is a leap second within a minute. -/
structure Regular (event : SealedEvent) : Prop where
  timestamp : event.timestamp.Regular
  persistedAt : event.persistedAt.Regular

theorem regular_reread (event : SealedEvent) : event.reread.Regular :=
  ⟨event.timestamp.regular_reread, event.persistedAt.regular_reread⟩

theorem reread_eq_iff {event : SealedEvent} :
    event.reread = event ↔ event.payload.normalize = event.payload ∧ event.Regular := by
  constructor
  · intro same
    exact ⟨congrArg payload same, Timestamp.reread_eq_iff.mp (congrArg timestamp same),
      Timestamp.reread_eq_iff.mp (congrArg persistedAt same)⟩
  · rintro ⟨normal, regular⟩
    rw [reread, normal, Timestamp.reread_of_regular regular.timestamp,
      Timestamp.reread_of_regular regular.persistedAt]

theorem accepts_fields {event : SealedEvent} {depth : Nat}
    (shallow : (Document.ofJson event.payload).nesting ≤ depth + 2) :
    reader.Accepts (.text (depth + 2)) (lookup (documents event.fields))
      event.reread := by
  have keys := keys_documents event.fields
  have found {name : String} {part : Json} (member : (name, part) ∈ event.fields) :
      lookup (documents event.fields) name = some (Document.ofJson part) :=
    (lookup_eq_some_iff (keys ▸ event.distinct_fields)).mpr
      (List.mem_map.mpr ⟨(name, part), member, rfl⟩)
  have given {α : Type} (name : String) (part : Json) {decode : Decoder α} {value : α}
      (member : (name, part) ∈ event.fields)
      (decoded : decode (.text (depth + 2)) (Document.ofJson part) = .ok value) :
      (required name decode).Accepts (.text (depth + 2)) (lookup (documents event.fields)) value :=
    accepts_field (found member) decoded
  have text (name value : String) (member : (name, .string value) ∈ event.fields) :
      (required name .string).Accepts (.text (depth + 2)) (lookup (documents event.fields)) value :=
    given name _ member rfl
  have parent : (withDefault "parent_span_id" (.option .string) none).Accepts (.text (depth + 2))
      (lookup (documents event.fields)) event.parentSpanId := by
    cases span : event.parentSpanId with
    | none =>
        refine accepts_default (lookup_eq_none_iff.mpr ?_)
        rw [keys]
        simp [fields, fieldsBefore, fieldsAfter, RawEvent.parentField, span]
    | some parent =>
        have member : ("parent_span_id", .string parent) ∈ event.fields := by
          simp [fields, fieldsBefore, RawEvent.parentField, span]
        exact accepts_field (found member) rfl
  have payload := Decoder.json_ofJson event.payload (depth + 2)
  rw [if_pos shallow] at payload
  have artifacts : (withDefault "artifacts" (.list Artifact.decode) []).Accepts (.text (depth + 2))
      (lookup (documents event.fields)) event.artifacts := by
    have member : ("artifacts", .array (event.artifacts.map Artifact.toJson)) ∈ event.fields := by
      simp [fields, fieldsAfter]
    exact accepts_field (found member)
      (Decoder.list_map fun artifact _ => artifact.decode_toJson depth)
  have accepts := (text "trace_version" event.traceVersion (by simp [fields, fieldsBefore])).map
    SealedEvent.mk
  have accepts := accepts.seq (text "session_id" event.sessionId (by simp [fields, fieldsBefore]))
  have accepts := accepts.seq (text "trace_id" event.traceId (by simp [fields, fieldsBefore]))
  have accepts := accepts.seq (text "span_id" event.spanId (by simp [fields, fieldsBefore]))
  have accepts := accepts.seq parent
  have accepts := accepts.seq (text "event_id" event.eventId (by simp [fields, fieldsBefore]))
  have accepts := accepts.seq (text "event_type" event.eventType (by simp [fields, fieldsBefore]))
  have accepts := accepts.seq (given "actor" event.actor.toJson (by simp [fields, fieldsBefore])
    (event.actor.decode_toJson (depth + 1)))
  have accepts := accepts.seq (given "severity" (.string event.severity.name)
    (by simp [fields, fieldsBefore]) (event.severity.decode_name _))
  have accepts := accepts.seq (given "payload" event.payload (by simp [fields]) payload)
  have accepts := accepts.seq artifacts
  have accepts := accepts.seq (given "timestamp" event.timestamp.toJson
    (by simp [fields, fieldsAfter]) (event.timestamp.decode_toJson _))
  have accepts := accepts.seq (given "sequence_number" (Json.ofUInt64 event.sequenceNumber)
    (by simp [fields, fieldsAfter]) (Decoder.uint64_ofUInt64 _ event.sequenceNumber))
  have accepts := accepts.seq (text "previous_event_hash" event.previousEventHash
    (by simp [fields, fieldsAfter]))
  have accepts := accepts.seq (text "event_hash" event.eventHash (by simp [fields, fieldsAfter]))
  exact accepts.seq (given "persisted_at" event.persistedAt.toJson
    (by simp [fields, fieldsAfter]) (event.persistedAt.decode_toJson _))

theorem fieldsBefore_pass (event : SealedEvent) (depth : Nat) :
    ∀ member ∈ documents event.fieldsBefore, ∃ field,
      reader.fields.find? (fun field => field.name = member.1) = some field ∧
        field.check (.text (depth + 2)) member.2 = .ok () := by
  intro member found
  let bare : SealedEvent := { event with payload := .null }
  have keys := keys_documents bare.fields
  have shallow : (Document.ofJson bare.payload).nesting ≤ depth + 2 := Nat.zero_le _
  refine (accepts_fields shallow).passes (keys ▸ bare.distinct_fields) (keys ▸ bare.known_fields)
    member ?_
  rw [fields, documents, List.map_append]
  exact List.mem_append_left _ found

/-- Payloads that a reader follows to the end. -/
def Shallow (event : SealedEvent) : Prop :=
  (Document.ofJson event.payload).nesting ≤ 126

instance (event : SealedEvent) : Decidable event.Shallow :=
  inferInstanceAs (Decidable (_ ≤ _))

theorem ofText_print (event : SealedEvent) : decode.ofText event.toJson.print =
    if event.Shallow then .ok event.reread else .error .malformed := by
  rw [Decoder.ofText, Document.ofText_print, toJson_eq]
  dsimp only
  have descends : (Origin.text Json.maxDepth).descend = .ok (.text 126) := rfl
  by_cases shallow : event.Shallow
  · have read := (accepts_fields shallow).decode event.distinct_fields event.known_fields descends
      "TraceEvent"
    rw [if_pos shallow, decode, read]
    rfl
  · have before := fieldsBefore_pass event 124
    have found : reader.fields.find? (fun field => field.name = "payload") =
        some ⟨"payload", true, fun origin document =>
          (Decoder.json origin document).map fun _ => ()⟩ := rfl
    have fails : (Decoder.json (.text 126) (Document.ofJson event.payload)).map (fun _ => ()) =
        .error .malformed := by
      have deep : ¬ (Document.ofJson event.payload).nesting ≤ 126 := shallow
      rw [Decoder.json_ofJson, if_neg deep]
      rfl
    have keys := event.distinct_fields
    rw [fields, List.append_cons, List.map_append] at keys
    have read : reader.decode "TraceEvent" (.text Json.maxDepth)
        (Document.ofJson (.object event.fields)) = .error .malformed :=
      decode_error (List.nodup_append.mp keys).1 before found fails descends "TraceEvent"
    rw [if_neg shallow, decode, read]
    rfl

theorem spelled_content_reread (event : SealedEvent) :
    event.reread.content.spelled = event.content.spelled := by
  simp only [content, reread, Json.spelled, Json.spellWith, Json.spellFields,
    Json.spellWith_normalize, Timestamp.toJson, Timestamp.text_reread]

theorem canonicalBytes_content_reread (event : SealedEvent) :
    event.reread.content.canonicalBytes = event.content.canonicalBytes :=
  congrArg Utf8.encodeChars (Json.canonicalChars_eq_iff.mpr event.spelled_content_reread)

theorem verifiesHash_reread (event : SealedEvent) :
    event.reread.verifiesHash = event.verifiesHash := by
  simp only [verifiesHash, computeHash, hashAfter, preimage, canonicalBytes_content_reread]
  rfl

end SealedEvent

theorem ActorKind.sound_decode : ActorKind.decode.Sound :=
  Decoder.sound_variant _

theorem Severity.sound_decode : Severity.decode.Sound :=
  Decoder.sound_variant _

theorem Timestamp.sound_decode : Timestamp.decode.Sound := by
  intro depth document value read
  cases document with
  | string s => rfl
  | _ => exact absurd read (Decoder.mismatch_ne_ok _ _ _)

section

open Decoder

theorem Actor.sound_decode : Actor.decode.Sound :=
  Sound.decode (((sound_field ActorKind.sound_decode).map _).seq (sound_field sound_string)) _

theorem Artifact.sound_decode : Artifact.decode.Sound := by
  have text {name : String} : (required name string).Sound := sound_field sound_string
  exact Sound.decode ((((text.map _).seq text).seq text).seq text) _

theorem SealedEvent.sound_decode : SealedEvent.decode.Sound := by
  have text {name : String} : (required name string).Sound := sound_field sound_string
  have time {name : String} : (required name Timestamp.decode).Sound :=
    sound_field Timestamp.sound_decode
  have parent : (withDefault "parent_span_id" (option string) none).Sound :=
    sound_field sound_string.option
  have artifacts : (withDefault "artifacts" (list Artifact.decode) []).Sound :=
    sound_field Artifact.sound_decode.list
  exact Sound.decode ((((((((((((((((text.map _).seq text).seq text).seq text).seq parent).seq
    text).seq text).seq (sound_field Actor.sound_decode)).seq
    (sound_field Severity.sound_decode)).seq (sound_field sound_json)).seq artifacts).seq time).seq
    (sound_field sound_uint64)).seq text).seq text).seq time) _

end

namespace SealedEvent

theorem not_isNumber_of_decode {origin : Origin} {document : Document} {event : SealedEvent}
    (read : decode origin document = .ok event) : ¬ document.IsNumber := by
  intro number
  cases document with
  | number n => exact Decoder.mismatch_ne_ok _ _ _ read
  | hugeNumber => exact Decoder.mismatch_ne_ok _ _ _ read
  | _ => exact number

theorem ofText_append {text : String} {more : List Char} {event : SealedEvent}
    (read : decode.ofText text = .ok event) (filled : ∃ c ∈ more, Document.isBlank c = false) :
    decode.ofText (String.ofList (text.toList ++ more)) = .error .malformed := by
  unfold Decoder.ofText Document.ofText at read ⊢
  rw [String.toList_ofList]
  cases found : ofChars text.toList with
  | mk document ended =>
      rw [found] at read
      obtain ⟨value, decoded, _⟩ := exists_of_bind_eq_ok read
      have longer := ofChars_append found (sound_decode _ _ _ decoded)
        (not_isNumber_of_decode decoded) filled
      rw [longer]
      simp only [decoded]
      rfl

end SealedEvent

end AuditTrail
