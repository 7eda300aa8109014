import AuditTrail.Proofs.Json.Schema
import AuditTrail.Proofs.Json.Values
import AuditTrail.Replay.Manifest

/-!
The entries of a manifest, its expectations and rules, as they stand in its file. Whatever meets
their schemas is read, and what was read is written so that it meets them and is read back.
-/

namespace AuditTrail

open Document RecordReader

namespace ExpectedEvent

def predicates (fields : List (String × Json)) : Table Json :=
  fields.filter fun field => field.1 ∉ reader.names

/-- What the format can tell: a type, and predicates in order under names of their own. -/
structure Storable (event : ExpectedEvent) : Prop where
  named : event.eventType ≠ ""
  ordered : event.fields.Ordered
  normal : ∀ field ∈ event.fields, field.2.Normal
  apart : ∀ field ∈ event.fields, field.1 ∉ reader.names

section

variable {fields : List (String × Json)} (normal : (Json.object fields).Normal)

include normal

theorem otherMembers_ofFields : otherMembers .value (ofFields fields) = .ok (predicates fields) := by
  obtain ⟨ordered, parts⟩ := Json.normal_object_iff.mp normal
  clear normal
  induction fields with
  | nil => rfl
  | cons field rest ih =>
      obtain ⟨key, value⟩ := field
      obtain ⟨before, ordered⟩ := List.pairwise_cons.mp ordered
      obtain ⟨own, parts⟩ := List.forall_mem_cons.mp parts
      have later := ih ordered parts
      have read : Decoder.json .value (ofJson value) = .ok value :=
        (Decoder.json_value value).trans (congrArg Except.ok own)
      have least : ∀ entry ∈ predicates rest, key < entry.1 := fun entry member =>
        before entry (List.mem_of_mem_filter member)
      have fresh : (predicates rest).contains key = false := by
        rw [Table.contains, Table.find?_eq_none_of_before least]
        rfl
      have listed : (reader.fields.any fun field => field.name = key) =
          decide (key ∈ reader.names) := by
        simp [RecordReader.names, List.any_eq, eq_comm]
      rw [ofFields, otherMembers, listed]
      by_cases named : key ∈ reader.names
      · rw [predicates, List.filter_cons_of_neg (by simpa using named), ← predicates]
        simp [later, named, bind, Except.bind]
      · -- Keys stand in order, so this one goes in front of all that come later.
        rw [predicates, List.filter_cons_of_pos (by simpa using named), ← predicates]
        simp only [later, named, fresh, read, Table.insert_eq_cons value least, bind, Except.bind,
          decide_false, Bool.false_eq_true, if_false]
        rfl

theorem decode_object {eventType : String} {optional : Bool}
    (typed : Table.find? "event_type" fields = some (.string eventType))
    (marked : (Table.find? "optional" fields).getD (.bool false) = .bool optional) :
    decode .value (ofJson (.object fields)) = .ok ⟨eventType, optional, predicates fields⟩ := by
  have type : (required "event_type" Decoder.string).Accepts .value (reader.foundIn fields)
      eventType :=
    accepts_required (by decide) typed rfl
  have mark : (withDefault "optional" Decoder.bool false).Accepts .value (reader.foundIn fields)
      optional := by
    refine accepts_withDefault (by decide) (fun part found => ?_) fun missing => ?_
    · rw [found] at marked
      cases marked
      rfl
    · rw [missing] at marked
      exact Json.bool.inj marked
  have distinct := (Json.normal_object_iff.mp normal).1.distinct
  have read : reader.decode "ExpectedEvent" .value (ofJson (.object fields)) =
      .ok (eventType, optional) :=
    ((type.map Prod.mk).seq mark).decode_known distinct rfl _
  rw [ofJson] at read ⊢
  simp only [decode, read, Origin.descend, otherMembers_ofFields normal, bind, Except.bind]
  rfl

theorem storable_predicates {eventType : String} {optional : Bool} (named : eventType ≠ "") :
    Storable ⟨eventType, optional, predicates fields⟩ := by
  obtain ⟨ordered, parts⟩ := Json.normal_object_iff.mp normal
  refine ⟨named, ordered.sublist List.filter_sublist, fun field member => ?_,
    fun field member => ?_⟩
  · exact parts field (List.mem_of_mem_filter member)
  · simpa using (List.mem_filter.mp member).2

end

theorem nesting_toJson_le_iff {event : ExpectedEvent} {depth : Nat} :
    (ofJson event.toJson).nesting ≤ depth + 1 ↔
      ∀ field ∈ event.fields, (ofJson field.2).nesting ≤ depth := by
  rw [toJson, nesting_object_le_iff]
  cases event.optional <;> simp [ofJson, nesting]

theorem exists_decode {document : Json} (normal : document.Normal)
    (admits : Manifest.eventSchema.Admits document) :
    ∃ event, decode .value (ofJson document) = .ok event ∧ event.Storable ∧
      (ofJson event.toJson).nesting ≤ (ofJson document).nesting := by
  cases admits with
  | @record _ _ _ fields parts _ present =>
      simp only [List.forall_mem_cons] at parts
      obtain ⟨type, mark, -⟩ := parts
      obtain ⟨typed, found⟩ := present "event_type" List.mem_cons_self
      obtain ⟨eventType, named, rfl⟩ := Schema.admits_filled_iff.mp (type typed found)
      have marked : ∃ optional,
          (Table.find? "optional" fields).getD (.bool false) = .bool optional :=
        Table.find?_getD (fun part : Json => ∃ b, part = .bool b) ⟨false, rfl⟩ fun part given => by
          cases mark part given with
          | boolean b => exact ⟨b, rfl⟩
      obtain ⟨optional, marked⟩ := marked
      refine ⟨_, decode_object normal found marked, storable_predicates normal named, ?_⟩
      rw [ofJson, nesting, nesting_toJson_le_iff]
      intro field member
      exact nestingMembers_le_iff.mp (Nat.le_refl _) field (List.mem_of_mem_filter member)

def members (event : ExpectedEvent) : List (String × Json) :=
  [("event_type", .string event.eventType)] ++
    (if event.optional then [("optional", .bool true)] else []) ++ event.fields

def table (event : ExpectedEvent) : Table Json :=
  Table.ofList (Json.normalizeFields event.members)

theorem normalize_toJson (event : ExpectedEvent) : event.toJson.normalize = .object event.table := by
  rw [toJson, Json.normalize, table, members]

theorem normal_table (event : ExpectedEvent) : (Json.object event.table).Normal := by
  rw [← normalize_toJson]
  exact Json.normal_normalize _

theorem find?_predicates (fields : List (String × Json)) (key : String) :
    Table.find? key (predicates fields) =
      if key ∈ reader.names then none else Table.find? key fields := by
  split
  next own =>
    rw [Option.eq_none_iff_forall_ne_some]
    intro value found
    have kept := (List.mem_filter.mp (Table.mem_of_find? found)).2
    simp [own] at kept
  next foreign =>
    exact Table.find?_filter_key (fun key => key ∉ reader.names) (by simpa using foreign) fields

section

variable {event : ExpectedEvent} (apart : ∀ field ∈ event.fields, field.1 ∉ reader.names)

include apart

theorem lastOf_own {key : String} (own : key ∈ reader.names) :
    Table.lastOf key event.fields = none := by
  rw [← Option.not_isSome_iff_eq_none, Table.isSome_lastOf_iff]
  intro present
  obtain ⟨field, member, rfl⟩ := List.mem_map.mp present
  exact apart field member own

theorem find?_eventType :
    Table.find? "event_type" event.table = some (.string event.eventType) := by
  have absent := lastOf_own apart (show "event_type" ∈ reader.names by decide)
  rw [table, Json.find?_ofList_normalizeFields, members]
  cases event.optional <;> simp [Table.lastOf, absent, Json.normalize]

theorem find?_optional : Table.find? "optional" event.table =
    if event.optional then some (.bool true) else none := by
  have absent := lastOf_own apart (show "optional" ∈ reader.names by decide)
  rw [table, Json.find?_ofList_normalizeFields, members]
  cases event.optional <;> simp [Table.lastOf, absent, Json.normalize]

theorem named_of_admits (admits : Manifest.eventSchema.Admits event.toJson.normalize) :
    event.eventType ≠ "" := by
  rw [normalize_toJson] at admits
  cases admits with
  | record meets _ _ =>
      have typed := meets ("event_type", .text 1) List.mem_cons_self _ (find?_eventType apart)
      obtain ⟨_, named, same⟩ := Schema.admits_filled_iff.mp typed
      exact Json.string.inj same ▸ named

end

namespace Storable

variable {event : ExpectedEvent} (storable : event.Storable)

include storable

theorem predicates_table : predicates event.table = event.fields := by
  have ordered : Table.Ordered (predicates event.table) :=
    (Table.ordered_ofList _).sublist List.filter_sublist
  refine ordered.ext storable.ordered fun key => ?_
  rw [find?_predicates, ← storable.ordered.lastOf_eq_find?]
  split
  next own => rw [lastOf_own storable.apart own]
  next foreign =>
    have type : key ≠ "event_type" := (ne_of_mem_of_not_mem (by decide) foreign).symm
    have mark : key ≠ "optional" := (ne_of_mem_of_not_mem (by decide) foreign).symm
    have other : Table.lastOf key event.members = Table.lastOf key event.fields := by
      rw [members]
      cases event.optional <;> simp [Table.lastOf, type, mark]
    rw [table, Json.find?_ofList_normalizeFields, other]
    cases found : Table.lastOf key event.fields with
    | none => rfl
    | some value =>
        have normal := storable.normal _ (Table.mem_of_lastOf found)
        exact congrArg some normal

theorem decode_normalize : decode .value (ofJson event.toJson.normalize) = .ok event := by
  have marked : (Table.find? "optional" event.table).getD (.bool false) = .bool event.optional := by
    rw [find?_optional storable.apart]
    cases event.optional <;> rfl
  rw [normalize_toJson, decode_object event.normal_table (find?_eventType storable.apart) marked,
    storable.predicates_table]

theorem admits_normalize : Manifest.eventSchema.Admits event.toJson.normalize := by
  rw [normalize_toJson]
  refine .record ?_ nofun ?_
  · simp only [List.forall_mem_cons]
    refine ⟨fun value found => ?_, fun value found => ?_, nofun⟩
    · obtain rfl := Option.some.inj ((find?_eventType storable.apart).symm.trans found)
      exact Schema.admits_filled_iff.mpr ⟨_, storable.named, rfl⟩
    · rw [find?_optional storable.apart] at found
      split at found
      · obtain rfl := Option.some.inj found
        exact .boolean true
      · cases found
  · simpa using ⟨_, find?_eventType storable.apart⟩

end Storable

end ExpectedEvent

theorem RuleKind.decode_name (origin : Origin) (kind : RuleKind) :
    RuleKind.decode origin (.string kind.name) = .ok kind := by
  cases kind <;> rfl

namespace FieldRule

theorem normal_toJson (rule : FieldRule) : rule.toJson.Normal := by
  have before : "field" < "rule" := by decide
  refine Json.normal_object_iff.mpr ⟨List.pairwise_pair.mpr before, ?_⟩
  simp [Json.Normal, Json.normalize]

theorem decode_toJson (rule : FieldRule) : decode .value (ofJson rule.toJson) = .ok rule := by
  refine Accepts.decode ?_ (by simp) (by simp [reader]) rfl _
  exact ((accepts_field rfl rfl).map FieldRule.mk).seq (accepts_field rfl (RuleKind.decode_name _ _))

theorem admits_toJson {rule : FieldRule} (named : rule.field ≠ "") :
    Manifest.ruleSchema.Admits rule.toJson := by
  refine .record ?_ (by simp) (by simp [Table.find?])
  simp only [List.forall_mem_cons, List.not_mem_nil, false_implies, implies_true, and_true]
  constructor
  · intro value found
    obtain rfl := Option.some.inj found
    exact Schema.admits_filled_iff.mpr ⟨_, named, rfl⟩
  · intro value found
    obtain rfl := Option.some.inj found
    exact .choice (by cases rule.kind <;> decide)

theorem exists_decode {document : Json} (normal : document.Normal)
    (admits : Manifest.ruleSchema.Admits document) :
    ∃ rule, decode .value (ofJson document) = .ok rule ∧ rule.field ≠ "" := by
  cases admits with
  | @record _ _ _ fields parts _ present =>
      simp only [List.forall_mem_cons] at parts present
      obtain ⟨path, choice, -⟩ := parts
      obtain ⟨⟨part, found⟩, ⟨named, chosen⟩, -⟩ := present
      obtain ⟨field, filled, rfl⟩ := Schema.admits_filled_iff.mp (path part found)
      cases choice named chosen with
      | @choice _ name listed =>
          obtain ⟨kind, -, rfl⟩ := List.mem_map.mp listed
          have first : (required "field" Decoder.string).Accepts .value (reader.foundIn fields)
              field :=
            accepts_required (by decide) found rfl
          have second : (required "rule" RuleKind.decode).Accepts .value (reader.foundIn fields)
              kind :=
            accepts_required (by decide) chosen (RuleKind.decode_name _ _)
          have distinct := (Json.normal_object_iff.mp normal).1.distinct
          exact ⟨⟨field, kind⟩,
            ((first.map FieldRule.mk).seq second).decode_known distinct rfl _, filled⟩

end FieldRule

end AuditTrail
