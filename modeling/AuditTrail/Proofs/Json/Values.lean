import AuditTrail.Proofs.Json.Indented
import AuditTrail.Proofs.Json.Normal
import AuditTrail.Proofs.Json.Record
import AuditTrail.Proofs.Json.WellFormed

/-!
Reading from a value instead of a text. A value that was read from a text is in normal form and not
deeper than texts are read; from then on nothing is malformed, and members that a record does not
know are passed over.
-/

namespace AuditTrail

open Document

theorem Json.normal_of_parse? {text : String} {value : Json}
    (parsed : Json.parse? text = some value) : value.Normal := by
  unfold Json.parse? at parsed
  split at parsed
  next =>
    obtain ⟨tree, -, rfl⟩ := Option.map_eq_some_iff.mp parsed
    exact tree.normal_normalize
  next => cases parsed

theorem Json.shallow_of_parse? {text : String} {value : Json}
    (parsed : Json.parse? text = some value) : (ofJson value).nesting ≤ Json.maxDepth := by
  unfold Json.parse? at parsed
  split at parsed
  next =>
    obtain ⟨tree, read, rfl⟩ := Option.map_eq_some_iff.mp parsed
    exact nesting_normalize (nesting_of_toTree? read)
  next => cases parsed

namespace Document

theorem wellFormed_ofJson (value : Json) : (ofJson value).wellFormed = true :=
  wellFormed_of_toTree? _ _ value ((toTree?_ofJson value _).trans (if_pos (Nat.le_refl _)))

end Document

namespace Decoder

variable {α : Type} {decode : Decoder α} {origin inner : Origin}

theorem json_value (value : Json) : json .value (Document.ofJson value) = .ok value.normalize := by
  unfold json
  dsimp only
  rw [toJson?, toTree?_ofJson, if_pos (Nat.le_refl _)]
  rfl

theorem list_of_forall₂ (descends : origin.descend = .ok inner) {items : List Json}
    {results : List α}
    (each : List.Forall₂ (fun item result => decode inner (Document.ofJson item) = .ok result) items
      results) : list decode origin (Document.ofJson (.array items)) = .ok results := by
  have listed : listItems decode inner (ofItems items) = .ok results := by
    induction each with
    | nil => rfl
    | cons first _ ih =>
        simp only [ofItems, listItems, first, ih]
        rfl
  simp only [Document.ofJson, list, descends, listed, bind, Except.bind, if_true]

end Decoder

namespace RecordReader

variable {α : Type} {origin inner : Origin} {fields : List (String × Json)}

theorem lookup_documents (fields : List (String × Json)) (key : String) :
    lookup (documents fields) key = (Table.find? key fields).map ofJson := by
  induction fields with
  | nil => rfl
  | cons field fields ih =>
      unfold lookup at ih ⊢
      rw [documents, List.map_cons, ← documents, List.find?_cons, Table.find?]
      by_cases same : field.1 = key
      · simp [same]
      · simp [same, Ne.symm same, ih]

def known (reader : RecordReader α) (fields : List (String × Json)) : List (String × Json) :=
  fields.filter fun field => field.1 ∈ reader.names

def foundIn (reader : RecordReader α) (fields : List (String × Json)) (key : String) :
    Option Document :=
  lookup (documents (reader.known fields)) key

theorem foundIn_eq {reader : RecordReader α} {key : String} (own : key ∈ reader.names) :
    reader.foundIn fields key = (Table.find? key fields).map ofJson := by
  rw [foundIn, lookup_documents, known,
    Table.find?_filter_key (fun key => key ∈ reader.names) (by simpa)]

theorem scan_known (reader : RecordReader α) (seen : List (String × Document)) :
    reader.scan origin seen (ofFields (reader.known fields)) =
      reader.scan origin seen (ofFields fields) := by
  induction fields generalizing seen with
  | nil => rfl
  | cons field fields ih =>
      rw [known] at ih ⊢
      cases found : reader.fields.find? fun check => check.name = field.1 with
      | none =>
          have foreign : field.1 ∉ reader.names := by
            intro own
            obtain ⟨check, member, same⟩ := List.mem_map.mp own
            simpa [same] using List.find?_eq_none.mp found check member
          rw [List.filter_cons_of_neg (by simpa using foreign), ih, ofFields, scan]
          simp only [found, wellFormed_ofJson, if_true]
      | some check =>
          have own : field.1 ∈ reader.names :=
            List.mem_map.mpr ⟨check, List.mem_of_find?_eq_some found,
              by simpa using List.find?_some found⟩
          rw [List.filter_cons_of_pos (by simpa using own), ofFields, ofFields, scan, scan]
          simp only [found, ih]

section

variable {β : Type} {reader : RecordReader β} {name : String} {decode : Decoder α} {value : α}
  (own : name ∈ reader.names)

include own

theorem accepts_required {part : Json} (found : Table.find? name fields = some part)
    (decoded : decode origin (ofJson part) = .ok value) :
    (required name decode).Accepts origin (reader.foundIn fields) value :=
  accepts_field ((foundIn_eq own).trans (congrArg (Option.map ofJson) found)) decoded

theorem accepts_withDefault {default : α}
    (given : ∀ part, Table.find? name fields = some part → decode origin (ofJson part) = .ok value)
    (missing : Table.find? name fields = none → default = value) :
    (withDefault name decode default).Accepts origin (reader.foundIn fields) value := by
  have told : reader.foundIn fields name = (Table.find? name fields).map ofJson := foundIn_eq own
  cases found : Table.find? name fields with
  | none =>
      obtain rfl := missing found
      exact accepts_default (told.trans (congrArg (Option.map ofJson) found))
  | some part =>
      exact accepts_field (told.trans (congrArg (Option.map ofJson) found)) (given part found)

end

theorem Accepts.decode_known {reader : RecordReader α} {value : α}
    (accepts : reader.Accepts inner (reader.foundIn fields) value)
    (distinct : (fields.map Prod.fst).Nodup) (descends : origin.descend = .ok inner)
    (name : String) : reader.decode name origin (ofJson (.object fields)) = .ok value := by
  have own : ∀ key ∈ (reader.known fields).map Prod.fst, key ∈ reader.names := by
    intro key member
    obtain ⟨field, kept, rfl⟩ := List.mem_map.mp member
    simpa using (List.mem_filter.mp kept).2
  have apart : ((reader.known fields).map Prod.fst).Nodup :=
    distinct.sublist (List.filter_sublist.map Prod.fst)
  have read := accepts.decode apart own descends name
  rw [ofJson, RecordReader.decode] at read ⊢
  simp only [scan_known] at read
  exact read

end RecordReader

end AuditTrail
