import AuditTrail.Canonical.Datum
import AuditTrail.Proofs.Canonical
import AuditTrail.Proofs.Json.Spelling

/-!
The encoder of typed data and canonical text agree: a normalized JSON value, taken as a datum, is
never refused, and what it is encoded to is its canonical text.
-/

namespace AuditTrail

namespace Canonical

theorem decodeKey_quote (key : String) : decodeKey (quote key) = .ok key := by
  have read := Document.string?_escaped key []
  rw [← List.append_nil (quote key), quote_append]
  simp only [decodeKey, read]

theorem insertNew_of_after {table : Table (List Char)} {key : String} (text : List Char)
    (after : ∀ entry ∈ table, entry.1 < key) :
    insertNew key text table = .ok (table ++ [(key, text)]) := by
  simp [insertNew, Table.contains, Table.find?_eq_none_of_after after,
    Table.insert_eq_append text after]

end Canonical

namespace Datum

open Canonical Json

/-- A value whose encoding is its own compact text, keys in the order they stand in. -/
def EncodesAsWritten (value : Json) : Prop :=
  (ofJson value).encode = .ok (value.writeWith Number.canonicalChars)

theorem encodeItems_ofItems {items : List Json}
    (each : ∀ item ∈ items, EncodesAsWritten item) :
    encodeItems (ofItems items) = .ok (items.map (·.writeWith Number.canonicalChars)) := by
  induction items with
  | nil => rfl
  | cons item rest ih =>
      have first : (ofJson item).encode = _ := each item List.mem_cons_self
      have later := ih fun other member => each other (List.mem_cons_of_mem _ member)
      simp only [ofItems, encodeItems, first, later]
      rfl

theorem encodeEntries_ofFields {table : Table (List Char)} {fields : List (String × Json)}
    (ordered : Table.Ordered fields)
    (after : ∀ entry ∈ table, ∀ field ∈ fields, entry.1 < field.1)
    (each : ∀ field ∈ fields, EncodesAsWritten field.2) :
    encodeEntries table (ofFields fields) = .ok (table ++
      fields.map fun field => (field.1, field.2.writeWith Number.canonicalChars)) := by
  induction fields generalizing table with
  | nil => simp [ofFields, encodeEntries]
  | cons field rest ih =>
      obtain ⟨key, value⟩ := field
      obtain ⟨before, tail⟩ := List.pairwise_cons.mp ordered
      have first : (ofJson value).encode = _ := each (key, value) List.mem_cons_self
      have name : (text key).encode = .ok (quote key) := by simp only [encode]
      have inserted := insertNew_of_after (value.writeWith Number.canonicalChars)
        fun entry member => after entry member (key, value) List.mem_cons_self
      have place : ∀ entry ∈ table ++ [(key, value.writeWith Number.canonicalChars)],
          ∀ other ∈ rest, entry.1 < other.1 := by
        intro entry member other found
        rcases List.mem_append.mp member with old | new
        · exact after entry old other (List.mem_cons_of_mem _ found)
        · rw [List.mem_singleton.mp new]
          exact before other found
      have later := ih tail place fun other member => each other (List.mem_cons_of_mem _ member)
      simp only [ofFields, encodeEntries, name, first, bind, Except.bind, decodeKey_quote, inserted,
        later, List.map_cons, List.append_assoc, List.singleton_append]

theorem encode_ofJson (value : Json) :
    (ofJson value.normalize).encode = .ok value.canonicalChars := by
  show EncodesAsWritten value.normalize
  induction value using structural with
  | null => simp [EncodesAsWritten, Json.normalize, ofJson, encode, writeWith]
  | bool b => cases b <;> simp [EncodesAsWritten, Json.normalize, ofJson, encode, writeWith]
  | number n =>
      cases n <;>
        simp [EncodesAsWritten, Json.normalize, ofJson, encode, writeWith, Number.canonicalChars]
  | string s => simp [EncodesAsWritten, Json.normalize, ofJson, encode, writeWith]
  | array items ih =>
      have each : ∀ item ∈ normalizeItems items, EncodesAsWritten item := by
        intro item member
        rw [normalizeItems_eq_map] at member
        obtain ⟨source, found, rfl⟩ := List.mem_map.mp member
        exact ih source found
      simp only [EncodesAsWritten, Json.normalize, ofJson, encode, encodeItems_ofItems each,
        writeWith, writeItems_eq_joinItems]
      rfl
  | object fields ih =>
      have each : ∀ field ∈ Table.ofList (normalizeFields fields), EncodesAsWritten field.2 := by
        intro field member
        have member := Table.mem_ofList member
        rw [normalizeFields_eq_map] at member
        obtain ⟨source, found, rfl⟩ := List.mem_map.mp member
        exact ih source found
      have entries := encodeEntries_ofFields (Table.ordered_ofList (normalizeFields fields))
        (fun entry none => absurd none List.not_mem_nil) each
      simp only [EncodesAsWritten, Json.normalize, ofJson, encode, entries, writeWith,
        writeFields_eq_joinItems, bind, Except.bind, List.nil_append, braces, List.map_map]
      rfl

end Datum

end AuditTrail
