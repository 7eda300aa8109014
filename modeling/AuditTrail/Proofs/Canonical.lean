import AuditTrail.Canonical.Text
import AuditTrail.Proofs.Table

/-!
How canonical text begins. An object is written in the order of its keys, so its first characters
are those of its least key.
-/

namespace AuditTrail.Json

theorem normalizeItems_eq_map (items : List Json) : normalizeItems items = items.map normalize := by
  induction items with
  | nil => rfl
  | cons item rest ih => simp only [normalizeItems, ih, List.map_cons]

theorem normalizeFields_eq_map (fields : List (String × Json)) :
    normalizeFields fields = fields.map fun field => (field.1, field.2.normalize) := by
  induction fields with
  | nil => rfl
  | cons field rest ih => simp only [normalizeFields, ih, List.map_cons]

theorem keys_normalizeFields (fields : List (String × Json)) :
    (normalizeFields fields).map Prod.fst = fields.map Prod.fst := by
  simp only [normalizeFields_eq_map, List.map_map, Function.comp_def]

theorem writeFields_cons (number : Number → List Char) (key : String) (value : Json)
    (rest : List (String × Json)) :
    ∃ text, writeFields number ((key, value) :: rest) = quote key ++ text := by
  cases rest with
  | nil => exact ⟨_, rfl⟩
  | cons next rest => exact ⟨_, by simp only [writeFields, List.append_assoc]; rfl⟩

theorem canonicalChars_object {fields : List (String × Json)} {key : String}
    (found : key ∈ fields.map Prod.fst) (least : ∀ other ∈ fields.map Prod.fst, key ≤ other) :
    ∃ text, (object fields).canonicalChars = '\x7b' :: quote key ++ text := by
  have present : ((Table.ofList (normalizeFields fields)).find? key).isSome = true :=
    Table.isSome_find?_ofList (by rw [keys_normalizeFields]; exact found)
  have before : ∀ entry ∈ Table.ofList (normalizeFields fields), key ≤ entry.1 := by
    intro entry member
    refine least entry.1 ?_
    rw [← keys_normalizeFields]
    exact List.mem_map_of_mem (Table.mem_ofList member)
  obtain ⟨value, rest, table⟩ := (Table.ordered_ofList _).head_of_least before present
  obtain ⟨text, written⟩ := writeFields_cons Number.canonicalChars key value rest
  refine ⟨text ++ ['\x7d'], ?_⟩
  simp only [canonicalChars, normalize, writeWith, table, written, List.cons_append,
    List.append_assoc]

theorem canonicalBytes_object {fields : List (String × Json)} {key : String}
    (found : key ∈ fields.map Prod.fst) (least : ∀ other ∈ fields.map Prod.fst, key ≤ other) :
    Utf8.encodeChars ('\x7b' :: quote key) <+: (object fields).canonicalBytes := by
  obtain ⟨text, written⟩ := canonicalChars_object found least
  refine ⟨Utf8.encodeChars text, ?_⟩
  rw [canonicalBytes, written]
  simp only [Utf8.encodeChars, List.flatMap_append]

end AuditTrail.Json
